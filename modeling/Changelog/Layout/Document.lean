import Changelog.Layout.HeightIndex
import Changelog.Layout.SegmentHeight

/-!
The layout of a document: the heights of its segments one below the other, and which of them can be
seen through a window. Where a sum does not fit in its machine word, there is no result.
-/

namespace Changelog

/-- Segments from `start` up to `stop`, seen through a window. -/
structure VisibleRange where
  start : Nat
  stop : Nat
  scroll : Nat
  viewport : Nat
  start_le_stop : start ≤ stop := by omega

namespace VisibleRange

def size (v : VisibleRange) : Nat :=
  v.stop - v.start

def isEmpty (v : VisibleRange) : Bool :=
  v.start = v.stop

def contains (v : VisibleRange) (i : Nat) : Bool :=
  v.start ≤ i && i < v.stop

/-- The segments in the range. -/
def indices (v : VisibleRange) : List Nat :=
  List.range' v.start v.size

end VisibleRange

/-- What a layout was computed from, as far as it can change: the width of the column and the state
of the downloads. -/
structure LayoutParams (α : Type) where
  columnWidth : α
  generation : Nat
deriving Repr

namespace LayoutParams

/-- The width is compared in every respect. -/
def same {α : Type} [Scalar α] (a b : LayoutParams α) : Bool :=
  Scalar.same a.columnWidth b.columnWidth && a.generation == b.generation

end LayoutParams

/-- The heights of a document's segments, the blank space below them, and the style after the last
of them. -/
structure DocumentLayout (α : Type) where
  heights : HeightIndex
  bottomPadding : Nat
  scope : TextScope
  params : LayoutParams α
deriving Repr

namespace DocumentLayout

variable {α : Type} [Scalar α]

/-- Measures segments in order and adds their heights to the column. -/
def measure? (env : LayoutEnv α) (scope : TextScope) (heights : HeightIndex) :
    List Segment → Option (Noted (HeightIndex × TextScope))
  | [] => some (pure (heights, scope))
  | segment :: rest => do
    let first ← env.segmentHeight? scope segment
    let others ← measure? env first.value.2 (heights.push first.value.1.toNat) rest
    return { others with notices := first.notices ++ others.notices }

/-- Blank space of one line of the last font. -/
def padding (env : LayoutEnv α) (scope : TextScope) : Nat :=
  min (Scalar.ceil (env.measurer.lineHeight scope.font)).toNat (UInt64.size - 1)

/-- The layout of a document. -/
def compute? (env : LayoutEnv α) (segments : List Segment) : Option (Noted (DocumentLayout α)) :=
  (measure? env {} (.withCapacity segments.length) segments).map fun measured => do
    let (heights, scope) ← measured
    return {
      heights
      bottomPadding := padding env scope
      scope
      params := { columnWidth := env.columnWidth, generation := env.images.generation } }

def size (d : DocumentLayout α) : Nat :=
  d.heights.size

/-- Height of all segments. -/
def contentHeight (d : DocumentLayout α) : Nat :=
  d.heights.total

/-- Height with the space at the end. There is none if a 64-bit word does not hold the sum. -/
def totalHeight? (d : DocumentLayout α) : Option Nat :=
  inWord? UInt64.size (d.contentHeight + d.bottomPadding)

/-- The upper edge of a segment; behind the last one, the height of all. -/
def segmentOffset (d : DocumentLayout α) (i : Nat) : Nat :=
  if i < d.size then (d.heights.offset? i).getD 0 else d.contentHeight

/-- The last row of a window that has rows. There is none if a 64-bit word does not hold the row
after it. -/
def lastRow? (scroll viewport : Nat) : Option Nat :=
  (inWord? UInt64.size (scroll + viewport)).map (· - 1)

/-- The segments that have a row in the window. -/
def visibleRange? (d : DocumentLayout α) (scroll viewport : Nat) : Option VisibleRange :=
  let start := (d.heights.segmentAt? scroll).getD d.size
  if viewport = 0 then
    some { start, stop := start, scroll, viewport, start_le_stop := Nat.le_refl start }
  else
    (lastRow? scroll viewport).map fun row =>
      let stop :=
        match d.heights.segmentAt? row with
        | some i => i + 1
        | none => d.size
      { start, stop := max stop start, scroll, viewport
        start_le_stop := Nat.le_max_right stop start }

end DocumentLayout

end Changelog
