import Changelog.Entry.Record
import Changelog.Layout.Document
import Changelog.Layout.SegmentDrawing

/-!
An open changelog entry: its record, its segments, its images, and the layout computed last, which
is used again as long as the width of the column and the downloads have not changed.
-/

namespace Changelog

/-- The part of a document to draw: `height` rows from row `scroll` on. -/
structure Viewport where
  scroll : Nat
  height : Nat
deriving DecidableEq, Repr

/-- The icons to the left or to the right of the title. -/
inductive IconSide where
  | left
  | right
deriving DecidableEq, Repr

/-- An entry; it draws nothing any more once it is closed. -/
structure Entry (α : Type) where
  record : EntryRecord
  settings : Settings α
  images : ImageCache
  segments : List Segment
  layout : Option (DocumentLayout α) := none
  isOpen : Bool := true

namespace Entry

variable {α : Type} [Scalar α]

/-- An entry over images that are there already. -/
def ofImages (record : EntryRecord) (settings : Settings α) (images : ImageCache) : Entry α :=
  let raw := record.enhancedDescription
  { record, settings, images
    segments := Segment.ensureTrailingNewline (Text.byteSize raw) (parse raw) }

/-- An entry whose images are loaded from directories and downloaded. -/
def load (record : EntryRecord) (sources : ImageSources) (settings : Settings α)
    (fetch : Fetcher) : Entry α :=
  let images := ImageCache.load settings sources
  let images :=
    if record.images.isEmpty then images
    else images.onDownloads (Batches.begin fetch record.images)
  ofImages record settings images

/-- What the layout depends on. -/
def env (e : Entry α) (measurer : Measurer α) : LayoutEnv α :=
  LayoutEnv.standard e.settings e.images measurer

/-- What a layout computed now would be computed from, as far as it can change. -/
def params (e : Entry α) : LayoutParams α :=
  { columnWidth := e.settings.columnWidth, generation := e.images.generation }

/-- The layout computed last, if nothing has changed since. -/
def currentLayout? (e : Entry α) : Option (DocumentLayout α) :=
  e.layout.filter fun layout => layout.params.same e.params

/-- The layout, computed anew if something has changed. -/
def computeLayout? (e : Entry α) (measurer : Measurer α) :
    Option (Noted (Entry α × DocumentLayout α)) :=
  match e.currentLayout? with
  | some layout => some (pure (e, layout))
  | none =>
    (DocumentLayout.compute? (e.env measurer) e.segments).map fun computed => do
      let layout ← computed
      return ({ e with layout := some layout }, layout)

/-- Height of the document with the space at its end. -/
def totalHeight? (e : Entry α) (measurer : Measurer α) : Option (Noted (Entry α × Nat)) := do
  let laidOut ← e.computeLayout? measurer
  let total ← laidOut.value.2.totalHeight?
  return { laidOut with value := (laidOut.value.1, total) }

def setColumnWidth (e : Entry α) (width : α) : Entry α :=
  { e with settings := { e.settings with columnWidth := width } }

/-- Moves the cursor down to a row, if it has not come so far. -/
def alignTo (r : Renderer α) (offset : Nat) : Renderer α :=
  let gap := Scalar.ofNat offset - r.cursor
  if Scalar.zero < gap then r.skip gap else r

/-- Draws the segments of a range, each at its place in the layout. -/
def placeRange? (layout : DocumentLayout α) (r : Renderer α) : List (Segment × Nat) →
    Option (Renderer α)
  | [] => some r
  | (segment, i) :: rest =>
    ((alignTo r (layout.segmentOffset i)).placeSegment? segment).bind fun r =>
      placeRange? layout r rest

/-- The segments to draw. -/
def visibleRange? (e : Entry α) (layout : DocumentLayout α) (viewport : Option Viewport) :
    Option VisibleRange :=
  match viewport with
  | some view => layout.visibleRange? view.scroll view.height
  | none =>
    layout.totalHeight?.map fun total =>
      { start := 0, stop := e.segments.length, scroll := 0, viewport := total }

/-- Draws a document of which the layout is given. Instructions above the window still count. -/
def renderWith? (e : Entry α) (layout : DocumentLayout α) (canvas : Canvas α) (origin : Point α)
    (viewport : Option Viewport) (elapsed : Elapsed) : Option (Renderer α) := do
  let range ← e.visibleRange? layout viewport
  let shift := (viewport.map fun view => Scalar.ofNat view.scroll).getD Scalar.zero
  let r := { Renderer.start canvas e.settings e.images ⟨origin.x, origin.y - shift⟩ with elapsed }
  let r ← r.placeSegments? ((e.segments.take range.start).filter Segment.isInstruction)
  let r ← placeRange? layout r
    ((e.segments.zipIdx.drop range.start).take range.size)
  let r := alignTo r (layout.segmentOffset range.stop)
  if range.stop = e.segments.length then return r.skip (Scalar.ofNat layout.bottomPadding)
  else return r

/-- A pass over a canvas. -/
structure Rendered (α : Type) where
  entry : Entry α
  canvas : Canvas α
  output : RenderOutput α
  notices : List Notice := []

/-- Draws the document as it looks some time after the entry was opened, in whole or the part in a
window. There is no drawing if a box has to go into a column of negative width, or if the height of
a title, the height of the document, the end of the window or the number of cells of a sprite sheet
does not fit in its machine word. -/
def render? (e : Entry α) (canvas : Canvas α) (origin : Point α) (viewport : Option Viewport)
    (elapsed : Elapsed) : Option (Rendered α) :=
  if e.isOpen then do
    let laidOut ← e.computeLayout? canvas.measurer
    let (e, layout) := laidOut.value
    let r ← e.renderWith? layout canvas origin viewport elapsed
    return {
      entry := e
      canvas := r.canvas
      output := r.finish
      notices := laidOut.notices ++ r.notices }
  else some { entry := e, canvas, output := { height := Scalar.zero, links := {} } }

/-- The icons of one side. -/
def icons (e : Entry α) : IconSide → List HyperlinkedIcon
  | .left => e.record.leftIconBar
  | .right => e.record.rightIconBar

/-- An icon with its texture; a missing one gives a notice. -/
def iconTexture (e : Entry α) (icon : HyperlinkedIcon) : Noted (HyperlinkedIcon × Option Texture) :=
  match e.images.lookup icon.icon with
  | .ready texture => pure (icon, some texture)
  | _ => do
    Noted.tell
      { severity := .error
        key := ['i', 'c', 'o', 'n', ':'] ++ icon.icon
        message := (ResourceError.missingImage icon.icon).message }
    return (icon, none)

/-- The icons of one side with their textures. -/
def iconBar (e : Entry α) (side : IconSide) : Noted (List (HyperlinkedIcon × Option Texture)) :=
  (e.icons side).mapM e.iconTexture

/-- Gives up all images; their number. -/
def close (e : Entry α) : Entry α × Nat :=
  let (images, released) := e.images.dispose
  ({ e with images, layout := none, isOpen := false }, released)

end Entry

end Changelog
