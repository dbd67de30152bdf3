import Changelog.Entry.Open
import Changelog.Proofs.Drawing.Reports
import Changelog.Proofs.Drawing.Shift
import Changelog.Proofs.Layout.Offsets

/-! One pass over a document. Before every segment the cursor is moved down to the segment's offset, so
what is drawn for a segment depends on its number, on the rows before it and on the instructions before
it, and not on which other segments the pass draws. -/

namespace Changelog

open Renderer

namespace Segment

variable {segment : Segment} (env : LayoutEnv ℚ) (scope : TextScope)

/-- The instructions are the font and the anchor tags. -/
theorem tag?_of_isInstruction (h : segment.isInstruction = true) :
    segment.tag? = some .font ∨ segment.tag? = some .anchor := by
  unfold isInstruction at h
  split at h
  · rename_i kind hTag
    rw [hTag]
    cases kind with
    | font => exact .inl rfl
    | anchor => exact .inr rfl
    | title | image | gif => cases h
  · cases h

theorem exactHeight_of_isInstruction (h : segment.isInstruction = true) :
    env.exactHeight scope segment = 0 := by
  unfold LayoutEnv.exactHeight
  rcases tag?_of_isInstruction h with hTag | hTag <;> rw [hTag]

theorem segmentOps_of_isInstruction (h : segment.isInstruction = true) (r : Renderer ℚ) :
    r.segmentOps segment = [] := by
  unfold Renderer.segmentOps
  rcases tag?_of_isInstruction h with hTag | hTag <;> rw [hTag]

/-- Only instructions change the style. -/
theorem after_of_not_isInstruction (h : ¬segment.isInstruction = true) :
    scope.after segment = scope := by
  unfold TextScope.after
  cases hTag : segment.tag? with
  | none => rfl
  | some kind =>
      cases kind with
      | font | anchor => exact absurd (by simp [isInstruction, hTag, TagKind.isInstruction]) h
      | title | image | gif => rfl

/-- An instruction can be placed in any column. -/
theorem fits_of_isInstruction (h : segment.isInstruction = true) (images : ImageCache) (width : ℚ) :
    segment.Fits images width := by
  have hTag := tag?_of_isInstruction h
  exact ⟨room_of_tag?_ne fun hImage => by simp [hImage] at hTag,
    cellsFit_of_tag?_ne fun hGif => by simp [hGif] at hTag⟩

end Segment

/-- Placing only the instructions among segments leaves the style that all of them leave, and does
nothing else. -/
theorem Renderer.exists_placeInstructions (r : Renderer ℚ) (segments : List Segment) :
    ∃ r', r.placeSegments? (segments.filter Segment.isInstruction) = some r' ∧
      r.Step r' (segments.foldl TextScope.after r.scope) 0 [] := by
  induction segments generalizing r with
  | nil => exact ⟨r, rfl, Step.refl r⟩
  | cons segment rest ih =>
      by_cases hInstruction : segment.isInstruction = true
      · obtain ⟨r₁, hPlace⟩ := Option.isSome_iff_exists.1 <| isSome_placeSegment?_iff.2 <|
          Segment.fits_of_isInstruction hInstruction r.images r.columnWidth
        have hStep := step_placeSegment? hPlace
        rw [segment.exactHeight_of_isInstruction _ _ hInstruction,
          Segment.segmentOps_of_isInstruction hInstruction] at hStep
        obtain ⟨r₂, hRest, hAll⟩ := ih r₁
        rw [hStep.scope_eq] at hAll
        refine ⟨r₂, ?_, hAll.after hStep⟩
        rw [List.filter_cons_of_pos hInstruction, placeSegments?, hPlace]
        exact hRest
      · obtain ⟨r₁, hRest, hAll⟩ := ih r
        refine ⟨r₁, ?_, ?_⟩
        · rwa [List.filter_cons_of_neg hInstruction]
        · rwa [List.foldl_cons, Segment.after_of_not_isInstruction _ hInstruction]

namespace Entry

/-- A segment as a pass draws it: its number, the place of its upper edge on the canvas, the style in
force, and what is drawn for it. -/
structure PlacedSegment where
  index : Nat
  top : ℚ
  scope : TextScope
  ops : List (DrawOp ℚ)

/-- What `placeRange?` draws, segment by segment. -/
def placedRange? (layout : DocumentLayout ℚ) (r : Renderer ℚ) :
    List (Segment × Nat) → Option (List PlacedSegment)
  | [] => some []
  | (segment, i) :: rest =>
    let aligned := alignTo r (layout.segmentOffset i)
    (aligned.placeSegment? segment).bind fun next =>
      (placedRange? layout next rest).map fun placed =>
        { index := i
          top := aligned.top
          scope := aligned.scope
          ops := next.canvas.ops.drop aligned.canvas.ops.length } :: placed

/-- Segment `i` of a document as it is drawn in the column of `r`, whatever else is drawn there. -/
def placedAt (r : Renderer ℚ) (segments : List Segment) : Segment × Nat → PlacedSegment
  | (segment, i) =>
    let scope := (segments.take i).foldl TextScope.after {}
    let cursor : ℚ := (((r.env.documentRows {} segments).take i).sum : Nat)
    { index := i
      top := r.origin.y + cursor
      scope
      ops := { r with cursor, scope }.segmentOps segment }

variable {base r : Renderer ℚ}

/-- Moving the cursor to an offset never moves it back. -/
theorem step_alignTo (r : Renderer ℚ) (offset : Nat) :
    r.Step (alignTo r offset) r.scope (max (offset - r.cursor) 0) [] := by
  unfold alignTo
  dsimp only
  split
  · exact step_skip r _
  · rename_i hGap
    have hGap : (offset : ℚ) - r.cursor ≤ 0 := not_lt.1 hGap
    rw [max_eq_right hGap]
    exact Step.refl r

/-- A cursor that has not come further than an offset is moved to it. -/
theorem cursor_alignTo {offset : Nat} (h : r.cursor ≤ offset) : (alignTo r offset).cursor = offset := by
  rw [(step_alignTo r offset).cursor_eq, max_eq_left (sub_nonneg.2 h), add_sub_cancel]

/-- The rows of the segments before one do not depend on those behind it. -/
theorem take_documentRows (env : LayoutEnv ℚ) (before after : List Segment) :
    (env.documentRows {} (before ++ after)).take before.length = env.documentRows {} before := by
  rw [← LayoutEnv.documentRows_take, List.take_left]

/-- What a pass keeps: before every segment it is still in the column of `base`, the style is the one
that the segments before leave, and the cursor has not come further than the rows that they take.
The segments before need not all have been drawn. -/
structure Through (base : Renderer ℚ) (before : List Segment) (r : Renderer ℚ) : Prop where
  column : SameColumn base r
  scope_eq : r.scope = before.foldl TextScope.after {}
  cursor_le : r.cursor ≤ ((base.env.documentRows {} before).sum : Nat)

/-- What is drawn for a segment at a place of the column is the same in any pass. -/
theorem segmentOps_of_column (hColumn : SameColumn base r) (hMouse : base.canvas.mouse = none)
    (segment : Segment) :
    r.segmentOps segment =
      { base with cursor := r.cursor, scope := r.scope }.segmentOps segment := by
  have hShifted : Shifted 0 { base with cursor := r.cursor, scope := r.scope } r :=
    { settings := hColumn.settings
      images := hColumn.images
      x_eq := by rw [hColumn.origin]
      y_eq := by rw [hColumn.origin, sub_zero]
      elapsed := hColumn.elapsed
      width := hColumn.width
      measurer := hColumn.measurer
      mouse := ⟨hMouse, hColumn.mouse.trans hMouse⟩
      cursor := rfl
      scope := rfl }
  rw [hShifted.segmentOps, funext DrawOp.shiftUp_zero, List.map_id']

section Range

variable {layout : DocumentLayout ℚ} {segments : List Segment}
  (hDrawable : ∀ segment ∈ segments, segment.Fits base.images base.columnWidth)
  (hMouse : base.canvas.mouse = none)
  (hOffset : ∀ i, layout.segmentOffset i = ((base.env.documentRows {} segments).take i).sum)

include hDrawable hMouse hOffset

/-- One segment of a pass is drawn where it is drawn by itself: the cursor is moved to its offset, and
afterwards it has not come further than the offset of the next segment, since no segment is higher than
the rows that it takes. -/
theorem Through.exists_placeSegment? {before after : List Segment} {segment : Segment}
    (h : Through base before r) (hSplit : segments = before ++ segment :: after)
    {aligned : Renderer ℚ} (hAligned : alignTo r (layout.segmentOffset before.length) = aligned) :
    ∃ next, aligned.placeSegment? segment = some next ∧
      Through base (before ++ [segment]) next ∧
      next.canvas.ops = r.canvas.ops ++ (placedAt base segments (segment, before.length)).ops ∧
      { index := before.length
        top := aligned.top
        scope := aligned.scope
        ops := next.canvas.ops.drop aligned.canvas.ops.length } =
        placedAt base segments (segment, before.length) := by
  have hOwn : layout.segmentOffset before.length = (base.env.documentRows {} before).sum := by
    rw [hOffset, hSplit, take_documentRows]
  have hAlign := step_alignTo r (layout.segmentOffset before.length)
  rw [hAligned] at hAlign
  have hColumn := h.column.trans hAlign.column
  have hCursor : aligned.cursor = ((base.env.documentRows {} before).sum : Nat) := by
    rw [← hAligned, hOwn]
    exact cursor_alignTo h.cursor_le
  have hScope : aligned.scope = before.foldl TextScope.after {} :=
    hAlign.scope_eq.trans h.scope_eq
  -- all that the drawing of a segment depends on is the column, the cursor and the style
  have hPlaced : placedAt base segments (segment, before.length) =
      { index := before.length
        top := aligned.top
        scope := aligned.scope
        ops := aligned.segmentOps segment } := by
    rw [segmentOps_of_column hColumn hMouse, hCursor, hScope, Renderer.top, hColumn.origin, hCursor]
    simp only [placedAt, hSplit, take_documentRows, List.take_left]
  have hSegment := hDrawable segment (hSplit ▸ List.mem_append_right _ List.mem_cons_self)
  rw [← hColumn.images, ← hColumn.width] at hSegment
  obtain ⟨next, hPlace⟩ := Option.isSome_iff_exists.1 (isSome_placeSegment?_iff.2 hSegment)
  have hStep := step_placeSegment? hPlace
  rw [hColumn.env_eq, hScope] at hStep
  refine ⟨next, hPlace, ⟨hColumn.trans hStep.column, ?_, ?_⟩, ?_, ?_⟩
  · rw [hStep.scope_eq, List.foldl_append]
    rfl
  · have hLe := base.env.exactHeight_le_rows (before.foldl TextScope.after {}) segment
    rw [hStep.cursor_eq, hCursor, LayoutEnv.documentRows_append, List.sum_append, Nat.cast_add]
    simpa [LayoutEnv.documentRows] using hLe
  · rw [hStep.ops_eq, hAlign.ops_eq, List.append_nil, hPlaced]
  · rw [hPlaced, hStep.ops_eq, List.drop_left]

/-- A pass over a range draws every segment of it where it is drawn by itself. -/
theorem Through.exists_placeRange? {before range after : List Segment}
    (h : Through base before r) (hSplit : segments = before ++ range ++ after) :
    ∃ last, placeRange? layout r (range.zipIdx before.length) = some last ∧
      placedRange? layout r (range.zipIdx before.length) =
        some ((range.zipIdx before.length).map (placedAt base segments)) ∧
      last.canvas.ops = r.canvas.ops ++
        ((range.zipIdx before.length).map (placedAt base segments)).flatMap PlacedSegment.ops := by
  induction range generalizing before r with
  | nil => exact ⟨r, rfl, rfl, (List.append_nil _).symm⟩
  | cons segment rest ih =>
      -- the segment drawn moves from the range to those before it
      have hNext : segments = (before ++ [segment]) ++ rest ++ after := by
        rw [hSplit, List.append_cons]
      have hHere : segments = before ++ segment :: (rest ++ after) :=
        hSplit.trans (List.append_assoc ..)
      obtain ⟨next, hPlace, hThrough, hOps, hPlaced⟩ :=
        h.exists_placeSegment? hDrawable hMouse hOffset hHere rfl
      obtain ⟨last, hRest, hPlacedRest, hAll⟩ := ih hThrough hNext
      rw [List.length_append, List.length_singleton] at hRest hPlacedRest hAll
      refine ⟨last, ?_, ?_, ?_⟩
      · rw [List.zipIdx_cons, placeRange?, hPlace]
        exact hRest
      · rw [List.zipIdx_cons, placedRange?, hPlace, List.map_cons, ← hPlaced]
        simp only [Option.bind_some, hPlacedRest, Option.map_some]
      · rw [hAll, hOps, List.zipIdx_cons, List.map_cons, List.flatMap_cons, List.append_assoc]

end Range

end Entry

end Changelog
