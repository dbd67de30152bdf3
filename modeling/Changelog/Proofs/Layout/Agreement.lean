import Changelog.Proofs.Drawing.Placement
import Changelog.Proofs.Drawing.Reports

/-! Measuring and drawing agree. A document is gone through twice, once for the heights of its segments
and once to draw them; both passes have the same style in force at every segment, and each segment is
drawn in the room that was measured for it. -/

namespace Changelog.Renderer

/-- From `r` to `r'` a segment is drawn as it was measured: the style is the one that measuring leaves,
the height is the distance that the cursor moves, rounded up, and nothing is drawn below the room of
this height. A distance that no 32-bit word holds is not measured as it is. -/
structure Keeps (r r' : Renderer ℚ) (height : Nat) (scope : TextScope) : Prop where
  scope_eq : r'.scope = scope
  height_eq : ⌈r'.cursor - r.cursor⌉ < UInt32.size → (height : ℤ) = ⌈r'.cursor - r.cursor⌉
  inside : ⌈r'.cursor - r.cursor⌉ < UInt32.size → ∃ ops, r'.canvas.ops = r.canvas.ops ++ ops ∧
    DrawOp.AllAbove r.canvas.measurer (r.top + height) ops

variable {r r' : Renderer ℚ} {segment : Segment} {segments : List Segment}

/-- Placing a segment moves the cursor by as many rows as the segment takes, but for the rounding. -/
theorem ceil_moved (h : r.placeSegment? segment = some r') :
    ⌈r'.cursor - r.cursor⌉ = r.env.rows r.scope segment := by
  rw [(step_placeSegment? h).cursor_eq, add_sub_cancel_left, LayoutEnv.natCast_rows]

/-- What is placed fits in as much room as its rows take, as far as a 32-bit word goes. -/
theorem keeps_of_placeSegment? (h : r.placeSegment? segment = some r') :
    r.Keeps r' (min (r.env.rows r.scope segment) (UInt32.size - 1)) (r.scope.after segment) := by
  have hStep := step_placeSegment? h
  have hMin (hFits : ⌈r'.cursor - r.cursor⌉ < UInt32.size) :
      min (r.env.rows r.scope segment) (UInt32.size - 1) = r.env.rows r.scope segment := by
    rw [ceil_moved h] at hFits
    exact Nat.min_eq_left (Nat.le_sub_one_of_lt (by exact_mod_cast hFits))
  refine ⟨hStep.scope_eq, fun hFits => ?_, fun hFits => ?_⟩
  · rw [hMin hFits, ceil_moved h]
  · refine ⟨r.segmentOps segment, hStep.ops_eq, (allAbove_segmentOps r segment).mono ?_⟩
    rw [hMin hFits]
    exact add_le_add_right (r.env.exactHeight_le_rows r.scope segment) r.top

/-- Segments may be placed in two parts. -/
theorem placeSegments?_append (r : Renderer ℚ) (before after : List Segment) :
    r.placeSegments? (before ++ after) =
      (r.placeSegments? before).bind fun r' => r'.placeSegments? after := by
  induction before generalizing r with
  | nil => rfl
  | cons segment rest ih =>
      rw [List.cons_append, placeSegments?, placeSegments?, Option.bind_assoc]
      exact congrArg _ (funext ih)

/-- What placing segments one below the other comes to: the column stays, the style is threaded through
them, and the cursor has not come further than their rows. -/
structure Placed (r : Renderer ℚ) (segments : List Segment) (r' : Renderer ℚ) : Prop where
  column : SameColumn r r'
  scope_eq : r'.scope = segments.foldl TextScope.after r.scope
  top_le : r'.top ≤ r.top + ((r.env.documentRows r.scope segments).sum : Nat)

/-- Segment by segment, the cursor does not come further than the rows, because no segment is higher than
its own. -/
theorem placed_of_placeSegments? (h : r.placeSegments? segments = some r') : r.Placed segments r' := by
  induction segments generalizing r with
  | nil =>
      obtain rfl := Option.some.inj h
      exact ⟨SameColumn.refl r, rfl, by simp [LayoutEnv.documentRows]⟩
  | cons segment rest ih =>
      obtain ⟨next, hPlace, hRest⟩ := Option.bind_eq_some_iff.1 h
      have hStep := step_placeSegment? hPlace
      have hPlaced := ih hRest
      have hTop := hPlaced.top_le
      have hRows := r.env.exactHeight_le_rows r.scope segment
      rw [hStep.column.env_eq, hStep.scope_eq, hStep.top] at hTop
      refine ⟨hStep.column.trans hPlaced.column, ?_, ?_⟩
      · rw [hPlaced.scope_eq, hStep.scope_eq, List.foldl_cons]
      · rw [LayoutEnv.documentRows, List.sum_cons, Nat.cast_add]
        linarith

section

variable {before after : List Segment} {r₁ r₂ : Renderer ℚ} {capacity : Nat} {heights : HeightIndex}
  {last : TextScope} (h : r.Placed before r₁)
include h

/-- The next segment is drawn as it is measured behind those before it. -/
theorem Placed.keeps (hSegment : r₁.placeSegment? segment = some r₂) :
    r₁.Keeps r₂ (min (r.env.rows r₁.scope segment) (UInt32.size - 1))
      ((before ++ [segment]).foldl TextScope.after r.scope) := by
  have hKeeps := keeps_of_placeSegment? hSegment
  rw [h.column.env_eq] at hKeeps
  rw [List.foldl_append, ← h.scope_eq]
  exact hKeeps

variable (hMeasured : DocumentLayout.Measured r.env r.scope (.withCapacity capacity)
  (before ++ segment :: after) heights last)
include hMeasured

/-- The height of a segment is the one that it takes in the style which the segments before it leave. -/
theorem Placed.toList_eq :
    heights.heights.toList =
      r.env.heights r.scope before ++ min (r.env.rows r₁.scope segment) (UInt32.size - 1) ::
        r.env.heights (r₁.scope.after segment) after := by
  rw [hMeasured.toList_eq, LayoutEnv.heights_append, ← h.scope_eq]
  rfl

theorem Placed.height?_eq :
    heights.height? before.length = some (min (r.env.rows r₁.scope segment) (UInt32.size - 1)) := by
  rw [HeightIndex.height?, ← Array.getElem?_toList, h.toList_eq hMeasured]
  simp

/-- Segments whose rows are measured as they are have not come further than their heights. -/
theorem Placed.top_le_sum (hFits : r.env.Fits32 r.scope before) :
    r₁.top ≤ r.top + (heights.heights.toList.take before.length).sum := by
  have hTop := h.top_le
  rw [← LayoutEnv.heights_eq_documentRows hFits] at hTop
  rw [h.toList_eq hMeasured]
  simpa using hTop

end

open DocumentLayout in
/-- Measuring and drawing agree on every segment, and so on every document: at each of its segments
both passes have the same style in force, the height measured there is the distance that drawing moves
the cursor, rounded up, and the segment is drawn inside the room between the heights measured before it
and those measured up to it. Every segment can be drawn whose sprite sheet, if it has one, has few enough
cells, and every one can be measured that moves the cursor by a distance that a 32-bit word holds. -/
theorem drawn_as_measured (r : Renderer ℚ) (hWidth : 0 ≤ r.columnWidth) :
    (∀ segment,
      (segment.CellsFit r.images → (r.placeSegment? segment).isSome = true) ∧
      ∀ r', r.placeSegment? segment = some r' →
        (⌈r'.cursor - r.cursor⌉ < UInt32.size →
          (r.env.segmentHeight? r.scope segment).isSome = true) ∧
        ∀ measured, r.env.segmentHeight? r.scope segment = some measured →
          r.Keeps r' measured.value.1.toNat measured.value.2) ∧
    ∀ segments capacity,
      ((∀ segment ∈ segments, segment.CellsFit r.images) →
        (r.placeSegments? segments).isSome = true) ∧
      (r.env.Fits32 r.scope segments →
        (measure? r.env r.scope (.withCapacity capacity) segments).isSome = true) ∧
      ∀ last measured, r.placeSegments? segments = some last →
        measure? r.env r.scope (.withCapacity capacity) segments = some measured →
        last.scope = measured.value.2 ∧
        ∀ before segment after, segments = before ++ segment :: after →
          ∃ r₁ r₂ height measured₁ measured₂,
            r.placeSegments? before = some r₁ ∧ r₁.placeSegment? segment = some r₂ ∧
            r₂.placeSegments? after = some last ∧
            measured.value.1.height? before.length = some height ∧
            measure? r.env r.scope (.withCapacity capacity) before = some measured₁ ∧
            r₁.scope = measured₁.value.2 ∧
            measure? r.env r.scope (.withCapacity capacity) (before ++ [segment]) = some measured₂ ∧
            r₁.Keeps r₂ height measured₂.value.2 ∧
            (r.env.Fits32 r.scope before →
              r₁.top ≤ r.top + (measured.value.1.heights.toList.take before.length).sum) := by
  refine ⟨fun segment => ⟨fun hCells => ?_, fun r' hPlace => ⟨fun hFits => ?_, fun measured hMeasure => ?_⟩⟩,
    fun segments capacity => ⟨fun hCells => ?_, fun hFits => ?_, ?_⟩⟩
  · exact isSome_placeSegment?_iff.2 ⟨fun _ => hWidth, hCells⟩
  · rw [ceil_moved hPlace] at hFits
    exact LayoutEnv.isSome_segmentHeight?_iff.2
      (LayoutEnv.titleFits_of_rows_lt (by exact_mod_cast hFits))
  · rw [LayoutEnv.toNat_of_segmentHeight? hMeasure, LayoutEnv.scope_of_segmentHeight? hMeasure]
    exact keeps_of_placeSegment? hPlace
  · exact isSome_placeSegments?_iff.2 fun segment hMem => ⟨fun _ => hWidth, hCells segment hMem⟩
  · exact isSome_measure?_iff.2 hFits.titleFits
  · intro last measured hPlace hMeasure
    have hMeasured := measured_of_measure? hMeasure
    refine ⟨(placed_of_placeSegments? hPlace).scope_eq.trans hMeasured.scope_eq.symm, ?_⟩
    rintro before segment after rfl
    rw [placeSegments?_append] at hPlace
    obtain ⟨r₁, hBefore, hPlace⟩ := Option.bind_eq_some_iff.1 hPlace
    obtain ⟨r₂, hSegment, hAfter⟩ := Option.bind_eq_some_iff.1 hPlace
    have hPlaced := placed_of_placeSegments? hBefore
    have hSome := Option.isSome_of_eq_some hMeasure
    obtain ⟨measured₁, hMeasure₁⟩ := exists_measure?_of_append hSome
    rw [List.append_cons] at hSome
    obtain ⟨measured₂, hMeasure₂⟩ := exists_measure?_of_append hSome
    have hKeeps := hPlaced.keeps hSegment
    rw [← (measured_of_measure? hMeasure₂).scope_eq] at hKeeps
    exact ⟨r₁, r₂, _, measured₁, measured₂, hBefore, hSegment, hAfter, hPlaced.height?_eq hMeasured,
      hMeasure₁, hPlaced.scope_eq.trans (measured_of_measure? hMeasure₁).scope_eq.symm, hMeasure₂,
      hKeeps, hPlaced.top_le_sum hMeasured⟩

/-- A column of width 20 whose drawing begins at row 3. -/
def narrow : Renderer ℚ :=
  { settings := { columnWidth := 20 }
    images := {}
    origin := ⟨0, 0⟩
    columnWidth := 20
    cursor := 3
    canvas := { measurer := .standard } }

/-- Two words that each take a line of their own, after an instruction that makes lines 16.5 high. -/
theorem small_words_as_measured :
    ∃ r₁ r₂, narrow.placeSegments? [⟨.tagged .font "Tiny".toList, ⟨0, 0⟩⟩] = some r₁ ∧
      r₁.placeSegment? ⟨.plain "one two".toList [] [], ⟨0, 0⟩⟩ = some r₂ ∧
      r₂.scope = { font := .tiny } ∧ (33 : ℤ) = ⌈r₂.cursor - r₁.cursor⌉ := by
  have hWidth : 0 ≤ narrow.columnWidth := by decide +kernel
  let segments : List Segment :=
    [⟨.tagged .font "Tiny".toList, ⟨0, 0⟩⟩, ⟨.plain "one two".toList [] [], ⟨0, 0⟩⟩]
  obtain ⟨hPlaced, hMeasured, hSplit⟩ := (drawn_as_measured narrow hWidth).2 segments 2
  obtain ⟨last, hPlace⟩ := Option.isSome_iff_exists.1 <| hPlaced fun segment hMem =>
    Segment.cellsFit_of_tag?_ne (by revert segment; decide)
  obtain ⟨measured, hMeasure⟩ := Option.isSome_iff_exists.1 (hMeasured (by decide +kernel))
  obtain ⟨r₁, r₂, height, _, measured₂, hBefore, hSegment, _, hHeight, _, _, hMeasure₂, hKeeps, _⟩ :=
    (hSplit last measured hPlace hMeasure).2 [_] _ [] rfl
  have hMeasures : (DocumentLayout.measure? narrow.env narrow.scope (.withCapacity 2) segments).map
      (fun measured => (measured.value.1.height? 1, measured.value.2)) =
        some (some 33, { font := .tiny }) := by decide +kernel
  have hMoved : ((narrow.placeSegments? [⟨.tagged .font "Tiny".toList, ⟨0, 0⟩⟩]).bind fun r =>
      (r.placeSegment? ⟨.plain "one two".toList [] [], ⟨0, 0⟩⟩).map fun r' =>
        decide (⌈r'.cursor - r.cursor⌉ < UInt32.size)) = some true := by decide +kernel
  obtain rfl : measured₂ = measured := Option.some.inj (hMeasure₂.symm.trans hMeasure)
  rw [hMeasure] at hMeasures
  obtain ⟨hRows, hScope⟩ := Prod.ext_iff.1 (Option.some.inj hMeasures)
  obtain rfl : 33 = height := Option.some.inj (hRows.symm.trans hHeight)
  rw [hBefore, Option.bind_some, hSegment] at hMoved
  have hFits := of_decide_eq_true (Option.some.inj hMoved)
  exact ⟨r₁, r₂, hBefore, hSegment, hKeeps.scope_eq.trans hScope, hKeeps.height_eq hFits⟩

end Changelog.Renderer
