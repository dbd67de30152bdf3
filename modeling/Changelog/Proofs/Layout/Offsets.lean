import Changelog.Proofs.Layout.RowSearch
import Changelog.Proofs.Layout.Rows

/-! Where the segments of a document stand. The offset of a segment is the sum of the heights before it,
as long as a signed 64-bit word holds the sum of all. A visible range is a run of the document. -/

namespace Changelog

namespace VisibleRange

theorem contains_iff {v : VisibleRange} {i : Nat} :
    v.contains i = true ↔ v.start ≤ i ∧ i < v.stop := by
  rw [contains, Bool.and_eq_true, decide_eq_true_iff, decide_eq_true_iff]

/-- The segments of a range, and those before and after it. -/
theorem split_range {α : Type} (v : VisibleRange) {segments : List α}
    (hStop : v.stop ≤ segments.length) :
    ∃ before range after, segments = before ++ range ++ after ∧ before.length = v.start ∧
      range.length = v.size := by
  have hStart := v.start_le_stop
  refine ⟨segments.take v.start, (segments.drop v.start).take v.size, segments.drop v.stop,
    ?_, ?_, ?_⟩
  · have hDrop : segments.drop v.stop = (segments.drop v.start).drop v.size := by
      rw [List.drop_drop, size, Nat.add_sub_cancel' hStart]
    rw [hDrop, List.append_assoc, List.take_append_drop, List.take_append_drop]
  · rw [List.length_take, Nat.min_eq_left (Nat.le_trans hStart hStop)]
  · rw [List.length_take, List.length_drop, size]
    omega

theorem zipIdx_range {α : Type} (before range after : List α) :
    (((before ++ range ++ after).zipIdx).drop before.length).take range.length =
      range.zipIdx before.length := by
  rw [List.append_assoc, List.zipIdx_append, List.drop_left' List.length_zipIdx, Nat.zero_add,
    List.zipIdx_append, List.take_left' List.length_zipIdx]

/-- The range holds exactly the segments with the numbers in it. -/
theorem filter_contains_zipIdx {α : Type} (v : VisibleRange) {segments : List α}
    (hStop : v.stop ≤ segments.length) :
    (segments.zipIdx.filter fun own => v.contains own.2) =
      (segments.zipIdx.drop v.start).take v.size := by
  obtain ⟨before, range, after, rfl, hBefore, hRange⟩ := split_range v hStop
  have hStart := v.start_le_stop
  have hSize : v.size = v.stop - v.start := rfl
  rw [← hBefore, ← hRange, zipIdx_range, List.append_assoc, List.zipIdx_append, Nat.zero_add,
    List.zipIdx_append, List.filter_append, List.filter_append]
  have hAbove : (before.zipIdx.filter fun own => v.contains own.2) = [] := by
    refine List.filter_eq_nil_iff.2 fun own hMem => ?_
    have hLt := List.snd_lt_of_mem_zipIdx hMem
    rw [contains_iff]
    omega
  have hInside : ((range.zipIdx before.length).filter fun own => v.contains own.2) =
      range.zipIdx before.length := by
    refine List.filter_eq_self.2 fun own hMem => ?_
    have hLe := List.le_snd_of_mem_zipIdx hMem
    have hLt := List.snd_lt_add_of_mem_zipIdx hMem
    rw [contains_iff]
    omega
  have hBelow : ((after.zipIdx (before.length + range.length)).filter fun own =>
      v.contains own.2) = [] := by
    refine List.filter_eq_nil_iff.2 fun own hMem => ?_
    have hLe := List.le_snd_of_mem_zipIdx hMem
    rw [contains_iff]
    omega
  rw [hAbove, hInside, hBelow, List.nil_append, List.append_nil]

end VisibleRange

namespace DocumentLayout

/-- There is a last row of a window whose end a 64-bit word holds, and it is the one before the end. -/
theorem lastRow?_eq_some_iff {scroll viewport row : Nat} :
    lastRow? scroll viewport = some row ↔
      scroll + viewport < UInt64.size ∧ scroll + viewport - 1 = row := by
  simp [lastRow?, inWord?, and_comm]

/-- What a visible range is found to be: it begins with the segment that the first row of the window
belongs to, and ends with the one that the last row belongs to. -/
structure Found {α : Type} (d : DocumentLayout α) (scroll viewport : Nat) (range : VisibleRange) :
    Prop where
  start_eq : range.start = (d.heights.segmentAt? scroll).getD d.size
  stop_of_zero : viewport = 0 → range.stop = range.start
  stop_of_pos : 0 < viewport → scroll + viewport < UInt64.size ∧
    range.stop =
      max ((d.heights.segmentAt? (scroll + viewport - 1)).elim d.size (· + 1)) range.start

/-- A range comes about in this way and in no other. -/
theorem found_of_visibleRange? {α : Type} {d : DocumentLayout α} {scroll viewport : Nat}
    {range : VisibleRange} (h : d.visibleRange? scroll viewport = some range) :
    d.Found scroll viewport range := by
  unfold visibleRange? at h
  dsimp only at h
  split at h
  · rename_i hZero
    obtain rfl := Option.some.inj h
    exact ⟨rfl, fun _ => rfl, fun hPos => absurd hZero hPos.ne'⟩
  · rename_i hView
    obtain ⟨row, hRow, rfl⟩ := Option.map_eq_some_iff.1 h
    obtain ⟨hLt, rfl⟩ := lastRow?_eq_some_iff.1 hRow
    refine ⟨rfl, fun hZero => absurd hZero hView, fun _ => ⟨hLt, ?_⟩⟩
    cases d.heights.segmentAt? (scroll + viewport - 1) <;> rfl

/-- There is a visible range if and only if the window has no rows or a 64-bit word holds its end. -/
theorem isSome_visibleRange?_iff {α : Type} {d : DocumentLayout α} {scroll viewport : Nat} :
    (d.visibleRange? scroll viewport).isSome = true ↔
      viewport = 0 ∨ scroll + viewport < UInt64.size := by
  unfold visibleRange?
  dsimp only
  split
  · rename_i hZero
    exact iff_of_true rfl (.inl hZero)
  · rename_i hView
    rw [Option.isSome_map, lastRow?, Option.isSome_map, isSome_inWord?_iff]
    exact (or_iff_right hView).symm

/-- A visible range ends with the document at the latest. -/
theorem stop_visibleRange?_le {α : Type} {d : DocumentLayout α} {scroll viewport : Nat}
    {range : VisibleRange} (h : d.visibleRange? scroll viewport = some range) :
    range.stop ≤ d.size := by
  have hFound := found_of_visibleRange? h
  have hStart : range.start ≤ d.size := hFound.start_eq ▸ d.heights.getD_segmentAt?_le scroll
  rcases Nat.eq_zero_or_pos viewport with hZero | hPos
  · exact hFound.stop_of_zero hZero ▸ hStart
  · rw [(hFound.stop_of_pos hPos).2]
    refine Nat.max_le.2 ⟨?_, hStart⟩
    cases hRow : d.heights.segmentAt? (scroll + viewport - 1) with
    | none => exact Nat.le_refl _
    | some i => exact HeightIndex.segmentAt?_lt hRow

/-- The offset of a segment is its upper edge, and behind the last one the lower edge of the column. -/
theorem segmentOffset_eq {α : Type} {d : DocumentLayout α} (h : d.heights.Sound)
    (hFits : d.heights.heights.toList.sum < 2 ^ 63) (i : Nat) :
    d.segmentOffset i = d.heights.edge i := by
  unfold segmentOffset
  split
  · rename_i hLt
    rw [h.offset? hFits hLt, Option.getD_some, HeightIndex.edge]
  · rename_i hGe
    rw [contentHeight, h.total hFits, HeightIndex.edge_of_size_le (Nat.le_of_not_lt hGe)]

section Computed

variable {α : Type} [Scalar α] {env : LayoutEnv α} {segments : List Segment} {d : DocumentLayout α}
  (h : Computed env segments d) (hFits : env.Fits32 {} segments)
  (hSum : (env.documentRows {} segments).sum < 2 ^ 63)
include h hFits

/-- Heights that words hold are the rows of the segments. -/
theorem Computed.toList_eq_documentRows :
    d.heights.heights.toList = env.documentRows {} segments := by
  rw [h.toList_eq, LayoutEnv.heights_eq_documentRows hFits]

include hSum

/-- The offset of a segment is the sum of the rows before it. -/
theorem Computed.segmentOffset_eq (i : Nat) :
    d.segmentOffset i = ((env.documentRows {} segments).take i).sum := by
  have hHeights := h.toList_eq_documentRows hFits
  rw [DocumentLayout.segmentOffset_eq h.sound (hHeights ▸ hSum), HeightIndex.edge, hHeights]

/-- The height of all segments is the sum of their rows. -/
theorem Computed.contentHeight_eq : d.contentHeight = (env.documentRows {} segments).sum := by
  have hHeights := h.toList_eq_documentRows hFits
  rw [contentHeight, h.sound.total (hHeights ▸ hSum), hHeights]

end Computed

end DocumentLayout

end Changelog
