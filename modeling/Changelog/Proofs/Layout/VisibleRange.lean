import Changelog.Proofs.Layout.Offsets

/-! What is seen of a document through a window. Both ends of a visible range are found by a search for a
row, the first row of the window and its last one. Segments without height have no row and are never
found, so they are in the range only between segments that are seen. -/

namespace Changelog

namespace HeightIndex

section Search

variable {x : HeightIndex} (h : x.Sound) (hFits : x.heights.toList.sum < 2 ^ 63) {i y : Nat}
  (hi : i < x.size)
include h hFits hi

/-- A segment is not above the one that has a row if it ends below the row. -/
theorem Sound.segmentAt?_le_iff : (x.segmentAt? y).getD x.size ≤ i ↔ y < x.edge (i + 1) := by
  cases hFound : x.segmentAt? y with
  | none =>
      have hSum := (h.segmentAt?_eq_none_iff hFits).1 hFound
      have hEdge : x.edge (i + 1) ≤ x.edge x.size := edge_mono hi
      rw [edge_of_size_le (Nat.le_refl _)] at hEdge
      rw [Option.getD_none]
      omega
  | some j =>
      have hRow := (h.segmentAt?_eq_some_iff hFits).1 hFound
      rw [Option.getD_some]
      constructor
      · intro hLe
        exact Nat.lt_of_lt_of_le hRow.2 (edge_mono (Nat.succ_le_succ hLe))
      · intro hLt
        by_contra hGt
        have hEdge : x.edge (i + 1) ≤ x.edge j := edge_mono (Nat.lt_of_not_le hGt)
        have hAbove := hRow.1
        omega

/-- A segment is not below the one that has a row if it begins above the row, or in it. -/
theorem Sound.lt_segmentAt?_iff :
    i < (x.segmentAt? y).elim x.size (· + 1) ↔ x.edge i ≤ y := by
  cases hFound : x.segmentAt? y with
  | none =>
      have hSum := (h.segmentAt?_eq_none_iff hFits).1 hFound
      have hEdge : x.edge i ≤ x.edge x.size := edge_mono (Nat.le_of_lt hi)
      rw [edge_of_size_le (Nat.le_refl _)] at hEdge
      exact iff_of_true hi (hEdge.trans hSum)
  | some j =>
      have hRow := (h.segmentAt?_eq_some_iff hFits).1 hFound
      constructor
      · intro hLt
        exact (edge_mono (Nat.le_of_lt_succ hLt)).trans hRow.1
      · intro hLe
        by_contra hGe
        have hEdge : x.edge (j + 1) ≤ x.edge i := edge_mono (Nat.le_of_not_lt hGe)
        have hBelow := hRow.2
        omega

end Search

/-- The search ends behind all segments if none of their lower edges, as they are read, is below the row. -/
theorem search_eq_of_le {x : HeightIndex} {y low high : Nat} (hLe : low ≤ high)
    (h : ∀ i < high, x.prefixSum i ≤ y) : x.search y low high = high := by
  fun_induction search x y low high with
  | case1 low high hLt middle hBelow ih =>
      exact absurd (h middle (by omega)) (Nat.not_le_of_lt hBelow)
  | case2 low high hLt middle hAbove ih => exact ih (by omega) h
  | case3 low high hGe => omega

/-- In a column of one segment more than 2^31, all of the greatest height that a 32-bit word holds, the
sums of the first heights are read as they are, but for the sum of all. -/
structure Overlong (x : HeightIndex) : Prop where
  sound : x.Sound
  toList_eq : x.heights.toList = List.replicate (2 ^ 31 + 1) (2 ^ 32 - 1)

namespace Overlong

variable {x : HeightIndex} (h : x.Overlong)
include h

theorem size_eq : x.size = 2 ^ 31 + 1 := by
  rw [size, ← Array.length_toList, h.toList_eq, List.length_replicate]

/-- Each lower edge is read off its sum, which may be too large for that. -/
theorem prefixSum_eq_readSum {i : Nat} (hi : i < 2 ^ 31 + 1) :
    x.prefixSum i = readSum (((i + 1) * (2 ^ 32 - 1) : Nat) : Int) := by
  rw [h.sound.prefixSum_eq_readSum (h.size_eq ▸ hi), h.toList_eq, List.take_replicate,
    List.sum_replicate_nat, Nat.min_eq_left hi]

/-- The last segment begins just below what a signed word holds. -/
theorem offset?_last : x.offset? (2 ^ 31) = some (2 ^ 63 - 2 ^ 31) := by
  have hSize := h.size_eq
  rw [offset?, if_neg (by decide), prefixSum?, if_pos (by omega), h.prefixSum_eq_readSum (by decide),
    readSum_of_lt (by decide)]
  rfl

theorem height?_last : x.height? (2 ^ 31) = some (2 ^ 32 - 1) := by
  rw [height?, ← Array.getElem?_toList, h.toList_eq, List.getElem?_replicate, if_pos (by decide)]

/-- None of the segments is found for the first row of the last one. -/
theorem segmentAt?_last : x.segmentAt? (2 ^ 63 - 2 ^ 31) = none := by
  have hBelow : ∀ i < x.size, x.prefixSum i ≤ 2 ^ 63 - 2 ^ 31 := by
    intro i hi
    rw [h.size_eq] at hi
    rw [h.prefixSum_eq_readSum hi]
    rcases Nat.lt_or_ge i (2 ^ 31) with hInner | hLast
    · rw [readSum_of_lt (by omega)]
      omega
    · rw [readSum_of_ge (by omega) (by omega)]
      exact Nat.zero_le _
  rw [segmentAt?, search_eq_of_le (Nat.zero_le _) hBelow]
  exact if_neg (Nat.lt_irrefl _)

end Overlong

end HeightIndex

namespace DocumentLayout

variable {α : Type} {d : DocumentLayout α} {scroll viewport : Nat} {range : VisibleRange}

/-- A range holds the segments that end below the upper edge of the window and begin above its lower
edge. -/
theorem Found.contains_iff (hFound : d.Found scroll viewport range) (h : d.heights.Sound)
    (hFits : d.heights.heights.toList.sum < 2 ^ 63) {i : Nat} :
    range.contains i = true ↔
      0 < viewport ∧ i < d.size ∧ scroll < d.heights.edge (i + 1) ∧
        d.heights.edge i < scroll + viewport := by
  rw [VisibleRange.contains_iff]
  have hStart := hFound.start_eq
  have hStartLe := d.heights.getD_segmentAt?_le scroll
  change _ ≤ d.size at hStartLe
  rcases Nat.eq_zero_or_pos viewport with hZero | hView
  · -- A window without height has no last row, and none is searched for.
    have hStop := hFound.stop_of_zero hZero
    omega
  · obtain ⟨hWindow, hStop⟩ := hFound.stop_of_pos hView
    by_cases hi : i < d.size
    · have hAbove := h.segmentAt?_le_iff hFits hi (y := scroll)
      have hBelow := h.lt_segmentAt?_iff hFits hi (y := scroll + viewport - 1)
      change (d.heights.segmentAt? scroll).getD d.size ≤ i ↔ _ at hAbove
      change i < (d.heights.segmentAt? _).elim d.size (· + 1) ↔ _ at hBelow
      rw [hStop, lt_max_iff, hStart, hAbove, hBelow]
      omega
    · have hLast : (d.heights.segmentAt? (scroll + viewport - 1)).elim d.size (· + 1) ≤ d.size := by
        cases hRow : d.heights.segmentAt? (scroll + viewport - 1) with
        | none => exact Nat.le_refl _
        | some j => exact HeightIndex.segmentAt?_lt hRow
      omega

/-- The range is what is seen of a document through a window of height `viewport`, with `scroll` rows
above it. -/
structure Seen (d : DocumentLayout α) (scroll viewport : Nat) (range : VisibleRange) : Prop where
  start_le_stop : range.start ≤ range.stop
  stop_le_size : range.stop ≤ d.size
  isEmpty_of_viewport_eq_zero : viewport = 0 → range.isEmpty = true
  /-- Of the segments with height, exactly those with a row in the window. -/
  contains_iff_exists_row {i height : Nat} : d.heights.height? i = some height → 0 < height →
    (range.contains i = true ↔
      ∃ row, (d.segmentOffset i ≤ row ∧ row < d.segmentOffset i + height) ∧
        scroll ≤ row ∧ row < scroll + viewport)
  /-- Of the segments without height, none but those inside of the window. -/
  inside_of_contains {i : Nat} : d.heights.height? i = some 0 → range.contains i = true →
    scroll < d.segmentOffset i ∧ d.segmentOffset i < scroll + viewport

/-- The range of a column in step with its heights is what is seen of it. -/
theorem seen_of_visibleRange? (hRange : d.visibleRange? scroll viewport = some range)
    (h : d.heights.Sound) (hFits : d.heights.heights.toList.sum < 2 ^ 63) :
    d.Seen scroll viewport range := by
  have hFound := found_of_visibleRange? hRange
  refine ⟨range.start_le_stop, stop_visibleRange?_le hRange, fun hZero => ?_,
    fun {i _} hHeight hPos => ?_, fun hHeight hMem => ?_⟩
  · exact decide_eq_true (hFound.stop_of_zero hZero).symm
  · have hi := (Array.getElem?_eq_some_iff.1 hHeight).1
    have hEdge := HeightIndex.edge_succ hHeight
    rw [hFound.contains_iff h hFits, segmentOffset_eq h hFits, hEdge]
    constructor
    · rintro ⟨hView, -, hTop, hBottom⟩
      exact ⟨max scroll (d.heights.edge i), by omega⟩
    · rintro ⟨row, hRow, hSeen⟩
      exact ⟨by omega, hi, by omega, by omega⟩
  · rw [hFound.contains_iff h hFits, HeightIndex.edge_succ hHeight, Nat.add_zero] at hMem
    rw [segmentOffset_eq h hFits]
    exact hMem.2.2

variable [Scalar α] {env : LayoutEnv α} {segments : List Segment} {computed : Noted (DocumentLayout α)}

/-- The visible range of a document is what is seen of it, and a higher window at the same place shows
all of that. A signed 64-bit word must hold the sum of the heights, and an unsigned one the ends of the
windows. -/
theorem visibleRange?_exact (hCompute : compute? env segments = some computed)
    (hFits : computed.value.heights.heights.toList.sum < 2 ^ 63)
    (hWindow : scroll + viewport < 2 ^ 64) :
    ∃ range, computed.value.visibleRange? scroll viewport = some range ∧
      computed.value.Seen scroll viewport range ∧
      ∀ higher, viewport ≤ higher → scroll + higher < 2 ^ 64 →
        ∃ more, computed.value.visibleRange? scroll higher = some more ∧
          ∀ i, range.contains i = true → more.contains i = true := by
  have hSound := (computed_of_compute? hCompute).sound
  have hExists {height : Nat} (hEnd : scroll + height < 2 ^ 64) :
      ∃ range, computed.value.visibleRange? scroll height = some range :=
    Option.isSome_iff_exists.1 (isSome_visibleRange?_iff.2 (.inr hEnd))
  obtain ⟨range, hRange⟩ := hExists hWindow
  refine ⟨range, hRange, seen_of_visibleRange? hRange hSound hFits, fun higher hLe hHigher => ?_⟩
  obtain ⟨more, hMore⟩ := hExists hHigher
  refine ⟨more, hMore, fun i hMem => ?_⟩
  rw [(found_of_visibleRange? hRange).contains_iff hSound hFits] at hMem
  rw [(found_of_visibleRange? hMore).contains_iff hSound hFits]
  omega

/-- The window begins and ends at borders where an instruction stands between two lines. -/
theorem visibleRange?_between_instructions :
    let env : LayoutEnv ℚ := .standard { columnWidth := 400 } {} (.monospace 10 20)
    let segments : List Segment :=
      [⟨.plain ['a'] [] [], ⟨0, 1⟩⟩, ⟨.tagged .font "Tiny".toList, ⟨1, 18⟩⟩,
        ⟨.plain ['b'] [] [], ⟨18, 19⟩⟩, ⟨.tagged .font "Small".toList, ⟨19, 37⟩⟩,
        ⟨.plain ['c'] [] [], ⟨37, 38⟩⟩]
    ∃ computed range more, compute? env segments = some computed ∧
      computed.value.visibleRange? 20 15 = some range ∧ range.indices = [2] ∧
      computed.value.Seen 20 15 range ∧
      computed.value.visibleRange? 20 40 = some more ∧ more.contains 2 = true := by
  intro env segments
  obtain ⟨computed, hCompute⟩ : ∃ computed, compute? env segments = some computed :=
    Option.isSome_iff_exists.1 (by decide +kernel)
  have hHeights := (computed_of_compute? hCompute).toList_eq
  have hFits : computed.value.heights.heights.toList.sum < 2 ^ 63 := by
    rw [hHeights]
    decide +kernel
  obtain ⟨range, hRange, hSeen, hHigher⟩ :=
    @visibleRange?_exact _ 20 15 _ env segments computed hCompute hFits (by decide)
  obtain ⟨more, hMore, hKeeps⟩ := hHigher 40 (by decide) (by decide)
  have hShown : ((compute? env segments).bind fun computed =>
      (computed.value.visibleRange? 20 15).map fun range => (range.indices, range.contains 2)) =
        some ([2], true) := by decide +kernel
  rw [hCompute, Option.bind_some, hRange] at hShown
  obtain ⟨hIndices, hMem⟩ := Prod.ext_iff.1 (Option.some.inj hShown)
  exact ⟨computed, range, more, hCompute, hRange, hIndices, hSeen, hMore, hKeeps 2 hMem⟩

/-- Without the bound on the heights there is a document of so many tags without a name, each with the
greatest room that can be kept, that its last segment is not seen from its own first row. -/
theorem not_visibleRange?_exact :
    let env : LayoutEnv ℚ :=
      .standard { columnWidth := 400, previewImageHeight := 4294967295 } {} (.monospace 10 20)
    let segments : List Segment := List.replicate (2 ^ 31 + 1) ⟨.tagged .image ['a'], ⟨0, 12⟩⟩
    2 ^ 63 - 2 ^ 31 + 1 < 2 ^ 64 ∧ ∃ computed, compute? env segments = some computed ∧
      ¬∃ range, computed.value.visibleRange? (2 ^ 63 - 2 ^ 31) 1 = some range ∧
        computed.value.Seen (2 ^ 63 - 2 ^ 31) 1 range := by
  intro env segments
  have hTitles : ∀ segment ∈ segments, env.TitleFits segment := by
    intro segment hMem
    obtain rfl := List.eq_of_mem_replicate hMem
    exact nofun
  obtain ⟨computed, hCompute⟩ := Option.isSome_iff_exists.1 (isSome_compute?_iff.2 hTitles)
  refine ⟨by decide, computed, hCompute, fun ⟨range, hRange, hSeen⟩ => ?_⟩
  have hComputed := computed_of_compute? hCompute
  have hOverlong : computed.value.heights.Overlong := by
    refine ⟨hComputed.sound, ?_⟩
    rw [hComputed.toList_eq, LayoutEnv.heights, LayoutEnv.documentRows_replicate rfl,
      List.map_replicate]
    rfl
  have hSize : computed.value.size = 2 ^ 31 + 1 := hOverlong.size_eq
  have hOffset : computed.value.segmentOffset (2 ^ 31) = 2 ^ 63 - 2 ^ 31 := by
    rw [segmentOffset, if_pos (by omega), hOverlong.offset?_last, Option.getD_some]
  have hStart : range.start = 2 ^ 31 + 1 := by
    rw [(found_of_visibleRange? hRange).start_eq, hOverlong.segmentAt?_last, Option.getD_none, hSize]
  have hShown : range.contains (2 ^ 31) = true := by
    refine (hSeen.contains_iff_exists_row hOverlong.height?_last (by decide)).2
      ⟨2 ^ 63 - 2 ^ 31, ?_, Nat.le_refl _, by decide⟩
    rw [hOffset]
    decide
  have hLe := (VisibleRange.contains_iff.1 hShown).1
  omega

end DocumentLayout

end Changelog
