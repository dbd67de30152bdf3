import Changelog.Configuration.Merge
import Changelog.Proofs.Layout.HeightRuns
import Changelog.Proofs.Layout.VisibleRange

/-! Layout in machine words. Heights are counted in 32-bit words, their sums in signed 64-bit words, and
the rows of a window in 64-bit words. As long as these words hold what is added up in them, a layout is
the same as with numbers of any size. -/

namespace Changelog

namespace HeightIndex

variable {tree : Array Int} {f : Nat → Int}

/-- What a sum has come to with each node that is read for it, beginning with `sum`. -/
def runningSums (tree : Array Int) (n : Nat) (sum : Int) : List Int :=
  if _h : n = 0 then []
  else
    let next := sum + tree.getD (n - 1) 0
    next :: runningSums tree (n &&& (n - 1)) next
termination_by n
decreasing_by
  have : n &&& (n - 1) ≤ n - 1 := Nat.and_le_right
  omega

/-- The last of them is the sum that is read. -/
theorem getLastD_runningSums (tree : Array Int) (n : Nat) (sum : Int) :
    (runningSums tree n sum).getLastD sum = sum + sumFirst tree n := by
  fun_induction runningSums tree n sum with
  | case1 sum => rw [sumFirst, dif_pos rfl, List.getLastD_nil, add_zero]
  | case2 n sum hPos next ih =>
      have hFirst : sumFirst tree n = tree.getD (n - 1) 0 + sumFirst tree (n &&& (n - 1)) := by
        rw [sumFirst, dif_neg hPos]
      rw [List.getLastD_cons, ih, hFirst, ← add_assoc]

/-- The nodes are read from the last run to the first, so at each of them the heights from some place on
have been added up. -/
theorem Holds.runningSums (h : Holds tree f) {m n : Nat} (hn : n ≤ tree.size) (hLe : n ≤ m) {sum : Int}
    (hMem : sum ∈ HeightIndex.runningSums tree n (∑ j ∈ Finset.Ico n m, f j)) :
    ∃ k, sum = ∑ j ∈ Finset.Ico k m, f j := by
  induction n using Nat.strongRecOn with
  | ind n ih =>
      rw [HeightIndex.runningSums] at hMem
      split at hMem
      · cases hMem
      · obtain ⟨last, rfl⟩ : ∃ last, n = last + 1 := ⟨n - 1, by omega⟩
        have hStart : last &&& (last + 1) ≤ last := Nat.and_le_left
        have hNext : ∑ j ∈ Finset.Ico (last + 1) m, f j + tree.getD last 0 =
            ∑ j ∈ Finset.Ico (last &&& (last + 1)) m, f j := by
          rw [h last hn, add_comm, Finset.sum_Ico_consecutive f (by omega) hLe]
        -- the sum now begins where the run of this node does
        rw [Nat.add_sub_cancel, hNext, Nat.and_comm (last + 1) last] at hMem
        rcases List.mem_cons.1 hMem with hHead | hRest
        · exact ⟨_, hHead⟩
        · exact ih _ (by omega) (by omega) (by omega) hRest

/-- While a sum is read, it does not leave the range of the sums. -/
theorem Sound.runningSum_le {x : HeightIndex} (h : x.Sound) {n : Nat} (hn : n ≤ x.size) {sum : Int}
    (hMem : sum ∈ HeightIndex.runningSums x.tree n 0) : 0 ≤ sum ∧ sum ≤ x.heights.toList.sum := by
  rw [← Finset.sum_empty, ← Finset.Ico_self n] at hMem
  obtain ⟨k, rfl⟩ := h.holds.runningSums (hn.trans h.room) (Nat.le_refl n) hMem
  exact sum_Ico_getD_le _ k n

end HeightIndex

namespace DocumentLayout

variable {α : Type} [Scalar α] {env : LayoutEnv α} {segments : List Segment} {scroll viewport : Nat}

/-- All that is added up for the layout of a document stays in the words it is kept in, and the layout
is that of the rows of its segments, seen through a window. -/
structure Exact (env : LayoutEnv α) (segments : List Segment) (scroll viewport : Nat)
    (d : DocumentLayout α) : Prop where
  heights_eq : d.heights.heights.toList = env.documentRows {} segments
  /-- No node leaves its word while the column grows. -/
  node_fits (n : Nat) : ∃ measured,
    measure? env {} (.withCapacity segments.length) (segments.take n) = some measured ∧
      ∀ node ∈ measured.value.1.tree, 0 ≤ node ∧ node < 2 ^ 63
  /-- No sum leaves its word while it is read. -/
  runningSum_fits : ∀ n ≤ segments.length, ∀ sum ∈ HeightIndex.runningSums d.heights.tree n 0,
    0 ≤ sum ∧ sum < 2 ^ 63
  offset_eq (i : Nat) : d.segmentOffset i = ((env.documentRows {} segments).take i).sum
  totalHeight_eq : d.totalHeight? = some ((env.documentRows {} segments).sum +
    (Scalar.ceil (env.measurer.lineHeight d.scope.font)).toNat)
  lastRow_eq : 0 < viewport → lastRow? scroll viewport = some (scroll + viewport - 1)
  /-- Exactly the segments that end below the upper edge of the window and begin above its lower edge
  are in the range. -/
  contains_iff : ∃ range, d.visibleRange? scroll viewport = some range ∧ ∀ i,
    (range.contains i = true ↔
      0 < viewport ∧ i < segments.length ∧ scroll < ((env.documentRows {} segments).take (i + 1)).sum ∧
        ((env.documentRows {} segments).take i).sum < scroll + viewport)

section Words

variable (hRows : env.Fits32 {} segments) (hSum : (env.documentRows {} segments).sum < 2 ^ 63)
include hRows hSum

/-- The nodes sum the rows of segments that were measured already. -/
theorem node_fits (n : Nat) : ∃ measured,
    measure? env {} (.withCapacity segments.length) (segments.take n) = some measured ∧
      ∀ node ∈ measured.value.1.tree, 0 ≤ node ∧ node < 2 ^ 63 := by
  have hTitles : ∀ segment ∈ segments.take n, env.TitleFits segment :=
    fun segment hMem => hRows.titleFits segment (List.mem_of_mem_take hMem)
  obtain ⟨measured, hMeasure⟩ := Option.isSome_iff_exists.1 <|
    (@isSome_measure?_iff _ _ env {} (.withCapacity segments.length) _).2 hTitles
  refine ⟨measured, hMeasure, fun node hMem => ?_⟩
  have hMeasured := measured_of_measure? hMeasure
  have hFits : env.Fits32 {} (segments.take n) := fun rows hRow =>
    hRows rows (List.mem_of_mem_take (LayoutEnv.documentRows_take env {} segments n ▸ hRow))
  have hHeights : measured.value.1.heights.toList = (env.documentRows {} segments).take n := by
    rw [hMeasured.toList_eq, LayoutEnv.heights_eq_documentRows hFits, LayoutEnv.documentRows_take]
    exact List.nil_append _
  have hNode := (hMeasured.sound (HeightIndex.sound_withCapacity _)).node_le hMem
  have hTake := List.sum_take_add_sum_drop (env.documentRows {} segments) n
  rw [hHeights] at hNode
  omega

/-- With a line of space at the end the sum still stays in its word, which is twice as large. -/
theorem Computed.totalHeight?_eq {d : DocumentLayout α} (h : Computed env segments d)
    (hLine : ∀ font, Scalar.ceil (env.measurer.lineHeight font) < 2 ^ 32) :
    d.totalHeight? = some ((env.documentRows {} segments).sum +
      (Scalar.ceil (env.measurer.lineHeight d.scope.font)).toNat) := by
  have hSize : UInt64.size = 2 ^ 64 := rfl
  have hFont := hLine d.scope.font
  have hPadding : d.bottomPadding = (Scalar.ceil (env.measurer.lineHeight d.scope.font)).toNat := by
    rw [h.bottomPadding_eq, padding, Nat.min_eq_left (by omega)]
  rw [totalHeight?, h.contentHeight_eq hRows hSum, hPadding, inWord?_eq_some_iff]
  exact ⟨rfl, by omega⟩

/-- A document has a layout, and that of the rows of its segments, as long as a 32-bit word holds the rows
of each, the space below a title included, and the height of a line, a signed 64-bit word holds the sum of
the rows, and a 64-bit word holds the end of the window. -/
theorem compute?_exact (hLine : ∀ font, Scalar.ceil (env.measurer.lineHeight font) < 2 ^ 32)
    (hWindow : scroll + viewport < 2 ^ 64) :
    ∃ computed, compute? env segments = some computed ∧
      Exact env segments scroll viewport computed.value := by
  obtain ⟨computed, hCompute⟩ := Option.isSome_iff_exists.1 (isSome_compute?_iff.2 hRows.titleFits)
  have h := computed_of_compute? hCompute
  have hHeights := h.toList_eq_documentRows hRows
  have hFits : computed.value.heights.heights.toList.sum < 2 ^ 63 := hHeights ▸ hSum
  have hEdge (i : Nat) : computed.value.heights.edge i = ((env.documentRows {} segments).take i).sum := by
    rw [HeightIndex.edge, hHeights]
  obtain ⟨range, hRange⟩ : ∃ range, computed.value.visibleRange? scroll viewport = some range :=
    Option.isSome_iff_exists.1 (isSome_visibleRange?_iff.2 (.inr hWindow))
  exact ⟨computed, hCompute,
    { heights_eq := hHeights
      node_fits := node_fits hRows hSum
      runningSum_fits := fun n hn sum hMem => by
        have hLe := h.sound.runningSum_le (hn.trans h.size_eq.ge) hMem
        omega
      offset_eq := h.segmentOffset_eq hRows hSum
      totalHeight_eq := h.totalHeight?_eq hRows hSum hLine
      lastRow_eq := fun _ => lastRow?_eq_some_iff.2 ⟨hWindow, rfl⟩
      contains_iff := ⟨range, hRange, fun i => by
        rw [(found_of_visibleRange? hRange).contains_iff h.sound hFits, h.size_eq, hEdge, hEdge]⟩ }⟩

end Words

/-- A title with much space below it, in a column of 400, and a window that ends with the last row that
a word has. -/
theorem compute?_exact_below_title :
    let file : ConfigFile := { columnWidth := some 400, titlePadding := some 4294967000 }
    let settings := Settings.merge none (some file)
    let env : LayoutEnv Float32 := .standard settings {} (.monospace 10 20)
    let segments : List Segment :=
      [⟨.tagged .title "One".toList, ⟨0, 18⟩⟩, ⟨.tagged .font "Tiny".toList, ⟨18, 35⟩⟩,
        ⟨.plain "two".toList [] [], ⟨35, 38⟩⟩]
    env.documentRows {} segments = [4294967020, 0, 15] ∧
      ∃ computed, compute? env segments = some computed ∧
        Exact env segments 30 18446744073709551585 computed.value := by
  intro file settings env segments
  have hRows : env.documentRows {} segments = [4294967020, 0, 15] := by decide +kernel
  refine ⟨hRows, compute?_exact ?_ ?_ (fun font => by cases font <;> decide +kernel) (by decide)⟩
  · rw [LayoutEnv.Fits32, hRows]
    decide
  · rw [hRows]
    decide

/-- With the greatest space that a file can ask for below a title there is no layout, although 64-bit
words would hold the rows of it. And there is nothing seen through the highest window there is, below row
50, although a window of 1000 rows shows three segments. -/
theorem words_overflow :
    let file : ConfigFile := { columnWidth := some 400, titlePadding := some 4294967295 }
    let settings := Settings.merge none (some file)
    let env : LayoutEnv Float32 := .standard settings {} (.monospace 10 20)
    let titled : List Segment :=
      [⟨.tagged .title "One".toList, ⟨0, 18⟩⟩, ⟨.plain "two".toList [] [], ⟨18, 21⟩⟩]
    let lines : List Segment :=
      [⟨.plain "one\ntwo".toList [] [], ⟨0, 7⟩⟩, ⟨.tagged .font "Small".toList, ⟨7, 25⟩⟩,
        ⟨.plain "three".toList [] [], ⟨25, 30⟩⟩, ⟨.tagged .font "Small".toList, ⟨30, 48⟩⟩,
        ⟨.plain "four".toList [] [], ⟨48, 52⟩⟩]
    (env.textRows "One".toList .small = 20 ∧ env.documentRows {} titled = [4294967315, 20] ∧
      (compute? env titled).isNone = true) ∧
    ∃ computed, compute? env lines = some computed ∧
      computed.value.heights.heights.toList = [40, 0, 20, 0, 20] ∧
      (computed.value.visibleRange? 50 1000).map VisibleRange.indices = some [2, 3, 4] ∧
      lastRow? 50 18446744073709551615 = none ∧
      (computed.value.visibleRange? 50 18446744073709551615).isNone = true := by
  intro file settings env titled lines
  refine ⟨by decide +kernel, ?_⟩
  obtain ⟨computed, hCompute⟩ : ∃ computed, compute? env lines = some computed :=
    Option.isSome_iff_exists.1 (by decide +kernel)
  have hShown : (compute? env lines).map (fun computed =>
      (computed.value.heights.heights.toList,
        (computed.value.visibleRange? 50 1000).map VisibleRange.indices,
        (computed.value.visibleRange? 50 18446744073709551615).isNone)) =
      some ([40, 0, 20, 0, 20], some [2, 3, 4], true) := by decide +kernel
  rw [hCompute] at hShown
  obtain ⟨hHeights, hShown⟩ := Prod.ext_iff.1 (Option.some.inj hShown)
  obtain ⟨hRange, hNone⟩ := Prod.ext_iff.1 hShown
  exact ⟨computed, hCompute, hHeights, hRange, by decide, hNone⟩

end DocumentLayout

end Changelog
