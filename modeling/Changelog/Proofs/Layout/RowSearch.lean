import Changelog.Proofs.Layout.HeightSums
import Mathlib.Algebra.Order.BigOperators.Group.List

/-! The segment that a row belongs to. The search halves the column by the lower edges of the segments,
which only grow, so it ends at the one segment that has the row. Segments without height have no rows. -/

namespace Changelog.HeightIndex

/-- The upper edge of segment `i`, which is the lower edge of the one before: the exact sum of the
heights before it. -/
def edge (x : HeightIndex) (i : Nat) : Nat :=
  (x.heights.toList.take i).sum

/-- Row `y` belongs to segment `i`. -/
def HasRow (x : HeightIndex) (i y : Nat) : Prop :=
  x.edge i ≤ y ∧ y < x.edge (i + 1)

variable {x : HeightIndex}

theorem edge_mono {i j : Nat} (h : i ≤ j) : x.edge i ≤ x.edge j :=
  (List.take_sublist_take_left h).sum_le_sum fun _ _ => Nat.zero_le _

theorem edge_of_size_le {i : Nat} (h : x.size ≤ i) : x.edge i = x.heights.toList.sum := by
  rw [edge, List.take_of_length_le (by simpa [size] using h)]

/-- A segment ends its height below where it begins. -/
theorem edge_succ {i height : Nat} (h : x.height? i = some height) :
    x.edge (i + 1) = x.edge i + height := by
  rw [height?, ← Array.getElem?_toList] at h
  rw [edge, edge, List.take_add_one, List.sum_append, h, Option.toList_some, List.sum_singleton]

/-- Only segments of the column have rows. -/
theorem HasRow.lt_size {i y : Nat} (h : x.HasRow i y) : i < x.size := by
  by_contra hi
  have hLe : x.size ≤ i := Nat.le_of_not_lt hi
  have hNext : x.edge (i + 1) = x.edge i := by
    rw [edge_of_size_le hLe, edge_of_size_le (Nat.le_succ_of_le hLe)]
  exact absurd (Nat.lt_of_le_of_lt h.1 h.2) (hNext ▸ Nat.lt_irrefl (x.edge i))

/-- No row belongs to two segments. -/
theorem HasRow.unique {i j y : Nat} (hi : x.HasRow i y) (hj : x.HasRow j y) : i = j := by
  rcases Nat.lt_trichotomy i j with hLt | hEq | hGt
  · have hEdge : x.edge (i + 1) ≤ x.edge j := edge_mono hLt
    exact absurd (Nat.lt_of_lt_of_le hi.2 (hEdge.trans hj.1)) (Nat.lt_irrefl y)
  · exact hEq
  · have hEdge : x.edge (j + 1) ≤ x.edge i := edge_mono hGt
    exact absurd (Nat.lt_of_lt_of_le hj.2 (hEdge.trans hi.1)) (Nat.lt_irrefl y)

/-- The search keeps its bounds on either side of the row. -/
theorem search_spec (x : HeightIndex) (y : Nat) {low high : Nat}
    (hPrefix : ∀ i < high, x.prefixSum i = x.edge (i + 1)) (hLe : low ≤ high)
    (hLow : x.edge low ≤ y) :
    x.search y low high ≤ high ∧ x.edge (x.search y low high) ≤ y ∧
      (x.search y low high < high → y < x.edge (x.search y low high + 1)) := by
  fun_induction search x y low high with
  | case1 low high h middle hBelow ih =>
      have hMiddle : middle < high := by omega
      obtain ⟨hStop, hEdge, hRow⟩ :=
        ih (fun i hi => hPrefix i (hi.trans hMiddle)) (by omega) hLow
      refine ⟨hStop.trans (Nat.le_of_lt hMiddle), hEdge, fun _ => ?_⟩
      -- If the rest of the search ends at the middle, the comparison made here tells what is there.
      rcases Nat.lt_or_eq_of_le hStop with hLt | hEq
      · exact hRow hLt
      · rw [hEq, ← hPrefix middle hMiddle]
        exact hBelow
  | case2 low high h middle hAbove ih =>
      have hMiddle : middle < high := by omega
      rw [hPrefix middle hMiddle] at hAbove
      exact ih hPrefix hMiddle (Nat.le_of_not_lt hAbove)
  | case3 low high h => exact ⟨hLe, hLow, fun hLt => absurd hLt h⟩

section Search

variable (h : x.Sound) (hFits : x.heights.toList.sum < 2 ^ 63)
include h hFits

/-- The segment found for a row is the one that has it. -/
theorem Sound.segmentAt?_eq_some_iff {i y : Nat} : x.segmentAt? y = some i ↔ x.HasRow i y := by
  obtain ⟨hStop, hEdge, hRow⟩ := x.search_spec y (fun i hi => h.prefixSum hFits hi)
    (Nat.zero_le x.size) (Nat.zero_le y)
  unfold segmentAt?
  dsimp only
  split
  · rename_i hLt
    have hFound : x.HasRow (x.search y 0 x.size) y := ⟨hEdge, hRow hLt⟩
    constructor
    · intro hEq
      exact Option.some.inj hEq ▸ hFound
    · intro hOther
      rw [hFound.unique hOther]
  · rename_i hGe
    constructor
    · intro hEq
      cases hEq
    · intro hOther
      have hLe : x.edge (i + 1) ≤ x.edge (x.search y 0 x.size) :=
        edge_mono (Nat.le_trans hOther.lt_size (Nat.le_of_not_lt hGe))
      exact absurd (Nat.lt_of_lt_of_le hOther.2 (hLe.trans hEdge)) (Nat.lt_irrefl y)

/-- No segment is found only below all of them. -/
theorem Sound.segmentAt?_eq_none_iff {y : Nat} :
    x.segmentAt? y = none ↔ x.heights.toList.sum ≤ y := by
  obtain ⟨hStop, hEdge, hRow⟩ := x.search_spec y (fun i hi => h.prefixSum hFits hi)
    (Nat.zero_le x.size) (Nat.zero_le y)
  unfold segmentAt?
  dsimp only
  split
  · rename_i hLt
    have hLe : x.edge (x.search y 0 x.size + 1) ≤ x.edge x.size := edge_mono hLt
    rw [edge_of_size_le (Nat.le_refl _)] at hLe
    simpa using Nat.lt_of_lt_of_le (hRow hLt) hLe
  · rename_i hGe
    rw [edge_of_size_le (Nat.le_of_not_lt hGe)] at hEdge
    simpa using hEdge

end Search

end Changelog.HeightIndex
