import Changelog.Layout.HeightIndex
import Mathlib.Algebra.BigOperators.Intervals
import Mathlib.Data.Nat.Bitwise
import Mathlib.Tactic.Ring

/-! What the tree of heights holds, and that its sums are those of the list of heights. Node `k` covers
the heights from `k &&& (k + 1)` to `k`. Adding a height goes up through exactly the nodes that cover
its place, and reading a sum goes down through nodes whose runs lie one behind the other. -/

namespace Changelog.HeightIndex

/-- Height `j` belongs to the run of node `k`. -/
def Covers (k j : Nat) : Prop :=
  k &&& (k + 1) ≤ j ∧ j ≤ k

instance (k j : Nat) : Decidable (Covers k j) :=
  inferInstanceAs (Decidable (_ ∧ _))

/-- An even node covers its own height only. -/
theorem and_succ_even (c : Nat) : 2 * c &&& (2 * c + 1) = 2 * c := by
  have h := Nat.land_bit false c true c
  simpa [Nat.bit_val, Nat.mul_add] using h

/-- An odd node covers what the node of half its number covers, each place twice. -/
theorem and_succ_odd (c : Nat) : (2 * c + 1) &&& (2 * c + 2) = 2 * (c &&& (c + 1)) := by
  have h := Nat.land_bit true c false (c + 1)
  simpa [Nat.bit_val, Nat.mul_add] using h

theorem or_succ_even (c : Nat) : 2 * c ||| (2 * c + 1) = 2 * c + 1 := by
  have h := Nat.lor_bit false c true c
  simpa [Nat.bit_val, Nat.mul_add] using h

theorem or_succ_odd (c : Nat) : (2 * c + 1) ||| (2 * c + 2) = 2 * (c ||| (c + 1)) + 1 := by
  have h := Nat.lor_bit true c false (c + 1)
  simpa [Nat.bit_val, Nat.mul_add] using h

theorem covers_self (k : Nat) : Covers k k :=
  ⟨Nat.and_le_left, Nat.le_refl k⟩

theorem covers_even {c j : Nat} : Covers (2 * c) j ↔ j = 2 * c := by
  unfold Covers
  rw [and_succ_even]
  omega

/-- So coverage is decided digit by digit, from the last one on. -/
theorem covers_odd {c a b : Nat} (hb : b < 2) :
    Covers (2 * c + 1) (2 * a + b) ↔ Covers c a := by
  unfold Covers
  rw [and_succ_odd]
  omega

/-- The nodes above `j` that cover it are those that cover the next place on the way up. -/
theorem covers_next {k j : Nat} (h : j ≠ k) : Covers k (j ||| (j + 1)) ↔ Covers k j := by
  induction k using Nat.strongRecOn generalizing j with
  | ind k ih =>
      obtain ⟨c, hk⟩ := Nat.even_or_odd' k
      obtain ⟨a, hj⟩ := Nat.even_or_odd' j
      rcases hk with rfl | rfl
      · rw [covers_even, covers_even]
        rcases hj with rfl | rfl
        · rw [or_succ_even]
          omega
        · rw [or_succ_odd]
          omega
      · rcases hj with rfl | rfl
        · rw [or_succ_even, covers_odd Nat.one_lt_two]
          exact (covers_odd (b := 0) Nat.two_pos).symm
        · rw [or_succ_odd, covers_odd Nat.one_lt_two, covers_odd Nat.one_lt_two]
          exact ih c (by omega) (by omega)

@[simp] theorem size_addAt (tree : Array Int) (i : Nat) (delta : Int) :
    (addAt tree i delta).size = tree.size := by
  induction tree, i using addAt.induct delta with
  | case1 tree i h ih => rw [addAt, dif_pos h, ih, Array.size_set]
  | case2 tree i h => rw [addAt, dif_neg h]

/-- Adding at `i` changes exactly the nodes that cover `i`. -/
theorem getD_addAt (tree : Array Int) (i : Nat) (delta : Int) {k : Nat} (hk : k < tree.size) :
    (addAt tree i delta).getD k 0 = tree.getD k 0 + if Covers k i then delta else 0 := by
  induction tree, i using addAt.induct delta with
  | case1 tree i h ih =>
      rw [addAt, dif_pos h, ih (by simpa using hk)]
      by_cases hEq : i = k
      · subst hEq
        have hAbove : ¬Covers i (i ||| (i + 1)) := fun hc => by
          have := lt_or_succ i
          exact absurd hc.2 (by omega)
        simp [hAbove, covers_self, hk]
      · rw [if_congr (covers_next hEq) rfl rfl]
        simp [hEq]
  | case2 tree i h =>
      have hBelow : ¬Covers k i := fun hc => h (Nat.lt_of_le_of_lt hc.2 hk)
      rw [addAt, dif_neg h, if_neg hBelow, add_zero]

/-- Each node holds the sum of the run that it covers. -/
def Holds (tree : Array Int) (f : Nat → Int) : Prop :=
  ∀ k < tree.size, tree.getD k 0 = ∑ j ∈ Finset.Ico (k &&& (k + 1)) (k + 1), f j

/-- An empty tree holds the sums of no heights. -/
theorem holds_zero (n : Nat) : Holds (Array.replicate n 0) fun _ => 0 := by
  intro k hk
  have hk : k < n := by simpa using hk
  simp [hk]

/-- Adding at a place adds to the sums of all runs that the place belongs to. -/
theorem Holds.addAt {tree : Array Int} {f : Nat → Int} (h : Holds tree f) (i : Nat) (delta : Int) :
    Holds (addAt tree i delta) fun j => f j + if j = i then delta else 0 := by
  intro k hk
  rw [size_addAt] at hk
  have hOne : ∑ j ∈ Finset.Ico (k &&& (k + 1)) (k + 1), (if j = i then delta else 0) =
      if Covers k i then delta else 0 := by
    rw [Finset.sum_ite_eq']
    exact if_congr (by rw [Finset.mem_Ico, Covers, Nat.lt_succ_iff]) rfl rfl
  rw [getD_addAt tree i delta hk, h k hk, Finset.sum_add_distrib, hOne]

/-- The nodes read for a sum cover the first heights without gap and without overlap. -/
theorem Holds.sumFirst {tree : Array Int} {f : Nat → Int} (h : Holds tree f) {n : Nat}
    (hn : n ≤ tree.size) : sumFirst tree n = ∑ j ∈ Finset.range n, f j := by
  induction n using Nat.strongRecOn with
  | ind n ih =>
      rw [HeightIndex.sumFirst]
      split
      · rename_i hZero
        simp [hZero]
      · rename_i hPos
        obtain ⟨m, rfl⟩ : ∃ m, n = m + 1 := ⟨n - 1, by omega⟩
        have hLe : m &&& (m + 1) ≤ m := Nat.and_le_left
        have hBelow := ih (m &&& (m + 1)) (by omega) (by omega)
        rw [Nat.add_sub_cancel, Nat.and_comm (m + 1) m, h m (by omega), hBelow, add_comm,
          Finset.sum_range_add_sum_Ico f (by omega)]

theorem Holds.congr {tree : Array Int} {f g : Nat → Int} (h : Holds tree f) (hEq : ∀ j, f j = g j) :
    Holds tree g := by
  rwa [← funext hEq]

/-- Building adds the heights one after the other to the places from `start` on. -/
theorem Holds.foldl_addAt {tree : Array Int} {f : Nat → Int} (h : Holds tree f)
    (heights : List Nat) (start : Nat) :
    Holds ((heights.zipIdx start).foldl (fun tree (height, i) => HeightIndex.addAt tree i height) tree)
      fun j => f j + if start ≤ j then ((heights.getD (j - start) 0 : Nat) : Int) else 0 := by
  induction heights generalizing tree f start with
  | nil => exact h.congr fun j => by simp
  | cons height rest ih =>
      rw [List.zipIdx_cons, List.foldl_cons]
      refine (ih (h.addAt start height) (start + 1)).congr fun j => ?_
      rcases Nat.lt_trichotomy j start with hLt | rfl | hGt
      · simp [show j ≠ start by omega, show ¬start ≤ j by omega, show ¬start + 1 ≤ j by omega]
      · simp
      · obtain ⟨k, rfl⟩ : ∃ k, j = start + 1 + k := ⟨j - (start + 1), by omega⟩
        have hSub : start + 1 + k - start = k + 1 := by omega
        simp [hSub, show start + 1 + k ≠ start by omega, show start ≤ start + 1 + k by omega]

/-- The tree has room for all heights, and its nodes hold their sums. -/
structure Sound (x : HeightIndex) : Prop where
  room : x.heights.size ≤ x.tree.size
  holds : Holds x.tree fun j => ((x.heights.toList.getD j 0 : Nat) : Int)

/-- A tree with room for heights to come is in step with having none. -/
theorem sound_withCapacity (capacity : Nat) : (withCapacity capacity).Sound :=
  ⟨Nat.zero_le _, (holds_zero capacity).congr fun j => by simp [withCapacity]⟩

@[simp] theorem toList_push (x : HeightIndex) (height : Nat) :
    (x.push height).heights.toList = x.heights.toList ++ [height] := by
  unfold push
  dsimp only
  split <;> simp

theorem size_build (capacity : Nat) (heights : List Nat) :
    (build capacity heights).size = capacity := by
  have hFold (pairs : List (Nat × Nat)) (tree : Array Int) :
      (pairs.foldl (fun tree (height, i) => addAt tree i height) tree).size = tree.size := by
    induction pairs generalizing tree with
    | nil => rfl
    | cons pair rest ih => rw [List.foldl_cons, ih, size_addAt]
  rw [build, hFold, Array.size_replicate]

/-- Both ways of adding a height, in place and by building the tree anew, keep the sums. -/
theorem Sound.push {x : HeightIndex} (h : x.Sound) (height : Nat) : (x.push height).Sound := by
  by_cases hRoom : x.size < x.tree.size
  · -- the new place has held nothing so far, and the heights behind it are none
    have hEq : x.push height =
        { tree := HeightIndex.addAt x.tree x.size height, heights := x.heights.push height } := by
      simp only [HeightIndex.push, if_pos hRoom]
    rw [hEq]
    refine ⟨?_, (h.holds.addAt x.size height).congr fun j => ?_⟩
    · rw [size_addAt, Array.size_push]
      exact hRoom
    · have hSize : x.size = x.heights.toList.length := (Array.length_toList).symm
      rcases Nat.lt_trichotomy j x.size with hLt | rfl | hGt
      · simp [List.getD_eq_getElem?_getD, List.getElem?_append_left (hSize ▸ hLt), Nat.ne_of_lt hLt]
      · simp [size]
      · have hNone : x.heights.toList.length ≤ j := by omega
        have hSingle : [height][j - x.heights.size]? = none := by
          rw [size] at hGt
          exact List.getElem?_eq_none (by rw [List.length_singleton]; omega)
        simp [List.getD_eq_getElem?_getD, List.getElem?_eq_none hNone,
          List.getElem?_append_right hNone, Nat.ne_of_gt hGt, hSingle]
  · have hEq : x.push height =
        { tree := build (max (max x.tree.size 1 * 2) (x.heights.push height).size)
            (x.heights.push height).toList
          heights := x.heights.push height } := by
      simp only [HeightIndex.push, if_neg hRoom]
    rw [hEq]
    refine ⟨?_, ?_⟩
    · rw [size_build]
      exact Nat.le_max_right _ _
    · exact ((holds_zero _).foldl_addAt _ 0).congr fun j => by simp

/-- The sum of the first heights, once over numbers and once as a list. -/
theorem sum_range_getD (heights : List Nat) (n : Nat) :
    ∑ j ∈ Finset.range n, ((heights.getD j 0 : Nat) : Int) = ((heights.take n).sum : Nat) := by
  induction n with
  | zero => simp
  | succ n ih =>
      rw [Finset.sum_range_succ, ih, List.take_add_one, List.sum_append, Nat.cast_add,
        List.getD_eq_getElem?_getD]
      cases heights[n]? with
      | none => simp
      | some height => simp

/-- A sum that a signed 64-bit word holds is read as it is. -/
theorem readSum_of_lt {n : Nat} (h : n < 2 ^ 63) : readSum (n : Int) = n := by
  have hWord : ((n : Int)).bmod UInt64.size = n := by
    rw [Int.bmod_eq_of_le] <;> simp only [UInt64.size] <;> omega
  rw [readSum, hWord, Int.toNat_natCast]

/-- A sum that no signed 64-bit word holds, and that is not twice as large, is read as nothing. -/
theorem readSum_of_ge {n : Nat} (hGe : 2 ^ 63 ≤ n) (hLt : n < 2 ^ 64) : readSum (n : Int) = 0 := by
  have hSize : (UInt64.size : Int) = 2 ^ 64 := rfl
  have hWord : ((n : Int)).bmod UInt64.size = n - 2 ^ 64 := by
    rw [← Int.sub_bmod_right, hSize, Int.bmod_eq_of_le] <;> simp only [UInt64.size] <;> omega
  rw [readSum, hWord]
  omega

/-- The lower edge of a segment is read off the sum of the heights up to it, whatever this is. -/
theorem Sound.prefixSum_eq_readSum {x : HeightIndex} (h : x.Sound) {i : Nat} (hi : i < x.size) :
    x.prefixSum i = readSum ((x.heights.toList.take (i + 1)).sum : Nat) := by
  rw [HeightIndex.prefixSum, h.holds.sumFirst (Nat.le_trans hi h.room), sum_range_getD]

/-- The sum up to a segment is read as it is, if words hold all heights together. -/
theorem Sound.prefixSum {x : HeightIndex} (h : x.Sound) (hFits : x.heights.toList.sum < 2 ^ 63)
    {i : Nat} (hi : i < x.size) :
    x.prefixSum i = (x.heights.toList.take (i + 1)).sum := by
  have hSum := List.sum_take_add_sum_drop x.heights.toList (i + 1)
  rw [h.prefixSum_eq_readSum hi, readSum_of_lt (by omega)]

theorem Sound.total {x : HeightIndex} (h : x.Sound) (hFits : x.heights.toList.sum < 2 ^ 63) :
    x.total = x.heights.toList.sum := by
  unfold HeightIndex.total
  split
  · rename_i hZero
    have hNil : x.heights.toList = [] := by simpa [size] using hZero
    simp [hNil]
  · rename_i hPos
    have hLength : x.heights.toList.length ≤ x.size - 1 + 1 := by
      rw [Array.length_toList, size]
      omega
    rw [h.prefixSum hFits (by omega), List.take_of_length_le hLength]

/-- The offset of a segment is the sum of the heights before it. -/
theorem Sound.offset? {x : HeightIndex} (h : x.Sound) (hFits : x.heights.toList.sum < 2 ^ 63)
    {i : Nat} (hi : i < x.size) : x.offset? i = some (x.heights.toList.take i).sum := by
  unfold HeightIndex.offset?
  split
  · rename_i hZero
    simp [hZero]
  · rename_i hPos
    rw [prefixSum?, if_pos (by omega), h.prefixSum hFits (by omega)]
    congr 3
    omega

/-- The segment found for a row is one of the column. -/
theorem segmentAt?_lt {x : HeightIndex} {y i : Nat} (h : x.segmentAt? y = some i) : i < x.size := by
  unfold segmentAt? at h
  dsimp only at h
  split at h
  · rename_i hLt
    exact Option.some.inj h ▸ hLt
  · cases h

theorem getD_segmentAt?_le (x : HeightIndex) (y : Nat) :
    (x.segmentAt? y).getD x.size ≤ x.size := by
  cases h : x.segmentAt? y with
  | none => exact Nat.le_refl _
  | some i => exact Nat.le_of_lt (segmentAt?_lt h)

end Changelog.HeightIndex
