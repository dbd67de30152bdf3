import Changelog.Proofs.Layout.HeightSums
import Mathlib.Algebra.Order.BigOperators.Group.Finset

/-! A column of heights over whole runs of operations. It answers as the plain list of its heights,
whatever room its tree began with and whatever was replaced or forgotten on the way. -/

namespace Changelog.HeightIndex

/-- To change a height, its difference to the old one is added to the tree. -/
theorem Sound.addAt_set {x : HeightIndex} (h : x.Sound) {i : Nat} (hi : i < x.heights.size)
    (height : Nat) :
    Sound { tree := HeightIndex.addAt x.tree i ((height : Int) - x.heights[i])
            heights := x.heights.set i height } := by
  refine ⟨?_, (h.holds.addAt i _).congr fun j => ?_⟩
  · rw [size_addAt, Array.size_set]
    exact h.room
  · by_cases hEq : j = i
    · subst hEq
      simp [List.getD_eq_getElem?_getD, hi]
    · simp [List.getD_eq_getElem?_getD, hEq, Ne.symm hEq]

/-- Adding nothing changes nothing, so a height may be set to what it was. -/
theorem addAt_zero (tree : Array Int) (i : Nat) : addAt tree i 0 = tree := by
  refine Array.ext (size_addAt tree i 0) fun k hk hk' => ?_
  have hNode := getD_addAt tree i 0 hk'
  rw [ite_self, add_zero] at hNode
  simpa [hk'] using hNode

/-- Setting changes the list in one place and the tree by the difference, also if there is none. -/
theorem set?_eq_some (x : HeightIndex) {i : Nat} (hi : i < x.heights.size) (height : Nat) :
    x.set? i height =
      some { tree := addAt x.tree i ((height : Int) - x.heights[i])
             heights := x.heights.set i height } := by
  rw [set?, dif_pos hi]
  dsimp only
  split
  · rename_i hZero
    rw [hZero, addAt_zero]
  · rfl

/-- What is forgotten is taken out of the tree as well, which keeps its room. -/
theorem Sound.clear (x : HeightIndex) : x.clear.Sound :=
  sound_withCapacity x.tree.size

/-- What changes a column. -/
inductive Operation where
  | push (height : Nat)
  | set (i height : Nat)
  | clear
deriving DecidableEq, Repr

namespace Operation

/-- An operation on a column; a segment that there is not cannot be set. -/
def onColumn? (x : HeightIndex) : Operation → Option HeightIndex
  | push height => some (x.push height)
  | set i height => x.set? i height
  | clear => some x.clear

/-- An operation on the plain list of heights. -/
def onList? (heights : List Nat) : Operation → Option (List Nat)
  | push height => some (heights ++ [height])
  | set i height => if i < heights.length then some (heights.set i height) else none
  | clear => some []

end Operation

/-- The same operations fail on the column and on the list. -/
theorem toList_onColumn? (x : HeightIndex) (op : Operation) :
    (op.onColumn? x).map (fun y => y.heights.toList) = op.onList? x.heights.toList := by
  cases op with
  | push height => exact congrArg some (toList_push x height)
  | set i height =>
      rw [Operation.onList?, Array.length_toList]
      split
      · rename_i hi
        simp [Operation.onColumn?, set?_eq_some x hi]
      · rename_i hi
        simp [Operation.onColumn?, set?, hi]
  | clear => rfl

/-- Each operation keeps the tree in step with the heights. -/
theorem Sound.onColumn? {x y : HeightIndex} (h : x.Sound) {op : Operation}
    (hOp : op.onColumn? x = some y) : y.Sound := by
  cases op with
  | push height =>
      obtain rfl := Option.some.inj hOp
      exact h.push height
  | set i height =>
      by_cases hi : i < x.heights.size
      · obtain rfl := Option.some.inj ((set?_eq_some x hi height).symm.trans hOp)
        exact h.addAt_set hi height
      · simp [Operation.onColumn?, set?, hi] at hOp
  | clear =>
      obtain rfl := Option.some.inj hOp
      exact Sound.clear x

theorem toList_run (x : HeightIndex) (ops : List Operation) :
    (ops.foldlM Operation.onColumn? x).map (fun y => y.heights.toList) =
      ops.foldlM Operation.onList? x.heights.toList := by
  induction ops generalizing x with
  | nil => rfl
  | cons op rest ih =>
      rw [List.foldlM_cons, List.foldlM_cons, ← toList_onColumn?]
      cases op.onColumn? x with
      | none => rfl
      | some y => exact ih y

theorem Sound.run {x y : HeightIndex} (h : x.Sound) {ops : List Operation}
    (hRun : ops.foldlM Operation.onColumn? x = some y) : y.Sound := by
  induction ops generalizing x with
  | nil =>
      obtain rfl := Option.some.inj hRun
      exact h
  | cons op rest ih =>
      rw [List.foldlM_cons] at hRun
      obtain ⟨middle, hOp, hRest⟩ := Option.bind_eq_some_iff.1 hRun
      exact ih (h.onColumn? hOp) hRest

/-- All answers of a column are those of a list: the sums up to a segment with it and without it, and the
sum of all. There is no answer for a segment that there is not, except for the offset behind the last. -/
structure Shows (x : HeightIndex) (heights : List Nat) : Prop where
  size_eq : x.size = heights.length
  height_eq (i : Nat) : x.height? i = heights[i]?
  prefixSum_eq (i : Nat) :
    x.prefixSum? i = if i < heights.length then some (heights.take (i + 1)).sum else none
  offset_eq (i : Nat) :
    x.offset? i = if i ≤ heights.length then some (heights.take i).sum else none
  total_eq : x.total = heights.sum

/-- In step with its heights, a column answers as their list, as long as the words hold the sums. -/
theorem Sound.shows {x : HeightIndex} (h : x.Sound) (hFits : x.heights.toList.sum < 2 ^ 63) :
    x.Shows x.heights.toList := by
  have hSize : x.size = x.heights.toList.length := (Array.length_toList).symm
  have hPrefix (i : Nat) : x.prefixSum? i =
      if i < x.heights.toList.length then some (x.heights.toList.take (i + 1)).sum else none := by
    rw [prefixSum?, hSize]
    split
    · rename_i hi
      rw [h.prefixSum hFits (hSize ▸ hi)]
    · rfl
  refine ⟨hSize, fun i => ?_, hPrefix, fun i => ?_, h.total hFits⟩
  · rw [height?, Array.getElem?_toList]
  · cases i with
    | zero => simp [HeightIndex.offset?]
    | succ i => simpa [HeightIndex.offset?, Nat.succ_le_iff] using hPrefix i

/-- The sum of a run of heights is at most the sum of all. -/
theorem sum_Ico_getD_le (heights : List Nat) (k m : Nat) :
    (0 : Int) ≤ ∑ j ∈ Finset.Ico k m, ((heights.getD j 0 : Nat) : Int) ∧
      ∑ j ∈ Finset.Ico k m, ((heights.getD j 0 : Nat) : Int) ≤ heights.sum := by
  have hNonneg (j : Nat) : (0 : Int) ≤ (heights.getD j 0 : Nat) := Int.natCast_nonneg _
  refine ⟨Finset.sum_nonneg fun j _ => hNonneg j, ?_⟩
  calc
    _ ≤ ∑ j ∈ Finset.range m, ((heights.getD j 0 : Nat) : Int) :=
        Finset.sum_le_sum_of_subset_of_nonneg
          (fun j hj => Finset.mem_range.2 (Finset.mem_Ico.1 hj).2) fun j _ _ => hNonneg j
    _ = ((heights.take m).sum : Nat) := sum_range_getD _ _
    _ ≤ (heights.sum : Nat) := by
        have hSum := List.sum_take_add_sum_drop heights m
        omega

/-- The nodes of a tree are sums of some of the heights. -/
theorem Sound.node_le {x : HeightIndex} (h : x.Sound) {node : Int} (hMem : node ∈ x.tree) :
    0 ≤ node ∧ node ≤ x.heights.toList.sum := by
  obtain ⟨k, hk, rfl⟩ := Array.mem_iff_getElem.1 hMem
  have hNode : x.tree[k] = _ := (Array.getElem_eq_getD 0).trans (h.holds k hk)
  rw [hNode]
  exact sum_Ico_getD_le _ _ _

/-- After every run of operations a column answers as the list of its heights, as long as a signed 64-bit
word holds their sum; then such a word holds each node of its tree, too. -/
theorem run_shows (capacity : Nat) {ops : List Operation} {heights : List Nat}
    (hRun : ops.foldlM Operation.onList? [] = some heights) (hFits : heights.sum < 2 ^ 63) :
    ∃ x, ops.foldlM Operation.onColumn? (withCapacity capacity) = some x ∧ x.Shows heights ∧
      ∀ node ∈ x.tree, 0 ≤ node ∧ node < 2 ^ 63 := by
  obtain ⟨x, hColumn, rfl⟩ :=
    Option.map_eq_some_iff.1 ((toList_run (withCapacity capacity) ops).trans hRun)
  have hSound := (sound_withCapacity capacity).run hColumn
  refine ⟨x, hColumn, hSound.shows hFits, fun node hMem => ?_⟩
  have hNode := hSound.node_le hMem
  omega

/-- The tree is built anew for the second and the third height, and is used again after it was cleared. -/
theorem run_shows_after_clear :
    let ops : List Operation :=
      [.push 40, .push 400, .push 20, .clear, .push 20, .push 0, .push 15, .set 1 150, .set 0 7]
    ops.foldlM Operation.onList? [] = some [7, 150, 15] ∧
      ∃ x, ops.foldlM Operation.onColumn? (withCapacity 1) = some x ∧ x.Shows [7, 150, 15] ∧
        ∀ node ∈ x.tree, 0 ≤ node ∧ node < 2 ^ 63 :=
  ⟨rfl, run_shows 1 rfl (by decide)⟩

end Changelog.HeightIndex
