import Changelog.Proofs.Layout.HeightRuns
import Changelog.Proofs.Layout.RowSearch

/-! Looking up a row after any run of operations. The segment that is found is the one whose edges, as the
column gives them, enclose the row; and the search reads lower edges of segments that there are, in as many
turns as the number of segments has binary digits. -/

namespace Changelog.HeightIndex

/-- The edges of segment `i`, as they are read, enclose row `y`. -/
def Encloses (x : HeightIndex) (i y : Nat) : Prop :=
  ∃ upper lower, x.offset? i = some upper ∧ x.prefixSum? i = some lower ∧ upper ≤ y ∧ y < lower

/-- One turn of the search. It fails if the column is asked for the edge of a segment that it does not have;
when nothing is left to search, the bounds stay. -/
def turn? (x : HeightIndex) (y : Nat) : Nat × Nat → Option (Nat × Nat)
  | (low, high) =>
    if low < high then
      let middle := low + (high - low) / 2
      (x.prefixSum? middle).map fun lower =>
        if y < lower then (low, middle) else (middle + 1, high)
    else some (low, high)

/-- So many turns of the search, one after the other. -/
def turns? (x : HeightIndex) (y : Nat) : Nat → Nat × Nat → Option (Nat × Nat)
  | 0, bounds => some bounds
  | n + 1, bounds => (x.turn? y bounds).bind (x.turns? y n)

variable {x : HeightIndex} {y low high : Nat}

/-- A turn on segments of the column succeeds, and leaves at most half of them. -/
theorem exists_turn? (hLt : low < high) (hHigh : high ≤ x.size) :
    ∃ low' high', x.turn? y (low, high) = some (low', high') ∧ low' ≤ high' ∧ high' ≤ x.size ∧
      high' - low' ≤ (high - low) / 2 ∧ x.search y low high = x.search y low' high' := by
  have hSum : x.prefixSum? (low + (high - low) / 2) =
      some (x.prefixSum (low + (high - low) / 2)) := by
    rw [prefixSum?, if_pos (by omega)]
  rw [turn?, if_pos hLt, search, dif_pos hLt]
  dsimp only
  rw [hSum, Option.map_some]
  split
  · exact ⟨_, _, rfl, by omega, by omega, by omega, rfl⟩
  · exact ⟨_, _, rfl, by omega, by omega, by omega, rfl⟩

theorem turn?_of_eq (low : Nat) : x.turn? y (low, low) = some (low, low) := by
  rw [turn?, if_neg (Nat.lt_irrefl low)]

/-- With a turn for each binary digit of the number of segments, the bounds of the search meet. -/
theorem turns?_eq {n : Nat} (hLe : low ≤ high) (hHigh : high ≤ x.size) (hTurns : high - low < 2 ^ n) :
    x.turns? y n (low, high) = some (x.search y low high, x.search y low high) := by
  induction n generalizing low high with
  | zero =>
      obtain rfl : low = high := by omega
      rw [search, dif_neg (Nat.lt_irrefl low)]
      rfl
  | succ n ih =>
      rw [turns?]
      rcases Nat.eq_or_lt_of_le hLe with rfl | hLt
      · rw [turn?_of_eq, Option.bind_some]
        exact ih hLe hHigh (by rw [Nat.sub_self]; exact Nat.two_pow_pos n)
      · obtain ⟨low', high', hTurn, hLe', hHigh', hHalf, hSearch⟩ := exists_turn? (y := y) hLt hHigh
        rw [hTurn, Option.bind_some, hSearch]
        exact ih hLe' hHigh' (by rw [pow_succ] at hTurns; omega)

/-- The search of a column ends with its bounds at one place, and asks for nothing outside of the column. -/
theorem exists_turns?_eq (x : HeightIndex) (y : Nat) :
    ∃ found, x.turns? y (x.size.log2 + 1) (0, x.size) = some (found, found) ∧
      x.segmentAt? y = if found < x.size then some found else none :=
  ⟨x.search y 0 x.size, turns?_eq (Nat.zero_le _) (Nat.le_refl _) Nat.lt_log2_self, rfl⟩

section Lookup

variable (h : x.Sound) (hFits : x.heights.toList.sum < 2 ^ 63)
include h hFits

/-- The edges that are read enclose the rows of the segment. -/
theorem Sound.encloses_iff {i : Nat} : x.Encloses i y ↔ x.HasRow i y := by
  have hEdges {i : Nat} (hi : i < x.size) :
      x.offset? i = some (x.edge i) ∧ x.prefixSum? i = some (x.edge (i + 1)) := by
    refine ⟨h.offset? hFits hi, ?_⟩
    rw [prefixSum?, if_pos hi, h.prefixSum hFits hi, edge]
  constructor
  · rintro ⟨upper, lower, hUpper, hLower, hRow⟩
    have hi : i < x.size := by
      by_contra hi
      rw [prefixSum?, if_neg hi] at hLower
      cases hLower
    rw [(hEdges hi).1] at hUpper
    rw [(hEdges hi).2] at hLower
    rw [HasRow, Option.some.inj hUpper, Option.some.inj hLower]
    exact hRow
  · intro hRow
    exact ⟨_, _, (hEdges hRow.lt_size).1, (hEdges hRow.lt_size).2, hRow.1, hRow.2⟩

end Lookup

/-- A segment with a row has a height above zero. -/
theorem HasRow.height_pos {i : Nat} (h : x.HasRow i y) : ∃ height, x.height? i = some height ∧ 0 < height := by
  obtain ⟨height, hHeight⟩ : ∃ height, x.height? i = some height :=
    ⟨_, Array.getElem?_eq_getElem h.lt_size⟩
  have hEdge := edge_succ hHeight
  have hLt := Nat.lt_of_le_of_lt h.1 h.2
  exact ⟨height, hHeight, by omega⟩

/-- After any run of operations, looking up a row inverts the edges that the column gives: the segment that is
found is the only one whose edges enclose the row, it has height, and none is found from the lower edge of the
column on. A signed 64-bit word must hold the sum of the heights. -/
theorem segmentAt?_inverts (capacity : Nat) {ops : List Operation}
    (hRun : ops.foldlM Operation.onColumn? (withCapacity capacity) = some x)
    (hFits : x.heights.toList.sum < 2 ^ 63) (y : Nat) :
    (∀ i, x.segmentAt? y = some i ↔ i < x.size ∧ x.Encloses i y) ∧
      (∀ i j, x.Encloses i y → x.Encloses j y → i = j) ∧
      (∀ i, x.Encloses i y → ∃ height, x.height? i = some height ∧ 0 < height) ∧
      (x.segmentAt? y = none ↔ x.total ≤ y) ∧
      ∃ found, x.turns? y (x.size.log2 + 1) (0, x.size) = some (found, found) ∧
        x.segmentAt? y = if found < x.size then some found else none := by
  have h : x.Sound := (sound_withCapacity capacity).run hRun
  refine ⟨fun i => ?_, fun i j hi hj => ?_, fun i hi => ?_, ?_, x.exists_turns?_eq y⟩
  · rw [h.segmentAt?_eq_some_iff hFits, h.encloses_iff hFits]
    exact ⟨fun hRow => ⟨hRow.lt_size, hRow⟩, And.right⟩
  · exact ((h.encloses_iff hFits).1 hi).unique ((h.encloses_iff hFits).1 hj)
  · exact ((h.encloses_iff hFits).1 hi).height_pos
  · rw [h.segmentAt?_eq_none_iff hFits, h.total hFits]

/-- Segments without height stand in front, between the others and behind them, after one was cleared and one
was set. -/
theorem segmentAt?_inverts_among_instructions :
    let ops : List Operation :=
      [.push 9, .clear, .push 0, .push 20, .push 0, .push 0, .push 7, .push 0, .set 4 15]
    ∃ x, ops.foldlM Operation.onColumn? (withCapacity 1) = some x ∧
      x.heights.toList.sum < 2 ^ 63 ∧ x.segmentAt? 20 = some 4 ∧ x.Encloses 4 20 ∧
      (x.segmentAt? 20 = none ↔ x.total ≤ 20) := by
  intro ops
  have hList : ops.foldlM Operation.onList? [] = some [0, 20, 0, 0, 15, 0] := rfl
  obtain ⟨x, hRun, hHeights⟩ :=
    Option.map_eq_some_iff.1 ((toList_run (withCapacity 1) ops).trans hList)
  have hFits : x.heights.toList.sum < 2 ^ 63 := by
    rw [hHeights]
    decide
  have hShows := ((sound_withCapacity 1).run hRun).shows hFits
  have hRow : x.Encloses 4 20 :=
    ⟨20, 35, by rw [hShows.offset_eq, hHeights]; rfl, by rw [hShows.prefixSum_eq, hHeights]; rfl,
      by decide, by decide⟩
  have hSize : 4 < x.size := by
    rw [hShows.size_eq, hHeights]
    decide
  obtain ⟨hSome, _, _, hNone, _⟩ := segmentAt?_inverts 1 hRun hFits 20
  exact ⟨x, hRun, hFits, (hSome 4).2 ⟨hSize, hRow⟩, hRow, hNone⟩

/-- A sum that no signed word holds is read as none at all: the row is enclosed by the first segment, and is
not found. -/
theorem not_segmentAt?_inverts :
    let ops : List Operation := [.push 10, .push (2 ^ 63)]
    ∃ x, ops.foldlM Operation.onColumn? (withCapacity 2) = some x ∧
      ¬(x.segmentAt? 5 = some 0 ↔ 0 < x.size ∧ x.Encloses 0 5) := by
  refine ⟨_, rfl, fun h => ?_⟩
  have hFound := h.2 ⟨by decide +kernel, 0, 10, rfl, by decide +kernel, by decide, by decide⟩
  revert hFound
  decide +kernel

end Changelog.HeightIndex
