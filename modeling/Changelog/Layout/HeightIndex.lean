/-!
Heights of segments, with fast sums. A tree over the heights keeps in node `i` the sum of a run of
heights that ends at `i`; the length of the run is the largest power of two that divides `i + 1`.
The tree may be longer than the list of heights. Nodes and sums are integers of any size; what is
read of a sum is the signed 64-bit word that it comes to, so beyond such words nothing is promised.
-/

namespace Changelog

theorem HeightIndex.lt_or_succ (i : Nat) : i < i ||| (i + 1) :=
  Nat.lt_of_lt_of_le (Nat.lt_succ_self i) Nat.right_le_or

/-- A column of heights. -/
structure HeightIndex where
  tree : Array Int := #[]
  heights : Array Nat := #[]
deriving DecidableEq, Repr

namespace HeightIndex

/-- Adds to the node `i` and to all nodes above it. -/
def addAt (tree : Array Int) (i : Nat) (delta : Int) : Array Int :=
  if h : i < tree.size then addAt (tree.set i (tree[i] + delta)) (i ||| (i + 1)) delta else tree
termination_by tree.size - i
decreasing_by
  have := lt_or_succ i
  simp only [Array.size_set]
  omega

/-- The sum of the first `n` heights, from the nodes whose runs make it up. -/
def sumFirst (tree : Array Int) (n : Nat) : Int :=
  if _h : n = 0 then 0 else tree.getD (n - 1) 0 + sumFirst tree (n &&& (n - 1))
termination_by n
decreasing_by
  have : n &&& (n - 1) ≤ n - 1 := Nat.and_le_right
  omega

/-- An empty column with room for `capacity` heights. -/
def withCapacity (capacity : Nat) : HeightIndex :=
  { tree := Array.replicate capacity 0 }

def size (x : HeightIndex) : Nat :=
  x.heights.size

/-- The tree of these heights, with room for `capacity` of them. -/
def build (capacity : Nat) (heights : List Nat) : Array Int :=
  (heights.zipIdx).foldl (fun tree (height, i) => addAt tree i height) (Array.replicate capacity 0)

/-- Adds a height at the end. A full tree is built anew with twice the room. -/
def push (x : HeightIndex) (height : Nat) : HeightIndex :=
  let slot := x.size
  let heights := x.heights.push height
  if slot < x.tree.size then { tree := addAt x.tree slot height, heights }
  else { tree := build (max (max x.tree.size 1 * 2) heights.size) heights.toList, heights }

def ofList (heights : List Nat) : HeightIndex :=
  heights.foldl push (withCapacity heights.length)

/-- Replaces a height; `none` if there is none of this number. -/
def set? (x : HeightIndex) (i height : Nat) : Option HeightIndex :=
  if h : i < x.heights.size then
    let delta : Int := height - x.heights[i]
    some
      { tree := if delta = 0 then x.tree else addAt x.tree i delta
        heights := x.heights.set i height }
  else none

/-- Forgets all heights and keeps the room. -/
def clear (x : HeightIndex) : HeightIndex :=
  { tree := Array.replicate x.tree.size 0 }

def height? (x : HeightIndex) (i : Nat) : Option Nat :=
  x.heights[i]?

/-- A sum as it is read: as a signed 64-bit word, and not below zero. -/
def readSum (sum : Int) : Nat :=
  (sum.bmod UInt64.size).toNat

/-- The lower edge of segment `i`: the sum of the heights up to its own. -/
def prefixSum (x : HeightIndex) (i : Nat) : Nat :=
  readSum (sumFirst x.tree (i + 1))

/-- The lower edge of segment `i`; `none` if there is none of this number. -/
def prefixSum? (x : HeightIndex) (i : Nat) : Option Nat :=
  if i < x.size then some (x.prefixSum i) else none

/-- The upper edge of segment `i`, which is the lower edge of the one before. -/
def offset? (x : HeightIndex) (i : Nat) : Option Nat :=
  if i = 0 then some 0 else x.prefixSum? (i - 1)

/-- The sum of all heights. -/
def total (x : HeightIndex) : Nat :=
  if x.size = 0 then 0 else x.prefixSum (x.size - 1)

/-- The first segment from `low` on, before `high`, whose lower edge is below row `y`; `high` if
there is none. -/
def search (x : HeightIndex) (y low high : Nat) : Nat :=
  if h : low < high then
    let middle := low + (high - low) / 2
    if y < x.prefixSum middle then search x y low middle else search x y (middle + 1) high
  else low
termination_by high - low

/-- The segment that row `y` belongs to; `none` below the last one. Segments without height have no
rows. -/
def segmentAt? (x : HeightIndex) (y : Nat) : Option Nat :=
  let found := x.search y 0 x.size
  if found < x.size then some found else none

end HeightIndex

end Changelog
