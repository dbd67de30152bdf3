import Changelog.Number.Binary

/-!
The numbers that layout computes with. Layout is written once over any such type of numbers, so it
runs on single-precision numbers and can be read with exact ones.
-/

namespace Changelog

/-- Arithmetic, comparison and conversions. A comparison with a value that is not a number fails. -/
class Scalar (α : Type) extends Add α, Sub α, Mul α, Div α, LT α, LE α where
  decidableLt : DecidableLT α
  decidableLe : DecidableLE α
  /-- The number nearest to an integer. -/
  ofInt : Int → α
  /-- The greatest integer up to the number. What is not a number counts as 0, and the infinite
  values lie beyond every machine word. -/
  floor : α → Int
  /-- The least integer from the number on, with the same exceptions. -/
  ceil : α → Int
  /-- Whether two numbers are one value in every respect. -/
  same : α → α → Bool

namespace Scalar

variable {α : Type} [Scalar α]

instance : DecidableLT α := decidableLt
instance : DecidableLE α := decidableLe

def ofNat (n : Nat) : α := ofInt n

/-- The number nearest to a quotient of small integers. -/
def ratio (a b : Nat) : α := ofNat a / ofNat b

def zero : α := ofNat 0

/-- The larger of two numbers, or the one that is a number. -/
def larger (a b : α) : α :=
  if a ≤ a then (if a < b then b else a) else b

/-- The number moved into the range from `low` to `high`. -/
def clamp (low high a : α) : α :=
  if a < low then low else if high < a then high else a

end Scalar

/-- The integer, or the nearest end of the range of an unsigned 32-bit word. -/
def saturate32 (n : Int) : UInt32 :=
  UInt32.ofNat (min n.toNat (UInt32.size - 1))

/-- The integer, or the nearest end of the range of a signed 32-bit word. -/
def saturateSigned32 (n : Int) : Int :=
  max (-0x80000000) (min n 0x7FFFFFFF)

/-- The integer, or the nearest end of the range of a signed 64-bit word. -/
def saturateSigned64 (n : Int) : Int :=
  max (-0x8000000000000000) (min n 0x7FFFFFFFFFFFFFFF)

/-- A number in an unsigned word with `size` values; `none` if the word does not hold it. -/
def inWord? (size n : Nat) : Option Nat :=
  if n < size then some n else none

theorem inWord?_eq_some_iff {size n m : Nat} : inWord? size n = some m ↔ n = m ∧ n < size := by
  rw [inWord?, Option.ite_none_right_eq_some, Option.some_inj, and_comm]

theorem isSome_inWord?_iff {size n : Nat} : (inWord? size n).isSome = true ↔ n < size := by
  rw [inWord?, Option.isSome_ite]

namespace Number

/-- An integer for any value: 0 for what is not a number, and beyond every machine word for the
infinite values. -/
def Binary.toInt (round : Binary → Option Int) (x : Binary) : Int :=
  match x with
  | .nan => 0
  | .infinite negative => if negative then -UInt64.size else UInt64.size
  | x => (round x).getD 0

end Number

instance : Scalar Float32 where
  decidableLt := inferInstance
  decidableLe := inferInstance
  ofInt n := Float32.ofBits (Number.Format.single.nearest (n < 0) n.natAbs 1).toUInt32
  floor x := (Number.ofSingle x).toInt Number.Binary.floor?
  ceil x := (Number.ofSingle x).toInt Number.Binary.ceil?
  same x y := x.toBits == y.toBits

end Changelog
