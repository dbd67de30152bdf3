import Changelog.Number.Decimal

/-!
Integers of 32 bits read from decimal text.
-/

namespace Changelog.Number

/-- Whether an integer fits in a signed 32-bit word. -/
def fits32 (n : Int) : Bool :=
  -0x80000000 ≤ n && n < 0x80000000

/-- A row of at least one decimal digit. -/
def readDigits? (text : Text) : Option Nat :=
  if text ≠ [] ∧ text.all Char.isDigit then some (ofDigits text) else none

/-- An optional sign and at least one digit. -/
def readInt? : Text → Option Int
  | '-' :: digits => (readDigits? digits).map fun n => -(n : Int)
  | '+' :: digits => (readDigits? digits).map fun n => (n : Int)
  | digits => (readDigits? digits).map fun n => (n : Int)

/-- An integer that fits in a signed 32-bit word. -/
def readInt32? (text : Text) : Option Int :=
  (readInt? text).filter fits32

end Changelog.Number
