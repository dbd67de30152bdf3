/-!
Binary numbers of limited precision, as their bits describe them: a sign and `mantissa * 2 ^
exponent`. A fraction is rounded to the nearest of them, a tie to the even mantissa.
-/

namespace Changelog.Number

/-- What fixes a binary format: the length of the mantissa with its implied bit, the exponent of
the least positive number, and the width of the exponent field. -/
structure Format where
  precision : Nat
  minExponent : Int
  exponentBits : Nat

namespace Format

def single : Format := ⟨24, -149, 8⟩

def double : Format := ⟨53, -1074, 11⟩

/-- The field that follows the sign bit, of the infinite value. -/
def infinityField (f : Format) : Nat :=
  (Nat.pow 2 f.exponentBits - 1) * Nat.pow 2 (f.precision - 1)

/-- The sign bit. -/
def signBit (f : Format) : Nat :=
  Nat.pow 2 (f.exponentBits + f.precision - 1)

end Format

/-- The value that the bits of a number stand for. -/
inductive Binary where
  | nan
  | infinite (negative : Bool)
  /-- The number `± mantissa * 2 ^ exponent`. -/
  | finite (negative : Bool) (mantissa : Nat) (exponent : Int)
deriving DecidableEq, Repr

/-- Reads the bits of a number. -/
def Format.decode (f : Format) (bits : Nat) : Binary :=
  let half := Nat.pow 2 (f.precision - 1)
  let negative := f.signBit ≤ bits
  let field := bits % f.signBit
  let exponent := field / half
  let fraction := field % half
  if f.infinityField < field then .nan
  else if field = f.infinityField then .infinite negative
  else if exponent = 0 then .finite negative fraction f.minExponent
  else .finite negative (half + fraction) (f.minExponent + exponent - 1)

/-- `a * 2 ^ e`, as a quotient of natural numbers. -/
def scaleTwo (a : Nat) (e : Int) : Nat × Nat :=
  (a * Nat.pow 2 e.toNat, Nat.pow 2 (-e).toNat)

/-- The integer nearest to `a / b`, a tie going to the even one. -/
def roundQuotient (a b : Nat) : Nat :=
  let q := a / b
  let r := a % b
  if 2 * r < b then q
  else if b < 2 * r then q + 1
  else q + q % 2

/-- The bits of the number nearest to `a / b`; what exceeds the largest finite number by half a
step or more becomes infinite. The mantissa of a larger exponent carries on the count of the bits
below, so a mantissa rounded up to the next power of two needs no case of its own. -/
def Format.nearest (f : Format) (negative : Bool) (a b : Nat) : Nat :=
  let sign := if negative then f.signBit else 0
  if a = 0 then sign
  else
    let low : Int := (Nat.log2 a : Int) - Nat.log2 b - f.precision
    let fits (e : Int) : Bool :=
      a * Nat.pow 2 (-e).toNat < b * Nat.pow 2 (e.toNat + f.precision)
    let exponent := max f.minExponent (if fits low then low else low + 1)
    let mantissa :=
      roundQuotient (a * Nat.pow 2 (-exponent).toNat) (b * Nat.pow 2 exponent.toNat)
    let field := (exponent - f.minExponent).toNat * Nat.pow 2 (f.precision - 1) + mantissa
    sign + min field f.infinityField

/-- The value that a single-precision number stands for. -/
def ofSingle (x : Float32) : Binary :=
  Format.single.decode x.toBits.toNat

namespace Binary

/-- The greatest integer up to the number; `none` for the numbers that are not finite. -/
def floor? : Binary → Option Int
  | finite negative mantissa exponent =>
    let (a, b) := scaleTwo mantissa exponent
    some (if negative then -((a + b - 1) / b : Nat) else (a / b : Nat))
  | _ => none

/-- The least integer from the number on; `none` for the numbers that are not finite. -/
def ceil? : Binary → Option Int
  | finite negative mantissa exponent =>
    let (a, b) := scaleTwo mantissa exponent
    some (if negative then -((a / b : Nat) : Int) else ((a + b - 1) / b : Nat))
  | _ => none

/-- The nearest integer, halves away from zero; `none` for the numbers that are not finite. -/
def round? : Binary → Option Int
  | finite negative mantissa exponent =>
    let (a, b) := scaleTwo mantissa exponent
    let n := (2 * a + b) / (2 * b)
    some (if negative then -(n : Int) else n)
  | _ => none

end Binary

end Changelog.Number
