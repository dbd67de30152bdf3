import Changelog.Number.Decimal

/-!
The shortest decimal that reads back as a given binary number. The reals that round to the number
form an interval around it; of the grids of 1, 2, 3, … digits the first with a point in the
interval is taken, and of two points the one nearer to the number.
-/

namespace Changelog.Number

/-- The reals that round to `mantissa * 2 ^ exponent`, scaled by a common denominator. The ends
belong to the interval exactly when the mantissa is even. -/
structure RoundingInterval where
  low : Nat
  value : Nat
  high : Nat
  denominator : Nat
  closed : Bool

/-- The interval of a positive number of the format. Below a power of two the next number lies half
as far away as above it. -/
def RoundingInterval.of (f : Format) (mantissa : Nat) (exponent : Int) : RoundingInterval :=
  let narrow := mantissa = Nat.pow 2 (f.precision - 1) ∧ f.minExponent < exponent
  let (one, denominator) := scaleTwo 1 (exponent - 2)
  { low := (4 * mantissa - if narrow then 1 else 2) * one
    value := 4 * mantissa * one
    high := (4 * mantissa + 2) * one
    denominator
    closed := mantissa % 2 = 0 }

/-- Whether `digits * 10 ^ exponent` lies in the interval. -/
def RoundingInterval.has (i : RoundingInterval) (digits : Nat) (exponent : Int) : Bool :=
  let point := digits * Nat.pow 10 exponent.toNat * i.denominator
  let unit := Nat.pow 10 (-exponent).toNat
  if i.closed then i.low * unit ≤ point && point ≤ i.high * unit
  else i.low * unit < point && point < i.high * unit

/-- The point of the grid `10 ^ exponent` in the interval that is nearest to the number, the even
one of two equally near. -/
def RoundingInterval.onGrid? (i : RoundingInterval) (exponent : Int) : Option Nat :=
  let a := i.value * Nat.pow 10 (-exponent).toNat
  let b := i.denominator * Nat.pow 10 exponent.toNat
  let near := roundQuotient a b
  let far := if near * b ≤ a then near + 1 else near - 1
  if i.has near exponent then some near
  else if i.has far exponent then some far
  else none

/-- The exponent `k` of the least power of ten above `a / b`, for positive `a` and `b`. -/
def magnitude (a b : Nat) : Int :=
  let estimate : Int := (Nat.toDigits 10 a).length - (Nat.toDigits 10 b).length
  if a * Nat.pow 10 (-estimate).toNat < b * Nat.pow 10 estimate.toNat then estimate
  else estimate + 1

/-- Grids of one digit, two digits and so on, up to `fuel` of them. -/
def RoundingInterval.search (i : RoundingInterval) :
    (fuel : Nat) → (exponent : Int) → Option (Nat × Int)
  | 0, _ => none
  | fuel + 1, exponent =>
    match i.onGrid? exponent with
    | some digits => some (digits, exponent)
    | none => i.search fuel (exponent - 1)

/-- The shortest decimal that reads back as `mantissa * 2 ^ exponent`. Twenty digits suffice for
every number of double precision. -/
def shortest (f : Format) (mantissa : Nat) (exponent : Int) : Nat × Int :=
  let i := RoundingInterval.of f mantissa exponent
  (i.search 20 (magnitude i.value i.denominator - 1)).getD (mantissa, 0)

/-- Zeros at the end of the digits go into the exponent. -/
def stripZeros : (fuel : Nat) → Nat × Int → Nat × Int
  | 0, d => d
  | fuel + 1, (digits, exponent) =>
    if digits ≠ 0 ∧ digits % 10 = 0 then stripZeros fuel (digits / 10, exponent + 1)
    else (digits, exponent)

/-- Where positional notation ends: the largest count of digits before the point, and the largest
count of zeros behind it. -/
structure PointStyle where
  wholeDigits : Int
  leadingZeros : Int

/-- How documents write single-precision numbers. -/
def PointStyle.single : PointStyle := ⟨13, 5⟩

/-- Writes `digits * 10 ^ exponent` with at least one digit after the point, or with an exponent of
its own and its sign outside the range of the style. -/
def PointStyle.write (n : PointStyle) (digits : Nat) (exponent : Int) : String :=
  let shown := Nat.toDigits 10 digits
  let point : Int := shown.length + exponent
  let text : List Char :=
    if 0 ≤ exponent ∧ point ≤ n.wholeDigits then
      shown ++ List.replicate exponent.toNat '0' ++ ['.', '0']
    else if 0 < point ∧ point ≤ n.wholeDigits then
      shown.take point.toNat ++ '.' :: shown.drop point.toNat
    else if -n.leadingZeros ≤ point ∧ point ≤ 0 then
      ['0', '.'] ++ List.replicate (-point).toNat '0' ++ shown
    else
      let exponentText := (if 0 < point then ['+'] else []) ++ (toString (point - 1)).toList
      match shown with
      | first :: second :: more => first :: '.' :: second :: more ++ 'e' :: exponentText
      | one => one ++ 'e' :: exponentText
  String.ofList text

/-- The shortest text of a single-precision number that reads back as the same number; `none` if
it is not finite. -/
def singleText? (x : Float32) : Option String :=
  match ofSingle x with
  | .finite negative mantissa exponent =>
    let sign := if negative then "-" else ""
    if mantissa = 0 then some (sign ++ "0.0")
    else
      let (digits, exponent) := stripZeros 60 (shortest .single mantissa exponent)
      some (sign ++ PointStyle.single.write digits exponent)
  | _ => none

end Changelog.Number
