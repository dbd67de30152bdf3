import Changelog.Number.Binary
import Changelog.Text.Basic

/-!
Decimal numerals: their exact value, the number of a binary format nearest to it, and the exact
decimal expansion of a binary number.
-/

namespace Changelog.Number

/-- The number `± digits * 10 ^ exponent`. -/
structure Decimal where
  negative : Bool
  digits : Nat
  exponent : Int
deriving DecidableEq, Repr

namespace Decimal

/-- Bits of the nearest number of the format. An exponent far outside the range of the format is
decided by the number of digits, without forming the power of ten. -/
def toBits (f : Format) (d : Decimal) : Nat :=
  let size : Int := (Nat.toDigits 10 d.digits).length + d.exponent
  if d.digits = 0 ∨ size < -400 then f.nearest d.negative 0 1
  else if 400 < size then f.nearest d.negative (Nat.pow 10 400) 1
  else
    f.nearest d.negative (d.digits * Nat.pow 10 d.exponent.toNat)
      (Nat.pow 10 (-d.exponent).toNat)

/-- The double-precision number nearest to the decimal. -/
def toDouble (d : Decimal) : Float :=
  Float.ofBits (d.toBits .double).toUInt64

/-- The single-precision number nearest to the decimal. -/
def toSingle (d : Decimal) : Float32 :=
  Float32.ofBits (d.toBits .single).toUInt32

end Decimal

/-- The number that a row of decimal digits writes. -/
def ofDigits (digits : Text) : Nat :=
  digits.foldl (fun n c => 10 * n + (c.toNat - '0'.toNat)) 0

/-- A numeral: digits with an optional point among, before or after them, at least one digit in
all, then an optional exponent of an `e`, an optional sign and at least one digit. -/
def readUnsigned? (text : Text) : Option (Nat × Int) :=
  let whole := text.takeWhile Char.isDigit
  let rest := text.dropWhile Char.isDigit
  let (fraction, rest) :=
    match rest with
    | '.' :: rest => (rest.takeWhile Char.isDigit, rest.dropWhile Char.isDigit)
    | rest => ([], rest)
  if whole = [] ∧ fraction = [] then none
  else
    let digits := ofDigits (whole ++ fraction)
    let shift : Int := -(fraction.length : Int)
    match rest with
    | [] => some (digits, shift)
    | e :: rest =>
      if e = 'e' ∨ e = 'E' then
        let (negative, exponent) :=
          match rest with
          | '-' :: rest => (true, rest)
          | '+' :: rest => (false, rest)
          | rest => (false, rest)
        if exponent ≠ [] ∧ exponent.all Char.isDigit then
          let n : Int := ofDigits exponent
          some (digits, shift + if negative then -n else n)
        else none
      else none

/-- What the text of a number stands for. -/
inductive Numeral where
  | nan
  | infinite (negative : Bool)
  | decimal (value : Decimal)
deriving DecidableEq, Repr

/-- Reads an optional sign before a numeral or, in any case of the letters, one of the words
`inf`, `infinity` and `nan`. -/
def Numeral.read? (text : Text) : Option Numeral :=
  let (negative, body) :=
    match text with
    | '-' :: rest => (true, rest)
    | '+' :: rest => (false, rest)
    | rest => (false, rest)
  match readUnsigned? body with
  | some (digits, exponent) => some (.decimal ⟨negative, digits, exponent⟩)
  | none =>
    if Text.sameLetters body ['i', 'n', 'f'] ∨
        Text.sameLetters body ['i', 'n', 'f', 'i', 'n', 'i', 't', 'y'] then
      some (.infinite negative)
    else if Text.sameLetters body ['n', 'a', 'n'] then some .nan
    else none

/-- The single-precision number nearest to what is read. -/
def Numeral.toSingle : Numeral → Float32
  | nan => 0.0 / 0.0
  | infinite negative => if negative then -1.0 / 0.0 else 1.0 / 0.0
  | decimal value => value.toSingle

/-- The digits of `a / 10 ^ places`, without zeros at the end of the fraction. -/
def fixedText (a places : Nat) : String :=
  let unit := Nat.pow 10 places
  let whole := toString (a / unit)
  let fraction := (Nat.toDigits 10 (unit + a % unit)).drop 1
  let shown := (fraction.reverse.dropWhile (· == '0')).reverse
  if shown = [] then whole else whole ++ "." ++ String.ofList shown

/-- The exact decimal expansion of the number, without exponent. -/
def Binary.expansion : Binary → String
  | nan => "nan"
  | infinite negative => if negative then "-inf" else "inf"
  | finite negative mantissa exponent =>
    let places := (-exponent).toNat
    (if negative then "-" else "") ++
      fixedText (mantissa * Nat.pow 2 exponent.toNat * Nat.pow 5 places) places

end Changelog.Number
