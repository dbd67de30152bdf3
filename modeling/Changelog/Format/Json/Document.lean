import Changelog.Format.Data
import Changelog.Format.Json
import Changelog.Number.Hexadecimal

/-!
Reading JSON documents. A number written without point and exponent is an integer if 64 bits hold
it; every other number, negative zero among them, is a binary fraction of double precision.
-/

namespace Changelog.Json

def isSpace (c : Char) : Bool := c == ' ' || c == '\t' || c == '\n' || c == '\r'

def skipSpace (t : Text) : Text := t.dropWhile isSpace

/-- The character that a letter after a backslash stands for. -/
def escaped? : Char → Option Char
  | '"' => some '"'
  | '\\' => some '\\'
  | '/' => some '/'
  | 'b' => some '\x08'
  | 'f' => some '\x0c'
  | 'n' => some '\n'
  | 'r' => some '\r'
  | 't' => some '\t'
  | _ => none

/-- The unit that four hexadecimal digits name, and the rest of the text. -/
def unit? : Text → Option (Nat × Text)
  | a :: b :: c :: d :: rest => (Number.readHex? [a, b, c, d]).map (·, rest)
  | _ => none

/-- The character of a high and a low surrogate. -/
def joinSurrogates? (high low : Nat) : Option Char :=
  if 0xD800 ≤ high ∧ high < 0xDC00 ∧ 0xDC00 ≤ low ∧ low < 0xE000 then
    some (Char.ofNat (0x10000 + (high - 0xD800) * 0x400 + (low - 0xDC00)))
  else none

/-- The character that follows a backslash and a `u`: one unit, or two that are surrogates. -/
def unicode? (t : Text) : Option (Char × Text) := do
  let (first, rest) ← unit? t
  if first.isValidChar then return (Char.ofNat first, rest)
  else
    match rest with
    | '\\' :: 'u' :: rest =>
      let (second, rest) ← unit? rest
      return (← joinSurrogates? first second, rest)
    | _ => none

/-- The rest of a string behind its opening quote; `done` holds the characters before in reverse. -/
def stringRest? : (fuel : Nat) → (done : Text) → Text → Option (Text × Text)
  | 0, _, _ => none
  | fuel + 1, done, t =>
    match t with
    | '"' :: rest => some (done.reverse, rest)
    | '\\' :: 'u' :: rest =>
      match unicode? rest with
      | some (c, rest) => stringRest? fuel (c :: done) rest
      | none => none
    | '\\' :: letter :: rest =>
      match escaped? letter with
      | some c => stringRest? fuel (c :: done) rest
      | none => none
    | c :: rest => if 0x20 ≤ c.toNat then stringRest? fuel (c :: done) rest else none
    | [] => none

/-- A character of a number. -/
def isNumberChar (c : Char) : Bool :=
  c.isDigit || c == '-' || c == '+' || c == '.' || c == 'e' || c == 'E'

/-- Whether an unsigned number is well written: no zero stands before other digits, and digits stand
on both sides of a point. -/
def isPlain (t : Text) : Bool :=
  let whole := t.takeWhile Char.isDigit
  let isWhole := whole == ['0'] || (whole.head?.any fun c => c != '0')
  match t.dropWhile Char.isDigit with
  | '.' :: rest => isWhole && rest.head?.any Char.isDigit
  | _ => isWhole

/-- A number with its sign. -/
def number? (t : Text) : Option Data := do
  let (negative, body) :=
    match t with
    | '-' :: body => (true, body)
    | body => (false, body)
  if isPlain body then
    let (digits, exponent) ← Number.readUnsigned? body
    let n : Int := if negative then -digits else digits
    let isInteger := body.all Char.isDigit && !(negative && digits == 0) &&
      -0x8000000000000000 ≤ n && n < 0x10000000000000000
    if isInteger then return .integer n
    else return .float (Number.Decimal.toDouble ⟨negative, digits, exponent⟩)
  else none

mutual

/-- A value of any form. Fuel beyond the length of the text is enough. -/
def value? : (fuel : Nat) → Text → Option (Data × Text)
  | 0, _ => none
  | fuel + 1, t =>
    match t with
    | '"' :: rest => (stringRest? fuel [] rest).map fun (s, rest) => (.text s, rest)
    | '[' :: rest =>
      match skipSpace rest with
      | ']' :: rest => some (.list [], rest)
      | rest => items? fuel [] rest
    | '\x7b' :: rest =>
      match skipSpace rest with
      | '\x7d' :: rest => some (.table [], rest)
      | rest => fields? fuel [] rest
    | 'n' :: 'u' :: 'l' :: 'l' :: rest => some (.null, rest)
    | 't' :: 'r' :: 'u' :: 'e' :: rest => some (.bool true, rest)
    | 'f' :: 'a' :: 'l' :: 's' :: 'e' :: rest => some (.bool false, rest)
    | t => (number? (t.takeWhile isNumberChar)).map (·, t.dropWhile isNumberChar)

/-- The items of a list up to its closing bracket; `done` holds the items before in reverse. -/
def items? : (fuel : Nat) → (done : List Data) → Text → Option (Data × Text)
  | 0, _, _ => none
  | fuel + 1, done, t =>
    match value? fuel (skipSpace t) with
    | none => none
    | some (item, rest) =>
      match skipSpace rest with
      | ',' :: rest => items? fuel (item :: done) rest
      | ']' :: rest => some (.list (item :: done).reverse, rest)
      | _ => none

/-- The fields of an object up to its closing bracket; `done` holds the fields before in reverse. Of
two fields with one key the later one counts. -/
def fields? : (fuel : Nat) → (done : List (Text × Data)) → Text → Option (Data × Text)
  | 0, _, _ => none
  | fuel + 1, done, t =>
    match skipSpace t with
    | '"' :: rest =>
      match stringRest? fuel [] rest with
      | none => none
      | some (key, rest) =>
        match skipSpace rest with
        | ':' :: rest =>
          match value? fuel (skipSpace rest) with
          | none => none
          | some (d, rest) =>
            let done := (key, d) :: done.filter fun field => field.1 != key
            match skipSpace rest with
            | ',' :: rest => fields? fuel done rest
            | '\x7d' :: rest => some (.table done.reverse, rest)
            | _ => none
        | _ => none
    | _ => none

end

/-- The value of a document, with nothing but space around it. -/
def read? (t : Text) : Option Data :=
  match value? (t.length + 1) (skipSpace t) with
  | some (d, rest) => if skipSpace rest = [] then some d else none
  | none => none

end Changelog.Json
