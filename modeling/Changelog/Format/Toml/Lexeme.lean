import Changelog.Format.Data
import Changelog.Number.Hexadecimal
import Changelog.Number.Integer

/-!
The smallest parts of a TOML document: space, comments, strings, keys, numbers and dates. A reader
takes a text and gives what it has read together with the rest of the text.
-/

namespace Changelog.Toml

def isSpace (c : Char) : Bool := c == ' ' || c == '\t'

def skipSpace (t : Text) : Text := t.dropWhile isSpace

/-- Characters that comments and strings may hold: all but the control characters other than the
tab. -/
def isTextChar (c : Char) : Bool :=
  c == '\t' || (0x20 ≤ c.toNat && c.toNat != 0x7F)

/-- What follows a newline at the front of the text. -/
def afterNewline? : Text → Option Text
  | '\n' :: rest => some rest
  | '\r' :: '\n' :: rest => some rest
  | _ => none

/-- Skips a comment up to the end of its line. -/
def skipComment : Text → Text
  | '#' :: rest => rest.dropWhile isTextChar
  | t => t

/-- Ends a line: after space and a comment a newline follows, or the end of the text. -/
def endLine? (t : Text) : Option Text :=
  match skipComment (skipSpace t) with
  | [] => some []
  | t => afterNewline? t

/-- Skips lines that hold nothing but space and comments, and the space before the next item. -/
def skipLines : (fuel : Nat) → Text → Text
  | 0, t => t
  | fuel + 1, t =>
    let t := skipSpace t
    match afterNewline? (skipComment t) with
    | some rest => skipLines fuel rest
    | none => t

/-- Skips space, comments and newlines. -/
def skipBlank (t : Text) : Text := skipLines t.length t

/-- The character of a hexadecimal code. -/
def unicode? (digits : Text) : Option Char :=
  (Number.readHex? digits).bind fun n => if n.isValidChar then some (Char.ofNat n) else none

/-- The character that a letter after a backslash stands for. -/
def escaped? : Char → Option Char
  | 'b' => some '\x08'
  | 't' => some '\t'
  | 'n' => some '\n'
  | 'f' => some '\x0c'
  | 'r' => some '\r'
  | '"' => some '"'
  | '\\' => some '\\'
  | _ => none

/-- A character before what has been read. -/
def prepend (c : Char) (read : Text × Text) : Text × Text := (c :: read.1, read.2)

/-- The rest of a basic string on one line, behind its opening quote. -/
def basicRest? : Text → Option (Text × Text)
  | '"' :: rest => some ([], rest)
  | '\\' :: 'u' :: a :: b :: c :: d :: rest => do
    return prepend (← unicode? [a, b, c, d]) (← basicRest? rest)
  | '\\' :: 'U' :: a :: b :: c :: d :: e :: f :: g :: h :: rest => do
    return prepend (← unicode? [a, b, c, d, e, f, g, h]) (← basicRest? rest)
  | '\\' :: c :: rest => do
    return prepend (← escaped? c) (← basicRest? rest)
  | c :: rest => if isTextChar c then (basicRest? rest).map (prepend c) else none
  | [] => none

/-- The rest of a literal string on one line, behind its opening quote. -/
def literalRest? : Text → Option (Text × Text)
  | '\'' :: rest => some ([], rest)
  | c :: rest => if isTextChar c then (literalRest? rest).map (prepend c) else none
  | [] => none

/-- The rest of a basic string on several lines. Up to two quotes may stand directly before the
three that close it. While `trimming`, space and newlines after a backslash at the end of a line are
passed over. -/
def basicLines? (trimming : Bool) : Text → Option (Text × Text)
  | '"' :: '"' :: '"' :: '"' :: '"' :: rest => some (['"', '"'], rest)
  | '"' :: '"' :: '"' :: '"' :: rest => some (['"'], rest)
  | '"' :: '"' :: '"' :: rest => some ([], rest)
  | '\r' :: '\n' :: rest =>
    if trimming then basicLines? true rest else (basicLines? false rest).map (prepend '\n')
  | '\n' :: rest =>
    if trimming then basicLines? true rest else (basicLines? false rest).map (prepend '\n')
  | '\\' :: 'u' :: a :: b :: c :: d :: rest => do
    return prepend (← unicode? [a, b, c, d]) (← basicLines? false rest)
  | '\\' :: 'U' :: a :: b :: c :: d :: e :: f :: g :: h :: rest => do
    return prepend (← unicode? [a, b, c, d, e, f, g, h]) (← basicLines? false rest)
  | '\\' :: c :: rest =>
    if isSpace c || c == '\n' || c == '\r' then
      if (afterNewline? (skipSpace (c :: rest))).isSome then basicLines? true rest else none
    else do
      return prepend (← escaped? c) (← basicLines? false rest)
  | c :: rest =>
    if trimming && isSpace c then basicLines? true rest
    else if isTextChar c then (basicLines? false rest).map (prepend c)
    else none
  | [] => none

/-- The rest of a literal string on several lines. -/
def literalLines? : Text → Option (Text × Text)
  | '\'' :: '\'' :: '\'' :: '\'' :: '\'' :: rest => some (['\'', '\''], rest)
  | '\'' :: '\'' :: '\'' :: '\'' :: rest => some (['\''], rest)
  | '\'' :: '\'' :: '\'' :: rest => some ([], rest)
  | '\r' :: '\n' :: rest => (literalLines? rest).map (prepend '\n')
  | '\n' :: rest => (literalLines? rest).map (prepend '\n')
  | c :: rest => if isTextChar c then (literalLines? rest).map (prepend c) else none
  | [] => none

/-- A newline directly behind the opening quotes is no part of the string. -/
def dropFirstNewline (t : Text) : Text := (afterNewline? t).getD t

/-- A string on one line. -/
def shortString? : Text → Option (Text × Text)
  | '"' :: rest => basicRest? rest
  | '\'' :: rest => literalRest? rest
  | _ => none

/-- A string of any form. -/
def string? : Text → Option (Text × Text)
  | '"' :: '"' :: '"' :: rest => basicLines? false (dropFirstNewline rest)
  | '\'' :: '\'' :: '\'' :: rest => literalLines? (dropFirstNewline rest)
  | t => shortString? t

def isBareKeyChar (c : Char) : Bool := c.isAlphanum || c == '-' || c == '_'

/-- One part of a key, bare or quoted. -/
def simpleKey? (t : Text) : Option (Text × Text) :=
  match t with
  | '"' :: _ | '\'' :: _ => shortString? t
  | _ =>
    let name := t.takeWhile isBareKeyChar
    if name = [] then none else some (name, t.dropWhile isBareKeyChar)

/-- The parts of a key, divided by points, and the rest of the text without space before it. -/
def keyParts? : (fuel : Nat) → Text → Option (List Text × Text)
  | 0, _ => none
  | fuel + 1, t => do
    let (name, rest) ← simpleKey? (skipSpace t)
    match skipSpace rest with
    | '.' :: rest =>
      let (more, rest) ← keyParts? fuel rest
      return (name :: more, rest)
    | rest => return ([name], rest)

/-- The deepest nesting that a document may have: of arrays and inline tables in a value, and of the
parts of a key. -/
def maxDepth : Nat := 79

/-- A key of no more parts than documents may nest. -/
def key? (t : Text) : Option (List Text × Text) :=
  (keyParts? (t.length + 1) t).filter fun (path, _) => path.length ≤ maxDepth

/-- Digits with single underscores between them, without the underscores. -/
def digitGroups? (isDigit : Char → Bool) : Text → Option Text
  | [] => none
  | [c] => if isDigit c then some [c] else none
  | c :: '_' :: rest => if isDigit c then (digitGroups? isDigit rest).map (c :: ·) else none
  | c :: rest => if isDigit c then (digitGroups? isDigit rest).map (c :: ·) else none

/-- The value of digits in a base up to sixteen. -/
def based? (base : Nat) (digits : Text) : Option Nat := do
  let isDigit (c : Char) : Bool := (Number.hexDigit? c).any (· < base)
  let digits ← digitGroups? isDigit digits
  return digits.foldl (fun n c => base * n + (Number.hexDigit? c).getD 0) 0

/-- A number within a signed 64-bit word. -/
def word? (n : Int) : Option Data :=
  if -0x8000000000000000 ≤ n ∧ n < 0x8000000000000000 then some (.integer n) else none

/-- Decimal digits of a whole number: no zero stands before other digits. -/
def wholeDigits? (t : Text) : Option Text := do
  let digits ← digitGroups? Char.isDigit t
  match digits with
  | '0' :: _ :: _ => none
  | _ => return digits

/-- A number without its sign: a whole number, or one with a fraction or an exponent. A positive
one beyond all finite numbers is refused. -/
def unsigned? (negative : Bool) (t : Text) : Option Data := do
  let isWhole (c : Char) : Bool := c.isDigit || c == '_'
  let whole ← wholeDigits? (t.takeWhile isWhole)
  match t.dropWhile isWhole with
  | [] =>
    let n : Int := Number.ofDigits whole
    word? (if negative then -n else n)
  | rest =>
    let (fraction, rest) ←
      match rest with
      | '.' :: rest => do
        let fraction ← digitGroups? Char.isDigit (rest.takeWhile isWhole)
        pure (fraction, rest.dropWhile isWhole)
      | rest => pure ([], rest)
    let exponent ←
      match rest with
      | [] => pure 0
      | e :: rest =>
        if e = 'e' ∨ e = 'E' then do
          let (down, digits) :=
            match rest with
            | '-' :: digits => (true, digits)
            | '+' :: digits => (false, digits)
            | digits => (false, digits)
          let n : Int := Number.ofDigits (← digitGroups? Char.isDigit digits)
          pure (if down then -n else n)
        else none
    let value : Number.Decimal :=
      ⟨negative, Number.ofDigits (whole ++ fraction), exponent - fraction.length⟩
    if !negative && value.toDouble.isInf then none else return .float value.toDouble

/-- A number with its sign, in any base, or one of the words for infinity and for what is no
number. -/
def number? (t : Text) : Option Data :=
  let special (negative : Bool) (t : Text) : Option Data :=
    if t = ['i', 'n', 'f'] then
      some (.float (if negative then -1.0 / 0.0 else 1.0 / 0.0))
    else if t = ['n', 'a', 'n'] then some (.float (0.0 / 0.0))
    else none
  match t with
  | '0' :: 'x' :: digits => (based? 16 digits).bind fun n => word? n
  | '0' :: 'o' :: digits => (based? 8 digits).bind fun n => word? n
  | '0' :: 'b' :: digits => (based? 2 digits).bind fun n => word? n
  | '+' :: rest => (special false rest).or (unsigned? false rest)
  | '-' :: rest => (special true rest).or (unsigned? true rest)
  | rest => (special false rest).or (unsigned? false rest)

/-- The value of two digits in a range. -/
def twoDigits? (low high : Nat) (a b : Char) : Option Nat :=
  if a.isDigit ∧ b.isDigit then
    let n := Number.ofDigits [a, b]
    if low ≤ n ∧ n ≤ high then some n else none
  else none

def daysOfMonth (year month : Nat) : Nat :=
  if month = 2 then
    if year % 4 = 0 ∧ (year % 100 ≠ 0 ∨ year % 400 = 0) then 29 else 28
  else if month = 4 ∨ month = 6 ∨ month = 9 ∨ month = 11 then 30
  else 31

/-- A date at the front of the text; the rest of the text. -/
def afterDate? : Text → Option Text
  | a :: b :: c :: d :: '-' :: m :: n :: '-' :: x :: y :: rest => do
    let century ← twoDigits? 0 99 a b
    let year ← twoDigits? 0 99 c d
    let month ← twoDigits? 1 12 m n
    let _ ← twoDigits? 1 (daysOfMonth (100 * century + year) month) x y
    return rest
  | _ => none

/-- A time of day at the front of the text; the rest of the text. -/
def afterTime? : Text → Option Text
  | a :: b :: ':' :: c :: d :: ':' :: e :: f :: rest => do
    let _ ← twoDigits? 0 23 a b
    let _ ← twoDigits? 0 59 c d
    let _ ← twoDigits? 0 60 e f
    match rest with
    | '.' :: digits =>
      if digits.takeWhile Char.isDigit = [] then none else return digits.dropWhile Char.isDigit
    | rest => return rest
  | _ => none

/-- Whether the text is an offset from universal time, or empty. -/
def isOffset : Text → Bool
  | [] => true
  | ['Z'] | ['z'] => true
  | [sign, a, b, ':', c, d] =>
    (sign == '+' || sign == '-') && (twoDigits? 0 23 a b).isSome && (twoDigits? 0 59 c d).isSome
  | _ => false

/-- Whether the text is a date, a time of day, or both. -/
def isMoment (t : Text) : Bool :=
  match afterDate? t with
  | some [] => true
  | some (separator :: rest) =>
    (separator == 'T' || separator == 't' || separator == ' ') && (afterTime? rest).any isOffset
  | none => afterTime? t == some []

/-- A character of a number, a truth value or a date. -/
def isWordChar (c : Char) : Bool :=
  c.isAlphanum || c == '_' || c == '+' || c == '-' || c == '.' || c == ':'

/-- A number, a truth value or a date. A single space may stand between date and time. -/
def word (t : Text) : Option (Data × Text) :=
  let first := t.takeWhile isWordChar
  let rest := t.dropWhile isWordChar
  let (first, rest) :=
    match rest with
    | ' ' :: digit :: _ =>
      if afterDate? first = some [] ∧ digit.isDigit then
        let time := rest.drop 1
        (first ++ ' ' :: time.takeWhile isWordChar, time.dropWhile isWordChar)
      else (first, rest)
    | _ => (first, rest)
  if first = ['t', 'r', 'u', 'e'] then some (.bool true, rest)
  else if first = ['f', 'a', 'l', 's', 'e'] then some (.bool false, rest)
  else if isMoment first then some (.moment, rest)
  else (number? first).map (·, rest)

end Changelog.Toml
