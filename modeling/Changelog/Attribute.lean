import Changelog.Markup.Tag
import Changelog.NameMap
import Changelog.Notice
import Changelog.Number.Integer
import Changelog.Text.Blank
import Changelog.Text.Quoted
import Changelog.Text.Upper

/-!
Attributes `NAME=value` in the bracket of an image or animation tag. Every token is read on its
own: one that cannot be used gives a notice and leaves the others alone.
-/

namespace Changelog

/-- The form of an attribute's value. -/
inductive AttributeType where
  | int
  | dimensions
deriving DecidableEq, Repr

/-- An integer, or a pair of them. -/
inductive AttributeValue where
  | int (n : Int)
  | dimensions (x y : Int)
deriving DecidableEq, Repr

/-- A name in capital letters and the form of its value. -/
structure AttributeSpec where
  name : Text
  type : AttributeType
deriving DecidableEq, Repr

/-- Why a token of the bracket cannot be used. -/
inductive AttributeError where
  | missingSeparator (token : Text)
  | invalidValue (name value : Text) (expected : AttributeType)
  | unrecognized (name : Text) (tag : TagKind)
deriving DecidableEq, Repr

def AttributeType.description : AttributeType → String
  | int => "integer"
  | dimensions => "dimension pair"

def AttributeError.message : AttributeError → String
  | missingSeparator token =>
    "attribute token " ++ String.ofList (Text.quoted token) ++ " is missing '='"
  | invalidValue name value expected =>
    "attribute " ++ String.ofList name ++ " has value " ++ String.ofList (Text.quoted value) ++
      " which is not a valid " ++ expected.description
  | unrecognized name tag =>
    "attribute " ++ String.ofList name ++ " is not valid for " ++ String.ofList tag.name ++
      " segments"

namespace Attribute

def widthName : Text := ['W', 'I', 'D', 'T', 'H']
def heightName : Text := ['H', 'E', 'I', 'G', 'H', 'T']
/-- The grid of a sprite sheet, columns and rows. -/
def sizeName : Text := ['S', 'I', 'Z', 'E']
def fpsName : Text := ['F', 'P', 'S']
/-- Ticks that hold the first picture at the start of every cycle. -/
def delayName : Text := ['D', 'E', 'L', 'A', 'Y']

/-- What is offered the names that are not recognised, in capital letters and with the value; `none`
declines. -/
abbrev Hook := Text → Text → Option (Except AttributeError AttributeValue)

/-- Reads a pair in parentheses or without, its numbers divided by a comma or, if there is none, by
the letter x. -/
def readPair? (value : Text) : Option (Int × Int) := do
  let inner := (Text.trim value).dropWhile (· == '(')
  let inner := (inner.reverse.dropWhile (· == ')')).reverse
  let (x, y) ← (Text.splitOnce? (· == ',') inner).or
    (Text.splitOnce? (fun c => c == 'x' || c == 'X') inner)
  return (← Number.readInt32? (Text.trim x), ← Number.readInt32? (Text.trim y))

/-- Reads a value of the given form. -/
def convert (name value : Text) : AttributeType → Except AttributeError AttributeValue
  | .int =>
    match Number.readInt32? (Text.trim value) with
    | some n => .ok (.int n)
    | none => .error (.invalidValue name value .int)
  | .dimensions =>
    match readPair? value with
    | some (x, y) => .ok (.dimensions x y)
    | none => .error (.invalidValue name value .dimensions)

/-- Drops the quotes, single and double, at either end. -/
def unquote (text : Text) : Text :=
  Text.trimBy (fun c => c == '"' || c == '\'') text

/-- The key of a notice about an attribute of a tag. -/
def noticeKey (tag : TagKind) (subject : Text) : Text :=
  ['a', 't', 't', 'r', 'i', 'b', 'u', 't', 'e', ':'] ++ tag.name ++ ':' :: subject

/-- How the attributes of a tag are read. -/
structure Grammar where
  recognized : List AttributeSpec
  hook : Hook := fun _ _ => none
  tag : TagKind

/-- The value of an attribute by its name in capital letters; `none` if neither the recognised
names nor the hook cover it. -/
def Grammar.value? (g : Grammar) (name value : Text) :
    Option (Except AttributeError AttributeValue) :=
  match g.recognized.find? fun spec => spec.name = name with
  | some spec => some (convert name value spec.type)
  | none => g.hook name value

/-- Reads one token: a name in capital letters with its value, or a notice. -/
def Grammar.readToken (g : Grammar) (token : Text) : Except Notice (Text × AttributeValue) :=
  let failed (e : AttributeError) : Notice := ⟨.error, noticeKey g.tag token, e.message⟩
  match Text.splitOnce? (· == '=') token with
  | none => .error (failed (.missingSeparator token))
  | some (rawName, rawValue) =>
    let name := Text.upper (unquote rawName)
    match g.value? name (unquote rawValue) with
    | some (.ok value) => .ok (name, value)
    | some (.error e) => .error (failed e)
    | none =>
      .error ⟨.warning, noticeKey g.tag name, (AttributeError.unrecognized rawName g.tag).message⟩

/-- The tokens of a bracket: the words before the first `>`. -/
def tokens (bracket : Text) : List Text :=
  Text.words (bracket.takeWhile (· != '>'))

end Attribute

/-- Values by their names in capital letters. -/
structure Attributes where
  values : NameMap AttributeValue := {}
deriving DecidableEq, Repr

namespace Attributes

/-- The value of an attribute; the name may be given in any case. -/
def get? (a : Attributes) (name : Text) : Option AttributeValue :=
  a.values.get? (Text.upper name)

/-- Sets the value of a name in capital letters. -/
def insert (a : Attributes) (name : Text) (value : AttributeValue) : Attributes :=
  ⟨a.values.insert name value⟩

/-- The value of an attribute that is an integer, or else the fallback. -/
def intOr (a : Attributes) (name : Text) (fallback : Int) : Int :=
  match a.get? name with
  | some (.int n) => n
  | _ => fallback

/-- The value of an attribute that is a pair. -/
def dimensions? (a : Attributes) (name : Text) : Option (Int × Int) :=
  match a.get? name with
  | some (.dimensions x y) => some (x, y)
  | _ => none

def contains (a : Attributes) (name : Text) : Bool :=
  (a.get? name).isSome

def size (a : Attributes) : Nat :=
  a.values.size

end Attributes

namespace Attribute

/-- Puts together the tokens that were read: the last value of a name stays. -/
def collect (read : List (Except Notice (Text × AttributeValue))) : Attributes :=
  read.foldl (fun found token =>
    match token with
    | .ok (name, value) => found.insert name value
    | .error _ => found) {}

/-- The notices among what was read. -/
def noticesOf (read : List (Except Notice (Text × AttributeValue))) : List Notice :=
  read.filterMap fun token =>
    match token with
    | .ok _ => none
    | .error notice => some notice

/-- Reads the attributes of a bracket. -/
def Grammar.parse (g : Grammar) (bracket : Text) : Noted Attributes :=
  let read := (tokens bracket).map g.readToken
  { value := collect read, notices := noticesOf read }

end Attribute

end Changelog
