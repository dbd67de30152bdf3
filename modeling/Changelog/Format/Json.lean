import Changelog.Number.Shortest
import Changelog.Text.Basic

/-!
JSON documents and their two spellings: compact, and with every item on a line of its own.
-/

namespace Changelog

/-- A JSON document. A number is given by its text. -/
inductive Json where
  | null
  | bool (b : Bool)
  | number (text : String)
  | string (t : Text)
  | list (items : List Json)
  | object (fields : List (String × Json))

namespace Json

def ofNat (n : Nat) : Json := number (toString n)

def ofInt (n : Int) : Json := number (toString n)

/-- The shortest number that reads back as the same value; there is none for values that are not
finite. -/
def ofSingle (x : Float32) : Json :=
  match Number.singleText? x with
  | some text => number text
  | none => null

def ofString (s : String) : Json := string s.toList

/-- A character inside quotes: quotes, backslashes and control characters are escaped. -/
def quotedChar (c : Char) : List Char :=
  if c = '"' then ['\\', '"']
  else if c = '\\' then ['\\', '\\']
  else if c = '\x08' then ['\\', 'b']
  else if c = '\x0c' then ['\\', 'f']
  else if c = '\n' then ['\\', 'n']
  else if c = '\r' then ['\\', 'r']
  else if c = '\t' then ['\\', 't']
  else if c.toNat < 0x20 then
    ['\\', 'u', '0', '0', Nat.digitChar (c.toNat / 16), Nat.digitChar (c.toNat % 16)]
  else [c]

def quoted (t : Text) : String :=
  String.ofList ('"' :: t.flatMap quotedChar ++ ['"'])

mutual

/-- The document without any space. -/
def compact : Json → String
  | null => "null"
  | bool b => if b then "true" else "false"
  | number text => text
  | string t => quoted t
  | list items => "[" ++ ",".intercalate (compactItems items) ++ "]"
  | object fields => "\x7b" ++ ",".intercalate (compactFields fields) ++ "\x7d"

def compactItems : List Json → List String
  | [] => []
  | item :: rest => compact item :: compactItems rest

def compactFields : List (String × Json) → List String
  | [] => []
  | (name, value) :: rest => (quoted name.toList ++ ":" ++ compact value) :: compactFields rest

end

/-- A new line, indented by two spaces for each level. -/
def lineBreak (level : Nat) : String :=
  "\n" ++ String.ofList (List.replicate (2 * level) ' ')

/-- Items between brackets, each on its own line; without items the brackets stand together. -/
def block (opener closer : String) (level : Nat) (items : List String) : String :=
  if items.isEmpty then opener ++ closer
  else
    opener ++ lineBreak (level + 1) ++ ("," ++ lineBreak (level + 1)).intercalate items ++
      lineBreak level ++ closer

mutual

/-- The document with every item on its own line, `level` levels deep. -/
def prettyAt (level : Nat) : Json → String
  | null => "null"
  | bool b => if b then "true" else "false"
  | number text => text
  | string t => quoted t
  | list items => block "[" "]" level (prettyItems (level + 1) items)
  | object fields => block "\x7b" "\x7d" level (prettyFields (level + 1) fields)

def prettyItems (level : Nat) : List Json → List String
  | [] => []
  | item :: rest => prettyAt level item :: prettyItems level rest

def prettyFields (level : Nat) : List (String × Json) → List String
  | [] => []
  | (name, value) :: rest =>
    (quoted name.toList ++ ": " ++ prettyAt level value) :: prettyFields level rest

end

def pretty (j : Json) : String :=
  j.prettyAt 0

end Json

end Changelog
