import Changelog.Text.Basic

/-!
Structured data as configuration files and records bring it, and reading typed fields from it.
-/

namespace Changelog

/-- A value of a data format. -/
inductive Data where
  | null
  | bool (b : Bool)
  | integer (n : Int)
  | float (x : Float)
  | text (t : Text)
  /-- A date or a time of day. -/
  | moment
  | list (items : List Data)
  | table (fields : List (Text × Data))
deriving Inhabited

/-- The format that data was written in. The formats differ in how they give a unit and in what they
make of a list that is too long. -/
inductive DataFormat where
  | json
  | toml
deriving DecidableEq, Repr

namespace Data

/-- Whether the data is the unit of the format: null in JSON, an empty table or list in TOML. -/
def isUnit (format : DataFormat) (d : Data) : Bool :=
  match format, d with
  | .json, null => true
  | .toml, table [] | .toml, list [] => true
  | _, _ => false

def bool? : Data → Option Bool
  | bool b => some b
  | _ => none

def text? : Data → Option Text
  | text t => some t
  | _ => none

def list? : Data → Option (List Data)
  | list items => some items
  | _ => none

/-- An integer from 0 up to `bound`. -/
def nat? (bound : Nat) : Data → Option Nat
  | integer n => if 0 ≤ n ∧ n ≤ bound then some n.toNat else none
  | _ => none

/-- A list whose items can all be read. -/
def listOf? {β : Type} (read : Data → Option β) (d : Data) : Option (List β) :=
  d.list?.bind fun items => items.mapM read

/-- The values of the named fields, in their order. A table gives them by name, and its other
fields are ignored; a list gives them by position. Items beyond the last field are ignored in TOML
and refused in JSON. -/
def fields? (format : DataFormat) (names : List Text) : Data → Option (List (Option Data))
  | table fields => some (names.map fun name => fields.lookup name)
  | list items =>
    if items.length ≤ names.length ∨ format = .toml then
      let given := (items.take names.length).map some
      some (given ++ List.replicate (names.length - given.length) none)
    else none
  | _ => none

end Data

end Changelog
