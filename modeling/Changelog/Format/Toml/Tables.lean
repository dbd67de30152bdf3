import Changelog.Format.Data

/-!
The tables of a TOML document while it is read. A value, once given, stays as it is; a table stays
open for more keys, but its header stands only once, and dotted keys add only to tables that dotted
keys have made.
-/

namespace Changelog.Toml

mutual

/-- What a key leads to. -/
inductive Node where
  /-- A value, inline tables and arrays among them. -/
  | value (d : Data)
  /-- A table. It is implicit until its own header is read, and dotted if a dotted key made it. -/
  | table (implicit dotted : Bool) (entries : Entries)
  /-- An array of tables; only the last one is open. -/
  | tables (items : Tables)

/-- The keys of a table in the order in which they were given. -/
inductive Entries where
  | nil
  | cons (key : Text) (node : Node) (rest : Entries)

/-- Tables of an array, the last one first. -/
inductive Tables where
  | nil
  | cons (last : Entries) (before : Tables)

end

mutual

def Node.toData : Node → Data
  | .value d => d
  | .table _ _ entries => .table entries.toFields
  | .tables items => .list items.toList.reverse

def Entries.toFields : Entries → List (Text × Data)
  | .nil => []
  | .cons key node rest => (key, node.toData) :: rest.toFields

def Tables.toList : Tables → List Data
  | .nil => []
  | .cons last before => .table last.toFields :: before.toList

end

namespace Entries

/-- Changes what a key leads to; a new key goes to the end. -/
def alter (key : Text) (change : Option Node → Option Node) : Entries → Option Entries
  | nil => (change none).map fun node => cons key node nil
  | cons other node rest =>
    if other = key then (change (some node)).map fun node => cons other node rest
    else (alter key change rest).map (cons other node)

/-- Changes the entries of the table at the end of a path, making implicit tables on the way. The
change is told whether a dotted key has made the table. Dotted keys do not pass through tables that
have a header of their own. -/
def within (dotted : Bool) (change : Bool → Entries → Option Entries) :
    List Text → Bool → Entries → Option Entries
  | [], isDotted, entries => change isDotted entries
  | key :: path, _, entries =>
    entries.alter key fun node =>
      match node with
      | none => (within dotted change path dotted nil).map (Node.table true dotted)
      | some (.value _) => none
      | some (.tables .nil) => none
      | some (.tables (.cons last before)) =>
        (within dotted change path false last).map fun last => .tables (.cons last before)
      | some (.table implicit isDotted entries) =>
        if dotted && !implicit then none
        else (within dotted change path isDotted entries).map (Node.table implicit isDotted)

/-- The last part of a path, and the parts before it. -/
def splitLast? (path : List Text) : Option (List Text × Text) :=
  path.getLast?.map fun last => (path.dropLast, last)

/-- Gives a value to a new key. A single key does not add to a table that dotted keys have made. -/
def define (path : List Text) (d : Data) (isDotted : Bool) (entries : Entries) :
    Option Entries := do
  let (path, key) ← splitLast? path
  entries.within true (fun isDotted entries =>
    if isDotted = path.isEmpty then none
    else
      entries.alter key fun node =>
        match node with
        | none => some (.value d)
        | some _ => none) path isDotted

/-- Opens the table of a header. -/
def openTable (path : List Text) (entries : Entries) : Option Entries := do
  let (path, key) ← splitLast? path
  entries.within false (fun _ entries =>
    entries.alter key fun node =>
      match node with
      | none => some (.table false false nil)
      | some (.table true false entries) => some (.table false false entries)
      | some _ => none) path false

/-- Opens a new table at the end of an array of tables. -/
def openItem (path : List Text) (entries : Entries) : Option Entries := do
  let (path, key) ← splitLast? path
  entries.within false (fun _ entries =>
    entries.alter key fun node =>
      match node with
      | none => some (.tables (.cons nil .nil))
      | some (.tables items) => some (.tables (.cons nil items))
      | some _ => none) path false

end Entries

end Changelog.Toml
