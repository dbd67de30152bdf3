import Changelog.Format.Toml.Lexeme
import Changelog.Format.Toml.Tables

/-!
Reading TOML documents: values, lines, and the tables that they make up.
-/

namespace Changelog.Toml

mutual

/-- A value of any form. As many more arrays and inline tables may be opened as `room` says. -/
def value? : (fuel room : Nat) → Text → Option (Data × Text)
  | 0, _, _ => none
  | fuel + 1, room, t =>
    match t with
    | '[' :: rest =>
      match room with
      | 0 => none
      | room + 1 => (items? fuel room rest).map fun (items, rest) => (.list items, rest)
    | '\x7b' :: rest =>
      match room with
      | 0 => none
      | room + 1 =>
        match skipSpace rest with
        | '\x7d' :: rest => some (.table [], rest)
        | rest =>
          (fields? fuel room .nil rest).map fun (entries, rest) => (.table entries.toFields, rest)
    | '"' :: _ | '\'' :: _ => (string? t).map fun (s, rest) => (.text s, rest)
    | _ => word t

/-- The items of an array, up to its closing bracket. A comma may stand behind the last one. -/
def items? : (fuel room : Nat) → Text → Option (List Data × Text)
  | 0, _, _ => none
  | fuel + 1, room, t =>
    match skipBlank t with
    | ']' :: rest => some ([], rest)
    | t => do
      let (item, rest) ← value? fuel room t
      match skipBlank rest with
      | ',' :: rest =>
        let (items, rest) ← items? fuel room rest
        return (item :: items, rest)
      | ']' :: rest => return ([item], rest)
      | _ => none

/-- The fields of an inline table, up to its closing bracket, added to the fields before. -/
def fields? : (fuel room : Nat) → Entries → Text → Option (Entries × Text)
  | 0, _, _, _ => none
  | fuel + 1, room, entries, t => do
    let (path, rest) ← key? t
    match rest with
    | '=' :: rest =>
      let (d, rest) ← value? fuel room (skipSpace rest)
      let entries ← entries.define path d false
      match skipSpace rest with
      | ',' :: rest => fields? fuel room entries rest
      | '\x7d' :: rest => return (entries, rest)
      | _ => none
    | _ => none

end

/-- The tables read so far, and the path of the one that keys are added to. -/
structure Reading where
  root : Entries := .nil
  path : List Text := []

/-- Reads one line that is not blank: a header, or a key with its value. -/
def line? (s : Reading) (t : Text) : Option (Reading × Text) :=
  match t with
  | '[' :: '[' :: rest => do
    let (path, rest) ← key? rest
    match rest with
    | ']' :: ']' :: rest => return (⟨← s.root.openItem path, path⟩, ← endLine? rest)
    | _ => none
  | '[' :: rest => do
    let (path, rest) ← key? rest
    match rest with
    | ']' :: rest => return (⟨← s.root.openTable path, path⟩, ← endLine? rest)
    | _ => none
  | _ => do
    let (path, rest) ← key? t
    match rest with
    | '=' :: rest =>
      let rest := skipSpace rest
      let (d, rest) ← value? (rest.length + 1) maxDepth rest
      let root ← s.root.within false (fun isDotted => Entries.define path d isDotted) s.path false
      return (⟨root, s.path⟩, ← endLine? rest)
    | _ => none

/-- Reads lines up to the end of the text. -/
def lines? : (fuel : Nat) → Reading → Text → Option Reading
  | 0, _, _ => none
  | fuel + 1, s, t =>
    match skipBlank t with
    | [] => some s
    | '#' :: rest => if rest.all isTextChar then some s else none
    | t => do
      let (s, rest) ← line? s t
      lines? fuel s rest

/-- The table that a document stands for. A mark of the byte order at the front is passed over. -/
def read? (t : Text) : Option Data :=
  let t := (Text.after? ['\uFEFF'] t).getD t
  (lines? (t.length + 1) {} t).map fun s => .table s.root.toFields

end Changelog.Toml
