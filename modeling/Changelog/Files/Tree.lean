import Changelog.Files.Content
import Changelog.Files.Path
import Changelog.Image.Texture

/-!
Files in directories. A path is followed from the root of a tree: a step down needs a directory that
holds the name, a step up leads to the directory around it, and the root is its own surroundings.
-/

namespace Changelog

mutual

/-- A file, with the size of the image it holds, if it holds one, or a directory. -/
inductive FileTree where
  | file (bytes : ByteArray) (image : Option PixelSize)
  | directory (entries : Listing)

/-- The entries of a directory by name. -/
inductive Listing where
  | nil
  | cons (name : Text) (tree : FileTree) (rest : Listing)

end

namespace Listing

/-- The first entry of a name. -/
def find? (name : Text) : Listing → Option FileTree
  | nil => none
  | cons n tree rest => if n = name then some tree else find? name rest

/-- Puts an entry in the place of the one of its name, or at the end. -/
def put (name : Text) (tree : FileTree) : Listing → Listing
  | nil => cons name tree nil
  | cons n t rest => if n = name then cons n tree rest else cons n t (put name tree rest)

@[simp]
theorem find?_put (name other : Text) (tree : FileTree) (l : Listing) :
    (l.put name tree).find? other = if other = name then some tree else l.find? other := by
  match l with
  | nil => simp [put, find?, eq_comm]
  | cons n t rest =>
    have ih := find?_put name other tree rest
    by_cases h : n = name
    · subst h
      by_cases ho : other = n
      · simp [put, find?, ho]
      · simp [put, find?, ho, Ne.symm ho]
    · by_cases ho : n = other
      · subst ho
        simp [put, find?, h]
      · simp [put, find?, h, ho, ih]

/-- Puts a tree at the end of a path of names. Directories that are missing on the way are made, a
file on the way makes room for one, and a directory that is there already is kept. -/
def insert (tree : FileTree) : List Text → Listing → Listing
  | [], l => l
  | [name], l =>
    match tree, l.find? name with
    | .directory _, some (.directory _) => l
    | _, _ => l.put name tree
  | name :: rest, l =>
    match l.find? name with
    | some (.directory inner) => l.put name (.directory (inner.insert tree rest))
    | _ => l.put name (.directory (insert tree rest nil))

end Listing

namespace FileTree

/-- Follows steps from a tree. The trees `around` it lead back to the root, the nearest one first. -/
def follow? (around : List FileTree) : FileTree → List PathStep → Option FileTree
  | tree, [] => some tree
  | .file .., _ :: _ => none
  | tree, .up :: rest =>
    match around with
    | [] => tree.follow? [] rest
    | outer :: more => outer.follow? more rest
  | .directory entries, .name name :: rest =>
    (entries.find? name).bind fun inner => inner.follow? (.directory entries :: around) rest

/-- What a path leads to from the root. Nothing is known of the directory where a path that does not
begin at the root would begin. -/
def find? (root : FileTree) (text : Text) : Option FileTree :=
  let path := Path.ofText text
  if path.absolute ∧ Path.isUsable 0 text then
    match root.follow? [] path.steps with
    | some (.file bytes image) =>
      if Path.isDirectoryOnly text then none else some (.file bytes image)
    | found => found
  else none

/-- What can be read at a path. -/
def read (root : FileTree) (text : Text) : FileContent :=
  match root.find? text with
  | some (.file bytes _) => .bytes bytes
  | some (.directory _) => .unreadable "Is a directory"
  | none => .missing

/-- The entries of the directory at a path; where there is none, nothing is found. -/
def list (root : FileTree) (text : Text) : Listing :=
  match root.find? text with
  | some (.directory entries) => entries
  | _ => .nil

end FileTree

end Changelog
