import Changelog.Log.Target

/-!
Creating directories. A place in the tree of directories is given by the names that lead to it,
and by the number of directories that it lies above the one where paths begin. Directories that are
made before a failure stay.
-/

namespace Changelog

/-- A place: up `above` directories, then down along the names, of which the innermost comes
first. -/
structure Place where
  above : Nat := 0
  /-- The number of names, by which most places differ. -/
  depth : Nat := 0
  names : List Text := []
  depth_eq : depth = names.length := by rfl
deriving DecidableEq, Repr

namespace Place

/-- The directory above a place. -/
def parent (p : Place) : Place :=
  match p.names with
  | [] => { above := p.above + 1 }
  | _ :: outer => { above := p.above, depth := outer.length, names := outer }

/-- The place that a name leads to. -/
def child (p : Place) (name : Text) : Place :=
  { above := p.above
    depth := p.depth + 1
    names := name :: p.names
    depth_eq := by rw [p.depth_eq, List.length_cons] }

end Place

/-- What is known to exist. The place where paths begin is a directory, and so is all above it. -/
structure Disk where
  directories : List Place := []
  files : List Place := []
  /-- The bytes of the path that leads to the place where paths begin, its final slash included. -/
  rootSize : Nat := 0
deriving DecidableEq, Repr

namespace Disk

def isDirectory (d : Disk) (p : Place) : Bool :=
  p.names.isEmpty || d.directories.contains p

/-- Whether a name can be given to a file or directory. -/
def isUsableName (name : Text) : Bool :=
  !name.contains '\x00' && Text.byteSize name ≤ 255

/-- Whether a path can be followed at all from the place where paths begin. -/
def isUsablePath (d : Disk) (text : Text) : Bool :=
  Path.isUsable d.rootSize text

/-- Follows the steps of a path from a place, and creates the directories that are missing on the
way. It fails where a step would lead through a file, or to a name that cannot be given. -/
def createAlong (d : Disk) (p : Place) : List PathStep → Disk × Except String Unit
  | [] => (d, .ok ())
  | .up :: rest => createAlong d p.parent rest
  | .name name :: rest =>
    let p := p.child name
    if d.isDirectory p then createAlong d p rest
    else if d.files.contains p then (d, .error "Not a directory")
    else if isUsableName name then createAlong { d with directories := p :: d.directories } p rest
    else (d, .error "File name too long")

/-- The place that a path leads to, if all steps lead through directories. -/
def locate? (d : Disk) (p : Place) : List PathStep → Option Place
  | [] => some p
  | .up :: rest => locate? d p.parent rest
  | .name name :: rest =>
    let p := p.child name
    if d.isDirectory p then locate? d p rest else none

/-- Creates the directory of a path and all above it. The directories of an absolute path are not
known; they are taken to be there. -/
def create (d : Disk) (path : Path) : Disk × Except String Unit :=
  if path.absolute then (d, .ok ()) else createAlong d {} path.steps

/-- Whether a directory stands at the path. -/
def hasDirectory (d : Disk) (text : Text) : Bool :=
  let path := Path.ofText text
  d.isUsablePath text && (path.absolute || (d.locate? {} path.steps).isSome)

/-- Adds a file, with all directories on its way. -/
def addFile (d : Disk) (path : Path) : Disk :=
  match path.steps.getLast? with
  | some (.name name) =>
    let way := path.steps.dropLast
    let (d, _) := d.create { path with steps := way }
    match d.locate? {} way with
    | some p => { d with files := p.child name :: d.files }
    | none => d
  | _ => d

/-- Whether the file of a log can be written to in its directory. -/
def canOpen (d : Disk) (target : LogTarget) : Bool :=
  let steps := target.directory.steps ++ [PathStep.name target.file]
  isUsableName target.file && d.isUsablePath (target.written ++ '/' :: target.file) &&
    (target.directory.absolute || (d.locate? {} steps).isNone)

/-- Prepares the directory of a log, and the log in it. -/
def prepareLog (d : Disk) (text : Text) : Disk × Except LogError LogTarget :=
  match LogTarget.ofPath text with
  | .error e => (d, .error e)
  | .ok target =>
    if d.isUsablePath target.written then
      match d.create target.directory with
      | (d, .ok ()) => (d, if d.canOpen target then .ok target else .error (.unopened text))
      | (d, .error reason) => (d, .error (.directoryCreation target.written reason))
    else (d, .error (.directoryCreation target.written "Invalid path"))

end Disk

end Changelog
