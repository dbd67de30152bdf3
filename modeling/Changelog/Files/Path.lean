import Changelog.Text.Basic

/-!
Paths as they are written. A path is a list of steps through directories; slashes that follow one
another and single dots add no step. What a path leads to is not known here.
-/

namespace Changelog

/-- A step along a path. -/
inductive PathStep where
  /-- To the directory above. -/
  | up
  | name (name : Text)
deriving DecidableEq, Repr

/-- The step in writing. -/
def PathStep.text : PathStep → Text
  | .up => ['.', '.']
  | .name n => n

/-- A way through directories. -/
structure Path where
  /-- Whether the way begins at the root. -/
  absolute : Bool := false
  steps : List PathStep := []
deriving DecidableEq, Repr

namespace Path

/-- The parts of a text between slashes. -/
def parts : Text → List Text
  | [] => [[]]
  | c :: rest =>
    if c = '/' then [] :: parts rest
    else
      match parts rest with
      | [] => [[c]]
      | part :: more => (c :: part) :: more

/-- The step that a part stands for; an empty part and a single dot stand for none. -/
def step? (part : Text) : Option PathStep :=
  if part = [] ∨ part = ['.'] then none
  else if part = ['.', '.'] then some .up
  else some (.name part)

/-- Reads a path. -/
def ofText (text : Text) : Path :=
  { absolute := text.head? = some '/'
    steps := (parts text).filterMap step? }

/-- The path in writing; the empty path is the directory that one is in. -/
def toText (p : Path) : Text :=
  let steps := Text.join ['/'] (p.steps.map PathStep.text)
  if p.absolute then '/' :: steps else if steps = [] then ['.'] else steps

/-- The part of a written path in front of its last step. Slashes and single dots at the end of that
part are left off, all others stay as they were written. -/
def written (text : Text) : Text :=
  let dropSilent (parts : List Text) : List Text := parts.dropWhile fun part => (step? part).isNone
  let front := Text.join ['/'] (dropSilent (dropSilent (parts text).reverse).tail).reverse
  if front ≠ [] then front else if text.head? = some '/' then ['/'] else ['.']

/-- Whether a written path can only lead to a directory: it has no step, or a slash stands behind its
last one. -/
def isDirectoryOnly (text : Text) : Bool :=
  (parts text).getLast?.any fun part => (step? part).isNone

/-- The bytes that a path may take at most. -/
def maxSize : Nat := 4095

/-- Whether a path can be followed at all: it holds no null character, and is not too long together
with the path to the place where it begins, if that takes `root` bytes. -/
def isUsable (root : Nat) (text : Text) : Bool :=
  let root := if text.head? = some '/' then 0 else root
  !text.contains '\x00' && root + Text.byteSize text ≤ maxSize

end Path

end Changelog
