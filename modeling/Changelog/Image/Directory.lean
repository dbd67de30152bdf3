import Changelog.Files.Tree
import Changelog.NameMap
import Changelog.Settings

/-!
Images loaded from directories. A directory may list its entries in any order; files are taken in
the order of their paths, compared component by component.
-/

namespace Changelog

/-- Order of paths by their components, a component by its characters. -/
def pathLe (a b : List Text) : Bool :=
  !decide (b < a)

/-- A file with the path that leads to it. -/
structure FoundFile where
  path : List Text
  image : Option PixelSize
deriving DecidableEq, Repr

/-- A directory with the path that leads to it. -/
structure FoundDirectory where
  path : List Text
  entries : Listing

/-- An entry of a directory with the path that leads to it. -/
structure FoundEntry where
  path : List Text
  tree : FileTree

namespace FileName

/-- The parts before and after the last dot. A dot at the front of the name does not count. -/
def split (name : Text) : Text × Option Text :=
  match Text.splitOnce? (· == '.') name.reverse with
  | some (after, before) =>
    if before = [] then (name, none) else (before.reverse, some after.reverse)
  | none => (name, none)

/-- The name without its extension. -/
def stem (name : Text) : Text :=
  (split name).1

def extension? (name : Text) : Option Text :=
  (split name).2

end FileName

namespace FoundFile

/-- The name of the file, without the directories that lead to it. -/
def name (f : FoundFile) : Text :=
  f.path.getLast?.getD []

/-- The image in the file, named by the file's stem. -/
def texture? (f : FoundFile) : Option Texture :=
  f.image.map fun size => ⟨FileName.stem f.name, size⟩

end FoundFile

namespace FoundEntry

def file? (e : FoundEntry) : Option FoundFile :=
  match e.tree with
  | .file _ image => some ⟨e.path, image⟩
  | .directory _ => none

def directory? (e : FoundEntry) : Option FoundDirectory :=
  match e.tree with
  | .file .. => none
  | .directory entries => some ⟨e.path, entries⟩

end FoundEntry

mutual

/-- The number of directories in a tree, at any depth. -/
def FileTree.directoryCount : FileTree → Nat
  | .file .. => 0
  | .directory entries => entries.directoryCount + 1

def Listing.directoryCount : Listing → Nat
  | .nil => 0
  | .cons _ tree rest => tree.directoryCount + rest.directoryCount

end

/-- The entries as the directory lists them. -/
def Listing.toList : Listing → List (Text × FileTree)
  | nil => []
  | cons name tree rest => (name, tree) :: rest.toList

namespace FoundDirectory

/-- The name of the directory, without those that lead to it. -/
def name (d : FoundDirectory) : Text :=
  d.path.getLast?.getD []

/-- The entries as the directory lists them. -/
def listed (d : FoundDirectory) : List FoundEntry :=
  d.entries.toList.map fun (name, tree) => ⟨d.path ++ [name], tree⟩

/-- The entries in the order of their paths. -/
def sorted (d : FoundDirectory) : List FoundEntry :=
  d.listed.mergeSort fun a b => pathLe a.path b.path

def directories (d : FoundDirectory) : List FoundDirectory :=
  d.sorted.filterMap FoundEntry.directory?

def files (d : FoundDirectory) : List FoundFile :=
  d.sorted.filterMap FoundEntry.file?

/-- The directories to be read after this one. -/
def inner (d : FoundDirectory) (recursive : Bool) : List FoundDirectory :=
  if recursive then d.directories else []

/-- The number of directories from these on, themselves included. -/
def countAll : List FoundDirectory → Nat
  | [] => 0
  | d :: rest => d.entries.directoryCount + 1 + countAll rest

theorem countAll_append (ds es : List FoundDirectory) :
    countAll (ds ++ es) = countAll ds + countAll es := by
  induction ds with
  | nil => exact (Nat.zero_add _).symm
  | cons d rest ih => rw [List.cons_append, countAll, countAll, ih, Nat.add_assoc (_ + 1)]

theorem countAll_perm {ds es : List FoundDirectory} (h : ds.Perm es) : countAll ds = countAll es := by
  induction h with
  | nil => rfl
  | cons d _ ih => rw [countAll, countAll, ih]
  | swap d e rest => exact Nat.add_left_comm ..
  | trans _ _ ih ih' => exact ih.trans ih'

theorem countAll_listed (path : List Text) (entries : Listing) :
    countAll ((mk path entries).listed.filterMap FoundEntry.directory?) = entries.directoryCount := by
  match entries with
  | .nil => rfl
  | .cons _ (.file ..) rest => exact (countAll_listed path rest).trans (Nat.zero_add _).symm
  | .cons _ (.directory inner) rest =>
    exact congrArg (inner.directoryCount + 1 + ·) (countAll_listed path rest)

/-- The directories in a directory are those right in it with all that are in them. -/
theorem countAll_inner_le (d : FoundDirectory) (recursive : Bool) :
    countAll (d.inner recursive) ≤ d.entries.directoryCount := by
  cases recursive with
  | false => exact Nat.zero_le _
  | true =>
    have hSorted : d.sorted.Perm d.listed := List.mergeSort_perm _ _
    exact Nat.le_of_eq
      ((countAll_perm (hSorted.filterMap _)).trans (countAll_listed d.path d.entries))

end FoundDirectory

namespace Settings

variable {α : Type} [Scalar α]

/-- Whether a file counts as an image by its extension. -/
def accepts (s : Settings α) (f : FoundFile) : Bool :=
  (FileName.extension? f.name).any s.acceptsExtension

/-- Reads the directories on a stack, the top one first, and adds their image files to those found
before. If `recursive`, the directories in them are put on the stack in their order. -/
def collect (s : Settings α) (recursive : Bool) (found : List FoundFile) :
    List FoundDirectory → List FoundFile
  | [] => found
  | directory :: pending =>
    s.collect recursive (found ++ directory.files.filter s.accepts)
      ((directory.inner recursive).reverse ++ pending)
termination_by pending => FoundDirectory.countAll pending
decreasing_by
  have hInner := directory.countAll_inner_le recursive
  rw [FoundDirectory.countAll_append, FoundDirectory.countAll_perm (List.reverse_perm _),
    FoundDirectory.countAll]
  omega

/-- The image files of a directory, and of those in it if `recursive`, in the order of their paths. -/
def imageFiles (s : Settings α) (directory : FoundDirectory) (recursive : Bool) : List FoundFile :=
  (s.collect recursive [] [directory]).mergeSort fun a b => pathLe a.path b.path

end Settings

section

variable {α : Type} [Scalar α]

/-- The images of a directory and its subdirectories by their names; of two images of one name the
later one is taken. -/
def loadImages (s : Settings α) (directory : Listing) : NameMap Texture :=
  NameMap.ofList (((s.imageFiles ⟨[], directory⟩ true).filterMap FoundFile.texture?).map
    fun texture => (texture.name, texture))

/-- The animations of a directory: each subdirectory is one, with the images directly in it. -/
def loadAnimations (s : Settings α) (directory : Listing) : NameMap FrameSet :=
  NameMap.ofList ((FoundDirectory.mk [] directory).directories.map fun group =>
    (group.name, ⟨(s.imageFiles group false).filterMap FoundFile.texture?⟩))

end

end Changelog
