import Changelog.Image.Directory
import Mathlib.Data.List.Nodup
import Mathlib.Data.List.Perm.Basic

/-! Directories by what they hold: which paths lead to files, and which names to directories. This does
not depend on the order in which directories list their entries. -/

namespace Changelog

mutual

/-- No directory of the tree has two entries of one name. -/
def FileTree.Distinct : FileTree → Prop
  | .file .. => True
  | .directory entries => entries.Distinct

def Listing.Distinct : Listing → Prop
  | .nil => True
  | .cons name tree rest => name ∉ rest.toList.map Prod.fst ∧ tree.Distinct ∧ rest.Distinct

end

mutual

instance FileTree.decidableDistinct : (tree : FileTree) → Decidable tree.Distinct
  | .file .. => .isTrue trivial
  | .directory entries => entries.decidableDistinct

instance Listing.decidableDistinct : (entries : Listing) → Decidable entries.Distinct
  | .nil => .isTrue trivial
  | .cons name tree rest =>
    have := tree.decidableDistinct
    have := rest.decidableDistinct
    inferInstanceAs (Decidable (name ∉ rest.toList.map Prod.fst ∧ _ ∧ _))

end

namespace Listing

variable {entries other rest inner : Listing} {name : Text} {tree : FileTree} {path : List Text}
  {image : Option PixelSize}

@[simp] theorem toList_nil : nil.toList = [] := rfl

@[simp] theorem toList_cons (name : Text) (tree : FileTree) (rest : Listing) :
    (cons name tree rest).toList = (name, tree) :: rest.toList := rfl

/-- A path leads to a file, which holds an image of this size or none. -/
inductive HasFile : Listing → List Text → Option PixelSize → Prop
  | here {entries : Listing} {name : Text} {bytes : ByteArray} {image : Option PixelSize}
      (hMem : (name, .file bytes image) ∈ entries.toList) : HasFile entries [name] image
  | inside {entries inner : Listing} {name : Text} {path : List Text} {image : Option PixelSize}
      (hMem : (name, .directory inner) ∈ entries.toList) (hInner : HasFile inner path image) :
      HasFile entries (name :: path) image

/-- A name is that of a directory. -/
def HasDirectory (entries : Listing) (name : Text) : Prop :=
  ∃ inner, (name, .directory inner) ∈ entries.toList

/-- The names of a directory are distinct, and so are those of every directory in it. -/
theorem distinct_iff (entries : Listing) :
    entries.Distinct ↔
      (entries.toList.map Prod.fst).Nodup ∧ ∀ entry ∈ entries.toList, entry.2.Distinct := by
  match entries with
  | .nil => simp [Distinct]
  | .cons name tree rest =>
    have ih := distinct_iff rest
    rw [Distinct, ih, toList_cons, List.map_cons, List.nodup_cons, List.forall_mem_cons]
    exact ⟨fun ⟨hName, hTree, hNames, hRest⟩ => ⟨⟨hName, hNames⟩, hTree, hRest⟩,
      fun ⟨⟨hName, hNames⟩, hTree, hRest⟩ => ⟨hName, hTree, hNames, hRest⟩⟩

/-- A name stands for one entry. -/
theorem Distinct.eq_of_mem (h : entries.Distinct) {a b : FileTree} (ha : (name, a) ∈ entries.toList)
    (hb : (name, b) ∈ entries.toList) : a = b :=
  congrArg Prod.snd (List.inj_on_of_nodup_map ((distinct_iff _).1 h).1 ha hb rfl)

theorem Distinct.of_mem (h : entries.Distinct) (hMem : (name, .directory inner) ∈ entries.toList) :
    inner.Distinct :=
  ((distinct_iff _).1 h).2 _ hMem

/-- A path leads to one file at most. -/
theorem HasFile.unique (h : entries.HasFile path image) (hDistinct : entries.Distinct)
    {image' : Option PixelSize} (h' : entries.HasFile path image') : image = image' := by
  induction h with
  | here hMem =>
      cases h' with
      | here hMem' =>
          injection hDistinct.eq_of_mem hMem hMem'
      | inside _ hInner => cases hInner
  | inside hMem hInner ih =>
      cases h' with
      | here _ => cases hInner
      | inside hMem' hInner' =>
          obtain rfl : _ = _ := by injection hDistinct.eq_of_mem hMem hMem'
          exact ih (hDistinct.of_mem hMem) hInner'

/-- The same entries in another order, in a directory or in one that is in it, at any depth. -/
inductive Reordered : Listing → Listing → Prop
  | perm {entries other : Listing} (hPerm : entries.toList.Perm other.toList) :
      Reordered entries other
  | inside {inner inner' : Listing} (name : Text) (rest : Listing) (hInner : Reordered inner inner') :
      Reordered (cons name (.directory inner) rest) (cons name (.directory inner') rest)
  | trans {a b c : Listing} (first : Reordered a b) (second : Reordered b c) : Reordered a c

/-- More entries lead to no fewer files. -/
theorem HasFile.of_subset (h : entries.HasFile path image) (hSub : entries.toList ⊆ other.toList) :
    other.HasFile path image := by
  cases h with
  | here hMem => exact .here (hSub hMem)
  | inside hMem hInner => exact .inside (hSub hMem) hInner

/-- A directory in the first place may be exchanged for one that leads to the same files. -/
theorem HasFile.replace (h : (cons name (.directory inner) rest).HasFile path image) {inner' : Listing}
    (hInner : ∀ path, inner.HasFile path image → inner'.HasFile path image) :
    (cons name (.directory inner') rest).HasFile path image := by
  cases h with
  | here hMem =>
      rcases List.mem_cons.1 hMem with hEq | hRest
      · cases hEq
      · exact .here (List.mem_cons_of_mem _ hRest)
  | inside hMem hFound =>
      rcases List.mem_cons.1 hMem with hEq | hRest
      · obtain ⟨rfl, rfl⟩ := by simpa using hEq
        exact .inside (List.mem_cons_self ..) (hInner _ hFound)
      · exact .inside (List.mem_cons_of_mem _ hRest) hFound

/-- The same paths lead to the same files. -/
theorem Reordered.hasFile_iff (h : entries.Reordered other) :
    entries.HasFile path image ↔ other.HasFile path image := by
  induction h generalizing path with
  | perm hPerm => exact ⟨fun h => h.of_subset hPerm.subset, fun h => h.of_subset hPerm.symm.subset⟩
  | inside name rest _ ih =>
      exact ⟨fun h => h.replace fun _ => ih.1, fun h => h.replace fun _ => ih.2⟩
  | trans _ _ ih ih' => exact ih.trans ih'

/-- The same names are those of directories. -/
theorem Reordered.hasDirectory_iff (h : entries.Reordered other) :
    entries.HasDirectory name ↔ other.HasDirectory name := by
  induction h with
  | perm hPerm => exact exists_congr fun _ => hPerm.mem_iff
  | inside own rest _ ih =>
      simp only [HasDirectory, toList_cons, List.mem_cons, Prod.mk.injEq, FileTree.directory.injEq,
        exists_or, exists_and_left, exists_eq]
  | trans _ _ ih ih' => exact ih.trans ih'

/-- Names that are distinct stay distinct in another order. -/
theorem Reordered.distinct (h : entries.Reordered other) (hDistinct : entries.Distinct) :
    other.Distinct := by
  induction h with
  | perm hPerm =>
      obtain ⟨hNames, hTrees⟩ := (distinct_iff _).1 hDistinct
      exact (distinct_iff _).2 ⟨(hPerm.map Prod.fst).nodup_iff.1 hNames,
        fun entry hMem => hTrees entry (hPerm.mem_iff.2 hMem)⟩
  | inside name rest _ ih =>
      obtain ⟨hName, hTree, hRest⟩ := hDistinct
      exact ⟨hName, ih hTree, hRest⟩
  | trans _ _ ih ih' => exact ih' (ih hDistinct)

end Listing

end Changelog
