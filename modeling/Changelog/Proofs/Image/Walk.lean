import Changelog.Proofs.Files.Tree
import Mathlib.Data.Char
import Mathlib.Data.List.Lex
import Mathlib.Data.List.Sort

/-! The walk through directories. What the stack still holds and what was found already make up the same
files after every step, so in the end all files have been found, whatever was read first. -/

namespace Changelog

theorem pathLe_iff {a b : List Text} : pathLe a b = true ↔ a ≤ b := by
  rw [pathLe, Bool.not_eq_true', decide_eq_false_iff_not, not_lt]

/-- Sorting by paths puts the lesser ones first. -/
theorem pairwise_mergeSort_path {β : Type} (path : β → List Text) (found : List β) :
    (found.mergeSort fun a b => pathLe (path a) (path b)).Pairwise fun a b => path a ≤ path b := by
  refine (List.pairwise_mergeSort (fun a b c hab hbc => ?_) (fun a b => ?_) found).imp pathLe_iff.1
  · exact pathLe_iff.2 ((pathLe_iff.1 hab).trans (pathLe_iff.1 hbc))
  · rw [Bool.or_eq_true, pathLe_iff, pathLe_iff]
    exact le_total _ _

namespace FoundDirectory

variable {d inner : FoundDirectory} {f : FoundFile} {e : FoundEntry}

/-- The directory, or one that is in it at any depth, has the file. -/
def Holds (d : FoundDirectory) (f : FoundFile) : Prop :=
  ∃ path, f.path = d.path ++ path ∧ d.entries.HasFile path f.image

theorem sorted_perm (d : FoundDirectory) : d.sorted.Perm d.listed :=
  List.mergeSort_perm _ _

/-- The entries of a directory are those it lists, each with a path one name longer than its own. -/
theorem mem_sorted_iff :
    e ∈ d.sorted ↔ ∃ name, (name, e.tree) ∈ d.entries.toList ∧ e.path = d.path ++ [name] := by
  rw [d.sorted_perm.mem_iff, listed, List.mem_map]
  constructor
  · rintro ⟨⟨name, tree⟩, hMem, rfl⟩
    exact ⟨name, hMem, rfl⟩
  · rintro ⟨name, hMem, hPath⟩
    exact ⟨(name, e.tree), hMem, congrArg (FoundEntry.mk · e.tree) hPath.symm⟩

/-- Its own files are the entries that are files. -/
theorem mem_files_iff :
    f ∈ d.files ↔
      ∃ name bytes, (name, .file bytes f.image) ∈ d.entries.toList ∧ f.path = d.path ++ [name] := by
  rw [files, List.mem_filterMap]
  constructor
  · rintro ⟨⟨path, tree⟩, hMem, hFile⟩
    obtain ⟨name, hEntry, rfl⟩ := mem_sorted_iff.1 hMem
    cases tree with
    | file bytes image =>
        obtain rfl := Option.some.inj hFile
        exact ⟨name, bytes, hEntry, rfl⟩
    | directory entries => cases hFile
  · rintro ⟨name, bytes, hEntry, hPath⟩
    exact ⟨⟨f.path, .file bytes f.image⟩, mem_sorted_iff.2 ⟨name, hEntry, hPath⟩, rfl⟩

theorem mem_directories_iff :
    inner ∈ d.directories ↔
      ∃ name, (name, .directory inner.entries) ∈ d.entries.toList ∧ inner.path = d.path ++ [name] := by
  rw [directories, List.mem_filterMap]
  constructor
  · rintro ⟨⟨path, tree⟩, hMem, hDirectory⟩
    obtain ⟨name, hEntry, rfl⟩ := mem_sorted_iff.1 hMem
    cases tree with
    | file bytes image => cases hDirectory
    | directory entries =>
        obtain rfl := Option.some.inj hDirectory
        exact ⟨name, hEntry, rfl⟩
  · rintro ⟨name, hEntry, hPath⟩
    exact ⟨⟨inner.path, .directory inner.entries⟩, mem_sorted_iff.2 ⟨name, hEntry, hPath⟩, rfl⟩

/-- A file is right in the directory, or a directory that is right in it has the file. -/
theorem holds_iff : d.Holds f ↔ f ∈ d.files ∨ ∃ inner ∈ d.directories, inner.Holds f := by
  rw [mem_files_iff]
  constructor
  · rintro ⟨path, hPath, hFile⟩
    cases hFile with
    | here hMem => exact .inl ⟨_, _, hMem, hPath⟩
    | @inside _ entries name rest _ hMem hInner =>
        have hNext : FoundDirectory.mk (d.path ++ [name]) entries ∈ d.directories :=
          mem_directories_iff.2 ⟨name, hMem, rfl⟩
        refine .inr ⟨_, hNext, rest, ?_, hInner⟩
        rw [hPath, List.append_assoc, List.singleton_append]
  · rintro (⟨name, bytes, hMem, hPath⟩ | ⟨inner, hInner, rest, hPath, hFile⟩)
    · exact ⟨[name], hPath, .here hMem⟩
    · obtain ⟨name, hMem, hOwn⟩ := mem_directories_iff.1 hInner
      refine ⟨name :: rest, ?_, .inside hMem hFile⟩
      rw [hPath, hOwn, List.append_assoc, List.singleton_append]

end FoundDirectory

namespace Settings

variable {α : Type} {s : Settings α} {d : FoundDirectory} {f : FoundFile}
  {found : List FoundFile} {pending : List FoundDirectory}

/-- One step of the walk: the top of the stack gives its own files, and leaves its directories. -/
theorem mem_step_iff :
    (f ∈ found ++ d.files.filter s.accepts ∨
        s.accepts f = true ∧ ∃ next ∈ (d.inner true).reverse ++ pending, next.Holds f) ↔
      f ∈ found ∨ s.accepts f = true ∧ ∃ next ∈ d :: pending, next.Holds f := by
  have hInner : d.inner true = d.directories := rfl
  rw [hInner, List.exists_mem_cons_iff, d.holds_iff, List.mem_append, List.mem_filter]
  have hStack : (∃ next ∈ d.directories.reverse ++ pending, next.Holds f) ↔
      (∃ next ∈ d.directories, next.Holds f) ∨ ∃ next ∈ pending, next.Holds f := by
    simp only [List.mem_append, List.mem_reverse, or_and_right, exists_or]
  rw [hStack, or_assoc, and_comm (a := f ∈ d.files), ← and_or_left, or_assoc (a := f ∈ d.files)]

/-- The walk finds the files that count as images among all that the directories on the stack have. -/
theorem mem_collect_iff :
    f ∈ s.collect true found pending ↔
      f ∈ found ∨ s.accepts f = true ∧ ∃ d ∈ pending, d.Holds f := by
  fun_induction s.collect true found pending with
  | case1 found => simp
  | case2 found directory pending ih => exact ih.trans mem_step_iff

/-- Without the directories in it, a directory gives its own files. -/
theorem collect_own (s : Settings α) (d : FoundDirectory) :
    s.collect false [] [d] = d.files.filter s.accepts := by
  rw [collect, List.nil_append]
  show s.collect false (d.files.filter s.accepts) [] = _
  rw [collect]

/-- The walk finds the files that count as images, at any depth. -/
theorem mem_imageFiles_iff : f ∈ s.imageFiles d true ↔ s.accepts f = true ∧ d.Holds f := by
  rw [imageFiles, (List.mergeSort_perm _ _).mem_iff, mem_collect_iff]
  simp

/-- From the first directory on, the path of a file is the way that leads to it. -/
theorem mem_imageFiles_root_iff {entries : Listing} :
    f ∈ s.imageFiles ⟨[], entries⟩ true ↔ s.accepts f = true ∧ entries.HasFile f.path f.image := by
  have hRoot : FoundDirectory.Holds ⟨[], entries⟩ f ↔ entries.HasFile f.path f.image :=
    ⟨fun ⟨_, hPath, hFile⟩ => hPath ▸ hFile, fun hFile => ⟨f.path, rfl, hFile⟩⟩
  rw [mem_imageFiles_iff, hRoot]

theorem mem_imageFiles_own_iff : f ∈ s.imageFiles d false ↔ s.accepts f = true ∧ f ∈ d.files := by
  rw [imageFiles, (List.mergeSort_perm _ _).mem_iff, collect_own, List.mem_filter, and_comm]

/-- What is found is handed over in the order of the paths. -/
theorem pairwise_imageFiles (s : Settings α) (d : FoundDirectory) (recursive : Bool) :
    (s.imageFiles d recursive).Pairwise fun a b => a.path ≤ b.path :=
  pairwise_mergeSort_path FoundFile.path _

end Settings

end Changelog
