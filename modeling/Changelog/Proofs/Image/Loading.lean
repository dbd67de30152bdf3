import Changelog.Proofs.Attribute.Token
import Changelog.Proofs.Image.Walk
import Changelog.Proofs.NameMap
import Mathlib

/-! What is loaded from directories, in terms of the paths that lead to pictures. Of the pictures of one
name that with the greatest path is loaded, and the pictures of an animation come in the order of their
paths. -/

namespace Changelog

/-- A name has an extension if a dot stands in it, but not at its front only. -/
theorem FileName.split_eq_iff {file stem extension : Text} :
    FileName.split file = (stem, some extension) ↔
      file = stem ++ '.' :: extension ∧ stem ≠ [] ∧ '.' ∉ extension := by
  have hDot : Text.splitOnce? (· == '.') file.reverse = some (extension.reverse, stem.reverse) ↔
      file = stem ++ '.' :: extension ∧ '.' ∉ extension := by
    rw [Text.splitOnce?_eq_some_iff, List.reverse_eq_iff, List.mem_reverse]
    simp
  unfold FileName.split
  split
  · rename_i after before hSplit
    rw [hSplit, Option.some_inj, Prod.mk.injEq, ← List.reverse_eq_iff, ← List.reverse_eq_iff] at hDot
    by_cases hFront : before = []
    · rw [if_pos hFront]
      refine ⟨nofun, fun ⟨hFile, hStem, hPlain⟩ => ?_⟩
      obtain ⟨_, hBefore⟩ := hDot.2 ⟨hFile, hPlain⟩
      rw [hFront] at hBefore
      exact absurd hBefore.symm hStem
    · rw [if_neg hFront, Prod.mk.injEq, Option.some_inj, and_comm, hDot]
      constructor
      · rintro ⟨hFile, hPlain⟩
        refine ⟨hFile, ?_, hPlain⟩
        rintro rfl
        exact hFront (List.reverse_eq_nil_iff.1 (hDot.2 ⟨hFile, hPlain⟩).2)
      · rintro ⟨hFile, -, hPlain⟩
        exact ⟨hFile, hPlain⟩
  · rename_i hSplit
    refine ⟨nofun, fun ⟨hFile, _, hPlain⟩ => ?_⟩
    rw [hDot.2 ⟨hFile, hPlain⟩] at hSplit
    cases hSplit

@[simp] theorem FoundFile.name_concat (front : List Text) (file : Text) (image : Option PixelSize) :
    FoundFile.name ⟨front ++ [file], image⟩ = file := by
  rw [FoundFile.name, List.getLast?_concat, Option.getD_some]

namespace Settings

variable {α : Type} {s : Settings α} {entries : Listing} {path : List Text} {texture : Texture}

/-- A path leads to a picture: the file has an extension that counts in some case of its letters, its
name without the extension is that of the picture, and the picture can be decoded. -/
def HasPicture (s : Settings α) (entries : Listing) (path : List Text) (texture : Texture) : Prop :=
  ∃ front extension, path = front ++ [texture.name ++ '.' :: extension] ∧ texture.name ≠ [] ∧
    '.' ∉ extension ∧
    (∃ allowed ∈ s.imageExtensions, Text.asciiLower allowed = Text.asciiLower extension) ∧
    entries.HasFile path (some texture.size)

/-- An extension counts in any case of its ASCII letters. -/
theorem acceptsExtension_iff {extension : Text} :
    s.acceptsExtension extension = true ↔
      ∃ allowed ∈ s.imageExtensions, Text.asciiLower allowed = Text.asciiLower extension := by
  simp [acceptsExtension, Text.sameLetters]

/-- A picture is a file that is accepted, has a name and can be decoded, wherever it was found. -/
theorem hasPicture_iff :
    s.HasPicture entries path texture ↔
      ∃ f : FoundFile, f.path = path ∧ s.accepts f = true ∧ f.texture? = some texture ∧
        entries.HasFile path f.image := by
  constructor
  · rintro ⟨front, extension, hPath, hName, hPlain, hAllowed, hFile⟩
    have hOwn : FoundFile.name ⟨path, some texture.size⟩ = texture.name ++ '.' :: extension := by
      rw [hPath, FoundFile.name_concat]
    have hSplit := FileName.split_eq_iff.2 ⟨hOwn, hName, hPlain⟩
    refine ⟨⟨path, some texture.size⟩, rfl, ?_, ?_, hFile⟩
    · rw [accepts, FileName.extension?, hSplit]
      exact acceptsExtension_iff.2 hAllowed
    · rw [FoundFile.texture?, FileName.stem, hSplit]
      rfl
  · rintro ⟨⟨own, image⟩, rfl, hAccepts, hTexture, hFile⟩
    obtain ⟨size, rfl, rfl⟩ := Option.map_eq_some_iff.1 hTexture
    obtain ⟨extension, hExtension, hAllowed⟩ := (Option.any_eq_true _ _).1 hAccepts
    obtain rfl | ⟨front, file, hPath⟩ := own.eq_nil_or_concat
    · cases hFile
    · obtain rfl : own = front ++ [file] := hPath.trans List.concat_eq_append
      have hSplit : FileName.split file = (FileName.stem file, some extension) :=
        Prod.ext rfl (FoundFile.name_concat front file _ ▸ hExtension)
      obtain ⟨hOwn, hName, hPlain⟩ := FileName.split_eq_iff.1 hSplit
      dsimp only
      rw [FoundFile.name_concat]
      exact ⟨front, extension, congrArg (front ++ [·]) hOwn, hName, hPlain,
        acceptsExtension_iff.1 hAllowed, hFile⟩

/-- The walk finds the pictures, and nothing else that counts as one. -/
theorem hasPicture_iff_mem :
    s.HasPicture entries path texture ↔
      ∃ f ∈ s.imageFiles ⟨[], entries⟩ true, f.path = path ∧ f.texture? = some texture := by
  rw [hasPicture_iff]
  constructor
  · rintro ⟨f, rfl, hAccepts, hTexture, hFile⟩
    exact ⟨f, mem_imageFiles_root_iff.2 ⟨hAccepts, hFile⟩, rfl, hTexture⟩
  · rintro ⟨f, hMem, rfl, hTexture⟩
    obtain ⟨hAccepts, hFile⟩ := mem_imageFiles_root_iff.1 hMem
    exact ⟨f, rfl, hAccepts, hTexture, hFile⟩

/-- The picture of a name: no greater path leads to another one of that name. -/
def IsImage (s : Settings α) (entries : Listing) (name : Text) (texture : Texture) : Prop :=
  ∃ path, s.HasPicture entries path texture ∧ texture.name = name ∧
    ∀ other later, s.HasPicture entries other later → later.name = name → other ≤ path

/-- The animation of a name: the pictures right in the directory of that name, in the order of their
paths. -/
def IsAnimation (s : Settings α) (entries : Listing) (name : Text) (frames : FrameSet) : Prop :=
  entries.HasDirectory name ∧
    ∃ found : List (List Text × Texture),
      found.Pairwise (fun a b => a.1 < b.1) ∧
      (∀ path texture, (path, texture) ∈ found ↔
        (∃ file, path = [name, file]) ∧ s.HasPicture entries path texture) ∧
      frames.frames = found.map Prod.snd

end Settings

namespace Listing.Reordered

variable {α : Type} {s : Settings α} {entries other : Listing} {name : Text}
  (h : entries.Reordered other)
include h

/-- A picture does not depend on the order in which directories list their entries. -/
theorem hasPicture_iff {path : List Text} {texture : Texture} :
    s.HasPicture entries path texture ↔ s.HasPicture other path texture := by
  simp only [Settings.HasPicture, h.hasFile_iff]

theorem isImage_iff {texture : Texture} :
    s.IsImage entries name texture ↔ s.IsImage other name texture := by
  simp only [Settings.IsImage, h.hasPicture_iff]

theorem isAnimation_iff {frames : FrameSet} :
    s.IsAnimation entries name frames ↔ s.IsAnimation other name frames := by
  simp only [Settings.IsAnimation, h.hasDirectory_iff, h.hasPicture_iff]

end Listing.Reordered

section Images

variable {files : List FoundFile} {name : Text} {texture : Texture}

/-- Under a name there is nothing just when no file holds a picture of this name. -/
theorem get?_textures_eq_none_iff :
    (NameMap.ofList ((files.filterMap FoundFile.texture?).map fun t => (t.name, t))).get? name = none ↔
      ∀ f ∈ files, ∀ texture, f.texture? = some texture → texture.name ≠ name := by
  rw [NameMap.get?_ofList_eq_none_iff, List.forall_mem_map, List.forall_mem_filterMap]

variable (hSorted : files.Pairwise fun a b => a.path ≤ b.path)
include hSorted

/-- Of several textures of one name the last one is kept, and no path to another one is greater. -/
theorem le_of_get?_textures
    (h : (NameMap.ofList ((files.filterMap FoundFile.texture?).map fun t => (t.name, t))).get? name =
      some texture) :
    ∃ f ∈ files, f.texture? = some texture ∧ texture.name = name ∧
      ∀ g ∈ files, ∀ later, g.texture? = some later → later.name = name → g.path ≤ f.path := by
  obtain ⟨before, after, hPairs, hLater⟩ := NameMap.get?_ofList_eq_some_iff.1 h
  rw [List.map_filterMap, List.filterMap_eq_append_iff] at hPairs
  obtain ⟨front, back, rfl, -, hBack⟩ := hPairs
  obtain ⟨skipped, f, rest, rfl, hSkipped, hFile, hRest⟩ := List.filterMap_eq_cons_iff.1 hBack
  obtain ⟨texture, hTexture, hPair⟩ := Option.map_eq_some_iff.1 hFile
  obtain ⟨rfl, rfl⟩ := Prod.mk.inj hPair
  refine ⟨f, by simp, hTexture, rfl, fun g hMem later hGet hName => ?_⟩
  rw [← List.append_assoc] at hMem hSorted
  -- The order tells of the files in front of the kept one; one behind it would have taken its place.
  rcases List.mem_append.1 hMem with hFront | hOwn
  · exact (List.pairwise_append.1 hSorted).2.2 g hFront f (List.mem_cons_self ..)
  · rcases List.mem_cons.1 hOwn with rfl | hAfter
    · exact le_rfl
    · have hPair : (later.name, later) ∈ after := by
        rw [← hRest]
        exact List.mem_filterMap.2 ⟨g, hAfter, by rw [hGet]; rfl⟩
      exact absurd hName (hLater _ hPair)

/-- If a path leads to one file only, the texture with the greatest path of its name is kept. -/
theorem get?_textures_eq_some_iff (hUnique : ∀ f ∈ files, ∀ g ∈ files, f.path = g.path → f = g) :
    (NameMap.ofList ((files.filterMap FoundFile.texture?).map fun t => (t.name, t))).get? name =
        some texture ↔
      ∃ f ∈ files, f.texture? = some texture ∧ texture.name = name ∧
        ∀ g ∈ files, ∀ later, g.texture? = some later → later.name = name → g.path ≤ f.path := by
  refine ⟨le_of_get?_textures hSorted, fun ⟨f, hMem, hTexture, hName, hGreatest⟩ => ?_⟩
  obtain ⟨kept, hKept⟩ := Option.ne_none_iff_exists'.1 fun hNone =>
    get?_textures_eq_none_iff.1 hNone f hMem texture hTexture hName
  obtain ⟨g, hMem', hTexture', hName', hGreatest'⟩ := le_of_get?_textures hSorted hKept
  obtain rfl : f = g := hUnique f hMem g hMem'
    (le_antisymm (hGreatest' f hMem texture hTexture hName) (hGreatest g hMem' kept hTexture' hName'))
  rw [hKept, ← hTexture, hTexture']

end Images

namespace FoundEntry

variable {e : FoundEntry}

theorem path_of_file? {f : FoundFile} (h : e.file? = some f) : f.path = e.path := by
  obtain ⟨path, _ | _⟩ := e
  · exact congrArg FoundFile.path (Option.some.inj h).symm
  · cases h

theorem path_of_directory? {d : FoundDirectory} (h : e.directory? = some d) : d.path = e.path := by
  obtain ⟨path, _ | _⟩ := e
  · cases h
  · exact congrArg FoundDirectory.path (Option.some.inj h).symm

end FoundEntry

namespace FoundDirectory

variable {d : FoundDirectory}

/-- No two entries of a directory have one path, so their order is strict. -/
theorem pairwise_sorted (hDistinct : d.entries.Distinct) :
    d.sorted.Pairwise fun a b => a.path < b.path := by
  have hNames : (d.entries.toList.map Prod.fst).Nodup := ((Listing.distinct_iff _).1 hDistinct).1
  have hListed : d.listed.Pairwise fun a b => a.path ≠ b.path := by
    refine List.pairwise_map.2 ((List.pairwise_map.1 hNames).imp fun hNe hPath => hNe ?_)
    exact List.singleton_inj.1 (List.append_cancel_left hPath)
  have hSorted : d.sorted.Pairwise fun a b => a.path ≠ b.path :=
    (d.sorted_perm.pairwise_iff fun hNe => hNe.symm).2 hListed
  exact ((pairwise_mergeSort_path FoundEntry.path d.listed).and hSorted).imp fun ⟨hLe, hNe⟩ =>
    lt_of_le_of_ne hLe hNe

/-- The directories in a directory are taken in the strict order of their paths. -/
theorem pairwise_directories (hDistinct : d.entries.Distinct) :
    d.directories.Pairwise fun a b => a.path < b.path :=
  List.pairwise_filterMap.2 <| (pairwise_sorted hDistinct).imp fun hLt _ ha _ hb => by
    rwa [FoundEntry.path_of_directory? ha, FoundEntry.path_of_directory? hb]

theorem pairwise_files (hDistinct : d.entries.Distinct) :
    d.files.Pairwise fun a b => a.path < b.path :=
  List.pairwise_filterMap.2 <| (pairwise_sorted hDistinct).imp fun hLt _ ha _ hb => by
    rwa [FoundEntry.path_of_file? ha, FoundEntry.path_of_file? hb]

/-- No two directories in a directory have one name. -/
theorem nodup_names_directories (hDistinct : d.entries.Distinct) : (d.directories.map name).Nodup := by
  refine List.pairwise_map.2 ((pairwise_directories hDistinct).imp_of_mem fun ha hb hLt hName => ?_)
  obtain ⟨first, -, hFirst⟩ := mem_directories_iff.1 ha
  obtain ⟨second, -, hSecond⟩ := mem_directories_iff.1 hb
  rw [name, name, hFirst, hSecond, List.getLast?_concat, List.getLast?_concat] at hName
  obtain rfl : first = second := hName
  rw [hFirst, hSecond] at hLt
  exact lt_irrefl _ hLt

end FoundDirectory

namespace Settings

variable {α : Type} {s : Settings α} {entries inner : Listing} {name file : Text} {path : List Text}
  {texture : Texture}

/-- The pictures right in a directory, with their paths. -/
def pictures (s : Settings α) (group : FoundDirectory) : List (List Text × Texture) :=
  (s.imageFiles group false).filterMap fun f => f.texture?.map (f.path, ·)

theorem map_snd_pictures (s : Settings α) (group : FoundDirectory) :
    (s.pictures group).map Prod.snd = (s.imageFiles group false).filterMap FoundFile.texture? := by
  rw [pictures, List.map_filterMap]
  exact List.filterMap_congr fun f _ => by rw [Option.map_map]; exact Option.map_id'

/-- No two pictures of an animation have one path, so their order is certain. -/
theorem pairwise_pictures {group : FoundDirectory} (hDistinct : group.entries.Distinct) :
    (s.pictures group).Pairwise fun a b => a.1 < b.1 := by
  have hFiles : (group.files.filter s.accepts).Pairwise fun a b => a.path < b.path :=
    (FoundDirectory.pairwise_files hDistinct).filter _
  rw [pictures, imageFiles, collect_own,
    List.mergeSort_of_pairwise (hFiles.imp fun hLt => pathLe_iff.2 hLt.le)]
  refine List.pairwise_filterMap.2 (hFiles.imp fun hLt a ha b hb => ?_)
  obtain ⟨_, -, rfl⟩ := Option.map_eq_some_iff.1 ha
  obtain ⟨_, -, rfl⟩ := Option.map_eq_some_iff.1 hb
  exact hLt

/-- In a directory that is right in another one, paths of two names lead to its own files. -/
theorem hasFile_pair_iff (hDistinct : entries.Distinct)
    (hMem : (name, .directory inner) ∈ entries.toList) {image : Option PixelSize} :
    entries.HasFile [name, file] image ↔ ∃ bytes, (file, .file bytes image) ∈ inner.toList := by
  constructor
  · rintro (_ | ⟨hOuter, _ | ⟨_, hNone⟩⟩)
    · rename_i hFile
      injection hDistinct.eq_of_mem hMem hOuter with hInner
      exact hInner ▸ ⟨_, hFile⟩
    · cases hNone
  · rintro ⟨bytes, hFile⟩
    exact .inside hMem (.here hFile)

/-- The pictures of an animation lie right in its directory, one name below it. -/
theorem mem_pictures_iff (hDistinct : entries.Distinct)
    (hMem : (name, .directory inner) ∈ entries.toList) :
    (path, texture) ∈ s.pictures ⟨[name], inner⟩ ↔
      (∃ file, path = [name, file]) ∧ s.HasPicture entries path texture := by
  rw [pictures, List.mem_filterMap, hasPicture_iff]
  constructor
  · rintro ⟨f, hFile, hPair⟩
    obtain ⟨hAccepts, hOwn⟩ := mem_imageFiles_own_iff.1 hFile
    obtain ⟨file, bytes, hEntry, hPath⟩ := FoundDirectory.mem_files_iff.1 hOwn
    obtain ⟨_, hTexture, hEq⟩ := Option.map_eq_some_iff.1 hPair
    obtain ⟨rfl, rfl⟩ := Prod.mk.inj hEq
    refine ⟨⟨file, hPath⟩, f, rfl, hAccepts, hTexture, ?_⟩
    rw [hPath]
    exact (hasFile_pair_iff hDistinct hMem).2 ⟨bytes, hEntry⟩
  · rintro ⟨⟨file, rfl⟩, f, hPath, hAccepts, hTexture, hFile⟩
    obtain ⟨bytes, hEntry⟩ := (hasFile_pair_iff hDistinct hMem).1 hFile
    have hOwn : f ∈ (FoundDirectory.mk [name] inner).files :=
      FoundDirectory.mem_files_iff.2 ⟨file, bytes, hEntry, hPath⟩
    exact ⟨f, mem_imageFiles_own_iff.2 ⟨hAccepts, hOwn⟩, by rw [hTexture, hPath]; rfl⟩

/-- Lists of pictures in the strict order of their paths are equal if they have the same ones. -/
theorem eq_of_mem_iff {found found' : List (List Text × Texture)}
    (h : found.Pairwise fun a b => a.1 < b.1) (h' : found'.Pairwise fun a b => a.1 < b.1)
    (hMem : ∀ path texture, (path, texture) ∈ found ↔ (path, texture) ∈ found') : found = found' := by
  have : Std.Irrefl fun a b : List Text × Texture => a.1 < b.1 := ⟨fun a => lt_irrefl a.1⟩
  have : Std.Antisymm fun a b : List Text × Texture => a.1 < b.1 :=
    ⟨fun _ _ hLt hGt => absurd hGt hLt.asymm⟩
  exact h.eq_of_mem_iff h' fun ⟨path, texture⟩ => hMem path texture

end Settings

section Loading

variable {α : Type} (s : Settings α) {entries : Listing} (hDistinct : entries.Distinct) {name : Text}
include hDistinct

/-- What is loaded under a name is the picture of this name. -/
theorem get?_loadImages_iff {texture : Texture} :
    (loadImages s entries).get? name = some texture ↔ s.IsImage entries name texture := by
  have hUnique : ∀ f ∈ s.imageFiles ⟨[], entries⟩ true, ∀ g ∈ s.imageFiles ⟨[], entries⟩ true,
      f.path = g.path → f = g := by
    rintro ⟨path, image⟩ hFirst ⟨_, other⟩ hSecond rfl
    have hFile := (Settings.mem_imageFiles_root_iff.1 hFirst).2
    have hFile' := (Settings.mem_imageFiles_root_iff.1 hSecond).2
    exact congrArg (FoundFile.mk path) (hFile.unique hDistinct hFile')
  rw [loadImages, get?_textures_eq_some_iff (s.pairwise_imageFiles _ _) hUnique]
  simp only [Settings.IsImage, Settings.hasPicture_iff_mem]
  constructor
  · rintro ⟨f, hMem, hTexture, hName, hGreatest⟩
    refine ⟨f.path, ⟨f, hMem, rfl, hTexture⟩, hName, ?_⟩
    rintro _ later ⟨g, hOther, rfl, hLater⟩ hSame
    exact hGreatest g hOther later hLater hSame
  · rintro ⟨_, ⟨f, hMem, rfl, hTexture⟩, hName, hGreatest⟩
    exact ⟨f, hMem, hTexture, hName, fun g hOther later hLater hSame =>
      hGreatest g.path later ⟨g, hOther, rfl, hLater⟩ hSame⟩

omit hDistinct in
/-- Nothing is loaded under a name without a picture. -/
theorem get?_loadImages_eq_none_iff :
    (loadImages s entries).get? name = none ↔
      ∀ path texture, s.HasPicture entries path texture → texture.name ≠ name := by
  rw [loadImages, get?_textures_eq_none_iff]
  simp only [Settings.hasPicture_iff_mem]
  exact ⟨fun h _ texture ⟨f, hMem, _, hTexture⟩ => h f hMem texture hTexture,
    fun h f hMem texture hTexture => h f.path texture ⟨f, hMem, rfl, hTexture⟩⟩

/-- Each directory right in the directory becomes an animation of its own name. -/
theorem get?_loadAnimations_iff_mem {frames : FrameSet} :
    (loadAnimations s entries).get? name = some frames ↔
      ∃ inner, (name, .directory inner) ∈ entries.toList ∧
        frames = ⟨(s.pictures ⟨[name], inner⟩).map Prod.snd⟩ := by
  have hNames : ((FoundDirectory.mk [] entries).directories.map FoundDirectory.name).Nodup :=
    FoundDirectory.nodup_names_directories hDistinct
  rw [loadAnimations, NameMap.get?_ofList_eq_some_iff_mem (by rwa [List.map_map]), List.mem_map]
  simp only [Settings.map_snd_pictures, FoundDirectory.mem_directories_iff]
  constructor
  · rintro ⟨⟨path, inner⟩, ⟨own, hMem, rfl⟩, hPair⟩
    obtain ⟨rfl, rfl⟩ := Prod.mk.inj hPair
    exact ⟨inner, hMem, rfl⟩
  · rintro ⟨inner, hMem, rfl⟩
    exact ⟨⟨[name], inner⟩, ⟨name, hMem, rfl⟩, rfl⟩

/-- What is loaded as an animation is the one of that name. -/
theorem get?_loadAnimations_iff {frames : FrameSet} :
    (loadAnimations s entries).get? name = some frames ↔ s.IsAnimation entries name frames := by
  rw [get?_loadAnimations_iff_mem s hDistinct]
  constructor
  · rintro ⟨inner, hMem, rfl⟩
    exact ⟨⟨inner, hMem⟩, s.pictures ⟨[name], inner⟩,
      Settings.pairwise_pictures (hDistinct.of_mem hMem),
      fun _ _ => Settings.mem_pictures_iff hDistinct hMem, rfl⟩
  · rintro ⟨⟨inner, hMem⟩, found, hSorted, hFound, hFrames⟩
    have hSame : found = s.pictures ⟨[name], inner⟩ :=
      Settings.eq_of_mem_iff hSorted (Settings.pairwise_pictures (hDistinct.of_mem hMem))
        fun path texture => (hFound path texture).trans (Settings.mem_pictures_iff hDistinct hMem).symm
    refine ⟨inner, hMem, ?_⟩
    rw [← hSame, ← hFrames]

/-- A directory without pictures still becomes an animation; only where there is no directory, there is
none. -/
theorem get?_loadAnimations_eq_none_iff :
    (loadAnimations s entries).get? name = none ↔ ¬ entries.HasDirectory name := by
  rw [← not_iff_not, not_not, ← ne_eq, Option.ne_none_iff_exists']
  simp only [get?_loadAnimations_iff_mem s hDistinct]
  exact ⟨fun ⟨_, inner, hMem, _⟩ => ⟨inner, hMem⟩, fun ⟨inner, hMem⟩ => ⟨_, inner, hMem, rfl⟩⟩

/-- Under each name, that picture is loaded to which the greatest path leads among all pictures of the
name at any depth, and none if there is no picture of the name. There is an animation for each directory
right in the directory, and no other; it shows the pictures right in that directory in the order of
their paths. The order in which the directories list their entries makes no difference. -/
theorem loading_by_paths :
    (∀ name texture,
      (loadImages s entries).get? name = some texture ↔ s.IsImage entries name texture) ∧
    (∀ name, (loadImages s entries).get? name = none ↔
      ∀ path texture, s.HasPicture entries path texture → texture.name ≠ name) ∧
    (∀ name frames,
      (loadAnimations s entries).get? name = some frames ↔ s.IsAnimation entries name frames) ∧
    (∀ name, (loadAnimations s entries).get? name = none ↔ ¬ entries.HasDirectory name) ∧
    ∀ other, entries.Reordered other → ∀ name,
      (loadImages s other).get? name = (loadImages s entries).get? name ∧
        (loadAnimations s other).get? name = (loadAnimations s entries).get? name := by
  refine ⟨fun _ _ => get?_loadImages_iff s hDistinct, fun _ => get?_loadImages_eq_none_iff s,
    fun _ _ => get?_loadAnimations_iff s hDistinct, fun _ => get?_loadAnimations_eq_none_iff s hDistinct,
    fun other hReordered name => ⟨Option.ext fun texture => ?_, Option.ext fun frames => ?_⟩⟩
  · rw [get?_loadImages_iff s hDistinct, get?_loadImages_iff s (hReordered.distinct hDistinct)]
    exact hReordered.isImage_iff.symm
  · rw [get?_loadAnimations_iff s hDistinct, get?_loadAnimations_iff s (hReordered.distinct hDistinct)]
    exact hReordered.isAnimation_iff.symm

end Loading

/-- A picture outside of all directories; one of the same name in a directory that is named like a
picture; a file with the greatest path that holds no picture; and a picture with an extension that does
not count. -/
def gallery : Listing :=
  .cons "z".toList (.directory (.cons "a.png".toList (.file .empty none) .nil)) <|
    .cons "b.png".toList (.directory (.cons "a.PNG".toList (.file .empty (some ⟨2, 2⟩)) .nil)) <|
      .cons "a.png".toList (.file .empty (some ⟨1, 1⟩)) <|
        .cons "a.txt".toList (.file .empty (some ⟨9, 9⟩)) .nil

/-- The picture in the directory wins, whichever entry is listed first. -/
theorem loading_by_paths_of_gallery :
    let s : Settings Nat := { columnWidth := 400 }
    gallery.Distinct ∧ s.IsImage gallery "a".toList ⟨"a".toList, ⟨2, 2⟩⟩ ∧
      s.IsAnimation gallery "b.png".toList ⟨[⟨"a".toList, ⟨2, 2⟩⟩]⟩ ∧
      ∀ other, gallery.Reordered other →
        (loadImages s other).get? "a".toList = some ⟨"a".toList, ⟨2, 2⟩⟩ := by
  intro s
  have hDistinct : gallery.Distinct := by decide +kernel
  have hImage : (loadImages s gallery).get? "a".toList = some ⟨"a".toList, ⟨2, 2⟩⟩ := by cbv
  have hAnimation : (loadAnimations s gallery).get? "b.png".toList = some ⟨[⟨"a".toList, ⟨2, 2⟩⟩]⟩ := by
    cbv
  obtain ⟨hImages, _, hAnimations, _, hOrder⟩ := loading_by_paths s hDistinct
  exact ⟨hDistinct, (hImages _ _).1 hImage, (hAnimations _ _).1 hAnimation,
    fun other hReordered => (hOrder other hReordered _).1.trans hImage⟩

end Changelog
