import Changelog.Proofs.Download.Availability
import Changelog.Proofs.Download.Disposal
import Changelog.Proofs.Download.Registration
import Changelog.Proofs.NameMap

/-! The textures that a cache holds, each in a place of its own. Giving them up counts every place once,
because no name has two entries and no two names lead to one slot. Workers store textures, but they take
nothing away and lead no name anywhere, so this stays as it is whatever they still do. -/

namespace Changelog

namespace RemoteSet

/-- The same names lead to the same slots, and there are as many of these. -/
structure SamePlaces (set next : RemoteSet) : Prop where
  names_eq : next.names = set.names
  length_eq : next.slots.length = set.slots.length

theorem SamePlaces.refl (set : RemoteSet) : set.SamePlaces set :=
  ⟨rfl, rfl⟩

/-- An operation on a slot adds no slot and leads no name anywhere else. -/
theorem samePlaces_onSlot (set : RemoteSet) (number : Nat) (operation : Slot → Slot × Bool) :
    set.SamePlaces (set.onSlot number operation).1 := by
  refine ⟨(set.onSlot_keeps number operation).2, ?_⟩
  unfold onSlot
  split
  · exact List.length_set
  · rfl

/-- Every name leads to a slot, and no two names to the same one. -/
structure Numbered (set : RemoteSet) : Prop where
  names : set.names.Distinct
  slots : set.names.values.Nodup
  bound : ∀ number ∈ set.names.values, number < set.slots.length

variable {set next : RemoteSet}

theorem numbered_empty : Numbered {} :=
  ⟨NameMap.distinct_empty, List.nodup_nil, nofun⟩

theorem Numbered.of_samePlaces (h : set.Numbered) (hSame : set.SamePlaces next) : next.Numbered where
  names := hSame.names_eq ▸ h.names
  slots := hSame.names_eq ▸ h.slots
  bound := by
    rw [hSame.names_eq, hSame.length_eq]
    exact h.bound

/-- A new slot has a number of its own. -/
theorem Numbered.addSlot (h : set.Numbered) (name url : Text) :
    Numbered { set with
      slots := set.slots ++ [{ url }]
      names := set.names.insert name set.slots.length } := by
  have hOthers : ((set.names.entries.filter fun entry => entry.1 != name).map Prod.snd).Sublist
      set.names.values := List.filter_sublist.map _
  refine ⟨h.names.insert _ _, List.nodup_cons.2 ⟨fun hMem => ?_, h.slots.sublist hOthers⟩, ?_⟩
  · exact absurd (h.bound _ (hOthers.subset hMem)) (Nat.lt_irrefl _)
  · intro number hNumber
    rw [List.length_append, List.length_singleton]
    rcases List.mem_cons.1 hNumber with rfl | hOld
    · exact Nat.lt_succ_self _
    · exact Nat.lt_succ_of_lt (h.bound number (hOthers.subset hOld))

/-- Registering gives each image a slot of its own. A name that occurs again leads to the later one. -/
theorem Numbered.register (h : set.Numbered) (images : List RemoteImage) :
    (set.register images).1.Numbered := by
  induction images generalizing set with
  | nil => exact h
  | cons image rest ih => exact ih (h.addSlot image.name image.url)

end RemoteSet

namespace Worker

/-- To take up a job is an operation on one slot. -/
theorem samePlaces_takeUp (s : State) : s.1.SamePlaces (takeUp s).1 := by
  obtain ⟨set, queue, phase, requests⟩ := s
  cases queue with
  | nil => exact .refl set
  | cons job rest =>
      have hStart := set.samePlaces_onSlot job.slot fun slot => slot.advance .pending .inProgress
      unfold takeUp
      dsimp only
      split
      · rename_i hNext
        rw [← RemoteSet.start, hNext] at hStart
        exact hStart
      · rename_i hNext
        rw [← RemoteSet.start, hNext] at hStart
        exact hStart

theorem samePlaces_look {s : State} (hReady : s.2.phase = .ready) :
    s.1.SamePlaces (look s.1 s.2).1 := by
  cases hDisposed : s.1.disposed with
  | false =>
      rw [look_eq_takeUp hReady hDisposed]
      exact samePlaces_takeUp s
  | true =>
      obtain ⟨set, queue, phase, requests⟩ := s
      cases hReady
      cases queue with
      | nil => exact .refl set
      | cons job rest =>
          unfold look
          dsimp only at hDisposed ⊢
          rw [if_pos hDisposed]
          exact .refl set

/-- Whatever a worker does, it moves no name and adds no slot. -/
theorem Move.samePlaces (m : Move) (s : State) : s.1.SamePlaces (m.act s).1 := by
  obtain ⟨set, queue, phase, requests⟩ := s
  cases phase with
  | ready =>
      cases m with
      | turn => exact samePlaces_look rfl
      | takeUp => exact samePlaces_takeUp _
      | breakDown => exact .refl set
  | fetching job =>
      cases m with
      | turn => exact set.samePlaces_onSlot job.slot _
      | takeUp | breakDown => exact .refl set
  | delivered =>
      cases m with
      | turn => exact ⟨rfl, rfl⟩
      | takeUp | breakDown => exact .refl set

end Worker

/-- So it is with the current set, whether the worker works on this one or on another. -/
theorem Batches.samePlaces_move (b : Batches) (i : Nat) (m : Worker.Move) :
    b.current.SamePlaces (b.onWorker i m.act).current := by
  cases hWorker : b.workers[i]? with
  | none =>
      rw [onWorker_of_none hWorker]
      exact .refl _
  | some w =>
      rw [current_onWorker hWorker]
      split
      · exact .refl _
      · exact m.samePlaces (b.current, w.worker)

/-- A place for a texture: a local image, a picture of an animation, or a slot for a download. -/
inductive TexturePlace where
  | picture (name : Text)
  | frame (animation : Text) (index : Nat)
  | download (slot : Nat)
deriving DecidableEq, Repr

namespace ImageCache

/-- There is a texture in the place. A slot counts as long as a name leads to it. -/
def Holds (c : ImageCache) : TexturePlace → Prop
  | .picture name => (c.pictures.get? name).isSome = true
  | .frame animation index => ∃ frames, c.animations.get? animation = some frames ∧ index < frames.size
  | .download slot => ∃ name, c.remote.names.get? name = some slot ∧
      (c.remote.texture? name).isSome = true

/-- The number of places where there is a texture. -/
def HoldsTextures (c : ImageCache) (n : Nat) : Prop :=
  ∃ places : List TexturePlace, places.Nodup ∧ (∀ place, place ∈ places ↔ c.Holds place) ∧
    places.length = n

/-- No name has two entries, and no two names lead to one slot. -/
structure Sound (c : ImageCache) : Prop where
  pictures : c.pictures.Distinct
  animations : c.animations.Distinct
  downloads : c.remote.Numbered

/-- The places of the local images. -/
def picturePlaces (c : ImageCache) : List TexturePlace :=
  c.pictures.entries.map fun entry => .picture entry.1

/-- The places of the pictures of all animations. -/
def framePlaces (c : ImageCache) : List TexturePlace :=
  c.animations.entries.flatMap fun entry => (List.range entry.2.size).map (.frame entry.1)

/-- The slots of the downloads that have succeeded. -/
def downloadPlaces (c : ImageCache) : List TexturePlace :=
  (c.remote.names.values.filter fun number =>
    (c.remote.slots[number]?.bind Slot.texture?).isSome).map .download

variable {c c' : ImageCache}

/-- The listed places of local images are those that hold one. -/
theorem mem_picturePlaces_iff (place : TexturePlace) (h : c.pictures.Distinct) :
    place ∈ c.picturePlaces ↔ ∃ name, place = .picture name ∧ c.Holds place := by
  constructor
  · intro hMem
    obtain ⟨entry, hEntry, rfl⟩ := List.mem_map.1 hMem
    exact ⟨entry.1, rfl, Option.isSome_of_eq_some (h.mem_entries_iff.1 hEntry)⟩
  · rintro ⟨name, rfl, hHolds⟩
    obtain ⟨texture, hTexture⟩ := Option.isSome_iff_exists.1 hHolds
    exact List.mem_map.2 ⟨(name, texture), h.mem_entries_iff.2 hTexture, rfl⟩

theorem mem_framePlaces_iff (place : TexturePlace) (h : c.animations.Distinct) :
    place ∈ c.framePlaces ↔ ∃ animation index, place = .frame animation index ∧ c.Holds place := by
  constructor
  · intro hMem
    obtain ⟨entry, hEntry, hPlace⟩ := List.mem_flatMap.1 hMem
    obtain ⟨index, hIndex, rfl⟩ := List.mem_map.1 hPlace
    exact ⟨entry.1, index, rfl, entry.2, h.mem_entries_iff.1 hEntry, List.mem_range.1 hIndex⟩
  · rintro ⟨animation, index, rfl, frames, hFrames, hIndex⟩
    refine List.mem_flatMap.2 ⟨(animation, frames), h.mem_entries_iff.2 hFrames, ?_⟩
    exact List.mem_map_of_mem (List.mem_range.2 hIndex)

/-- The listed slots are those that a name leads to and that have a texture. -/
theorem mem_downloadPlaces_iff (place : TexturePlace) (h : c.remote.Numbered) :
    place ∈ c.downloadPlaces ↔ ∃ slot, place = .download slot ∧ c.Holds place := by
  constructor
  · intro hMem
    obtain ⟨slot, hSlot, rfl⟩ := List.mem_map.1 hMem
    obtain ⟨hValue, hTexture⟩ := List.mem_filter.1 hSlot
    obtain ⟨entry, hEntry, rfl⟩ := List.mem_map.1 hValue
    have hName := h.names.mem_entries_iff.1 hEntry
    refine ⟨entry.2, rfl, entry.1, hName, ?_⟩
    rw [RemoteSet.texture?, RemoteSet.get?, hName]
    exact hTexture
  · rintro ⟨slot, rfl, name, hName, hTexture⟩
    rw [RemoteSet.texture?, RemoteSet.get?, hName] at hTexture
    refine List.mem_map_of_mem (List.mem_filter.2 ⟨?_, hTexture⟩)
    exact List.mem_map.2 ⟨(name, slot), h.names.mem_entries_iff.2 hName, rfl⟩

theorem nodup_picturePlaces (h : c.pictures.Distinct) : c.picturePlaces.Nodup := by
  have hNames : (c.pictures.entries.map Prod.fst).Nodup := h
  have hPlaces := hNames.map (f := TexturePlace.picture) fun _ _ hEq => TexturePlace.picture.inj hEq
  rwa [List.map_map] at hPlaces

/-- No picture of an animation is counted twice. Equal pictures in two places count as two. -/
theorem nodup_framePlaces (h : c.animations.Distinct) : c.framePlaces.Nodup := by
  refine List.nodup_flatMap.2 ⟨fun entry _ => ?_, ?_⟩
  · exact List.nodup_range.map fun _ _ hEq => (TexturePlace.frame.inj hEq).2
  · refine (List.pairwise_map.1 h).imp fun {a b} hNames => ?_
    intro place hPlace hOther
    obtain ⟨_, _, rfl⟩ := List.mem_map.1 hPlace
    obtain ⟨_, _, hEq⟩ := List.mem_map.1 hOther
    exact hNames (TexturePlace.frame.inj hEq).1.symm

/-- No slot is counted twice, since no two names lead to it. -/
theorem nodup_downloadPlaces (h : c.remote.Numbered) : c.downloadPlaces.Nodup :=
  (h.slots.filter _).map fun _ _ hEq => TexturePlace.download.inj hEq

/-- As many pictures are listed as the cache counts. -/
theorem length_framePlaces (c : ImageCache) : c.framePlaces.length = c.frameCount := by
  have hSum (entries : List (Text × FrameSet)) (n : Nat) :
      (entries.map Prod.snd).foldl (fun n frames => n + frames.size) n =
        n + (entries.flatMap fun entry =>
          (List.range entry.2.size).map (TexturePlace.frame entry.1)).length := by
    induction entries generalizing n with
    | nil => rfl
    | cons entry rest ih =>
        rw [List.map_cons, List.foldl_cons, ih, List.flatMap_cons, List.length_append, List.length_map,
          List.length_range, Nat.add_assoc]
  exact ((hSum c.animations.entries 0).trans (Nat.zero_add _)).symm

/-- Giving up the images counts each texture once. -/
theorem Sound.holdsTextures (h : c.Sound) : c.HoldsTextures c.dispose.2 := by
  have hPicture (place : TexturePlace) := mem_picturePlaces_iff place h.pictures
  have hFrame (place : TexturePlace) := mem_framePlaces_iff place h.animations
  have hDownload (place : TexturePlace) := mem_downloadPlaces_iff place h.downloads
  refine ⟨c.picturePlaces ++ c.framePlaces ++ c.downloadPlaces, ?_, fun place => ?_, ?_⟩
  · refine .append (.append (nodup_picturePlaces h.pictures) (nodup_framePlaces h.animations) ?_)
      (nodup_downloadPlaces h.downloads) ?_
    · intro place hLeft hRight
      obtain ⟨_, rfl, -⟩ := (hPicture _).1 hLeft
      obtain ⟨_, _, hEq, -⟩ := (hFrame _).1 hRight
      cases hEq
    · intro place hLeft hRight
      obtain ⟨_, rfl, -⟩ := (hDownload _).1 hRight
      rcases List.mem_append.1 hLeft with hLeft | hLeft
      · obtain ⟨_, hEq, -⟩ := (hPicture _).1 hLeft
        cases hEq
      · obtain ⟨_, _, hEq, -⟩ := (hFrame _).1 hLeft
        cases hEq
  · rw [List.mem_append, List.mem_append, hPicture, hFrame, hDownload]
    cases place <;> simp
  · rw [List.length_append, List.length_append, length_framePlaces, picturePlaces, downloadPlaces,
      List.length_map, List.length_map]
    rfl

/-- A cache is sound at first if the images at hand have distinct names. -/
theorem sound_opened {pictures : NameMap Texture} {animations : NameMap FrameSet}
    (hPictures : pictures.Distinct) (hAnimations : animations.Distinct) :
    (opened pictures animations).Sound :=
  ⟨hPictures, hAnimations, RemoteSet.numbered_empty⟩

/-- After its images have been given up, there is nothing in it that could be counted twice. -/
theorem sound_dispose (c : ImageCache) : c.dispose.1.Sound :=
  ⟨NameMap.distinct_empty, NameMap.distinct_empty, RemoteSet.numbered_empty⟩

/-- Images that are loaded from directories have one name each. -/
theorem sound_load {α : Type} [Scalar α] (settings : Settings α) (sources : ImageSources) :
    (load settings sources).Sound := by
  refine sound_opened ?_ ?_
  · cases sources.images with
    | none => exact NameMap.distinct_empty
    | some directory => exact NameMap.distinct_ofList _
  · cases sources.animations with
    | none => exact NameMap.distinct_empty
    | some directory => exact NameMap.distinct_ofList _

/-- Every event keeps a cache sound, whatever it brings in. -/
theorem Sound.act? (h : c.Sound) {event : Event} (hAct : c.act? event = some c') : c'.Sound := by
  cases event with
  | insertPicture name texture =>
      cases hAct
      exact { h with pictures := h.pictures.insert name texture }
  | insertFrames name frames =>
      cases hAct
      exact { h with animations := h.animations.insert name frames }
  | lookup name =>
      cases hAct
      exact h
  | begin images =>
      obtain ⟨-, hSpawn⟩ := Option.ite_none_left_eq_some.1 hAct
      obtain rfl := Option.some.inj hSpawn
      have hCurrent : (c.onDownloads (Batches.spawn images)).remote =
          (c.remote.register images).1 := by
        unfold onDownloads remote Batches.spawn
        dsimp only
        split <;> rfl
      exact { h with downloads := hCurrent ▸ h.downloads.register images }
  | beginInVain images =>
      obtain ⟨-, hRegister⟩ := Option.ite_none_left_eq_some.1 hAct
      obtain rfl := Option.some.inj hRegister
      exact { h with downloads := h.downloads.register images }
  | wait =>
      obtain ⟨-, hReap⟩ := Option.ite_none_left_eq_some.1 hAct
      obtain rfl := Option.some.inj hReap
      exact { h with }
  | dispose =>
      cases hAct
      exact c.sound_dispose
  | move i m =>
      cases hAct
      exact { h with downloads := h.downloads.of_samePlaces (c.downloads.samePlaces_move i m) }

theorem Sound.run? (h : c.Sound) {events : List Event} (hRun : c.run? events = some c') :
    c'.Sound := by
  induction events generalizing c with
  | nil =>
      cases hRun
      exact h
  | cons event rest ih =>
      obtain ⟨next, hAct, hRest⟩ := Option.bind_eq_some_iff.1 hRun
      exact ih (h.act? hAct) hRest

/-- Whether an event brings in images. -/
def Event.bringsImages : Event → Bool
  | insertPicture .. | insertFrames .. | begin _ | beginInVain _ => true
  | lookup _ | wait | dispose | move .. => false

/-- There is no entry, and no name leads to a slot. -/
structure Bare (c : ImageCache) : Prop where
  pictures : c.pictures = {}
  animations : c.animations = {}
  names : c.remote.names = {}

/-- Giving up the images leaves no entry and no name. -/
theorem bare_dispose (c : ImageCache) : c.dispose.1.Bare :=
  ⟨rfl, rfl, rfl⟩

/-- Where no name leads to a slot, there is nothing to give up, although slots may be filled. -/
theorem Bare.released (h : c.Bare) : c.dispose.2 = 0 := by
  rw [dispose, frameCount, RemoteSet.textureCount, h.pictures, h.animations, h.names]
  rfl

/-- As long as no images are brought in, there are none, although workers may still store some. -/
theorem Bare.act? (h : c.Bare) {event : Event} (hBrings : event.bringsImages = false)
    (hAct : c.act? event = some c') : c'.Bare := by
  cases event with
  | insertPicture | insertFrames | begin | beginInVain => cases hBrings
  | lookup name =>
      cases hAct
      exact h
  | wait =>
      obtain ⟨-, hReap⟩ := Option.ite_none_left_eq_some.1 hAct
      obtain rfl := Option.some.inj hReap
      exact { h with }
  | dispose =>
      cases hAct
      exact c.bare_dispose
  | move i m =>
      cases hAct
      exact { h with names := (c.downloads.samePlaces_move i m).names_eq.trans h.names }

end ImageCache

end Changelog
