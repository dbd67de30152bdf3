import Changelog.Download.RemoteSet

/-! What registering images adds to a set: a pending slot and a job for each of them, in order, and a way
from each name to the slot of the last image of this name. -/

namespace Changelog.RemoteSet

/-- Images may be registered in two parts. -/
theorem register_append (set : RemoteSet) (before after : List RemoteImage) :
    set.register (before ++ after) =
      (((set.register before).1.register after).1,
        (set.register before).2 ++ ((set.register before).1.register after).2) := by
  induction before generalizing set with
  | nil => rfl
  | cons image rest ih =>
      rw [List.cons_append, register, register, ih]
      rfl

/-- Registering adds a pending slot for each image behind those that are there. -/
theorem slots_register (set : RemoteSet) (images : List RemoteImage) :
    (set.register images).1.slots = set.slots ++ images.map fun image => { url := image.url } := by
  induction images generalizing set with
  | nil => exact (List.append_nil _).symm
  | cons image rest ih => simp [register, ih]

/-- The jobs are numbered as the slots are. -/
theorem jobs_register (set : RemoteSet) (images : List RemoteImage) :
    (set.register images).2 =
      (images.zipIdx set.slots.length).map fun own => ⟨own.1.name, own.2⟩ := by
  induction images generalizing set with
  | nil => rfl
  | cons image rest ih => simp [register, ih]

@[simp] theorem generation_register (set : RemoteSet) (images : List RemoteImage) :
    (set.register images).1.generation = set.generation := by
  induction images generalizing set with
  | nil => rfl
  | cons image rest ih => exact ih _

@[simp] theorem disposed_register (set : RemoteSet) (images : List RemoteImage) :
    (set.register images).1.disposed = set.disposed := by
  induction images generalizing set with
  | nil => rfl
  | cons image rest ih => exact ih _

/-- Names that are not registered lead where they led before. -/
theorem get?_names_register_of_ne (set : RemoteSet) {images : List RemoteImage} {name : Text}
    (h : ∀ image ∈ images, image.name ≠ name) :
    (set.register images).1.names.get? name = set.names.get? name := by
  induction images generalizing set with
  | nil => rfl
  | cons image rest ih =>
      obtain ⟨hImage, hRest⟩ := List.forall_mem_cons.1 h
      refine (ih _ hRest).trans ?_
      rw [NameMap.get?_insert, if_neg hImage.symm]

/-- A name leads to the slot of the last image that has it. -/
theorem get?_names_register (set : RemoteSet) (before : List RemoteImage) (image : RemoteImage)
    {after : List RemoteImage} (h : ∀ other ∈ after, other.name ≠ image.name) :
    (set.register (before ++ image :: after)).1.names.get? image.name =
      some (set.slots.length + before.length) := by
  rw [register_append]
  refine (get?_names_register_of_ne _ h).trans ?_
  rw [NameMap.get?_insert, if_pos rfl, slots_register, List.length_append, List.length_map]

end Changelog.RemoteSet
