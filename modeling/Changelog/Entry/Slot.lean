import Changelog.Entry.Open

/-!
The place of the active entry. An entry that leaves it is closed.
-/

namespace Changelog

/-- The active entry, if there is one. -/
structure EntrySlot (α : Type) where
  active : Option (Entry α) := none

/-- What has left the place: the entry as it is after closing, and the number of its images. -/
structure Departure (α : Type) where
  entry : Option (Entry α) := none
  released : Nat := 0

namespace EntrySlot

variable {α : Type} [Scalar α]

/-- What the active entry leaves behind when it is closed. -/
def departure (s : EntrySlot α) : Departure α :=
  match s.active with
  | some entry =>
    let (entry, released) := entry.close
    { entry := some entry, released }
  | none => {}

/-- Closes and removes the active entry. -/
def close (s : EntrySlot α) : EntrySlot α × Departure α :=
  ({}, s.departure)

/-- Makes an entry the active one and closes the one before. -/
def replace (s : EntrySlot α) (entry : Entry α) : EntrySlot α × Departure α :=
  ({ active := some entry }, s.departure)

/-- Closes the active entry and leaves it in its place; the number of images given up. -/
def closeActive (s : EntrySlot α) : EntrySlot α × Option Nat :=
  match s.active with
  | some entry =>
    let (entry, released) := entry.close
    ({ active := some entry }, some released)
  | none => (s, none)

end EntrySlot

end Changelog
