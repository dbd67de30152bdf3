import Changelog.Download.Slot
import Changelog.NameMap

/-!
The remote images of one entry. Every image that was ever registered keeps its slot; names lead to
the slots that can still be reached.
-/

namespace Changelog

/-- An image by its name in the document and its address. -/
structure RemoteImage where
  name : Text
  url : Text
deriving DecidableEq, Repr

/-- An image to download and the number of its slot. -/
structure Job where
  name : Text
  slot : Nat
deriving DecidableEq, Repr

/-- What a fetch brings: an image of some size, or data that are no image. -/
inductive Body where
  | image (size : PixelSize)
  | other
deriving DecidableEq, Repr

/-- What is behind an address, if it can be fetched. -/
abbrev Fetcher := Text → Option Body

/-- The slots in the order of their registration, and which of them a name leads to. -/
structure RemoteSet where
  slots : List Slot := []
  names : NameMap Nat := {}
  /-- Counts the downloads that have ended. -/
  generation : Nat := 0
  /-- Set once the images are no longer wanted. -/
  disposed : Bool := false
deriving DecidableEq, Repr

namespace RemoteSet

/-- Adds a pending slot for each image; a name leads to its newest slot. -/
def register (set : RemoteSet) : List RemoteImage → RemoteSet × List Job
  | [] => (set, [])
  | image :: rest =>
    let number := set.slots.length
    let set : RemoteSet := { set with
      slots := set.slots ++ [{ url := image.url : Slot }]
      names := set.names.insert image.name number }
    let (set, jobs) := set.register rest
    (set, ⟨image.name, number⟩ :: jobs)

/-- The slot that a name leads to. -/
def get? (set : RemoteSet) (name : Text) : Option Slot :=
  (set.names.get? name).bind fun number => set.slots[number]?

def status? (set : RemoteSet) (name : Text) : Option DownloadStatus :=
  (set.get? name).map Slot.status

/-- The texture of a name, once its download has succeeded. -/
def texture? (set : RemoteSet) (name : Text) : Option Texture :=
  (set.get? name).bind Slot.texture?

/-- Number of names. -/
def size (set : RemoteSet) : Nat :=
  set.names.size

/-- Number of names whose texture is there. -/
def textureCount (set : RemoteSet) : Nat :=
  (set.names.values.filter fun number =>
    (set.slots[number]?.bind Slot.texture?).isSome).length

/-- Forgets all names and tells the worker to stop. -/
def clear (set : RemoteSet) : RemoteSet :=
  { set with names := {}, disposed := true }

/-- Applies an operation to a slot; a number without slot gives `false`. -/
def onSlot (set : RemoteSet) (number : Nat) (operation : Slot → Slot × Bool) : RemoteSet × Bool :=
  match set.slots[number]? with
  | some slot =>
    let (slot, done) := operation slot
    ({ set with slots := set.slots.set number slot }, done)
  | none => (set, false)

/-- The address of a job. -/
def url (set : RemoteSet) (job : Job) : Text :=
  (set.slots[job.slot]?.map Slot.url).getD []

/-- Takes up a job, unless it was taken up before. -/
def start (set : RemoteSet) (job : Job) : RemoteSet × Bool :=
  set.onSlot job.slot fun slot => slot.advance .pending .inProgress

/-- Ends a job with what its fetch brought. The texture takes the name of the job. -/
def deliver (set : RemoteSet) (job : Job) (body : Option Body) : RemoteSet :=
  (set.onSlot job.slot fun slot =>
    match body with
    | some (.image size) => slot.complete ⟨job.name, size⟩
    | _ => slot.fail).1

/-- Counts a download that has ended. -/
def count (set : RemoteSet) : RemoteSet :=
  { set with generation := set.generation + 1 }

end RemoteSet

end Changelog
