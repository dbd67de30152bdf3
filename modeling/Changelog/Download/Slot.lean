import Changelog.Image.Texture

/-!
One image to be downloaded. Its status only moves forward, from pending over in progress to success
or failure, and its texture is stored at most once, before the status becomes success.
-/

namespace Changelog

/-- How far a download is. -/
inductive DownloadStatus where
  /-- No worker has come to it yet. -/
  | pending
  | inProgress
  | success
  | failed
deriving DecidableEq, Repr

namespace DownloadStatus

def isTerminal : DownloadStatus → Bool
  | success | failed => true
  | pending | inProgress => false

/-- The steps that a download may take. -/
def canAdvanceTo : DownloadStatus → DownloadStatus → Bool
  | pending, inProgress | inProgress, success | inProgress, failed => true
  | _, _ => false

/-- What is shown in place of an image. While it is loading, the dots grow by one each second, from
one to three and over again. -/
def text (key : Text) (status : DownloadStatus) (elapsedSeconds : Nat) : Text :=
  key ++ match status with
  | pending => " waiting to download".toList
  | inProgress => " loading".toList ++ List.replicate (elapsedSeconds % 3 + 1) '.'
  | success => " successfully loaded.".toList
  | failed => " failed to load.".toList

end DownloadStatus

/-- An image to be downloaded, shared by a worker and all readers. -/
structure Slot where
  url : Text
  status : DownloadStatus := .pending
  stored : Option Texture := none
deriving DecidableEq, Repr

namespace Slot

/-- The texture that readers see: the stored one, once the download has succeeded. -/
def texture? (s : Slot) : Option Texture :=
  if s.status = .success then s.stored else none

/-- Replaces the status if it is the expected one. -/
def swapStatus (s : Slot) (expected status : DownloadStatus) : Slot × Bool :=
  if s.status = expected then ({ s with status }, true) else (s, false)

/-- Stores a texture unless there is one already. -/
def store (s : Slot) (texture : Texture) : Slot × Bool :=
  match s.stored with
  | none => ({ s with stored := some texture }, true)
  | some _ => (s, false)

/-- Moves the status forward, if it is the expected one. -/
def advance (s : Slot) (expected status : DownloadStatus) : Slot × Bool :=
  if expected.canAdvanceTo status then s.swapStatus expected status else (s, false)

/-- Stores the texture of a download in progress, then marks it as a success. -/
def complete (s : Slot) (texture : Texture) : Slot × Bool :=
  if s.status = .inProgress then
    match s.store texture with
    | (s, true) => s.advance .inProgress .success
    | (s, false) => (s, false)
  else (s, false)

/-- Marks a download in progress as a failure. -/
def fail (s : Slot) : Slot × Bool :=
  s.advance .inProgress .failed

end Slot

end Changelog
