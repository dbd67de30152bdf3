import Changelog.Text.Quoted

/-!
Decoded images. Their pixels play no part in layout, so an image is its name and its size.
-/

namespace Changelog

/-- Pixels in both directions. -/
structure PixelSize where
  width : Nat
  height : Nat
deriving DecidableEq, Repr

/-- A decoded image. -/
structure Texture where
  name : Text
  size : PixelSize
deriving DecidableEq, Repr

/-- The pictures of an animation, in order. -/
structure FrameSet where
  frames : List Texture := []
deriving DecidableEq, Repr

namespace FrameSet

def get? (f : FrameSet) (index : Nat) : Option Texture :=
  f.frames[index]?

def first? (f : FrameSet) : Option Texture :=
  f.frames.head?

def size (f : FrameSet) : Nat :=
  f.frames.length

end FrameSet

/-- Why an image is not to be had. -/
inductive ResourceError where
  /-- A file or directory cannot be read. -/
  | unreadable (path : Text) (reason : String)
  /-- The data are no image. -/
  | undecodable (name : Text) (reason : String)
  | unfetched (url : Text) (reason : String)
  | missingImage (name : Text)
  | missingFrames (name : Text)
deriving DecidableEq, Repr

def ResourceError.message : ResourceError → String
  | unreadable path reason =>
    "failed to read " ++ String.ofList (Text.quoted path) ++ ": " ++ reason
  | undecodable name reason =>
    "unable to decode " ++ String.ofList name ++ " into a texture: " ++ reason
  | unfetched url reason => "failed to download " ++ String.ofList url ++ ": " ++ reason
  | missingImage name => "failed to retrieve cached texture for " ++ String.ofList name
  | missingFrames name => "failed to retrieve animated frames for " ++ String.ofList name

end Changelog
