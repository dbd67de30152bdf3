import Changelog.Download.Batches
import Changelog.Image.Directory

/-!
All images of one entry: local images, animations and downloads.
-/

namespace Changelog

/-- The images of an entry by their names. -/
structure ImageCache where
  pictures : NameMap Texture := {}
  animations : NameMap FrameSet := {}
  downloads : Batches := {}
deriving DecidableEq, Repr

/-- What is known about the image of a name. -/
inductive ImageLookup where
  | ready (texture : Texture)
  | remote (status : DownloadStatus)
  | missing
deriving DecidableEq, Repr

/-- The directories that an entry brings along. -/
structure ImageSources where
  images : Option Listing := none
  animations : Option Listing := none

namespace ImageCache

/-- The remote images that can be reached. -/
def remote (c : ImageCache) : RemoteSet :=
  c.downloads.current

/-- Loads the images of the directories. -/
def load {α : Type} [Scalar α] (settings : Settings α) (sources : ImageSources) : ImageCache :=
  { pictures := (sources.images.map (loadImages settings)).getD {}
    animations := (sources.animations.map (loadAnimations settings)).getD {} }

def insertPicture (c : ImageCache) (name : Text) (texture : Texture) : ImageCache :=
  { c with pictures := c.pictures.insert name texture }

def insertFrames (c : ImageCache) (name : Text) (frames : FrameSet) : ImageCache :=
  { c with animations := c.animations.insert name frames }

/-- Lets the downloads act. -/
def onDownloads (c : ImageCache) (act : Batches → Batches) : ImageCache :=
  { c with downloads := act c.downloads }

/-- The image of a name: a local one, or else a remote one. -/
def lookup (c : ImageCache) (name : Text) : ImageLookup :=
  match c.pictures.get? name with
  | some texture => .ready texture
  | none =>
    match c.remote.get? name with
    | some slot =>
      match slot.texture? with
      | some texture => .ready texture
      | none => .remote slot.status
    | none => .missing

/-- The size of the image of a name: a local image, a downloaded one, or the first picture of an
animation. -/
def naturalSize? (c : ImageCache) (name : Text) : Option PixelSize :=
  match c.pictures.get? name with
  | some texture => some texture.size
  | none =>
    match c.remote.texture? name with
    | some texture => some texture.size
    | none => ((c.animations.get? name).bind FrameSet.first?).map Texture.size

/-- Changes with every download that ends. -/
def generation (c : ImageCache) : Nat :=
  c.remote.generation

/-- Number of pictures in all animations. -/
def frameCount (c : ImageCache) : Nat :=
  c.animations.values.foldl (fun n frames => n + frames.size) 0

/-- Number of local images, pictures of animations and remote names. -/
def size (c : ImageCache) : Nat :=
  c.pictures.size + c.frameCount + c.remote.size

/-- Gives up all images; the number of those that were there. -/
def dispose (c : ImageCache) : ImageCache × Nat :=
  ({ downloads := c.downloads.dispose },
    c.pictures.size + c.frameCount + c.remote.textureCount)

end ImageCache

end Changelog
