import Changelog.Drawing.Renderer
import Changelog.Layout.Animation
import Changelog.Layout.SegmentHeight

/-!
Drawing a segment at the cursor. What is missing leaves the room that was measured for it. There is
no drawing of a sprite sheet with more cells than its machine word counts.
-/

namespace Changelog.Renderer

variable {α : Type} [Scalar α]

/-- What the size of a segment depends on, as the renderer sees it. -/
def env (r : Renderer α) : LayoutEnv α :=
  { settings := r.settings
    images := r.images
    measurer := r.canvas.measurer
    columnWidth := r.columnWidth }

/-- Leaves room for something missing, and reports it. -/
def skipMissing (r : Renderer α) (height : α) (space : Text) (error : ResourceError)
    (name : Text) : Renderer α :=
  (r.notice { severity := .error, key := space ++ name, message := error.message }).skip height

/-- Draws an image: its texture, or the state of its download. -/
def placeImage? (r : Renderer α) (container : Container) : Option (Renderer α) :=
  let height := Scalar.ofNat container.pixelHeight
  match r.images.lookup container.name with
  | .ready texture => some (r.placeTexture texture height Rect.unit).1
  | .remote status =>
    let message := status.text container.name r.elapsed.seconds
    (r.placePlaceholder? (Scalar.ofNat container.width.toNat) height message).map Prod.fst
  | .missing =>
    some (r.skipMissing height ['t', 'e', 'x', 't', 'u', 'r', 'e', ':']
      (.missingImage container.name) container.name)

/-- The number of cells of a sprite sheet. There is none if a 32-bit word does not hold it. -/
def cellCount? (columns rows : Nat) : Option Nat :=
  inWord? UInt32.size (columns * rows)

/-- The columns and rows of a sprite sheet; several pictures are no sheet. -/
def sheet? (container : Container) (frames : FrameSet) : Option (Nat × Nat) :=
  if frames.size = 1 then Container.grid? container.attributes else none

/-- Draws the current picture of an animation, or the current cell of its sprite sheet. -/
def placeFrames? (r : Renderer α) (container : Container) (frames : FrameSet) :
    Option (Renderer α) :=
  let height := Scalar.ofNat container.pixelHeight
  let fps := container.attributes.intOr Attribute.fpsName r.settings.defaultGifFps.toInt32.toInt
  let delay := container.attributes.intOr Attribute.delayName 0
  let index (count : Nat) : Nat :=
    (Animation.frameIndex? r.elapsed.toDouble fps delay count).getD 0
  match sheet? container frames, frames.first? with
  | some (columns, rows), some texture =>
    (cellCount? columns rows).map fun count =>
      (r.placeTexture texture height (Animation.spriteCell (index count) columns rows)).1
  | _, _ =>
    match (frames.get? (index frames.size)).or frames.frames.getLast? with
    | some texture => some (r.placeTexture texture height Rect.unit).1
    | none => some (r.skip height)

/-- Draws an animation. -/
def placeAnimation? (r : Renderer α) (container : Container) : Option (Renderer α) :=
  match r.images.animations.get? container.name with
  | some frames => r.placeFrames? container frames
  | none =>
    some (r.skipMissing (Scalar.ofNat container.pixelHeight) ['f', 'r', 'a', 'm', 'e', 's', ':']
      (.missingFrames container.name) container.name)

/-- Draws a tag. -/
def placeTag? (r : Renderer α) (kind : TagKind) (body : Text) : Option (Renderer α) :=
  match kind with
  | .font | .anchor =>
    let (r, scope) := r.note (r.scope.instruct kind body)
    some { r with scope }
  | .title => some (r.placeTitle body).1
  | .image =>
    let (r, resolved) := r.note (Container.resolveOrReserve kind r.env body)
    match resolved with
    | .ok container => r.placeImage? container
    | .error reserved => some (r.skip (Scalar.ofNat reserved.toNat))
  | .gif =>
    let (r, resolved) := r.note (Container.resolveOrReserve kind r.env body)
    match resolved with
    | .ok container => r.placeAnimation? container
    | .error reserved => some (r.skip (Scalar.ofNat reserved.toNat))

/-- Draws a segment. -/
def placeSegment? (r : Renderer α) (segment : Segment) : Option (Renderer α) :=
  match segment.tag? with
  | some kind => r.placeTag? kind segment.text
  | none => some (r.placeAnnotated segment).1

/-- Draws segments one below the other. -/
def placeSegments? (r : Renderer α) : List Segment → Option (Renderer α)
  | [] => some r
  | segment :: rest => (r.placeSegment? segment).bind fun r => r.placeSegments? rest

end Changelog.Renderer
