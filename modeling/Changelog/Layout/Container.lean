import Changelog.Attribute
import Changelog.Drawing.Measurer
import Changelog.Image.Cache

/-!
The bodies of image and animation tags: `attributes>name`. The width is that of the column unless
it is given. The height follows the proportions of the image unless it is given; an image of
unknown proportions gets a square.
-/

namespace Changelog

/-- What the size of a segment depends on. -/
structure LayoutEnv (α : Type) where
  settings : Settings α
  images : ImageCache
  measurer : Measurer α
  columnWidth : α

namespace LayoutEnv

variable {α : Type} [Scalar α]

/-- The environment of a column of the usual width. -/
def standard (settings : Settings α) (images : ImageCache) (measurer : Measurer α) : LayoutEnv α :=
  { settings, images, measurer, columnWidth := settings.columnWidth }

/-- Width of an image that has none of its own: the column, rounded down. -/
def containerWidth (env : LayoutEnv α) : Int :=
  saturateSigned32 (Scalar.floor (Scalar.larger env.columnWidth Scalar.zero))

end LayoutEnv

/-- A body without the `>` that ends its attributes. -/
inductive StructuralError where
  | missingSeparator (text : Text)
deriving DecidableEq, Repr

def StructuralError.message : StructuralError → String
  | missingSeparator text =>
    "container body " ++ String.ofList (Text.quoted text) ++ " has no '>' separator"

/-- The notice about a body that cannot be read. -/
def StructuralError.notice (kind : TagKind) : StructuralError → Notice
  | e@(missingSeparator text) =>
    { severity := .error
      key := ['s', 't', 'r', 'u', 'c', 't', 'u', 'r', 'e', ':'] ++ kind.name ++ ':' :: text
      message := e.message }

/-- A body with its size. -/
structure Container where
  name : Text
  width : Int
  height : Int
  attributes : Attributes
deriving DecidableEq, Repr

namespace Container

/-- The attributes of image tags. -/
def imageAttributes : List AttributeSpec :=
  [⟨Attribute.widthName, .int⟩, ⟨Attribute.heightName, .int⟩]

/-- The attributes of animation tags that are recognised directly. -/
def gifAttributes : List AttributeSpec :=
  imageAttributes ++ [⟨Attribute.sizeName, .dimensions⟩]

/-- Takes the two attributes of animations that are about time. -/
def animationHook : Attribute.Hook := fun name value =>
  if name = Attribute.fpsName ∨ name = Attribute.delayName then
    some (Attribute.convert name value .int)
  else none

/-- How the attributes of a kind of tag are read. -/
def grammar (kind : TagKind) : Attribute.Grammar :=
  match kind with
  | .gif => { recognized := gifAttributes, hook := animationHook, tag := kind }
  | _ => { recognized := imageAttributes, tag := kind }

/-- The attributes and the name of a body: the name ends at the next `>` or `<`. -/
def split? (body : Text) : Option (Text × Text) :=
  (Text.splitOnce? (· == '>') body).map fun (bracket, rest) =>
    (bracket, Text.trim ((rest.takeWhile (· != '>')).takeWhile (· != '<')))

/-- The positive columns and rows of a sprite sheet. -/
def grid? (attributes : Attributes) : Option (Nat × Nat) :=
  match attributes.dimensions? Attribute.sizeName with
  | some (columns, rows) =>
    if 0 < columns ∧ 0 < rows then some (columns.toNat, rows.toNat) else none
  | none => none

variable {α : Type} [Scalar α]

/-- Height over width of the first picture of an animation, or of one cell if a single picture is a
sprite sheet. -/
def frameAspect? (frames : FrameSet) (attributes : Attributes) : Option α := do
  let first ← frames.first?
  let width : α := Scalar.ofNat first.size.width
  let height : α := Scalar.ofNat first.size.height
  let (width, height) :=
    match decide (frames.size = 1), grid? attributes with
    | true, some (columns, rows) => (width / Scalar.ofNat columns, height / Scalar.ofNat rows)
    | _, _ => (width, height)
  if Scalar.zero < width then some (height / width) else none

/-- Height over width of an image, if both are known. -/
def imageAspect? (size : PixelSize) : Option α :=
  let width : α := Scalar.ofNat size.width
  if Scalar.zero < width then some (Scalar.ofNat size.height / width) else none

/-- Height over width of what a tag shows, if it is known. -/
def aspect? (kind : TagKind) (env : LayoutEnv α) (name : Text) (attributes : Attributes) :
    Option α :=
  match kind with
  | .gif => (env.images.animations.get? name).bind fun frames => frameAspect? frames attributes
  | _ => (env.images.naturalSize? name).bind imageAspect?

/-- The size of a body whose attributes were read. -/
def ofAttributes (kind : TagKind) (env : LayoutEnv α) (name : Text) (attributes : Attributes) :
    Container :=
  let width := attributes.intOr Attribute.widthName env.containerWidth
  let height :=
    match attributes.get? Attribute.heightName with
    | some (.int declared) => declared
    | _ =>
      match aspect? kind env name attributes with
      | some aspect => saturateSigned32 (Scalar.ceil (aspect * Scalar.ofInt width))
      | none => width
  { name, width, height, attributes }

/-- Reads a body and finds its size. -/
def resolve (kind : TagKind) (env : LayoutEnv α) (body : Text) :
    Noted (Except StructuralError Container) :=
  match split? body with
  | none => pure (.error (.missingSeparator body))
  | some (bracket, name) => do
    let attributes ←
      if Text.isAllBlank bracket then pure {} else (grammar kind).parse bracket
    return .ok (ofAttributes kind env name attributes)

/-- The height that is kept free; a negative one counts as zero. -/
def pixelHeight (c : Container) : Nat :=
  c.height.toNat

/-- Reads a body. For one that cannot be read there is a notice and a height to keep free. -/
def resolveOrReserve (kind : TagKind) (env : LayoutEnv α) (body : Text) :
    Noted (Except UInt32 Container) := do
  match ← resolve kind env body with
  | .ok container => return .ok container
  | .error e =>
    Noted.tell (e.notice kind)
    return .error env.settings.previewImageHeight

/-- The height that a body takes. -/
def occupiedHeight (kind : TagKind) (env : LayoutEnv α) (body : Text) : Noted UInt32 := do
  match ← resolveOrReserve kind env body with
  | .ok container => return UInt32.ofNat container.pixelHeight
  | .error reserved => return reserved

end Container

end Changelog
