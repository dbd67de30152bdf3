import Changelog.Image.Texture

/-!
The size of an image, as the header of a PNG or JPEG file gives it.
-/

namespace Changelog.ImageHeader

/-- The number that bytes write, the highest one first. -/
def number (bytes : List UInt8) : Nat :=
  bytes.foldl (fun n byte => 256 * n + byte.toNat) 0

/-- The number in `count` bytes from offset `start` on. -/
def numberAt (start count : Nat) (bytes : List UInt8) : Nat :=
  number ((bytes.drop start).take count)

/-- A size with no direction empty. -/
def size? (width height : Nat) : Option PixelSize :=
  if 0 < width ∧ 0 < height then some ⟨width, height⟩ else none

def pngSignature : List UInt8 := [0x89, 0x50, 0x4E, 0x47, 0x0D, 0x0A, 0x1A, 0x0A]

/-- The size of a PNG image, which stands in the first chunk. -/
def png? (bytes : List UInt8) : Option PixelSize :=
  if pngSignature.isPrefixOf bytes then size? (numberAt 16 4 bytes) (numberAt 20 4 bytes) else none

/-- Whether a marker opens a frame header. Three markers of the same range do not. -/
def isFrameMarker (marker : UInt8) : Bool :=
  0xC0 ≤ marker && marker ≤ 0xCF && marker != 0xC4 && marker != 0xC8 && marker != 0xCC

/-- The size in the first frame header among the segments of a JPEG image. -/
def frameSize? : List UInt8 → Option PixelSize
  | first :: marker :: high :: low :: rest =>
    if first ≠ 0xFF then none
    else if isFrameMarker marker then size? (numberAt 3 2 rest) (numberAt 1 2 rest)
    else frameSize? (rest.drop (number [high, low] - 2))
  | _ => none
termination_by bytes => bytes.length
decreasing_by
  simp only [List.length_drop, List.length_cons]
  omega

def jpegSignature : List UInt8 := [0xFF, 0xD8]

/-- The size of a JPEG image. -/
def jpeg? (bytes : List UInt8) : Option PixelSize :=
  if jpegSignature.isPrefixOf bytes then frameSize? (bytes.drop 2) else none

/-- The size of the image in a file, if there is one. -/
def read? (bytes : List UInt8) : Option PixelSize :=
  (png? bytes).or (jpeg? bytes)

end Changelog.ImageHeader
