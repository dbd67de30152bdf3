import Changelog.Scalar
import Changelog.Style
import Changelog.Text.Width

/-!
How large text is. Layout asks only for the height of a line and the width of a text on one line.
-/

namespace Changelog

/-- Sizes of text, whatever it is drawn with. -/
structure Measurer (α : Type) where
  lineHeight : FontSize → α
  textWidth : Text → FontSize → α

namespace Measurer

variable {α : Type} [Scalar α]

/-- Size of a font relative to body text. -/
def scale : FontSize → α
  | .tiny => Scalar.ratio 3 4
  | .small => Scalar.ofNat 1
  | .medium => Scalar.ratio 5 4

/-- Text on a grid of equal cells, given the size of a cell for body text. -/
def monospace (cellWidth lineHeight : α) : Measurer α :=
  { lineHeight := fun font => lineHeight * scale font
    textWidth := fun text font => Scalar.ofNat (Text.width text) * cellWidth * scale font }

/-- The grid used where nothing else is asked for. -/
def standard : Measurer α :=
  monospace (Scalar.ofNat 7) (Scalar.ofNat 22)

end Measurer

end Changelog
