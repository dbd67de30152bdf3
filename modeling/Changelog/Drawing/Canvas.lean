import Changelog.Drawing.Measurer
import Changelog.Geometry
import Changelog.Color

/-!
The surface that is drawn on. It records what is drawn and knows where the pointer is.
-/

namespace Changelog

/-- The look of a text. -/
structure TextStyle where
  font : FontSize
  color : Color := .white
  bold : Bool := false
deriving DecidableEq, Repr

/-- Something drawn. -/
inductive DrawOp (α : Type) where
  /-- A line of text from its upper left corner on. -/
  | text (position : Point α) (text : Text) (style : TextStyle)
  /-- The part `source` of a texture, in coordinates from 0 to 1, stretched over a rectangle. -/
  | texture (rect : Rect α) (name : Text) (source : Rect α)
  | line (start stop : Point α) (color : Color)
  /-- A box with a message, in place of an image. -/
  | placeholder (rect : Rect α) (message : Text)
  /-- A text that is shown while the pointer rests on a rectangle. -/
  | tooltip (rect : Rect α) (text : Text)
deriving Repr

/-- What was drawn and opened so far, and the state of the pointer. -/
structure Canvas (α : Type) where
  measurer : Measurer α
  mouse : Option (Point α) := none
  /-- A press of the pointer that nothing has reacted to yet. -/
  click : Option (Point α) := none
  ops : List (DrawOp α) := []
  opened : List Text := []

namespace Canvas

variable {α : Type} [Scalar α]

def draw (c : Canvas α) (op : DrawOp α) : Canvas α :=
  { c with ops := c.ops ++ [op] }

/-- Presses the pointer at a point. -/
def clickAt (c : Canvas α) (p : Point α) : Canvas α :=
  { c with mouse := some p, click := some p }

def isHovered (c : Canvas α) (rect : Rect α) : Bool :=
  c.mouse.any rect.contains

/-- Opens the address if the rectangle was clicked; a click counts once. -/
def openIfClicked (c : Canvas α) (rect : Rect α) (url : Text) : Canvas α :=
  if c.click.any rect.contains then { c with click := none, opened := c.opened ++ [url] } else c

end Canvas

end Changelog
