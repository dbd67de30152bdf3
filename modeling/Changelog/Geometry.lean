import Changelog.Scalar

/-!
Points and rectangles in layout units. The vertical axis points down.
-/

namespace Changelog

/-- A point, or a displacement. -/
structure Point (α : Type) where
  x : α
  y : α
deriving Repr

/-- A rectangle by its upper left corner and its extent. -/
structure Rect (α : Type) where
  x : α
  y : α
  width : α
  height : α
deriving Repr

namespace Rect

variable {α : Type} [Scalar α]

/-- A whole texture, in coordinates from 0 to 1. -/
def unit : Rect α := ⟨Scalar.zero, Scalar.zero, Scalar.ofNat 1, Scalar.ofNat 1⟩

def right (r : Rect α) : α := r.x + r.width

def bottom (r : Rect α) : α := r.y + r.height

/-- The right and the lower edge do not belong to the rectangle. -/
def contains (r : Rect α) (p : Point α) : Bool :=
  r.x ≤ p.x && p.x < r.right && r.y ≤ p.y && p.y < r.bottom

end Rect

end Changelog
