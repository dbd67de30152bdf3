import Changelog.Geometry
import Changelog.Text.Basic

/-!
The places where links were drawn.
-/

namespace Changelog

/-- A rectangle that opens an address. -/
structure LinkRegion (α : Type) where
  rect : Rect α
  url : Text
deriving Repr

/-- Regions in the order in which they were drawn. A link on several lines has one on each. -/
structure LinkRegions (α : Type) where
  regions : List (LinkRegion α) := []
deriving Repr

namespace LinkRegions

variable {α : Type} [Scalar α]

def push (l : LinkRegions α) (rect : Rect α) (url : Text) : LinkRegions α :=
  ⟨l.regions ++ [⟨rect, url⟩]⟩

/-- The address at a point: where regions overlap, that of the last one drawn. -/
def hitTest? (l : LinkRegions α) (p : Point α) : Option Text :=
  (l.regions.reverse.find? fun region => region.rect.contains p).map LinkRegion.url

def size (l : LinkRegions α) : Nat :=
  l.regions.length

end LinkRegions

end Changelog
