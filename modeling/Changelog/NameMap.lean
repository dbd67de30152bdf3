import Changelog.Text.Basic

/-!
Values by name. A name has at most one value, the one inserted last.
-/

namespace Changelog

/-- Pairs of a name and its value; no name occurs twice. -/
structure NameMap (β : Type) where
  entries : List (Text × β) := []
deriving DecidableEq, Repr

namespace NameMap

variable {β : Type}

def get? (m : NameMap β) (name : Text) : Option β :=
  m.entries.lookup name

def insert (m : NameMap β) (name : Text) (value : β) : NameMap β :=
  ⟨(name, value) :: m.entries.filter fun entry => entry.1 != name⟩

def contains (m : NameMap β) (name : Text) : Bool :=
  (m.get? name).isSome

def size (m : NameMap β) : Nat :=
  m.entries.length

def values (m : NameMap β) : List β :=
  m.entries.map Prod.snd

/-- Inserts the pairs from left to right. -/
def ofList (pairs : List (Text × β)) : NameMap β :=
  pairs.foldl (fun m pair => m.insert pair.1 pair.2) {}

theorem lookup_filter_ne {entries : List (Text × β)} {name other : Text} (h : other ≠ name) :
    (entries.filter fun entry => entry.1 != name).lookup other = entries.lookup other := by
  induction entries with
  | nil => rfl
  | cons entry rest ih =>
    obtain ⟨key, value⟩ := entry
    by_cases hk : key = name
    · have : (other == key) = false := by simpa [hk] using h
      simp [hk, ih, List.lookup_cons, hk ▸ this]
    · simp [hk, ih, List.lookup_cons]

theorem get?_insert (m : NameMap β) (name other : Text) (value : β) :
    (m.insert name value).get? other = if other = name then some value else m.get? other := by
  unfold get? insert
  by_cases h : other = name
  · simp [h]
  · have : (other == name) = false := by simpa using h
    simp [List.lookup_cons, this, h, lookup_filter_ne h]

end NameMap

end Changelog
