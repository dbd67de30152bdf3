import Changelog.Markup.Tag

/-!
The tags that markup is split by: for each kind its markers, in order of priority. No kind is
registered twice, and no opening marker is empty.
-/

namespace Changelog

/-- The markers of a kind of tag. Without closing marker the tag is the opening marker alone. -/
structure TagDefinition where
  kind : TagKind
  opener : Text
  closer : Option Text
deriving DecidableEq, Repr

namespace TagDefinition

/-- A definition by its markers; an empty closing marker counts as none. -/
def ofMarkers (kind : TagKind) (opener : Text) (closer : Option Text) : TagDefinition :=
  { kind, opener, closer := closer.filter (· ≠ []) }

/-- The usual markers of a kind. -/
def builtin (kind : TagKind) : TagDefinition :=
  { kind, opener := kind.opener, closer := some kind.closer }

/-- What the markers enclose, if the text starts and ends with them. -/
def strip? (d : TagDefinition) (text : Text) : Option Text := do
  let inner ← Text.after? d.opener text
  match d.closer with
  | some closer => Text.before? closer inner
  | none => return inner

/-- The shortest tag at the front of the text, and what follows it. -/
def match? (d : TagDefinition) (text : Text) : Option (Text × Text) := do
  let inner ← Text.after? d.opener text
  match d.closer with
  | none => return (d.opener, inner)
  | some closer =>
    let (body, rest) ← Text.cut? closer inner
    return (d.opener ++ body ++ closer, rest)

theorem eq_append_of_match? {d : TagDefinition} {text tag rest : Text}
    (h : d.match? text = some (tag, rest)) : text = tag ++ rest := by
  obtain ⟨inner, hInner, h⟩ := Option.bind_eq_some_iff.1 h
  rw [Text.after?_eq_some_iff] at hInner
  cases hc : d.closer with
  | none =>
    rw [hc] at h
    obtain ⟨rfl, rfl⟩ := by simpa using h
    exact hInner
  | some closer =>
    rw [hc] at h
    obtain ⟨⟨body, tail⟩, hCut, h⟩ := Option.bind_eq_some_iff.1 h
    obtain ⟨rfl, rfl⟩ := by simpa using h
    rw [hInner, Text.eq_of_cut? hCut]
    simp

theorem opener_length_le_of_match? {d : TagDefinition} {text tag rest : Text}
    (h : d.match? text = some (tag, rest)) : d.opener.length + rest.length ≤ text.length := by
  obtain ⟨inner, hInner, h⟩ := Option.bind_eq_some_iff.1 h
  rw [Text.after?_eq_some_iff] at hInner
  cases hc : d.closer with
  | none =>
    rw [hc] at h
    obtain ⟨rfl, rfl⟩ := by simpa using h
    simp [hInner]
  | some closer =>
    rw [hc] at h
    obtain ⟨⟨body, tail⟩, hCut, h⟩ := Option.bind_eq_some_iff.1 h
    obtain ⟨rfl, rfl⟩ := by simpa using h
    simp only [hInner, Text.eq_of_cut? hCut, List.length_append]
    omega

end TagDefinition

/-- Definitions in order of priority. -/
structure Registry where
  tags : List TagDefinition
  opener_ne : ∀ d ∈ tags, d.opener ≠ []
  kinds_nodup : (tags.map TagDefinition.kind).Nodup

namespace Registry

def empty : Registry :=
  { tags := []
    opener_ne := by simp
    kinds_nodup := by simp }

/-- Replaces the definition of the same kind where it stands, or adds the new one at the end. -/
def putDefinition (d : TagDefinition) : List TagDefinition → List TagDefinition
  | [] => [d]
  | t :: rest => if t.kind = d.kind then d :: rest else t :: putDefinition d rest

theorem mem_putDefinition {d e : TagDefinition} {tags : List TagDefinition}
    (h : e ∈ putDefinition d tags) : e = d ∨ e ∈ tags := by
  induction tags with
  | nil => simpa [putDefinition] using h
  | cons t rest ih =>
    unfold putDefinition at h
    split at h
    · rcases List.mem_cons.1 h with rfl | h
      · exact Or.inl rfl
      · exact Or.inr (List.mem_cons_of_mem _ h)
    · rcases List.mem_cons.1 h with rfl | h
      · exact Or.inr (List.mem_cons_self ..)
      · rcases ih h with h | h
        · exact Or.inl h
        · exact Or.inr (List.mem_cons_of_mem _ h)

theorem nodup_putDefinition {d : TagDefinition} {tags : List TagDefinition}
    (h : (tags.map TagDefinition.kind).Nodup) :
    ((putDefinition d tags).map TagDefinition.kind).Nodup := by
  induction tags with
  | nil => simp [putDefinition]
  | cons t rest ih =>
    obtain ⟨hNot, hRest⟩ := List.nodup_cons.1 (List.map_cons .. ▸ h)
    unfold putDefinition
    split
    · rename_i hk
      simpa [← hk] using ⟨by simpa using hNot, hRest⟩
    · rename_i hk
      rw [List.map_cons, List.nodup_cons]
      refine ⟨fun hMem => ?_, ih hRest⟩
      obtain ⟨e, he, hKind⟩ := List.mem_map.1 hMem
      rcases mem_putDefinition he with rfl | he
      · exact hk hKind.symm
      · exact hNot (hKind ▸ List.mem_map_of_mem he)

/-- Adds a definition, or replaces the one of the same kind in place. A definition with an empty
opening marker is ignored. -/
def register (r : Registry) (d : TagDefinition) : Registry :=
  if h : d.opener = [] then r
  else
    { tags := putDefinition d r.tags
      opener_ne := fun _ he => (mem_putDefinition he).elim (· ▸ h) (r.opener_ne _)
      kinds_nodup := nodup_putDefinition r.kinds_nodup }

/-- The registry of all kinds with their usual markers. -/
def builtin : Registry :=
  (TagKind.all.map TagDefinition.builtin).foldl register empty

/-- The definition of a kind. -/
def definition? (r : Registry) (kind : TagKind) : Option TagDefinition :=
  r.tags.find? fun d => d.kind = kind

/-- The opening markers in order of priority. -/
def openers (r : Registry) : List Text :=
  r.tags.map TagDefinition.opener

/-- The first registered tag that stands at the front of the text, and what follows it. -/
def match? (r : Registry) (text : Text) : Option (TagDefinition × Text × Text) :=
  r.tags.findSome? fun d => (d.match? text).map fun found => (d, found)

theorem mem_tags_of_match? {r : Registry} {text tag rest : Text} {d : TagDefinition}
    (h : r.match? text = some (d, tag, rest)) : d ∈ r.tags ∧ d.match? text = some (tag, rest) := by
  obtain ⟨e, he, hMap⟩ := List.exists_of_findSome?_eq_some h
  obtain ⟨found, hFound, hEq⟩ := Option.map_eq_some_iff.1 hMap
  obtain ⟨rfl, rfl⟩ := by simpa using hEq
  exact ⟨he, hFound⟩

theorem rest_length_lt_of_match? {r : Registry} {text tag rest : Text} {d : TagDefinition}
    (h : r.match? text = some (d, tag, rest)) : rest.length < text.length := by
  obtain ⟨hMem, hMatch⟩ := mem_tags_of_match? h
  have hNe := List.length_pos_iff.2 (r.opener_ne d hMem)
  have hLe := TagDefinition.opener_length_le_of_match? hMatch
  omega

end Registry

end Changelog
