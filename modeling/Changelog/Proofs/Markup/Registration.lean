import Changelog.Markup.Registry
import Mathlib.Data.List.Basic
import Mathlib.Data.List.Induction

/-! What a registry holds after any registrations. A kind stands where it was registered first, with the
markers that were registered last. Definitions with an empty opening marker do not count. -/

namespace Changelog

/-- A list that ends with `x` is divided at its last item, or at an item before it. -/
theorem concat_eq_append_cons_iff {α : Type} {l before after : List α} {x y : α} :
    l ++ [x] = before ++ y :: after ↔
      (before = l ∧ y = x ∧ after = []) ∨ ∃ more, l = before ++ y :: more ∧ after = more ++ [x] := by
  constructor
  · intro h
    rcases List.eq_nil_or_concat after with rfl | ⟨more, last, rfl⟩
    · obtain ⟨hBefore, hLast⟩ := List.append_inj' h rfl
      exact .inl ⟨hBefore.symm, (List.singleton_inj.1 hLast).symm, rfl⟩
    · have hText : l ++ [x] = (before ++ y :: more) ++ [last] := by simpa using h
      obtain ⟨hFront, hLast⟩ := List.append_inj' hText rfl
      obtain rfl := List.singleton_inj.1 hLast
      exact .inr ⟨more, hFront, List.concat_eq_append⟩
  · rintro (⟨rfl, rfl, rfl⟩ | ⟨more, rfl, rfl⟩)
    · rfl
    · simp

namespace Registry

variable {d e : TagDefinition} {tags definitions : List TagDefinition} {r : Registry}

/-- The registry after some registrations, from the first one on. -/
def ofDefinitions (definitions : List TagDefinition) : Registry :=
  definitions.foldl register empty

/-- The definitions that are not ignored. -/
def usable (definitions : List TagDefinition) : List TagDefinition :=
  definitions.filter fun d => d.opener ≠ []

/-- The definition is listed, and none behind it has its kind. -/
def LastOfKind (definitions : List TagDefinition) (d : TagDefinition) : Prop :=
  ∃ before after, definitions = before ++ d :: after ∧ ∀ later ∈ after, later.kind ≠ d.kind

/-- The tags that some registrations leave behind. -/
structure Registered (definitions tags : List TagDefinition) : Prop where
  /-- The kinds, each where it was registered first. -/
  order : tags.map TagDefinition.kind = ((usable definitions).map TagDefinition.kind).eraseDups
  /-- The markers of each kind are those registered last. -/
  latest (d : TagDefinition) : d ∈ tags ↔ LastOfKind (usable definitions) d

/-- One more definition is the last of its kind, and the last ones of other kinds stay. -/
theorem lastOfKind_concat_iff :
    LastOfKind (definitions ++ [d]) e ↔ e = d ∨ LastOfKind definitions e ∧ e.kind ≠ d.kind := by
  simp only [LastOfKind, concat_eq_append_cons_iff]
  constructor
  · rintro ⟨before, after, ⟨-, rfl, -⟩ | ⟨more, hSplit, rfl⟩, hLater⟩
    · exact .inl rfl
    · obtain ⟨hMore, hLast⟩ := List.forall_mem_append.1 hLater
      exact .inr ⟨⟨before, more, hSplit, hMore⟩, Ne.symm (hLast d (List.mem_singleton_self d))⟩
  · rintro (rfl | ⟨⟨before, after, hSplit, hLater⟩, hKind⟩)
    · exact ⟨definitions, [], .inl ⟨rfl, rfl, rfl⟩, by simp⟩
    · refine ⟨before, after ++ [d], .inr ⟨after, hSplit, rfl⟩, ?_⟩
      exact List.forall_mem_append.2 ⟨hLater, by simpa using Ne.symm hKind⟩

/-- A kind that is there keeps its place, a new one comes last. -/
theorem map_kind_putDefinition (d : TagDefinition) (tags : List TagDefinition) :
    (putDefinition d tags).map TagDefinition.kind =
      if d.kind ∈ tags.map TagDefinition.kind then tags.map TagDefinition.kind
      else tags.map TagDefinition.kind ++ [d.kind] := by
  induction tags with
  | nil => simp [putDefinition]
  | cons t rest ih =>
      by_cases hKind : t.kind = d.kind
      · simp [putDefinition, hKind]
      · simp only [putDefinition, if_neg hKind, List.map_cons, ih, List.mem_cons, Ne.symm hKind,
          false_or]
        split <;> simp

/-- The definition takes the place of the one of its kind. -/
theorem mem_putDefinition_iff (h : (tags.map TagDefinition.kind).Nodup) :
    e ∈ putDefinition d tags ↔ e = d ∨ e ∈ tags ∧ e.kind ≠ d.kind := by
  induction tags with
  | nil => simp [putDefinition]
  | cons t rest ih =>
      obtain ⟨hNot, hRest⟩ := List.nodup_cons.1 (List.map_cons .. ▸ h)
      by_cases hKind : t.kind = d.kind
      · -- kinds are distinct, so no other tag is replaced
        have hOther : e ∈ rest → e.kind ≠ d.kind := fun he hSame =>
          hNot (List.mem_map.2 ⟨e, he, hSame.trans hKind.symm⟩)
        simp only [putDefinition, if_pos hKind, List.mem_cons]
        grind
      · simp only [putDefinition, if_neg hKind, List.mem_cons, ih hRest]
        grind

theorem tags_register (r : Registry) (d : TagDefinition) :
    (r.register d).tags = if d.opener = [] then r.tags else putDefinition d r.tags := by
  unfold register
  split <;> rfl

theorem usable_concat (definitions : List TagDefinition) (d : TagDefinition) :
    usable (definitions ++ [d]) =
      if d.opener = [] then usable definitions else usable definitions ++ [d] := by
  by_cases hOpener : d.opener = [] <;> simp [usable, hOpener]

/-- An item at the end counts only if it is a new one. -/
theorem eraseDups_concat {α : Type} [BEq α] [LawfulBEq α] (l : List α) (x : α) [Decidable (x ∈ l)] :
    (l ++ [x]).eraseDups = if x ∈ l then l.eraseDups else l.eraseDups ++ [x] := by
  rw [List.eraseDups_append]
  by_cases hMem : x ∈ l <;> simp [List.removeAll, List.eraseDups_cons, hMem]

/-- One more registration, on a registry that is as said. -/
theorem Registered.register (h : Registered definitions r.tags) (d : TagDefinition) :
    Registered (definitions ++ [d]) (r.register d).tags := by
  rw [tags_register]
  by_cases hOpener : d.opener = []
  · rw [if_pos hOpener]
    exact ⟨by rw [usable_concat, if_pos hOpener, h.order],
      fun e => by rw [usable_concat, if_pos hOpener, h.latest]⟩
  · rw [if_neg hOpener]
    have hUsable : usable (definitions ++ [d]) = usable definitions ++ [d] := by
      rw [usable_concat, if_neg hOpener]
    refine ⟨?_, fun e => ?_⟩
    · -- a kind that is there keeps its place, a new one comes last
      simp only [map_kind_putDefinition, hUsable, List.map_append, List.map_singleton, eraseDups_concat,
        h.order, List.mem_eraseDups]
    · rw [mem_putDefinition_iff r.kinds_nodup, h.latest, hUsable, lastOfKind_concat_iff]

/-- After any registrations a registry is as said. -/
theorem registered_ofDefinitions (definitions : List TagDefinition) :
    Registered definitions (ofDefinitions definitions).tags := by
  induction definitions using List.reverseRecOn with
  | nil => exact ⟨by simp [ofDefinitions, empty, usable], by simp [ofDefinitions, empty, usable, LastOfKind]⟩
  | append_singleton definitions d ih =>
      have hStep : ofDefinitions (definitions ++ [d]) = (ofDefinitions definitions).register d :=
        List.foldl_concat ..
      rw [hStep]
      exact ih.register d

end Registry

end Changelog
