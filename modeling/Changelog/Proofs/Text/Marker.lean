import Changelog.Text.Basic
import Mathlib.Data.List.Infix

/-! Where markers stand in a text. Reading a marker finds its first occurrence. A marker whose first
character occurs in it only once cannot run from one text into another that begins with that
character. -/

namespace Changelog.Text

theorem after?_eq_none_iff {marker text : Text} :
    after? marker text = none ↔ ¬marker <+: text := by
  constructor
  · rintro h ⟨rest, rfl⟩
    rw [after?_eq_some_iff.2 rfl] at h
    cases h
  · intro h
    cases hAfter : after? marker text with
    | none => rfl
    | some rest => exact absurd ⟨rest, (after?_eq_some_iff.1 hAfter).symm⟩ h

/-- No marker begins further to the left than the one that a text is cut at. -/
theorem length_le_of_cut? {marker text head tail : Text} (h : cut? marker text = some (head, tail))
    {before after : Text} (hText : text = before ++ marker ++ after) :
    head.length ≤ before.length := by
  induction text generalizing head before with
  | nil =>
      unfold cut? at h
      split at h
      · obtain ⟨rfl, rfl⟩ := by simpa using h
        simp
      · cases h
  | cons c rest ih =>
      unfold cut? at h
      split at h
      · obtain ⟨rfl, rfl⟩ := by simpa using h
        simp
      · rename_i hAfter
        obtain ⟨⟨a, b⟩, hCut, hEq⟩ := Option.map_eq_some_iff.1 h
        obtain ⟨rfl, rfl⟩ := by simpa using hEq
        cases before with
        | nil => exact absurd ⟨after, by simpa using hText.symm⟩ (after?_eq_none_iff.1 hAfter)
        | cons d before =>
            have hRest : rest = before ++ marker ++ after := by
              simpa using (List.cons.inj hText).2
            simpa using ih hCut hRest

/-- A text is cut wherever the marker occurs in it. -/
theorem exists_cut?_of_infix {marker text : Text} (h : marker <:+: text) :
    ∃ head tail, cut? marker text = some (head, tail) := by
  induction text with
  | nil =>
      rw [List.infix_nil] at h
      exact ⟨[], [], by simp [cut?, h]⟩
  | cons c rest ih =>
      unfold cut?
      cases hAfter : after? marker (c :: rest) with
      | some tail => exact ⟨[], tail, rfl⟩
      | none =>
          rcases List.infix_cons_iff.1 h with hPrefix | hInfix
          · exact absurd hPrefix (after?_eq_none_iff.1 hAfter)
          · obtain ⟨head, tail, hCut⟩ := ih hInfix
            exact ⟨c :: head, tail, by simp [hCut]⟩

theorem infix_of_cut? {marker text head tail : Text} (h : cut? marker text = some (head, tail)) :
    marker <:+: text :=
  ⟨head, tail, (eq_of_cut? h).symm⟩

/-- Where a text is cut depends on nothing behind the marker. -/
theorem cut?_append {marker head tail : Text}
    (h : cut? marker (head ++ (marker ++ tail)) = some (head, tail)) (other : Text) :
    cut? marker (head ++ (marker ++ other)) = some (head, other) := by
  have hInfix : marker <:+: head ++ (marker ++ other) := ⟨head, other, by simp⟩
  obtain ⟨head', tail', hCut⟩ := exists_cut?_of_infix hInfix
  have hText := eq_of_cut? hCut
  have hLe := length_le_of_cut? hCut (List.append_assoc head marker other).symm
  -- an earlier occurrence would lie in front of the end of this one, and so in the other text too
  have hSame : head'.length = head.length := by
    refine Nat.le_antisymm hLe ?_
    rw [← List.append_assoc] at hText
    obtain ⟨more, hMore⟩ : head' ++ marker <+: head ++ marker :=
      List.prefix_of_prefix_length_le ⟨tail', hText.symm⟩ ⟨other, rfl⟩ (by simpa using hLe)
    have hEarlier : head ++ (marker ++ tail) = head' ++ marker ++ (more ++ tail) := by
      rw [← List.append_assoc, ← hMore, List.append_assoc]
    exact length_le_of_cut? h hEarlier
  obtain ⟨rfl, hTail⟩ := List.append_inj (hText.trans (List.append_assoc ..)) hSame.symm
  rw [hCut, List.append_cancel_left hTail]

/-- A marker at the front of two texts put together stands in the first one or runs into the
second one. -/
theorem prefix_append_cases {marker a b : Text} (h : marker <+: a ++ b) :
    marker <+: a ∨ ∃ more, more ≠ [] ∧ marker = a ++ more ∧ more <+: b := by
  obtain ⟨rest, hEq⟩ := h
  rcases List.append_eq_append_iff.1 hEq with ⟨more, rfl, _⟩ | ⟨more, hMarker, hRight⟩
  · exact Or.inl (List.prefix_append marker more)
  · cases more with
    | nil => exact Or.inl (by simp [hMarker])
    | cons c more => exact Or.inr ⟨c :: more, by simp, hMarker, ⟨rest, hRight.symm⟩⟩

/-- A marker does not run out of a text whose last character ends no proper beginning of it. -/
theorem prefix_of_getLast?_notMem {marker a b : Text} {c : Char} (h : marker <+: a ++ b)
    (hLast : a.getLast? = some c) (hNot : c ∉ marker.dropLast) : marker <+: a := by
  rcases prefix_append_cases h with hLeft | ⟨more, hMore, rfl, _⟩
  · exact hLeft
  · rw [List.dropLast_append_of_ne_nil hMore] at hNot
    exact absurd (List.mem_append_left _ (List.mem_of_getLast? hLast)) hNot

/-- The marker stands at the `i`-th character of the text. -/
def OccursAt (marker text : Text) (i : Nat) : Prop :=
  marker <+: text.drop i

theorem occursAt_append_length {marker before text : Text} (h : marker <+: text) :
    OccursAt marker (before ++ text) before.length := by
  simpa [OccursAt] using h

/-- The marker begins with an opening bracket and has no other one. -/
def Bracketed (marker : Text) : Prop :=
  ∃ name, marker = '<' :: name ∧ '<' ∉ name

/-- A bracketed marker does not run into a text that begins with a bracket. -/
theorem Bracketed.prefix_of_prefix_append {marker a b : Text} (h : Bracketed marker)
    (hStands : marker <+: a ++ b) (ha : a ≠ []) (hb : b = [] ∨ ∃ rest, b = '<' :: rest) :
    marker <+: a := by
  obtain ⟨name, rfl, hName⟩ := h
  rcases prefix_append_cases hStands with hLeft | ⟨more, hMore, hMarker, hRight⟩
  · exact hLeft
  · obtain ⟨c, a, rfl⟩ := List.exists_cons_of_ne_nil ha
    obtain ⟨d, more, rfl⟩ := List.exists_cons_of_ne_nil hMore
    rcases hb with rfl | ⟨rest, rfl⟩
    · simp at hRight
    · have hd : d = '<' := (List.cons_prefix_cons.1 hRight).1
      have hIn : '<' ∈ name := by
        rw [(List.cons.inj hMarker).2, hd]
        simp
      exact absurd hIn hName

/-- In front of a bracket a bracketed marker is found as if nothing followed; where there is none, the search
goes on at the bracket. -/
theorem Bracketed.cut?_append {marker : Text} (h : Bracketed marker) (a rest : Text) :
    cut? marker (a ++ '<' :: rest) =
      match cut? marker a with
      | some (head, tail) => some (head, tail ++ '<' :: rest)
      | none => (cut? marker ('<' :: rest)).map fun (head, tail) => (a ++ head, tail) := by
  induction a with
  | nil =>
      obtain ⟨name, rfl, _⟩ := h
      simp [cut?]
  | cons c a ih =>
      have hFirst : after? marker (c :: a ++ '<' :: rest) =
          (after? marker (c :: a)).map (· ++ '<' :: rest) := by
        cases hHere : after? marker (c :: a) with
        | some tail =>
            rw [after?_eq_some_iff.1 hHere, List.append_assoc]
            exact after?_eq_some_iff.2 rfl
        | none =>
            refine after?_eq_none_iff.2 fun hPrefix => after?_eq_none_iff.1 hHere ?_
            exact h.prefix_of_prefix_append hPrefix (List.cons_ne_nil _ _) (Or.inr ⟨rest, rfl⟩)
      rw [List.cons_append, cut?, ← List.cons_append, hFirst, cut?, ih]
      cases after? marker (c :: a) with
      | some tail => rfl
      | none => cases cut? marker a <;> simp [Function.comp_def]

end Changelog.Text
