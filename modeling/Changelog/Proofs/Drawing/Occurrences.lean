import Changelog.Drawing.Decorated
import Changelog.Proofs.Text.Slice
import Mathlib.Data.List.Infix

/-! Finding annotations again by the way they are written. Each is given the first occurrence that is
free, so what is found stands in the text and no two of them have a byte in common; sorted by their
places they follow one another. -/

namespace Changelog

namespace Occurrence

/-- The literal stands in the text where it is said to begin. -/
def StandsIn (o : Occurrence) (text : Text) : Prop :=
  Text.StandsAt o.literal text ⟨o.start, o.stop⟩

/-- The occurrences have no byte in common. -/
def Apart (a b : Occurrence) : Prop :=
  a.stop ≤ b.start ∨ b.stop ≤ a.start

theorem Apart.symm {a b : Occurrence} (h : Apart a b) : Apart b a :=
  Or.symm h

/-- The test for a common byte compares the ends, as the specification does. -/
theorem isApart_iff {o : Occurrence} {start : Nat} {literal : Text} :
    o.isApart start literal = true ↔ start + Text.byteSize literal ≤ o.start ∨ o.stop ≤ start := by
  simp [isApart]

theorem start_lt_stop {o : Occurrence} (h : o.literal ≠ []) : o.start < o.stop := by
  have hSize := mt Text.byteSize_eq_zero_iff.1 h
  unfold stop
  omega

end Occurrence

/-- Occurrences of literals that are not empty, each where it is said to be, and apart from one
another. -/
structure Located (text : Text) (found : List Occurrence) : Prop where
  nonempty : ∀ o ∈ found, o.literal ≠ []
  standsIn : ∀ o ∈ found, o.StandsIn text
  apart : found.Pairwise Occurrence.Apart

namespace DecoratedText

variable {literal text before after : Text} {skip offset start : Nat} {found : List Occurrence}

/-- What is found is an occurrence. -/
theorem of_mem_occurrencesFrom {skip offset : Nat} (h : start ∈ occurrencesFrom literal skip offset text) :
    ∃ before after, text = before ++ (literal ++ after) ∧
      start = offset + Text.byteSize before := by
  fun_induction occurrencesFrom literal skip offset text with
  | case1 skip offset hNil =>
      obtain rfl := List.mem_singleton.1 h
      exact ⟨[], [], by simp [hNil], rfl⟩
  | case2 skip offset hNe => cases h
  | case3 offset c rest next skip ih =>
      obtain ⟨before, after, hRest, hStart⟩ := ih h
      refine ⟨c :: before, after, by rw [hRest, List.cons_append], ?_⟩
      rw [hStart, Text.byteSize_cons, Nat.add_assoc]
  | case4 offset c rest next hPrefix ih =>
      rcases List.mem_cons.1 h with rfl | hMem
      · obtain ⟨after, hAfter⟩ := List.isPrefixOf_iff_prefix.1 hPrefix
        exact ⟨[], after, hAfter.symm, rfl⟩
      · obtain ⟨before, after, hRest, hStart⟩ := ih hMem
        refine ⟨c :: before, after, by rw [hRest, List.cons_append], ?_⟩
        rw [hStart, Text.byteSize_cons, Nat.add_assoc]
  | case5 offset c rest next hNot ih =>
      obtain ⟨before, after, hRest, hStart⟩ := ih h
      refine ⟨c :: before, after, by rw [hRest, List.cons_append], ?_⟩
      rw [hStart, Text.byteSize_cons, Nat.add_assoc]

/-- Occurrences are found from left to right. -/
theorem pairwise_occurrencesFrom (literal : Text) (skip offset : Nat) (text : Text) :
    (occurrencesFrom literal skip offset text).Pairwise (· < ·) := by
  fun_induction occurrencesFrom literal skip offset text with
  | case1 => exact List.pairwise_singleton ..
  | case2 => exact List.Pairwise.nil
  | case3 offset c rest next skip ih => exact ih
  | case4 offset c rest next hPrefix ih =>
      refine List.pairwise_cons.2 ⟨fun start hMem => ?_, ih⟩
      obtain ⟨before, _, _, rfl⟩ := of_mem_occurrencesFrom hMem
      have hPos := c.utf8Size_pos
      omega
  | case5 offset c rest next hNot ih => exact ih

/-- An occurrence is counted if none begins before it that reaches into it. -/
theorem mem_occurrencesFrom (hNe : literal ≠ []) (hText : text = before ++ (literal ++ after))
    (hSkip : skip ≤ before.length)
    (hApart : ∀ a b, text = a ++ (literal ++ b) → a.length < before.length →
      a.length + literal.length ≤ before.length) :
    offset + Text.byteSize before ∈ occurrencesFrom literal skip offset text := by
  induction text generalizing before skip offset with
  | nil => exact absurd (List.append_eq_nil_iff.1 (List.append_eq_nil_iff.1 hText.symm).2).1 hNe
  | cons c rest ih =>
      cases before with
      | nil =>
          obtain rfl : skip = 0 := by simpa using hSkip
          have hPrefix := List.isPrefixOf_iff_prefix.2 ⟨after, hText.symm⟩
          rw [occurrencesFrom, if_pos hPrefix]
          exact List.mem_cons_self ..
      | cons d front =>
          obtain ⟨rfl, hRest⟩ := List.cons.inj hText
          have hMem (skip : Nat) (hLe : skip ≤ front.length) :
              offset + Text.byteSize (c :: front) ∈
                occurrencesFrom literal skip (offset + c.utf8Size) rest := by
            rw [Text.byteSize_cons, ← Nat.add_assoc]
            refine ih hRest hLe fun a b hEq hLt => ?_
            have hApart := hApart (c :: a) b (by rw [hEq, List.cons_append]) (by simpa using hLt)
            simp only [List.length_cons] at hApart
            omega
          cases skip with
          | succ skip => exact hMem skip (by simpa using hSkip)
          | zero =>
              by_cases hPrefix : literal.isPrefixOf (c :: rest) = true
              · -- an occurrence begins here, but the search goes on before the one that is meant
                obtain ⟨b, hb⟩ := List.isPrefixOf_iff_prefix.1 hPrefix
                have hFirst := hApart [] b hb.symm (by simp)
                simp only [List.length_nil, List.length_cons, Nat.zero_add] at hFirst
                rw [occurrencesFrom, if_pos hPrefix]
                exact List.mem_cons_of_mem _ (hMem _ (by omega))
              · rw [occurrencesFrom, if_neg hPrefix]
                exact hMem 0 (Nat.zero_le _)

theorem standsAt_of_mem_occurrences (h : start ∈ occurrences literal text) :
    Text.StandsAt literal text ⟨start, start + Text.byteSize literal⟩ := by
  obtain ⟨before, after, hText, hStart⟩ := of_mem_occurrencesFrom h
  rw [Nat.zero_add] at hStart
  exact ⟨before, after, by rw [hText, List.append_assoc], by rw [hStart]⟩

/-- In an ascending list the first number with a property is the least one. -/
theorem find?_eq_first {p : Nat → Bool} {offsets : List Nat} {a : Nat}
    (hSorted : offsets.Pairwise (· < ·)) (hMem : a ∈ offsets) (hHolds : p a = true)
    (hFirst : ∀ b ∈ offsets, b < a → p b = false) : offsets.find? p = some a := by
  obtain ⟨before, after, rfl⟩ := List.append_of_mem hMem
  refine List.find?_eq_some_iff_append.2 ⟨hHolds, before, after, rfl, fun b hb => ?_⟩
  have hLt := (List.pairwise_append.1 hSorted).2.2 b hb a (List.mem_cons_self ..)
  rw [hFirst b (List.mem_append_left _ hb) hLt]
  rfl

/-- The literal at this offset would be apart from everything found so far. -/
def isFree (found : List Occurrence) (literal : Text) (start : Nat) : Bool :=
  found.all fun earlier => earlier.isApart start literal

/-- A place is free if the literal would be apart there from all that was found before. -/
theorem isFree_iff (kind : AnnotationKind) :
    isFree found literal start = true ↔
      ∀ earlier ∈ found, earlier.Apart ⟨start, literal, kind⟩ := by
  simp only [isFree, List.all_eq_true, Occurrence.isApart_iff]
  exact forall₂_congr fun _ _ => or_comm

/-- A literal is given its first free occurrence. -/
theorem locateAll_of_find? {kind : AnnotationKind} {rest : List (Text × AnnotationKind)}
    (h : (occurrences literal text).find? (isFree found literal) = some start) :
    locateAll text found ((literal, kind) :: rest) =
      locateAll text (found ++ [⟨start, literal, kind⟩]) rest := by
  unfold isFree at h
  simp only [locateAll, h]

/-- A literal without a free occurrence is left out, and the others are looked for as if it had not been
asked for. -/
theorem locateAll_of_find?_eq_none {kind : AnnotationKind} {rest : List (Text × AnnotationKind)}
    (h : (occurrences literal text).find? (isFree found literal) = none) :
    (locateAll text found ((literal, kind) :: rest)).value = (locateAll text found rest).value := by
  unfold isFree at h
  simp only [locateAll, h]
  rfl

/-- What is found next is apart from all that was found before. -/
theorem located_append {kind : AnnotationKind} (h : Located text found) (hNe : literal ≠ [])
    (hFind : (occurrences literal text).find? (isFree found literal) = some start) :
    Located text (found ++ [⟨start, literal, kind⟩]) := by
  have hStands := standsAt_of_mem_occurrences (List.mem_of_find?_eq_some hFind)
  have hFree := (isFree_iff kind).1 (List.find?_some hFind)
  refine ⟨?_, ?_, ?_⟩
  · intro o hMem
    rcases List.mem_append.1 hMem with hMem | hMem
    · exact h.nonempty o hMem
    · obtain rfl := List.mem_singleton.1 hMem
      exact hNe
  · intro o hMem
    rcases List.mem_append.1 hMem with hMem | hMem
    · exact h.standsIn o hMem
    · obtain rfl := List.mem_singleton.1 hMem
      exact hStands
  · refine List.pairwise_append.2 ⟨h.apart, List.pairwise_singleton .., fun a ha b hb => ?_⟩
    obtain rfl := List.mem_singleton.1 hb
    exact hFree a ha

/-- Whatever the literals are, what is found stands in the text, and apart. -/
theorem located_locateAll {literals : List (Text × AnnotationKind)}
    (hNe : ∀ l ∈ literals, l.1 ≠ []) (h : Located text found) :
    Located text (locateAll text found literals).value := by
  induction literals generalizing found with
  | nil => exact h
  | cons l rest ih =>
      obtain ⟨literal, kind⟩ := l
      obtain ⟨hFirst, hRest⟩ := List.forall_mem_cons.1 hNe
      cases hFind : (occurrences literal text).find? (isFree found literal) with
      | none =>
          rw [locateAll_of_find?_eq_none hFind]
          exact ih hRest h
      | some start =>
          rw [locateAll_of_find? hFind]
          exact ih hRest (located_append h hFirst hFind)

/-- Sorting loses no occurrence and adds none. -/
theorem inOrder_perm (found : List Occurrence) : (inOrder found).Perm found :=
  List.mergeSort_perm ..

theorem located_nil (text : Text) : Located text [] :=
  ⟨fun _ ho => absurd ho List.not_mem_nil, fun _ ho => absurd ho List.not_mem_nil, List.Pairwise.nil⟩

end DecoratedText

open DecoratedText in
/-- Occurrences that are apart follow one another once they are sorted. -/
theorem Located.pairwise_inOrder {text : Text} {found : List Occurrence} (h : Located text found) :
    (inOrder found).Pairwise fun a b => a.stop ≤ b.start := by
  have hSorted : (inOrder found).Pairwise fun a b => a.start ≤ b.start := by
    have hPairwise : (inOrder found).Pairwise fun a b => decide (a.start ≤ b.start) = true :=
      List.pairwise_mergeSort (fun a b c hab hbc => by simp at *; omega)
        (fun a b => by simp; omega) found
    exact hPairwise.imp fun hLe => of_decide_eq_true hLe
  have hApart : (inOrder found).Pairwise Occurrence.Apart :=
    ((inOrder_perm found).pairwise_iff Occurrence.Apart.symm).2 h.apart
  refine (hSorted.and hApart).imp_of_mem fun {a b} _ hb hBoth => ?_
  have hPos := Occurrence.start_lt_stop (h.nonempty b ((inOrder_perm found).mem_iff.1 hb))
  rcases hBoth.2 with hLe | hLe
  · exact hLe
  · have hLe' := hBoth.1
    omega

end Changelog
