import Changelog.Proofs.Drawing.Matches
import Changelog.Proofs.Drawing.Occurrences

/-! Annotations whose literal cannot overlap itself. A literal is searched for from left to right without
overlaps, so a place of it can be passed over only if another one begins shortly before. That takes a border,
a part that stands at both ends of the literal. No border ends with the first closing marker, because its
place would not be the first one; so a border could only stand in the display text of a link, where it would
begin with an opening marker. -/

namespace Changelog

namespace Text

variable {literal text before after : Text}

/-- No part of the text but the whole stands at both of its ends. -/
def Unbordered (text : Text) : Prop :=
  ∀ part, part ≠ [] → part <+: text → part <:+ text → part = text

/-- Two places of a literal without borders lie apart. -/
theorem Unbordered.length_le (h : Unbordered literal) {a b : Text}
    (hText : text = before ++ (literal ++ after)) (hAgain : text = a ++ (literal ++ b))
    (hLt : a.length < before.length) :
    a.length + literal.length ≤ before.length := by
  by_contra hOverlap
  obtain ⟨gap, rfl⟩ : a <+: before :=
    List.prefix_of_prefix_length_le ⟨_, hAgain.symm⟩ ⟨_, hText.symm⟩ (Nat.le_of_lt hLt)
  rw [List.length_append] at hLt hOverlap
  have hRest : literal ++ b = gap ++ (literal ++ after) := by
    rw [hAgain, List.append_assoc] at hText
    exact List.append_cancel_left hText
  obtain ⟨part, rfl⟩ : gap <+: literal :=
    List.prefix_of_prefix_length_le ⟨_, hRest.symm⟩ (List.prefix_append ..) (by omega)
  rw [List.append_assoc] at hRest
  rw [List.length_append] at hOverlap
  have hNe : part ≠ [] := List.ne_nil_of_length_pos (by omega)
  have hPrefix : part <+: gap ++ part :=
    List.prefix_of_prefix_length_le ⟨b, List.append_cancel_left hRest⟩ (List.prefix_append ..) (by simp)
  have hWhole := congrArg List.length (h part hNe hPrefix (List.suffix_append ..))
  rw [List.length_append] at hWhole
  omega

/-- A text that begins with a bracket is cut at a marker. What ends with the marker there stands at the front
of the text only if it is all of the text so far. -/
theorem Bracketed.eq_of_suffix {marker front rest part : Text} (h : Bracketed marker)
    (hCut : cut? marker (front ++ (marker ++ rest)) = some (front, rest)) (hFront : front.head? = some '<')
    (hNe : part ≠ []) (hSuffix : part <:+ front ++ marker)
    (hPrefix : part <+: front ++ (marker ++ rest)) : part = front ++ marker := by
  obtain ⟨before, hEnds⟩ := hSuffix
  have hFirst : part.head? = some '<' := by
    obtain ⟨after, hText⟩ := hPrefix
    have hHead := congrArg List.head? hText
    rwa [List.head?_append_of_ne_nil _ hNe, List.head?_append, hFront, Option.some_or] at hHead
  have hEarlier : ∀ gap, gap ++ marker <+: front ++ (marker ++ rest) → front.length ≤ gap.length :=
    fun gap ⟨_, hText⟩ => length_le_of_cut? hCut hText.symm
  rcases List.append_eq_append_iff.1 hEnds with ⟨gap, rfl, rfl⟩ | ⟨gap, rfl, rfl⟩
  · have hLe := hEarlier gap hPrefix
    rw [List.length_append] at hLe
    rw [List.eq_nil_of_length_eq_zero (by omega : before.length = 0), List.nil_append]
  · obtain ⟨name, hMarker, hName⟩ := h
    cases gap with
    | nil =>
        have hLe := hEarlier [] hPrefix
        rw [List.eq_nil_of_length_eq_zero (Nat.le_zero.1 hLe)] at hFront
        cases hFront
    | cons c gap =>
        -- the first character of the part would be a second bracket in the marker
        refine absurd ?_ hName
        rw [← (List.cons.inj hMarker).2]
        exact List.mem_append_right _ (List.mem_of_mem_head? hFirst)

end Text

/-- Since no other place of it can begin shortly before, each place of a literal without borders is
found. -/
theorem DecoratedText.mem_occurrences {literal text before after : Text} (h : Text.Unbordered literal)
    (hNe : literal ≠ []) (hText : text = before ++ (literal ++ after)) :
    Text.byteSize before ∈ occurrences literal text := by
  have hMem : 0 + Text.byteSize before ∈ occurrences literal text :=
    mem_occurrencesFrom hNe hText (Nat.zero_le _) fun _ _ hAgain hLt => h.length_le hText hAgain hLt
  rwa [Nat.zero_add] at hMem

open Annotations

namespace Annotations

variable {text rest : Text} {u : Underline} {l : Link}

/-- An underline ends at the first closing marker behind its opening one. -/
theorem underline?_eq_some_iff :
    underline? text = some (u, rest) ↔ ∃ inner,
      text = underlineOpener ++ inner ∧ Text.cut? underlineCloser inner = some (u.content, rest) := by
  constructor
  · intro h
    obtain ⟨inner, hInner, h⟩ := Option.bind_eq_some_iff.1 h
    obtain ⟨⟨content, tail⟩, hCut, h⟩ := Option.bind_eq_some_iff.1 h
    obtain ⟨rfl, rfl⟩ := by simpa using h
    exact ⟨inner, Text.after?_eq_some_iff.1 hInner, hCut⟩
  · rintro ⟨inner, rfl, hCut⟩
    have hInner : Text.after? underlineOpener (underlineOpener ++ inner) = some inner :=
      Text.after?_eq_some_iff.2 rfl
    simp [underline?, hInner, hCut]

/-- The target of a link ends at the first closing marker behind its opening one. -/
theorem cut?_of_link? (h : link? text = some (l, rest)) :
    ∃ inner tail, Text.cut? linkCloser inner = some (l.target, tail) := by
  obtain ⟨inner, _, h⟩ := Option.bind_eq_some_iff.1 h
  obtain ⟨⟨target, tail⟩, hCut, h⟩ := Option.bind_eq_some_iff.1 h
  dsimp only at h
  split at h
  all_goals
    obtain ⟨rfl, rfl⟩ := by simpa using h
    exact ⟨inner, tail, hCut⟩

end Annotations

namespace AnnotationKind

def closer : AnnotationKind → Text
  | underline => underlineCloser
  | link => linkCloser

theorem bracketed_closer (kind : AnnotationKind) : Text.Bracketed kind.closer := by
  cases kind <;> exact ⟨_, rfl, by decide⟩

/-- No closing marker begins in the opening one. -/
theorem cut?_opener_append (kind : AnnotationKind) (text : Text) :
    Text.cut? kind.closer (kind.opener ++ text) =
      (Text.cut? kind.closer text).map fun (head, tail) => (kind.opener ++ head, tail) := by
  cases kind <;>
    simp [closer, opener, underlineCloser, underlineOpener, linkCloser, linkOpener, Text.cut?, Text.after?,
      Function.comp_def]

end AnnotationKind

namespace Inline

/-- What is written between the opening marker and the first closing one. -/
def inner : Inline → Text
  | underline u => u.content
  | link l => l.target

/-- What is written behind the first closing marker. -/
def tail : Inline → Text
  | underline _ => []
  | link l =>
    match l.display with
    | some display => '(' :: display ++ [')']
    | none => []

/-- An annotation as written, parted at its first closing marker. -/
theorem literal_eq_append (a : Inline) :
    a.literal = a.kind.opener ++ a.inner ++ (a.kind.closer ++ a.tail) := by
  have hBody : a.body = a.inner ++ (a.kind.closer ++ a.tail) := by
    cases a with
    | underline u => exact congrArg (u.content ++ ·) (List.append_nil underlineCloser).symm
    | link l => exact List.append_assoc l.target linkCloser _
  rw [literal_eq, hBody, List.append_assoc]

/-- What stands behind the first closing marker ends with a parenthesis. -/
theorem getLast?_tail {a : Inline} (h : a.tail ≠ []) : a.tail.getLast? = some ')' := by
  cases a with
  | underline u => exact absurd rfl h
  | link l =>
      cases hDisplay : l.display with
      | none => simp [tail, hDisplay] at h
      | some display => simp only [tail, hDisplay, List.getLast?_concat]

end Inline

namespace AnnotationKind

variable {kind : AnnotationKind} {text rest : Text} {a : Inline}

/-- What was read as the content has no closing marker in it. -/
theorem exists_cut?_of_read? (h : kind.read? text = some (a, rest)) :
    ∃ tail, Text.cut? kind.closer (a.inner ++ (kind.closer ++ tail)) = some (a.inner, tail) := by
  have hCut : ∃ inner tail, Text.cut? kind.closer inner = some (a.inner, tail) := by
    cases kind with
    | underline =>
        obtain ⟨⟨u, _⟩, hRead, hEq⟩ := Option.map_eq_some_iff.1 h
        obtain ⟨rfl, rfl⟩ := Prod.mk.inj hEq
        obtain ⟨inner, _, hCut⟩ := underline?_eq_some_iff.1 hRead
        exact ⟨inner, _, hCut⟩
    | link =>
        obtain ⟨⟨l, _⟩, hRead, hEq⟩ := Option.map_eq_some_iff.1 h
        obtain ⟨rfl, rfl⟩ := Prod.mk.inj hEq
        exact cut?_of_link? hRead
  obtain ⟨inner, tail, hCut⟩ := hCut
  refine ⟨tail, ?_⟩
  rw [Text.eq_of_cut? hCut, List.append_assoc] at hCut
  exact hCut

/-- The literal of an annotation that was read is cut behind its content, whatever follows the closing
marker. -/
theorem cut?_of_read? (h : kind.read? text = some (a, rest)) (more : Text) :
    Text.cut? kind.closer (kind.opener ++ a.inner ++ (kind.closer ++ more)) =
      some (kind.opener ++ a.inner, more) := by
  obtain ⟨tail, hCut⟩ := exists_cut?_of_read? h
  rw [List.append_assoc, cut?_opener_append, Text.cut?_append hCut more]
  rfl

/-- What ends an annotation behind its closing marker does not begin as an annotation does, unless an opening
marker stands there. -/
theorem not_prefix_of_suffix_tail {part : Text} (hNe : part ≠ []) (hSuffix : part <:+ a.tail)
    (hTail : ¬ kind.opener <:+: a.tail) : ¬ part <+: kind.opener ++ rest := by
  intro hPrefix
  rcases List.prefix_or_prefix_of_prefix hPrefix (List.prefix_append kind.opener rest) with hShort | hLong
  · obtain ⟨before, hPart⟩ := hSuffix
    have hLast : part.getLast? = some ')' := by
      rw [← List.getLast?_append_of_ne_nil before hNe, hPart]
      exact Inline.getLast?_tail fun hNil => hNe (List.append_eq_nil_iff.1 (hPart.trans hNil)).2
    have hMem : ')' ∈ kind.opener := hShort.subset (List.mem_of_getLast? hLast)
    revert hMem
    cases kind <;> decide
  · exact hTail (hLong.isInfix.trans hSuffix.isInfix)

/-- The only way for an annotation to overlap itself is an opening marker in its display text. -/
theorem unbordered_of_read? (h : kind.read? text = some (a, rest)) (hTail : ¬ kind.opener <:+: a.tail) :
    Text.Unbordered a.literal := by
  have hLiteral : a.literal = kind.opener ++ a.inner ++ (kind.closer ++ a.tail) := by
    rw [Inline.literal_eq_append, (eq_append_of_read? h).1]
  have hFront : (kind.opener ++ a.inner).head? = some '<' := by
    cases kind <;> rfl
  intro part hNe hPrefix hSuffix
  rw [hLiteral] at hPrefix hSuffix ⊢
  have hOutside : ¬ part <:+ a.tail := fun hIn =>
    not_prefix_of_suffix_tail hNe hIn hTail (List.append_assoc .. ▸ hPrefix)
  obtain ⟨before, hEnds⟩ := hSuffix
  rw [← List.append_assoc (kind.opener ++ a.inner)] at hEnds
  -- a border either reaches back over the closing marker or lies behind it
  rcases List.append_eq_append_iff.1 hEnds with ⟨gap, hGap, rfl⟩ | ⟨gap, _, hPart⟩
  · have hGapNe : gap ≠ [] := by
      rintro rfl
      exact hOutside (List.suffix_refl _)
    have hWhole := (bracketed_closer kind).eq_of_suffix (cut?_of_read? h a.tail) hFront hGapNe
      ⟨before, hGap.symm⟩ ((List.prefix_append ..).trans hPrefix)
    rw [hWhole, List.append_assoc]
  · exact absurd ⟨gap, hPart.symm⟩ hOutside

end AnnotationKind

end Changelog
