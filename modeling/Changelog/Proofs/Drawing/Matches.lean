import Changelog.Drawing.Decorated
import Changelog.Proofs.Text.Marker
import Changelog.Proofs.Text.Slice

/-! The places of the annotations in a text. An annotation is flat if no opening marker stands in it but
its own. Where all annotations are flat, an opening marker inside one of them is the one that it begins
with; therefore annotations of different kinds lie apart. -/

namespace Changelog

open Annotations

/-- An annotation as it is read from a text. -/
inductive Inline where
  | underline (u : Underline)
  | link (l : Link)
deriving DecidableEq, Repr

namespace AnnotationKind

theorem forall_iff {p : AnnotationKind → Prop} :
    (∀ kind : AnnotationKind, p kind) ↔ p underline ∧ p link :=
  ⟨fun h => ⟨h _, h _⟩, fun h kind => by cases kind <;> simp [h]⟩

def opener : AnnotationKind → Text
  | underline => underlineOpener
  | link => linkOpener

/-- Reads an annotation of the kind at the front of a text. -/
def read? (kind : AnnotationKind) (text : Text) : Option (Inline × Text) :=
  match kind with
  | underline => (underline? text).map fun (u, rest) => (.underline u, rest)
  | link => (link? text).map fun (l, rest) => (.link l, rest)

/-- The annotations of the kind in a text, from left to right. -/
def annotations (kind : AnnotationKind) (text : Text) : List Inline :=
  match kind with
  | underline => (underlines text).map .underline
  | link => (links text).map .link

end AnnotationKind

namespace Inline

def kind : Inline → AnnotationKind
  | underline _ => .underline
  | link _ => .link

/-- The annotation as written. -/
def literal : Inline → Text
  | underline u => u.literal
  | link l => l.literal

/-- What is written behind the opening marker. -/
def body : Inline → Text
  | underline u => u.content ++ underlineCloser
  | link l =>
    l.target ++ linkCloser ++
      match l.display with
      | some display => '(' :: display ++ [')']
      | none => []

/-- No opening marker occurs behind the annotation's own one. -/
def IsFlat (a : Inline) : Prop :=
  ∀ kind : AnnotationKind, ¬kind.opener <:+: a.body

instance (a : Inline) : Decidable a.IsFlat :=
  decidable_of_iff _ AnnotationKind.forall_iff.symm

/-- Whatever an annotation holds, it begins with the opening marker of its kind. -/
theorem literal_eq (a : Inline) : a.literal = a.kind.opener ++ a.body := by
  cases a with
  | underline u => simp [literal, Underline.literal, AnnotationKind.opener, kind, body]
  | link l =>
      cases hDisplay : l.display <;>
        simp [literal, Link.literal, AnnotationKind.opener, kind, body, hDisplay]

theorem literal_ne_nil (a : Inline) : a.literal ≠ [] := by
  rw [literal_eq]
  cases a.kind <;> simp [AnnotationKind.opener, underlineOpener, linkOpener]

/-- The last character of an annotation ends no proper beginning of an opening marker. -/
theorem getLast?_body (a : Inline) :
    ∃ c, a.body.getLast? = some c ∧ ∀ kind : AnnotationKind, c ∉ kind.opener.dropLast := by
  have hBracket : ∀ kind : AnnotationKind, '>' ∉ kind.opener.dropLast := fun kind => by
    cases kind <;> decide
  have hParenthesis : ∀ kind : AnnotationKind, ')' ∉ kind.opener.dropLast := fun kind => by
    cases kind <;> decide
  cases a with
  | underline u => exact ⟨'>', by simp [body, underlineCloser], hBracket⟩
  | link l =>
      cases hDisplay : l.display with
      | none => exact ⟨'>', by simp [body, hDisplay, linkCloser], hBracket⟩
      | some display =>
          refine ⟨')', ?_, hParenthesis⟩
          simp only [body, hDisplay, ← List.append_assoc, List.getLast?_concat]

/-- An annotation and the offset where it begins. -/
structure Match where
  start : Nat
  item : Inline
deriving DecidableEq, Repr

namespace Match

def stop (m : Match) : Nat :=
  m.start + Text.byteSize m.item.literal

/-- The annotation stands in the text where it is said to begin. -/
def StandsIn (m : Match) (text : Text) : Prop :=
  Text.StandsAt m.item.literal text ⟨m.start, m.stop⟩

theorem start_lt_stop (m : Match) : m.start < m.stop := by
  have hSize := mt Text.byteSize_eq_zero_iff.1 m.item.literal_ne_nil
  unfold stop
  omega

end Match

end Inline

namespace AnnotationKind

variable {kind other : AnnotationKind} {text before after rest : Text} {a : Inline} {start : Nat}
  {m n : Inline.Match}

/-- What is read as an annotation is what stands there, and it is of the kind that was looked for. -/
theorem eq_append_of_read? (h : kind.read? text = some (a, rest)) :
    a.kind = kind ∧ text = a.literal ++ rest := by
  cases kind with
  | underline =>
      obtain ⟨⟨u, tail⟩, hRead, hEq⟩ := Option.map_eq_some_iff.1 h
      obtain ⟨rfl, rfl⟩ := Prod.mk.inj hEq
      exact ⟨rfl, eq_of_underline? hRead⟩
  | link =>
      obtain ⟨⟨l, tail⟩, hRead, hEq⟩ := Option.map_eq_some_iff.1 h
      obtain ⟨rfl, rfl⟩ := Prod.mk.inj hEq
      exact ⟨rfl, eq_of_link? hRead⟩

/-- The way an annotation is written can always be read as one, whatever follows. -/
theorem isSome_read?_literal (a : Inline) (rest : Text) :
    (a.kind.read? (a.literal ++ rest)).isSome = true := by
  have hCut (closer inner after : Text) :
      ∃ head tail, Text.cut? closer (inner ++ (closer ++ after)) = some (head, tail) :=
    Text.exists_cut?_of_infix ⟨inner, after, by simp⟩
  cases a with
  | underline u =>
      have hAfter : Text.after? underlineOpener (u.literal ++ rest) =
          some (u.content ++ (underlineCloser ++ rest)) :=
        Text.after?_eq_some_iff.2 (by simp [Underline.literal])
      obtain ⟨head, tail, hHead⟩ := hCut underlineCloser u.content rest
      simp [Inline.kind, Inline.literal, read?, underline?, hAfter, hHead]
  | link l =>
      obtain ⟨display, hLiteral⟩ : ∃ display,
          l.literal = linkOpener ++ (l.target ++ (linkCloser ++ display)) :=
        ⟨_, by rw [Link.literal, List.append_assoc, List.append_assoc]⟩
      have hAfter : Text.after? linkOpener (l.literal ++ rest) =
          some (l.target ++ (linkCloser ++ (display ++ rest))) :=
        Text.after?_eq_some_iff.2 (by simp [hLiteral])
      obtain ⟨head, tail, hHead⟩ := hCut linkCloser l.target (display ++ rest)
      cases hDisplay : display? tail <;>
        simp [Inline.kind, Inline.literal, read?, link?, hAfter, hHead, hDisplay]

/-- An annotation at the front is taken as a whole, and what is left is searched as if it stood alone. -/
theorem annotations_of_read? (h : kind.read? text = some (a, rest)) :
    kind.annotations text = a :: kind.annotations rest := by
  cases kind with
  | underline =>
      obtain ⟨⟨u, tail⟩, hRead, hEq⟩ := Option.map_eq_some_iff.1 h
      obtain ⟨rfl, rfl⟩ := Prod.mk.inj hEq
      rw [annotations, underlines]
      split <;> simp_all [annotations]
  | link =>
      obtain ⟨⟨l, tail⟩, hRead, hEq⟩ := Option.map_eq_some_iff.1 h
      obtain ⟨rfl, rfl⟩ := Prod.mk.inj hEq
      rw [annotations, links]
      split <;> simp_all [annotations]

theorem annotations_cons {c : Char} (h : kind.read? (c :: rest) = none) :
    kind.annotations (c :: rest) = kind.annotations rest := by
  cases kind with
  | underline =>
      rw [annotations, underlines]
      split <;> simp_all [annotations, read?]
  | link =>
      rw [annotations, links]
      split <;> simp_all [annotations, read?]

@[simp] theorem annotations_nil (kind : AnnotationKind) : kind.annotations [] = [] := by
  cases kind with
  | underline =>
      rw [annotations, underlines]
      rfl
  | link =>
      rw [annotations, links]
      rfl

theorem rest_length_lt_of_read? (h : kind.read? text = some (a, rest)) :
    rest.length < text.length := by
  have hPos := List.length_pos_iff.2 a.literal_ne_nil
  rw [(eq_append_of_read? h).2, List.length_append]
  omega

/-- The annotations of the kind with their places, in a text that begins at `start`. -/
def matchesFrom (kind : AnnotationKind) (start : Nat) (text : Text) : List Inline.Match :=
  match _h : kind.read? text with
  | some (a, rest) => ⟨start, a⟩ :: kind.matchesFrom (start + Text.byteSize a.literal) rest
  | none =>
    match text with
    | [] => []
    | c :: rest => kind.matchesFrom (start + c.utf8Size) rest
termination_by text.length
decreasing_by
  · exact rest_length_lt_of_read? _h
  · simp

/-- The annotations of the kind in a text with their places. -/
def placesIn (kind : AnnotationKind) (text : Text) : List Inline.Match :=
  kind.matchesFrom 0 text

/-- With their places left out, these are the annotations that are found. -/
theorem map_item_matchesFrom (kind : AnnotationKind) (start : Nat) (text : Text) :
    (kind.matchesFrom start text).map Inline.Match.item = kind.annotations text := by
  fun_induction matchesFrom kind start text with
  | case1 start text a rest hRead ih => rw [annotations_of_read? hRead, List.map_cons, ih]
  | case2 start hRead => simp
  | case3 start c rest hRead ih => rw [annotations_cons hRead, ih]

/-- An annotation that was found stands where it is said to, and could be read there. -/
theorem of_mem_matchesFrom (h : m ∈ kind.matchesFrom start text) :
    ∃ before after, text = before ++ (m.item.literal ++ after) ∧
      m.start = start + Text.byteSize before ∧
      kind.read? (m.item.literal ++ after) = some (m.item, after) := by
  fun_induction matchesFrom kind start text with
  | case1 start text a rest hRead ih =>
      obtain ⟨_, rfl⟩ := eq_append_of_read? hRead
      rcases List.mem_cons.1 h with rfl | hRest
      · exact ⟨[], rest, rfl, rfl, hRead⟩
      · obtain ⟨before, after, hText, hStart, hMatch⟩ := ih hRest
        refine ⟨a.literal ++ before, after, by rw [hText, List.append_assoc], ?_, hMatch⟩
        rw [hStart, Text.byteSize_append, Nat.add_assoc]
  | case2 start hRead => cases h
  | case3 start c rest hRead ih =>
      obtain ⟨before, after, hText, hStart, hMatch⟩ := ih h
      refine ⟨c :: before, after, by rw [hText, List.cons_append], ?_, hMatch⟩
      rw [hStart, Text.byteSize_cons, Nat.add_assoc]

/-- Annotations of one kind follow one another. -/
theorem pairwise_matchesFrom (kind : AnnotationKind) (start : Nat) (text : Text) :
    (kind.matchesFrom start text).Pairwise fun m n => m.stop ≤ n.start := by
  fun_induction matchesFrom kind start text with
  | case1 start text a rest hRead ih =>
      refine List.pairwise_cons.2 ⟨fun n hMem => ?_, ih⟩
      obtain ⟨before, _, _, hStart, _⟩ := of_mem_matchesFrom hMem
      exact hStart ▸ Nat.le_add_right ..
  | case2 start hRead => exact List.Pairwise.nil
  | case3 start c rest hRead ih => exact ih

/-- Wherever an annotation could be read, one was read that takes this place. -/
theorem exists_mem_matchesFrom (hText : text = before ++ after)
    (hRead : (kind.read? after).isSome = true) :
    ∃ m ∈ kind.matchesFrom start text,
      m.start ≤ start + Text.byteSize before ∧ start + Text.byteSize before < m.stop := by
  fun_induction matchesFrom kind start text generalizing before with
  | case1 start text a rest hFirst ih =>
      rw [(eq_append_of_read? hFirst).2] at hText
      by_cases hInside : Text.byteSize before < Text.byteSize a.literal
      · exact ⟨⟨start, a⟩, List.mem_cons_self .., Nat.le_add_right ..,
          Nat.add_lt_add_left hInside start⟩
      · obtain ⟨part, rfl, hRest⟩ :=
          Text.exists_append_of_byteSize_le hText (Nat.le_of_not_lt hInside)
        obtain ⟨m, hMem, hStart, hStop⟩ := ih hRest
        rw [Nat.add_assoc, ← Text.byteSize_append] at hStart hStop
        exact ⟨m, List.mem_cons_of_mem _ hMem, hStart, hStop⟩
  | case2 start hNone =>
      rw [(List.append_eq_nil_iff.1 hText.symm).2, hNone] at hRead
      cases hRead
  | case3 start c rest hNone ih =>
      cases before with
      | nil =>
          rw [← show c :: rest = after from hText, hNone] at hRead
          cases hRead
      | cons d before =>
          obtain ⟨rfl, hRest⟩ := List.cons.inj hText
          obtain ⟨m, hMem, hStart, hStop⟩ := ih hRest
          rw [Nat.add_assoc, ← Text.byteSize_cons] at hStart hStop
          exact ⟨m, hMem, hStart, hStop⟩

theorem item_mem_annotations (h : m ∈ kind.placesIn text) : m.item ∈ kind.annotations text := by
  rw [← map_item_matchesFrom kind 0]
  exact List.mem_map_of_mem h

theorem kind_of_mem (h : m ∈ kind.placesIn text) : m.item.kind = kind := by
  obtain ⟨_, _, _, _, hRead⟩ := of_mem_matchesFrom h
  exact (eq_append_of_read? hRead).1

theorem standsIn_of_mem (h : m ∈ kind.placesIn text) : m.StandsIn text := by
  obtain ⟨before, after, hText, hStart, _⟩ := of_mem_matchesFrom h
  rw [Nat.zero_add] at hStart
  exact ⟨before, after, by rw [hText, List.append_assoc], by rw [Inline.Match.stop, hStart]⟩

/-- Where an annotation of the text stands once more, it begins in one that was read. -/
theorem exists_mem_of_standsIn (hKind : m.item.kind = kind) (h : m.StandsIn text) :
    ∃ n ∈ kind.placesIn text, n.start ≤ m.start ∧ m.start < n.stop := by
  obtain ⟨before, after, hText, hSpan⟩ := h
  rw [List.append_assoc] at hText
  have hRead := isSome_read?_literal m.item after
  rw [hKind] at hRead
  obtain ⟨n, hMem, hStart, hStop⟩ : ∃ n ∈ kind.placesIn text,
      n.start ≤ 0 + Text.byteSize before ∧ 0 + Text.byteSize before < n.stop :=
    exists_mem_matchesFrom hText hRead
  rw [Nat.zero_add, ← (Span.mk.inj hSpan).1] at hStart hStop
  exact ⟨n, hMem, hStart, hStop⟩

theorem bracketed_opener (kind : AnnotationKind) : Text.Bracketed kind.opener := by
  cases kind <;> exact ⟨_, rfl, by decide⟩

/-- At the front of a text stands at most one of the opening markers. -/
theorem opener_unique (h : other.opener <+: kind.opener ++ text) : other = kind := by
  have hPrefix := List.prefix_or_prefix_of_prefix h (List.prefix_append kind.opener text)
  revert hPrefix
  cases kind <;> cases other <;> decide

/-- An opening marker at the front of what is left of a flat annotation is its own one, and nothing
has been taken off. -/
theorem eq_of_opener_in_literal (hFlat : a.IsFlat) (hLiteral : a.literal = before ++ after)
    (hAfter : after ≠ []) (hOpener : other.opener <+: after ++ rest) :
    other = a.kind ∧ before = [] := by
  obtain ⟨name, hName, _⟩ := bracketed_opener other
  obtain ⟨d, after, rfl⟩ := List.exists_cons_of_ne_nil hAfter
  rw [hName, List.cons_append, List.cons_prefix_cons] at hOpener
  obtain ⟨rfl, hRest⟩ := hOpener
  have hStands : other.opener <+: '<' :: after ++ rest := by
    rw [hName]
    exact List.cons_prefix_cons.2 ⟨rfl, hRest⟩
  obtain ⟨own, hOwn, hNotIn⟩ := bracketed_opener a.kind
  cases before with
  | nil =>
      rw [List.nil_append] at hLiteral
      rw [← hLiteral, a.literal_eq, List.append_assoc] at hStands
      exact ⟨opener_unique hStands, rfl⟩
  | cons c before =>
      -- the bracket that begins the marker lies behind the one that begins the annotation
      exfalso
      rw [a.literal_eq, hOwn, List.cons_append, List.cons_append] at hLiteral
      rcases List.append_eq_append_iff.1 (List.cons.inj hLiteral).2 with
        ⟨part, _, hBody⟩ | ⟨part, rfl, hPart⟩
      · obtain ⟨e, hLast, hNot⟩ := a.getLast?_body
        rw [hBody, List.getLast?_append_of_ne_nil _ (List.cons_ne_nil _ _)] at hLast
        refine hFlat other (List.IsInfix.trans ?_ ⟨part, [], by rw [hBody, List.append_nil]⟩)
        exact (Text.prefix_of_getLast?_notMem hStands hLast (hNot other)).isInfix
      · cases part with
        | nil =>
            obtain ⟨e, hLast, hNot⟩ := a.getLast?_body
            rw [List.nil_append] at hPart
            rw [← hPart] at hLast
            refine hFlat other ?_
            rw [← hPart]
            exact (Text.prefix_of_getLast?_notMem hStands hLast (hNot other)).isInfix
        | cons e part =>
            rw [← (List.cons.inj hPart).1] at hNotIn
            exact hNotIn (List.mem_append_right _ (List.mem_cons_self ..))

/-- An opening marker that stands in a flat annotation is the one that the annotation begins with. -/
theorem eq_of_opener_in_match (hFlat : m.item.IsFlat) (hStands : m.StandsIn text)
    (hText : text = before ++ after) (hOpener : other.opener <+: after)
    (hStart : m.start ≤ Text.byteSize before) (hStop : Text.byteSize before < m.stop) :
    other = m.item.kind ∧ m.start = Text.byteSize before := by
  obtain ⟨front, back, hMatch, hSpan⟩ := hStands
  obtain ⟨hFront, hBack⟩ := Span.mk.inj hSpan
  rw [hFront] at hStart
  rw [hBack, ← Text.byteSize_append] at hStop
  rw [hText, List.append_assoc] at hMatch
  obtain ⟨x, rfl, hx⟩ := Text.exists_append_of_byteSize_le hMatch.symm hStart
  rw [Text.byteSize_append, Text.byteSize_append] at hStop
  obtain ⟨y, hy, rfl⟩ := Text.exists_append_of_byteSize_le hx.symm (by omega)
  have hNe : y ≠ [] := by
    rintro rfl
    rw [List.append_nil] at hy
    rw [hy] at hStop
    omega
  obtain ⟨hKind, rfl⟩ := eq_of_opener_in_literal hFlat hy hNe hOpener
  exact ⟨hKind, by simpa using hFront⟩

/-- At the place of an annotation an opening marker of its kind stands in the text. -/
theorem opener_prefix_of_standsIn (h : m.StandsIn text) :
    ∃ before after, text = before ++ after ∧ m.start = Text.byteSize before ∧
      m.item.kind.opener <+: after := by
  obtain ⟨before, after, hText, hSpan⟩ := h
  refine ⟨before, m.item.literal ++ after, by rw [hText, List.append_assoc],
    (Span.mk.inj hSpan).1, ?_⟩
  rw [Inline.literal_eq, List.append_assoc]
  exact List.prefix_append ..

/-- Two flat annotations that have a byte in common begin at the same place. -/
theorem eq_of_flat_overlap (hm : m.item.IsFlat) (hn : n.item.IsFlat)
    (hmIn : m.StandsIn text) (hnIn : n.StandsIn text) (hOverlap : m.start < n.stop)
    (hOverlap' : n.start < m.stop) : m.item.kind = n.item.kind ∧ m.start = n.start := by
  rcases Nat.le_total m.start n.start with hLe | hLe
  · obtain ⟨before, after, hText, hStart, hOpener⟩ := opener_prefix_of_standsIn hnIn
    rw [hStart] at hLe hOverlap'
    obtain ⟨hKind, hEq⟩ := eq_of_opener_in_match hm hmIn hText hOpener hLe hOverlap'
    exact ⟨hKind.symm, hEq.trans hStart.symm⟩
  · obtain ⟨before, after, hText, hStart, hOpener⟩ := opener_prefix_of_standsIn hmIn
    rw [hStart] at hLe hOverlap
    obtain ⟨hKind, hEq⟩ := eq_of_opener_in_match hn hnIn hText hOpener hLe hOverlap
    exact ⟨hKind, hStart.trans hEq.symm⟩

/-- All annotations of the text are flat. -/
def AllFlat (text : Text) : Prop :=
  ∀ kind : AnnotationKind, ∀ a ∈ kind.annotations text, a.IsFlat

instance (text : Text) : Decidable (AllFlat text) :=
  decidable_of_iff _ forall_iff.symm

theorem AllFlat.of_mem (hFlat : AllFlat text) (h : m ∈ kind.placesIn text) : m.item.IsFlat :=
  hFlat kind _ (item_mem_annotations h)

/-- Annotations of different kinds lie apart. -/
theorem AllFlat.apart (hFlat : AllFlat text) (hm : m ∈ kind.placesIn text)
    (hn : n ∈ other.placesIn text) (hNe : kind ≠ other) : m.stop ≤ n.start ∨ n.stop ≤ m.start := by
  by_contra hOverlap
  obtain ⟨hLeft, hRight⟩ := not_or.1 hOverlap
  have hKind := (eq_of_flat_overlap (hFlat.of_mem hm) (hFlat.of_mem hn) (standsIn_of_mem hm)
    (standsIn_of_mem hn) (Nat.lt_of_not_le hRight) (Nat.lt_of_not_le hLeft)).1
  rw [kind_of_mem hm, kind_of_mem hn] at hKind
  exact hNe hKind

end AnnotationKind

end Changelog
