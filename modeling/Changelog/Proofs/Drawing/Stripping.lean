import Changelog.Proofs.Drawing.Borders
import Changelog.Proofs.Drawing.Recovery

/-! Two ways to take the markup out of a text. One replaces the links and searches what is left for
underlines; the other reads both kinds from the text as written, looks for each annotation again and replaces
what it finds. They agree if the annotations lie side by side, no link begins in the display text of another
one and replacing the links leaves the underlines as they are. Without one of these conditions they can
differ. -/

namespace Changelog

open Annotations

namespace AnnotationKind

variable {kind : AnnotationKind} {text rest done : Text} {a : Inline} {start : Nat}
  {more : List Inline.Match}

/-- The text with every annotation of the kind replaced by what it shows. -/
def replaced (kind : AnnotationKind) (text : Text) : Text :=
  match kind with
  | underline => dropUnderlines text
  | link => showLinks text

/-- An annotation at the front is replaced as a whole. -/
theorem replaced_of_read? (h : kind.read? text = some (a, rest)) :
    kind.replaced text = a.shown ++ kind.replaced rest := by
  cases kind with
  | underline =>
      obtain ⟨⟨u, tail⟩, hRead, hEq⟩ := Option.map_eq_some_iff.1 h
      obtain ⟨rfl, rfl⟩ := Prod.mk.inj hEq
      rw [replaced, dropUnderlines]
      split <;> simp_all [replaced, Inline.shown]
  | link =>
      obtain ⟨⟨l, tail⟩, hRead, hEq⟩ := Option.map_eq_some_iff.1 h
      obtain ⟨rfl, rfl⟩ := Prod.mk.inj hEq
      rw [replaced, showLinks]
      split <;> simp_all [replaced, toHyperlink_eq]

theorem replaced_cons {c : Char} (h : kind.read? (c :: rest) = none) :
    kind.replaced (c :: rest) = c :: kind.replaced rest := by
  cases kind with
  | underline =>
      rw [replaced, dropUnderlines]
      split <;> simp_all [replaced, read?]
  | link =>
      rw [replaced, showLinks]
      split <;> simp_all [replaced, read?]

@[simp] theorem replaced_nil (kind : AnnotationKind) : kind.replaced [] = [] := by
  cases kind with
  | underline =>
      rw [replaced, dropUnderlines]
      rfl
  | link =>
      rw [replaced, showLinks]
      rfl

theorem matchesFrom_of_read? (h : kind.read? text = some (a, rest)) :
    kind.matchesFrom start text =
      ⟨start, a⟩ :: kind.matchesFrom (start + Text.byteSize a.literal) rest := by
  rw [matchesFrom]
  split <;> simp_all

theorem matchesFrom_cons {c : Char} (h : kind.read? (c :: rest) = none) :
    kind.matchesFrom start (c :: rest) = kind.matchesFrom (start + c.utf8Size) rest := by
  rw [matchesFrom]
  split <;> simp_all

@[simp] theorem matchesFrom_nil (kind : AnnotationKind) (start : Nat) :
    kind.matchesFrom start [] = [] := by
  have hNone : kind.read? [] = none := by cases kind <;> rfl
  rw [matchesFrom]
  split <;> simp_all

/-- An annotation with those before it, and the search behind it, are all that a text has. -/
theorem annotations_of_matchesFrom {found : List Inline.Match} {m : Inline.Match} {stop : Nat}
    (h : kind.matchesFrom start text = found ++ m :: kind.matchesFrom stop rest) :
    kind.annotations text = found.map Inline.Match.item ++ m.item :: kind.annotations rest := by
  rw [← map_item_matchesFrom kind start, h, List.map_append, List.map_cons, map_item_matchesFrom]

theorem le_start_of_mem {m : Inline.Match} (h : m ∈ kind.matchesFrom start text) : start ≤ m.start := by
  obtain ⟨before, _, _, hStart, _⟩ := of_mem_matchesFrom h
  exact hStart ▸ Nat.le_add_right ..

/-- The first annotation, if it begins where the text does, is the one that is read there. -/
theorem read?_of_matchesFrom (h : kind.matchesFrom start text = ⟨start, a⟩ :: more) :
    ∃ rest, kind.read? text = some (a, rest) ∧
      more = kind.matchesFrom (start + Text.byteSize a.literal) rest := by
  cases hRead : kind.read? text with
  | some found =>
      obtain ⟨b, rest⟩ := found
      rw [matchesFrom_of_read? hRead] at h
      obtain ⟨hHead, rfl⟩ := List.cons.inj h
      obtain rfl := congrArg Inline.Match.item hHead
      exact ⟨rest, rfl, rfl⟩
  | none =>
      exfalso
      cases text with
      | nil => simp at h
      | cons c text =>
          rw [matchesFrom_cons hRead] at h
          have hLe : start + c.utf8Size ≤ start :=
            le_start_of_mem (m := ⟨start, a⟩) (h ▸ List.mem_cons_self ..)
          have hPos := c.utf8Size_pos
          omega

/-- A stretch in which no annotation begins is passed over. -/
theorem skip (h : ∀ m ∈ kind.matchesFrom start (done ++ rest), start + Text.byteSize done ≤ m.start) :
    kind.matchesFrom start (done ++ rest) = kind.matchesFrom (start + Text.byteSize done) rest ∧
      kind.replaced (done ++ rest) = done ++ kind.replaced rest := by
  induction done generalizing start with
  | nil => exact ⟨rfl, rfl⟩
  | cons c done ih =>
      have hPos := c.utf8Size_pos
      have hNone : kind.read? (c :: (done ++ rest)) = none := by
        cases hRead : kind.read? (c :: (done ++ rest)) with
        | none => rfl
        | some found =>
            have hLe : start + Text.byteSize (c :: done) ≤ start := h ⟨start, found.1⟩ (by
              rw [List.cons_append, matchesFrom_of_read? hRead]
              exact List.mem_cons_self ..)
            rw [Text.byteSize_cons] at hLe
            omega
      rw [List.cons_append, matchesFrom_cons hNone, Text.byteSize_cons, ← Nat.add_assoc] at h
      obtain ⟨hPlaces, hText⟩ := ih h
      rw [List.cons_append, matchesFrom_cons hNone, replaced_cons hNone, Text.byteSize_cons,
        ← Nat.add_assoc, hText]
      exact ⟨hPlaces, rfl⟩

end AnnotationKind

namespace Part

variable {kind : AnnotationKind} {parts : List Part} {start : Nat}

/-- The annotations among the parts. -/
def items : List Part → List Inline
  | [] => []
  | verbatim _ :: rest => items rest
  | inline item :: rest => item :: items rest

/-- With their places left out, these are the annotations among the parts. -/
theorem map_item_placesFrom (start : Nat) (parts : List Part) :
    (placesFrom start parts).map Inline.Match.item = items parts := by
  induction parts generalizing start with
  | nil => rfl
  | cons part rest ih =>
      cases part with
      | verbatim text => exact ih _
      | inline item => exact congrArg (item :: ·) (ih _)

theorem le_start_of_mem_placesFrom {m : Inline.Match} (h : m ∈ placesFrom start parts) :
    start ≤ m.start := by
  induction parts generalizing start with
  | nil => cases h
  | cons part rest ih =>
      cases part with
      | verbatim text => exact Nat.le_trans (Nat.le_add_right ..) (ih h)
      | inline item =>
          rcases List.mem_cons.1 h with rfl | hRest
          · exact Nat.le_refl _
          · exact Nat.le_trans (Nat.le_add_right ..) (ih hRest)

/-- If the annotations of a kind stand where they stand among the parts, replacing them gives what the
parts show. -/
theorem replaced_written (h : placesFrom start parts = kind.matchesFrom start (parts.flatMap written)) :
    kind.replaced (parts.flatMap written) = parts.flatMap shown := by
  induction parts generalizing start with
  | nil => exact AnnotationKind.replaced_nil kind
  | cons part rest ih =>
      cases part with
      | verbatim text =>
          rw [List.flatMap_cons] at h ⊢
          have hLater : ∀ m ∈ kind.matchesFrom start (text ++ rest.flatMap written),
              start + Text.byteSize text ≤ m.start :=
            fun m hm => le_start_of_mem_placesFrom (h ▸ hm)
          obtain ⟨hPlaces, hText⟩ := AnnotationKind.skip hLater
          exact hText.trans (congrArg (text ++ ·) (ih (h.trans hPlaces)))
      | inline item =>
          rw [List.flatMap_cons] at h ⊢
          obtain ⟨after, hRead, hMore⟩ := AnnotationKind.read?_of_matchesFrom h.symm
          obtain rfl := List.append_cancel_left (AnnotationKind.eq_append_of_read? hRead).2
          exact (AnnotationKind.replaced_of_read? hRead).trans (congrArg (item.shown ++ ·) (ih hMore))

/-- The part with its annotation, if it is of the kind, drawn already. -/
def settle (kind : AnnotationKind) : Part → Part
  | verbatim text => verbatim text
  | inline item => if item.kind = kind then verbatim item.shown else inline item

/-- The part with its annotation, if it is of another kind, taken as written. -/
def only (kind : AnnotationKind) : Part → Part
  | verbatim text => verbatim text
  | inline item => if item.kind = kind then inline item else verbatim item.literal

theorem written_only (kind : AnnotationKind) (part : Part) : (part.only kind).written = part.written := by
  cases part with
  | verbatim text => rfl
  | inline item => by_cases h : item.kind = kind <;> simp [only, written, h]

/-- Taking other annotations as written and showing those of the kind comes to the same as drawing only
these. -/
theorem shown_only (kind : AnnotationKind) (part : Part) :
    (part.only kind).shown = (part.settle kind).written := by
  cases part with
  | verbatim text => rfl
  | inline item => by_cases h : item.kind = kind <;> simp [only, settle, written, shown, h]

theorem shown_settle (kind : AnnotationKind) (part : Part) : (part.settle kind).shown = part.shown := by
  cases part with
  | verbatim text => rfl
  | inline item => by_cases h : item.kind = kind <;> simp [settle, shown, h]

/-- The places of one kind do not depend on what the other one is taken for, since the text as written is
the same. -/
theorem placesFrom_only (kind : AnnotationKind) (start : Nat) (parts : List Part) :
    placesFrom start (parts.map (only kind)) = (placesFrom start parts).filter (·.item.kind = kind) := by
  induction parts generalizing start with
  | nil => rfl
  | cons part rest ih =>
      cases part with
      | verbatim text => exact ih _
      | inline item => by_cases h : item.kind = kind <;> simp [only, placesFrom, h, ih]

theorem items_settle (kind : AnnotationKind) (parts : List Part) :
    items (parts.map (settle kind)) = (items parts).filter (·.kind ≠ kind) := by
  induction parts with
  | nil => rfl
  | cons part rest ih =>
      cases part with
      | verbatim text => exact ih
      | inline item => by_cases h : item.kind = kind <;> simp [settle, items, h, ih]

end Part

namespace AnnotationKind

variable {text rest tail before after : Text} {u v : Underline}

/-- An underline that was read is read again from its literal, whatever follows. -/
theorem underline?_literal (h : underline? text = some (u, after)) (rest : Text) :
    underline? (u.literal ++ rest) = some (u, rest) := by
  obtain ⟨inner, rfl, hCut⟩ := underline?_eq_some_iff.1 h
  rw [Text.eq_of_cut? hCut, List.append_assoc] at hCut
  refine underline?_eq_some_iff.2
    ⟨u.content ++ (underlineCloser ++ rest), ?_, Text.cut?_append hCut rest⟩
  simp [Underline.literal]

/-- In front of a bracket an underline is read as if nothing followed. -/
theorem underline?_append (h : underline? text = some (u, after)) (rest : Text) :
    underline? (text ++ '<' :: rest) = some (u, after ++ '<' :: rest) := by
  obtain ⟨inner, rfl, hCut⟩ := underline?_eq_some_iff.1 h
  refine underline?_eq_some_iff.2 ⟨inner ++ '<' :: rest, List.append_assoc .., ?_⟩
  have hBracketed : Text.Bracketed underlineCloser := bracketed_closer underline
  rw [hBracketed.cut?_append, hCut]

/-- An underline that begins before another one and is not closed before it ends where the other one
does. -/
theorem content_of_underline?_append (h : underline? before = some (u, after)) (hText : text ≠ [])
    (hNone : underline? text = none) (hRead : underline? (text ++ (u.literal ++ rest)) = some (v, tail)) :
    ∃ opened, opened ≠ [] ∧ v = ⟨opened ++ u.content⟩ ∧ tail = rest := by
  obtain ⟨inner, hInner, hCut⟩ := underline?_eq_some_iff.1 hRead
  obtain ⟨more, hLiteral⟩ : ∃ more, u.literal ++ rest = '<' :: more := ⟨_, rfl⟩
  obtain ⟨front, rfl⟩ : underlineOpener <+: text :=
    (bracketed_opener underline).prefix_of_prefix_append ⟨inner, hInner.symm⟩ hText
      (Or.inr ⟨more, hLiteral⟩)
  rw [List.append_assoc] at hInner
  obtain rfl := List.append_cancel_left hInner
  have hFront : Text.cut? underlineCloser front = none := by
    refine Option.eq_none_iff_forall_ne_some.2 fun ⟨content, closed⟩ hClosed => ?_
    rw [underline?_eq_some_iff.2 ⟨front, rfl, hClosed⟩] at hNone
    cases hNone
  have hOwn : Text.cut? underlineCloser (u.literal ++ rest) =
      some (underlineOpener ++ u.content, rest) := by
    obtain ⟨content, hContent, hClosed⟩ := underline?_eq_some_iff.1 (underline?_literal h rest)
    have hThrough := cut?_opener_append underline content
    rw [closer, hClosed] at hThrough
    exact hContent ▸ hThrough
  have hBracketed : Text.Bracketed underlineCloser := bracketed_closer underline
  rw [hLiteral, hBracketed.cut?_append, hFront, ← hLiteral, hOwn] at hCut
  obtain ⟨hContent, rfl⟩ := Prod.mk.inj (Option.some.inj hCut)
  refine ⟨front ++ underlineOpener, by simp [underlineOpener], ?_, rfl⟩
  rw [List.append_assoc, hContent]

theorem read?_of_underline? (h : underline? text = some (u, rest)) :
    underline.read? text = some (.underline u, rest) := by
  rw [read?, h]
  rfl

/-- Behind other text an underline is read at its place, or as the end of one that begins before it. -/
theorem matchesFrom_append_literal (h : underline? before = some (u, after)) (start : Nat)
    (text rest : Text) :
    ∃ found opened place,
      underline.matchesFrom start (text ++ (u.literal ++ rest)) =
        found ++ ⟨place, .underline ⟨opened ++ u.content⟩⟩ ::
          underline.matchesFrom (start + Text.byteSize text + Text.byteSize u.literal) rest ∧
      (opened = [] → place = start + Text.byteSize text) := by
  obtain ⟨more, hLiteral⟩ : ∃ more, u.literal ++ rest = '<' :: more := ⟨_, rfl⟩
  -- along the reading of the text in front; `opened` is what an underline that it leaves open takes of it
  fun_induction matchesFrom underline start text with
  | case1 start text a tail hFirst ih =>
      obtain ⟨⟨v, _⟩, hUnderline, hEq⟩ := Option.map_eq_some_iff.1 hFirst
      obtain ⟨rfl, rfl⟩ := Prod.mk.inj hEq
      obtain ⟨found, opened, place, hRest, hPlace⟩ := ih
      have hRead := read?_of_underline? (underline?_append hUnderline more)
      rw [← hLiteral] at hRead
      have hSize := congrArg Text.byteSize (eq_of_underline? hUnderline)
      rw [Text.byteSize_append] at hSize
      rw [hSize, ← Nat.add_assoc]
      refine ⟨⟨start, .underline v⟩ :: found, opened, place, ?_, hPlace⟩
      rw [matchesFrom_of_read? hRead, hRest]
      rfl
  | case2 start hNone =>
      refine ⟨[], [], start, ?_, fun _ => rfl⟩
      rw [List.nil_append, matchesFrom_of_read? (read?_of_underline? (underline?_literal h rest))]
      rfl
  | case3 start c tail hNone ih =>
      rw [Text.byteSize_cons, ← Nat.add_assoc]
      cases hAll : underline? (c :: tail ++ (u.literal ++ rest)) with
      | none =>
          obtain ⟨found, opened, place, hRest, hPlace⟩ := ih
          refine ⟨found, opened, place, ?_, hPlace⟩
          rw [List.cons_append, matchesFrom_cons (by rw [read?, ← List.cons_append, hAll]; rfl), hRest]
      | some read =>
          obtain ⟨v, _⟩ := read
          obtain ⟨opened, hOpened, rfl, rfl⟩ := content_of_underline?_append h (List.cons_ne_nil _ _)
            (by simpa [read?] using hNone) hAll
          have hStop : start + c.utf8Size + Text.byteSize tail + Text.byteSize u.literal =
              start + Text.byteSize (Underline.literal ⟨opened ++ u.content⟩) := by
            have hSize := congrArg Text.byteSize (eq_of_underline? hAll)
            simp only [Text.byteSize_append, Text.byteSize_cons] at hSize
            omega
          refine ⟨[], opened, start, ?_, fun hNil => absurd hNil hOpened⟩
          rw [matchesFrom_of_read? (read?_of_underline? hAll), hStop]
          rfl

end AnnotationKind

namespace Part

open AnnotationKind

variable {parts : List Part}

/-- Each part that is an annotation is an underline that can be read. -/
def Underlines (parts : List Part) : Prop :=
  ∀ item ∈ items parts, ∃ before u after, item = .underline u ∧ underline? before = some (u, after)

/-- All underlines among the parts of a text are read, whatever stands in front of them, or others in their
place. -/
theorem Underlines.length_items_le (h : Underlines parts) (text : Text) :
    (items parts).length ≤ (underline.annotations (text ++ parts.flatMap written)).length := by
  induction parts generalizing text with
  | nil => exact Nat.zero_le _
  | cons part rest ih =>
      cases part with
      | verbatim gap =>
          rw [List.flatMap_cons, ← List.append_assoc]
          exact ih h _
      | inline item =>
          obtain ⟨hItem, hRest⟩ := List.forall_mem_cons.1 h
          obtain ⟨before, u, after, rfl, hRead⟩ := hItem
          obtain ⟨found, opened, place, hPlaces, _⟩ :=
            matchesFrom_append_literal hRead 0 text (rest.flatMap written)
          have hItems := annotations_of_matchesFrom hPlaces
          have hLe := ih hRest []
          rw [List.flatMap_cons]
          show _ ≤ (underline.annotations (text ++ (u.literal ++ rest.flatMap written))).length
          rw [hItems, items, List.length_append, List.length_cons, List.length_cons]
          rw [List.nil_append] at hLe
          omega

/-- If the underlines that are read in a text are those among its parts, they are read at the same places:
one that begins earlier would be a further one or a longer one. -/
theorem Underlines.placesFrom_eq (h : Underlines parts) {text : Text}
    (hSame : underline.annotations (text ++ parts.flatMap written) = items parts) (start : Nat) :
    placesFrom (start + Text.byteSize text) parts =
      underline.matchesFrom start (text ++ parts.flatMap written) := by
  induction parts generalizing text start with
  | nil =>
      rw [← map_item_matchesFrom underline start] at hSame
      exact (List.map_eq_nil_iff.1 hSame).symm
  | cons part rest ih =>
      cases part with
      | verbatim gap =>
          rw [List.flatMap_cons, ← List.append_assoc] at hSame ⊢
          rw [← ih h hSame start, placesFrom, written, Text.byteSize_append, Nat.add_assoc]
      | inline item =>
          obtain ⟨hItem, hRest⟩ := List.forall_mem_cons.1 h
          obtain ⟨before, u, after, rfl, hRead⟩ := hItem
          obtain ⟨found, opened, place, hPlaces, hPlace⟩ :=
            matchesFrom_append_literal hRead start text (rest.flatMap written)
          have hItems := annotations_of_matchesFrom hPlaces
          rw [List.flatMap_cons] at hSame ⊢
          replace hSame := hItems.symm.trans hSame
          -- behind the underline at least the later ones are read, so none is left for the text in front
          have hLe := Underlines.length_items_le hRest []
          have hLength := congrArg List.length hSame
          rw [items, List.length_append, List.length_cons, List.length_cons, List.length_map] at hLength
          rw [List.nil_append] at hLe
          obtain rfl : found = [] := List.eq_nil_of_length_eq_zero (by omega)
          obtain ⟨hFirst, hLater⟩ := List.cons.inj hSame
          obtain rfl : opened = [] := by
            have hContent := congrArg Underline.content (Inline.underline.inj hFirst)
            simpa using hContent
          have hMore : ∀ next, placesFrom (next + Text.byteSize []) rest =
              underline.matchesFrom next ([] ++ rest.flatMap written) := ih hRest hLater
          show _ = underline.matchesFrom start (text ++ (u.literal ++ rest.flatMap written))
          rw [hPlaces, hPlace rfl, placesFrom]
          exact congrArg (_ :: ·) (hMore _)

end Part

namespace AnnotationKind

variable {text : Text}

/-- An opening marker has no parenthesis in it, so those around a display text do not complete one. -/
theorem infix_of_infix_parentheses {display : Text} (h : linkOpener <:+: '(' :: display ++ [')']) :
    linkOpener <:+: display := by
  rcases List.infix_cons_iff.1 h with hFront | hInside
  · exact absurd (List.cons_prefix_cons.1 hFront).1 (by decide)
  · rcases List.infix_concat_iff.1 hInside with ⟨before, hEnd⟩ | hInside
    · have hLast := congrArg List.getLast? hEnd
      rw [List.getLast?_concat, List.getLast?_append_of_ne_nil _ (by decide)] at hLast
      exact absurd hLast (by decide)
    · exact hInside

/-- If links and underlines lie side by side and no link begins in the display text of another one, the
annotations are found again: their literals do not overlap themselves. -/
theorem findable_of_apart
    (hApart : ∀ m ∈ link.placesIn text, ∀ n ∈ underline.placesIn text,
      m.stop ≤ n.start ∨ n.stop ≤ m.start)
    (hDisplays : ∀ l ∈ links text, ∀ display ∈ l.display, ¬ linkOpener <:+: display) :
    Findable text := by
  refine ⟨fun kind m hm => ?_, hApart⟩
  obtain ⟨before, after, hText, hStart, hRead⟩ := of_mem_matchesFrom hm
  have hItem := item_mem_annotations hm
  rw [hStart, Nat.zero_add]
  refine DecoratedText.mem_occurrences (unbordered_of_read? hRead fun hOpener => ?_)
    m.item.literal_ne_nil hText
  cases kind with
  | underline =>
      obtain ⟨u, _, hEq⟩ := List.mem_map.1 hItem
      rw [← hEq] at hOpener
      exact absurd (List.infix_nil.1 hOpener) (by decide)
  | link =>
      obtain ⟨l, hLink, hEq⟩ := List.mem_map.1 hItem
      rw [← hEq] at hOpener
      cases hDisplay : l.display with
      | none =>
          simp only [Inline.tail, hDisplay] at hOpener
          exact absurd (List.infix_nil.1 hOpener) (by decide)
      | some display =>
          simp only [Inline.tail, hDisplay] at hOpener
          exact hDisplays l hLink display hDisplay (infix_of_infix_parentheses hOpener)

/-- If the annotations are found again, what is drawn is the text with each of them replaced. -/
theorem Findable.exists_drawn (hFindable : Findable text) :
    ∃ parts : List Part, parts.flatMap Part.written = text ∧
      (∀ kind : AnnotationKind,
        (Part.placesFrom 0 parts).filter (·.item.kind = kind) = kind.placesIn text) ∧
      (DecoratedText.resolve text (underlineLiterals text) (linkLiterals text)).value.text =
        parts.flatMap Part.shown := by
  obtain ⟨items, hInOrder, hPerm, hOrder, hKinds⟩ := hFindable.exists_inOrder
  have hMem : ∀ m ∈ items, ∃ kind : AnnotationKind, m ∈ kind.placesIn text := fun m hm =>
    (List.mem_append.1 (hPerm.mem_iff.1 hm)).elim (fun h => ⟨_, h⟩) fun h => ⟨_, h⟩
  obtain ⟨parts, hWritten, hPlaces, hReplace⟩ := exists_parts (List.nil_append text).symm
    (fun m hm => (hMem m hm).elim fun _ h => standsIn_of_mem h)
    (fun m hm => (hMem m hm).elim fun _ h => shown_of_mem h) (fun m _ => Nat.zero_le _) hOrder
  refine ⟨parts, hWritten, fun kind => hPlaces ▸ hKinds kind, ?_⟩
  have hDrawn := hReplace {}
  rw [← hInOrder] at hDrawn
  rw [DecoratedText.resolve, hFindable.locateAll_eq]
  exact congrArg DecoratedText.text hDrawn

end AnnotationKind

namespace Part

open AnnotationKind

variable {text : Text} {parts : List Part}

/-- The text with its links replaced, if the parts divide it and have its links at their places. -/
theorem showLinks_eq_written (hWritten : parts.flatMap written = text)
    (hLinks : (placesFrom 0 parts).filter (·.item.kind = link) = link.placesIn text) :
    showLinks text = (parts.map (settle link)).flatMap written := by
  have hOnly : (parts.map (only link)).flatMap written = text := by
    simp only [List.flatMap_map, written_only, hWritten]
  have hPlaces : placesFrom 0 (parts.map (only link)) =
      link.matchesFrom 0 ((parts.map (only link)).flatMap written) := by
    rw [placesFrom_only, hLinks, hOnly]
    rfl
  have hShown := replaced_written hPlaces
  rw [hOnly] at hShown
  simp only [List.flatMap_map, shown_only] at hShown ⊢
  exact hShown

/-- Once the links are drawn, the underlines are left. -/
theorem items_settle_link
    (hUnderlines : (placesFrom 0 parts).filter (·.item.kind = underline) = underline.placesIn text) :
    items (parts.map (settle link)) = underline.annotations text := by
  have hKind : (fun a : Inline => decide (a.kind ≠ link)) = fun a => decide (a.kind = underline) :=
    funext fun a => by cases a <;> rfl
  rw [items_settle, hKind, ← map_item_placesFrom 0, List.filter_map, ← map_item_matchesFrom underline 0]
  exact congrArg (List.map Inline.Match.item) hUnderlines

/-- The underlines of a text can be read. -/
theorem underlines_of_items_eq (h : items parts = underline.annotations text) : Underlines parts := by
  intro item hItem
  rw [h, ← map_item_matchesFrom underline 0] at hItem
  obtain ⟨m, hMem, rfl⟩ := List.mem_map.1 hItem
  obtain ⟨_, after, _, _, hRead⟩ := of_mem_matchesFrom hMem
  obtain ⟨⟨u, _⟩, hUnderline, hEq⟩ := Option.map_eq_some_iff.1 hRead
  exact ⟨_, u, _, (Prod.mk.inj hEq).1.symm, hUnderline⟩

end Part

open AnnotationKind

/-- Both ways of taking the markup out of a text agree if no underline begins in a link and no link in an
underline, no link begins in the display text of another one, and the underlines of the text stay the same
when its links are replaced. -/
theorem DecoratedText.stripMarkup_eq_drawn {text : Text}
    (hUnderlines : ∀ l ∈ link.placesIn text, ∀ u ∈ underline.placesIn text,
      ¬ (l.start ≤ u.start ∧ u.start < l.stop))
    (hLinks : ∀ l ∈ link.placesIn text, ∀ u ∈ underline.placesIn text,
      ¬ (u.start ≤ l.start ∧ l.start < u.stop))
    (hDisplays : ∀ l ∈ links text, ∀ display ∈ l.display, ¬ linkOpener <:+: display)
    (hSame : underlines (showLinks text) = underlines text) :
    stripMarkup text = (resolve text (underlineLiterals text) (linkLiterals text)).value.text := by
  have hFindable : Findable text := findable_of_apart (fun l hl u hu => by
    have hUnderline := hUnderlines l hl u hu
    have hLink := hLinks l hl u hu
    omega) hDisplays
  obtain ⟨parts, hWritten, hKinds, hDrawn⟩ := hFindable.exists_drawn
  -- the links are where the parts have them, so replacing them leaves the parts with the links settled
  have hShown := Part.showLinks_eq_written hWritten (hKinds link)
  have hItems := Part.items_settle_link (hKinds underline)
  have hRead : underline.annotations ([] ++ (parts.map (Part.settle link)).flatMap Part.written) =
      Part.items (parts.map (Part.settle link)) := by
    rw [List.nil_append, ← hShown, hItems]
    exact congrArg (List.map Inline.underline) hSame
  -- the underlines are read where these parts have them, although their places have moved
  have hPlaces := (Part.underlines_of_items_eq hItems).placesFrom_eq hRead 0
  have hStripped := Part.replaced_written hPlaces
  rw [hDrawn, stripMarkup, hShown]
  simp only [List.flatMap_map, Part.shown_settle] at hStripped ⊢
  exact hStripped

/-- Brackets of no annotation stand on both sides of a link, which shows one of them itself. -/
theorem DecoratedText.stripMarkup_eq_drawn_of_stray_brackets :
    let text := "<u>a</u><<link>x</link>(<b)u></u><link><u>".toList
    (∀ l ∈ link.placesIn text, ∀ u ∈ underline.placesIn text, ¬ (l.start ≤ u.start ∧ u.start < l.stop)) ∧
      (∀ l ∈ link.placesIn text, ∀ u ∈ underline.placesIn text, ¬ (u.start ≤ l.start ∧ l.start < u.stop)) ∧
      (∀ l ∈ links text, ∀ display ∈ l.display, ¬ linkOpener <:+: display) ∧
      underlines (showLinks text) = underlines text ∧
      stripMarkup text = (resolve text (underlineLiterals text) (linkLiterals text)).value.text :=
  ⟨by decide +kernel, by decide +kernel, by decide +kernel, by decide +kernel,
    stripMarkup_eq_drawn (by decide +kernel) (by decide +kernel) (by decide +kernel) (by decide +kernel)⟩

/-- It is not enough that no underline begins in a link. Each of these texts breaks one of the other
conditions: an underline has a link in it, a link shows what completes an opening marker, and the literal of a
link stands also in the display text of another link. -/
theorem DecoratedText.not_stripMarkup_eq_drawn :
    let differs (text : Text) :=
      (∀ l ∈ link.placesIn text, ∀ u ∈ underline.placesIn text, ¬ (l.start ≤ u.start ∧ u.start < l.stop)) ∧
        stripMarkup text ≠ (resolve text (underlineLiterals text) (linkLiterals text)).value.text
    differs "<u>a <link>x</link>(b) c</u>".toList ∧ differs "<<link>u</link>>x</u>".toList ∧
      differs "<link>t</link>(a<link>b)y</link>(z<link>b)y</link>(z<link>b)".toList :=
  ⟨by decide +kernel, by decide +kernel, by decide +kernel⟩

end Changelog
