import Changelog.Proofs.Drawing.Resolved

/-! Resolving any literals. What is found divides the text into what is kept and what is replaced, so nothing
needs to be known of offsets: what is drawn is the division with every occurrence replaced by what it shows,
and the decorations are the replacements. -/

namespace Changelog

namespace Occurrence

/-- What is to be shown of an occurrence, and with which decoration: an underline without its markers, the
display text of a link, and as it is written what has no markers or is no link. -/
inductive Shows (o : Occurrence) : Text → Option DecorationKind → Prop
  | underline (content : Text) (hKind : o.kind = .underline)
      (hLiteral : o.literal = Annotations.underlineOpener ++ content ++ Annotations.underlineCloser) :
      o.Shows content (some .underline)
  | unmarked (hKind : o.kind = .underline)
      (hLiteral : ∀ content,
        o.literal ≠ Annotations.underlineOpener ++ content ++ Annotations.underlineCloser) :
      o.Shows o.literal (some .underline)
  | link (link : Hyperlink) (hKind : o.kind = .link)
      (hLiteral : Annotations.hyperlink? o.literal = some link) :
      o.Shows link.display (some (.link link.url))
  | verbatim (hKind : o.kind = .link) (hLiteral : Annotations.hyperlink? o.literal = none) :
      o.Shows o.literal none

/-- An underline without its markers is what stands between them, if both are there. -/
theorem marked_iff {literal content : Text} :
    (Text.after? Annotations.underlineOpener literal).bind (Text.before? Annotations.underlineCloser) =
        some content ↔
      literal = Annotations.underlineOpener ++ content ++ Annotations.underlineCloser := by
  rw [Option.bind_eq_some_iff, List.append_assoc]
  constructor
  · rintro ⟨rest, hAfter, hBefore⟩
    rw [Text.after?_eq_some_iff.1 hAfter, Text.before?_eq_some_iff.1 hBefore]
  · intro hLiteral
    exact ⟨_, Text.after?_eq_some_iff.2 hLiteral, Text.before?_eq_some_iff.2 rfl⟩

/-- What is drawn for an occurrence is what it is said to show. -/
theorem shows_shown (o : Occurrence) : o.Shows o.shown.1 o.shown.2 := by
  obtain ⟨start, literal, kind⟩ := o
  cases kind with
  | underline =>
      cases hContent : (Text.after? Annotations.underlineOpener literal).bind
          (Text.before? Annotations.underlineCloser) with
      | some content =>
          simp only [shown, Annotations.underlineContent, hContent]
          exact .underline content rfl (marked_iff.1 hContent)
      | none =>
          simp only [shown, Annotations.underlineContent, hContent]
          exact .unmarked rfl fun content hLiteral => by
            rw [marked_iff.2 hLiteral] at hContent
            cases hContent
  | link =>
      cases hLink : Annotations.hyperlink? literal with
      | some link =>
          simp only [shown, hLink]
          exact .link link rfl hLink
      | none =>
          simp only [shown, hLink]
          exact .verbatim rfl hLink

end Occurrence

/-- An occurrence that is replaced, with the text kept in front of it. -/
structure Replacement where
  kept : Text
  occurrence : Occurrence

namespace Replacement

def written (r : Replacement) : Text :=
  r.kept ++ r.occurrence.literal

def drawn (r : Replacement) : Text :=
  r.kept ++ r.occurrence.shown.1

/-- Every occurrence begins where the text kept in front of it ends, from offset `start` on. -/
def InPlace (start : Nat) : List Replacement → Prop
  | [] => True
  | r :: rest =>
    r.occurrence.start = start + Text.byteSize r.kept ∧
      InPlace (start + Text.byteSize r.written) rest

/-- The decorations of what is drawn from offset `start` on. An occurrence that is shown as written has
none. -/
def decorationsFrom (start : Nat) : List Replacement → List Decoration
  | [] => []
  | r :: rest =>
    let stop := start + Text.byteSize r.drawn
    let decoration := r.occurrence.shown.2.map fun kind =>
      (⟨⟨start + Text.byteSize r.kept, stop⟩, kind⟩ : Decoration)
    decoration.toList ++ decorationsFrom stop rest

/-- At the decorations of what is drawn, the text is what the occurrences show. -/
theorem map_decorationsFrom (before after : Text) (replacements : List Replacement) :
    (decorationsFrom (Text.byteSize before) replacements).map (fun d =>
        (Text.slice d.span.start d.span.stop (before ++ (replacements.flatMap drawn ++ after)), d.kind)) =
      replacements.filterMap fun r =>
        r.occurrence.shown.2.map fun kind => (r.occurrence.shown.1, kind) := by
  induction replacements generalizing before with
  | nil => rfl
  | cons r rest ih =>
      have hRest := ih (before ++ r.drawn)
      rw [Text.byteSize_append, List.append_assoc] at hRest
      rw [decorationsFrom, List.map_append, List.flatMap_cons, List.append_assoc, hRest,
        List.filterMap_cons]
      cases hKind : r.occurrence.shown.2 with
      | none => rfl
      | some kind =>
          have hShown : Text.StandsAt r.occurrence.shown.1
              (before ++ (r.drawn ++ (rest.flatMap drawn ++ after)))
              ⟨Text.byteSize before + Text.byteSize r.kept,
                Text.byteSize before + Text.byteSize r.drawn⟩ :=
            ⟨before ++ r.kept, rest.flatMap drawn ++ after, by simp [drawn],
              by simp [drawn, Nat.add_assoc]⟩
          exact congrArg₂ List.cons (congrArg₂ Prod.mk hShown.slice_eq rfl) rfl

end Replacement

namespace DecoratedText

variable {text done rest : Text} {found : List Occurrence}

/-- Occurrences that follow one another divide the text that is left, and replacing them replaces them in the
division. -/
theorem exists_replacements (hText : text = done ++ rest) (hIn : ∀ o ∈ found, o.StandsIn text)
    (hAfter : ∀ o ∈ found, Text.byteSize done ≤ o.start)
    (hOrder : found.Pairwise fun a b => a.stop ≤ b.start) :
    ∃ (replacements : List Replacement) (tail : Text),
      replacements.map (·.occurrence) = found ∧
      rest = replacements.flatMap Replacement.written ++ tail ∧
      Replacement.InPlace (Text.byteSize done) replacements ∧
      ∀ drawn : DecoratedText, replaceFrom text drawn (Text.byteSize done) found =
        { text := drawn.text ++ (replacements.flatMap Replacement.drawn ++ tail)
          decorations := drawn.decorations ++
            Replacement.decorationsFrom (Text.byteSize drawn.text) replacements } := by
  induction found generalizing done rest with
  | nil =>
      have hRest : Text.StandsAt rest text ⟨Text.byteSize done, Text.byteSize text⟩ :=
        ⟨done, [], by rw [hText, List.append_nil], by rw [hText, Text.byteSize_append]⟩
      refine ⟨[], rest, rfl, rfl, trivial, fun drawn => ?_⟩
      rw [replaceFrom, hRest.slice_eq]
      simp [Replacement.decorationsFrom]
  | cons o found ih =>
      obtain ⟨hFirst, hOrder⟩ := List.pairwise_cons.1 hOrder
      obtain ⟨before, after, hOccurrence, hSpan⟩ := hIn o (List.mem_cons_self ..)
      obtain ⟨hStart, hStop⟩ := Span.mk.inj hSpan
      have hLe := hAfter o (List.mem_cons_self ..)
      rw [hStart] at hLe
      obtain ⟨kept, rfl, hRest⟩ := Text.exists_append_of_byteSize_le
        (hText.symm.trans (hOccurrence.trans (List.append_assoc ..))) hLe
      -- what is kept in front of the occurrence is found; all up to its end is done then
      rw [← Text.byteSize_append] at hStop
      obtain ⟨replacements, tail, hFound, hWritten, hPlace, hReplace⟩ := ih hOccurrence
        (fun b hb => hIn b (List.mem_cons_of_mem _ hb)) (fun b hb => hStop ▸ hFirst b hb) hOrder
      have hKept : Text.StandsAt kept text ⟨Text.byteSize done, o.start⟩ :=
        ⟨done, o.literal ++ after, by rw [hOccurrence, List.append_assoc],
          by rw [hStart, Text.byteSize_append]⟩
      refine ⟨⟨kept, o⟩ :: replacements, tail, by rw [List.map_cons, hFound], ?_, ⟨?_, ?_⟩,
        fun drawn => ?_⟩
      · simp [Replacement.written, hRest, hWritten]
      · rw [hStart, Text.byteSize_append]
      · rwa [← Text.byteSize_append, Replacement.written, ← List.append_assoc]
      · rw [replaceFrom, hKept.slice_eq, hStop]
        simp only [hReplace]
        simp [Replacement.drawn, Replacement.decorationsFrom, Nat.add_assoc]

/-- Of each literal at most one occurrence is found, and they are found in the order of the literals. -/
theorem exists_locateAll_eq (text : Text) (found : List Occurrence)
    (literals : List (Text × AnnotationKind)) :
    ∃ more, (locateAll text found literals).value = found ++ more ∧
      (more.map fun o => (o.literal, o.kind)).Sublist literals := by
  induction literals generalizing found with
  | nil => exact ⟨[], (List.append_nil found).symm, List.Sublist.refl _⟩
  | cons l literals ih =>
      obtain ⟨literal, kind⟩ := l
      cases hFind : (occurrences literal text).find? (isFree found literal) with
      | none =>
          obtain ⟨more, hMore, hSublist⟩ := ih found
          exact ⟨more, (locateAll_of_find?_eq_none hFind).symm ▸ hMore, hSublist.cons _⟩
      | some start =>
          obtain ⟨more, hMore, hSublist⟩ := ih (found ++ [⟨start, literal, kind⟩])
          refine ⟨⟨start, literal, kind⟩ :: more, ?_, hSublist.cons_cons _⟩
          rw [locateAll_of_find? hFind, hMore, List.append_assoc, List.singleton_append]

/-- With any literals that are not empty, at most one occurrence of each is replaced. The occurrences stand in
the text, no two of them with a byte in common; what is drawn is the text with each of them replaced by what it
shows; and the decorations lie in order in what is drawn, each at what its literal shows. -/
theorem resolve_replaces (text : Text) (underlines hyperlinks : List Text) (hUnderlines : [] ∉ underlines)
    (hHyperlinks : [] ∉ hyperlinks) :
    let literals := hyperlinks.map (·, AnnotationKind.link) ++ underlines.map (·, .underline)
    let found := (locateAll text [] literals).value
    let drawn := (resolve text underlines hyperlinks).value
    (found.map fun o => (o.literal, o.kind)).Sublist literals ∧
      (∀ o ∈ found, o.StandsIn text ∧ o.Shows o.shown.1 o.shown.2) ∧
      found.Pairwise Occurrence.Apart ∧
      (∃ (replacements : List Replacement) (tail : Text),
        replacements.map (·.occurrence) = inOrder found ∧
        text = replacements.flatMap Replacement.written ++ tail ∧
        Replacement.InPlace 0 replacements ∧
        drawn.text = replacements.flatMap Replacement.drawn ++ tail ∧
        drawn.decorations = Replacement.decorationsFrom 0 replacements) ∧
      drawn.InOrder ∧
      drawn.decorations.map (fun d => (drawn.decorationText d, d.kind)) =
        (inOrder found).filterMap fun o => o.shown.2.map fun kind => (o.shown.1, kind) := by
  intro literals found drawn
  have hNe : ∀ l ∈ literals, l.1 ≠ [] := by
    intro l hl hNil
    rcases List.mem_append.1 hl with hl | hl
    · obtain ⟨literal, hMem, rfl⟩ := List.mem_map.1 hl
      exact hHyperlinks (hNil ▸ hMem)
    · obtain ⟨literal, hMem, rfl⟩ := List.mem_map.1 hl
      exact hUnderlines (hNil ▸ hMem)
  have hLocated : Located text found := located_locateAll hNe (located_nil text)
  obtain ⟨more, hMore, hSublist⟩ := exists_locateAll_eq text [] literals
  obtain rfl : found = more := hMore
  obtain ⟨replacements, tail, hFound, hWritten, hPlace, hReplace⟩ :=
    exists_replacements (List.nil_append text).symm
      (fun o ho => hLocated.standsIn o ((inOrder_perm found).mem_iff.1 ho)) (fun _ _ => Nat.zero_le _)
      hLocated.pairwise_inOrder
  have hDrawn : drawn = _ := hReplace {}
  refine ⟨hSublist, fun o ho => ⟨hLocated.standsIn o ho, o.shows_shown⟩, hLocated.apart,
    ⟨replacements, tail, hFound, hWritten, hPlace, ?_, ?_⟩, inOrder_resolve .., ?_⟩
  · rw [hDrawn]
    rfl
  · rw [hDrawn]
    rfl
  · have hTexts := Replacement.map_decorationsFrom [] tail replacements
    rw [← hFound, List.filterMap_map, hDrawn]
    exact hTexts

/-- Two equal underlines with a literal across both, and a link with a literal that it contains. -/
theorem resolve_replaces_overlapping_literals :
    let text := "<u>a</u><u>a</u> <link>b</link> <link>".toList
    let underlines := ["<u>a</u>".toList, "</u><u>".toList, "<u>a</u>".toList]
    let hyperlinks := ["<link>b</link>".toList, "<link>".toList]
    let drawn := (resolve text underlines hyperlinks).value
    [] ∉ underlines ∧ [] ∉ hyperlinks ∧
      (∃ (replacements : List Replacement) (tail : Text),
        text = replacements.flatMap Replacement.written ++ tail ∧
        drawn.text = replacements.flatMap Replacement.drawn ++ tail ∧
        drawn.decorations = Replacement.decorationsFrom 0 replacements) ∧
      drawn.InOrder := by
  intro text underlines hyperlinks drawn
  have hUnderlines : [] ∉ underlines := by decide
  have hHyperlinks : [] ∉ hyperlinks := by decide
  obtain ⟨_, _, _, ⟨replacements, tail, _, hWritten, _, hText, hDecorations⟩, hInOrder, _⟩ :=
    resolve_replaces text underlines hyperlinks hUnderlines hHyperlinks
  exact ⟨hUnderlines, hHyperlinks, ⟨replacements, tail, hWritten, hText, hDecorations⟩, hInOrder⟩

/-- A link literal that is no link is drawn as written, and keeps the underline off its characters. -/
example :
    (resolve ['a', 'a', 'a', 'b'] [['a']] [['a', 'a']]).value =
      { text := ['a', 'a', 'a', 'b'], decorations := [⟨⟨2, 3⟩, .underline⟩] } := by
  cbv

end DecoratedText

end Changelog
