import Changelog.Proofs.Drawing.Matches
import Changelog.Proofs.Drawing.Replacement

/-! The annotations of a text are remembered without their places, and are found again where they were
read. An occurrence of a literal begins in an annotation of its kind, so the first free one is the place
of the first annotation that is not found yet. What is drawn is the text with every annotation replaced by
what it shows. -/

namespace Changelog

open Annotations

namespace Inline

/-- What is drawn in place of the annotation: a link shows its address if nothing else is given. -/
def shown : Inline → Text
  | underline u => u.content
  | link l =>
    match l.display with
    | some (c :: display) => c :: display
    | _ => Text.trim l.target

/-- How it is drawn. -/
def decoration : Inline → DecorationKind
  | underline _ => .underline
  | link l => .link (Text.trim l.target)

namespace Match

variable {m n : Inline.Match}

/-- The annotation as it is looked for. -/
def occurrence (m : Match) : Occurrence :=
  ⟨m.start, m.item.literal, m.item.kind⟩

/-- Of two different annotations only one can come before the other. An annotation is not empty, after
all. -/
theorem eq_of_both_before (h : m.stop ≤ n.start) (h' : n.stop ≤ m.start) : m = n := by
  have hm := m.start_lt_stop
  have hn := n.start_lt_stop
  omega

end Match

end Inline

/-- A stretch of a text that is drawn as written, or an annotation. -/
inductive Part where
  | verbatim (text : Text)
  | inline (item : Inline)
deriving DecidableEq, Repr

namespace Part

def written : Part → Text
  | verbatim text => text
  | inline item => item.literal

def shown : Part → Text
  | verbatim text => text
  | inline item => item.shown

/-- The annotations among the parts of a text that begins at `start`, with their places. -/
def placesFrom (start : Nat) : List Part → List Inline.Match
  | [] => []
  | verbatim text :: rest => placesFrom (start + Text.byteSize text) rest
  | inline item :: rest => ⟨start, item⟩ :: placesFrom (start + Text.byteSize item.literal) rest

/-- The decorations of the parts, drawn from offset `start` on. -/
def decorationsFrom (start : Nat) : List Part → List Decoration
  | [] => []
  | verbatim text :: rest => decorationsFrom (start + Text.byteSize text) rest
  | inline item :: rest =>
    let stop := start + Text.byteSize item.shown
    ⟨⟨start, stop⟩, item.decoration⟩ :: decorationsFrom stop rest

end Part

namespace Annotations

/-- A link that was read from a text is read again from its literal. -/
theorem link?_literal {l : Link} {text after : Text} (h : link? text = some (l, after)) :
    link? l.literal = some (l, []) := by
  obtain ⟨inner, _, h⟩ := Option.bind_eq_some_iff.1 h
  obtain ⟨⟨target, tail⟩, hCut, h⟩ := Option.bind_eq_some_iff.1 h
  rw [Text.eq_of_cut? hCut, List.append_assoc] at hCut
  have hRead (more : Text) : link? (linkOpener ++ (target ++ (linkCloser ++ more))) =
      some ((display? more).elim (⟨target, none⟩, more) fun d => (⟨target, some d.1⟩, d.2)) := by
    have hAfter : Text.after? linkOpener (linkOpener ++ (target ++ (linkCloser ++ more))) =
        some (target ++ (linkCloser ++ more)) := Text.after?_eq_some_iff.2 rfl
    simp only [link?, hAfter, Text.cut?_append hCut more, Option.bind_eq_bind, Option.bind_some]
    cases display? more <;> rfl
  dsimp only at h
  split at h
  · rename_i display rest hDisplay
    obtain ⟨rfl, rfl⟩ := by simpa using h
    have hClosed : Text.cut? [')'] (display ++ ([')'] ++ rest)) = some (display, rest) := by
      rw [eq_of_display? hDisplay] at hDisplay
      simpa [display?] using hDisplay
    have hAgain : display? ('(' :: (display ++ [')'])) = some (display, []) := by
      simpa [display?] using Text.cut?_append hClosed []
    have hLink := hRead ('(' :: (display ++ [')']))
    rw [hAgain] at hLink
    simpa [Link.literal] using hLink
  · obtain ⟨rfl, rfl⟩ := by simpa using h
    simpa [Link.literal, display?] using hRead []

/-- So what is drawn for a link is what was read. -/
theorem hyperlink?_literal {l : Link} {text after : Text} (h : link? text = some (l, after)) :
    hyperlink? l.literal = some l.toHyperlink := by
  have hRead := link?_literal h
  rw [hyperlink?, links]
  split
  · rename_i l' rest hFirst
    obtain ⟨rfl, _⟩ := Prod.mk.inj (Option.some.inj (hRead.symm.trans hFirst))
    rfl
  · rename_i hNone
    rw [hRead] at hNone
    cases hNone

/-- A link is drawn with what it shows, and leads to its address without white space at the ends. -/
theorem toHyperlink_eq (l : Link) :
    l.toHyperlink = ⟨Text.trim l.target, (Inline.link l).shown⟩ := by
  obtain ⟨target, display⟩ := l
  rcases display with _ | _ | ⟨c, display⟩ <;> rfl

theorem underlineContent_literal (u : Underline) : underlineContent u.literal = u.content := by
  have hAfter : Text.after? underlineOpener u.literal = some (u.content ++ underlineCloser) :=
    Text.after?_eq_some_iff.2 (List.append_assoc ..)
  have hBefore : Text.before? underlineCloser (u.content ++ underlineCloser) = some u.content :=
    Text.before?_eq_some_iff.2 rfl
  rw [underlineContent, hAfter, Option.bind_some, hBefore, Option.getD_some]

end Annotations

namespace AnnotationKind

variable {kind : AnnotationKind} {text : Text} {m : Inline.Match}

/-- An annotation that is found again is drawn as what was read there. -/
theorem shown_of_mem (h : m ∈ kind.placesIn text) :
    m.occurrence.shown = (m.item.shown, some m.item.decoration) := by
  obtain ⟨_, after, _, _, hRead⟩ := of_mem_matchesFrom h
  have hKind := kind_of_mem h
  obtain ⟨start, item⟩ := m
  cases item with
  | underline u =>
      simp only [Inline.Match.occurrence, Occurrence.shown, Inline.kind, Inline.literal,
        underlineContent_literal]
      rfl
  | link l =>
      obtain rfl : link = kind := hKind
      obtain ⟨⟨l', rest⟩, hLink, hEq⟩ := Option.map_eq_some_iff.1 hRead
      obtain ⟨hItem, rfl⟩ := Prod.mk.inj hEq
      obtain rfl := Inline.link.inj hItem
      simp only [Inline.Match.occurrence, Occurrence.shown, Inline.kind, Inline.literal,
        hyperlink?_literal hLink, toHyperlink_eq]
      rfl

/-- An annotation is among the occurrences of its literal, since no other of these reaches into it. -/
theorem AllFlat.mem_occurrences (hFlat : AllFlat text) (h : m ∈ kind.placesIn text) :
    m.start ∈ DecoratedText.occurrences m.item.literal text := by
  obtain ⟨before, after, hText, hStart, _⟩ := of_mem_matchesFrom h
  rw [hStart]
  refine DecoratedText.mem_occurrencesFrom m.item.literal_ne_nil hText (Nat.zero_le _) ?_
  intro a b hAgain hLt
  have hSize := Text.byteSize_lt_of_length_lt (hAgain.symm.trans hText) hLt
  have hItem := hFlat.of_mem h
  have hAgainAt : Inline.Match.StandsIn ⟨Text.byteSize a, m.item⟩ text :=
    ⟨a, b, by rw [hAgain, List.append_assoc], rfl⟩
  have hApart : Text.byteSize a + Text.byteSize m.item.literal ≤ Text.byteSize before := by
    by_contra hOverlap
    have hStop : m.stop = Text.byteSize before + Text.byteSize m.item.literal := by
      rw [Inline.Match.stop, hStart, Nat.zero_add]
    have hEq : Text.byteSize a = m.start :=
      (eq_of_flat_overlap (m := ⟨Text.byteSize a, m.item⟩) hItem hItem
        hAgainAt (standsIn_of_mem h) (by show Text.byteSize a < m.stop; omega)
        (by show m.start < Text.byteSize a + Text.byteSize m.item.literal; omega)).2
    omega
  rw [← Text.byteSize_append] at hApart
  obtain ⟨gap, rfl, _⟩ := Text.exists_append_of_byteSize_le
    ((List.append_assoc ..).trans (hAgain.symm.trans hText)) hApart
  simp

/-- Each annotation of the text is among the occurrences of its literal, and no link has a byte in common
with an underline. -/
structure Findable (text : Text) : Prop where
  counted : ∀ kind : AnnotationKind, ∀ m ∈ kind.placesIn text,
    m.start ∈ DecoratedText.occurrences m.item.literal text
  apart : ∀ m ∈ link.placesIn text, ∀ n ∈ underline.placesIn text,
    m.stop ≤ n.start ∨ n.stop ≤ m.start

/-- Flat annotations can be found again: none reaches into another one. -/
theorem AllFlat.findable (hFlat : AllFlat text) : Findable text :=
  ⟨fun _ _ hm => hFlat.mem_occurrences hm, fun _ hm _ hn => hFlat.apart hm hn (by decide)⟩

/-- Once the annotations before it are found, an annotation is found at its place: an earlier occurrence of
its literal begins in one of them. -/
theorem Findable.find?_of_mem {found : List Occurrence} (hFindable : Findable text)
    (h : m ∈ kind.placesIn text) (hFree : ∀ o ∈ found, o.Apart m.occurrence)
    (hFound : ∀ n ∈ kind.placesIn text, n.start < m.start → n.occurrence ∈ found) :
    (DecoratedText.occurrences m.item.literal text).find?
      (DecoratedText.isFree found m.item.literal) = some m.start := by
  refine DecoratedText.find?_eq_first (DecoratedText.pairwise_occurrencesFrom ..)
    (hFindable.counted kind m h) ((DecoratedText.isFree_iff m.item.kind).2 hFree)
    fun start hMem hLt => ?_
  have hAgainAt : Inline.Match.StandsIn ⟨start, m.item⟩ text :=
    DecoratedText.standsAt_of_mem_occurrences hMem
  have hKind := kind_of_mem h
  obtain ⟨n, hn, hStart, hStop⟩ := exists_mem_of_standsIn (m := ⟨start, m.item⟩) hKind hAgainAt
  have hTaken := hFound n hn (Nat.lt_of_le_of_lt hStart hLt)
  rw [Bool.eq_false_iff]
  intro hStill
  have hSize := mt Text.byteSize_eq_zero_iff.1 m.item.literal_ne_nil
  rcases (DecoratedText.isFree_iff m.item.kind).1 hStill _ hTaken with hBefore | hAfter
  · exact absurd hStop (Nat.not_lt.2 hBefore)
  · have hLe : start + Text.byteSize m.item.literal ≤ n.start := hAfter
    have hLe' : n.start ≤ start := hStart
    omega

/-- The annotations of one kind are found one after the other, if nothing else takes their places. -/
theorem Findable.locateAll_todo {found : List Occurrence} {done todo : List Inline.Match}
    (hFindable : Findable text) (hSplit : kind.placesIn text = done ++ todo)
    (hApart : ∀ o ∈ found, ∀ m ∈ kind.placesIn text, o.Apart m.occurrence)
    (rest : List (Text × AnnotationKind)) :
    DecoratedText.locateAll text (found ++ done.map Inline.Match.occurrence)
        (todo.map (fun m => (m.item.literal, kind)) ++ rest) =
      DecoratedText.locateAll text (found ++ (kind.placesIn text).map Inline.Match.occurrence)
        rest := by
  induction todo generalizing done with
  | nil => rw [hSplit, List.append_nil, List.map_nil, List.nil_append]
  | cons m todo ih =>
      have hMem : m ∈ kind.placesIn text := by
        rw [hSplit]
        exact List.mem_append_right _ (List.mem_cons_self ..)
      have hPairwise := pairwise_matchesFrom kind 0 text
      rw [show kind.matchesFrom 0 text = done ++ m :: todo from hSplit, List.pairwise_append,
        List.pairwise_cons] at hPairwise
      obtain ⟨_, ⟨hLater, _⟩, hEarlier⟩ := hPairwise
      -- those found before lie apart: the ones of this kind because annotations follow one another
      have hFree : ∀ o ∈ found ++ done.map Inline.Match.occurrence, o.Apart m.occurrence := by
        intro o ho
        rcases List.mem_append.1 ho with ho | ho
        · exact hApart o ho m hMem
        · obtain ⟨n, hn, rfl⟩ := List.mem_map.1 ho
          exact Or.inl (hEarlier n hn m (List.mem_cons_self ..))
      have hFound : ∀ n ∈ kind.placesIn text, n.start < m.start →
          n.occurrence ∈ found ++ done.map Inline.Match.occurrence := by
        intro n hn hLt
        rw [hSplit] at hn
        refine List.mem_append_right _ (List.mem_map_of_mem ?_)
        rcases List.mem_append.1 hn with hn | hn
        · exact hn
        · have hPos := m.start_lt_stop
          rcases List.mem_cons.1 hn with rfl | hn
          · omega
          · have hLe := hLater n hn
            omega
      have hFind := hFindable.find?_of_mem hMem hFree hFound
      have hNext : kind.placesIn text = done ++ [m] ++ todo := by
        rw [hSplit, List.append_assoc, List.singleton_append]
      have hOne := ih hNext
      rw [List.map_append, ← List.append_assoc] at hOne
      rw [List.map_cons, List.cons_append, DecoratedText.locateAll_of_find? hFind, ← hOne]
      rw [← kind_of_mem hMem]
      rfl

/-- The annotations of a kind are found at their places, unless something found before lies there. -/
theorem Findable.locateAll_places {found : List Occurrence} (hFindable : Findable text)
    (hApart : ∀ o ∈ found, ∀ m ∈ kind.placesIn text, o.Apart m.occurrence)
    (rest : List (Text × AnnotationKind)) :
    DecoratedText.locateAll text found
        ((kind.placesIn text).map (fun m => (m.item.literal, kind)) ++ rest) =
      DecoratedText.locateAll text (found ++ (kind.placesIn text).map Inline.Match.occurrence)
        rest := by
  have hAll := hFindable.locateAll_todo (List.nil_append _).symm hApart rest
  rwa [List.map_nil, List.append_nil] at hAll

/-- The annotations of a text in the order in which they are looked for. -/
def sought (text : Text) : List Inline.Match :=
  link.placesIn text ++ underline.placesIn text

theorem kind_literals (kind : AnnotationKind) (text : Text) :
    (kind.annotations text).map (fun a => (a.literal, kind)) =
      (kind.placesIn text).map fun m => (m.item.literal, kind) := by
  rw [placesIn, ← map_item_matchesFrom kind 0, List.map_map]
  rfl

theorem link_literals (text : Text) : (linkLiterals text).map (·, link) =
    (link.placesIn text).map fun m => (m.item.literal, link) := by
  rw [← kind_literals, annotations, linkLiterals, List.map_map, List.map_map]
  rfl

theorem underline_literals (text : Text) : (underlineLiterals text).map (·, underline) =
    (underline.placesIn text).map fun m => (m.item.literal, underline) := by
  rw [← kind_literals, annotations, underlineLiterals, List.map_map, List.map_map]
  rfl

/-- No annotation is written as the empty text. -/
theorem literals_ne_nil (text : Text) :
    ∀ l ∈ (linkLiterals text).map (·, link) ++ (underlineLiterals text).map (·, underline),
      l.1 ≠ [] := by
  rw [link_literals, underline_literals]
  intro l hl
  rcases List.mem_append.1 hl with hl | hl
  all_goals
    obtain ⟨m, _, rfl⟩ := List.mem_map.1 hl
    exact m.item.literal_ne_nil

/-- Every annotation is found at its place. -/
theorem Findable.locateAll_eq (hFindable : Findable text) :
    DecoratedText.locateAll text []
        ((linkLiterals text).map (·, link) ++ (underlineLiterals text).map (·, underline)) =
      pure ((sought text).map Inline.Match.occurrence) := by
  have hNone : ∀ o ∈ ([] : List Occurrence), ∀ m ∈ link.placesIn text, o.Apart m.occurrence :=
    fun o ho => absurd ho List.not_mem_nil
  have hApart : ∀ o ∈ [] ++ (link.placesIn text).map Inline.Match.occurrence,
      ∀ m ∈ underline.placesIn text, o.Apart m.occurrence := by
    intro o ho m hm
    obtain ⟨n, hn, rfl⟩ := List.mem_map.1 ho
    exact hFindable.apart n hn m hm
  have hUnderlines := hFindable.locateAll_places hApart []
  rw [List.append_nil] at hUnderlines
  rw [link_literals, underline_literals, hFindable.locateAll_places hNone, hUnderlines, sought,
    List.map_append]
  rfl

theorem AllFlat.locateAll_eq (hFlat : AllFlat text) :
    DecoratedText.locateAll text []
        ((linkLiterals text).map (·, link) ++ (underlineLiterals text).map (·, underline)) =
      pure ((sought text).map Inline.Match.occurrence) :=
  hFlat.findable.locateAll_eq

/-- Where annotations are replaced, what is kept and the annotations are the parts of the text. -/
theorem exists_parts_of_replacements {replacements : List Replacement} {items : List Inline.Match}
    {start : Nat} (tail : Text)
    (hFound : replacements.map (·.occurrence) = items.map Inline.Match.occurrence)
    (hPlace : Replacement.InPlace start replacements)
    (hShown : ∀ m ∈ items, m.occurrence.shown = (m.item.shown, some m.item.decoration)) :
    ∃ parts : List Part,
      parts.flatMap Part.written = replacements.flatMap Replacement.written ++ tail ∧
      Part.placesFrom start parts = items ∧
      parts.flatMap Part.shown = replacements.flatMap Replacement.drawn ++ tail ∧
      ∀ offset, Part.decorationsFrom offset parts =
        Replacement.decorationsFrom offset replacements := by
  induction replacements generalizing items start with
  | nil =>
      obtain rfl := List.map_eq_nil_iff.1 hFound.symm
      exact ⟨[.verbatim tail], by simp [Part.written], rfl, by simp [Part.shown], fun _ => rfl⟩
  | cons r rest ih =>
      obtain ⟨m, items, rfl, hFirst, hRest⟩ := List.map_eq_cons_iff.1 hFound.symm
      obtain ⟨kept, occurrence⟩ := r
      obtain rfl : m.occurrence = occurrence := hFirst
      obtain ⟨hStart, hPlace⟩ := hPlace
      obtain ⟨parts, hWritten, hPlaces, hDrawn, hDecorations⟩ := ih hRest.symm hPlace
        fun n hn => hShown n (List.mem_cons_of_mem _ hn)
      have hHere := hShown m (List.mem_cons_self ..)
      refine ⟨.verbatim kept :: .inline m.item :: parts, ?_, ?_, ?_, fun offset => ?_⟩
      · simp [Part.written, Replacement.written, Inline.Match.occurrence, hWritten]
      · obtain ⟨start', item⟩ := m
        obtain rfl : start' = start + Text.byteSize kept := hStart
        simp only [Part.placesFrom, ← hPlaces]
        simp [Replacement.written, Inline.Match.occurrence, Nat.add_assoc]
      · simp [Part.shown, Replacement.drawn, hHere, hDrawn]
      · simp [Part.decorationsFrom, Replacement.decorationsFrom, Replacement.drawn, hHere,
          hDecorations, Nat.add_assoc]

/-- Replacing annotations that follow one another divides the text into parts. -/
theorem exists_parts {items : List Inline.Match} {done rest : Text} (hText : text = done ++ rest)
    (hIn : ∀ m ∈ items, m.StandsIn text)
    (hShown : ∀ m ∈ items, m.occurrence.shown = (m.item.shown, some m.item.decoration))
    (hAfter : ∀ m ∈ items, Text.byteSize done ≤ m.start)
    (hOrder : items.Pairwise fun m n => m.stop ≤ n.start) :
    ∃ parts : List Part, parts.flatMap Part.written = rest ∧
      Part.placesFrom (Text.byteSize done) parts = items ∧
      ∀ drawn : DecoratedText, DecoratedText.replaceFrom text drawn (Text.byteSize done)
          (items.map Inline.Match.occurrence) =
        { text := drawn.text ++ parts.flatMap Part.shown
          decorations := drawn.decorations ++
            Part.decorationsFrom (Text.byteSize drawn.text) parts } := by
  have hPairwise : (items.map Inline.Match.occurrence).Pairwise fun a b => a.stop ≤ b.start :=
    List.pairwise_map.2 hOrder
  obtain ⟨replacements, tail, hFound, rfl, hPlace, hReplace⟩ := DecoratedText.exists_replacements
    hText (List.forall_mem_map.2 hIn) (List.forall_mem_map.2 hAfter) hPairwise
  obtain ⟨parts, hWritten, hPlaces, hDrawn, hDecorations⟩ :=
    exists_parts_of_replacements tail hFound hPlace hShown
  exact ⟨parts, hWritten, hPlaces, fun drawn => by rw [hReplace, hDrawn, hDecorations]⟩

theorem filter_placesIn (kind : AnnotationKind) (text : Text) :
    (kind.placesIn text).filter (·.item.kind = kind) = kind.placesIn text :=
  List.filter_eq_self.2 fun _ hm => decide_eq_true (kind_of_mem hm)

theorem filter_placesIn_of_ne {other : AnnotationKind} (hNe : kind ≠ other) (text : Text) :
    (kind.placesIn text).filter (·.item.kind = other) = [] :=
  List.filter_eq_nil_iff.2 fun _ hm => by simp [kind_of_mem hm, hNe]

theorem filter_sought (kind : AnnotationKind) (text : Text) :
    (sought text).filter (·.item.kind = kind) = kind.placesIn text := by
  rw [sought, List.filter_append]
  cases kind with
  | underline => rw [filter_placesIn_of_ne (by decide), filter_placesIn, List.nil_append]
  | link =>
      rw [filter_placesIn, filter_placesIn_of_ne (by decide), List.append_nil]

/-- Sorting what was found sorts the annotations by their places. -/
theorem inOrder_map_occurrence (items : List Inline.Match) :
    DecoratedText.inOrder (items.map Inline.Match.occurrence) =
      (items.mergeSort fun m n => m.start ≤ n.start).map Inline.Match.occurrence := by
  have hSame : ∀ m ∈ items, ∀ n ∈ items, decide (m.start ≤ n.start) =
      decide (m.occurrence.start ≤ n.occurrence.start) := fun _ _ _ _ => rfl
  exact (List.map_mergeSort hSame).symm

/-- Sorted by their places, the annotations follow one another, and those of each kind keep their
order. -/
theorem Findable.exists_inOrder (hFindable : Findable text) :
    ∃ items : List Inline.Match,
      DecoratedText.inOrder ((sought text).map Inline.Match.occurrence) =
        items.map Inline.Match.occurrence ∧
      items.Perm (sought text) ∧ items.Pairwise (fun m n => m.stop ≤ n.start) ∧
      ∀ kind : AnnotationKind, items.filter (·.item.kind = kind) = kind.placesIn text := by
  have hPerm := List.mergeSort_perm (sought text) fun m n => decide (m.start ≤ n.start)
  have hLocated : Located text ((sought text).map Inline.Match.occurrence) := by
    have hFound := DecoratedText.located_locateAll (literals_ne_nil text)
      (DecoratedText.located_nil text)
    rw [hFindable.locateAll_eq] at hFound
    exact hFound
  have hOrder := hLocated.pairwise_inOrder
  rw [inOrder_map_occurrence, List.pairwise_map] at hOrder
  refine ⟨_, inOrder_map_occurrence _, hPerm, hOrder, fun kind => ?_⟩
  refine List.Perm.eq_of_pairwise (fun m n _ _ h h' => Inline.Match.eq_of_both_before h h')
    (hOrder.filter _) (pairwise_matchesFrom kind 0 text) ?_
  rw [← filter_sought]
  exact hPerm.filter _

theorem AllFlat.exists_inOrder (hFlat : AllFlat text) :
    ∃ items : List Inline.Match,
      DecoratedText.inOrder ((sought text).map Inline.Match.occurrence) =
        items.map Inline.Match.occurrence ∧
      items.Perm (sought text) ∧ items.Pairwise (fun m n => m.stop ≤ n.start) ∧
      ∀ kind : AnnotationKind, items.filter (·.item.kind = kind) = kind.placesIn text :=
  hFlat.findable.exists_inOrder

end AnnotationKind

open AnnotationKind

/-- In a text whose annotations are flat, each literal is found where its annotation was read, and none is
missing. The text is drawn with every annotation replaced by what it shows, and the decorations are the
replacements, from left to right. -/
theorem DecoratedText.resolve_recovers {text : Text} (hFlat : AllFlat text) :
    locateAll text []
        ((linkLiterals text).map (·, .link) ++ (underlineLiterals text).map (·, .underline)) =
      pure ((link.placesIn text ++ underline.placesIn text).map Inline.Match.occurrence) ∧
    ∃ parts : List Part, parts.flatMap Part.written = text ∧
      (∀ kind : AnnotationKind,
        (Part.placesFrom 0 parts).filter (·.item.kind = kind) = kind.placesIn text) ∧
      resolve text (underlineLiterals text) (linkLiterals text) =
        pure { text := parts.flatMap Part.shown, decorations := Part.decorationsFrom 0 parts } := by
  refine ⟨hFlat.locateAll_eq, ?_⟩
  obtain ⟨items, hInOrder, hPerm, hOrder, hKinds⟩ := hFlat.exists_inOrder
  have hMem {m : Inline.Match} (hm : m ∈ items) : ∃ kind : AnnotationKind, m ∈ kind.placesIn text := by
    rcases List.mem_append.1 (hPerm.mem_iff.1 hm) with h | h
    · exact ⟨_, h⟩
    · exact ⟨_, h⟩
  obtain ⟨parts, hWritten, hPlaces, hReplace⟩ := exists_parts (List.nil_append text).symm
    (fun m hm => (hMem hm).elim fun _ h => standsIn_of_mem h)
    (fun m hm => (hMem hm).elim fun _ h => shown_of_mem h) (fun m _ => Nat.zero_le _) hOrder
  refine ⟨parts, hWritten, fun kind => ?_, ?_⟩
  · rw [← hKinds kind, ← hPlaces]
    rfl
  · rw [resolve, hFlat.locateAll_eq]
    have hDrawn := hReplace {}
    rw [← hInOrder] at hDrawn
    exact congrArg pure hDrawn

/-- Two equal underlines and a link with empty parentheses: each is found again at its own place. -/
theorem DecoratedText.resolve_recovers_equal_literals :
    let text := "<u>a</u><link> b </link>()<u>a</u>".toList
    AllFlat text ∧
      locateAll text [] ((linkLiterals text).map (·, .link) ++
          (underlineLiterals text).map (·, .underline)) =
        pure ((link.placesIn text ++ underline.placesIn text).map Inline.Match.occurrence) ∧
      ∃ parts : List Part, parts.flatMap Part.written = text ∧
        (∀ kind : AnnotationKind,
          (Part.placesFrom 0 parts).filter (·.item.kind = kind) = kind.placesIn text) ∧
        resolve text (underlineLiterals text) (linkLiterals text) =
          pure { text := parts.flatMap Part.shown, decorations := Part.decorationsFrom 0 parts } :=
  ⟨by decide +kernel, resolve_recovers (by decide +kernel)⟩

example :
    let text := "<u>a</u><link> b </link>()<u>a</u>".toList
    (DecoratedText.resolve text (underlineLiterals text) (linkLiterals text)).value =
      { text := ['a', 'b', 'a']
        decorations := [⟨⟨0, 1⟩, .underline⟩, ⟨⟨1, 2⟩, .link ['b']⟩, ⟨⟨2, 3⟩, .underline⟩] } := by
  cbv

end Changelog
