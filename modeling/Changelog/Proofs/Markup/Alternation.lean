import Changelog.Markup.Piece
import Changelog.Proofs.Text.Marker

/-! The pieces of a text as one alternation that is read from left to right. At every place the first
definition that stands there takes its shortest tag; where none stands, plain text goes on to the
next border. The splitting of a text never runs this alternation: it finds all tags first and divides
the gaps between them afterwards. Both give the same pieces as long as opening markers hold no newline
and cannot overlap. -/

namespace Changelog

namespace TagDefinition

/-- The opening marker stands at the front and, if there is a closing marker, that one occurs at
or behind the end of the opening marker. -/
def StandsAt (d : TagDefinition) (text : Text) : Prop :=
  ∃ inner, text = d.opener ++ inner ∧ ∀ closer, d.closer = some closer → closer <:+: inner

/-- From the opening marker to a closing marker, or the bare opening marker if there is none. -/
def Encloses (d : TagDefinition) (tag : Text) : Prop :=
  match d.closer with
  | none => tag = d.opener
  | some closer => ∃ body, tag = d.opener ++ body ++ closer

/-- The shortest tag at the front of the text, and what follows it. -/
structure Takes (d : TagDefinition) (text tag rest : Text) : Prop where
  eq_append : text = tag ++ rest
  encloses : d.Encloses tag
  shortest : ∀ tag' rest', text = tag' ++ rest' → d.Encloses tag' → tag.length ≤ tag'.length

/-- The scan takes a tag only where its definition stands. -/
theorem standsAt_of_match? {d : TagDefinition} {text tag rest : Text}
    (h : d.match? text = some (tag, rest)) : d.StandsAt text := by
  obtain ⟨inner, hInner, h⟩ := Option.bind_eq_some_iff.1 h
  refine ⟨inner, Text.after?_eq_some_iff.1 hInner, fun closer hCloser => ?_⟩
  rw [hCloser] at h
  obtain ⟨⟨body, tail⟩, hCut, _⟩ := Option.bind_eq_some_iff.1 h
  exact Text.infix_of_cut? hCut

/-- Where a definition stands, the scan finds a tag of it. -/
theorem exists_match?_of_standsAt {d : TagDefinition} {text : Text} (h : d.StandsAt text) :
    ∃ tag rest, d.match? text = some (tag, rest) := by
  obtain ⟨inner, hText, hCloser⟩ := h
  have hAfter := Text.after?_eq_some_iff.2 hText
  cases hc : d.closer with
  | none => exact ⟨d.opener, inner, by simp [match?, hAfter, hc]⟩
  | some closer =>
      obtain ⟨body, tail, hCut⟩ := Text.exists_cut?_of_infix (hCloser closer hc)
      exact ⟨d.opener ++ body ++ closer, tail, by simp [match?, hAfter, hc, hCut]⟩

theorem match?_eq_none_iff {d : TagDefinition} {text : Text} :
    d.match? text = none ↔ ¬d.StandsAt text := by
  constructor
  · intro h hStands
    obtain ⟨tag, rest, hMatch⟩ := exists_match?_of_standsAt hStands
    simp [h] at hMatch
  · intro h
    cases hMatch : d.match? text with
    | none => rfl
    | some found => exact absurd (standsAt_of_match? hMatch) h

theorem takes_of_match? {d : TagDefinition} {text tag rest : Text}
    (h : d.match? text = some (tag, rest)) : d.Takes text tag rest := by
  have hEq := eq_append_of_match? h
  obtain ⟨inner, hInner, h⟩ := Option.bind_eq_some_iff.1 h
  rw [Text.after?_eq_some_iff] at hInner
  cases hc : d.closer with
  | none =>
      rw [hc] at h
      obtain ⟨rfl, rfl⟩ := by simpa using h
      refine ⟨hEq, by simp [Encloses, hc], fun tag' rest' _ hTag => ?_⟩
      have hTag : tag' = d.opener := by simpa [Encloses, hc] using hTag
      rw [hTag]
  | some closer =>
      rw [hc] at h
      obtain ⟨⟨body, tail⟩, hCut, h⟩ := Option.bind_eq_some_iff.1 h
      obtain ⟨rfl, rfl⟩ := by simpa using h
      refine ⟨hEq, by simp [Encloses, hc], fun tag' rest' hText hTag => ?_⟩
      obtain ⟨body', rfl⟩ : ∃ body', tag' = d.opener ++ body' ++ closer := by
        simpa [Encloses, hc] using hTag
      have hSame : inner = body' ++ closer ++ rest' := by
        simpa using hInner.symm.trans hText
      have hLe := Text.length_le_of_cut? hCut hSame
      simp only [List.length_append]
      omega

/-- The shortest tag at a place is the only one. -/
theorem Takes.unique {d : TagDefinition} {text tag rest tag' rest' : Text}
    (h : d.Takes text tag rest) (h' : d.Takes text tag' rest') : tag = tag' ∧ rest = rest' := by
  have hLength := Nat.le_antisymm (h.shortest _ _ h'.eq_append h'.encloses)
    (h'.shortest _ _ h.eq_append h.encloses)
  exact List.append_inj (h.eq_append.symm.trans h'.eq_append) hLength

end TagDefinition

namespace Registry

/-- The first definition that stands at the front of the text takes its shortest tag. -/
def Takes (r : Registry) (text : Text) (d : TagDefinition) (tag rest : Text) : Prop :=
  (∃ before after, r.tags = before ++ d :: after ∧ ∀ e ∈ before, ¬e.StandsAt text) ∧
    d.StandsAt text ∧ d.Takes text tag rest

/-- What a stretch of plain text ends before: an opening marker, the newline that ends the text, or
the end of the text. -/
def Border (r : Registry) (rest : Text) : Prop :=
  (∃ opener ∈ r.openers, opener <+: rest) ∨ rest = ['\n'] ∨ rest = []

/-- The shortest stretch up to a border, and what follows it. It holds at least one character. -/
structure PlainRun (r : Registry) (text run rest : Text) : Prop where
  eq_append : text = run ++ rest
  nonempty : run ≠ []
  border : r.Border rest
  shortest : ∀ run' rest', text = run' ++ rest' → run' ≠ [] → r.Border rest' →
    run.length ≤ run'.length

/-- The pieces of a text, read from left to right. -/
inductive Alternation (r : Registry) : Text → List Piece → Prop where
  | done : Alternation r [] []
  | tag {text tag rest : Text} {d : TagDefinition} {pieces : List Piece}
      (takes : r.Takes text d tag rest) (more : Alternation r rest pieces) :
      Alternation r text (⟨some d, tag⟩ :: pieces)
  | plain {text run rest : Text} {pieces : List Piece}
      (noTag : ∀ d ∈ r.tags, ¬d.StandsAt text) (upTo : r.PlainRun text run rest)
      (more : Alternation r rest pieces) :
      Alternation r text (Piece.plain run :: pieces)

/-- Opening markers hold no newline, and in no text does one of them begin inside another one or
inside itself. Two of them may begin at the same place. -/
structure Separated (r : Registry) : Prop where
  newline_notMem : ∀ opener ∈ r.openers, '\n' ∉ opener
  disjoint : ∀ first ∈ r.openers, ∀ second ∈ r.openers, ∀ (text : Text) (i j : Nat),
    Text.OccursAt first text i → Text.OccursAt second text j → i < j → i + first.length ≤ j

theorem match?_eq_none_iff {r : Registry} {text : Text} :
    r.match? text = none ↔ ∀ d ∈ r.tags, ¬d.StandsAt text := by
  unfold match?
  simp only [List.findSome?_eq_none_iff, Option.map_eq_none_iff, TagDefinition.match?_eq_none_iff]

theorem takes_of_match? {r : Registry} {text tag rest : Text} {d : TagDefinition}
    (h : r.match? text = some (d, tag, rest)) : r.Takes text d tag rest := by
  obtain ⟨before, e, after, hTags, hMap, hBefore⟩ := List.findSome?_eq_some_iff.1 h
  obtain ⟨found, hFound, hEq⟩ := Option.map_eq_some_iff.1 hMap
  obtain ⟨rfl, rfl⟩ := by simpa using hEq
  refine ⟨⟨before, after, hTags, fun e he => ?_⟩, TagDefinition.standsAt_of_match? hFound,
    TagDefinition.takes_of_match? hFound⟩
  exact TagDefinition.match?_eq_none_iff.1 (Option.map_eq_none_iff.1 (hBefore e he))

/-- The alternation and the scan agree on the tag at the front. -/
theorem match?_eq_some_iff {r : Registry} {text tag rest : Text} {d : TagDefinition} :
    r.match? text = some (d, tag, rest) ↔ r.Takes text d tag rest := by
  constructor
  · exact takes_of_match?
  · rintro ⟨⟨before, after, hTags, hBefore⟩, hStands, hTakes⟩
    obtain ⟨tag', rest', hMatch⟩ := TagDefinition.exists_match?_of_standsAt hStands
    obtain ⟨rfl, rfl⟩ := hTakes.unique (TagDefinition.takes_of_match? hMatch)
    refine List.findSome?_eq_some_iff.2 ⟨before, d, after, hTags, by simp [hMatch], fun e he => ?_⟩
    simpa using TagDefinition.match?_eq_none_iff.2 (hBefore e he)

/-- The shortest stretch up to a border is the only one. -/
theorem PlainRun.unique {r : Registry} {text run rest run' rest' : Text}
    (h : r.PlainRun text run rest) (h' : r.PlainRun text run' rest') :
    run = run' ∧ rest = rest' := by
  have hLength := Nat.le_antisymm (h.shortest _ _ h'.eq_append h'.nonempty h'.border)
    (h'.shortest _ _ h.eq_append h.nonempty h.border)
  exact List.append_inj (h.eq_append.symm.trans h'.eq_append) hLength

theorem opensHere_iff {r : Registry} {text : Text} :
    r.opensHere text = true ↔ ∃ opener ∈ r.openers, opener <+: text := by
  simp [opensHere, List.any_eq_true, List.isPrefixOf_iff_prefix]

/-- Opening markers are not empty; a registry does not take any that are. -/
theorem opener_ne_nil {r : Registry} {opener : Text} (h : opener ∈ r.openers) : opener ≠ [] := by
  obtain ⟨d, hd, rfl⟩ := List.mem_map.1 h
  exact r.opener_ne d hd

theorem match?_nil (r : Registry) : r.match? [] = none := by
  cases h : r.match? [] with
  | none => rfl
  | some found => exact absurd (rest_length_lt_of_match? h) (by simp)

/-- A tag ends the gap in front of it, and the gap behind it belongs to it. -/
theorem scan_of_match? {r : Registry} {text tag rest : Text} {d : TagDefinition}
    (h : r.match? text = some (d, tag, rest)) :
    r.scan text = ⟨[], (⟨some d, tag⟩, (r.scan rest).gap) :: (r.scan rest).tags⟩ := by
  rw [scan]
  split
  · rename_i hMatch
    obtain ⟨rfl, rfl, rfl⟩ := by simpa [h] using hMatch
    rfl
  · rename_i hMatch
    simp [h] at hMatch

@[simp] theorem scan_nil (r : Registry) : r.scan [] = ⟨[], []⟩ := by
  rw [scan]
  split
  · rename_i hMatch
    simp [match?_nil] at hMatch
  · rfl

theorem scan_cons {r : Registry} {c : Char} {rest : Text} (h : r.match? (c :: rest) = none) :
    r.scan (c :: rest) = ⟨c :: (r.scan rest).gap, (r.scan rest).tags⟩ := by
  rw [scan]
  split
  · rename_i hMatch
    simp [h] at hMatch
  · rfl

/-- So a tag at the front is the first piece. -/
theorem split_of_match? {r : Registry} {text tag rest : Text} {d : TagDefinition}
    (h : r.match? text = some (d, tag, rest)) :
    r.split text = ⟨some d, tag⟩ :: r.split rest := by
  simp [split, scan_of_match? h, piecesOf, plainRuns]

/-- What follows a gap: nothing behind the last tag, and otherwise an opening marker. -/
theorem gap_append (r : Registry) (text : Text) :
    ∃ tail, text = (r.scan text).gap ++ tail ∧
      (((r.scan text).tags = [] ∧ tail = []) ∨
        ((r.scan text).tags ≠ [] ∧ ∃ opener ∈ r.openers, opener <+: tail)) := by
  induction text with
  | nil => exact ⟨[], by simp, Or.inl (by simp)⟩
  | cons c rest ih =>
      cases hMatch : r.match? (c :: rest) with
      | some found =>
          obtain ⟨d, tag, after⟩ := found
          obtain ⟨inner, hInner, _⟩ :=
            TagDefinition.standsAt_of_match? (mem_tags_of_match? hMatch).2
          refine ⟨c :: rest, by simp [scan_of_match? hMatch], Or.inr ?_⟩
          exact ⟨by simp [scan_of_match? hMatch], d.opener,
            List.mem_map_of_mem (mem_tags_of_match? hMatch).1, ⟨inner, hInner.symm⟩⟩
      | none =>
          obtain ⟨tail, hText, hTail⟩ := ih
          exact ⟨tail, by rw [scan_cons hMatch, List.cons_append, ← hText],
            by simpa [scan_cons hMatch] using hTail⟩

/-- Inside a gap the scan begins anew with the rest of the gap. -/
theorem scan_of_gap_eq_append {r : Registry} {text before gap : Text}
    (h : (r.scan text).gap = before ++ gap) :
    ∃ rest, text = before ++ rest ∧ r.scan rest = ⟨gap, (r.scan text).tags⟩ := by
  induction before generalizing text with
  | nil => exact ⟨text, rfl, by rw [← List.nil_append gap, ← h]⟩
  | cons c before ih =>
      cases text with
      | nil => simp at h
      | cons d text =>
          cases hMatch : r.match? (d :: text) with
          | some found => simp [scan_of_match? hMatch] at h
          | none =>
              rw [scan_cons hMatch] at h
              obtain ⟨rfl, hGap⟩ := List.cons.inj h
              obtain ⟨rest, rfl, hScan⟩ := ih hGap
              exact ⟨rest, rfl, by simpa [scan_cons hMatch] using hScan⟩

/-- The first stretch of a divided gap ends at the gap's end or before the first opening marker
that lies wholly inside the gap and not at its front. -/
theorem exists_plainRuns_cons (r : Registry) (c : Char) (gap : Text) :
    ∃ run rest, gap = run ++ rest ∧ r.plainRuns (c :: gap) = (c :: run) :: r.plainRuns rest ∧
      (rest = [] ∨ r.opensHere rest = true) ∧
      ∀ a b, run = a ++ b → b ≠ [] → r.opensHere (b ++ rest) = false := by
  induction gap generalizing c with
  | nil =>
      refine ⟨[], [], rfl, by simp [plainRuns], Or.inl rfl, fun a b hRun hb => ?_⟩
      exact absurd (List.append_eq_nil_iff.1 hRun.symm).2 hb
  | cons d gap ih =>
      obtain ⟨run, rest, hGap, hRuns, hRest, hInside⟩ := ih d
      cases hOpens : r.opensHere (d :: gap) with
      | true =>
          refine ⟨[], d :: gap, rfl, ?_, Or.inr hOpens, fun a b hRun hb => ?_⟩
          · rw [plainRuns, hRuns]
            simp [hOpens]
          · exact absurd (List.append_eq_nil_iff.1 hRun.symm).2 hb
      | false =>
          refine ⟨d :: run, rest, by simp [hGap], ?_, hRest, fun a b hRun hb => ?_⟩
          · rw [plainRuns, hRuns]
            simp [hOpens]
          · cases a with
            | nil =>
                obtain rfl : d :: run = b := hRun
                rwa [List.cons_append, ← hGap]
            | cons e a => exact hInside a b (List.cons.inj hRun).2 hb

/-- A stretch is plain text up to the next border if no border lies inside it. -/
theorem PlainRun.of_inside {r : Registry} {c : Char} {run rest : Text} (hBorder : r.Border rest)
    (hInside : ∀ a b, run = a ++ b → b ≠ [] → ¬r.Border (b ++ rest)) :
    r.PlainRun (c :: run ++ rest) (c :: run) rest := by
  refine ⟨rfl, List.cons_ne_nil c run, hBorder, fun run' rest' hText hNe hBorder' => ?_⟩
  rcases List.append_eq_append_iff.1 hText with ⟨more, rfl, _⟩ | ⟨b, hRun, rfl⟩
  · simp
  · obtain ⟨d, a, rfl⟩ := List.exists_cons_of_ne_nil hNe
    cases b with
    | nil => simp [hRun]
    | cons e b =>
        have hInner : run = a ++ e :: b := (List.cons.inj hRun).2
        exact absurd hBorder' (hInside a (e :: b) hInner (List.cons_ne_nil e b))

/-- An opening marker is a border, whatever follows. -/
theorem border_of_opensHere {r : Registry} {text : Text} (h : r.opensHere text = true)
    (tail : Text) : r.Border (text ++ tail) := by
  obtain ⟨opener, hMem, hStands⟩ := opensHere_iff.1 h
  exact Or.inl ⟨opener, hMem, hStands.trans (List.prefix_append text tail)⟩

theorem not_prefix_of_opensHere_eq_false {r : Registry} {text : Text}
    (h : r.opensHere text = false) {opener : Text} (hMem : opener ∈ r.openers) :
    ¬opener <+: text := by
  intro hStands
  rw [opensHere_iff.2 ⟨opener, hMem, hStands⟩] at h
  cases h

/-- In front of an opening marker there are no other borders than the opening markers that lie
wholly in front of it. -/
theorem Separated.not_border_before_opener {r : Registry} (hSep : r.Separated) {text tail : Text}
    (hText : text ≠ []) (hOpens : r.opensHere text = false)
    {opener : Text} (hMem : opener ∈ r.openers) (hTail : opener <+: tail) :
    ¬r.Border (text ++ tail) := by
  have hTailNe : tail ≠ [] := by
    rintro rfl
    exact opener_ne_nil hMem (List.prefix_nil.1 hTail)
  rintro (⟨first, hFirst, hStands⟩ | hNewline | hEnd)
  · rcases Text.prefix_append_cases hStands with hLeft | ⟨more, hMore, rfl, _⟩
    · exact not_prefix_of_opensHere_eq_false hOpens hFirst hLeft
    · have hDisjoint := hSep.disjoint _ hFirst opener hMem (text ++ tail) 0 text.length
        (by simpa [Text.OccursAt] using hStands) (Text.occursAt_append_length hTail)
        (List.length_pos_iff.2 hText)
      have hLength := List.length_pos_iff.2 hMore
      simp only [List.length_append] at hDisjoint
      omega
  · have hLength := congrArg List.length hNewline
    have hLeft := List.length_pos_iff.2 hText
    have hRight := List.length_pos_iff.2 hTailNe
    simp only [List.length_append, List.length_cons, List.length_nil] at hLength
    omega
  · exact hText (List.append_eq_nil_iff.1 hEnd).1

/-- In front of the newline that ends the text there are no other borders than opening markers. -/
theorem Separated.not_border_before_newline {r : Registry} (hSep : r.Separated) {text : Text}
    (hText : text ≠ []) (hOpens : r.opensHere text = false) : ¬r.Border (text ++ ['\n']) := by
  rintro (⟨opener, hMem, hStands⟩ | hNewline | hEnd)
  · rcases Text.prefix_append_cases hStands with hLeft | ⟨more, hMore, rfl, hRight⟩
    · exact not_prefix_of_opensHere_eq_false hOpens hMem hLeft
    · obtain ⟨d, more, rfl⟩ := List.exists_cons_of_ne_nil hMore
      have hd : d = '\n' := (List.cons_prefix_cons.1 hRight).1
      exact hSep.newline_notMem _ hMem (by simp [hd])
  · exact hText (by simpa using hNewline)
  · exact hText (List.append_eq_nil_iff.1 hEnd).1

/-- The newline that ends a text is a stretch of its own. -/
theorem lastRuns_append_newline (r : Registry) (text : Text) :
    r.lastRuns (text ++ ['\n']) = r.plainRuns text ++ [['\n']] := by
  cases text with
  | nil => simp [lastRuns, plainRuns]
  | cons c text =>
      have hLong : ¬(c :: text ++ ['\n']).length ≤ 1 := by simp
      have hBefore : Text.before? ['\n'] (c :: text ++ ['\n']) = some (c :: text) :=
        Text.before?_eq_some_iff.2 rfl
      rw [lastRuns, if_neg hLong, hBefore]

/-- Without one, the last gap is divided as any other. -/
theorem lastRuns_of_getLast? {r : Registry} {text : Text} (h : text.getLast? ≠ some '\n') :
    r.lastRuns text = r.plainRuns text := by
  unfold lastRuns
  split
  · rfl
  · split
    · rename_i body hBefore
      rw [Text.before?_eq_some_iff.1 hBefore] at h
      simp at h
    · rfl

/-- At the end of the text the first stretch goes up to the next border. -/
theorem Separated.exists_lastRuns_cons {r : Registry} (hSep : r.Separated) (c : Char) (gap : Text) :
    ∃ run rest, r.PlainRun (c :: gap) run rest ∧ r.lastRuns (c :: gap) = run :: r.lastRuns rest := by
  rcases List.eq_nil_or_concat' gap with rfl | ⟨body, last, rfl⟩
  · refine ⟨[c], [], ?_, by simp [lastRuns, plainRuns]⟩
    have hInside : ∀ a b : Text, [] = a ++ b → b ≠ [] → ¬r.Border (b ++ []) := by
      intro a b hab hb
      exact absurd (List.append_eq_nil_iff.1 hab.symm).2 hb
    exact PlainRun.of_inside (Or.inr (Or.inr rfl)) hInside
  · by_cases hLast : last = '\n'
    · -- the newline stands alone, and what is divided is the text in front of it
      subst hLast
      obtain ⟨run, rest, rfl, hRuns, hRest, hInside⟩ := r.exists_plainRuns_cons c body
      have hBorder : r.Border (rest ++ ['\n']) := by
        rcases hRest with rfl | hOpens
        · exact Or.inr (Or.inl rfl)
        · exact border_of_opensHere hOpens _
      refine ⟨c :: run, rest ++ ['\n'], ?_, ?_⟩
      · have hRun := PlainRun.of_inside (c := c) hBorder fun a b hab hb => by
          rw [← List.append_assoc]
          exact hSep.not_border_before_newline (by simp [hb]) (hInside a b hab hb)
        simpa using hRun
      · rw [lastRuns_append_newline, ← List.cons_append, lastRuns_append_newline, hRuns,
          List.cons_append]
    · -- nothing that is left begins with a newline that ends the text
      obtain ⟨run, rest, hGap, hRuns, hRest, hInside⟩ := r.exists_plainRuns_cons c (body ++ [last])
      have hEnd {text before : Text} (h : body ++ [last] = before ++ text) :
          text.getLast? ≠ some '\n' := by
        rcases List.eq_nil_or_concat' text with rfl | ⟨init, d, rfl⟩
        · simp
        · have hd : last = d := by
            rw [← List.append_assoc] at h
            simpa using (List.append_inj' h rfl).2
          simpa [← hd] using hLast
      have hBorder : r.Border rest := by
        rcases hRest with rfl | hOpens
        · exact Or.inr (Or.inr rfl)
        · simpa using border_of_opensHere hOpens []
      refine ⟨c :: run, rest, ?_, ?_⟩
      · rw [hGap]
        refine PlainRun.of_inside hBorder fun a b hab hb => ?_
        rintro (⟨opener, hMem, hStands⟩ | hNewline | hNil)
        · exact not_prefix_of_opensHere_eq_false (hInside a b hab hb) hMem hStands
        · have hWhole : body ++ [last] = a ++ (b ++ rest) := by rw [hGap, hab, List.append_assoc]
          exact hEnd hWhole (by rw [hNewline]; rfl)
        · exact hb (List.append_eq_nil_iff.1 hNil).1
      · have hCons : (c :: (body ++ [last])).getLast? ≠ some '\n' := by
          rw [← List.cons_append, List.getLast?_concat]
          simpa using hLast
        rw [lastRuns_of_getLast? hCons, lastRuns_of_getLast? (hEnd hGap), hRuns]

/-- Where no tag stands, the splitting begins with plain text up to the next border and goes on from
there. -/
theorem Separated.exists_plainRun {r : Registry} (hSep : r.Separated) {c : Char} {text : Text}
    (hMatch : r.match? (c :: text) = none) :
    ∃ run rest, r.PlainRun (c :: text) run rest ∧
      r.split (c :: text) = Piece.plain run :: r.split rest := by
  have hScan := scan_cons hMatch
  obtain ⟨tail, hText, hTail⟩ := r.gap_append (c :: text)
  have hGap : (r.scan (c :: text)).gap = c :: (r.scan text).gap := by rw [hScan]
  rcases hTail with ⟨hTags, rfl⟩ | ⟨hTags, opener, hMem, hOpener⟩
  · -- no tag follows, so the gap is all of the text
    rw [List.append_nil] at hText
    obtain ⟨run, rest, hRun, hRuns⟩ := hSep.exists_lastRuns_cons c text
    have hSplit : (r.scan (c :: text)).gap = run ++ rest := hText.symm.trans hRun.eq_append
    obtain ⟨rest', hRest, hScanRest⟩ := scan_of_gap_eq_append hSplit
    obtain rfl : rest = rest' := List.append_cancel_left (hRun.eq_append.symm.trans hRest)
    refine ⟨run, rest, hRun, ?_⟩
    simp only [split, hScanRest, ← hText, hTags, piecesOf, hRuns, List.map_cons]
  · -- the stretch ends at the opening marker behind the gap, if not before
    obtain ⟨run, rest, hRest, hRuns, hFirst, hInside⟩ :=
      r.exists_plainRuns_cons c (r.scan text).gap
    have hSplit : (r.scan (c :: text)).gap = (c :: run) ++ rest := by
      rw [hGap, hRest, List.cons_append]
    obtain ⟨more, hMore, hScanMore⟩ := scan_of_gap_eq_append hSplit
    obtain rfl : rest ++ tail = more := by
      rw [hSplit, List.append_assoc] at hText
      exact List.append_cancel_left (hText.symm.trans hMore)
    have hBorder : r.Border (rest ++ tail) := by
      rcases hFirst with rfl | hOpens
      · exact Or.inl ⟨opener, hMem, hOpener⟩
      · exact border_of_opensHere hOpens tail
    refine ⟨c :: run, rest ++ tail, ?_, ?_⟩
    · rw [hMore]
      refine PlainRun.of_inside hBorder fun a b hab hb => ?_
      rw [← List.append_assoc]
      exact hSep.not_border_before_opener (by simp [hb]) (hInside a b hab hb) hMem hOpener
    · obtain ⟨⟨tag, next⟩, after, hTagsEq⟩ := List.exists_cons_of_ne_nil hTags
      simp only [split, hScanMore, hGap, hTagsEq, piecesOf, hRuns, List.map_cons, List.cons_append]

/-- A reading of the alternation gives the pieces of the splitting. -/
theorem Separated.split_eq {r : Registry} (hSep : r.Separated) {text : Text} {pieces : List Piece}
    (h : r.Alternation text pieces) : r.split text = pieces := by
  induction h with
  | done => simp [split, piecesOf, lastRuns, plainRuns]
  | tag takes more ih => rw [split_of_match? (match?_eq_some_iff.2 takes), ih]
  | @plain text run rest pieces noTag upTo more ih =>
      cases text with
      | nil => exact absurd (List.append_eq_nil_iff.1 upTo.eq_append.symm).1 upTo.nonempty
      | cons c text =>
          obtain ⟨run', rest', hRun, hSplit⟩ :=
            hSep.exists_plainRun (match?_eq_none_iff.2 noTag)
          obtain ⟨rfl, rfl⟩ := upTo.unique hRun
          rw [hSplit, ih]

/-- Every text can be read by the alternation, with the pieces of the splitting. -/
theorem Separated.alternation_split {r : Registry} (hSep : r.Separated) (text : Text) :
    r.Alternation text (r.split text) := by
  cases hMatch : r.match? text with
  | some found =>
      obtain ⟨d, tag, rest⟩ := found
      rw [split_of_match? hMatch]
      exact Alternation.tag (takes_of_match? hMatch) (hSep.alternation_split rest)
  | none =>
      cases text with
      | nil =>
          rw [hSep.split_eq Alternation.done]
          exact Alternation.done
      | cons c text =>
          obtain ⟨run, rest, hRun, hSplit⟩ := hSep.exists_plainRun hMatch
          rw [hSplit]
          exact Alternation.plain (match?_eq_none_iff.1 hMatch) hRun (hSep.alternation_split rest)
termination_by text.length
decreasing_by
  · have hLength := congrArg List.length hRun.eq_append
    have hPos := List.length_pos_iff.2 hRun.nonempty
    simp only [List.length_append] at hLength
    omega
  · exact rest_length_lt_of_match? hMatch

/-- Markers that have their only opening bracket at the front cannot overlap. -/
theorem separated_of_bracketed {r : Registry}
    (h : ∀ opener ∈ r.openers, Text.Bracketed opener ∧ '\n' ∉ opener) : r.Separated := by
  refine ⟨fun opener hMem => (h opener hMem).2, ?_⟩
  intro first hFirst second hSecond text i j hi hj hLt
  obtain ⟨name, rfl, _⟩ := (h second hSecond).1
  have hBehind : ∃ rest, text.drop j = '<' :: rest := by
    obtain ⟨rest, hRest⟩ := hj
    exact ⟨name ++ rest, by rw [← hRest, List.cons_append]⟩
  have hSplit : text.drop i = (text.drop i).take (j - i) ++ text.drop j := by
    have hDrop : (text.drop i).drop (j - i) = text.drop j := by
      rw [List.drop_drop]
      congr 1
      omega
    rw [← hDrop, List.take_append_drop]
  have hNe : (text.drop i).take (j - i) ≠ [] := by
    have hLength := hi.length_le
    have hPos := List.length_pos_iff.2 (opener_ne_nil hFirst)
    apply List.ne_nil_of_length_pos
    rw [List.length_take]
    omega
  have hStands : first <+: (text.drop i).take (j - i) ++ text.drop j := hSplit ▸ hi
  have hInside := ((h first hFirst).1.prefix_of_prefix_append hStands hNe
    (Or.inr hBehind)).length_le
  rw [List.length_take] at hInside
  omega

theorem builtin_openers : builtin.openers = TagKind.all.map TagKind.opener := rfl

/-- The usual opening markers have one opening bracket each, at the front. -/
theorem bracketed_opener (kind : TagKind) : Text.Bracketed kind.opener := by
  cases kind <;> exact ⟨_, rfl, by decide⟩

/-- So the usual markers are separated. -/
theorem builtin_separated : builtin.Separated := by
  refine separated_of_bracketed fun opener hMem => ?_
  rw [builtin_openers] at hMem
  obtain ⟨kind, _, rfl⟩ := List.mem_map.1 hMem
  exact ⟨bracketed_opener kind, by cases kind <;> decide⟩

/-- The splitting reads the alternation, with the usual tags and with any others whose opening markers
are separated. Every text has such a reading, and no other one. -/
theorem split_eq_iff_alternation :
    builtin.Separated ∧ ∀ r : Registry, r.Separated → ∀ (text : Text) (pieces : List Piece),
      r.split text = pieces ↔ r.Alternation text pieces := by
  refine ⟨builtin_separated, fun r hSep text pieces => ⟨?_, hSep.split_eq⟩⟩
  rintro rfl
  exact hSep.alternation_split text

/-- An image that is never closed stays plain and is divided before the next marker; the newline at the
end stands alone. -/
theorem alternation_of_dangling_opener :
    builtin.Separated ∧
      builtin.Alternation "é<img b<font>x</font>y\n".toList
        [Piece.plain ['é'], Piece.plain "<img b".toList,
          ⟨some (TagDefinition.builtin .font), "<font>x</font>".toList⟩,
          Piece.plain ['y'], Piece.plain ['\n']] :=
  ⟨builtin_separated,
    (split_eq_iff_alternation.2 builtin builtin_separated _ _).1 (by decide +kernel)⟩

end Registry

end Changelog
