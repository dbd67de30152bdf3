import Changelog.Proofs.Drawing.ParagraphLines

/-! Word wrap of a whole text. Its lines hold the words of the text, from left to right and paragraph by
paragraph; and each is filled as far as the column allows. -/

namespace Changelog

namespace Text

/-- What newlines end or separate in a text; nothing behind the last newline does not count. -/
def newlineParts (text : Text) : List Text :=
  let parts := text.splitOn '\n'
  if parts.getLast? = some [] then parts.dropLast else parts

theorem newlineParts_newline (text : Text) :
    newlineParts ('\n' :: text) = [] :: newlineParts text := by
  obtain ⟨part, more, hParts⟩ := List.exists_cons_of_ne_nil (List.splitOn_ne_nil '\n' text)
  have hCut : ('\n' :: text).splitOn '\n' = [] :: part :: more := by
    rw [List.splitOn_cons_eq_if_modifyHead, if_pos (by simp), hParts]
  simp only [newlineParts, hCut, hParts, List.getLast?_cons_cons, List.dropLast_cons_cons]
  split <;> rfl

/-- A character that is no newline belongs to the part behind it, or is a part of its own at the end. -/
theorem newlineParts_cons {c : Char} (h : c ≠ '\n') (text : Text) :
    newlineParts (c :: text) =
      match newlineParts text with
      | [] => [[c]]
      | part :: more => (c :: part) :: more := by
  obtain ⟨part, more, hParts⟩ := List.exists_cons_of_ne_nil (List.splitOn_ne_nil '\n' text)
  have hCut : (c :: text).splitOn '\n' = (c :: part) :: more := by
    rw [List.splitOn_cons_eq_if_modifyHead, if_neg (by simpa using h), hParts, List.modifyHead_cons]
  simp only [newlineParts, hCut, hParts]
  cases more with
  | nil => cases part <;> simp
  | cons next more =>
      simp only [List.getLast?_cons_cons, List.dropLast_cons_cons]
      split <;> rfl

/-- Paragraphs are what stands between newlines. Some of them are blank, but the last one is left out if
nothing stands in it. -/
theorem paragraphs_eq_newlineParts (text : Text) : paragraphs text = newlineParts text := by
  induction text with
  | nil => rfl
  | cons c text ih =>
      rw [paragraphs]
      split
      · rename_i hNewline
        rw [hNewline, newlineParts_newline, ih]
      · rename_i hOther
        have hParts := newlineParts_cons hOther text
        rw [← ih] at hParts
        exact hParts.symm

theorem eq_nil_of_paragraphs {text : Text} (h : paragraphs text = []) : text = [] := by
  cases text with
  | nil => rfl
  | cons c text =>
      rw [paragraphs] at h
      split at h
      · cases h
      · split at h <;> cases h

/-- No word runs over a newline. -/
theorem flatMap_separated_newlineParts (text : Text) :
    (newlineParts text).flatMap separated = separated text := by
  rw [← paragraphs_eq_newlineParts]
  generalize hParts : paragraphs text = parts
  induction parts generalizing text with
  | nil => rw [eq_nil_of_paragraphs hParts]; rfl
  | cons part more ih =>
      rw [List.flatMap_cons]
      rcases paragraphs_eq_cons hParts with ⟨rfl, rfl⟩ | ⟨rest, rfl, hRest⟩
      · exact List.append_nil _
      · rw [ih rest hRest, separated_append_cons rfl]

/-- There is no newline in a paragraph. -/
theorem newline_notMem_of_mem_paragraphs {text paragraph : Text} (h : paragraph ∈ paragraphs text) :
    '\n' ∉ paragraph := by
  induction text generalizing paragraph with
  | nil => cases h
  | cons c text ih =>
      rw [paragraphs] at h
      split at h
      · rcases List.mem_cons.1 h with rfl | h
        · exact List.not_mem_nil
        · exact ih h
      · rename_i hOther
        split at h
        · obtain rfl := List.mem_singleton.1 h
          simpa using fun hEq => hOther hEq.symm
        · rename_i first more hMore
          rw [hMore] at ih
          rcases List.mem_cons.1 h with rfl | h
          · have hFirst := ih (List.mem_cons_self ..)
            simpa using ⟨fun hEq => hOther hEq.symm, hFirst⟩
          · exact ih (List.mem_cons_of_mem _ h)

/-- What is left out at the end of a paragraph is white space. -/
theorem exists_blank_ending (paragraph : Text) :
    ∃ ending, paragraph = (before? ['\r'] paragraph).getD paragraph ++ ending ∧
      ∀ c ∈ ending, isBlank c = true := by
  cases h : before? ['\r'] paragraph with
  | none => exact ⟨[], (List.append_nil _).symm, by simp⟩
  | some head =>
      refine ⟨['\r'], before?_eq_some_iff.1 h, fun c hMem => ?_⟩
      obtain rfl := List.mem_singleton.1 hMem
      rfl

end Text

namespace Wrap

open Text

variable {α : Type} {c : Column α} {whole : Text} {base : Nat}

/-- Lines that hold the words of their paragraphs hold them all in order. -/
theorem separated_of_holds {paragraphs : List Text} {blocks : List (List (WrappedLine α))}
    (h : List.Forall₂ Holds paragraphs blocks) :
    blocks.flatten.flatMap (fun line => separated line.text) = paragraphs.flatMap separated := by
  induction h with
  | nil => rfl
  | cons hFirst _ ih =>
      rw [List.flatten_cons, List.flatMap_append, ih, hFirst.separated_eq, List.flatMap_cons]

variable [Scalar α]

/-- What the lines of paragraphs are, where these begin at offset `base` of the whole text. -/
structure Column.WrapsAll (c : Column α) (whole : Text) (base : Nat) (paragraphs : List Text)
    (lines : List (WrappedLine α)) : Prop where
  holds : ∃ blocks, blocks.flatten = lines ∧ List.Forall₂ Holds paragraphs blocks
  lineIn : ∀ line ∈ lines, c.LineIn whole line
  after : ∀ line ∈ lines, base ≤ line.span.start
  ordered : lines.Pairwise fun a b => a.span.stop < b.span.start
  fits : ∀ line ∈ lines, 2 ≤ (separated line.text).length →
    c.measurer.textWidth line.text c.font ≤ c.width
  full : lines.IsChain fun a b =>
    '\n' ∉ slice a.span.stop b.span.start whole → c.NoRoom whole a b

theorem wrapsAll_nil (c : Column α) (whole : Text) (base : Nat) : c.WrapsAll whole base [] [] :=
  ⟨⟨[], rfl, .nil⟩, by simp, by simp, List.Pairwise.nil, by simp, List.isChain_nil⟩

/-- Lines of a paragraph may be put before those of the paragraphs behind the next newline. -/
theorem Column.Wraps.append {paragraph ending : Text} {paragraphs : List Text}
    {lines more : List (WrappedLine α)} {next : Nat} (h : c.Wraps whole base paragraph lines)
    (hEnding : ∀ d ∈ ending, isBlank d = true) (h' : c.WrapsAll whole next paragraphs more)
    (hNext : base + byteSize paragraph < next)
    (hNewline : ∀ a ∈ lines, ∀ b ∈ more, '\n' ∈ slice a.span.stop b.span.start whole) :
    c.WrapsAll whole base ((paragraph ++ ending) :: paragraphs) (lines ++ more) := by
  obtain ⟨blocks, rfl, hBlocks⟩ := h'.holds
  have hWords := separated_append_blank hEnding paragraph
  have hHolds : Holds (paragraph ++ ending) lines :=
    ⟨h.holds.ne_nil, h.holds.separated_eq.trans hWords.symm, fun hNone =>
      h.holds.blank (hWords.symm.trans hNone)⟩
  refine ⟨⟨lines :: blocks, rfl, .cons hHolds hBlocks⟩,
    List.forall_mem_append.2 ⟨h.lineIn, h'.lineIn⟩,
    List.forall_mem_append.2 ⟨fun a ha => (h.within a ha).1, fun b hb => ?_⟩,
    List.pairwise_append.2 ⟨h.ordered, h'.ordered, fun a ha b hb => ?_⟩,
    List.forall_mem_append.2 ⟨h.fits, h'.fits⟩,
    List.isChain_append.2 ⟨h.full.imp fun a b hRoom _ => hRoom, h'.full, fun a ha b hb hNone => ?_⟩⟩
  · have hAfter := h'.after b hb
    omega
  · have hBefore := (h.within a ha).2
    have hAfter := h'.after b hb
    omega
  · exact absurd (hNewline a (List.mem_of_mem_getLast? ha) b (List.mem_of_mem_head? hb)) hNone

/-- The paragraphs from some offset on are wrapped where they stand in the whole text. -/
theorem wrapsAll_linesFrom (c : Column α) {before rest : Text} {paragraphs : List Text}
    (hWhole : whole = before ++ rest) (hParagraphs : Text.paragraphs rest = paragraphs)
    (hBase : base = byteSize before) (hFree : EndsFree before) :
    c.WrapsAll whole base paragraphs (c.linesFrom base paragraphs) := by
  induction paragraphs generalizing before rest base with
  | nil => exact wrapsAll_nil c whole base
  | cons paragraph more ih =>
      obtain ⟨ending, hEnding, hBlank⟩ := exists_blank_ending paragraph
      have hNewline : '\n' ∉ (before? ['\r'] paragraph).getD paragraph := fun hMem =>
        newline_notMem_of_mem_paragraphs (hParagraphs ▸ List.mem_cons_self ..)
          (hEnding ▸ List.mem_append_left _ hMem)
      rw [Column.linesFrom]
      generalize (before? ['\r'] paragraph).getD paragraph = kept at hEnding hNewline
      subst hEnding
      -- what is left out at the end is white space, so no word runs on into it
      have hStands {after : Text} (hRest : rest = kept ++ ending ++ after) (hAfter : BeginsFree after) :
          StandsFree kept whole base :=
        ⟨before, ending ++ after, by rw [hWhole, hRest, List.append_assoc], hBase, hFree,
          (beginsFree_of_blank hBlank).append hAfter⟩
      have hSize : base + byteSize kept < base + byteSize (kept ++ ending) + 1 := by
        rw [byteSize_append]
        omega
      rcases paragraphs_eq_cons hParagraphs with ⟨rfl, rfl⟩ | ⟨below, rfl, hBelow⟩
      · have hWraps := wraps_paragraphLines c
          (hStands (List.append_nil _).symm beginsFree_nil) hNewline
        exact hWraps.append hBlank (wrapsAll_nil c whole _) hSize fun _ _ _ hb => by cases hb
      · have hWraps := wraps_paragraphLines c (hStands rfl (beginsFree_cons rfl below)) hNewline
        have hAbove : whole = before ++ (kept ++ ending) ++ '\n' :: below := by
          simp [hWhole]
        have hAfter : whole = before ++ (kept ++ ending) ++ ['\n'] ++ below := by
          simp [hWhole]
        have hNext : base + byteSize (kept ++ ending) + 1 =
            byteSize (before ++ (kept ++ ending) ++ ['\n']) := by
          simp [hBase]
          rfl
        have hRest := ih hAfter hBelow hNext (endsFree_concat _ rfl)
        refine hWraps.append hBlank hRest hSize fun a ha b hb => ?_
        rw [hAbove]
        refine mem_slice ?_ ?_
        · have hStop := (hWraps.within a ha).2
          rw [byteSize_append, ← hBase]
          omega
        · have hStart := hRest.after b hb
          rw [byteSize_append, ← hBase]
          exact hStart

/-- The lines of a whole text, with the parts between newlines as its paragraphs. -/
theorem wrapsAll_lines (c : Column α) (text : Text) :
    c.WrapsAll text 0 (newlineParts text) (c.lines text) := by
  rw [← paragraphs_eq_newlineParts]
  exact wrapsAll_linesFrom c (List.nil_append text).symm rfl rfl endsFree_nil

/-- Word wrap loses nothing: the lines follow one another in the text, from word to word, and hold its words
in their order, paragraph by paragraph. -/
theorem lines_lossless (c : Column α) (text : Text) :
    ((c.lines text).Pairwise fun a b => a.span.stop < b.span.start) ∧
    (∀ line ∈ c.lines text, c.LineIn text line) ∧
    (c.lines text).flatMap (fun line => separated line.text) = separated text ∧
    ∃ blocks, blocks.flatten = c.lines text ∧ List.Forall₂ Holds (newlineParts text) blocks := by
  have hWraps := wrapsAll_lines c text
  obtain ⟨blocks, hBlocks, hHolds⟩ := hWraps.holds
  have hWords := separated_of_holds hHolds
  rw [hBlocks, flatMap_separated_newlineParts] at hWords
  exact ⟨hWraps.ordered, hWraps.lineIn, hWords, blocks, hBlocks, hHolds⟩

/-- Word wrap is greedy: only a line of one word is wider than the column, and the first word of a line
had no room on the line before it, unless a newline lies between them. -/
theorem lines_greedy (c : Column α) (text : Text) :
    (∀ line ∈ c.lines text, 2 ≤ (separated line.text).length →
      c.measurer.textWidth line.text c.font ≤ c.width) ∧
    (c.lines text).IsChain fun a b =>
      '\n' ∉ slice a.span.stop b.span.start text → c.NoRoom text a b :=
  ⟨(wrapsAll_lines c text).fits, (wrapsAll_lines c text).full⟩

example :
    let c : Column Float32 := ⟨.monospace (Scalar.ofNat 10) (Scalar.ofNat 20), .small, Scalar.ofNat 40⟩
    (c.lines "ab  c\r\n\ndéfgh i\n".toList).map (·.span) =
      [⟨0, 2⟩, ⟨4, 5⟩, ⟨7, 7⟩, ⟨8, 14⟩, ⟨15, 16⟩] := by
  decide +kernel

end Wrap

end Changelog
