import Changelog.Proofs.Drawing.Rows

/-! The lines of one paragraph, seen in the text around it. They hold the words of the paragraph in order,
begin and end with words, and are filled as far as the column allows. -/

namespace Changelog

namespace Wrap

open Text

variable {α : Type} {c : Column α} {whole paragraph : Text} {base start : Nat} {row : Row}
  {rows : List Row} {pre post : List Text.Item} {item : Text.Item} {line : WrappedLine α}

/-- The words of a row stand in the paragraph as they were written, with the white space between them. -/
theorem exists_text_around_row (hItems : (itemize paragraph).items = pre ++ (row.items ++ post)) :
    ∃ below, paragraph = itemsText pre ++ row.first.gap ++ row.text ++ below := by
  have hText := toText_itemize paragraph
  rw [Items.toText, hItems] at hText
  refine ⟨itemsText post ++ (itemize paragraph).tail, hText.symm.trans ?_⟩
  simp [itemsText, Row.items, Row.text]

/-- Items that a paragraph was read into are words with white space between them. -/
theorem proper_of_items_eq {items : List Text.Item} (h : (itemize paragraph).items = items) :
    Items.Proper ⟨items, (itemize paragraph).tail⟩ :=
  h ▸ proper_itemize paragraph

theorem text_ne_nil_of_row (hItems : (itemize paragraph).items = pre ++ (row.items ++ post)) :
    row.text ≠ [] := by
  have hProper := (proper_of_items_eq hItems).of_append_right
  exact List.append_ne_nil_of_left_ne_nil (hProper.isWord row.first (List.mem_cons_self ..)).ne_nil _

/-- The words of a row are read back from its text. -/
theorem separated_row (hItems : (itemize paragraph).items = pre ++ (row.items ++ post)) :
    separated row.text = row.items.map Text.Item.word := by
  have hRow : Items.Proper ⟨row.items, []⟩ :=
    (proper_of_items_eq hItems).of_append_right.of_append_left
  have hWords := hRow.unindent.separated_toText
  have hText : Items.toText ⟨⟨[], row.first.word⟩ :: row.more, []⟩ = row.text := by
    simp [Items.toText, Row.text, itemsText]
  rw [hText] at hWords
  exact hWords

section Whole

variable (hParagraph : StandsFree paragraph whole base)
include hParagraph

/-- A word of a paragraph is one of the whole text, at the place that its items give it. -/
theorem wordAt_item (hItems : (itemize paragraph).items = pre ++ item :: post)
    (hStart : start = base + byteSize (itemsText pre) + byteSize item.gap) :
    WordAt whole ⟨start, start + byteSize item.word⟩ := by
  have hProper := proper_of_items_eq hItems
  have hText := toText_itemize paragraph
  rw [show itemize paragraph = ⟨(itemize paragraph).items, (itemize paragraph).tail⟩ from rfl,
    hItems] at hText
  have hStands := hProper.standsFree
  rw [hText] at hStands
  have hOffset : base + byteSize (Items.toText ⟨pre, item.gap⟩) = start := by
    rw [Items.toText, byteSize_append, hStart, Nat.add_assoc]
    rfl
  have hWhole := hStands.trans hParagraph
  rw [hOffset] at hWhole
  exact ⟨item.word, hProper.of_append_right.isWord item (List.mem_cons_self ..), hWhole, rfl⟩

/-- The last word of a row ends where the row ends. -/
theorem exists_wordAt_stop (hItems : (itemize paragraph).items = pre ++ (row.items ++ post))
    (hStart : start = base + byteSize (itemsText pre) + byteSize row.first.gap) :
    ∃ i, WordAt whole ⟨i, start + byteSize row.text⟩ := by
  obtain ⟨init, last, hLast⟩ := (List.eq_nil_or_concat row.items).resolve_left (List.cons_ne_nil _ _)
  rw [List.concat_eq_append] at hLast
  have hSplit : (itemize paragraph).items = (pre ++ init) ++ last :: post := by
    rw [hItems, hLast]
    simp
  have hSize := congrArg byteSize (Row.itemsText_items row)
  rw [hLast, itemsText_append, byteSize_append, byteSize_append,
    show itemsText [last] = last.gap ++ last.word from List.append_nil _, byteSize_append] at hSize
  have hStop : base + byteSize (itemsText (pre ++ init)) + byteSize last.gap + byteSize last.word =
      start + byteSize row.text := by
    rw [itemsText_append, byteSize_append]
    omega
  have hWord := wordAt_item hParagraph hSplit rfl
  rw [hStop] at hWord
  exact ⟨_, hWord⟩

/-- A row stands in the whole text where its first word does. -/
theorem standsAt_row (hItems : (itemize paragraph).items = pre ++ (row.items ++ post))
    (hStart : start = base + byteSize (itemsText pre) + byteSize row.first.gap) :
    StandsAt row.text whole ⟨start, start + byteSize row.text⟩ := by
  obtain ⟨before, after, hWhole, rfl, _⟩ := hParagraph
  obtain ⟨below, hText⟩ := exists_text_around_row hItems
  refine ⟨before ++ itemsText pre ++ row.first.gap, below ++ after, ?_, ?_⟩
  · rw [hWhole, hText]
    simp
  · simp [hStart, Nat.add_assoc]

end Whole

section Rows

variable (hRows : rowItems rows = (itemize paragraph).items)
include hRows

/-- The rows above and below one hold the items before and after its own. -/
theorem items_eq_of_split {above below : List Row} (h : rows = above ++ row :: below) :
    (itemize paragraph).items = rowItems above ++ (row.items ++ rowItems below) := by
  rw [← hRows, h, rowItems_append, rowItems_cons]

theorem separated_of_mem_rows (h : row ∈ rows) : separated row.text = row.items.map Text.Item.word := by
  obtain ⟨above, below, hSplit⟩ := List.append_of_mem h
  exact separated_row (items_eq_of_split hRows hSplit)

/-- The lines of a paragraph have its words, each once and in order. -/
theorem separated_layRows (c : Column α) (base : Nat) :
    (c.layRows base rows).flatMap (fun line => separated line.text) = separated paragraph := by
  have hTexts := congrArg (List.flatMap separated) (map_text_layRows c base rows)
  rw [List.flatMap_map, List.flatMap_map] at hTexts
  rw [hTexts, ← words_eq_separated, words, ← hRows, rowItems, List.map_flatMap]
  exact List.flatMap_congr fun row hMem => separated_of_mem_rows hRows hMem

theorem within_of_mem_layRows (h : line ∈ c.layRows base rows) :
    base ≤ line.span.start ∧ line.span.stop ≤ base + byteSize paragraph := by
  obtain ⟨above, row, below, hSplit, rfl⟩ := mem_layRows h
  obtain ⟨rest, hText⟩ := exists_text_around_row (items_eq_of_split hRows hSplit)
  have hSize := congrArg byteSize hText
  simp only [byteSize_append] at hSize
  simp only [Column.line]
  omega

end Rows

/-- The lines hold the words of the paragraph. There is at least one, and just an empty one if the paragraph
has no words. -/
structure Holds (paragraph : Text) (lines : List (WrappedLine α)) : Prop where
  ne_nil : lines ≠ []
  separated_eq : lines.flatMap (fun line => separated line.text) = separated paragraph
  blank : separated paragraph = [] → ∃ line, lines = [line] ∧ line.text = []

variable [Scalar α]

/-- A line is what stands at its span, has no newline and is as wide as it measures. Unless it is blank, it
runs from the start of a word to the end of one. -/
structure Column.LineIn (c : Column α) (text : Text) (line : WrappedLine α) : Prop where
  standsAt : StandsAt line.text text line.span
  no_newline : '\n' ∉ line.text
  width_eq : line.width =
    if line.text = [] then Scalar.zero else c.measurer.textWidth line.text c.font
  starts : line.text ≠ [] → ∃ stop, WordAt text ⟨line.span.start, stop⟩
  stops : line.text ≠ [] → ∃ start, WordAt text ⟨start, line.span.stop⟩

/-- Up to the end of the first word of `b`, the text from the start of `a` on is too wide for the column. -/
def Column.NoRoom (c : Column α) (text : Text) (a b : WrappedLine α) : Prop :=
  ∃ stop, WordAt text ⟨b.span.start, stop⟩ ∧ stop ≤ b.span.stop ∧
    ¬c.measurer.textWidth (slice a.span.start stop text) c.font ≤ c.width

/-- What the lines of a paragraph are, where it begins at offset `base` of the whole text. -/
structure Column.Wraps (c : Column α) (whole : Text) (base : Nat) (paragraph : Text)
    (lines : List (WrappedLine α)) : Prop where
  holds : Holds paragraph lines
  lineIn : ∀ line ∈ lines, c.LineIn whole line
  within : ∀ line ∈ lines, base ≤ line.span.start ∧ line.span.stop ≤ base + byteSize paragraph
  ordered : lines.Pairwise fun a b => a.span.stop < b.span.start
  fits : ∀ line ∈ lines, 2 ≤ (separated line.text).length →
    c.measurer.textWidth line.text c.font ≤ c.width
  full : lines.IsChain (c.NoRoom whole)

/-- A row that is laid out is a line of the whole text. -/
theorem lineIn_row (hParagraph : StandsFree paragraph whole base) (hNewline : '\n' ∉ paragraph)
    (hItems : (itemize paragraph).items = pre ++ (row.items ++ post))
    (hStart : start = base + byteSize (itemsText pre) + byteSize row.first.gap) :
    c.LineIn whole (c.line start row.text) := by
  refine ⟨standsAt_row hParagraph hItems hStart, fun hMem => hNewline ?_,
    (if_neg (text_ne_nil_of_row hItems)).symm, fun _ => ⟨_, wordAt_item hParagraph hItems hStart⟩,
    fun _ => exists_wordAt_stop hParagraph hItems hStart⟩
  obtain ⟨below, hText⟩ := exists_text_around_row hItems
  rw [hText]
  exact List.mem_append_left _ (List.mem_append_right _ hMem)

/-- A row and the first word of the next one stand in the text as they were measured together. -/
theorem noRoom_of_fits_eq_false (hParagraph : StandsFree paragraph whole base) {next : Row}
    (hItems : (itemize paragraph).items = pre ++ (row.items ++ (next.items ++ post)))
    (hFull : c.fits (row.add next.first).text = false) {stop : Nat}
    (hStart : start = base + byteSize (itemsText pre) + byteSize row.first.gap)
    (hNext : stop = start + byteSize row.text + byteSize next.first.gap) :
    c.NoRoom whole (c.line start row.text) (c.line stop next.text) := by
  have hAdded : (itemize paragraph).items =
      pre ++ ((row.add next.first).items ++ (next.more ++ post)) := by
    simp [hItems, Row.items, Row.add]
  have hFirst : (itemize paragraph).items =
      (pre ++ row.items) ++ next.first :: (next.more ++ post) := by
    simp [hItems, Row.items]
  have hNextStart : stop =
      base + byteSize (itemsText (pre ++ row.items)) + byteSize next.first.gap := by
    rw [itemsText_append, byteSize_append, Row.itemsText_items, byteSize_append]
    omega
  have hEnd : start + byteSize (row.add next.first).text = stop + byteSize next.first.word := by
    rw [Row.text_add, byteSize_append, byteSize_append]
    omega
  have hMeasured : slice start (stop + byteSize next.first.word) whole = (row.add next.first).text := by
    rw [← hEnd]
    exact (standsAt_row hParagraph hAdded hStart).slice_eq
  refine ⟨_, wordAt_item hParagraph hFirst hNextStart, ?_, ?_⟩
  · show stop + byteSize next.first.word ≤ stop + byteSize next.text
    rw [Row.text, byteSize_append]
    omega
  · show ¬c.measurer.textWidth (slice start (stop + byteSize next.first.word) whole) c.font ≤ c.width
    rw [hMeasured]
    exact of_decide_eq_false hFull

/-- No row could have taken the first word of the next one. -/
theorem isChain_noRoom_layRows (hParagraph : StandsFree paragraph whole base)
    (hRows : rowItems rows = (itemize paragraph).items)
    (hFull : rows.IsChain fun a b => c.fits (a.add b.first).text = false) :
    (c.layRows base rows).IsChain (c.NoRoom whole) := by
  refine List.isChain_iff_forall_rel_of_append_cons_cons.2 fun a b lines more hLines => ?_
  obtain ⟨above, below, hSplit, _, hBelow⟩ := exists_of_layRows_eq_append hLines
  cases below with
  | nil => cases hBelow
  | cons row below =>
      obtain ⟨rfl, hRest⟩ := List.cons.inj hBelow
      cases below with
      | nil => cases hRest
      | cons next below =>
          obtain ⟨rfl, _⟩ := List.cons.inj hRest
          have hItems := items_eq_of_split hRows hSplit
          rw [rowItems_cons] at hItems
          have hPair := List.isChain_iff_forall_rel_of_append_cons_cons.1 hFull hSplit
          refine noRoom_of_fits_eq_false hParagraph hItems hPair rfl ?_
          rw [Row.itemsText_items, byteSize_append]
          omega

/-- A paragraph without words still takes a line. -/
theorem wraps_blank (c : Column α) (hParagraph : StandsFree paragraph whole base)
    (hWords : separated paragraph = []) :
    c.Wraps whole base paragraph
      [{ span := ⟨base, base⟩, text := [], width := Scalar.zero }] := by
  obtain ⟨before, after, rfl, rfl, _⟩ := hParagraph
  refine ⟨⟨List.cons_ne_nil _ _, hWords.symm, fun _ => ⟨_, rfl, rfl⟩⟩, ?_, ?_,
    List.pairwise_singleton .., ?_, List.isChain_singleton _⟩
  · exact List.forall_mem_singleton.2 ⟨⟨before, paragraph ++ after, by simp, by simp⟩, by simp, rfl,
      fun hNe => absurd rfl hNe, fun hNe => absurd rfl hNe⟩
  · exact List.forall_mem_singleton.2 ⟨Nat.le_refl _, Nat.le_add_right ..⟩
  · exact List.forall_mem_singleton.2 fun hTwo => absurd hTwo (by simp [separated])

theorem wraps_layRows (hParagraph : StandsFree paragraph whole base) (hNewline : '\n' ∉ paragraph)
    (hItems : (itemize paragraph).items ≠ []) :
    c.Wraps whole base paragraph (c.layRows base (c.rows (itemize paragraph).items)) := by
  have hRows := rowItems_rows c (itemize paragraph).items
  refine ⟨⟨fun hNil => hItems ?_, separated_layRows hRows c base, fun hBlank => ?_⟩,
    fun line hMem => ?_, fun line hMem => within_of_mem_layRows hRows hMem,
    pairwise_layRows fun item hMem => ?_, fun line hMem hTwo => ?_,
    isChain_noRoom_layRows hParagraph hRows (isChain_rows c _)⟩
  · have hLength := congrArg List.length hNil
    rw [length_layRows, List.length_nil, List.length_eq_zero_iff] at hLength
    rw [← hRows, hLength]
    rfl
  · rw [← words_eq_separated, words, List.map_eq_nil_iff] at hBlank
    exact absurd hBlank hItems
  · obtain ⟨above, row, below, hSplit, rfl⟩ := mem_layRows hMem
    exact lineIn_row hParagraph hNewline (items_eq_of_split hRows hSplit) rfl
  · rw [hRows] at hMem
    exact (proper_itemize paragraph).gap_ne_nil item hMem
  · obtain ⟨above, row, below, hSplit, rfl⟩ := mem_layRows hMem
    have hRow : row ∈ c.rows (itemize paragraph).items := by simp [hSplit]
    have hMore : row.more ≠ [] := by
      intro hNil
      have hWords : separated (c.line (base + byteSize (itemsText (rowItems above)) +
          byteSize row.first.gap) row.text).text = row.items.map Text.Item.word :=
        separated_of_mem_rows hRows hRow
      rw [hWords, Row.items, hNil] at hTwo
      exact absurd hTwo (by simp)
    exact of_decide_eq_true (fits_of_mem_rows hRow hMore)

/-- Each paragraph has lines, which hold its words and are filled one after the other. -/
theorem wraps_paragraphLines (c : Column α) (hParagraph : StandsFree paragraph whole base)
    (hNewline : '\n' ∉ paragraph) : c.Wraps whole base paragraph (c.paragraphLines base paragraph) := by
  by_cases hItems : (itemize paragraph).items = []
  · rw [paragraphLines_of_no_items c base hItems]
    have hWords : separated paragraph = [] := by
      rw [← words_eq_separated, words, hItems, List.map_nil]
    exact wraps_blank c hParagraph hWords
  · rw [paragraphLines_eq_layRows c base hItems]
    exact wraps_layRows hParagraph hNewline hItems

end Wrap

end Changelog
