import Changelog.Proofs.Drawing.WordWrap
import Changelog.Proofs.Number.Product
import Mathlib.Order.Bounds.Basic

/-! Filling each line as far as possible takes the fewest lines. Whatever other way there is to break the
words, the filled lines stay ahead of it: after the same number of lines, they have placed no fewer words. -/

namespace Changelog

/-- No part of the text is wider than a part of it that it lies in. -/
def Measurer.Nested {α : Type} [Scalar α] (m : Measurer α) (font : FontSize) (text : Text) : Prop :=
  ∀ inner outer, inner <:+: outer → outer <:+: text → m.textWidth inner font ≤ m.textWidth outer font

namespace Wrap

open Text

variable {α : Type} [Scalar α] {c : Column α} {row : Row} {rows : List Row} {items more : List Text.Item}
  {text paragraph : Text}

/-- A way to break a paragraph: its words, in order, divided into rows that are not empty, where a row of
two or more words fits in the column. -/
structure Column.Breaks (c : Column α) (paragraph : Text) (rows : List Row) : Prop where
  rowItems_eq : rowItems rows = (itemize paragraph).items
  fits : ∀ row ∈ rows, row.more ≠ [] → c.measurer.textWidth row.text c.font ≤ c.width

/-- The number of lines that rows of paragraphs take. A paragraph without words takes an empty line. -/
def lineCount (breaking : List (List Row)) : Nat :=
  (breaking.map fun rows => max 1 rows.length).sum

/-- A row takes some of the words, and what is left is filled as from the start. -/
theorem exists_rows_of_rowsFrom (c : Column α) (row : Row) (items : List Text.Item) :
    ∃ left, left <:+ items ∧ (c.rowsFrom row items).length = (c.rows left).length + 1 := by
  induction items generalizing row with
  | nil => exact ⟨[], List.suffix_refl _, rfl⟩
  | cons item rest ih =>
      rw [Column.rowsFrom]
      split
      · obtain ⟨left, hLeft, hLength⟩ := ih (row.add item)
        exact ⟨left, hLeft.trans (List.suffix_cons ..), hLength⟩
      · exact ⟨item :: rest, List.suffix_refl _, rfl⟩

/-- Words that fit come to stand on the row that is begun. -/
theorem rowsFrom_append (hFits : ∀ part, part <+: more → part ≠ [] →
      c.fits (Row.text ⟨row.first, row.more ++ part⟩) = true) :
    c.rowsFrom row (more ++ items) = c.rowsFrom ⟨row.first, row.more ++ more⟩ items := by
  induction more generalizing row with
  | nil => rw [List.append_nil]; rfl
  | cons item rest ih =>
      have hOne : c.fits (row.add item).text = true :=
        hFits [item] ⟨rest, rfl⟩ (List.cons_ne_nil _ _)
      have hRest := @ih (row.add item) fun part hPart _ => by
        have hLonger := hFits (item :: part) (List.cons_prefix_cons.2 ⟨rfl, hPart⟩)
          (List.cons_ne_nil _ _)
        simpa [Row.add] using hLonger
      rw [List.cons_append, Column.rowsFrom, if_pos hOne, hRest]
      simp [Row.add]

/-- Words in the middle of a row, with what stands between them, are a part of its text. -/
theorem text_infix_of_items_eq {pre post part : List Text.Item} {first : Text.Item}
    (h : row.items = pre ++ first :: (part ++ post)) : Row.text ⟨first, part⟩ <:+: row.text := by
  cases pre with
  | nil =>
      obtain ⟨rfl, hMore⟩ := List.cons.inj h
      exact ⟨[], itemsText post, by simp [Row.text, hMore, itemsText]⟩
  | cons item pre =>
      obtain ⟨rfl, hMore⟩ := List.cons.inj h
      exact ⟨row.first.word ++ itemsText pre ++ first.gap, itemsText post,
        by simp [Row.text, hMore, itemsText]⟩

/-- Filling the last of the words takes no more lines than any rows that hold all of them, if every part of
a row of two or more words fits. -/
theorem length_rows_le {left : List Text.Item}
    (hFits : ∀ row ∈ rows, row.more ≠ [] → ∀ part, part <:+: row.text → c.fits part = true)
    (hLeft : left <:+ rowItems rows) : (c.rows left).length ≤ rows.length := by
  induction rows generalizing left with
  | nil =>
      obtain rfl := List.suffix_nil.1 hLeft
      exact Nat.le_refl _
  | cons row rest ih =>
      obtain ⟨hRow, hRest⟩ := List.forall_mem_cons.1 hFits
      obtain ⟨gone, hGone⟩ := hLeft
      rw [rowItems_cons] at hGone
      rcases List.append_eq_append_iff.1 hGone with ⟨kept, hItems, rfl⟩ | ⟨later, _, hLater⟩
      · cases kept with
        | nil => exact (ih hRest (List.suffix_refl _)).trans (Nat.le_succ _)
        | cons first more =>
            -- the words left of this row fit together, since the whole row does
            have hFilled : c.rowsFrom ⟨first, []⟩ (more ++ rowItems rest) =
                c.rowsFrom ⟨first, more⟩ (rowItems rest) := by
              refine rowsFrom_append fun part hPart hNe => hRow ?_ _ ?_
              · intro hSingle
                obtain ⟨tail, rfl⟩ := hPart
                have hLength := congrArg List.length hItems
                have hPos := List.length_pos_of_ne_nil hNe
                simp only [Row.items, hSingle, List.length_append, List.length_cons,
                  List.length_nil] at hLength
                omega
              · obtain ⟨tail, rfl⟩ := hPart
                exact text_infix_of_items_eq hItems
            obtain ⟨left, hLeft, hLength⟩ :=
              exists_rows_of_rowsFrom c ⟨first, more⟩ (rowItems rest)
            have hAhead := ih hRest hLeft
            show (c.rowsFrom ⟨first, []⟩ (more ++ rowItems rest)).length ≤ rest.length + 1
            rw [hFilled, hLength]
            omega
      · exact (ih hRest ⟨later, hLater.symm⟩).trans (Nat.le_succ _)

/-- Each row is a line, and a paragraph without words has an empty one. -/
theorem length_paragraphLines (c : Column α) (base : Nat) (paragraph : Text) :
    (c.paragraphLines base paragraph).length = max 1 (c.rows (itemize paragraph).items).length := by
  by_cases hItems : (itemize paragraph).items = []
  · rw [paragraphLines_of_no_items c base hItems, hItems]
    rfl
  · obtain ⟨item, rest, hRest⟩ := List.exists_cons_of_ne_nil hItems
    have hPos := List.length_pos_of_ne_nil (rowsFrom_ne_nil c ⟨item, []⟩ rest)
    rw [paragraphLines_eq_layRows c base hItems, length_layRows, hRest, Column.rows,
      max_eq_right hPos]

theorem length_linesFrom (c : Column α) (base : Nat) (paragraphs : List Text) :
    (c.linesFrom base paragraphs).length =
      lineCount (paragraphs.map fun paragraph => c.rows (itemize paragraph).items) := by
  induction paragraphs generalizing base with
  | nil => rfl
  | cons paragraph more ih =>
      obtain ⟨ending, hEnding, hBlank⟩ := exists_blank_ending paragraph
      have hItems := items_itemize_append_blank hBlank ((before? ['\r'] paragraph).getD paragraph)
      rw [← hEnding] at hItems
      rw [Column.linesFrom, List.length_append, length_paragraphLines, ih, ← hItems]
      rfl

/-- So the lines of a text are counted paragraph by paragraph. -/
theorem length_lines (c : Column α) (text : Text) :
    (c.lines text).length =
      lineCount ((newlineParts text).map fun paragraph => c.rows (itemize paragraph).items) := by
  rw [← paragraphs_eq_newlineParts]
  exact length_linesFrom c 0 _

/-- Filling each line as far as possible is one of the ways to break a paragraph. -/
theorem breaks_rows (c : Column α) (paragraph : Text) :
    c.Breaks paragraph (c.rows (itemize paragraph).items) :=
  ⟨rowItems_rows c _, fun _ hMem hMore => of_decide_eq_true (fits_of_mem_rows hMem hMore)⟩

theorem infix_of_mem_newlineParts (h : paragraph ∈ newlineParts text) : paragraph <:+: text := by
  rw [← paragraphs_eq_newlineParts] at h
  generalize hParts : paragraphs text = parts at h
  induction parts generalizing text with
  | nil => cases h
  | cons part more ih =>
      rcases paragraphs_eq_cons hParts with ⟨rfl, rfl⟩ | ⟨rest, rfl, hRest⟩
      · obtain rfl := List.mem_singleton.1 h
        exact List.infix_refl _
      · rcases List.mem_cons.1 h with rfl | h
        · exact (List.prefix_append _ _).isInfix
        · exact (ih hRest h).trans ⟨part ++ ['\n'], [], by simp⟩

section Optimal

variable [OrderedScalar α]

/-- Within one paragraph no way to break it takes fewer lines. -/
theorem length_rows_le_of_breaks (hNested : c.measurer.Nested c.font text)
    (hPart : paragraph <:+: text) (h : c.Breaks paragraph rows) :
    (c.rows (itemize paragraph).items).length ≤ rows.length := by
  refine length_rows_le (fun row hMem hMore part hInfix => decide_eq_true ?_)
    (h.rowItems_eq ▸ List.suffix_refl _)
  obtain ⟨above, below, hSplit⟩ := List.append_of_mem hMem
  obtain ⟨rest, hText⟩ := exists_text_around_row (items_eq_of_split h.rowItems_eq hSplit)
  have hRow : row.text <:+: paragraph := ⟨_, _, hText.symm⟩
  exact OrderedScalar.le_trans (hNested _ _ hInfix (hRow.trans hPart)) (h.fits row hMem hMore)

/-- Paragraphs are broken on their own, so the same holds of all of them together. -/
theorem lineCount_le_of_breaks (hNested : c.measurer.Nested c.font text) {paragraphs : List Text}
    {breaking : List (List Row)} (hParts : ∀ paragraph ∈ paragraphs, paragraph <:+: text)
    (h : List.Forall₂ c.Breaks paragraphs breaking) :
    lineCount (paragraphs.map fun paragraph => c.rows (itemize paragraph).items) ≤
      lineCount breaking := by
  induction h with
  | nil => exact Nat.le_refl _
  | cons hFirst _ ih =>
      obtain ⟨hPart, hParts⟩ := List.forall_mem_cons.1 hParts
      exact Nat.add_le_add (max_le_max_left 1 (length_rows_le_of_breaks hNested hPart hFirst))
        (ih hParts)

/-- Word wrap takes the fewest lines. -/
theorem isLeast_length_lines (hNested : c.measurer.Nested c.font text) :
    IsLeast {n | ∃ breaking, List.Forall₂ c.Breaks (newlineParts text) breaking ∧
      lineCount breaking = n} (c.lines text).length := by
  refine ⟨⟨_, List.forall₂_map_right_iff.2 (List.forall₂_same.2 fun part _ => breaks_rows c part),
    (length_lines c text).symm⟩, ?_⟩
  rintro n ⟨breaking, hBreaks, rfl⟩
  rw [length_lines]
  exact lineCount_le_of_breaks hNested (fun _ hMem => infix_of_mem_newlineParts hMem) hBreaks

/-- What fits in a column fits in a wider one. -/
theorem Column.Breaks.widen {m : Measurer α} {font : FontSize} {narrow wide : α} (hWidth : narrow ≤ wide)
    (h : Breaks ⟨m, font, narrow⟩ paragraph rows) : Breaks ⟨m, font, wide⟩ paragraph rows :=
  ⟨h.rowItems_eq, fun row hMem hMore => OrderedScalar.le_trans (h.fits row hMem hMore) hWidth⟩

/-- If no part of the text is wider than what it lies in, word wrap breaks the words of the paragraphs into
the fewest lines that are possible, so a wider column needs no more lines and gives no larger height. -/
theorem lines_fewest (m : Measurer α) (font : FontSize) (text : Text) (hNested : m.Nested font text) :
    (∀ width, IsLeast {n | ∃ breaking,
        List.Forall₂ (Column.Breaks ⟨m, font, width⟩) (newlineParts text) breaking ∧
          lineCount breaking = n}
      (Column.lines ⟨m, font, width⟩ text).length) ∧
    ∀ narrow wide, narrow ≤ wide →
      (Column.lines ⟨m, font, wide⟩ text).length ≤ (Column.lines ⟨m, font, narrow⟩ text).length ∧
      (Scalar.zero ≤ m.lineHeight font → Scalar.IsNumber (m.textHeight text wide font) →
        Scalar.IsNumber (m.textHeight text narrow font) →
        m.textHeight text wide font ≤ m.textHeight text narrow font) := by
  have hLeast (width : α) := isLeast_length_lines (c := ⟨m, font, width⟩) hNested
  refine ⟨hLeast, fun narrow wide hWidth => ?_⟩
  have hCount : (Column.lines ⟨m, font, wide⟩ text).length ≤
      (Column.lines ⟨m, font, narrow⟩ text).length := by
    obtain ⟨breaking, hBreaks, hLines⟩ := (hLeast narrow).1
    exact (hLeast wide).2 ⟨breaking, hBreaks.imp fun _ _ h => h.widen hWidth, hLines⟩
  exact ⟨hCount, fun hHeight hWide hNarrow => OrderedScalar.mul_le_mul_right
    (OrderedScalar.ofNat_le_ofNat (Nat.zero_le _)) (OrderedScalar.ofNat_le_ofNat hCount) hHeight hWide
    hNarrow⟩

end Optimal

theorem lines_fewest_of_unit_widths :
    let m : Measurer Float32 :=
      { lineHeight := fun _ => Scalar.ofNat 20
        textWidth := fun text _ => Scalar.ofNat text.length }
    let text := "ab c\n\ndefgh i".toList
    m.Nested .small text ∧
      IsLeast {n | ∃ breaking, List.Forall₂ (Column.Breaks ⟨m, .small, Scalar.ofNat 3⟩)
        (newlineParts text) breaking ∧ lineCount breaking = n} 5 ∧
      (Scalar.ofNat 3 : Float32) ≤ Scalar.ofNat 8 ∧
      m.textHeight text (Scalar.ofNat 8) .small ≤ m.textHeight text (Scalar.ofNat 3) .small := by
  intro m text
  have hNested : m.Nested .small text := fun _ _ hInner _ =>
    OrderedScalar.ofNat_le_ofNat hInner.length_le
  have hWidth : (Scalar.ofNat 3 : Float32) ≤ Scalar.ofNat 8 :=
    OrderedScalar.ofNat_le_ofNat (by decide)
  obtain ⟨hLeast, hWider⟩ := lines_fewest m .small text hNested
  have hFive : (Column.lines ⟨m, .small, Scalar.ofNat 3⟩ text).length = 5 := by decide +kernel
  refine ⟨hNested, hFive ▸ hLeast (Scalar.ofNat 3), hWidth, (hWider _ _ hWidth).2 ?_ ?_ ?_⟩
  · exact OrderedScalar.ofNat_le_ofNat (Nat.zero_le _)
  · unfold Scalar.IsNumber
    decide +kernel
  · unfold Scalar.IsNumber
    decide +kernel

end Wrap

end Changelog
