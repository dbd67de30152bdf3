import Changelog.Drawing.Wrap
import Changelog.Proofs.Text.Slice

/-! Where the lines of a wrapped text stand. Wrapping only divides the text: each line is what stands at
its span, and nothing is measured but parts of the text. -/

namespace Changelog

namespace Text

/-- The first paragraph ends at the first newline, or is all of the text. -/
theorem paragraphs_eq_cons {text first : Text} {more : List Text}
    (h : paragraphs text = first :: more) :
    text = first ∧ more = [] ∨ ∃ rest, text = first ++ '\n' :: rest ∧ paragraphs rest = more := by
  induction text generalizing first with
  | nil => cases h
  | cons c text ih =>
      unfold paragraphs at h
      split at h
      · rename_i hNewline
        obtain ⟨rfl, rfl⟩ := List.cons.inj h
        exact Or.inr ⟨text, by rw [hNewline, List.nil_append], rfl⟩
      · split at h
        · rename_i hNone
          obtain ⟨rfl, rfl⟩ := List.cons.inj h
          refine Or.inl ⟨?_, rfl⟩
          cases text with
          | nil => rfl
          | cons d text =>
              unfold paragraphs at hNone
              split at hNone
              · cases hNone
              · split at hNone <;> cases hNone
        · rename_i head tail hSome
          obtain ⟨rfl, rfl⟩ := List.cons.inj h
          rcases ih hSome with ⟨rfl, hNil⟩ | ⟨rest, rfl, hRest⟩
          · exact Or.inl ⟨rfl, hNil⟩
          · exact Or.inr ⟨rest, rfl, hRest⟩

/-- What is left of a text without a marker at its end is the beginning of it. -/
theorem exists_eq_getD_before?_append (marker text : Text) :
    ∃ rest, text = (before? marker text).getD text ++ rest := by
  cases h : before? marker text with
  | none => exact ⟨[], (List.append_nil _).symm⟩
  | some head => exact ⟨marker, before?_eq_some_iff.1 h⟩

end Text

namespace Wrap

variable {α : Type} {whole before after text : Text} {start base : Nat}

/-- The columns are of one width and have one font, in which all parts of the text have the same
widths. -/
structure Column.AgreesOn (text : Text) (c c' : Column α) : Prop where
  font : c'.font = c.font
  width : c'.width = c.width
  textWidth : ∀ part span, Text.StandsAt part text span →
    c'.measurer.textWidth part c.font = c.measurer.textWidth part c.font

/-- A way to lay lines that takes them from the text and measures nothing but parts of it. -/
structure Divides (text : Text) (wrap : Column α → List (WrappedLine α)) : Prop where
  standsAt : ∀ c, ∀ line ∈ wrap c, Text.StandsAt line.text text line.span
  agrees : ∀ c c', Column.AgreesOn text c c' → wrap c' = wrap c

theorem divides_nil (text : Text) : Divides text fun _ : Column α => [] :=
  ⟨fun _ _ hMem => absurd hMem List.not_mem_nil, fun _ _ _ => rfl⟩

/-- Lines of one part of a text may be followed by those of another. -/
theorem Divides.append {wrap wrap' : Column α → List (WrappedLine α)} (h : Divides text wrap)
    (h' : Divides text wrap') : Divides text fun c => wrap c ++ wrap' c := by
  refine ⟨fun c line hMem => ?_, fun c c' hAgree => ?_⟩
  · rcases List.mem_append.1 hMem with hMem | hMem
    · exact h.standsAt c line hMem
    · exact h'.standsAt c line hMem
  · show wrap c' ++ wrap' c' = wrap c ++ wrap' c
    rw [h.agrees c c' hAgree, h'.agrees c c' hAgree]

theorem divides_line (hText : whole = before ++ (text ++ after)) (hStart : start = Text.byteSize before) :
    Divides whole fun c : Column α => [c.line start text] := by
  have hStands : Text.StandsAt text whole ⟨start, start + Text.byteSize text⟩ :=
    ⟨before, after, by rw [hText, List.append_assoc], by rw [hStart]⟩
  refine ⟨fun c line hMem => ?_, fun c c' hAgree => ?_⟩
  · obtain rfl := List.mem_singleton.1 hMem
    exact hStands
  · show [c'.line start text] = [c.line start text]
    rw [Column.line, Column.line, hAgree.font, hAgree.textWidth _ _ hStands]

/-- The items of a text with what stands behind them. -/
def itemsText (items : List Text.Item) : Text :=
  items.flatMap fun item => item.gap ++ item.word

variable [Scalar α]

/-- Filling lines only measures what stands on them, which is part of the text. -/
theorem divides_fill {items : List Text.Item}
    (hText : whole = before ++ (text ++ (itemsText items ++ after)))
    (hStart : start = Text.byteSize before) :
    Divides whole fun c : Column α => c.fill start text items := by
  induction items generalizing before text start with
  | nil => exact divides_line hText hStart
  | cons item rest ih =>
      have hLonger :
          whole = before ++ (text ++ item.gap ++ item.word ++ (itemsText rest ++ after)) := by
        simpa [itemsText] using hText
      have hNext :
          whole = before ++ text ++ item.gap ++ (item.word ++ (itemsText rest ++ after)) := by
        simpa [itemsText] using hText
      have hNextStart : start + Text.byteSize text + Text.byteSize item.gap =
          Text.byteSize (before ++ text ++ item.gap) := by
        simp [hStart, Nat.add_assoc]
      -- the word joins the line or begins the next one, and both columns decide alike
      have hJoined := ih hLonger hStart
      have hBroken := (divides_line hText hStart).append (ih hNext hNextStart)
      refine ⟨fun c line hMem => ?_, fun c c' hAgree => ?_⟩
      · unfold Column.fill at hMem
        dsimp only at hMem
        split at hMem
        · exact hJoined.standsAt c line hMem
        · exact hBroken.standsAt c line hMem
      · have hFits :
            c'.fits (text ++ item.gap ++ item.word) = c.fits (text ++ item.gap ++ item.word) := by
          have hStands : Text.StandsAt (text ++ item.gap ++ item.word) whole
              ⟨start, start + Text.byteSize (text ++ item.gap ++ item.word)⟩ :=
            ⟨before, itemsText rest ++ after, hLonger.trans (List.append_assoc ..).symm,
              by rw [hStart]⟩
          rw [Column.fits, Column.fits, hAgree.font, hAgree.width, hAgree.textWidth _ _ hStands]
        simp only [Column.fill, hFits]
        split
        · exact hJoined.agrees c c' hAgree
        · exact hBroken.agrees c c' hAgree

theorem divides_paragraphLines {paragraph : Text} (hText : whole = before ++ (paragraph ++ after))
    (hBase : base = Text.byteSize before) :
    Divides whole fun c : Column α => c.paragraphLines base paragraph := by
  have hItems := Text.toText_itemize paragraph
  unfold Column.paragraphLines
  generalize Text.itemize paragraph = read at hItems
  obtain ⟨items, tail⟩ := read
  cases items with
  | nil =>
      refine ⟨fun c line hMem => ?_, fun c c' hAgree => rfl⟩
      obtain rfl := List.mem_singleton.1 hMem
      exact ⟨before, paragraph ++ after, by simpa using hText, by simp [hBase]⟩
  | cons item rest =>
      have hFirst : whole = before ++ item.gap ++ (item.word ++ (itemsText rest ++ (tail ++ after))) := by
        rw [hText, ← hItems]
        simp [Text.Items.toText, itemsText]
      exact divides_fill hFirst (by simp [hBase])

theorem divides_linesFrom {paragraphs : List Text} {rest : Text} (hText : whole = before ++ rest)
    (hParagraphs : Text.paragraphs rest = paragraphs) (hBase : base = Text.byteSize before) :
    Divides whole fun c : Column α => c.linesFrom base paragraphs := by
  induction paragraphs generalizing before rest base with
  | nil => exact divides_nil whole
  | cons paragraph more ih =>
      obtain ⟨after, hRest, hMore⟩ : ∃ after, rest = paragraph ++ after ∧ Divides whole
          fun c : Column α => c.linesFrom (base + Text.byteSize paragraph + 1) more := by
        rcases Text.paragraphs_eq_cons hParagraphs with ⟨rfl, rfl⟩ | ⟨below, rfl, hBelow⟩
        · exact ⟨[], (List.append_nil _).symm, divides_nil whole⟩
        · have hNext : whole = before ++ paragraph ++ ['\n'] ++ below := by simp [hText]
          have hNextBase : base + Text.byteSize paragraph + 1 =
              Text.byteSize (before ++ paragraph ++ ['\n']) := by
            rw [Text.byteSize_append, Text.byteSize_append, hBase]
            rfl
          exact ⟨_, rfl, ih hNext hBelow hNextBase⟩
      obtain ⟨ending, hEnding⟩ := Text.exists_eq_getD_before?_append ['\r'] paragraph
      have hFirst : whole = before ++ ((Text.before? ['\r'] paragraph).getD paragraph ++
          (ending ++ after)) := by
        rw [hText, hRest, ← List.append_assoc _ ending, ← hEnding]
      exact (divides_paragraphLines hFirst hBase).append hMore

/-- The lines of a text stand in it, and depend on the widths of its parts only. -/
theorem divides_lines (text : Text) : Divides text fun c : Column α => c.lines text :=
  divides_linesFrom (List.nil_append text).symm rfl rfl

end Wrap

end Changelog
