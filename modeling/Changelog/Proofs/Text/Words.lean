import Changelog.Proofs.Text.Slice
import Changelog.Text.Blank

/-! The words of a text. There is one way only to read a text as words with the white space before them,
so the words are what stands between white space; and each of them stands between two blanks or at an end
of the text. -/

namespace Changelog.Text

variable {text before after gap word : Text} {c : Char} {items : List Item} {tail : Text}

/-- What stands between white space in a text, from left to right. -/
def separated (text : Text) : List Text :=
  (text.splitOnP isBlank).filter (· ≠ [])

/-- Characters other than white space, at least one. -/
structure IsWord (word : Text) : Prop where
  ne_nil : word ≠ []
  not_blank : ∀ c ∈ word, isBlank c = false

/-- The text is empty or begins with white space, so that no word runs on into it. -/
def BeginsFree (text : Text) : Prop :=
  ∀ c ∈ text.head?, isBlank c = true

/-- The text is empty or ends with white space, so that no word runs on out of it. -/
def EndsFree (text : Text) : Prop :=
  ∀ c ∈ text.getLast?, isBlank c = true

/-- The part stands in the text from the offset on, with white space or an end of the text on both sides. -/
def StandsFree (part text : Text) (start : Nat) : Prop :=
  ∃ before after, text = before ++ (part ++ after) ∧ start = byteSize before ∧
    EndsFree before ∧ BeginsFree after

/-- One of the words of the text takes the bytes of the span. -/
def WordAt (text : Text) (span : Span) : Prop :=
  ∃ word, IsWord word ∧ StandsFree word text span.start ∧
    span.stop = span.start + byteSize word

theorem beginsFree_nil : BeginsFree [] :=
  fun _ h => absurd h (by simp)

theorem endsFree_nil : EndsFree [] :=
  fun _ h => absurd h (by simp)

theorem beginsFree_cons (h : isBlank c = true) (text : Text) : BeginsFree (c :: text) := by
  intro d hd
  obtain rfl : c = d := by simpa using hd
  exact h

theorem endsFree_concat (text : Text) (h : isBlank c = true) : EndsFree (text ++ [c]) := by
  intro d hd
  obtain rfl : c = d := by simpa using hd
  exact h

theorem BeginsFree.append (h : BeginsFree before) (h' : BeginsFree after) :
    BeginsFree (before ++ after) := by
  cases before with
  | nil => exact h'
  | cons c rest => exact beginsFree_cons (h c rfl) _

theorem EndsFree.append (h : EndsFree before) (h' : EndsFree after) :
    EndsFree (before ++ after) := by
  intro c hc
  rw [List.getLast?_append] at hc
  cases hLast : after.getLast? with
  | none =>
      rw [hLast, Option.none_or] at hc
      exact h c hc
  | some d =>
      rw [hLast, Option.some_or] at hc
      exact h' c (hLast ▸ hc)

theorem beginsFree_of_blank (h : ∀ c ∈ text, isBlank c = true) : BeginsFree text :=
  fun c hc => h c (List.mem_of_mem_head? hc)

/-- No word runs across either end of a part of a part. -/
theorem StandsFree.trans {part mid : Text} {i j : Nat} (h : StandsFree part mid i)
    (h' : StandsFree mid text j) : StandsFree part text (j + i) := by
  obtain ⟨before, after, rfl, rfl, hBefore, hAfter⟩ := h
  obtain ⟨front, back, rfl, rfl, hFront, hBack⟩ := h'
  exact ⟨front ++ before, after ++ back, by simp, by simp, hFront.append hBefore,
    hAfter.append hBack⟩

/-- What the items of a text look like: words, white space between any two of them, and white space at the
end. -/
structure Items.Proper (i : Items) : Prop where
  gap_blank : ∀ item ∈ i.items, ∀ c ∈ item.gap, isBlank c = true
  isWord : ∀ item ∈ i.items, IsWord item.word
  gap_ne_nil : ∀ item ∈ i.items.tail, item.gap ≠ []
  tail_blank : ∀ c ∈ i.tail, isBlank c = true

/-- The first word may be taken off. -/
theorem Items.Proper.of_cons {item : Item} (h : Proper ⟨item :: items, tail⟩) :
    Proper ⟨items, tail⟩ :=
  ⟨fun i hi => h.gap_blank i (List.mem_cons_of_mem _ hi),
    fun i hi => h.isWord i (List.mem_cons_of_mem _ hi),
    fun i hi => h.gap_ne_nil i (List.mem_of_mem_tail hi), h.tail_blank⟩

theorem Items.Proper.of_append_right {pre : List Item} (h : Proper ⟨pre ++ items, tail⟩) :
    Proper ⟨items, tail⟩ := by
  induction pre with
  | nil => exact h
  | cons item pre ih => exact ih h.of_cons

theorem Items.Proper.of_append_left {post : List Item} (h : Proper ⟨items ++ post, tail⟩) :
    Proper ⟨items, []⟩ := by
  refine ⟨fun i hi => h.gap_blank i (List.mem_append_left _ hi),
    fun i hi => h.isWord i (List.mem_append_left _ hi), fun i hi => h.gap_ne_nil i ?_, by simp⟩
  cases items with
  | nil => cases hi
  | cons item items => exact List.mem_append_left _ hi

/-- White space in front of the first word may be left out. -/
theorem Items.Proper.unindent {item : Item} (h : Proper ⟨item :: items, tail⟩) :
    Proper ⟨⟨[], item.word⟩ :: items, tail⟩ :=
  ⟨List.forall_mem_cons.2 ⟨by simp, h.of_cons.gap_blank⟩,
    List.forall_mem_cons.2 ⟨h.isWord item (List.mem_cons_self ..), h.of_cons.isWord⟩,
    h.gap_ne_nil, h.tail_blank⟩

/-- What is read from a text are words with white space between them. -/
theorem proper_itemize (text : Text) : (itemize text).Proper := by
  induction text with
  | nil => exact ⟨by simp [itemize], by simp [itemize], by simp [itemize], by simp [itemize]⟩
  | cons c rest ih =>
      unfold itemize
      split
      · rename_i tail hRest
        rw [hRest] at ih
        split
        · rename_i hBlank
          exact ⟨by simp, by simp, by simp, List.forall_mem_cons.2 ⟨hBlank, ih.tail_blank⟩⟩
        · rename_i hNot
          exact ⟨by simp, by simpa using ⟨by simp, by simpa using hNot⟩, by simp, ih.tail_blank⟩
      · rename_i gap word more tail hRest
        rw [hRest] at ih
        obtain ⟨hGap, hGaps⟩ := List.forall_mem_cons.1 ih.gap_blank
        obtain ⟨hWord, hWords⟩ := List.forall_mem_cons.1 ih.isWord
        split
        · rename_i hBlank
          exact ⟨List.forall_mem_cons.2 ⟨List.forall_mem_cons.2 ⟨hBlank, hGap⟩, hGaps⟩,
            List.forall_mem_cons.2 ⟨hWord, hWords⟩, ih.gap_ne_nil, ih.tail_blank⟩
        · rename_i hNot
          have hLetter : isBlank c = false := by simpa using hNot
          split
          · refine ⟨List.forall_mem_cons.2 ⟨by simp, hGaps⟩,
              List.forall_mem_cons.2 ⟨⟨by simp, ?_⟩, hWords⟩, ih.gap_ne_nil, ih.tail_blank⟩
            exact List.forall_mem_cons.2 ⟨hLetter, hWord.not_blank⟩
          · rename_i hNe
            refine ⟨List.forall_mem_cons.2 ⟨by simp, ih.gap_blank⟩,
              List.forall_mem_cons.2 ⟨⟨by simp, by simpa using hLetter⟩, ih.isWord⟩, ?_,
              ih.tail_blank⟩
            exact List.forall_mem_cons.2 ⟨hNe, ih.gap_ne_nil⟩

/-- White space in front of a text belongs to the gap of its first word. -/
def Items.indent (gap : Text) : Items → Items
  | ⟨[], tail⟩ => ⟨[], gap ++ tail⟩
  | ⟨item :: rest, tail⟩ => ⟨⟨gap ++ item.gap, item.word⟩ :: rest, tail⟩

/-- White space in front changes the gap of the first word only. -/
theorem itemize_gap_append (h : ∀ c ∈ gap, isBlank c = true) (text : Text) :
    itemize (gap ++ text) = (itemize text).indent gap := by
  induction gap with
  | nil =>
      rw [List.nil_append]
      rcases itemize text with ⟨_ | ⟨_, _⟩, _⟩ <;> rfl
  | cons c gap ih =>
      obtain ⟨hBlank, hGap⟩ := List.forall_mem_cons.1 h
      rw [List.cons_append, itemize, ih hGap]
      rcases itemize text with ⟨_ | ⟨_, _⟩, _⟩ <;> simp [Items.indent, hBlank]

/-- A word in front comes first, unless the next one touches it. -/
theorem itemize_word_append (h : IsWord word) (hText : itemize text = ⟨items, tail⟩)
    (hApart : ∀ item ∈ items.head?, item.gap ≠ []) :
    itemize (word ++ text) = ⟨⟨[], word⟩ :: items, tail⟩ := by
  obtain ⟨hNe, hWord⟩ := h
  induction word with
  | nil => exact absurd rfl hNe
  | cons c rest ih =>
      obtain ⟨hLetter, hRest⟩ := List.forall_mem_cons.1 hWord
      cases rest with
      | nil =>
          cases items with
          | nil => simp [itemize, hText, hLetter]
          | cons item items =>
              have hGap : item.gap ≠ [] := hApart item rfl
              simp [itemize, hText, hLetter, hGap]
      | cons d rest =>
          rw [List.cons_append, itemize, ih (List.cons_ne_nil _ _) hRest]
          simp [hLetter]

/-- There is one way only to read a text as words with white space between them. -/
theorem itemize_toText {i : Items} (h : i.Proper) : itemize i.toText = i := by
  obtain ⟨items, tail⟩ := i
  induction items with
  | nil =>
      have hTail := itemize_gap_append h.tail_blank []
      simpa [Items.toText, itemize, Items.indent] using hTail
  | cons item rest ih =>
      have hRest := ih h.of_cons
      have hWord := itemize_word_append (h.isWord item (List.mem_cons_self ..)) hRest fun i hi =>
        h.gap_ne_nil i (List.mem_of_mem_head? hi)
      have hGap := itemize_gap_append (h.gap_blank item (List.mem_cons_self ..))
        (item.word ++ Items.toText ⟨rest, tail⟩)
      rw [hWord] at hGap
      simpa [Items.toText, Items.indent] using hGap

/-- White space at the end adds no word. -/
theorem items_itemize_append_blank (h : ∀ c ∈ after, isBlank c = true) (text : Text) :
    (itemize (text ++ after)).items = (itemize text).items := by
  have hProper := proper_itemize text
  have hMore : Items.Proper ⟨(itemize text).items, (itemize text).tail ++ after⟩ :=
    ⟨hProper.gap_blank, hProper.isWord, hProper.gap_ne_nil,
      List.forall_mem_append.2 ⟨hProper.tail_blank, h⟩⟩
  have hText : Items.toText ⟨(itemize text).items, (itemize text).tail ++ after⟩ = text ++ after := by
    rw [Items.toText, ← List.append_assoc]
    exact congrArg (· ++ after) (toText_itemize text)
  rw [← hText, itemize_toText hMore]

theorem separated_append_cons (h : isBlank c = true) (before after : Text) :
    separated (before ++ c :: after) = separated before ++ separated after := by
  rw [separated, List.splitOnP_append_cons before after h, List.filter_append]
  rfl

theorem separated_gap_append (h : ∀ c ∈ gap, isBlank c = true) (text : Text) :
    separated (gap ++ text) = separated text := by
  induction gap with
  | nil => rfl
  | cons c gap ih =>
      obtain ⟨hBlank, hGap⟩ := List.forall_mem_cons.1 h
      have hCut := separated_append_cons hBlank [] (gap ++ text)
      rw [List.nil_append, ih hGap] at hCut
      exact hCut

theorem separated_append_blank (h : ∀ c ∈ tail, isBlank c = true) (text : Text) :
    separated (text ++ tail) = separated text := by
  cases tail with
  | nil => rw [List.append_nil]
  | cons c rest =>
      obtain ⟨hBlank, hRest⟩ := List.forall_mem_cons.1 h
      have hNone := separated_gap_append hRest []
      rw [List.append_nil] at hNone
      rw [separated_append_cons hBlank, hNone]
      exact List.append_nil _

theorem separated_word (h : IsWord word) : separated word = [word] := by
  rw [separated, List.splitOnP_eq_singleton h.not_blank]
  simp [h.ne_nil]

theorem separated_word_append (h : IsWord word) (hText : BeginsFree text) :
    separated (word ++ text) = word :: separated text := by
  cases text with
  | nil => rw [List.append_nil, separated_word h]; rfl
  | cons c rest =>
      have hBlank : isBlank c = true := hText c rfl
      rw [separated_append_cons hBlank, separated_word h, ← List.nil_append (c :: rest),
        separated_append_cons hBlank]
      rfl

namespace Items.Proper

variable {pre post : List Item} {item : Item}

theorem beginsFree_of_gap_ne_nil (h : Proper ⟨items, tail⟩) (hGap : ∀ item ∈ items, item.gap ≠ []) :
    BeginsFree (toText ⟨items, tail⟩) := by
  cases items with
  | nil => exact beginsFree_of_blank h.tail_blank
  | cons first rest =>
      obtain ⟨c, gap, hFirst⟩ := List.exists_cons_of_ne_nil (hGap first (List.mem_cons_self ..))
      have hBlank : isBlank c = true :=
        h.gap_blank first (List.mem_cons_self ..) c (hFirst ▸ List.mem_cons_self ..)
      have hText : toText ⟨first :: rest, tail⟩ =
          c :: (gap ++ (first.word ++ toText ⟨rest, tail⟩)) := by
        simp [toText, hFirst]
      rw [hText]
      exact beginsFree_cons hBlank _

/-- No word runs on into what stands behind an item. -/
theorem beginsFree_after (h : Proper ⟨pre ++ item :: post, tail⟩) :
    BeginsFree (toText ⟨post, tail⟩) := by
  induction pre with
  | nil => exact h.of_cons.beginsFree_of_gap_ne_nil h.gap_ne_nil
  | cons first pre ih => exact ih h.of_cons

/-- No word runs on out of what stands before the word of an item. -/
theorem endsFree_before (h : Proper ⟨pre ++ item :: post, tail⟩) :
    EndsFree (toText ⟨pre, item.gap⟩) := by
  have hMem : item ∈ pre ++ item :: post := List.mem_append_right _ (List.mem_cons_self ..)
  by_cases hGap : item.gap = []
  · cases pre with
    | nil => rw [hGap]; exact endsFree_nil
    | cons first pre =>
        have hLater : item ∈ pre ++ item :: post :=
          List.mem_append_right _ (List.mem_cons_self ..)
        exact absurd hGap (h.gap_ne_nil item hLater)
  · obtain ⟨gap, c, hLast⟩ := List.eq_nil_or_concat item.gap |>.resolve_left hGap
    have hBlank : isBlank c = true := h.gap_blank item hMem c (by simp [hLast])
    simp only [toText, hLast, List.concat_eq_append, ← List.append_assoc]
    exact endsFree_concat _ hBlank

/-- The word of an item stands behind the items before it and its gap. -/
theorem standsFree (h : Proper ⟨pre ++ item :: post, tail⟩) :
    StandsFree item.word (toText ⟨pre ++ item :: post, tail⟩) (byteSize (toText ⟨pre, item.gap⟩)) :=
  ⟨toText ⟨pre, item.gap⟩, toText ⟨post, tail⟩, by simp [toText], rfl, h.endsFree_before,
    h.beginsFree_after⟩

/-- Words that are written with white space between them are found again. -/
theorem separated_toText {i : Items} (h : i.Proper) : separated i.toText = i.items.map Item.word := by
  obtain ⟨items, tail⟩ := i
  induction items with
  | nil =>
      have hTail := separated_gap_append h.tail_blank []
      rw [List.append_nil] at hTail
      exact hTail
  | cons item rest ih =>
      have hText : toText ⟨item :: rest, tail⟩ =
          item.gap ++ (item.word ++ toText ⟨rest, tail⟩) := by
        simp [toText]
      have hAll : Items.Proper ⟨[] ++ item :: rest, tail⟩ := h
      have hFree := hAll.beginsFree_after
      rw [hText, separated_gap_append (h.gap_blank item (List.mem_cons_self ..)),
        separated_word_append (h.isWord item (List.mem_cons_self ..)) hFree, ih h.of_cons]
      rfl

end Items.Proper

/-- The words of a text are what stands between white space in it. -/
theorem words_eq_separated (text : Text) : words text = separated text := by
  have hWords := (proper_itemize text).separated_toText
  rw [toText_itemize] at hWords
  exact hWords.symm

end Changelog.Text
