import Changelog.Proofs.Drawing.WrappedLines
import Changelog.Proofs.Text.Words
import Mathlib.Data.List.Chain

/-! Filling lines, told by the words that come to stand on them. Wrapping divides the words of a paragraph
into rows; a row of more than one word fits in the column, and the first word of the next row would not
have fitted on it. Where the lines stand follows from the rows alone. -/

namespace Changelog

namespace Wrap

open Text

/-- The words of a line, each with the white space before it. There is at least one. -/
structure Row where
  first : Text.Item
  more : List Text.Item := []
deriving DecidableEq, Repr

namespace Row

def items (row : Row) : List Text.Item :=
  row.first :: row.more

/-- What stands on the line: the words, with the white space between them. -/
def text (row : Row) : Text :=
  row.first.word ++ itemsText row.more

def add (row : Row) (item : Text.Item) : Row :=
  { row with more := row.more ++ [item] }

/-- A word comes to stand behind the row with the white space in front of it. -/
theorem text_add (row : Row) (item : Text.Item) : (row.add item).text = row.text ++ item.gap ++ item.word := by
  simp [text, add, itemsText]

/-- The white space in front of its first word is not part of a row. -/
theorem itemsText_items (row : Row) : itemsText row.items = row.first.gap ++ row.text := by
  simp [itemsText, items, text]

end Row

theorem itemsText_append (a b : List Text.Item) : itemsText (a ++ b) = itemsText a ++ itemsText b :=
  List.flatMap_append

/-- The words of rows, in order. -/
def rowItems (rows : List Row) : List Text.Item :=
  rows.flatMap Row.items

theorem rowItems_cons (row : Row) (rows : List Row) : rowItems (row :: rows) = row.items ++ rowItems rows :=
  List.flatMap_cons

theorem rowItems_append (a b : List Row) : rowItems (a ++ b) = rowItems a ++ rowItems b :=
  List.flatMap_append

variable {α : Type} {c : Column α} {row : Row} {items : List Text.Item} {base : Nat}

/-- The lines of rows that follow one another from offset `base` on. -/
def Column.layRows (c : Column α) (base : Nat) : List Row → List (WrappedLine α)
  | [] => []
  | row :: rest =>
    c.line (base + byteSize row.first.gap) row.text ::
      c.layRows (base + byteSize (itemsText row.items)) rest

/-- Lines of rows are divided as the rows are. -/
theorem exists_of_layRows_eq_append {rows : List Row} {lines more : List (WrappedLine α)}
    (h : c.layRows base rows = lines ++ more) :
    ∃ above below, rows = above ++ below ∧ lines = c.layRows base above ∧
      more = c.layRows (base + byteSize (itemsText (rowItems above))) below := by
  induction rows generalizing base lines with
  | nil =>
      obtain ⟨rfl, rfl⟩ := List.append_eq_nil_iff.1 h.symm
      exact ⟨[], [], rfl, rfl, rfl⟩
  | cons row rest ih =>
      cases lines with
      | nil => exact ⟨[], row :: rest, rfl, rfl, h.symm⟩
      | cons line lines =>
          obtain ⟨rfl, hRest⟩ := List.cons.inj h
          obtain ⟨above, below, rfl, rfl, rfl⟩ := ih hRest
          refine ⟨row :: above, below, rfl, rfl, ?_⟩
          rw [rowItems_cons, itemsText_append, byteSize_append, ← Nat.add_assoc]

/-- A line stands where the words above it end, and the white space in front of its first word. -/
theorem mem_layRows {rows : List Row} {line : WrappedLine α} (h : line ∈ c.layRows base rows) :
    ∃ above row below, rows = above ++ row :: below ∧
      line = c.line (base + byteSize (itemsText (rowItems above)) + byteSize row.first.gap) row.text := by
  obtain ⟨lines, more, hLines⟩ := List.append_of_mem h
  obtain ⟨above, below, rfl, _, hBelow⟩ := exists_of_layRows_eq_append hLines
  cases below with
  | nil => cases hBelow
  | cons row below => exact ⟨above, row, below, rfl, (List.cons.inj hBelow).1⟩

theorem map_text_layRows (c : Column α) (base : Nat) (rows : List Row) :
    (c.layRows base rows).map WrappedLine.text = rows.map Row.text := by
  induction rows generalizing base with
  | nil => rfl
  | cons row rest ih => exact congrArg _ (ih _)

theorem length_layRows (c : Column α) (base : Nat) (rows : List Row) :
    (c.layRows base rows).length = rows.length := by
  simpa using congrArg List.length (map_text_layRows c base rows)

/-- Lines do not touch: white space stands between them. -/
theorem pairwise_layRows {rows : List Row} (hGap : ∀ item ∈ (rowItems rows).tail, item.gap ≠ []) :
    (c.layRows base rows).Pairwise fun a b => a.span.stop < b.span.start := by
  induction rows generalizing base with
  | nil => exact List.Pairwise.nil
  | cons row rest ih =>
      have hRest : ∀ item ∈ rowItems rest, item.gap ≠ [] := fun item hMem =>
        hGap item (by rw [rowItems_cons]; exact List.mem_append_right _ hMem)
      refine List.pairwise_cons.2 ⟨fun line hMem => ?_,
        ih fun item hMem => hRest item (List.mem_of_mem_tail hMem)⟩
      obtain ⟨above, next, below, rfl, rfl⟩ := mem_layRows hMem
      show base + byteSize row.first.gap + byteSize row.text <
        base + byteSize (itemsText row.items) + byteSize (itemsText (rowItems above)) +
          byteSize next.first.gap
      have hNext : next.first ∈ rowItems (above ++ next :: below) :=
        List.mem_flatMap.2 ⟨next, by simp, List.mem_cons_self ..⟩
      have hPos := mt byteSize_eq_zero_iff.1 (hRest next.first hNext)
      rw [Row.itemsText_items, byteSize_append]
      omega

variable [Scalar α]

/-- Divides items into rows, the first of which is begun. -/
def Column.rowsFrom (c : Column α) (row : Row) : List Text.Item → List Row
  | [] => [row]
  | item :: rest =>
    if c.fits (row.add item).text then c.rowsFrom (row.add item) rest
    else row :: c.rowsFrom ⟨item, []⟩ rest

/-- Divides items into rows. -/
def Column.rows (c : Column α) : List Text.Item → List Row
  | [] => []
  | item :: rest => c.rowsFrom ⟨item, []⟩ rest

/-- Filling lines word by word lays out the rows that the words divide into. -/
theorem fill_eq_layRows (c : Column α) (base : Nat) (row : Row) (items : List Text.Item) :
    c.fill (base + byteSize row.first.gap) row.text items = c.layRows base (c.rowsFrom row items) := by
  induction items generalizing base row with
  | nil => rfl
  | cons item rest ih =>
      have hJoined := ih base (row.add item)
      rw [Row.text_add] at hJoined
      have hStart : base + byteSize row.first.gap + byteSize row.text + byteSize item.gap =
          base + byteSize (itemsText row.items) + byteSize item.gap := by
        rw [Row.itemsText_items, byteSize_append, ← Nat.add_assoc]
      have hBroken := ih (base + byteSize (itemsText row.items)) ⟨item, []⟩
      rw [← hStart, show Row.text ⟨item, []⟩ = item.word from List.append_nil _] at hBroken
      rw [Column.fill, Column.rowsFrom, ← Row.text_add]
      split
      · rw [Row.text_add]
        exact hJoined
      · rw [Column.layRows, ← hBroken]

/-- So do the lines of a paragraph with words. -/
theorem paragraphLines_eq_layRows (c : Column α) (base : Nat) {paragraph : Text}
    (h : (itemize paragraph).items ≠ []) :
    c.paragraphLines base paragraph = c.layRows base (c.rows (itemize paragraph).items) := by
  obtain ⟨item, rest, hItems⟩ := List.exists_cons_of_ne_nil h
  have hFill := fill_eq_layRows c base ⟨item, []⟩ rest
  rw [show Row.text ⟨item, []⟩ = item.word from List.append_nil _] at hFill
  simp only [Column.paragraphLines, hItems]
  exact hFill

theorem paragraphLines_of_no_items (c : Column α) (base : Nat) {paragraph : Text}
    (h : (itemize paragraph).items = []) :
    c.paragraphLines base paragraph = [{ span := ⟨base, base⟩, text := [], width := Scalar.zero }] := by
  simp only [Column.paragraphLines, h]

/-- Dividing words into rows keeps each of them in its place. -/
theorem rowItems_rowsFrom (c : Column α) (row : Row) (items : List Text.Item) :
    rowItems (c.rowsFrom row items) = row.items ++ items := by
  induction items generalizing row with
  | nil => rfl
  | cons item rest ih =>
      rw [Column.rowsFrom]
      split
      · simp [ih, Row.items, Row.add]
      · rw [rowItems_cons, ih]
        rfl

/-- No word is lost, and their order stays. -/
theorem rowItems_rows (c : Column α) (items : List Text.Item) : rowItems (c.rows items) = items := by
  cases items with
  | nil => rfl
  | cons item rest => exact rowItems_rowsFrom c ⟨item, []⟩ rest

theorem rowsFrom_ne_nil (c : Column α) (row : Row) (items : List Text.Item) : c.rowsFrom row items ≠ [] := by
  intro hNil
  have hItems := rowItems_rowsFrom c row items
  rw [hNil] at hItems
  cases hItems

/-- A row fits if the row that is begun does: no word is added to one that would not. -/
theorem fits_of_mem_rowsFrom {r : Row} (hRow : row.more ≠ [] → c.fits row.text = true)
    (hMem : r ∈ c.rowsFrom row items) (hMore : r.more ≠ []) : c.fits r.text = true := by
  induction items generalizing row with
  | nil =>
      obtain rfl := List.mem_singleton.1 hMem
      exact hRow hMore
  | cons item rest ih =>
      rw [Column.rowsFrom] at hMem
      split at hMem
      · rename_i hFits
        exact ih (fun _ => hFits) hMem
      · rcases List.mem_cons.1 hMem with rfl | hMem
        · exact hRow hMore
        · exact ih (fun hNe => absurd rfl hNe) hMem

/-- A row of two or more words fits in the column. -/
theorem fits_of_mem_rows {r : Row} (hMem : r ∈ c.rows items) (hMore : r.more ≠ []) :
    c.fits r.text = true := by
  cases items with
  | nil => cases hMem
  | cons item rest => exact fits_of_mem_rowsFrom (fun hNe => absurd rfl hNe) hMem hMore

/-- The row that is begun keeps its first word. -/
theorem first_of_mem_head? {r : Row} (h : r ∈ (c.rowsFrom row items).head?) : r.first = row.first := by
  induction items generalizing row with
  | nil =>
      obtain rfl : row = r := by simpa [Column.rowsFrom] using h
      rfl
  | cons item rest ih =>
      rw [Column.rowsFrom] at h
      split at h
      · exact @ih (row.add item) h
      · obtain rfl : row = r := by simpa using h
        rfl

/-- A row is ended only by a word that does not fit on it. -/
theorem isChain_rowsFrom (c : Column α) (row : Row) (items : List Text.Item) :
    (c.rowsFrom row items).IsChain fun a b => c.fits (a.add b.first).text = false := by
  induction items generalizing row with
  | nil => exact List.isChain_singleton row
  | cons item rest ih =>
      rw [Column.rowsFrom]
      split
      · exact ih (row.add item)
      · rename_i hFull
        refine List.isChain_cons.2 ⟨fun next hNext => ?_, ih ⟨item, []⟩⟩
        rw [first_of_mem_head? hNext]
        simpa using hFull

/-- The first word of the next row would not have fitted. -/
theorem isChain_rows (c : Column α) (items : List Text.Item) :
    (c.rows items).IsChain fun a b => c.fits (a.add b.first).text = false := by
  cases items with
  | nil => exact List.isChain_nil
  | cons item rest => exact isChain_rowsFrom c ⟨item, []⟩ rest

end Wrap

end Changelog
