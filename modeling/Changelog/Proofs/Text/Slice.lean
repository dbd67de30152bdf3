import Changelog.Text.Basic

/-! What stands at a span of a text. Offsets count bytes, so a span can be cut out only if a character
begins at either end of it; the slice is then the part of the text that takes these bytes. -/

namespace Changelog

/-- The byte at the offset belongs to the span. -/
def Span.Covers (span : Span) (i : Nat) : Prop :=
  span.start ≤ i ∧ i < span.stop

namespace Text

/-- A character of the text begins at the offset, or the text ends there. -/
def Boundary (text : Text) (i : Nat) : Prop :=
  ∃ before after, text = before ++ after ∧ byteSize before = i

/-- `part` takes the bytes of the span. -/
def StandsAt (part text : Text) (span : Span) : Prop :=
  ∃ before after, text = before ++ part ++ after ∧
    span = ⟨byteSize before, byteSize before + byteSize part⟩

/-- The span lies in the text and cuts no character. -/
structure HasSpan (text : Text) (span : Span) : Prop where
  start_le : span.start ≤ span.stop
  start : Boundary text span.start
  stop : Boundary text span.stop

/-- Of two ways to divide a text, the one that takes fewer bytes first comes first. -/
theorem exists_append_of_byteSize_le {a b c d : Text} (h : a ++ b = c ++ d)
    (hSize : byteSize a ≤ byteSize c) : ∃ part, c = a ++ part ∧ b = part ++ d := by
  rcases List.append_eq_append_iff.1 h with ⟨part, hc, hb⟩ | ⟨part, ha, hd⟩
  · exact ⟨part, hc, hb⟩
  · rw [ha, byteSize_append] at hSize
    have hNil : part = [] := byteSize_eq_zero_iff.1 (by omega)
    subst hNil
    exact ⟨[], by simpa using ha.symm, by simpa using hd.symm⟩

/-- More characters of one text take more bytes. -/
theorem byteSize_lt_of_length_lt {a b c d : Text} (h : a ++ b = c ++ d)
    (hLength : a.length < c.length) : byteSize a < byteSize c := by
  rcases List.append_eq_append_iff.1 h with ⟨part, rfl, _⟩ | ⟨part, rfl, _⟩
  · have hNe : part ≠ [] := by
      rintro rfl
      simp at hLength
    have hSize := mt byteSize_eq_zero_iff.1 hNe
    rw [byteSize_append]
    omega
  · rw [List.length_append] at hLength
    omega

@[simp] theorem slice_self (i : Nat) (text : Text) : slice i i text = [] := by
  induction text generalizing i with
  | nil => rfl
  | cons c rest ih =>
      by_cases hi : i = 0
      · simp [slice, hi]
      · simp [slice, hi, ih]

/-- A slice may be cut at any offset in it. -/
theorem slice_append_slice {i j k : Nat} (hij : i ≤ j) (hjk : j ≤ k) (text : Text) :
    slice i j text ++ slice j k text = slice i k text := by
  induction text generalizing i j k with
  | nil => rfl
  | cons c rest ih =>
      have hTail := ih (Nat.sub_le_sub_right hij c.utf8Size) (Nat.sub_le_sub_right hjk c.utf8Size)
      by_cases hi : i = 0
      · subst hi
        by_cases hj : j = 0
        · simp [slice, hj]
        · have hk : k ≠ 0 := by omega
          simpa [slice, hj, hk] using hTail
      · have hj : j ≠ 0 := by omega
        simpa [slice, hi, hj] using hTail

theorem slice_append_left (before text : Text) (i j : Nat) :
    slice (byteSize before + i) (byteSize before + j) (before ++ text) = slice i j text := by
  induction before with
  | nil => simp
  | cons c before ih =>
      have hPos := c.utf8Size_pos
      have hStart : c.utf8Size + byteSize before + i ≠ 0 := by omega
      have hi : c.utf8Size + byteSize before + i - c.utf8Size = byteSize before + i := by omega
      have hj : c.utf8Size + byteSize before + j - c.utf8Size = byteSize before + j := by omega
      simp only [byteSize_cons, List.cons_append, slice, if_neg hStart, hi, hj, ih]

theorem slice_zero_byteSize (part after : Text) : slice 0 (byteSize part) (part ++ after) = part := by
  induction part with
  | nil => simp
  | cons c part ih =>
      have hPos := c.utf8Size_pos
      have hStop : c.utf8Size + byteSize part ≠ 0 := by omega
      have hTail : c.utf8Size + byteSize part - c.utf8Size = byteSize part := by omega
      simp only [byteSize_cons, List.cons_append, slice, if_true, if_neg hStop, hTail, ih]

/-- What stands at a span is the slice there. -/
theorem StandsAt.slice_eq {part text : Text} {span : Span} (h : StandsAt part text span) :
    slice span.start span.stop text = part := by
  obtain ⟨before, after, rfl, rfl⟩ := h
  have hSlice := slice_append_left before (part ++ after) 0 (byteSize part)
  rw [slice_zero_byteSize] at hSlice
  simpa using hSlice

/-- A character that lies wholly in a span is in the slice. -/
theorem mem_slice {before after : Text} {c : Char} {i j : Nat} (hi : i ≤ byteSize before)
    (hj : byteSize before + c.utf8Size ≤ j) : c ∈ slice i j (before ++ c :: after) := by
  have hStands : StandsAt [c] (before ++ c :: after)
      ⟨byteSize before, byteSize before + c.utf8Size⟩ :=
    ⟨before, after, by simp, by simp⟩
  rw [← slice_append_slice hi (Nat.le_of_add_right_le hj),
    ← slice_append_slice (Nat.le_add_right _ c.utf8Size) hj, hStands.slice_eq]
  simp

/-- Where something stands, the span can be cut out. -/
theorem StandsAt.hasSpan {part text : Text} {span : Span} (h : StandsAt part text span) :
    HasSpan text span := by
  obtain ⟨before, after, rfl, rfl⟩ := h
  exact ⟨Nat.le_add_right .., ⟨before, part ++ after, by simp, rfl⟩,
    ⟨before ++ part, after, by simp, by simp⟩⟩

/-- What lies between two boundaries stands at the span from one to the other. -/
theorem HasSpan.standsAt {text : Text} {span : Span} (h : HasSpan text span) :
    StandsAt (slice span.start span.stop text) text span := by
  obtain ⟨start, stop⟩ := span
  obtain ⟨before, rest, rfl, rfl⟩ := h.start
  obtain ⟨whole, after, hText, rfl⟩ := h.stop
  obtain ⟨part, rfl, rfl⟩ := exists_append_of_byteSize_le hText h.start_le
  have hStands : StandsAt part (before ++ (part ++ after))
      ⟨byteSize before, byteSize (before ++ part)⟩ :=
    ⟨before, after, by simp, by simp⟩
  rwa [hStands.slice_eq]

/-- A span with a byte in it has a character. -/
theorem HasSpan.slice_ne_nil {text : Text} {span : Span} (h : HasSpan text span)
    (hLt : span.start < span.stop) : slice span.start span.stop text ≠ [] := by
  intro hNil
  obtain ⟨before, after, _, hSpan⟩ := h.standsAt
  obtain ⟨hStart, hStop⟩ := Span.mk.inj hSpan
  rw [hNil, byteSize_nil] at hStop
  omega

theorem Boundary.append {text : Text} {i : Nat} (h : Boundary text i) (more : Text) :
    Boundary (text ++ more) i := by
  obtain ⟨before, after, rfl, hSize⟩ := h
  exact ⟨before, after ++ more, by simp, hSize⟩

theorem Boundary.le {text : Text} {i : Nat} (h : Boundary text i) : i ≤ byteSize text := by
  obtain ⟨before, after, rfl, rfl⟩ := h
  simp

end Text

end Changelog
