import Changelog.Drawing.Renderer
import Changelog.Proofs.Text.Slice

/-! The runs of a line. Decorations that lie in order divide a line into runs that follow one another from
its beginning to its end, so together they are the line; and each run has the colour of the link that
covers it, or that of the block. -/

namespace Changelog

namespace Span

/-- Some byte belongs to both spans. -/
def Meets (a b : Span) : Prop :=
  ∃ i, a.Covers i ∧ b.Covers i

/-- The spans follow one another from `start` to `stop`, and none of them is empty. -/
inductive Tiles : Nat → Nat → List Span → Prop where
  | nil (i : Nat) : Tiles i i []
  | cons {start middle stop : Nat} {rest : List Span} (hLt : start < middle)
      (hRest : Tiles middle stop rest) : Tiles start stop (⟨start, middle⟩ :: rest)

variable {start middle stop : Nat} {spans : List Span} {span line : Span}

theorem tiles_of_le (h : start ≤ stop) :
    Tiles start stop (if start < stop then [⟨start, stop⟩] else []) := by
  split
  · rename_i hLt
    exact .cons hLt (.nil stop)
  · obtain rfl : start = stop := by omega
    exact .nil start

/-- Spans that reach a place may be followed by others from there on. -/
theorem Tiles.append {more : List Span} (h : Tiles start middle spans) (h' : Tiles middle stop more) :
    Tiles start stop (spans ++ more) := by
  induction h with
  | nil => exact h'
  | cons hLt _ ih => exact .cons hLt (ih h')

theorem Tiles.le (h : Tiles start stop spans) : start ≤ stop := by
  induction h with
  | nil => exact Nat.le_refl _
  | cons hLt _ ih => omega

/-- Each of the spans lies between the ends, and holds a byte. -/
theorem Tiles.of_mem (h : Tiles start stop spans) (hMem : span ∈ spans) :
    start ≤ span.start ∧ span.start < span.stop ∧ span.stop ≤ stop := by
  induction h with
  | nil => cases hMem
  | cons hLt hRest ih =>
      have hLe := hRest.le
      rcases List.mem_cons.1 hMem with rfl | hMem
      · exact ⟨Nat.le_refl _, hLt, hLe⟩
      · have hIn := ih hMem
        omega

/-- What stands at the spans, put together, is what stands from the beginning to the end. -/
theorem Tiles.flatMap_slice (h : Tiles start stop spans) (text : Text) :
    spans.flatMap (fun span => Text.slice span.start span.stop text) =
      Text.slice start stop text := by
  induction h with
  | nil => rw [Text.slice_self, List.flatMap_nil]
  | cons hLt hRest ih =>
      rw [List.flatMap_cons, ih, Text.slice_append_slice (Nat.le_of_lt hLt) hRest.le]

/-- Between two boundaries of a text, spans that begin and end at boundaries tile parts of it. -/
theorem Tiles.boundary {text : Text} (h : Tiles start stop spans) (hStart : Text.Boundary text start)
    (hStops : ∀ span ∈ spans, Text.Boundary text span.stop) :
    ∀ span ∈ spans, Text.HasSpan text span := by
  induction h with
  | nil => exact fun _ hMem => absurd hMem List.not_mem_nil
  | cons hLt hRest ih =>
      have hMiddle := hStops _ (List.mem_cons_self ..)
      intro span hMem
      rcases List.mem_cons.1 hMem with rfl | hMem
      · exact ⟨Nat.le_of_lt hLt, hStart, hMiddle⟩
      · exact ih hMiddle (fun s hs => hStops s (List.mem_cons_of_mem _ hs)) span hMem

end Span

namespace Renderer

variable {α : Type}

namespace PlacedDecoration

def span (d : PlacedDecoration α) : Span :=
  d.decoration.span

/-- The colour of a link; an underlined text keeps its own. -/
def linkColor? (settings : Settings α) (d : PlacedDecoration α) : Option Color :=
  match d.decoration.kind with
  | .underline => none
  | .link _ => some (if d.hovered then settings.linkHoverColor else settings.linkColor)

end PlacedDecoration

variable {settings : Settings α} {color : Color} {line span : Span}
  {mark i : Nat} {decorations : List (PlacedDecoration α)}

/-- The part of a span on a line holds the bytes that the two have in common. -/
theorem covers_onLine : (onLine span line).Covers i ↔ span.Covers i ∧ line.Covers i := by
  simp only [Span.Covers, onLine]
  omega

/-- A span has a byte on a line just when its part there is not empty. -/
theorem meets_iff : span.Meets line ↔ (onLine span line).start < (onLine span line).stop := by
  constructor
  · rintro ⟨i, hSpan, hLine⟩
    have hBoth := covers_onLine.2 ⟨hSpan, hLine⟩
    exact Nat.lt_of_le_of_lt hBoth.1 hBoth.2
  · exact fun hLt => ⟨_, covers_onLine.1 ⟨Nat.le_refl _, hLt⟩⟩

instance (span line : Span) : Decidable (span.Meets line) :=
  decidable_of_iff _ meets_iff.symm

/-- The first decoration adds nothing to a line if it colours no byte of it. Otherwise its part of the line
is a run, with one in front of it if the mark lies further to the left. -/
theorem lineRuns_cons (settings : Settings α) (color : Color) (line : Span) (mark : Nat)
    (d : PlacedDecoration α) (decorations : List (PlacedDecoration α)) :
    (lineRuns settings color line mark (d :: decorations) =
        lineRuns settings color line mark decorations ∧
      ∀ i, line.Covers i → d.span.Covers i → d.linkColor? settings = none) ∨
    ∃ linkColor, d.linkColor? settings = some linkColor ∧ d.span.Meets line ∧
      lineRuns settings color line mark (d :: decorations) =
        (if mark < (onLine d.span line).start then [⟨⟨mark, (onLine d.span line).start⟩, color⟩]
          else []) ++
          ⟨onLine d.span line, linkColor⟩ ::
            lineRuns settings color line (onLine d.span line).stop decorations := by
  cases hKind : d.decoration.kind with
  | underline =>
      refine Or.inl ⟨?_, fun _ _ _ => by rw [PlacedDecoration.linkColor?, hKind]⟩
      rw [lineRuns, hKind]
  | link url =>
      by_cases hMeets : d.span.Meets line
      · refine Or.inr ⟨_, by rw [PlacedDecoration.linkColor?, hKind], hMeets, ?_⟩
        rw [lineRuns, hKind]
        exact if_pos (meets_iff.1 hMeets)
      · refine Or.inl ⟨?_, fun i hLine hFirst => absurd ⟨i, hFirst, hLine⟩ hMeets⟩
        rw [lineRuns, hKind]
        exact if_neg (mt meets_iff.2 hMeets)

/-- The decorations that are left lie behind one another and behind the mark. -/
structure Ahead (line : Span) (mark : Nat) (decorations : List (PlacedDecoration α)) : Prop where
  start_le : line.start ≤ mark
  le_stop : mark ≤ line.stop
  ordered : decorations.Pairwise fun a b => a.span.stop ≤ b.span.start
  mark_le : ∀ d ∈ decorations, mark ≤ max d.span.start line.start

/-- The mark stays where it is if a decoration is passed over. -/
theorem Ahead.tail {d : PlacedDecoration α} (h : Ahead line mark (d :: decorations)) :
    Ahead line mark decorations :=
  ⟨h.start_le, h.le_stop, h.ordered.of_cons, fun e he => h.mark_le e (List.mem_cons_of_mem _ he)⟩

/-- It moves behind a decoration that has bytes on the line, and the next ones lie behind it still. -/
theorem Ahead.behind {d : PlacedDecoration α} (h : Ahead line mark (d :: decorations))
    (hMeets : d.span.Meets line) : Ahead line (onLine d.span line).stop decorations := by
  obtain ⟨hFirst, hRest⟩ := List.pairwise_cons.1 h.ordered
  have hMark := h.mark_le d (List.mem_cons_self ..)
  have hLt := meets_iff.1 hMeets
  simp only [onLine] at hLt
  refine ⟨?_, Nat.min_le_right .., hRest, fun e he => ?_⟩
  · simp only [onLine]
    omega
  · have hLe := hFirst e he
    simp only [onLine]
    omega

/-- The runs of a line follow one another without a gap, and none is empty. -/
theorem Ahead.tiles (h : Ahead line mark decorations) :
    Span.Tiles mark line.stop ((lineRuns settings color line mark decorations).map ColoredRun.span) := by
  induction decorations generalizing mark with
  | nil =>
      rw [lineRuns, apply_ite (List.map ColoredRun.span)]
      exact Span.tiles_of_le h.le_stop
  | cons d rest ih =>
      rcases lineRuns_cons settings color line mark d rest with
        ⟨hEq, _⟩ | ⟨linkColor, _, hMeets, hEq⟩
      · rw [hEq]
        exact ih h.tail
      · rw [hEq, List.map_append, List.map_cons, apply_ite (List.map ColoredRun.span)]
        refine (Span.tiles_of_le (h.mark_le d (List.mem_cons_self ..))).append ?_
        exact .cons (meets_iff.1 hMeets) (ih (h.behind hMeets))

/-- What is left to be drawn lies between the mark and the end of the line. -/
theorem Ahead.bounds (h : Ahead line mark decorations) {run : ColoredRun}
    (hMem : run ∈ lineRuns settings color line mark decorations) (hCovers : run.span.Covers i) :
    mark ≤ i ∧ i < line.stop := by
  have hRun := h.tiles.of_mem (List.mem_map_of_mem hMem)
  exact ⟨Nat.le_trans hRun.1 hCovers.1, Nat.lt_of_lt_of_le hCovers.2 hRun.2.2⟩

/-- A byte is drawn in the colour of the link that covers it, or else in the colour of the block. -/
theorem Ahead.color_eq (h : Ahead line mark decorations) {run : ColoredRun}
    (hMem : run ∈ lineRuns settings color line mark decorations) (hCovers : run.span.Covers i) :
    (∃ d ∈ decorations, d.span.Covers i ∧ d.linkColor? settings = some run.color) ∨
      run.color = color ∧ ∀ d ∈ decorations, d.span.Covers i → d.linkColor? settings = none := by
  induction decorations generalizing mark with
  | nil =>
      rw [lineRuns] at hMem
      split at hMem
      · obtain rfl := List.mem_singleton.1 hMem
        exact Or.inr ⟨rfl, fun d hd => absurd hd List.not_mem_nil⟩
      · cases hMem
  | cons d rest ih =>
      have hBounds := h.bounds hMem hCovers
      have hOnLine : line.Covers i := ⟨Nat.le_trans h.start_le hBounds.1, hBounds.2⟩
      -- it is enough to look at the rest if the first decoration gives the byte no colour
      have hRest (hTail : (∃ e ∈ rest, e.span.Covers i ∧ e.linkColor? settings = some run.color) ∨
          run.color = color ∧ ∀ e ∈ rest, e.span.Covers i → e.linkColor? settings = none)
          (hFirst : d.span.Covers i → d.linkColor? settings = none) :
          (∃ e ∈ d :: rest, e.span.Covers i ∧ e.linkColor? settings = some run.color) ∨
            run.color = color ∧
              ∀ e ∈ d :: rest, e.span.Covers i → e.linkColor? settings = none := by
        rcases hTail with ⟨e, he, hColor⟩ | ⟨hColor, hNone⟩
        · exact Or.inl ⟨e, List.mem_cons_of_mem _ he, hColor⟩
        · exact Or.inr ⟨hColor, List.forall_mem_cons.2 ⟨hFirst, hNone⟩⟩
      rcases lineRuns_cons settings color line mark d rest with
        ⟨hEq, hNone⟩ | ⟨linkColor, hColor, hMeets, hEq⟩
      · rw [hEq] at hMem
        exact hRest (ih h.tail hMem) (hNone i hOnLine)
      · rw [hEq] at hMem
        rcases List.mem_append.1 hMem with hMem | hMem
        · -- the run lies in front of the link, and all other links lie behind it
          split at hMem
          · obtain rfl := List.mem_singleton.1 hMem
            have hBefore : i < max d.span.start line.start := hCovers.2
            have hStart := hOnLine.1
            obtain ⟨j, ⟨hj, hj'⟩, _⟩ := hMeets
            refine Or.inr ⟨rfl, List.forall_mem_cons.2 ⟨fun hi => ?_, fun e he hi => ?_⟩⟩
            · have hLe := hi.1
              omega
            · have hLe := (List.pairwise_cons.1 h.ordered).1 e he
              have hLe' := hi.1
              omega
          · cases hMem
        · rcases List.mem_cons.1 hMem with rfl | hMem
          · exact Or.inl ⟨d, List.mem_cons_self .., (covers_onLine.1 hCovers).1, hColor⟩
          · refine hRest (ih (h.behind hMeets) hMem) fun hFirst => ?_
            have hBehind : min d.span.stop line.stop ≤ i := ((h.behind hMeets).bounds hMem hCovers).1
            have hLt := hFirst.2
            omega

variable {text : Text}

/-- If neither the decoration nor the line cuts a character, nor does their common part. -/
theorem hasSpan_onLine (hSpan : Text.HasSpan text span) (hLine : Text.HasSpan text line)
    (hMeets : span.Meets line) : Text.HasSpan text (onLine span line) := by
  refine ⟨Nat.le_of_lt (meets_iff.1 hMeets), ?_, ?_⟩
  · show Text.Boundary text (max span.start line.start)
    rcases Nat.le_total span.start line.start with hLe | hLe
    · exact (Nat.max_eq_right hLe).symm ▸ hLine.start
    · exact (Nat.max_eq_left hLe).symm ▸ hSpan.start
  · show Text.Boundary text (min span.stop line.stop)
    rcases Nat.le_total span.stop line.stop with hLe | hLe
    · exact (Nat.min_eq_left hLe).symm ▸ hSpan.stop
    · exact (Nat.min_eq_right hLe).symm ▸ hLine.stop

/-- If the decorations cut no character, neither do the runs. -/
theorem Ahead.boundary (h : Ahead line mark decorations) (hLine : Text.HasSpan text line)
    (hSpans : ∀ d ∈ decorations, Text.HasSpan text d.span) :
    ∀ run ∈ lineRuns settings color line mark decorations, Text.Boundary text run.span.stop := by
  intro run hMem
  induction decorations generalizing mark with
  | nil =>
      rw [lineRuns] at hMem
      split at hMem
      · obtain rfl := List.mem_singleton.1 hMem
        exact hLine.stop
      · cases hMem
  | cons d rest ih =>
      obtain ⟨hFirst, hSpans⟩ := List.forall_mem_cons.1 hSpans
      rcases lineRuns_cons settings color line mark d rest with
        ⟨hEq, _⟩ | ⟨linkColor, _, hMeets, hEq⟩
      · rw [hEq] at hMem
        exact ih h.tail hSpans hMem
      · have hPart := hasSpan_onLine hFirst hLine hMeets
        rw [hEq] at hMem
        rcases List.mem_append.1 hMem with hMem | hMem
        · split at hMem
          · obtain rfl := List.mem_singleton.1 hMem
            exact hPart.start
          · cases hMem
        · rcases List.mem_cons.1 hMem with rfl | hMem
          · exact hPart.stop
          · exact ih (h.behind hMeets) hSpans hMem

/-- So each run is a slice of the text that can be taken. -/
theorem Ahead.hasSpan (h : Ahead line line.start decorations) (hLine : Text.HasSpan text line)
    (hSpans : ∀ d ∈ decorations, Text.HasSpan text d.span) {run : ColoredRun}
    (hMem : run ∈ lineRuns settings color line line.start decorations) :
    Text.HasSpan text run.span := by
  have hStops : ∀ span ∈ (lineRuns settings color line line.start decorations).map ColoredRun.span,
      Text.Boundary text span.stop := by
    intro span hSpan
    obtain ⟨run, hRun, rfl⟩ := List.mem_map.1 hSpan
    exact h.boundary hLine hSpans run hRun
  exact h.tiles.boundary hLine.start hStops _ (List.mem_map_of_mem hMem)

end Renderer

end Changelog
