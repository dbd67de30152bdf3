import Changelog.Proofs.Drawing.Step

/-! How far down drawing reaches: nothing that a block or a box draws lies below the place where the
cursor comes to rest. This holds for any line height, also for one below zero, whose lines go up. -/

namespace Changelog

/-- The lower edge of what is drawn; a text is as high as a line of its font. -/
def DrawOp.bottom (measurer : Measurer ℚ) : DrawOp ℚ → ℚ
  | .text position _ style => position.y + measurer.lineHeight style.font
  | .texture rect _ _ => rect.bottom
  | .line start stop _ => max start.y stop.y
  | .placeholder rect _ => rect.bottom
  | .tooltip rect _ => rect.bottom

/-- Nothing of what is drawn reaches below `low`. -/
def DrawOp.AllAbove (measurer : Measurer ℚ) (low : ℚ) (ops : List (DrawOp ℚ)) : Prop :=
  ∀ op ∈ ops, op.bottom measurer ≤ low

theorem DrawOp.AllAbove.mono {measurer : Measurer ℚ} {low low' : ℚ} {ops : List (DrawOp ℚ)}
    (h : AllAbove measurer low ops) (hLe : low ≤ low') : AllAbove measurer low' ops :=
  fun op hMem => (h op hMem).trans hLe

theorem DrawOp.allAbove_append {measurer : Measurer ℚ} {low : ℚ} {ops more : List (DrawOp ℚ)} :
    AllAbove measurer low (ops ++ more) ↔
      AllAbove measurer low ops ∧ AllAbove measurer low more := by
  simp only [AllAbove, List.mem_append, or_imp, forall_and]

/-- A part of line `i` of `n` lines lies above the end of the last line, or above the first line if
lines go up. -/
theorem line_part_le {n i : Nat} (hi : i < n) {part : ℚ} (hPart : 0 ≤ part) (hOne : part ≤ 1)
    (lineHeight : ℚ) : i * lineHeight + lineHeight * part ≤ max (n * lineHeight) 0 := by
  have hLe : (i : ℚ) + 1 ≤ n := by exact_mod_cast hi
  have hi' : (0 : ℚ) ≤ i := Nat.cast_nonneg i
  rcases le_total 0 lineHeight with h | h
  · refine le_max_of_le_left ?_
    nlinarith [mul_le_mul_of_nonneg_right hLe h, mul_le_mul_of_nonneg_left hOne h]
  · refine le_max_of_le_right ?_
    nlinarith [mul_nonneg_of_nonpos_of_nonpos h h, mul_nonneg hi' (neg_nonneg.2 h),
      mul_nonneg hPart (neg_nonneg.2 h)]

namespace Renderer

variable {r : Renderer ℚ} {block : DecoratedText} {style : TextStyle}

/-- The lines of a block stand below one another, a line height apart. -/
theorem mem_placedLines {text : Text} {font : FontSize} {p : PlacedLine ℚ}
    (h : p ∈ r.placedLines text font) :
    ∃ i < (r.placedLines text font).length,
      p.position.y = r.top + i * r.canvas.measurer.lineHeight font := by
  obtain ⟨⟨line, i⟩, hMem, rfl⟩ := List.mem_map.1 h
  exact ⟨i, by simpa [placedLines] using List.snd_lt_of_mem_zipIdx hMem, rfl⟩

/-- A rectangle of a span is level with one of the lines. -/
theorem mem_spanRects {measurer : Measurer ℚ} {font : FontSize} {text : Text}
    {placed : List (PlacedLine ℚ)} {span : Span} {rect : Rect ℚ}
    (h : rect ∈ spanRects measurer font text placed span) :
    ∃ p ∈ placed, rect.y = p.position.y ∧ rect.height = measurer.lineHeight font := by
  obtain ⟨p, hMem, hRect⟩ := List.mem_filterMap.1 h
  dsimp only at hRect
  split at hRect
  · obtain rfl := Option.some.inj hRect
    exact ⟨p, hMem, rfl, rfl⟩
  · cases hRect

/-- The height that a block takes. -/
theorem textHeight_eq (r : Renderer ℚ) (text : Text) (font : FontSize) :
    r.canvas.measurer.textHeight text r.columnWidth font =
      (r.placedLines text font).length * r.canvas.measurer.lineHeight font := by
  rw [length_placedLines]
  rfl

/-- The same for a line of a block. If lines go up, the first of them is the lowest. -/
theorem placedLine_part_le {text : Text} {font : FontSize} {p : PlacedLine ℚ}
    (h : p ∈ r.placedLines text font) {part : ℚ} (hPart : 0 ≤ part) (hOne : part ≤ 1) :
    p.position.y + r.canvas.measurer.lineHeight font * part ≤
      r.top + max (r.canvas.measurer.textHeight text r.columnWidth font) 0 := by
  obtain ⟨i, hi, hy⟩ := mem_placedLines h
  have hLe := line_part_le hi hPart hOne (r.canvas.measurer.lineHeight font)
  rw [textHeight_eq, hy]
  linarith

/-- What is drawn for a rectangle of a line lies above the end of the block. -/
theorem rect_part_le {text : Text} {font : FontSize} {span : Span} {rect : Rect ℚ}
    (h : rect ∈ spanRects r.canvas.measurer font text (r.placedLines text font) span) :
    rect.y + r.canvas.measurer.lineHeight font * underlinePart ≤
        r.top + max (r.canvas.measurer.textHeight text r.columnWidth font) 0 ∧
      rect.bottom ≤ r.top + max (r.canvas.measurer.textHeight text r.columnWidth font) 0 := by
  obtain ⟨p, hMem, hy, hHeight⟩ := mem_spanRects h
  have hPart : (underlinePart : ℚ) = 17 / 20 := rfl
  refine ⟨?_, ?_⟩
  · rw [hy, hPart]
    exact placedLine_part_le hMem (by norm_num) (by norm_num)
  · have hWhole := placedLine_part_le hMem zero_le_one le_rfl
    rw [mul_one] at hWhole
    rw [Rect.bottom, hy, hHeight]
    exact hWhole

/-- A block stays above the place where its height, as it is measured, brings the cursor. -/
theorem allAbove_blockOps (r : Renderer ℚ) (block : DecoratedText) (style : TextStyle) :
    DrawOp.AllAbove r.canvas.measurer
      (r.top + max (r.canvas.measurer.textHeight block.text r.columnWidth style.font) 0)
      (r.blockOps block style) := by
  refine DrawOp.allAbove_append.2 ⟨?_, ?_⟩
  · intro op hMem
    obtain ⟨p, hPlaced, hRun⟩ := List.mem_flatMap.1 hMem
    obtain ⟨run, _, rfl⟩ := List.mem_map.1 hRun
    have hWhole := placedLine_part_le hPlaced zero_le_one le_rfl
    rwa [mul_one] at hWhole
  · intro op hMem
    obtain ⟨d, hPlaced, hOp⟩ := List.mem_flatMap.1 hMem
    obtain ⟨decoration, _, rfl⟩ := List.mem_map.1 hPlaced
    unfold decorationOps at hOp
    cases hKind : decoration.kind with
    | underline =>
        rw [hKind] at hOp
        obtain ⟨rect, hRect, rfl⟩ := List.mem_map.1 hOp
        exact max_le (rect_part_le hRect).1 (rect_part_le hRect).1
    | link url =>
        rw [hKind] at hOp
        obtain ⟨rect, hRect, hOp⟩ := List.mem_flatMap.1 hOp
        rcases List.mem_cons.1 hOp with rfl | hOp
        · exact (rect_part_le hRect).2
        · split at hOp
          · obtain rfl := List.mem_singleton.1 hOp
            exact max_le (rect_part_le hRect).1 (rect_part_le hRect).1
          · cases hOp

/-- A title stays above the end of its text; the rule below it is another matter. -/
theorem allAbove_titleOps (r : Renderer ℚ) (text : Text) :
    DrawOp.AllAbove r.canvas.measurer
      (r.top + max (r.canvas.measurer.textHeight text r.columnWidth .small) 0)
      (r.titleOps text) := by
  have hBlock := allAbove_blockOps r (DecoratedText.plain text) { font := .small, bold := true }
  refine DrawOp.allAbove_append.2 ⟨hBlock, ?_⟩
  intro op hMem
  obtain rfl := List.mem_singleton.1 hMem
  simp only [titleRuleOp, DrawOp.bottom, max_self, le_refl]

theorem bottom_textureOp (r : Renderer ℚ) (texture : Texture) (height : ℚ) (source : Rect ℚ)
    (measurer : Measurer ℚ) :
    (r.textureOp texture height source).bottom measurer = r.top + height := rfl

theorem bottom_placeholderOp (r : Renderer ℚ) (width height : ℚ) (message : Text)
    (measurer : Measurer ℚ) :
    (r.placeholderOp width height message).bottom measurer = r.top + height := rfl

end Renderer

end Changelog
