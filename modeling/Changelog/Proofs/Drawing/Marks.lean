import Changelog.Proofs.Drawing.LineRuns

/-! The texts and the links that drawing leaves. A step tells which texts are drawn and which rectangles
become links; a click is used up by the first of these that contains it. -/

namespace Changelog

variable {α : Type}

namespace DrawOp

def isText : DrawOp α → Bool
  | .text .. => true
  | _ => false

end DrawOp

/-- The texts drawn so far. -/
def Canvas.texts (c : Canvas α) : List (DrawOp α) :=
  c.ops.filter DrawOp.isText

namespace Renderer

/-- The regions of a decoration that is placed. -/
def PlacedDecoration.regions (d : PlacedDecoration α) : List (LinkRegion α) :=
  match d.decoration.kind with
  | .underline => []
  | .link url => d.rects.map (⟨·, url⟩)

variable [Scalar α]

/-- From `r` to `r'` the texts are drawn and the regions become links. -/
structure Marks (r r' : Renderer α) (texts : List (DrawOp α)) (regions : List (LinkRegion α)) :
    Prop where
  texts_eq : r'.canvas.texts = r.canvas.texts ++ texts
  regions_eq : r'.links.regions = r.links.regions ++ regions
  /-- A click stays if it is in none of the regions. -/
  click_eq : r'.canvas.click = r.canvas.click.filter fun p => !regions.any (·.rect.contains p)
  /-- It opens the first region that it is in. -/
  opened_eq : r'.canvas.opened = r.canvas.opened ++
    ((r.canvas.click.bind fun p => regions.find? (·.rect.contains p)).map LinkRegion.url).toList

variable {r r₁ r₂ : Renderer α} {texts texts₁ texts₂ : List (DrawOp α)}
  {regions regions₁ regions₂ : List (LinkRegion α)}

theorem Marks.refl (r : Renderer α) : r.Marks r [] [] := by
  refine ⟨(List.append_nil _).symm, (List.append_nil _).symm, ?_, ?_⟩
  · cases r.canvas.click <;> simp [Option.filter_some]
  · cases r.canvas.click <;> simp

/-- Steps leave their marks one after the other. A click that the first step uses up is no longer there for
the second. -/
theorem Marks.trans (h : r.Marks r₁ texts₁ regions₁) (h' : r₁.Marks r₂ texts₂ regions₂) :
    r.Marks r₂ (texts₁ ++ texts₂) (regions₁ ++ regions₂) := by
  refine ⟨?_, ?_, ?_, ?_⟩
  · rw [h'.texts_eq, h.texts_eq, List.append_assoc]
  · rw [h'.regions_eq, h.regions_eq, List.append_assoc]
  · rw [h'.click_eq, h.click_eq]
    cases r.canvas.click with
    | none => rfl
    | some p =>
        by_cases hIn : regions₁.any (·.rect.contains p) = true <;> simp [Option.filter_some, hIn]
  · rw [h'.opened_eq, h.opened_eq, h.click_eq, List.append_assoc]
    cases r.canvas.click with
    | none => rfl
    | some p =>
        cases hFirst : regions₁.find? (·.rect.contains p) with
        | none =>
            have hNone : regions₁.any (·.rect.contains p) = false := by
              simpa using hFirst
            simp [hFirst, hNone, Option.filter_some]
        | some region =>
            have hIn : region.rect.contains p = true := by simpa using List.find?_some hFirst
            have hAny : regions₁.any (·.rect.contains p) = true :=
              List.any_eq_true.2 ⟨region, List.mem_of_find?_eq_some hFirst, hIn⟩
            simp [hFirst, hAny, Option.filter_some]

/-- A step that leaves the canvas and the links alone. -/
theorem Marks.of_eq (hCanvas : r₁.canvas = r.canvas) (hLinks : r₁.links = r.links) :
    r.Marks r₁ [] [] := by
  have h := Marks.refl r
  exact ⟨by rw [hCanvas, List.append_nil], by rw [hLinks, List.append_nil],
    by rw [hCanvas]; exact h.click_eq, by rw [hCanvas]; exact h.opened_eq⟩

theorem marks_skip (r : Renderer α) (height : α) : r.Marks (r.skip height) [] [] :=
  .of_eq rfl rfl

/-- Drawing leaves a text only if it draws one, and no link. -/
theorem marks_draw (r : Renderer α) (op : DrawOp α) :
    r.Marks (r.draw op) ([op].filter DrawOp.isText) [] := by
  have h := Marks.refl r
  refine ⟨?_, h.regions_eq, h.click_eq, h.opened_eq⟩
  exact List.filter_append ..

/-- A link takes a click inside its rectangle, and opens its address then. -/
theorem marks_linkRect (r : Renderer α) (rect : Rect α) (url : Text) :
    r.Marks (r.linkRect rect url) [] [⟨rect, url⟩] := by
  unfold linkRect Canvas.openIfClicked
  refine ⟨?_, rfl, ?_, ?_⟩
  · split <;> exact (List.append_nil _).symm
  · cases hClick : r.canvas.click with
    | none => simp [hClick]
    | some p => by_cases hIn : rect.contains p = true <;> simp [hIn, hClick, Option.filter_some]
  · cases hClick : r.canvas.click with
    | none => simp
    | some p => by_cases hIn : rect.contains p = true <;> simp [hIn]

/-- Steps of one kind leave what each of them leaves, in their order. -/
theorem marks_foldl {β : Type} (place : Renderer α → β → Renderer α) (drawn : β → List (DrawOp α))
    (regions : β → List (LinkRegion α))
    (hPlace : ∀ (r : Renderer α) (b : β), r.Marks (place r b) (drawn b) (regions b))
    (r : Renderer α) (items : List β) :
    r.Marks (items.foldl place r) (items.flatMap drawn) (items.flatMap regions) := by
  induction items generalizing r with
  | nil => exact .refl r
  | cons item rest ih =>
      rw [List.flatMap_cons, List.flatMap_cons]
      exact (hPlace r item).trans (ih (place r item))

theorem marks_drawAll (r : Renderer α) (ops : List (DrawOp α)) :
    r.Marks (r.drawAll ops) (ops.filter DrawOp.isText) [] := by
  induction ops generalizing r with
  | nil => exact .refl r
  | cons op rest ih =>
      have h := (marks_draw r op).trans (ih (r.draw op))
      rw [← List.filter_append] at h
      exact h

/-- The part of a placed line that a span takes, as a rectangle. -/
def partRect (measurer : Measurer α) (font : FontSize) (text : Text) (span : Span)
    (p : PlacedLine α) : Rect α :=
  let part := onLine span p.line.span
  { x := p.position.x + measurer.textWidth (Text.slice p.line.span.start part.start text) font
    y := p.position.y
    width := measurer.textWidth (Text.slice part.start part.stop text) font
    height := measurer.lineHeight font }

/-- A span has a rectangle for each line that it has a byte on, and no other. -/
theorem spanRects_eq (measurer : Measurer α) (font : FontSize) (text : Text)
    (placed : List (PlacedLine α)) (span : Span) :
    spanRects measurer font text placed span =
      (placed.filter fun p => span.Meets p.line.span).map (partRect measurer font text span) := by
  rw [← List.filterMap_eq_map, List.filterMap_filter]
  refine congrArg (List.filterMap · placed) (funext fun p => ?_)
  by_cases hMeets : span.Meets p.line.span
  · exact (if_pos (meets_iff.1 hMeets)).trans (if_pos (decide_eq_true hMeets)).symm
  · exact (if_neg (mt meets_iff.2 hMeets)).trans (if_neg (by simpa using hMeets)).symm

/-- The regions of a link: one on each line that it has a byte on. -/
def linkRegions (r : Renderer α) (block : DecoratedText) (font : FontSize) (d : Decoration) :
    List (LinkRegion α) :=
  match d.kind with
  | .underline => []
  | .link url =>
    ((r.placedLines block.text font).filter fun p => d.span.Meets p.line.span).map fun p =>
      ⟨partRect r.canvas.measurer font block.text d.span p, url⟩

/-- What else is drawn for a link, a tooltip and a rule, leaves neither a text nor a region. -/
theorem marks_placeLinkRect (font : FontSize) (hovered : Bool) (url : Text) (r : Renderer α)
    (rect : Rect α) :
    r.Marks (placeLinkRect font hovered url r rect) [] [⟨rect, url⟩] := by
  have hTip := marks_draw r (.tooltip rect url)
  cases hovered with
  | false => exact hTip.trans (marks_linkRect _ rect url)
  | true => exact (hTip.trans (marks_draw _ _)).trans (marks_linkRect _ rect url)

/-- A decoration leaves the regions of its link. An underline leaves nothing, since a rule is no text. -/
theorem marks_placeDecoration (style : TextStyle) (r : Renderer α) (d : PlacedDecoration α) :
    r.Marks (placeDecoration style r d) [] d.regions := by
  unfold placeDecoration PlacedDecoration.regions
  cases d.decoration.kind with
  | underline =>
      have hRules := marks_drawAll r (d.rects.map fun rect =>
        ruleOp rect (r.canvas.measurer.lineHeight style.font) underlinePart style.color)
      have hNone : (d.rects.map fun rect => ruleOp rect (r.canvas.measurer.lineHeight style.font)
          underlinePart style.color).filter DrawOp.isText = [] := by
        refine List.filter_eq_nil_iff.2 fun op hOp => ?_
        obtain ⟨rect, _, rfl⟩ := List.mem_map.1 hOp
        exact Bool.false_ne_true
      rw [hNone] at hRules
      exact hRules
  | link url =>
      have hRects := marks_foldl _ _ _ (marks_placeLinkRect style.font d.hovered url) r d.rects
      have hNone : d.rects.flatMap (fun _ => ([] : List (DrawOp α))) = [] :=
        List.flatMap_eq_nil_iff.2 fun _ _ => rfl
      have hEach : d.rects.flatMap (fun rect => [(⟨rect, url⟩ : LinkRegion α)]) =
          d.rects.map (⟨·, url⟩) := List.map_eq_flatMap.symm
      rw [hNone, hEach] at hRects
      exact hRects

theorem isText_of_mem_lineOps {r : Renderer α} {block : DecoratedText} {style : TextStyle}
    {decorations : List (PlacedDecoration α)} {p : PlacedLine α} {op : DrawOp α}
    (h : op ∈ r.lineOps block style decorations p) : op.isText = true := by
  obtain ⟨run, _, rfl⟩ := List.mem_map.1 h
  rfl

/-- A block leaves the texts of its lines, and the regions of its links from left to right. -/
theorem marks_placeBlock (r : Renderer α) (block : DecoratedText) (style : TextStyle) :
    r.Marks (r.placeBlock block style).1
      ((r.placedLines block.text style.font).flatMap (r.lineOps block style
        (r.placedDecorations block style.font (r.placedLines block.text style.font))))
      (block.decorations.flatMap (r.linkRegions block style.font)) := by
  have hLines := marks_drawAll r
    ((r.placedLines block.text style.font).flatMap (r.lineOps block style
      (r.placedDecorations block style.font (r.placedLines block.text style.font))))
  rw [List.filter_eq_self.2 fun op hOp => ?isText] at hLines
  case isText =>
    obtain ⟨p, _, hOp⟩ := List.mem_flatMap.1 hOp
    exact isText_of_mem_lineOps hOp
  have hDecorations := hLines.trans (marks_foldl _ _ _ (marks_placeDecoration style) _
    (r.placedDecorations block style.font (r.placedLines block.text style.font)))
  have hAll := hDecorations.trans (marks_skip _
    (Scalar.ofNat (r.placedLines block.text style.font).length *
      r.canvas.measurer.lineHeight style.font))
  have hNone : (r.placedDecorations block style.font (r.placedLines block.text style.font)).flatMap
      (fun _ => ([] : List (DrawOp α))) = [] := List.flatMap_eq_nil_iff.2 fun _ _ => rfl
  have hRegions : (r.placedDecorations block style.font
      (r.placedLines block.text style.font)).flatMap PlacedDecoration.regions =
        block.decorations.flatMap (r.linkRegions block style.font) := by
    rw [placedDecorations, List.flatMap_map]
    refine congrArg (List.flatMap · block.decorations) (funext fun d => ?_)
    unfold PlacedDecoration.regions linkRegions
    cases d.kind with
    | underline => rfl
    | link url => exact (congrArg (List.map _) (spanRects_eq ..)).trans (List.map_map ..)
  rw [hNone, hRegions] at hAll
  simp only [List.append_nil, List.nil_append] at hAll
  exact hAll

end Renderer

end Changelog
