import Changelog.Layout.SegmentDrawing

/-! What measuring and drawing report. A segment gives rise to the same notices wherever and whenever it is
measured or drawn: they depend on what is written in it, and in a drawing also on which images there are, and
on nothing else that a renderer knows. -/

namespace Changelog

variable {α : Type}

namespace Container

/-- What reading a body reports. -/
def bodyNotices (kind : TagKind) (body : Text) : List Notice :=
  match split? body with
  | none => [(StructuralError.missingSeparator body).notice kind]
  | some (bracket, _) =>
    if Text.isAllBlank bracket then [] else ((grammar kind).parse bracket).notices

variable [Scalar α] {kind : TagKind} {env : LayoutEnv α} {body bracket name : Text}

/-- The attributes in front of the name of a body. -/
def bodyAttributes (kind : TagKind) (bracket : Text) : Attributes :=
  if Text.isAllBlank bracket then {} else ((grammar kind).parse bracket).value

/-- A body without a separator keeps the standard height, and is reported. -/
theorem resolveOrReserve_of_none (h : split? body = none) :
    resolveOrReserve kind env body =
      ⟨.error env.settings.previewImageHeight, bodyNotices kind body⟩ := by
  unfold resolveOrReserve resolve bodyNotices
  rw [h]
  rfl

/-- Any other body can be read, however wrong its attributes are, and the column has no influence on its
attributes. -/
theorem resolveOrReserve_of_some (kind : TagKind) (env : LayoutEnv α)
    (h : split? body = some (bracket, name)) :
    ∃ container, container.name = name ∧ container.attributes = bodyAttributes kind bracket ∧
      resolveOrReserve kind env body = ⟨.ok container, bodyNotices kind body⟩ := by
  unfold resolveOrReserve resolve bodyNotices bodyAttributes
  rw [h]
  dsimp only
  split
  · exact ⟨ofAttributes kind env name {}, rfl, rfl, rfl⟩
  · refine ⟨ofAttributes kind env name ((grammar kind).parse bracket).value, rfl, rfl, ?_⟩
    simp only [bind, pure, List.append_nil]

/-- Measuring a tag reports what is wrong in its body and nothing else. -/
theorem notices_occupiedHeight : (occupiedHeight kind env body).notices = bodyNotices kind body := by
  have hResolve : (resolveOrReserve kind env body).notices = bodyNotices kind body := by
    cases hSplit : split? body with
    | none => rw [resolveOrReserve_of_none hSplit]
    | some parts =>
        obtain ⟨container, -, -, hResolve⟩ := resolveOrReserve_of_some kind env hSplit
        rw [hResolve]
  rw [← hResolve]
  unfold occupiedHeight
  simp only [bind]
  cases (resolveOrReserve kind env body).value with
  | ok | error => exact List.append_nil _

end Container

namespace ImageCache

/-- What drawing the image of a name reports. -/
def missingImage (images : ImageCache) (name : Text) : List Notice :=
  match images.lookup name with
  | .missing =>
    [{ severity := .error
       key := ['t', 'e', 'x', 't', 'u', 'r', 'e', ':'] ++ name
       message := (ResourceError.missingImage name).message }]
  | _ => []

/-- What drawing the animation of a name reports. -/
def missingFrames (images : ImageCache) (name : Text) : List Notice :=
  match images.animations.get? name with
  | none =>
    [{ severity := .error
       key := ['f', 'r', 'a', 'm', 'e', 's', ':'] ++ name
       message := (ResourceError.missingFrames name).message }]
  | some _ => []

/-- What a body shows that is not there. -/
def missing (images : ImageCache) (kind : TagKind) (body : Text) : List Notice :=
  match kind, Container.split? body with
  | .image, some (_, name) => images.missingImage name
  | .gif, some (_, name) => images.missingFrames name
  | _, _ => []

variable {images : ImageCache} {kind : TagKind} {body bracket name : Text}

theorem missing_of_none (h : Container.split? body = none) : images.missing kind body = [] := by
  unfold missing
  rw [h]
  cases kind <;> rfl

theorem missing_image (h : Container.split? body = some (bracket, name)) :
    images.missing .image body = images.missingImage name := by
  unfold missing
  rw [h]

theorem missing_gif (h : Container.split? body = some (bracket, name)) :
    images.missing .gif body = images.missingFrames name := by
  unfold missing
  rw [h]

end ImageCache

namespace Segment

/-- What is wrong with a segment by itself. -/
def faults (segment : Segment) : List Notice :=
  match segment.tag? with
  | some .font => (TextScope.instruct {} .font segment.text).notices
  | some .anchor => (TextScope.instruct {} .anchor segment.text).notices
  | some .title => []
  | some .image => Container.bodyNotices .image segment.text
  | some .gif => Container.bodyNotices .gif segment.text
  | none => (DecoratedText.ofSegment segment).notices

/-- What a segment shows that is not there. -/
def missing (images : ImageCache) (segment : Segment) : List Notice :=
  match segment.tag? with
  | some kind => images.missing kind segment.text
  | none => []

/-- What drawing a segment reports. -/
def notices (images : ImageCache) (segment : Segment) : List Notice :=
  segment.faults ++ segment.missing images

/-- A box stands in for the image until it is downloaded. -/
def NeedsBox (images : ImageCache) (segment : Segment) : Prop :=
  segment.tag? = some .image ∧ ∃ bracket name status,
    Container.split? segment.text = some (bracket, name) ∧ images.lookup name = .remote status

/-- The picture that the segment shows is a sprite sheet of so many columns and rows. -/
def ShowsSheet (images : ImageCache) (segment : Segment) (columns rows : Nat) : Prop :=
  segment.tag? = some .gif ∧ ∃ bracket name texture,
    Container.split? segment.text = some (bracket, name) ∧
    images.animations.get? name = some ⟨[texture]⟩ ∧
    Container.grid? (Container.bodyAttributes .gif bracket) = some (columns, rows)

/-- A 32-bit word counts the cells of the sprite sheet if there is one. -/
def CellsFit (images : ImageCache) (segment : Segment) : Prop :=
  ∀ columns rows, segment.ShowsSheet images columns rows → columns * rows < UInt32.size

/-- There is room for the box if one is needed, and the cells of a sprite sheet can be counted. -/
structure Fits [Scalar α] (images : ImageCache) (width : α) (segment : Segment) : Prop where
  room : segment.NeedsBox images → Scalar.zero ≤ width
  cells : segment.CellsFit images

theorem cellsFit_of_tag?_ne {images : ImageCache} {segment : Segment}
    (h : segment.tag? ≠ some .gif) : segment.CellsFit images :=
  fun _ _ hSheet => absurd hSheet.1 h

theorem room_of_tag?_ne [Scalar α] {images : ImageCache} {width : α} {segment : Segment}
    (h : segment.tag? ≠ some .image) : segment.NeedsBox images → Scalar.zero ≤ width :=
  fun hBox => absurd hBox.1 h

end Segment

/-- Whether an instruction can be read does not depend on the style before it. -/
theorem TextScope.notices_instruct (scope : TextScope) (kind : TagKind) (body : Text) :
    (scope.instruct kind body).notices = (TextScope.instruct {} kind body).notices := by
  cases kind with
  | font => unfold TextScope.instruct; cases FontSize.parse? body <;> rfl
  | anchor => unfold TextScope.instruct; cases Anchor.parse? body <;> rfl
  | title | image | gif => rfl

/-- Measuring reports what is wrong with a segment by itself, in any column and any style. -/
theorem LayoutEnv.notices_of_segmentHeight? [Scalar α] {env : LayoutEnv α} {scope : TextScope}
    {segment : Segment} {measured : Noted (UInt32 × TextScope)}
    (h : env.segmentHeight? scope segment = some measured) : measured.notices = segment.faults := by
  unfold segmentHeight? at h
  unfold Segment.faults
  cases hTag : segment.tag? with
  | none =>
      rw [hTag] at h
      obtain rfl := Option.some.inj h
      exact List.append_nil _
  | some kind =>
      rw [hTag] at h
      cases kind with
      | font | anchor =>
          obtain rfl := Option.some.inj h
          exact (List.append_nil _).trans (scope.notices_instruct ..)
      | title =>
          obtain ⟨_, _, rfl⟩ := Option.map_eq_some_iff.1 h
          rfl
      | image | gif =>
          obtain rfl := Option.some.inj h
          exact (List.append_nil _).trans Container.notices_occupiedHeight

namespace Renderer

/-- From `r` to `r'` these notices are added; the images and the width of the column stay. -/
structure Reports (r r' : Renderer α) (notices : List Notice) : Prop where
  images_eq : r'.images = r.images
  width_eq : r'.columnWidth = r.columnWidth
  notices_eq : r'.notices = r.notices ++ notices

variable {r r₁ r₂ : Renderer α} {notices notices₁ notices₂ : List Notice}

theorem Reports.refl (r : Renderer α) : r.Reports r [] :=
  ⟨rfl, rfl, (List.append_nil _).symm⟩

/-- Steps report one after the other. The images stay, so the second reports what it would have reported
first. -/
theorem Reports.trans (h : r.Reports r₁ notices₁) (h' : r₁.Reports r₂ notices₂) :
    r.Reports r₂ (notices₁ ++ notices₂) := by
  refine ⟨h'.images_eq.trans h.images_eq, h'.width_eq.trans h.width_eq, ?_⟩
  rw [h'.notices_eq, h.notices_eq, List.append_assoc]

/-- A step before one that reports nothing. -/
theorem Reports.then (h : r.Reports r₁ notices) (h' : r₁.Reports r₂ []) : r.Reports r₂ notices :=
  List.append_nil notices ▸ h.trans h'

theorem reports_draw (r : Renderer α) (op : DrawOp α) : r.Reports (r.draw op) [] :=
  ⟨rfl, rfl, (List.append_nil _).symm⟩

/-- A report adds its notices. -/
theorem reports_note {β : Type} (r : Renderer α) (noted : Noted β) :
    r.Reports (r.note noted).1 noted.notices :=
  ⟨rfl, rfl, rfl⟩

/-- Steps that report nothing report nothing together. -/
theorem reports_foldl {β : Type} (place : Renderer α → β → Renderer α)
    (hPlace : ∀ (r : Renderer α) (b : β), r.Reports (place r b) []) (r : Renderer α)
    (items : List β) : r.Reports (items.foldl place r) [] := by
  induction items generalizing r with
  | nil => exact .refl r
  | cons item rest ih => exact (hPlace r item).then (ih (place r item))

variable [Scalar α]

theorem reports_skip (r : Renderer α) (height : α) : r.Reports (r.skip height) [] :=
  ⟨rfl, rfl, (List.append_nil _).symm⟩

theorem reports_linkRect (r : Renderer α) (rect : Rect α) (url : Text) :
    r.Reports (r.linkRect rect url) [] :=
  ⟨rfl, rfl, (List.append_nil _).symm⟩

theorem reports_placeLinkRect (font : FontSize) (hovered : Bool) (url : Text) (r : Renderer α)
    (rect : Rect α) : r.Reports (placeLinkRect font hovered url r rect) [] := by
  cases hovered with
  | false => exact (reports_draw r _).then (reports_linkRect _ rect url)
  | true => exact ((reports_draw r _).then (reports_draw _ _)).then (reports_linkRect _ rect url)

theorem reports_placeDecoration (style : TextStyle) (r : Renderer α) (d : PlacedDecoration α) :
    r.Reports (placeDecoration style r d) [] := by
  unfold placeDecoration
  split
  · exact reports_foldl draw reports_draw r _
  · exact reports_foldl _ (reports_placeLinkRect style.font d.hovered _) r d.rects

/-- Whatever a block draws, it reports nothing. -/
theorem reports_placeBlock (r : Renderer α) (block : DecoratedText) (style : TextStyle) :
    r.Reports (r.placeBlock block style).1 [] := by
  have hLines := reports_foldl draw reports_draw r
    ((r.placedLines block.text style.font).flatMap (r.lineOps block style
      (r.placedDecorations block style.font (r.placedLines block.text style.font))))
  have hDecorations := hLines.then (reports_foldl _ (reports_placeDecoration style) _
    (r.placedDecorations block style.font (r.placedLines block.text style.font)))
  exact hDecorations.then (reports_skip _ _)

theorem reports_placeTitle (r : Renderer α) (text : Text) :
    r.Reports (r.placeTitle text).1 [] :=
  ((reports_placeBlock r (DecoratedText.plain text) _).then (reports_draw _ _)).then
    (reports_skip _ _)

/-- Annotations are reported while they are resolved, before anything is drawn. -/
theorem reports_placeAnnotated (r : Renderer α) (segment : Segment) :
    r.Reports (r.placeAnnotated segment).1 (DecoratedText.ofSegment segment).notices :=
  (reports_note r (DecoratedText.ofSegment segment)).then (reports_placeBlock _ _ _)

theorem reports_placeTexture (r : Renderer α) (texture : Texture) (height : α) (source : Rect α) :
    r.Reports (r.placeTexture texture height source).1 [] :=
  (reports_draw r _).then (reports_skip _ _)

/-- What is missing is reported under its name. -/
theorem reports_skipMissing (r : Renderer α) (height : α) (space : Text) (error : ResourceError)
    (name : Text) :
    r.Reports (r.skipMissing height space error name)
      [{ severity := .error, key := space ++ name, message := error.message }] :=
  ⟨rfl, rfl, rfl⟩

/-- An image is reported only if it is missing; one that is being downloaded is not. -/
theorem reports_placeImage? {container : Container} (h : r.placeImage? container = some r₁) :
    r.Reports r₁ (r.images.missingImage container.name) := by
  unfold placeImage? at h
  unfold ImageCache.missingImage
  cases hLookup : r.images.lookup container.name with
  | ready texture =>
      rw [hLookup] at h
      obtain rfl := Option.some.inj h
      exact reports_placeTexture r _ _ _
  | remote status =>
      rw [hLookup] at h
      obtain ⟨⟨r', height⟩, hBox, rfl⟩ := Option.map_eq_some_iff.1 h
      obtain ⟨-, hBox⟩ := Option.ite_none_right_eq_some.1 hBox
      cases hBox
      exact (reports_draw r _).then (reports_skip _ _)
  | missing =>
      rw [hLookup] at h
      obtain rfl := Option.some.inj h
      exact reports_skipMissing r _ _ _ _

/-- An image is drawn unless it needs a box and the column has a negative width. -/
theorem isSome_placeImage?_iff {container : Container} :
    (r.placeImage? container).isSome = true ↔
      ∀ status, r.images.lookup container.name = .remote status → Scalar.zero ≤ r.columnWidth := by
  unfold placeImage? placePlaceholder?
  cases r.images.lookup container.name with
  | ready texture => simp
  | missing => simp
  | remote status => by_cases hWidth : Scalar.zero ≤ r.columnWidth <;> simp [hWidth]

theorem reports_placeFrames? {container : Container} {frames : FrameSet}
    (h : r.placeFrames? container frames = some r₁) : r.Reports r₁ [] := by
  unfold placeFrames? at h
  dsimp only at h
  split at h
  · obtain ⟨count, _, rfl⟩ := Option.map_eq_some_iff.1 h
    exact reports_placeTexture r _ _ _
  · split at h
    · obtain rfl := Option.some.inj h
      exact reports_placeTexture r _ _ _
    · obtain rfl := Option.some.inj h
      exact reports_skip r _

/-- An animation is reported only if it is missing. -/
theorem reports_placeAnimation? {container : Container} (h : r.placeAnimation? container = some r₁) :
    r.Reports r₁ (r.images.missingFrames container.name) := by
  unfold placeAnimation? at h
  unfold ImageCache.missingFrames
  cases hFrames : r.images.animations.get? container.name with
  | some frames =>
      rw [hFrames] at h
      exact reports_placeFrames? h
  | none =>
      rw [hFrames] at h
      obtain rfl := Option.some.inj h
      exact reports_skipMissing r _ _ _ _

/-- A sprite sheet is a single texture with a size that can be read. -/
theorem sheet?_eq_some_iff {container : Container} {frames : FrameSet} {grid : Nat × Nat} :
    sheet? container frames = some grid ↔
      frames.size = 1 ∧ Container.grid? container.attributes = some grid :=
  Option.ite_none_right_eq_some

/-- Pictures are drawn unless there is one of them, with more cells than can be counted. -/
theorem isSome_placeFrames?_iff {container : Container} {frames : FrameSet} :
    (r.placeFrames? container frames).isSome = true ↔
      ∀ texture columns rows, frames = ⟨[texture]⟩ →
        Container.grid? container.attributes = some (columns, rows) →
        columns * rows < UInt32.size := by
  unfold placeFrames?
  dsimp only
  split
  · rename_i columns rows first hSheet hFirst
    obtain ⟨hOne, hGrid⟩ := sheet?_eq_some_iff.1 hSheet
    rw [Option.isSome_map, cellCount?, isSome_inWord?_iff]
    constructor
    · intro hLt texture columns' rows' _ hGrid'
      cases hGrid.symm.trans hGrid'
      exact hLt
    · intro h
      obtain ⟨texture, hFrames⟩ := List.length_eq_one_iff.1 hOne
      exact h texture columns rows (congrArg FrameSet.mk hFrames) hGrid
  · rename_i hNoSheet
    refine iff_of_true (by split <;> rfl) ?_
    rintro texture columns rows rfl hGrid
    exact absurd rfl (hNoSheet columns rows texture (sheet?_eq_some_iff.2 ⟨rfl, hGrid⟩))

/-- An animation is drawn unless it is a sprite sheet with more cells than a 32-bit word counts. -/
theorem isSome_placeAnimation?_iff {container : Container} :
    (r.placeAnimation? container).isSome = true ↔
      ∀ texture columns rows, r.images.animations.get? container.name = some ⟨[texture]⟩ →
        Container.grid? container.attributes = some (columns, rows) →
        columns * rows < UInt32.size := by
  unfold placeAnimation?
  cases r.images.animations.get? container.name with
  | none => exact ⟨fun _ _ _ _ => nofun, fun _ => rfl⟩
  | some frames =>
      simp only [Option.some.injEq]
      exact isSome_placeFrames?_iff

/-- A body that cannot be read is reported, and the room that is kept for it is left free. -/
theorem reports_reserve (r : Renderer α) (kind : TagKind) {body : Text} (reserved : UInt32)
    (hSplit : Container.split? body = none) :
    r.Reports ((r.note (⟨.error reserved, Container.bodyNotices kind body⟩ :
        Noted (Except UInt32 Container))).1.skip (Scalar.ofNat reserved.toNat))
      (Container.bodyNotices kind body ++ r.images.missing kind body) := by
  rw [ImageCache.missing_of_none hSplit, List.append_nil]
  exact (reports_note r _).then (reports_skip _ _)

/-- First what is wrong in the body is reported, and then the image if it is missing. -/
theorem reports_placeTag?_image {body : Text} (h : r.placeTag? .image body = some r₁) :
    r.Reports r₁ (Container.bodyNotices .image body ++ r.images.missing .image body) := by
  dsimp only [placeTag?] at h
  cases hSplit : Container.split? body with
  | none =>
      rw [Container.resolveOrReserve_of_none hSplit] at h
      obtain rfl := Option.some.inj h
      exact reports_reserve r .image _ hSplit
  | some parts =>
      obtain ⟨container, hName, -, hResolve⟩ :=
        Container.resolveOrReserve_of_some .image r.env hSplit
      rw [hResolve] at h
      rw [ImageCache.missing_image hSplit, ← hName]
      exact (reports_note r _).trans (reports_placeImage? h)

theorem reports_placeTag?_gif {body : Text} (h : r.placeTag? .gif body = some r₁) :
    r.Reports r₁ (Container.bodyNotices .gif body ++ r.images.missing .gif body) := by
  dsimp only [placeTag?] at h
  cases hSplit : Container.split? body with
  | none =>
      rw [Container.resolveOrReserve_of_none hSplit] at h
      obtain rfl := Option.some.inj h
      exact reports_reserve r .gif _ hSplit
  | some parts =>
      obtain ⟨container, hName, -, hResolve⟩ :=
        Container.resolveOrReserve_of_some .gif r.env hSplit
      rw [hResolve] at h
      rw [ImageCache.missing_gif hSplit, ← hName]
      exact (reports_note r _).trans (reports_placeAnimation? h)

/-- What a segment reports can be told from what is written in it and from the images at hand. -/
theorem reports_placeSegment? {segment : Segment} (h : r.placeSegment? segment = some r₁) :
    r.Reports r₁ (segment.notices r.images) := by
  unfold placeSegment? at h
  unfold Segment.notices Segment.faults Segment.missing
  cases hTag : segment.tag? with
  | none =>
      rw [hTag] at h
      obtain rfl := Option.some.inj h
      dsimp only
      rw [List.append_nil]
      exact reports_placeAnnotated r segment
  | some kind =>
      rw [hTag] at h
      cases kind with
      | font | anchor =>
          obtain rfl := Option.some.inj h
          refine ⟨rfl, rfl, ?_⟩
          dsimp only [ImageCache.missing]
          rw [List.append_nil, ← TextScope.notices_instruct r.scope]
      | title =>
          obtain rfl := Option.some.inj h
          exact reports_placeTitle r segment.text
      | image => exact reports_placeTag?_image h
      | gif => exact reports_placeTag?_gif h

theorem isSome_placeTag?_image_iff {body : Text} :
    (r.placeTag? .image body).isSome = true ↔
      ∀ bracket name status, Container.split? body = some (bracket, name) →
        r.images.lookup name = .remote status → Scalar.zero ≤ r.columnWidth := by
  dsimp only [placeTag?]
  cases hSplit : Container.split? body with
  | none =>
      rw [Container.resolveOrReserve_of_none hSplit]
      exact ⟨fun _ _ _ _ => nofun, fun _ => rfl⟩
  | some parts =>
      obtain ⟨container, hName, -, hResolve⟩ :=
        Container.resolveOrReserve_of_some .image r.env hSplit
      rw [hResolve]
      refine isSome_placeImage?_iff.trans ?_
      rw [hName]
      constructor
      · rintro h _ _ status ⟨⟩
        exact h status
      · intro h status
        exact h _ _ status rfl

/-- A tag of an animation is drawn unless its sprite sheet has too many cells, also if its body cannot be
read. -/
theorem isSome_placeTag?_gif_iff {body : Text} :
    (r.placeTag? .gif body).isSome = true ↔
      ∀ bracket name texture columns rows, Container.split? body = some (bracket, name) →
        r.images.animations.get? name = some ⟨[texture]⟩ →
        Container.grid? (Container.bodyAttributes .gif bracket) = some (columns, rows) →
        columns * rows < UInt32.size := by
  dsimp only [placeTag?]
  cases hSplit : Container.split? body with
  | none =>
      rw [Container.resolveOrReserve_of_none hSplit]
      exact ⟨fun _ _ _ _ _ _ => nofun, fun _ => rfl⟩
  | some parts =>
      obtain ⟨container, hName, hAttributes, hResolve⟩ :=
        Container.resolveOrReserve_of_some .gif r.env hSplit
      rw [hResolve]
      refine isSome_placeAnimation?_iff.trans ?_
      rw [hName, hAttributes]
      constructor
      · rintro h _ _ texture columns rows ⟨⟩
        exact h texture columns rows
      · intro h texture columns rows
        exact h _ _ texture columns rows rfl

/-- A segment is drawn unless it needs a box and there is no room for one, or has more cells than can be
counted. -/
theorem isSome_placeSegment?_iff {segment : Segment} :
    (r.placeSegment? segment).isSome = true ↔ segment.Fits r.images r.columnWidth := by
  unfold placeSegment?
  have hNoBox := @Segment.room_of_tag?_ne α _ r.images r.columnWidth segment
  have hNoSheet := @Segment.cellsFit_of_tag?_ne r.images segment
  cases hTag : segment.tag? with
  | none =>
      rw [hTag] at hNoBox hNoSheet
      exact iff_of_true rfl ⟨hNoBox nofun, hNoSheet nofun⟩
  | some kind =>
      rw [hTag] at hNoBox hNoSheet
      cases kind with
      | font | anchor | title => exact iff_of_true rfl ⟨hNoBox nofun, hNoSheet nofun⟩
      | image =>
          refine isSome_placeTag?_image_iff.trans ⟨fun h => ⟨?_, hNoSheet nofun⟩, fun h => ?_⟩
          · rintro ⟨-, bracket, name, status, hSplit, hLookup⟩
            exact h bracket name status hSplit hLookup
          · intro bracket name status hSplit hLookup
            exact h.room ⟨hTag, bracket, name, status, hSplit, hLookup⟩
      | gif =>
          refine isSome_placeTag?_gif_iff.trans ⟨fun h => ⟨hNoBox nofun, ?_⟩, fun h => ?_⟩
          · rintro columns rows ⟨-, bracket, name, texture, hSplit, hFrames, hGrid⟩
            exact h bracket name texture columns rows hSplit hFrames hGrid
          · intro bracket name texture columns rows hSplit hFrames hGrid
            exact h.cells columns rows ⟨hTag, bracket, name, texture, hSplit, hFrames, hGrid⟩

theorem reports_placeSegments? {segments : List Segment}
    (h : r.placeSegments? segments = some r₁) :
    r.Reports r₁ (segments.flatMap (Segment.notices r.images)) := by
  induction segments generalizing r with
  | nil => cases h; exact .refl _
  | cons segment rest ih =>
      obtain ⟨next, hNext, hRest⟩ := Option.bind_eq_some_iff.1 h
      have hFirst := reports_placeSegment? hNext
      have hOthers := ih hRest
      rw [hFirst.images_eq] at hOthers
      exact hFirst.trans hOthers

/-- A pass is drawn to its end just when every segment of it can be drawn. -/
theorem isSome_placeSegments?_iff {segments : List Segment} :
    (r.placeSegments? segments).isSome = true ↔
      ∀ segment ∈ segments, segment.Fits r.images r.columnWidth := by
  induction segments generalizing r with
  | nil => exact ⟨fun _ => nofun, fun _ => rfl⟩
  | cons segment rest ih =>
      rw [List.forall_mem_cons, ← isSome_placeSegment?_iff, placeSegments?]
      cases hNext : r.placeSegment? segment with
      | none => exact ⟨nofun, fun h => nomatch h.1⟩
      | some next =>
          have hFirst := reports_placeSegment? hNext
          rw [Option.bind_some, ih, hFirst.images_eq, hFirst.width_eq]
          exact ⟨fun h => ⟨rfl, h⟩, And.right⟩

end Renderer

end Changelog
