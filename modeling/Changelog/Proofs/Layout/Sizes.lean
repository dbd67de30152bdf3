import Changelog.Layout.Document

/-! What a layout depends on. Of the images it reads only the sizes that are known and the pictures of
the animations, so between images that agree in these the heights are the same. -/

namespace Changelog

/-- Images of the same sizes. -/
structure ImageCache.SameSizes (c c' : ImageCache) : Prop where
  naturalSize? : ∀ name, c'.naturalSize? name = c.naturalSize? name
  animations : c'.animations = c.animations

namespace ImageCache.SameSizes

variable {c c' c'' : ImageCache}

theorem refl (c : ImageCache) : c.SameSizes c :=
  ⟨fun _ => rfl, rfl⟩

theorem trans (h : c.SameSizes c') (h' : c'.SameSizes c'') : c.SameSizes c'' :=
  ⟨fun name => (h'.naturalSize? name).trans (h.naturalSize? name),
    h'.animations.trans h.animations⟩

/-- The sizes of downloaded images are those of their textures. -/
theorem onDownloads {act : Batches → Batches}
    (h : ∀ name, (act c.downloads).current.texture? name = c.downloads.current.texture? name) :
    c.SameSizes (c.onDownloads act) where
  naturalSize? name := by
    unfold ImageCache.naturalSize? remote
    simp only [ImageCache.onDownloads, h name]
  animations := rfl

end ImageCache.SameSizes

variable {α : Type} [Scalar α] {env : LayoutEnv α} {images : ImageCache}

namespace Container

/-- The proportions of an image follow from its natural size. -/
theorem aspect?_image_congr (hNatural : ∀ name, images.naturalSize? name = env.images.naturalSize? name)
    (name : Text) (attributes : Attributes) :
    aspect? .image { env with images } name attributes = aspect? .image env name attributes := by
  unfold aspect?
  dsimp only
  rw [hNatural name]

theorem aspect?_gif_congr (hAnimations : images.animations = env.images.animations) (name : Text)
    (attributes : Attributes) :
    aspect? .gif { env with images } name attributes = aspect? .gif env name attributes := by
  unfold aspect?
  dsimp only
  rw [hAnimations]

/-- The images only come in by the proportions of what a tag shows. -/
theorem occupiedHeight_congr {kind : TagKind}
    (hAspect : ∀ name attributes,
      aspect? kind { env with images } name attributes = aspect? kind env name attributes)
    (body : Text) : occupiedHeight kind { env with images } body = occupiedHeight kind env body := by
  have hSize (name : Text) (attributes : Attributes) :
      ofAttributes kind { env with images } name attributes =
        ofAttributes kind env name attributes := by
    unfold ofAttributes
    rw [hAspect]
    rfl
  unfold occupiedHeight resolveOrReserve resolve
  simp only [hSize]

end Container

namespace LayoutEnv

/-- Only the tag of an image is measured by natural sizes. -/
theorem segmentHeight?_congr (scope : TextScope) {segment : Segment}
    (hAnimations : images.animations = env.images.animations)
    (hNatural : segment.tag? = some .image →
      ∀ name, images.naturalSize? name = env.images.naturalSize? name) :
    segmentHeight? { env with images } scope segment = env.segmentHeight? scope segment := by
  unfold segmentHeight?
  cases hTag : segment.tag? with
  | none => rfl
  | some kind =>
      cases kind with
      | font | anchor | title => rfl
      | image =>
          simp only [tagHeight?, Container.occupiedHeight_congr
            (Container.aspect?_image_congr (hNatural hTag))]
      | gif =>
          simp only [tagHeight?, Container.occupiedHeight_congr
            (Container.aspect?_gif_congr hAnimations)]

end LayoutEnv

namespace DocumentLayout

/-- All segments together are measured alike, if all sizes are the same. -/
theorem measure?_congr (hSizes : env.images.SameSizes images) (scope : TextScope)
    (heights : HeightIndex) (segments : List Segment) :
    measure? { env with images } scope heights segments = measure? env scope heights segments := by
  induction segments generalizing scope heights with
  | nil => rfl
  | cons segment rest ih =>
      unfold measure?
      rw [LayoutEnv.segmentHeight?_congr scope hSizes.animations fun _ => hSizes.naturalSize?]
      simp only [ih]

/-- Between images of the same sizes and of one generation the layout is the same. -/
theorem compute?_congr (hSizes : env.images.SameSizes images)
    (hGeneration : images.generation = env.images.generation) (segments : List Segment) :
    compute? { env with images } segments = compute? env segments := by
  unfold compute?
  rw [measure?_congr hSizes, hGeneration]
  rfl

end DocumentLayout

end Changelog
