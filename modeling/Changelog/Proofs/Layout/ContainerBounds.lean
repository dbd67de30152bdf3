import Changelog.Layout.Container

/-! The heights of image and animation tags fit in signed 32-bit words: declared ones because only such
integers are read, all others because they are brought into the range. So the room that is kept for a
tag is the height of what it shows. -/

namespace Changelog

/-- An integer value fits in a signed 32-bit word. -/
def AttributeValue.Fits (value : AttributeValue) : Prop :=
  ∀ n, value = .int n → Number.fits32 n = true

/-- Only integers that fit are read. -/
theorem Attribute.fits_of_convert {name text : Text} {type : AttributeType}
    {value : AttributeValue} (h : convert name text type = .ok value) : value.Fits := by
  rintro n rfl
  unfold convert at h
  cases type with
  | int =>
      dsimp only at h
      split at h
      · rename_i m hRead
        obtain rfl : m = n := by simpa using h
        exact (Option.filter_eq_some_iff.1 hRead).2
      · cases h
  | dimensions =>
      dsimp only at h
      split at h <;> cases h

/-- Every integer among the values fits in a signed 32-bit word. -/
def Attributes.Fits (a : Attributes) : Prop :=
  ∀ name value, a.values.get? name = some value → value.Fits

theorem Attributes.fits_empty : ({} : Attributes).Fits := by
  intro name value h
  cases h

/-- A value that fits may be added. -/
theorem Attributes.Fits.insert {a : Attributes} (h : a.Fits) {name : Text}
    {value : AttributeValue} (hValue : value.Fits) : (a.insert name value).Fits := by
  intro other found hGet
  simp only [Attributes.insert, NameMap.get?_insert] at hGet
  split at hGet
  · obtain rfl := Option.some.inj hGet
    exact hValue
  · exact h other found hGet

namespace Attribute

/-- Reading token after token adds only values that fit. -/
theorem fits_foldl {read : List (Except Notice (Text × AttributeValue))} {a : Attributes}
    (h : a.Fits) (hRead : ∀ name value, .ok (name, value) ∈ read → value.Fits) :
    (read.foldl (fun found token =>
      match token with
      | .ok (name, value) => found.insert name value
      | .error _ => found) a).Fits := by
  induction read generalizing a with
  | nil => exact h
  | cons token rest ih =>
      have hRest := fun name value hMem => hRead name value (List.mem_cons_of_mem _ hMem)
      rw [List.foldl_cons]
      cases token with
      | error notice => exact ih h hRest
      | ok found =>
          obtain ⟨name, value⟩ := found
          exact ih (h.insert (hRead name value (List.mem_cons_self ..))) hRest

/-- A token gives a value that fits, if the hook of its grammar does. -/
theorem Grammar.fits_of_readToken {g : Grammar}
    (hHook : ∀ name text value, g.hook name text = some (.ok value) → value.Fits)
    {token name : Text} {value : AttributeValue} (h : g.readToken token = .ok (name, value)) :
    value.Fits := by
  unfold Grammar.readToken at h
  dsimp only at h
  split at h
  · cases h
  · split at h
    · rename_i hValue
      obtain ⟨_, rfl⟩ := by simpa using h
      unfold Grammar.value? at hValue
      split at hValue
      · exact fits_of_convert (Option.some.inj hValue)
      · exact hHook _ _ _ hValue
    · cases h
    · cases h

/-- So all attributes of a bracket fit. -/
theorem Grammar.fits_parse {g : Grammar}
    (hHook : ∀ name text value, g.hook name text = some (.ok value) → value.Fits)
    (bracket : Text) : (g.parse bracket).value.Fits := by
  refine fits_foldl Attributes.fits_empty fun name value hMem => ?_
  obtain ⟨token, _, hToken⟩ := List.mem_map.1 hMem
  exact g.fits_of_readToken hHook hToken

end Attribute

namespace Container

/-- The hooks of the tags read their values as all others are read. -/
theorem fits_of_grammar (kind : TagKind) (name text : Text) (value : AttributeValue)
    (h : (grammar kind).hook name text = some (.ok value)) : value.Fits := by
  cases kind with
  | gif =>
      simp only [grammar, animationHook] at h
      split at h
      · exact Attribute.fits_of_convert (Option.some.inj h)
      · cases h
  | font | anchor | title | image => cases h

theorem saturateSigned32_lt (n : Int) : saturateSigned32 n < 0x80000000 := by
  unfold saturateSigned32
  omega

theorem lt_of_fits {value : AttributeValue} (h : value.Fits) {n : Int} (hn : value = .int n) :
    n < 0x80000000 := by
  have hFits := h n hn
  simp only [Number.fits32, Bool.and_eq_true, decide_eq_true_eq] at hFits
  exact hFits.2

/-- An integer among the attributes, or what stands in for it, stays in its word. -/
theorem intOr_lt {attributes : Attributes} (h : attributes.Fits) {name : Text} {fallback : Int}
    (hFallback : fallback < 0x80000000) : attributes.intOr name fallback < 0x80000000 := by
  unfold Attributes.intOr
  split
  · rename_i hGet
    exact lt_of_fits (h _ _ hGet) rfl
  · exact hFallback

variable {α : Type} [Scalar α]

/-- The width of a tag fits, whether it is declared or that of the column. -/
theorem width_lt {attributes : Attributes} (h : attributes.Fits) (env : LayoutEnv α) :
    attributes.intOr Attribute.widthName env.containerWidth < 0x80000000 :=
  intOr_lt h (saturateSigned32_lt _)

/-- So does its height, whether it is declared or follows from the width and the proportions. -/
theorem height_ofAttributes_lt {attributes : Attributes} (h : attributes.Fits) (kind : TagKind)
    (env : LayoutEnv α) (name : Text) :
    (ofAttributes kind env name attributes).height < 0x80000000 := by
  unfold ofAttributes
  dsimp only
  split
  · rename_i hGet
    exact lt_of_fits (h _ _ hGet) rfl
  · split
    · exact saturateSigned32_lt _
    · exact width_lt h env

/-- The size of a body that was read follows from its attributes, whose integers fit. -/
theorem eq_ofAttributes_of_resolve {kind : TagKind} {env : LayoutEnv α} {body : Text} {c : Container}
    (h : (resolve kind env body).value = .ok c) :
    ∃ name attributes, attributes.Fits ∧ c = ofAttributes kind env name attributes := by
  unfold resolve at h
  split at h
  · cases h
  · rename_i bracket name _
    dsimp only at h
    split at h
    · exact ⟨name, {}, Attributes.fits_empty, (Except.ok.inj h).symm⟩
    · exact ⟨name, _, (grammar kind).fits_parse (fits_of_grammar kind) bracket, (Except.ok.inj h).symm⟩

/-- The height of a body that was read fits in a signed 32-bit word. -/
theorem height_lt_of_resolve {kind : TagKind} {env : LayoutEnv α} {body : Text} {c : Container}
    (h : (resolve kind env body).value = .ok c) : c.height < 0x80000000 := by
  obtain ⟨name, attributes, hFits, rfl⟩ := eq_ofAttributes_of_resolve h
  exact height_ofAttributes_lt hFits kind env name

theorem pixelHeight_lt_of_resolve {kind : TagKind} {env : LayoutEnv α} {body : Text}
    {c : Container} (h : (resolve kind env body).value = .ok c) : c.pixelHeight < UInt32.size := by
  have hLt := height_lt_of_resolve h
  rw [pixelHeight, UInt32.size]
  omega

/-- Room is reserved only for a body that cannot be read; any other one is resolved as it is. -/
theorem resolve_of_resolveOrReserve {kind : TagKind} {env : LayoutEnv α} {body : Text}
    {c : Container} (h : (resolveOrReserve kind env body).value = .ok c) :
    (resolve kind env body).value = .ok c := by
  unfold resolveOrReserve at h
  cases hResolve : (resolve kind env body).value with
  | ok found => simpa [bind, pure, hResolve] using h
  | error e => simp [bind, pure, hResolve] at h

theorem resolveOrReserve_of_resolve {kind : TagKind} {env : LayoutEnv α} {body : Text}
    {c : Container} (h : (resolve kind env body).value = .ok c) :
    (resolveOrReserve kind env body).value = .ok c := by
  simp [resolveOrReserve, bind, pure, h]

/-- No height is cut off when it is brought into an unsigned 32-bit word. -/
theorem occupiedHeight_toNat (kind : TagKind) (env : LayoutEnv α) (body : Text) :
    (occupiedHeight kind env body).value.toNat =
      match (resolveOrReserve kind env body).value with
      | .ok c => c.pixelHeight
      | .error reserved => reserved.toNat := by
  unfold occupiedHeight
  cases hResolve : (resolveOrReserve kind env body).value with
  | error reserved => simp [bind, pure, hResolve]
  | ok c =>
      have hLt := pixelHeight_lt_of_resolve (resolve_of_resolveOrReserve hResolve)
      simpa [bind, pure, hResolve] using hLt

end Container

end Changelog
