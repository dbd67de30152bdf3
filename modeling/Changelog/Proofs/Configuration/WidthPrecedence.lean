import Changelog.Configuration.Merge
import Changelog.Drawing.Renderer
import Changelog.Proofs.Number.Decoding

/-! The width of the column is the first that is one: the command line comes before the environment, the
environment before the configuration file, and last comes the standard width. A width that is no finite
positive number is passed over wherever it stands, so drawing never meets one. -/

namespace Changelog

/-- A finite number above zero. -/
def IsWidth (width : Float32) : Prop :=
  (Number.ofSingle width).IsPositive

/-- The test that every source applies to its width, read off the bits of the number. -/
theorem isColumnWidth_iff {width : Float32} : isColumnWidth width = true ↔ IsWidth width := by
  rw [IsWidth, Number.isPositive_ofSingle_iff]
  simp [isColumnWidth]

instance : DecidablePred IsWidth :=
  fun width => inferInstanceAs (Decidable (Number.ofSingle width).IsPositive)

/-- The first of several offers that is a width; an offer may be left out. -/
def FirstWidth (offers : List (Option Float32)) (width : Float32) : Prop :=
  ∃ before after, offers = before ++ some width :: after ∧ IsWidth width ∧
    ∀ other, some other ∈ before → ¬ IsWidth other

variable {offer : Option Float32} {offers : List (Option Float32)} {width other : Float32}

/-- An offer that is a width leaves the others without effect. -/
theorem firstWidth_cons_of_isWidth (h : IsWidth width) :
    FirstWidth (some width :: offers) other ↔ other = width := by
  constructor
  · rintro ⟨before, after, hOffers, -, hBefore⟩
    cases before with
    | nil => exact (Option.some.inj (List.cons.inj hOffers).1).symm
    | cons first rest =>
        obtain ⟨rfl, -⟩ := List.cons.inj hOffers
        exact absurd h (hBefore width (List.mem_cons_self ..))
  · rintro rfl
    exact ⟨[], offers, rfl, h, by simp⟩

/-- An offer that is left out or is no width is passed over. -/
theorem firstWidth_cons_of_not (h : ∀ width ∈ offer, ¬ IsWidth width) :
    FirstWidth (offer :: offers) width ↔ FirstWidth offers width := by
  constructor
  · rintro ⟨before, after, hOffers, hWidth, hBefore⟩
    cases before with
    | nil => exact absurd hWidth (h width (List.cons.inj hOffers).1)
    | cons first rest =>
        exact ⟨rest, after, (List.cons.inj hOffers).2, hWidth,
          fun other hOther => hBefore other (List.mem_cons_of_mem _ hOther)⟩
  · rintro ⟨before, after, rfl, hWidth, hBefore⟩
    refine ⟨offer :: before, after, rfl, hWidth, fun other hOther => ?_⟩
    rcases List.mem_cons.1 hOther with rfl | hRest
    · exact h other rfl
    · exact hBefore other hRest

namespace Settings

variable {s : Settings Float32}

theorem withWidth_of_isWidth (h : IsWidth width) :
    s.withWidth (some width) = { s with columnWidth := width } := by
  have hKept : (some width).filter isColumnWidth = some width :=
    Option.filter_eq_some_iff.2 ⟨rfl, isColumnWidth_iff.2 h⟩
  rw [withWidth, hKept]

theorem withWidth_of_not (h : ∀ width ∈ offer, ¬ IsWidth width) : s.withWidth offer = s := by
  have hNone : offer.filter isColumnWidth = none :=
    Option.filter_eq_none_iff.2 fun width hWidth => isColumnWidth_iff.not.2 (h width hWidth)
  rw [withWidth, hNone]

/-- The settings have the width that the offers lead to. -/
def Follows (s : Settings Float32) (offers : List (Option Float32)) : Prop :=
  IsWidth s.columnWidth ∧ ∀ width, s.columnWidth = width ↔ FirstWidth offers width

/-- A source that is read later comes first. -/
theorem Follows.withWidth (h : s.Follows offers) (offer : Option Float32) :
    (s.withWidth offer).Follows (offer :: offers) := by
  by_cases hOffer : ∃ width ∈ offer, IsWidth width
  · obtain ⟨width, rfl, hWidth⟩ := hOffer
    rw [withWidth_of_isWidth hWidth]
    exact ⟨hWidth, fun other => by rw [firstWidth_cons_of_isWidth hWidth, eq_comm]⟩
  · have hNone : ∀ width ∈ offer, ¬ IsWidth width := fun width hMem hWidth => hOffer ⟨width, hMem, hWidth⟩
    rw [withWidth_of_not hNone]
    exact ⟨h.1, fun width => by rw [firstWidth_cons_of_not hNone, h.2]⟩

/-- Before any source is read, the standard width stands. -/
theorem follows_standard (stateDirectory : Option Text) :
    (standard stateDirectory).Follows [some (Scalar.ofNat 700)] := by
  have hWidth : IsWidth (Scalar.ofNat 700) := by decide +kernel
  exact ⟨hWidth, fun width => by rw [firstWidth_cons_of_isWidth hWidth, eq_comm]; rfl⟩

/-- Of what a configuration file may set, only the width bears on the width. -/
theorem columnWidth_merge (stateDirectory : Option Text) (file : Option ConfigFile) :
    (merge stateDirectory file).columnWidth =
      ((standard stateDirectory).withWidth (file.bind ConfigFile.columnWidth)).columnWidth := by
  cases file <;> rfl

/-- The widths that the sources offer, those of the later sources first. -/
def offeredWidths (file : Option ConfigFile) (environment : Option Text) (argument : Option Float32) :
    List (Option Float32) :=
  [argument, environment.bind variableWidth?, file.bind ConfigFile.columnWidth, some (Scalar.ofNat 700)]

/-- The sources in the order of their reading lead to the width that is first among them in reverse. -/
theorem follows_resolve (stateDirectory : Option Text) (file : Option ConfigFile) (environment : Option Text)
    (argument : Option Float32) :
    (resolve stateDirectory file environment argument).Follows (offeredWidths file environment argument) := by
  have hMerged : (merge stateDirectory file).Follows
      [file.bind ConfigFile.columnWidth, some (Scalar.ofNat 700)] := by
    rw [Follows, columnWidth_merge]
    exact (follows_standard stateDirectory).withWidth _
  exact (hMerged.withWidth _).withWidth argument

/-- A decimal numeral gives a width if the number nearest to it is neither zero nor infinite, nor below zero. -/
theorem isWidth_toSingle_iff (d : Number.Decimal) :
    IsWidth d.toSingle ↔ 0 < d.toBits .single ∧ d.toBits .single < Number.Format.single.infinityField := by
  have hNearest (negative : Bool) (a b : Nat) : Number.Format.single.nearest negative a b < 2 ^ 32 := by
    have hSignBit : Number.Format.single.signBit = 2 ^ 31 := rfl
    have hInfinity := Number.infinityField_single
    unfold Number.Format.nearest
    dsimp only
    split_ifs <;> omega
  have hBits : d.toBits .single < 2 ^ 32 := by
    unfold Number.Decimal.toBits
    dsimp only
    split_ifs <;> apply hNearest
  have hNat : (d.toBits .single).toUInt32.toNat = d.toBits .single := UInt32.toNat_ofNat_of_lt hBits
  rw [IsWidth, Number.Decimal.toSingle, Number.ofSingle_ofBits, hNat, Number.isPositive_decode_iff hBits]

/-- The text of the environment offers a width only as a decimal numeral; infinity is none. -/
theorem exists_isWidth_variableWidth?_iff (text : Text) :
    (∃ width ∈ variableWidth? text, IsWidth width) ↔
      ∃ d : Number.Decimal, Number.Numeral.read? (Text.trim text) = some (.decimal d) ∧
        0 < d.toBits .single ∧ d.toBits .single < Number.Format.single.infinityField := by
  unfold variableWidth?
  cases Number.Numeral.read? (Text.trim text) with
  | none => simp
  | some numeral =>
      cases numeral with
      | nan =>
          have hNot : ¬ IsWidth (Number.Numeral.toSingle .nan) := by decide +kernel
          simp [hNot]
      | infinite negative =>
          have hNot : ¬ IsWidth (Number.Numeral.toSingle (.infinite negative)) := by
            cases negative <;> decide +kernel
          simp [hNot]
      | decimal d => simp [Number.Numeral.toSingle, isWidth_toSingle_iff]

/-- A column of the resolved width has room for every placeholder. -/
theorem isSome_placePlaceholder?_of_resolve {stateDirectory : Option Text} {file : Option ConfigFile}
    {environment : Option Text} {argument : Option Float32} {r : Renderer Float32}
    (h : r.columnWidth = (resolve stateDirectory file environment argument).columnWidth)
    (width height : Float32) (message : Text) : (r.placePlaceholder? width height message).isSome := by
  have hWidth : IsWidth r.columnWidth := h ▸ (follows_resolve ..).1
  rw [Renderer.placePlaceholder?, if_pos (Number.zero_le_of_isPositive hWidth)]
  rfl

end Settings

end Changelog
