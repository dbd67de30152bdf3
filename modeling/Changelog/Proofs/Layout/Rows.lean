import Changelog.Layout.Document
import Changelog.Proofs.Exact
import Changelog.Proofs.Layout.ContainerBounds
import Changelog.Proofs.Layout.HeightSums

/-! How many rows a document takes. The rows of a segment are a number of any size; the height that is kept
for it is this number as far as a 32-bit word goes. A document can be measured if and only if such a word
holds the height of each of its titles together with the space below it. -/

namespace Changelog

/-- The style after a segment. Only instructions change it. -/
def TextScope.after (scope : TextScope) (segment : Segment) : TextScope :=
  match segment.tag? with
  | some kind => (scope.instruct kind segment.text).value
  | none => scope

namespace LayoutEnv

variable {α : Type} [Scalar α] {env : LayoutEnv α} {scope : TextScope} {segment : Segment}

/-- The rows that a wrapped text takes, however many there are. -/
def textRows (env : LayoutEnv α) (text : Text) (font : FontSize) : Nat :=
  (Scalar.ceil (env.measurer.textHeight text env.columnWidth font)).toNat

/-- The rows that an image or an animation takes. -/
def containerRows (env : LayoutEnv α) (kind : TagKind) (body : Text) : Nat :=
  match (Container.resolveOrReserve kind env body).value with
  | .ok container => container.pixelHeight
  | .error reserved => reserved.toNat

/-- The rows that a segment takes, however many there are. -/
def rows (env : LayoutEnv α) (scope : TextScope) (segment : Segment) : Nat :=
  match segment.tag? with
  | none => env.textRows (DecoratedText.ofSegment segment).value.text scope.font
  | some .font | some .anchor => 0
  | some .title => env.textRows segment.text .small + env.settings.titlePadding.toNat
  | some kind => env.containerRows kind segment.text

/-- If the segment is a title, a 32-bit word holds its height together with the space below it. -/
def TitleFits (env : LayoutEnv α) (segment : Segment) : Prop :=
  segment.tag? = some .title →
    (env.textHeight segment.text .small).toNat + env.settings.titlePadding.toNat < UInt32.size

instance (env : LayoutEnv α) (segment : Segment) : Decidable (env.TitleFits segment) :=
  inferInstanceAs (Decidable (_ → _))

/-- A text that takes more rows than a 32-bit word counts is measured as if it took the most that it
counts. -/
theorem toNat_textHeight_eq (env : LayoutEnv α) (text : Text) (font : FontSize) :
    (env.textHeight text font).toNat = min (env.textRows text font) (UInt32.size - 1) :=
  UInt32.toNat_ofNat_of_lt' (Nat.lt_of_le_of_lt (Nat.min_le_right _ _) (by decide))

/-- So it is with a tag, although none takes as many. -/
theorem toNat_occupiedHeight_eq (env : LayoutEnv α) (kind : TagKind) (body : Text) :
    (Container.occupiedHeight kind env body).value.toNat =
      min (env.containerRows kind body) (UInt32.size - 1) := by
  have hRows : _ = env.containerRows kind body := Container.occupiedHeight_toNat kind env body
  have hLt := UInt32.toNat_lt (Container.occupiedHeight kind env body).value
  rw [← hRows, Nat.min_eq_left (Nat.le_sub_one_of_lt hLt)]

/-- Every segment has a height, but for a title whose sum overflows. -/
theorem isSome_segmentHeight?_iff :
    (env.segmentHeight? scope segment).isSome = true ↔ env.TitleFits segment := by
  unfold segmentHeight? TitleFits
  cases segment.tag? with
  | none => simp
  | some kind =>
      cases kind with
      | font | anchor | image | gif => simp [tagHeight?]
      | title => simp [tagHeight?, titleHeight?, isSome_inWord?_iff]

/-- The height that is measured is the number of rows, as far as a 32-bit word goes. -/
theorem toNat_of_segmentHeight? {measured : Noted (UInt32 × TextScope)}
    (h : env.segmentHeight? scope segment = some measured) :
    measured.value.1.toNat = min (env.rows scope segment) (UInt32.size - 1) := by
  have hSize : UInt32.size = 4294967296 := rfl
  unfold segmentHeight? at h
  unfold rows
  cases hTag : segment.tag? with
  | none =>
      rw [hTag] at h
      obtain rfl := Option.some.inj h
      exact toNat_textHeight_eq ..
  | some kind =>
      rw [hTag] at h
      cases kind with
      | font | anchor =>
          obtain rfl := Option.some.inj h
          rfl
      | title =>
          obtain ⟨height, hHeight, rfl⟩ := Option.map_eq_some_iff.1 h
          obtain ⟨sum, hSum, rfl⟩ := Option.map_eq_some_iff.1 hHeight
          obtain ⟨rfl, hLt⟩ := inWord?_eq_some_iff.1 hSum
          have hText := toNat_textHeight_eq env segment.text .small
          have hWord := UInt32.toNat_ofNat_of_lt' hLt
          show (UInt32.ofNat _).toNat = _
          dsimp only at *
          omega
      | image | gif =>
          obtain rfl := Option.some.inj h
          exact toNat_occupiedHeight_eq ..

/-- Measuring a segment leaves the style that comes after it. -/
theorem scope_of_segmentHeight? {measured : Noted (UInt32 × TextScope)}
    (h : env.segmentHeight? scope segment = some measured) :
    measured.value.2 = scope.after segment := by
  unfold segmentHeight? at h
  unfold TextScope.after
  cases hTag : segment.tag? with
  | none =>
      rw [hTag] at h
      obtain rfl := Option.some.inj h
      rfl
  | some kind =>
      rw [hTag] at h
      cases kind with
      | font | anchor | image | gif =>
          obtain rfl := Option.some.inj h
          rfl
      | title =>
          obtain ⟨height, _, rfl⟩ := Option.map_eq_some_iff.1 h
          rfl

/-- A title with few enough rows can be measured. -/
theorem titleFits_of_rows_lt (h : env.rows scope segment < UInt32.size) : env.TitleFits segment := by
  intro hTag
  have hText := toNat_textHeight_eq env segment.text .small
  rw [rows, hTag] at h
  dsimp only at h
  omega

/-- The rows of segments, the first of which comes in the style `scope`. -/
def documentRows (env : LayoutEnv α) (scope : TextScope) : List Segment → List Nat
  | [] => []
  | segment :: rest => env.rows scope segment :: env.documentRows (scope.after segment) rest

/-- The heights that are kept for the segments: their rows, as far as a 32-bit word goes. -/
def heights (env : LayoutEnv α) (scope : TextScope) (segments : List Segment) : List Nat :=
  (env.documentRows scope segments).map fun rows => min rows (UInt32.size - 1)

/-- A 32-bit word holds the rows of each of these segments. -/
def Fits32 (env : LayoutEnv α) (scope : TextScope) (segments : List Segment) : Prop :=
  ∀ rows ∈ env.documentRows scope segments, rows < UInt32.size

instance (env : LayoutEnv α) (scope : TextScope) (segments : List Segment) :
    Decidable (env.Fits32 scope segments) :=
  inferInstanceAs (Decidable (∀ rows ∈ _, _))

@[simp] theorem length_documentRows (env : LayoutEnv α) (scope : TextScope) (segments : List Segment) :
    (env.documentRows scope segments).length = segments.length := by
  induction segments generalizing scope with
  | nil => rfl
  | cons segment rest ih => rw [documentRows, List.length_cons, ih, List.length_cons]

@[simp] theorem length_heights (env : LayoutEnv α) (scope : TextScope) (segments : List Segment) :
    (env.heights scope segments).length = segments.length := by
  rw [heights, List.length_map, length_documentRows]

/-- The rows of later segments depend on the earlier ones only through the style that these leave. -/
theorem documentRows_append (env : LayoutEnv α) (scope : TextScope) (before after : List Segment) :
    env.documentRows scope (before ++ after) =
      env.documentRows scope before ++
        env.documentRows (before.foldl TextScope.after scope) after := by
  induction before generalizing scope with
  | nil => rfl
  | cons segment rest ih =>
      rw [List.cons_append, documentRows, documentRows, ih, List.cons_append, List.foldl_cons]

theorem heights_append (env : LayoutEnv α) (scope : TextScope) (before after : List Segment) :
    env.heights scope (before ++ after) =
      env.heights scope before ++ env.heights (before.foldl TextScope.after scope) after := by
  rw [heights, documentRows_append, List.map_append]
  rfl

/-- The first segments take the same rows if there are no others. -/
theorem documentRows_take (env : LayoutEnv α) (scope : TextScope) (segments : List Segment) (n : Nat) :
    env.documentRows scope (segments.take n) = (env.documentRows scope segments).take n := by
  induction segments generalizing scope n with
  | nil => rw [List.take_nil, documentRows, List.take_nil]
  | cons segment rest ih =>
      cases n with
      | zero => rfl
      | succ n => rw [List.take_succ_cons, documentRows, documentRows, ih, List.take_succ_cons]

/-- Segments that are all the same and leave the style as it is take the same number of rows. -/
theorem documentRows_replicate {n : Nat} (h : scope.after segment = scope) :
    env.documentRows scope (List.replicate n segment) = List.replicate n (env.rows scope segment) := by
  induction n with
  | zero => rfl
  | succ n ih => rw [List.replicate_succ, documentRows, h, ih, List.replicate_succ]

/-- Heights that words hold are the rows themselves. -/
theorem heights_eq_documentRows {segments : List Segment} (h : env.Fits32 scope segments) :
    env.heights scope segments = env.documentRows scope segments := by
  refine (List.map_congr_left fun rows hMem => ?_).trans (List.map_id _)
  exact Nat.min_eq_left (Nat.le_sub_one_of_lt (h rows hMem))

/-- If words hold the rows of all segments, each title can be measured. -/
theorem Fits32.titleFits {segments : List Segment} (h : env.Fits32 scope segments) :
    ∀ segment ∈ segments, env.TitleFits segment := by
  induction segments generalizing scope with
  | nil => exact fun _ => nofun
  | cons segment rest ih =>
      obtain ⟨hFirst, hRest⟩ := List.forall_mem_cons.1 h
      exact List.forall_mem_cons.2 ⟨titleFits_of_rows_lt hFirst, ih hRest⟩

end LayoutEnv

namespace DocumentLayout

variable {α : Type} [Scalar α] {env : LayoutEnv α} {scope : TextScope} {x : HeightIndex}
  {segments : List Segment}

/-- Measuring begins with the first segment, and fails if this has no height. -/
theorem measure?_cons (env : LayoutEnv α) (scope : TextScope) (x : HeightIndex) (segment : Segment)
    (rest : List Segment) :
    measure? env scope x (segment :: rest) =
      (env.segmentHeight? scope segment).bind fun first =>
        (measure? env first.value.2 (x.push first.value.1.toNat) rest).map fun others =>
          { others with notices := first.notices ++ others.notices } :=
  congrArg _ (funext fun _ => Option.map_eq_bind.symm)

/-- What measuring segments comes to: their heights below those that are in the column already, and the
style after the last one. -/
structure Measured (env : LayoutEnv α) (scope : TextScope) (x : HeightIndex) (segments : List Segment)
    (heights : HeightIndex) (last : TextScope) : Prop where
  toList_eq : heights.heights.toList = x.heights.toList ++ env.heights scope segments
  scope_eq : last = segments.foldl TextScope.after scope
  sound : x.Sound → heights.Sound

/-- Whatever can be measured comes to the heights of its segments, in order. -/
theorem measured_of_measure? {measured : Noted (HeightIndex × TextScope)}
    (h : measure? env scope x segments = some measured) :
    Measured env scope x segments measured.value.1 measured.value.2 := by
  induction segments generalizing scope x measured with
  | nil =>
      obtain rfl := Option.some.inj h
      exact ⟨(List.append_nil _).symm, rfl, id⟩
  | cons segment rest ih =>
      rw [measure?_cons] at h
      obtain ⟨first, hFirst, h⟩ := Option.bind_eq_some_iff.1 h
      obtain ⟨others, hOthers, rfl⟩ := Option.map_eq_some_iff.1 h
      have hRest := ih hOthers
      rw [LayoutEnv.toNat_of_segmentHeight? hFirst, LayoutEnv.scope_of_segmentHeight? hFirst] at hRest
      refine ⟨hRest.toList_eq.trans ?_, hRest.scope_eq, fun hSound => hRest.sound (hSound.push _)⟩
      rw [HeightIndex.toList_push, List.append_assoc]
      rfl

/-- Segments can be measured if and only if the titles among them can. -/
theorem isSome_measure?_iff :
    (measure? env scope x segments).isSome = true ↔ ∀ segment ∈ segments, env.TitleFits segment := by
  induction segments generalizing scope x with
  | nil => exact ⟨fun _ => fun _ => nofun, fun _ => rfl⟩
  | cons segment rest ih =>
      have hTitle : (env.segmentHeight? scope segment).isSome = true ↔ env.TitleFits segment :=
        LayoutEnv.isSome_segmentHeight?_iff
      rw [List.forall_mem_cons, ← hTitle, measure?_cons]
      cases hFirst : env.segmentHeight? scope segment with
      | none => exact ⟨nofun, fun h => nomatch h.1⟩
      | some first =>
          rw [Option.bind_some, Option.isSome_map, ih]
          exact (and_iff_right rfl).symm

/-- If segments can be measured, so can the first ones among them. -/
theorem exists_measure?_of_append {before after : List Segment}
    (h : (measure? env scope x (before ++ after)).isSome = true) :
    ∃ measured, measure? env scope x before = some measured :=
  Option.isSome_iff_exists.1 <| isSome_measure?_iff.2 fun segment hMem =>
    isSome_measure?_iff.1 h segment (List.mem_append_left after hMem)

/-- What the layout of a document is computed to be. -/
structure Computed (env : LayoutEnv α) (segments : List Segment) (d : DocumentLayout α) : Prop where
  toList_eq : d.heights.heights.toList = env.heights {} segments
  sound : d.heights.Sound
  scope_eq : d.scope = segments.foldl TextScope.after {}
  bottomPadding_eq : d.bottomPadding = padding env d.scope
  params_eq : d.params = { columnWidth := env.columnWidth, generation := env.images.generation }

/-- What is computed is the layout of the rows, cut off at what a word holds. -/
theorem computed_of_compute? {computed : Noted (DocumentLayout α)}
    (h : compute? env segments = some computed) : Computed env segments computed.value := by
  obtain ⟨measured, hMeasure, rfl⟩ := Option.map_eq_some_iff.1 h
  have hMeasured := measured_of_measure? hMeasure
  exact ⟨hMeasured.toList_eq, hMeasured.sound (HeightIndex.sound_withCapacity _), hMeasured.scope_eq,
    rfl, rfl⟩

/-- There is a layout if and only if every title can be measured. -/
theorem isSome_compute?_iff :
    (compute? env segments).isSome = true ↔ ∀ segment ∈ segments, env.TitleFits segment := by
  rw [compute?, Option.isSome_map, isSome_measure?_iff]

/-- There is a height for each segment. -/
theorem Computed.size_eq {d : DocumentLayout α} (h : Computed env segments d) :
    d.size = segments.length := by
  rw [size, HeightIndex.size, ← Array.length_toList, h.toList_eq, LayoutEnv.length_heights]

end DocumentLayout

namespace LayoutEnv

variable {env : LayoutEnv ℚ} {scope : TextScope} {segment : Segment}

/-- The height of a segment before it is rounded up. -/
def exactHeight (env : LayoutEnv ℚ) (scope : TextScope) (segment : Segment) : ℚ :=
  match segment.tag? with
  | none =>
    max (env.measurer.textHeight (DecoratedText.ofSegment segment).value.text env.columnWidth
      scope.font) 0
  | some .font | some .anchor => 0
  | some .title =>
    max (env.measurer.textHeight segment.text env.columnWidth .small) 0 +
      env.settings.titlePadding.toNat
  | some kind => env.containerRows kind segment.text

/-- A text takes its exact height, rounded up, and never fewer rows than none. -/
theorem natCast_textRows (text : Text) (font : FontSize) :
    (env.textRows text font : ℤ) =
      ⌈max (env.measurer.textHeight text env.columnWidth font) 0⌉ := by
  rw [Int.ceil_mono.map_max, Int.ceil_zero]
  exact Int.toNat_eq_max _

/-- The rows of a segment are its exact height rounded up. -/
theorem natCast_rows (env : LayoutEnv ℚ) (scope : TextScope) (segment : Segment) :
    (env.rows scope segment : ℤ) = ⌈env.exactHeight scope segment⌉ := by
  unfold rows exactHeight
  cases segment.tag? with
  | none => exact natCast_textRows ..
  | some kind =>
      cases kind with
      | font | anchor => exact Int.ceil_zero.symm
      | title =>
          dsimp only
          rw [Int.ceil_add_natCast, Nat.cast_add, natCast_textRows]
      | image | gif => exact (Int.ceil_natCast _).symm

/-- The rows of a segment leave room for all of it. -/
theorem exactHeight_le_rows (env : LayoutEnv ℚ) (scope : TextScope) (segment : Segment) :
    env.exactHeight scope segment ≤ env.rows scope segment := by
  have hCeil := Int.le_ceil (env.exactHeight scope segment)
  rw [← natCast_rows] at hCeil
  exact_mod_cast hCeil

end LayoutEnv

end Changelog
