import Changelog.Markup.Segment
import Changelog.Proofs.Markup.Alternation
import Changelog.Proofs.Text.Slice

/-! What reading a description keeps, for any registry. Pieces put together are the text, whatever the
markers are, so a segment is what stands at its place, and all that is lost are newlines that are pieces
of their own. A tag that was matched can always be stripped, since matching and stripping look for the
same two markers. -/

namespace Changelog

namespace TagDefinition

/-- The tag around an inner text. -/
def markup (d : TagDefinition) (inner : Text) : Text :=
  d.opener ++ inner ++ d.closer.getD []

/-- To strip a tag is to take off both of its markers. -/
theorem strip?_eq_some_iff {d : TagDefinition} {text inner : Text} :
    d.strip? text = some inner ↔ text = d.markup inner := by
  unfold strip? markup
  constructor
  · intro h
    obtain ⟨rest, hRest, h⟩ := Option.bind_eq_some_iff.1 h
    rw [Text.after?_eq_some_iff] at hRest
    cases hc : d.closer with
    | none =>
        obtain rfl : rest = inner := by simpa [hc] using h
        simpa using hRest
    | some closer =>
        rw [hc] at h
        rw [hRest, Text.before?_eq_some_iff.1 h]
        simp
  · rintro rfl
    have hAfter : Text.after? d.opener (d.opener ++ inner ++ d.closer.getD []) =
        some (inner ++ d.closer.getD []) :=
      Text.after?_eq_some_iff.2 (by simp)
    rw [hAfter]
    cases d.closer with
    | none => simp
    | some closer => exact Text.before?_eq_some_iff.2 rfl

/-- A tag has an inner text that can be stripped. -/
theorem Encloses.exists_markup {d : TagDefinition} {text : Text} (h : d.Encloses text) :
    ∃ inner, text = d.markup inner := by
  unfold Encloses at h
  unfold markup
  cases hc : d.closer with
  | none =>
      rw [hc] at h
      exact ⟨[], by simpa using h⟩
  | some closer =>
      rw [hc] at h
      obtain ⟨inner, hText⟩ := h
      exact ⟨inner, hText⟩

end TagDefinition

namespace Piece

/-- Pieces with their places, the first of which begins at `start`. -/
def placed (start : Nat) (pieces : List Piece) : List (Piece × Span) :=
  pieces.zip (spans start pieces)

variable {start : Nat} {piece : Piece} {pieces : List Piece} {place : Span}

@[simp] theorem placed_nil (start : Nat) : placed start [] = [] := rfl

@[simp] theorem placed_cons (start : Nat) (piece : Piece) (rest : List Piece) :
    placed start (piece :: rest) =
      (piece, ⟨start, start + Text.byteSize piece.text⟩) ::
        placed (start + Text.byteSize piece.text) rest := rfl

/-- Segments are the pieces that are not dropped, at their places. -/
theorem ofPieces_eq (start : Nat) (pieces : List Piece) :
    Segment.ofPieces start pieces =
      ((placed start pieces).filter fun p => !p.1.isDropped).map fun p =>
        ⟨Content.ofPiece p.1, p.2⟩ := by
  induction pieces generalizing start with
  | nil => rfl
  | cons piece rest ih =>
      cases hDropped : piece.isDropped <;> simp [Segment.ofPieces, hDropped, ih]

/-- A piece stands at its place, whatever text is in front of the first one. -/
theorem standsAt_of_mem_placed {before : Text}
    (h : (piece, place) ∈ placed (Text.byteSize before) pieces) :
    Text.StandsAt piece.text (before ++ pieces.flatMap text) place := by
  induction pieces generalizing before with
  | nil => cases h
  | cons first rest ih =>
      rw [placed_cons] at h
      rcases List.mem_cons.1 h with hFirst | hRest
      · obtain ⟨rfl, rfl⟩ := Prod.mk.inj hFirst
        exact ⟨before, rest.flatMap text, by simp, rfl⟩
      · rw [← Text.byteSize_append] at hRest
        simpa using ih hRest

theorem start_le_of_mem_placed (h : (piece, place) ∈ placed start pieces) :
    start ≤ place.start := by
  induction pieces generalizing start with
  | nil => cases h
  | cons first rest ih =>
      rw [placed_cons] at h
      rcases List.mem_cons.1 h with hFirst | hRest
      · obtain ⟨rfl, rfl⟩ := Prod.mk.inj hFirst
        exact le_rfl
      · exact (Nat.le_add_right ..).trans (ih hRest)

/-- Pieces do not overlap. -/
theorem pairwise_placed (start : Nat) (pieces : List Piece) :
    (placed start pieces).Pairwise fun a b => a.2.stop ≤ b.2.start := by
  induction pieces generalizing start with
  | nil => exact List.Pairwise.nil
  | cons first rest ih =>
      rw [placed_cons, List.pairwise_cons]
      exact ⟨fun _ hMem => start_le_of_mem_placed hMem, ih _⟩

/-- Every byte of the text lies in a piece. -/
theorem exists_mem_placed {i : Nat} (hStart : start ≤ i)
    (hStop : i < start + Text.byteSize (pieces.flatMap text)) :
    ∃ piece place, (piece, place) ∈ placed start pieces ∧ place.Covers i := by
  induction pieces generalizing start with
  | nil =>
      simp only [List.flatMap_nil, Text.byteSize_nil] at hStop
      omega
  | cons first rest ih =>
      rw [List.flatMap_cons, Text.byteSize_append] at hStop
      by_cases hFirst : i < start + Text.byteSize first.text
      · exact ⟨first, _, List.mem_cons_self .., hStart, hFirst⟩
      · obtain ⟨piece, place, hMem, hCovers⟩ := ih (Nat.le_of_not_lt hFirst) (by omega)
        exact ⟨piece, place, List.mem_cons_of_mem _ hMem, hCovers⟩

end Piece

namespace Registry

variable {r : Registry} {raw : Text}

/-- The scan leaves nothing out: tags and gaps together are the text. -/
theorem flatMap_text_scan (r : Registry) (text : Text) :
    (r.scan text).gap ++ (r.scan text).tags.flatMap (fun found => found.1.text ++ found.2) =
      text := by
  cases hMatch : r.match? text with
  | some found =>
      obtain ⟨d, tag, rest⟩ := found
      have hText := TagDefinition.eq_append_of_match? (mem_tags_of_match? hMatch).2
      simp only [scan_of_match? hMatch, List.nil_append, List.flatMap_cons, List.append_assoc,
        flatMap_text_scan r rest]
      exact hText.symm
  | none =>
      cases text with
      | nil => simp
      | cons c rest =>
          rw [scan_cons hMatch, List.cons_append, flatMap_text_scan r rest]
termination_by text.length
decreasing_by
  · simp
  · exact rest_length_lt_of_match? hMatch

theorem flatMap_text_plain (runs : List Text) :
    (runs.map Piece.plain).flatMap Piece.text = runs.flatten := by
  simp [List.flatMap_map, Piece.plain, List.flatMap_id']

/-- Dividing the gaps into stretches does not change what they are together. -/
theorem flatMap_text_piecesOf (r : Registry) (gap : Text) (tags : List (Piece × Text)) :
    (r.piecesOf gap tags).flatMap Piece.text =
      gap ++ tags.flatMap fun found => found.1.text ++ found.2 := by
  induction tags generalizing gap with
  | nil => simp [piecesOf, flatMap_text_plain, flatten_lastRuns]
  | cons found more ih => simp [piecesOf, flatMap_text_plain, flatten_plainRuns, ih]

/-- The pieces of a text put together are the text. -/
theorem flatMap_text_split (r : Registry) (text : Text) :
    (r.split text).flatMap Piece.text = text := by
  rw [split, flatMap_text_piecesOf, flatMap_text_scan]

/-- A piece that is said to be a tag is one. -/
def IsTag (r : Registry) (piece : Piece) : Prop :=
  ∃ d inner, d ∈ r.tags ∧ piece = ⟨some d, d.markup inner⟩

/-- What the scan takes for a tag has both markers of a definition. -/
theorem isTag_of_mem_scan (text : Text) : ∀ found ∈ (r.scan text).tags, r.IsTag found.1 := by
  cases hMatch : r.match? text with
  | some first =>
      obtain ⟨d, tag, rest⟩ := first
      rw [scan_of_match? hMatch, List.forall_mem_cons]
      obtain ⟨hMem, hTag⟩ := mem_tags_of_match? hMatch
      obtain ⟨inner, rfl⟩ := (TagDefinition.takes_of_match? hTag).encloses.exists_markup
      exact ⟨⟨d, inner, hMem, rfl⟩, isTag_of_mem_scan rest⟩
  | none =>
      cases text with
      | nil => simp
      | cons c rest =>
          rw [scan_cons hMatch]
          exact isTag_of_mem_scan rest
termination_by text.length
decreasing_by
  · simp
  · exact rest_length_lt_of_match? hMatch

/-- The tags among the pieces are those of the scan. -/
theorem mem_piecesOf {gap : Text} {tags : List (Piece × Text)} {piece : Piece}
    (h : piece ∈ r.piecesOf gap tags) : piece.tag = none ∨ ∃ next, (piece, next) ∈ tags := by
  have hPlain {runs : List Text} (hMem : piece ∈ runs.map Piece.plain) : piece.tag = none := by
    obtain ⟨run, _, rfl⟩ := List.mem_map.1 hMem
    rfl
  induction tags generalizing gap with
  | nil => exact Or.inl (hPlain h)
  | cons found more ih =>
      rcases List.mem_append.1 h with hGap | hRest
      · exact Or.inl (hPlain hGap)
      · rcases List.mem_cons.1 hRest with rfl | hMore
        · exact Or.inr ⟨_, List.mem_cons_self ..⟩
        · rcases ih hMore with hNone | ⟨next, hMem⟩
          · exact Or.inl hNone
          · exact Or.inr ⟨next, List.mem_cons_of_mem _ hMem⟩

/-- A piece of a text is plain, or a tag around some inner text. -/
theorem plain_or_isTag {piece : Piece} (h : piece ∈ r.split raw) :
    piece.tag = none ∨ r.IsTag piece := by
  rcases mem_piecesOf h with hPlain | ⟨next, hMem⟩
  · exact Or.inl hPlain
  · exact Or.inr (isTag_of_mem_scan raw _ hMem)

/-- A kind has one definition, so the definition of a tag is found again by its kind. -/
theorem definition?_of_mem {d : TagDefinition} (h : d ∈ r.tags) :
    r.definition? d.kind = some d := by
  obtain ⟨before, after, hTags⟩ := List.append_of_mem h
  have hNodup := r.kinds_nodup
  rw [hTags, List.map_append, List.map_cons] at hNodup
  refine List.find?_eq_some_iff_append.2 ⟨by simp, before, after, hTags, fun e he => ?_⟩
  have hNe : e.kind ≠ d.kind := (List.nodup_append.1 hNodup).2.2 _ (List.mem_map_of_mem he) _
    (List.mem_cons_self ..)
  simpa using hNe

/-- The pieces of a description with their places. -/
def placedPieces (r : Registry) (raw : Text) : List (Piece × Span) :=
  Piece.placed 0 (r.split raw)

/-- The text of a segment is what stands at its place; around that of a tag stand the markers of its
kind. -/
def Holds (r : Registry) (raw : Text) (s : Segment) : Prop :=
  match s.tag? with
  | none => Text.StandsAt s.text raw s.span
  | some kind => ∃ d, r.definition? kind = some d ∧ Text.StandsAt (d.markup s.text) raw s.span

/-- What segments keep of the description that they are read from. -/
structure Keeps (r : Registry) (raw : Text) (segments : List Segment) : Prop where
  nonempty : ∀ s ∈ segments, s.span.start < s.span.stop
  increasing : segments.Pairwise fun a b => a.span.start < b.span.start
  disjoint : segments.Pairwise fun a b => a.span.stop ≤ b.span.start
  hasSpan : ∀ s ∈ segments, Text.HasSpan raw s.span
  holds : ∀ s ∈ segments, r.Holds raw s
  /-- A byte outside of all segments is a newline that is a piece of its own. -/
  outside : ∀ i < Text.byteSize raw, (∀ s ∈ segments, ¬s.span.Covers i) →
    ∃ piece, (piece, ⟨i, i + 1⟩) ∈ r.placedPieces raw ∧ piece.text = ['\n']
  /-- A matched tag is a segment of its kind, unless it is nothing but a newline. -/
  tagged : ∀ piece place d, (piece, place) ∈ r.placedPieces raw → piece.tag = some d →
    piece.text ≠ ['\n'] → ∃ s ∈ segments, s.span = place ∧ s.tag? = some d.kind

/-- So each piece of a description stands at its place in it. -/
theorem standsAt_of_mem_placedPieces {piece : Piece} {place : Span}
    (h : (piece, place) ∈ r.placedPieces raw) : Text.StandsAt piece.text raw place := by
  have hStands : Text.StandsAt piece.text ([] ++ (r.split raw).flatMap Piece.text) place :=
    Piece.standsAt_of_mem_placed h
  rwa [List.nil_append, flatMap_text_split] at hStands

theorem mem_split_of_mem_placedPieces {piece : Piece} {place : Span}
    (h : (piece, place) ∈ r.placedPieces raw) : piece ∈ r.split raw :=
  (List.of_mem_zip h).1

/-- A description is read piece by piece, and some pieces are dropped. -/
theorem parse_eq (r : Registry) (raw : Text) :
    r.parse raw = ((r.placedPieces raw).filter fun p => !p.1.isDropped).map fun p =>
      ⟨Content.ofPiece p.1, p.2⟩ :=
  Piece.ofPieces_eq 0 (r.split raw)

/-- Every segment comes from a piece that is not dropped. -/
theorem mem_parse_iff {s : Segment} :
    s ∈ r.parse raw ↔ ∃ piece place, (piece, place) ∈ r.placedPieces raw ∧
      piece.isDropped = false ∧ s = ⟨Content.ofPiece piece, place⟩ := by
  rw [parse_eq, List.mem_map]
  constructor
  · rintro ⟨⟨piece, place⟩, hMem, rfl⟩
    obtain ⟨hMem, hKept⟩ := List.mem_filter.1 hMem
    exact ⟨piece, place, hMem, by simpa using hKept, rfl⟩
  · rintro ⟨piece, place, hMem, hKept, rfl⟩
    exact ⟨(piece, place), List.mem_filter.2 ⟨hMem, by simp [hKept]⟩, rfl⟩

/-- What is dropped is nothing, or a newline alone. -/
theorem isDropped_iff {piece : Piece} :
    piece.isDropped = true ↔ piece.text = [] ∨ piece.text = ['\n'] := by
  simp [Piece.isDropped]

/-- A tag becomes a segment of its kind with the inner text. -/
theorem ofPiece_markup (d : TagDefinition) (inner : Text) :
    Content.ofPiece ⟨some d, d.markup inner⟩ = .tagged d.kind inner := by
  simp [Content.ofPiece, TagDefinition.strip?_eq_some_iff.2 rfl]

/-- Plain text stays as it is, apart from its annotations, which are found in it. -/
theorem ofPiece_plain {piece : Piece} (h : piece.tag = none) :
    Content.ofPiece piece = .ofPlain piece.text := by
  simp [Content.ofPiece, h]

theorem start_lt_of_mem_parse {s : Segment} (h : s ∈ r.parse raw) : s.span.start < s.span.stop := by
  obtain ⟨piece, place, hMem, hKept, rfl⟩ := mem_parse_iff.1 h
  obtain ⟨before, after, _, rfl⟩ := standsAt_of_mem_placedPieces hMem
  have hNe : piece.text ≠ [] := fun hNil => by simp [Piece.isDropped, hNil] at hKept
  have hSize : Text.byteSize piece.text ≠ 0 := mt Text.byteSize_eq_zero_iff.1 hNe
  show Text.byteSize before < Text.byteSize before + Text.byteSize piece.text
  omega

/-- Segments do not overlap, since pieces do not. -/
theorem disjoint_parse (r : Registry) (raw : Text) :
    (r.parse raw).Pairwise fun a b => a.span.stop ≤ b.span.start := by
  rw [parse_eq]
  exact List.pairwise_map.2 ((Piece.pairwise_placed 0 _).filter _)

/-- A segment holds what stands at its place, a tag without its markers. -/
theorem holds_of_mem_parse {s : Segment} (h : s ∈ r.parse raw) : r.Holds raw s := by
  obtain ⟨piece, place, hMem, _, rfl⟩ := mem_parse_iff.1 h
  have hStands := standsAt_of_mem_placedPieces hMem
  rcases plain_or_isTag (mem_split_of_mem_placedPieces hMem) with hPlain | ⟨d, inner, hTag, rfl⟩
  · rw [ofPiece_plain hPlain]
    exact hStands
  · rw [ofPiece_markup]
    exact ⟨d, definition?_of_mem hTag, hStands⟩

/-- A piece that is dropped and takes at least one byte is a newline. -/
theorem newline_of_isDropped {piece : Piece} {place : Span} {i : Nat}
    (hMem : (piece, place) ∈ r.placedPieces raw) (hCovers : place.Covers i)
    (hDropped : piece.isDropped = true) : piece.text = ['\n'] ∧ place = ⟨i, i + 1⟩ := by
  obtain ⟨before, after, _, rfl⟩ := standsAt_of_mem_placedPieces hMem
  obtain ⟨hStart, hStop⟩ := hCovers
  rcases isDropped_iff.1 hDropped with hNil | hNewline
  · simp only [hNil, Text.byteSize_nil] at hStart hStop
    omega
  · have hSize : Text.byteSize ['\n'] = 1 := by decide
    simp only [hNewline, hSize] at hStart hStop ⊢
    exact ⟨trivial, by rw [show i = Text.byteSize before by omega]⟩

/-- All this holds of every description, with any registry. -/
theorem keeps_parse (r : Registry) (raw : Text) : r.Keeps raw (r.parse raw) where
  nonempty _ hMem := start_lt_of_mem_parse hMem
  increasing :=
    (disjoint_parse r raw).imp_of_mem fun hMem _ hApart =>
      (start_lt_of_mem_parse hMem).trans_le hApart
  disjoint := disjoint_parse r raw
  hasSpan s hMem := by
    obtain ⟨piece, place, hPlaced, _, rfl⟩ := mem_parse_iff.1 hMem
    exact (standsAt_of_mem_placedPieces hPlaced).hasSpan
  holds _ hMem := holds_of_mem_parse hMem
  outside i hi hOutside := by
    have hStop : i < 0 + Text.byteSize ((r.split raw).flatMap Piece.text) := by
      rwa [flatMap_text_split, Nat.zero_add]
    obtain ⟨piece, place, hMem, hCovers⟩ := Piece.exists_mem_placed (Nat.zero_le i) hStop
    cases hDropped : piece.isDropped with
    | true =>
        obtain ⟨hNewline, rfl⟩ := newline_of_isDropped hMem hCovers hDropped
        exact ⟨piece, hMem, hNewline⟩
    | false => exact absurd hCovers (hOutside _ (mem_parse_iff.2 ⟨piece, place, hMem, hDropped, rfl⟩))
  tagged piece place d hMem hTag hNewline := by
    rcases plain_or_isTag (mem_split_of_mem_placedPieces hMem) with hPlain | ⟨e, inner, hIn, rfl⟩
    · rw [hPlain] at hTag
      cases hTag
    · obtain rfl : e = d := Option.some.inj hTag
      have hNe : e.markup inner ≠ [] := by
        have hOpener := r.opener_ne e hIn
        simp [TagDefinition.markup, hOpener]
      have hKept : (⟨some e, e.markup inner⟩ : Piece).isDropped = false := by
        simpa [Piece.isDropped, hNe] using hNewline
      refine ⟨_, mem_parse_iff.2 ⟨_, place, hMem, hKept, rfl⟩, rfl, ?_⟩
      rw [ofPiece_markup]
      rfl

/-- What is read back are the pieces other than bare newlines. -/
theorem reconstruct_parse (r : Registry) (raw : Text) :
    Segment.reconstruct raw (r.parse raw) =
      ((r.split raw).filter fun piece => piece.text ≠ ['\n']).flatMap Piece.text := by
  have hSlices : Segment.reconstruct raw (r.parse raw) =
      ((r.placedPieces raw).filter fun p => !p.1.isDropped).flatMap fun p => p.1.text := by
    rw [Segment.reconstruct, parse_eq, List.flatMap_map]
    refine List.flatMap_congr fun p hMem => ?_
    exact (standsAt_of_mem_placedPieces (List.mem_of_mem_filter hMem)).slice_eq
  rw [hSlices, placedPieces]
  generalize r.split raw = pieces
  generalize 0 = start
  induction pieces generalizing start with
  | nil => rfl
  | cons piece rest ih =>
      rw [Piece.placed_cons]
      by_cases hNil : piece.text = []
      · simpa [Piece.isDropped, hNil] using ih _
      · by_cases hNewline : piece.text = ['\n']
        · simpa [Piece.isDropped, hNewline] using ih _
        · simpa [Piece.isDropped, hNil, hNewline] using ih _

/-- Without newlines, a description is put together again as it was. -/
theorem reconstruct_parse_of_notMem (r : Registry) {raw : Text} (h : '\n' ∉ raw) :
    Segment.reconstruct raw (r.parse raw) = raw := by
  have hAll : ∀ piece ∈ r.split raw, decide (piece.text ≠ ['\n']) = true := by
    intro piece hMem
    refine decide_eq_true fun hNewline => h ?_
    rw [← flatMap_text_split r raw]
    exact List.mem_flatMap.2 ⟨piece, hMem, by simp [hNewline]⟩
  rw [reconstruct_parse, List.filter_eq_self.2 hAll, flatMap_text_split]

/-- The segment that is added at the end takes no bytes, so it puts nothing back. -/
theorem reconstruct_ensureTrailingNewline (raw : Text) (size : Nat) (segments : List Segment) :
    Segment.reconstruct raw (Segment.ensureTrailingNewline size segments) =
      Segment.reconstruct raw segments := by
  unfold Segment.ensureTrailingNewline
  split
  · rename_i hLast
    rw [List.getLast?_eq_none_iff.1 hLast]
  · split
    · rfl
    · simp [Segment.reconstruct, Segment.newline]

/-- Reading loses nothing but newlines that are pieces of their own, and these are all that is missing
when the segments are put together again. The newline that is added at the end is no part of the
description. -/
theorem parse_keeps_all_but_newlines (r : Registry) (raw : Text) :
    r.Keeps raw (r.parse raw) ∧
      (r.split raw).flatMap Piece.text = raw ∧
      Segment.reconstruct raw (r.parse raw) =
        ((r.split raw).filter fun piece => piece.text ≠ ['\n']).flatMap Piece.text ∧
      ('\n' ∉ raw → Segment.reconstruct raw (r.parse raw) = raw) ∧
      ∀ size, Segment.reconstruct raw (Segment.ensureTrailingNewline size (r.parse raw)) =
        Segment.reconstruct raw (r.parse raw) :=
  ⟨keeps_parse r raw, flatMap_text_split r raw, reconstruct_parse r raw,
    reconstruct_parse_of_notMem r, fun size => reconstruct_ensureTrailingNewline raw size _⟩

/-- A tag that is never closed is kept as plain text. -/
theorem reconstruct_unclosed_tag :
    '\n' ∉ "é<font>x</font><img".toList ∧
      Segment.reconstruct "é<font>x</font><img".toList
        (builtin.parse "é<font>x</font><img".toList) = "é<font>x</font><img".toList :=
  ⟨by decide, (parse_keeps_all_but_newlines builtin _).2.2.2.1 (by decide)⟩

end Registry

end Changelog
