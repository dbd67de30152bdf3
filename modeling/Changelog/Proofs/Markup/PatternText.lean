import Changelog.Markup.Pattern
import Changelog.Proofs.Markup.Registration

/-! Where the pattern of a registry has its backslashes. The pattern is compared with the text of its groups
before any escaping, in which every character is known by the place it comes from. The slashes of a marker
are escaped wherever the marker is written, but for one place: in front of a closing marker the opening one is
written as it is. -/

namespace Changelog

/-- Where a character of a pattern comes from. -/
inductive Origin where
  /-- The signs of the groups. -/
  | frame
  /-- An opening marker in front of the closing one. -/
  | opener
  | closer
  /-- An opening marker that is the whole tag. -/
  | alone
  /-- An opening marker in the group for plain text. -/
  | ahead
  /-- A backslash that the escaping adds. -/
  | escape
deriving DecidableEq, Repr

/-- Whether the characters are those of a marker. -/
def Origin.isMarker : Origin → Bool
  | frame | escape => false
  | opener | closer | alone | ahead => true

/-- A character of a pattern with its origin. -/
structure Glyph where
  char : Char
  origin : Origin
deriving DecidableEq, Repr

namespace Glyph

variable {g : Glyph} {glyphs before after : List Glyph} {origin : Origin} {text : Text}

/-- The backslash that escapes a slash. -/
def backslash : Glyph := ⟨'\\', .escape⟩

/-- A text of one origin. -/
def row (origin : Origin) (text : Text) : List Glyph :=
  text.map fun c => ⟨c, origin⟩

/-- Whether no escaping has taken place. -/
def Unescaped (glyphs : List Glyph) : Prop :=
  ∀ g ∈ glyphs, g.origin ≠ .escape

@[simp] theorem unescaped_append {more : List Glyph} :
    Unescaped (glyphs ++ more) ↔ Unescaped glyphs ∧ Unescaped more :=
  List.forall_mem_append

@[simp] theorem unescaped_flatMap {α : Type} {l : List α} {f : α → List Glyph} :
    Unescaped (l.flatMap f) ↔ ∀ a ∈ l, Unescaped (f a) :=
  List.forall_mem_flatMap

theorem unescaped_row (h : origin ≠ .escape) (text : Text) : Unescaped (row origin text) := by
  simp [Unescaped, row, h]

/-- A slash of a marker. -/
def IsSlash (g : Glyph) : Prop :=
  g.char = '/' ∧ g.origin.isMarker

instance : DecidablePred IsSlash :=
  fun g => inferInstanceAs (Decidable (g.char = '/' ∧ g.origin.isMarker))

/-- Whether each slash of a marker comes right after a backslash that escapes it. -/
def AllEscaped (glyphs : List Glyph) : Prop :=
  ∀ before g after, glyphs = before ++ g :: after → g.IsSlash → before.getLast? = some backslash

/-- Whether the slash is one that a pattern escapes. -/
def IsGuarded (g : Glyph) : Prop :=
  g.IsSlash ∧ g.origin ≠ .opener

instance : DecidablePred IsGuarded :=
  fun g => inferInstanceAs (Decidable (g.IsSlash ∧ g.origin ≠ .opener))

/-- The glyphs with a backslash in front of every slash that is escaped. -/
def withEscapes (glyphs : List Glyph) : List Glyph :=
  glyphs.flatMap fun g => if g.IsGuarded then [backslash, g] else [g]

@[simp] theorem not_isSlash_backslash : ¬ backslash.IsSlash := by
  simp [IsSlash, backslash]

@[simp] theorem not_isGuarded_backslash : ¬ backslash.IsGuarded :=
  fun h => not_isSlash_backslash h.1

@[simp] theorem withEscapes_append (glyphs more : List Glyph) :
    withEscapes (glyphs ++ more) = withEscapes glyphs ++ withEscapes more :=
  List.flatMap_append

theorem withEscapes_cons (g : Glyph) (rest : List Glyph) :
    withEscapes (g :: rest) = (if g.IsGuarded then [backslash, g] else [g]) ++ withEscapes rest :=
  List.flatMap_cons

/-- Escaping goes character by character, so it may be done part by part. -/
theorem withEscapes_flatMap {α : Type} (l : List α) (f : α → List Glyph) :
    withEscapes (l.flatMap f) = l.flatMap fun a => withEscapes (f a) :=
  List.flatMap_assoc

/-- In the text of a marker it does what the escaping of texts does, unless the marker stands before its
closing one. -/
theorem map_char_withEscapes_row (origin : Origin) (text : Text) :
    (withEscapes (row origin text)).map char =
      if origin.isMarker ∧ origin ≠ .opener then escapeSlashes text else text := by
  induction text with
  | nil => simp [withEscapes, row, escapeSlashes]
  | cons c rest ih =>
      have hRow : row origin (c :: rest) = ⟨c, origin⟩ :: row origin rest := rfl
      rw [hRow, withEscapes_cons, List.map_append, ih]
      by_cases hOrigin : origin.isMarker ∧ origin ≠ .opener <;> by_cases hSlash : c = '/' <;>
        simp [IsGuarded, IsSlash, escapeSlashes, backslash, hOrigin, hSlash]

/-- The groups are left when the escaping is taken away. -/
theorem filter_withEscapes (h : Unescaped glyphs) :
    (withEscapes glyphs).filter (fun g => g.origin ≠ .escape) = glyphs := by
  induction glyphs with
  | nil => rfl
  | cons g rest ih =>
      obtain ⟨hFirst, hRest⟩ := List.forall_mem_cons.1 h
      rw [withEscapes_cons, List.filter_append, ih hRest]
      by_cases hGuarded : g.IsGuarded <;> simp [hGuarded, hFirst, backslash]

theorem eq_backslash_or_mem_of_mem_withEscapes (h : g ∈ withEscapes glyphs) :
    g = backslash ∨ g ∈ glyphs := by
  obtain ⟨other, hOther, hMem⟩ := List.mem_flatMap.1 h
  split at hMem
  · rcases List.mem_pair.1 hMem with rfl | rfl
    · exact .inl rfl
    · exact .inr hOther
  · exact .inr (List.mem_singleton.1 hMem ▸ hOther)

/-- As many backslashes are added as there are slashes to be escaped. -/
theorem length_withEscapes (glyphs : List Glyph) :
    (withEscapes glyphs).length = glyphs.length + glyphs.countP fun g => g.IsGuarded := by
  induction glyphs with
  | nil => rfl
  | cons g rest ih =>
      rw [withEscapes_cons, List.length_append, ih, List.countP_cons]
      by_cases hGuarded : g.IsGuarded <;> simp [hGuarded] <;> omega

/-- A backslash comes before its slash, so the end stays the same. -/
theorem getLast?_withEscapes (glyphs : List Glyph) :
    (withEscapes glyphs).getLast? = glyphs.getLast? := by
  rcases List.eq_nil_or_concat glyphs with rfl | ⟨front, g, rfl⟩
  · rfl
  · rw [List.concat_eq_append, withEscapes_append]
    by_cases hGuarded : g.IsGuarded <;> simp [withEscapes, hGuarded]

/-- A backslash of the escaping stands in front of the slashes that are escaped, and nowhere else. -/
theorem getLast?_eq_backslash_iff (h : Unescaped glyphs)
    (hSplit : withEscapes glyphs = before ++ g :: after) :
    before.getLast? = some backslash ↔ g.IsGuarded := by
  -- the last glyph adds one or two places at the end; those before it are places of the shorter text
  induction glyphs using List.reverseRecOn generalizing after with
  | nil => simp [withEscapes] at hSplit
  | append_singleton glyphs x ih =>
      have hFront : Unescaped glyphs := (unescaped_append.1 h).1
      have hLast : (withEscapes glyphs).getLast? ≠ some backslash := fun hLast =>
        hFront _ (List.mem_of_getLast? (getLast?_withEscapes glyphs ▸ hLast)) rfl
      by_cases hGuarded : x.IsGuarded
      · have hText : withEscapes (glyphs ++ [x]) = withEscapes glyphs ++ [backslash] ++ [x] := by
          simp [withEscapes, hGuarded]
        rw [hText, concat_eq_append_cons_iff] at hSplit
        rcases hSplit with ⟨rfl, rfl, -⟩ | ⟨more, hSplit, -⟩
        · simp [hGuarded]
        rcases concat_eq_append_cons_iff.1 hSplit with ⟨rfl, rfl, -⟩ | ⟨more, hSplit, -⟩
        · simp [hLast]
        · exact ih hFront hSplit
      · have hText : withEscapes (glyphs ++ [x]) = withEscapes glyphs ++ [x] := by
          simp [withEscapes, hGuarded]
        rw [hText, concat_eq_append_cons_iff] at hSplit
        rcases hSplit with ⟨rfl, rfl, -⟩ | ⟨more, hSplit, -⟩
        · simp [hLast, hGuarded]
        · exact ih hFront hSplit

/-- Slashes that are all escaped need a backslash each. A backslash at the end has no slash yet. -/
theorem AllEscaped.countP_le (h : AllEscaped glyphs) :
    (glyphs.countP fun g => g.IsSlash) + (if glyphs.getLast? = some backslash then 1 else 0) ≤
      glyphs.countP fun g => g.origin = .escape := by
  induction glyphs using List.reverseRecOn with
  | nil => simp
  | append_singleton glyphs x ih =>
      have hFront : AllEscaped glyphs := fun before g after hSplit =>
        h before g (after ++ [x]) (by simp [hSplit])
      have hCount := ih hFront
      simp only [List.countP_append, List.countP_singleton, List.getLast?_concat, Option.some.injEq]
      by_cases hSlash : x.IsSlash
      · have hLast := h glyphs x [] rfl hSlash
        have hOther : x ≠ backslash := fun hx => not_isSlash_backslash (hx ▸ hSlash)
        rw [if_pos hLast] at hCount
        simp only [hSlash, hOther, decide_true, if_true, if_false]
        omega
      by_cases hBackslash : x = backslash
      · have hEscape : decide (x.origin = .escape) = true := by simp [hBackslash, backslash]
        simp only [hSlash, hEscape, decide_false, if_pos hBackslash, if_true]
        split at hCount <;> grind
      · simp only [hSlash, hBackslash, decide_false, if_false]
        grind

/-- A slash of an opening marker before a closing one is among the slashes, but is not escaped. -/
theorem countP_isGuarded_lt (h : ⟨'/', .opener⟩ ∈ glyphs) :
    (glyphs.countP fun g => g.IsGuarded) < glyphs.countP fun g => g.IsSlash := by
  have hSplit := List.countP_eq_countP_filter_add glyphs (fun g => g.IsSlash) (fun g => g.origin ≠ .opener)
  have hBare : 0 < (glyphs.filter fun g => !decide (g.origin ≠ .opener)).countP fun g => g.IsSlash :=
    List.countP_pos_iff.2 ⟨⟨'/', .opener⟩, by simp [h], by simp [IsSlash, Origin.isMarker]⟩
  have hGuarded : (glyphs.filter fun g => g.origin ≠ .opener).countP (fun g => g.IsSlash) =
      glyphs.countP fun g => g.IsGuarded := by
    rw [List.countP_filter]
    apply List.countP_congr
    intro g _
    simp only [Bool.and_eq_true, decide_eq_true_eq]
    rfl
  omega

end Glyph

open Glyph

/-- The group of a tag before escaping. -/
def TagDefinition.group (d : TagDefinition) : List Glyph :=
  let markers :=
    match d.closer with
    | some closer => row .opener d.opener ++ row .frame ['.', '*', '?'] ++ row .closer closer
    | none => row .alone d.opener
  row .frame ['('] ++ markers ++ row .frame [')']

namespace Registry

variable {r : Registry} {glyphs : List Glyph}

/-- The groups of the tags in their order and the group for plain text, before escaping. -/
def groups (r : Registry) : List Glyph :=
  (r.tags.flatMap fun d => d.group ++ row .frame ['|']) ++
    row .frame ['(', '.', '+', '?', '(', '?', '='] ++
    (r.openers.flatMap fun opener => row .ahead opener ++ row .frame ['|']) ++ row .frame ['$', ')', ')']

/-- Glyphs that tell where every character of the pattern comes from. Whatever the escaping adds is a
backslash; without these backslashes the groups are left. -/
structure Spells (r : Registry) (glyphs : List Glyph) : Prop where
  text_eq : glyphs.map Glyph.char = r.pattern
  erased : glyphs.filter (fun g => g.origin ≠ .escape) = r.groups
  added : ∀ g ∈ glyphs, g.origin = .escape → g = backslash

/-- The groups have no backslash of the escaping before it takes place. -/
theorem unescaped_groups (r : Registry) : Unescaped r.groups := by
  have hGroup (d : TagDefinition) : Unescaped d.group := by
    unfold TagDefinition.group
    cases d.closer <;> simp [unescaped_row]
  simp [groups, unescaped_row, hGroup]

/-- Escaping the groups gives the pattern. -/
theorem map_char_withEscapes_groups (r : Registry) :
    (withEscapes r.groups).map Glyph.char = r.pattern := by
  have hGroup (d : TagDefinition) : (withEscapes d.group).map Glyph.char = d.pattern := by
    unfold TagDefinition.group TagDefinition.pattern
    cases d.closer <;> simp [map_char_withEscapes_row, Origin.isMarker]
  simp [groups, pattern, withEscapes_flatMap, List.map_flatMap, map_char_withEscapes_row, hGroup,
    Origin.isMarker]

/-- So there is at least one way to tell where the characters of a pattern come from. -/
theorem spells_withEscapes (r : Registry) : r.Spells (withEscapes r.groups) where
  text_eq := r.map_char_withEscapes_groups
  erased := filter_withEscapes r.unescaped_groups
  added g hg hEscape := (eq_backslash_or_mem_of_mem_withEscapes hg).resolve_right fun hMem =>
    r.unescaped_groups g hMem hEscape

/-- A slash that stays as it is comes from a tag with a closing marker. -/
theorem slash_mem_groups_iff (r : Registry) :
    ⟨'/', .opener⟩ ∈ r.groups ↔ ∃ d ∈ r.tags, d.closer ≠ none ∧ '/' ∈ d.opener := by
  have hGroup (d : TagDefinition) :
      ⟨'/', .opener⟩ ∈ d.group ↔ d.closer ≠ none ∧ '/' ∈ d.opener := by
    unfold TagDefinition.group
    cases d.closer <;> simp [row]
  simp [groups, hGroup, row]

/-- However the pattern is read, it has as many backslashes of the escaping as slashes that are escaped. -/
theorem Spells.countP_escape (h : r.Spells glyphs) :
    (glyphs.countP fun g => g.origin = .escape) = r.groups.countP fun g => g.IsGuarded := by
  have hLength : glyphs.length = (withEscapes r.groups).length := by
    rw [← List.length_map Glyph.char, h.text_eq, ← map_char_withEscapes_groups, List.length_map]
  have hSplit : glyphs.length =
      (glyphs.countP fun g => g.origin = .escape) + (glyphs.filter fun g => g.origin ≠ .escape).length := by
    rw [List.length_eq_countP_add_countP (fun g => g.origin = .escape), ← List.countP_eq_length_filter]
    simp
  rw [length_withEscapes] at hLength
  rw [h.erased] at hSplit
  omega

/-- The slashes of the markers are those of the groups, since the escaping adds none. -/
theorem Spells.countP_isSlash (h : r.Spells glyphs) :
    (glyphs.countP fun g => g.IsSlash) = r.groups.countP fun g => g.IsSlash := by
  rw [← h.erased, List.countP_filter]
  apply List.countP_congr
  intro g _
  have hOrigin : g.IsSlash → g.origin ≠ .escape := fun hSlash hEscape => by
    simp [IsSlash, hEscape, Origin.isMarker] at hSlash
  simpa using hOrigin

/-- The slashes of the markers are all escaped if and only if no tag with a closing marker has a slash in its
opening one. -/
theorem spells_allEscaped_iff (r : Registry) :
    (∃ glyphs, r.Spells glyphs ∧ AllEscaped glyphs) ↔
      ∀ d ∈ r.tags, d.closer ≠ none → '/' ∉ d.opener := by
  have hBare : (∀ d ∈ r.tags, d.closer ≠ none → '/' ∉ d.opener) ↔ ⟨'/', .opener⟩ ∉ r.groups := by
    rw [slash_mem_groups_iff]
    simp
  rw [hBare]
  constructor
  · -- all readings have equally many slashes and backslashes, so one slash would be left over
    rintro ⟨glyphs, hSpells, hEscaped⟩ hMem
    have hFew := hEscaped.countP_le
    rw [hSpells.countP_isSlash, hSpells.countP_escape] at hFew
    have hMore := countP_isGuarded_lt hMem
    omega
  · intro hNot
    refine ⟨withEscapes r.groups, r.spells_withEscapes, fun before g after hSplit hSlash => ?_⟩
    rw [getLast?_eq_backslash_iff r.unescaped_groups hSplit]
    refine ⟨hSlash, fun hOrigin => hNot ?_⟩
    have hMem : g ∈ withEscapes r.groups := by simp [hSplit]
    have hGlyph : g = ⟨'/', .opener⟩ := by rw [← hSlash.1, ← hOrigin]
    rcases eq_backslash_or_mem_of_mem_withEscapes hMem with rfl | hGroups
    · exact absurd hSlash not_isSlash_backslash
    · exact hGlyph ▸ hGroups

/-- The pattern of a registry after any registrations. It consists of the groups of the tags that are left,
and of backslashes, one in front of each slash of a marker except where an opening marker stands before its
closing one. So every slash is escaped if and only if these opening markers have none. -/
theorem pattern_escapes (definitions : List TagDefinition) :
    let r := ofDefinitions definitions
    Registered definitions r.tags ∧
      (∃ glyphs, r.Spells glyphs ∧ ∀ before g after, glyphs = before ++ g :: after →
        (before.getLast? = some backslash ↔ g.IsSlash ∧ g.origin ≠ .opener)) ∧
      ((∃ glyphs, r.Spells glyphs ∧ AllEscaped glyphs) ↔
        ∀ d ∈ r.tags, d.closer ≠ none → '/' ∉ d.opener) := by
  intro r
  refine ⟨registered_ofDefinitions definitions, ⟨withEscapes r.groups, r.spells_withEscapes, ?_⟩,
    r.spells_allEscaped_iff⟩
  intro before g after hSplit
  exact getLast?_eq_backslash_iff r.unescaped_groups hSplit

/-- The slash of an opening marker is printed as it is in front of the closing marker, and with a backslash
in the group for plain text. -/
theorem slash_of_opener_bare :
    let r := ofDefinitions [.ofMarkers .title "<a/>".toList (some "</a>".toList)]
    r.pattern = "(<a/>.*?<\\/a>)|(.+?(?=<a\\/>|$))".toList ∧
      ¬ ∃ glyphs, r.Spells glyphs ∧ AllEscaped glyphs := by
  intro r
  refine ⟨by decide, fun hEscaped => ?_⟩
  rw [spells_allEscaped_iff] at hEscaped
  revert hEscaped
  decide

end Registry

end Changelog
