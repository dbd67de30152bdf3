import Changelog.Layout.Container
import Changelog.Proofs.Attribute.Token
import Changelog.Proofs.Notice

/-! Which failures of attribute tokens share a key, so that only the first of them is logged. A failure is
reported under its token, or, if the name is not recognised, under the name in capital letters. A token
without equals sign may be spelled like such a name; no other two kinds of failure can meet. -/

namespace Changelog

namespace Text

variable {c : Char} {text : Text}

theorem eq_of_ofNat {n : Nat} (h : Char.ofNat n = '=') : n = 61 := by
  by_cases hValid : n.isValidChar
  · have hSame : Char.ofNat n = Char.ofNatAux n hValid := dif_pos hValid
    exact congrArg Char.toNat (hSame.symm.trans h)
  · have hNull : Char.ofNat n = '\x00' := dif_neg hValid
    exact absurd (hNull.symm.trans h) (by decide)

/-- No other character has a capital form with an equals sign in it. -/
theorem eq_of_mem_upperChar (h : '=' ∈ upperChar c) : c = '=' := by
  have hAscii : ∀ n < 128, '=' ∈ upperChar (Char.ofNat n) → Char.ofNat n = '=' := by decide
  have hLong : ∀ entry ∈ longCapitals, 61 ∉ entry.2 := by decide
  have hRuns : ∀ run ∈ caseRuns, 61 < run.first + run.shift := by decide +kernel
  by_cases hSmall : c.toNat < 128
  · rw [← Char.ofNat_toNat c] at h ⊢
    exact hAscii _ hSmall h
  · unfold upperChar at h
    rw [if_neg hSmall] at h
    split at h
    · rename_i entry capitals hFound
      obtain ⟨n, hMem, hEquals⟩ := List.mem_map.1 h
      exact absurd (eq_of_ofNat hEquals ▸ hMem) (hLong _ (List.mem_of_find?_eq_some hFound))
    · split at h
      · rename_i run hFound
        have hShift := hRuns run (List.mem_of_find?_eq_some hFound)
        have hFirst := List.find?_some hFound
        have hEquals := eq_of_ofNat (List.mem_singleton.1 h).symm
        simp at hFirst
        omega
      · exact (List.mem_singleton.1 h).symm

/-- Capital letters bring no equals sign into a text, so a name that has none is never confused with a token
that is not split. -/
theorem not_mem_upper (h : '=' ∉ text) : '=' ∉ upper text := by
  intro hMem
  obtain ⟨c, hc, hCapital⟩ := List.mem_flatMap.1 hMem
  exact h (eq_of_mem_upperChar hCapital ▸ hc)

theorem mem_of_mem_trimBy {p : Char → Bool} (h : c ∈ trimBy p text) : c ∈ text := by
  have hFront := List.mem_reverse.1 ((List.dropWhile_sublist p).subset (List.mem_reverse.1 h))
  exact (List.dropWhile_sublist p).subset hFront

theorem not_mem_of_splitOnce? (h : splitOnce? (· == c) text = none) : c ∉ text := by
  intro hMem
  obtain ⟨front, back, hText, hFirst⟩ := List.eq_append_cons_of_mem hMem
  exact nomatch h.symm.trans (splitOnce?_eq_some_iff.2 ⟨hText, hFirst⟩)

end Text

/-- Which of the three errors it is. -/
inductive AttributeError.Kind where
  | missingSeparator
  | invalidValue
  | unrecognized
deriving DecidableEq, Repr

def AttributeError.kind : AttributeError → AttributeError.Kind
  | missingSeparator _ => .missingSeparator
  | invalidValue .. => .invalidValue
  | unrecognized .. => .unrecognized

namespace Attribute

/-- A token that cannot be used in a tag, and why. -/
structure Failure where
  tag : TagKind
  token : Text
  error : AttributeError
deriving DecidableEq, Repr

namespace Failure

/-- What a failure is reported for: the token, or the name that is not recognised, in capital letters. -/
def subject (f : Failure) : Text :=
  match f.error with
  | .unrecognized rawName _ => Text.upper (unquote rawName)
  | _ => f.token

def key (f : Failure) : Text :=
  noticeKey f.tag f.subject

/-- The notice about a failure. -/
def notice (f : Failure) : Notice :=
  { severity := if f.error.kind = .unrecognized then .warning else .error
    key := f.key
    message := f.error.message }

/-- Failures that are one and the same to a reader of the log: of one kind, for one token or one name. -/
def SameOccasion (f g : Failure) : Prop :=
  f.tag = g.tag ∧ f.error.kind = g.error.kind ∧ f.subject = g.subject

/-- The token that `f` is about has no equals sign and is spelled like the name, in capital letters, that
`g` is about. -/
def SpelledLike (f g : Failure) : Prop :=
  f.tag = g.tag ∧ f.error.kind = .missingSeparator ∧ g.error.kind = .unrecognized ∧
    f.token = g.subject

/-- Two failures of different kinds with one key. -/
def Clash (f g : Failure) : Prop :=
  f.SpelledLike g ∨ g.SpelledLike f

instance (f g : Failure) : Decidable (f.SameOccasion g) :=
  inferInstanceAs (Decidable (_ ∧ _ ∧ _))

instance (f g : Failure) : Decidable (f.SpelledLike g) :=
  inferInstanceAs (Decidable (_ ∧ _ ∧ _ ∧ _))

instance (f g : Failure) : Decidable (f.Clash g) :=
  inferInstanceAs (Decidable (_ ∨ _))

end Failure

/-- The hook fails only at values that do not convert. -/
def Grammar.HookConverts (g : Grammar) : Prop :=
  ∀ name value error, g.hook name value = some (.error error) → error.kind = .invalidValue

/-- Why a token cannot be used, if it cannot. -/
def Grammar.error? (g : Grammar) (token : Text) : Option AttributeError :=
  match Text.splitOnce? (· == '=') token with
  | none => some (.missingSeparator token)
  | some (rawName, rawValue) =>
    match g.value? (Text.upper (unquote rawName)) (unquote rawValue) with
    | some (.ok _) => none
    | some (.error error) => some error
    | none => some (.unrecognized rawName g.tag)

def Grammar.failure? (g : Grammar) (token : Text) : Option Failure :=
  (g.error? token).map fun error => { tag := g.tag, token, error }

/-- The failures in a bracket, from left to right. -/
def Grammar.failures (g : Grammar) (bracket : Text) : List Failure :=
  (tokens bracket).filterMap g.failure?

variable {g : Grammar} {token name value : Text} {error : AttributeError} {f f' : Failure}

/-- Converting a value fails in one way only. -/
theorem kind_of_convert {type : AttributeType} (h : convert name value type = .error error) :
    error.kind = .invalidValue := by
  cases type with
  | int =>
      dsimp only [convert] at h
      split at h
      · cases h
      · cases h
        rfl
  | dimensions =>
      dsimp only [convert] at h
      split at h
      · cases h
      · cases h
        rfl

theorem Grammar.HookConverts.kind_of_value? (hHook : g.HookConverts)
    (h : g.value? name value = some (.error error)) : error.kind = .invalidValue := by
  unfold Grammar.value? at h
  split at h
  · exact kind_of_convert (Option.some.inj h)
  · exact hHook name value error h

/-- No tag of the format has a hook that fails for another reason, so the assumption made of a grammar below
costs nothing. -/
theorem hookConverts_grammar (kind : TagKind) : (Container.grammar kind).HookConverts := by
  intro name value error h
  cases kind with
  | font | anchor | title | image => cases h
  | gif =>
      dsimp only [Container.grammar, Container.animationHook] at h
      split at h
      · exact kind_of_convert (Option.some.inj h)
      · cases h

/-- The three ways to fail: the token has no equals sign, its value does not convert, or nothing covers
its name. -/
theorem Grammar.HookConverts.cases_of_error? (hHook : g.HookConverts)
    (h : g.error? token = some error) :
    error = .missingSeparator token ∧ '=' ∉ token ∨
      error.kind = .invalidValue ∧ '=' ∈ token ∨
      ∃ rawName, error = .unrecognized rawName g.tag ∧ '=' ∉ rawName := by
  unfold Grammar.error? at h
  cases hSplit : Text.splitOnce? (· == '=') token with
  | none =>
      rw [hSplit] at h
      exact .inl ⟨(Option.some.inj h).symm, Text.not_mem_of_splitOnce? hSplit⟩
  | some parts =>
      obtain ⟨rawName, rawValue⟩ := parts
      obtain ⟨rfl, hPlain⟩ := Text.splitOnce?_eq_some_iff.1 hSplit
      rw [hSplit] at h
      dsimp only at h
      split at h
      · cases h
      · rename_i hValue
        obtain rfl := Option.some.inj h
        exact .inr (.inl ⟨hHook.kind_of_value? hValue, List.mem_append_right _ List.mem_cons_self⟩)
      · exact .inr (.inr ⟨rawName, (Option.some.inj h).symm, hPlain⟩)

/-- A key can be taken apart again: the tag ends at the colon, and everything behind it is the subject. -/
theorem noticeKey_inj {tag other : TagKind} {subject text : Text} :
    noticeKey tag subject = noticeKey other text ↔ tag = other ∧ subject = text := by
  cases tag <;> cases other <;> simp [noticeKey, TagKind.name]

namespace Failure

/-- Some grammar fails in this way, whose hook fails only at values. -/
def Arises (f : Failure) : Prop :=
  ∃ g : Grammar, g.HookConverts ∧ g.failure? f.token = some f

/-- Unless the name is the reason, a failure is reported under the token as it stands in the bracket. -/
theorem subject_eq_token {kind : AttributeError.Kind} (hKind : f.error.kind = kind)
    (h : kind ≠ .unrecognized) : f.subject = f.token := by
  unfold subject
  split
  · rename_i hError
    rw [hError] at hKind
    exact absurd hKind.symm h
  · rfl

/-- Only values that do not convert are reported under a subject with an equals sign. -/
theorem Arises.mem_subject_iff (h : f.Arises) : '=' ∈ f.subject ↔ f.error.kind = .invalidValue := by
  obtain ⟨g, hHook, hFails⟩ := h
  obtain ⟨error, hError, hf⟩ := Option.map_eq_some_iff.1 hFails
  have hSame : f.error = error := congrArg Failure.error hf.symm
  rcases hHook.cases_of_error? hError with ⟨rfl, hPlain⟩ | ⟨hKind, hMem⟩ | ⟨rawName, rfl, hPlain⟩
  · have hKind : f.error.kind = .missingSeparator := congrArg AttributeError.kind hSame
    rw [subject_eq_token hKind nofun, hKind]
    exact iff_of_false hPlain nofun
  · have hKind : f.error.kind = .invalidValue := hSame ▸ hKind
    rw [subject_eq_token hKind nofun, hKind]
    exact iff_of_true hMem rfl
  · have hSubject : f.subject = Text.upper (unquote rawName) := by rw [subject, hSame]
    have hUnquoted : '=' ∉ unquote rawName := fun hMem => hPlain (Text.mem_of_mem_trimBy hMem)
    rw [hSubject, hSame]
    exact iff_of_false (Text.not_mem_upper hUnquoted) nofun

/-- Two failures of one tag have one key just when they have one subject, whatever the failures are
about. -/
theorem key_eq_key_iff : f.key = f'.key ↔ f.tag = f'.tag ∧ f.subject = f'.subject :=
  noticeKey_inj

theorem SpelledLike.key_eq (h : f.SpelledLike f') : f.key = f'.key := by
  obtain ⟨hTag, hKind, -, hToken⟩ := h
  refine key_eq_key_iff.2 ⟨hTag, ?_⟩
  rw [subject_eq_token hKind nofun, hToken]

/-- A clash is seen in the keys, whichever of the two failures comes first. -/
theorem Clash.key_eq (h : f.Clash f') : f.key = f'.key :=
  h.elim SpelledLike.key_eq fun h => h.key_eq.symm

/-- Failures of different kinds have one key only if they clash. -/
theorem Arises.key_eq_iff (h : f.Arises) (h' : f'.Arises) :
    f.key = f'.key ↔ f.SameOccasion f' ∨ f.Clash f' := by
  constructor
  · intro hKey
    obtain ⟨hTag, hSubject⟩ := key_eq_key_iff.1 hKey
    have hInvalid : f.error.kind = .invalidValue ↔ f'.error.kind = .invalidValue := by
      rw [← h.mem_subject_iff, ← h'.mem_subject_iff, hSubject]
    unfold SameOccasion Clash SpelledLike
    cases hKind : f.error.kind with
    | invalidValue => exact .inl ⟨hTag, (hInvalid.1 hKind).symm, hSubject⟩
    | missingSeparator =>
        have hToken : f.subject = f.token := subject_eq_token hKind nofun
        cases hKind' : f'.error.kind with
        | invalidValue => exact nomatch hKind.symm.trans (hInvalid.2 hKind')
        | missingSeparator => exact .inl ⟨hTag, rfl, hSubject⟩
        | unrecognized => exact .inr (.inl ⟨hTag, rfl, rfl, hToken.symm.trans hSubject⟩)
    | unrecognized =>
        cases hKind' : f'.error.kind with
        | invalidValue => exact nomatch hKind.symm.trans (hInvalid.2 hKind')
        | missingSeparator =>
            have hToken : f'.subject = f'.token := subject_eq_token hKind' nofun
            exact .inr (.inr ⟨hTag.symm, rfl, rfl, hToken.symm.trans hSubject.symm⟩)
        | unrecognized => exact .inl ⟨hTag, rfl, hSubject⟩
  · rintro (⟨hTag, -, hSubject⟩ | hClash)
    · exact key_eq_key_iff.2 ⟨hTag, hSubject⟩
    · exact hClash.key_eq

end Failure

/-- A token that cannot be used gives the notice about its failure. -/
theorem Grammar.HookConverts.readToken (hHook : g.HookConverts) (token : Text) :
    (match g.readToken token with
      | .ok _ => none
      | .error notice => some notice) = (g.failure? token).map Failure.notice := by
  unfold Grammar.readToken Grammar.failure? Grammar.error?
  cases Text.splitOnce? (· == '=') token with
  | none => rfl
  | some parts =>
      dsimp only
      cases hValue : g.value? (Text.upper (unquote parts.1)) (unquote parts.2) with
      | none => rfl
      | some converted =>
          cases converted with
          | ok value => rfl
          | error error =>
              have hKind := hHook.kind_of_value? hValue
              have hSubject : Failure.subject ⟨g.tag, token, error⟩ = token :=
                Failure.subject_eq_token hKind nofun
              simp [Failure.notice, Failure.key, hKind, hSubject]

/-- The notices of a bracket are those of its failures, in their order. -/
theorem Grammar.HookConverts.notices_parse (hHook : g.HookConverts) (bracket : Text) :
    (g.parse bracket).notices = (g.failures bracket).map Failure.notice := by
  unfold Grammar.parse noticesOf Grammar.failures
  dsimp only
  rw [List.filterMap_map, List.map_filterMap]
  exact congrArg (List.filterMap · (tokens bracket)) (funext hHook.readToken)

/-- Each failure in a bracket is one that its own token leads to. -/
theorem Grammar.HookConverts.arises (hHook : g.HookConverts) {bracket : Text}
    (h : f ∈ g.failures bracket) : f.Arises := by
  obtain ⟨token, -, hFails⟩ := List.mem_filterMap.1 h
  have hToken : f.token = token := by
    obtain ⟨error, -, rfl⟩ := Option.map_eq_some_iff.1 hFails
    rfl
  exact ⟨g, hHook, hToken ▸ hFails⟩

/-- The failures in some brackets, each with its grammar. -/
def failuresIn (brackets : List (Grammar × Text)) : List Failure :=
  brackets.flatMap fun (g, bracket) => g.failures bracket

/-- The notices that reading the brackets gives rise to. -/
def noticesIn (brackets : List (Grammar × Text)) : List Notice :=
  brackets.flatMap fun (g, bracket) => (g.parse bracket).notices

/-- Failures of different kinds have different keys, unless a token without equals sign is spelled like an
unrecognised name in capital letters. So whatever brackets are read one after the other, every failure is
logged when it first occurs, unless it clashes with one before it. No failure is logged twice. -/
theorem logged_unless_clash (log : OnceLog)
    (hLog : ∀ tag subject, noticeKey tag subject ∉ log.reported)
    (brackets : List (Grammar × Text)) (hHooks : ∀ read ∈ brackets, read.1.HookConverts) :
    (∀ f f' : Failure, f.Arises → f'.Arises → f.error.kind ≠ f'.error.kind →
      (f.key = f'.key ↔ f.Clash f')) ∧
    noticesIn brackets = (failuresIn brackets).map Failure.notice ∧
    ∀ earlier f later, failuresIn brackets = earlier ++ f :: later →
      ((log.reportAll (earlier.map Failure.notice)).1.report f.notice).2 =
        if ∃ other ∈ earlier, other.SameOccasion f ∨ other.Clash f then none else some f.notice := by
  have hArises : ∀ f ∈ failuresIn brackets, f.Arises := by
    intro f hf
    obtain ⟨read, hRead, hFails⟩ := List.mem_flatMap.1 hf
    exact (hHooks read hRead).arises hFails
  refine ⟨fun f f' h h' hKinds => ?_, ?_, fun earlier f later hSplit => ?_⟩
  · rw [h.key_eq_iff h', or_iff_right]
    exact fun hSame => hKinds hSame.2.1
  · unfold noticesIn failuresIn
    rw [List.map_flatMap]
    exact List.flatMap_congr fun read hRead => (hHooks read hRead).notices_parse read.2
  · rw [hSplit, List.forall_mem_append] at hArises
    obtain ⟨hEarlier, hRest⟩ := hArises
    have hf : f.Arises := hRest f List.mem_cons_self
    rw [OnceLog.report_reportAll]
    refine if_congr ?_ rfl rfl
    have hNew : f.notice.key ∉ log.reported := hLog f.tag f.subject
    rw [or_iff_right hNew, List.map_map, List.mem_map]
    exact exists_congr fun other =>
      and_congr_right fun hOther => (hEarlier other hOther).key_eq_iff hf

/-- Two brackets with failures of all three kinds. The one about the value is logged, after others and
although the name has occurred with a value that does convert. -/
theorem wide_logged :
    let image := Container.grammar .image
    let brackets := [(image, "WIDTH=10 junk color=1>a".toList), (image, "WIDTH=wide COLOR=2>b".toList)]
    let wide : Failure := ⟨.image, "WIDTH=wide".toList, .invalidValue "WIDTH".toList "wide".toList .int⟩
    ∃ earlier later, failuresIn brackets = earlier ++ wide :: later ∧ earlier.length = 2 ∧
      ((({} : OnceLog).reportAll (earlier.map Failure.notice)).1.report wide.notice).2 =
        some wide.notice := by
  intro image brackets wide
  have hFailures : failuresIn brackets = (failuresIn brackets).take 2 ++
      wide :: (failuresIn brackets).drop 3 := by decide +kernel
  have hHooks : ∀ read ∈ brackets, read.1.HookConverts := by
    simp [brackets, image, hookConverts_grammar]
  have hLogged := (logged_unless_clash {} (fun _ _ => List.not_mem_nil) brackets hHooks).2.2 _ _ _ hFailures
  refine ⟨_, _, hFailures, by decide +kernel, hLogged.trans (if_neg ?_)⟩
  decide +kernel

/-- One failure hides another of a different kind, whichever comes first: they have the same key. -/
theorem clash_hides_failure :
    let image := Container.grammar .image
    let separator : Failure := ⟨.image, "COLOR".toList, .missingSeparator "COLOR".toList⟩
    let name : Failure := ⟨.image, "color=red".toList, .unrecognized "color".toList .image⟩
    image.failures "COLOR color=red>x".toList = [separator, name] ∧
      image.failures "color=red COLOR>x".toList = [name, separator] ∧
      separator.key = "attribute:Image:COLOR".toList ∧ name.key = separator.key ∧
      (({} : OnceLog).reportAll [separator.notice, name.notice]).2 = [separator.notice] ∧
      (({} : OnceLog).reportAll [name.notice, separator.notice]).2 = [name.notice] := by
  intro image separator name
  decide +kernel

end Attribute

end Changelog
