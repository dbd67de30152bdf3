import Changelog.Markup.Pattern
import Mathlib.Data.List.Basic
import Mathlib.Data.List.Chain

/-! What a coloured pattern shows. Its runs are the pattern cut wherever the role changes, and there is no
other way to cut it so. On a terminal the colours are escape sequences between the runs; a reader who skips
these sequences sees the pattern again, unless the pattern brings escape characters of its own. -/

namespace Changelog.Pattern

variable {previous : Option Char} {c : Char} {pattern text more : Text} {run : Run} {runs others : List Run}
  {r : Role}

/-- No run is empty, and no two neighbours have one role. -/
structure Apart (runs : List Run) : Prop where
  text_ne_nil : ∀ run ∈ runs, run.text ≠ []
  chain : runs.IsChain fun run next => run.role ≠ next.role

/-- Runs that make up the pattern and cannot be longer. Nothing is said here of how they are found. -/
structure Colors (pattern : Text) (runs : List Run) : Prop extends Apart runs where
  text_eq : runs.flatMap Run.text = pattern
  /-- Every character stands in a run of the role that it has behind the character before it in the
  pattern, which may belong to another run. The first one has no character before it. -/
  role_eq : (runs.flatMap fun run => run.text.map fun _ => run.role) =
    List.zipWith role (none :: pattern.map some) pattern

/-- The characters of runs, each with the role of its run. -/
def characters (runs : List Run) : List (Role × Char) :=
  runs.flatMap fun run => run.text.map fun c => (run.role, c)

theorem characters_cons (run : Run) (runs : List Run) :
    characters (run :: runs) = run.text.map (fun c => (run.role, c)) ++ characters runs :=
  List.flatMap_cons

/-- The roles of the characters are those of the runs, each as often as the run is long. -/
theorem map_fst_characters (runs : List Run) :
    (characters runs).map Prod.fst = runs.flatMap fun run => run.text.map fun _ => run.role := by
  simp [characters, List.map_flatMap, Function.comp_def]

theorem map_snd_characters (runs : List Run) :
    (characters runs).map Prod.snd = runs.flatMap Run.text := by
  simp [characters, List.map_flatMap, Function.comp_def]

/-- A character may begin the first run or stand in front of it; it is one more character either way. -/
@[simp] theorem characters_consRun (r : Role) (c : Char) (runs : List Run) :
    characters (consRun r c runs) = (r, c) :: characters runs := by
  cases runs with
  | nil => simp [consRun, characters]
  | cons run rest =>
      by_cases hSame : run.role = r <;> simp [consRun, characters, hSame]

/-- A character joins the first run just when it has its role, so neighbours stay different. -/
theorem Apart.consRun (h : Apart runs) (r : Role) (c : Char) : Apart (consRun r c runs) := by
  obtain ⟨hText, hChain⟩ := h
  cases runs with
  | nil => exact ⟨by simp [Pattern.consRun], by simp [Pattern.consRun]⟩
  | cons run rest =>
      by_cases hSame : run.role = r
      · refine ⟨?_, ?_⟩
        · simpa [Pattern.consRun, hSame] using fun run hRun => hText run (List.mem_cons_of_mem _ hRun)
        · cases rest with
          | nil => simp [Pattern.consRun, hSame]
          | cons next rest => simpa [Pattern.consRun, hSame] using hChain
      · refine ⟨?_, ?_⟩
        · simpa [Pattern.consRun, hSame] using hText
        · simpa [Pattern.consRun, hSame, Ne.symm hSame] using hChain

/-- The runs that are found are apart. -/
theorem apart_runsFrom (previous : Option Char) (pattern : Text) :
    Apart (runsFrom previous pattern) := by
  induction pattern generalizing previous with
  | nil => exact ⟨by simp [runsFrom], by simp [runsFrom]⟩
  | cons c rest ih => exact (ih (some c)).consRun _ c

/-- Each character is given its role behind the one before it. -/
theorem characters_runsFrom (previous : Option Char) (pattern : Text) :
    characters (runsFrom previous pattern) =
      (List.zipWith role (previous :: pattern.map some) pattern).zip pattern := by
  induction pattern generalizing previous with
  | nil => simp [runsFrom, characters]
  | cons c rest ih => simp [runsFrom, ih]

/-- The characters of a run come together in one run again, unless the next run has its role. -/
theorem foldr_consRun (hText : text ≠ []) (hNext : ∀ next ∈ runs.head?, r ≠ next.role) :
    (text.map fun c => (r, c)).foldr (fun pair => consRun pair.1 pair.2) runs = ⟨r, text⟩ :: runs := by
  induction text with
  | nil => exact absurd rfl hText
  | cons c rest ih =>
      cases rest with
      | nil =>
          cases runs with
          | nil => simp [consRun]
          | cons next more => simp [consRun, Ne.symm (hNext next rfl)]
      | cons d rest =>
          rw [List.map_cons, List.foldr_cons, ih (List.cons_ne_nil d rest)]
          simp [consRun]

/-- Putting the characters of runs together again, from the last one to the first, gives these runs, if they
are apart. -/
theorem Apart.foldr_characters (h : Apart runs) :
    (characters runs).foldr (fun pair => Pattern.consRun pair.1 pair.2) [] = runs := by
  induction runs with
  | nil => rfl
  | cons run rest ih =>
      obtain ⟨hText, hChain⟩ := h
      obtain ⟨hFirst, hRest⟩ := List.forall_mem_cons.1 hText
      rw [List.isChain_cons] at hChain
      rw [characters_cons, List.foldr_append, ih ⟨hRest, hChain.2⟩]
      exact foldr_consRun hFirst hChain.1

/-- Runs that are apart are told by their characters, so there is one way only to cut the pattern. -/
theorem Apart.eq_of_characters_eq (h : Apart runs) (h' : Apart others)
    (hSame : characters runs = characters others) : runs = others := by
  rw [← h.foldr_characters, hSame, h'.foldr_characters]

/-- Runs that colour a pattern have its characters with their roles. -/
theorem Colors.characters_eq (h : Colors pattern runs) :
    characters runs = (List.zipWith role (none :: pattern.map some) pattern).zip pattern := by
  have hZip := List.zip_unzip (characters runs)
  rw [List.unzip_eq_map, map_fst_characters, map_snd_characters, h.role_eq, h.text_eq] at hZip
  exact hZip.symm

/-- The runs that are found colour the pattern. -/
theorem colors_runs (pattern : Text) : Colors pattern (Pattern.runs pattern) := by
  have hApart := apart_runsFrom none pattern
  have hCharacters := characters_runsFrom none pattern
  have hLength : (List.zipWith role (none :: pattern.map some) pattern).length = pattern.length := by
    simp
  refine ⟨hApart, ?_, ?_⟩
  · rw [← map_snd_characters, Pattern.runs, hCharacters, List.map_snd_zip hLength.ge]
  · rw [← map_fst_characters, Pattern.runs, hCharacters, List.map_fst_zip hLength.le]

theorem Colors.eq_runs (h : Colors pattern runs) : runs = Pattern.runs pattern := by
  apply h.toApart.eq_of_characters_eq (apart_runsFrom none pattern)
  rw [h.characters_eq, ← characters_runsFrom]

/-- What follows the numbers of a colour sequence and the letter behind them. -/
def afterNumbers? : Text → Option Text
  | [] => none
  | c :: rest =>
      if c = 'm' then some rest
      else if c.isDigit ∨ c = ';' then afterNumbers? rest
      else none

/-- What follows a colour sequence at the front of the text: an escape character, a bracket, numbers with
semicolons between them, and the letter m. -/
def afterSequence? : Text → Option Text
  | '\x1b' :: '[' :: rest => afterNumbers? rest
  | _ => none

/-- Reading on always takes at least the letter at the end. -/
theorem length_lt_of_afterNumbers? (h : afterNumbers? text = some more) : more.length < text.length := by
  induction text with
  | nil => cases h
  | cons c rest ih =>
      unfold afterNumbers? at h
      split_ifs at h with hEnd hNumber
      · obtain rfl := Option.some.inj h
        simp
      · exact (ih h).trans (by simp)

theorem length_lt_of_afterSequence? (h : afterSequence? text = some more) :
    more.length < text.length := by
  unfold afterSequence? at h
  split at h
  · have hRest := length_lt_of_afterNumbers? h
    simp only [List.length_cons]
    omega
  · cases h

/-- The text without its colour sequences. Other escape sequences, and those that break off, stay. -/
def withoutSequences : Text → Text
  | [] => []
  | c :: rest =>
      match _h : afterSequence? (c :: rest) with
      | some more => withoutSequences more
      | none => c :: withoutSequences rest
termination_by text => text.length
decreasing_by
  · exact length_lt_of_afterSequence? _h
  · simp

theorem withoutSequences_nil : withoutSequences [] = [] := by
  rw [withoutSequences]

/-- A colour sequence at the front is left out. -/
theorem withoutSequences_of_sequence (h : afterSequence? text = some more) :
    withoutSequences text = withoutSequences more := by
  cases text with
  | nil => cases h
  | cons c rest =>
      rw [withoutSequences]
      split
      · rename_i hSome
        rw [Option.some.inj (hSome.symm.trans h)]
      · rename_i hNone
        exact nomatch hNone.symm.trans h

theorem withoutSequences_cons (h : c ≠ '\x1b') (rest : Text) :
    withoutSequences (c :: rest) = c :: withoutSequences rest := by
  have hNone : afterSequence? (c :: rest) = none := by
    unfold afterSequence?
    split
    · rename_i hStart
      exact absurd (List.cons.inj hStart).1 h
    · rfl
  rw [withoutSequences]
  split
  · rename_i hSome
    exact nomatch hNone.symm.trans hSome
  · rfl

theorem withoutSequences_append (h : '\x1b' ∉ text) (more : Text) :
    withoutSequences (text ++ more) = text ++ withoutSequences more := by
  induction text with
  | nil => rfl
  | cons c rest ih =>
      simp only [List.mem_cons, not_or] at h
      rw [List.cons_append, withoutSequences_cons (Ne.symm h.1), ih h.2, List.cons_append]

/-- Numbers with semicolons between them are read to the letter behind them. -/
theorem afterNumbers?_append {numbers : Text} (h : ∀ c ∈ numbers, c.isDigit ∨ c = ';') (more : Text) :
    afterNumbers? (numbers ++ 'm' :: more) = some more := by
  induction numbers with
  | nil => rfl
  | cons c rest ih =>
      obtain ⟨hNumber, hRest⟩ := List.forall_mem_cons.1 h
      have hEnd : c ≠ 'm' := by
        rintro rfl
        exact absurd hNumber (by decide)
      rw [List.cons_append, afterNumbers?, if_neg hEnd, if_pos hNumber, ih hRest]

/-- The sequence that is written for a colour is read as one. -/
theorem afterSequence?_foreground (color : Color) (more : Text) :
    afterSequence? (foreground color ++ more) = some more := by
  let numbers := ['3', '8', ';', '2', ';'] ++ Nat.toDigits 10 color.red.toNat ++ [';'] ++
    Nat.toDigits 10 color.green.toNat ++ [';'] ++ Nat.toDigits 10 color.blue.toNat
  have hNumbers : ∀ c ∈ numbers, c.isDigit ∨ c = ';' := by
    have hDigit (n : Nat) : ∀ c ∈ Nat.toDigits 10 n, c.isDigit ∨ c = ';' := fun c hc =>
      .inl (Nat.isDigit_of_mem_toDigits (by decide) (by decide) hc)
    have hFixed : ∀ c ∈ ['3', '8', ';', '2', ';'], c.isDigit ∨ c = ';' := by simp
    have hBetween : ∀ c ∈ [';'], c.isDigit ∨ c = ';' := by simp
    simp only [numbers, List.forall_mem_append]
    exact ⟨⟨⟨⟨⟨hFixed, hDigit _⟩, hBetween⟩, hDigit _⟩, hBetween⟩, hDigit _⟩
  have hText : foreground color ++ more = '\x1b' :: '[' :: (numbers ++ 'm' :: more) := by
    simp [foreground, numbers]
  rw [hText]
  exact afterNumbers?_append hNumbers more

/-- The sequences in front of runs are left out, and the runs stay. -/
theorem withoutSequences_flatMap (h : '\x1b' ∉ runs.flatMap Run.text) (more : Text) :
    withoutSequences ((runs.flatMap fun run => foreground run.role.color ++ run.text) ++ more) =
      runs.flatMap Run.text ++ withoutSequences more := by
  induction runs with
  | nil => rfl
  | cons run rest ih =>
      simp only [List.flatMap_cons, List.mem_append, not_or] at h
      simp only [List.flatMap_cons, List.append_assoc]
      rw [withoutSequences_of_sequence (afterSequence?_foreground ..), withoutSequences_append h.1,
        ih h.2]

/-- The colours of any runs can be taken off again, if no run has an escape character. -/
theorem withoutSequences_toTerminal (h : '\x1b' ∉ runs.flatMap Run.text) :
    withoutSequences (toTerminal runs) = runs.flatMap Run.text := by
  have hReset : withoutSequences resetSequence = withoutSequences [] :=
    withoutSequences_of_sequence rfl
  rw [toTerminal, withoutSequences_flatMap h]
  split
  · rw [withoutSequences_nil, List.append_nil]
  · rw [hReset, withoutSequences_nil, List.append_nil]

/-- A pattern is cut into runs that are as long as possible, and only one way to cut it is right. What is
written to a terminal shows the pattern, if the pattern has no escape characters. -/
theorem runs_maximal (pattern : Text) :
    Colors pattern (Pattern.runs pattern) ∧
      (∀ others, Colors pattern others → others = Pattern.runs pattern) ∧
      ('\x1b' ∉ pattern → withoutSequences (toTerminal (Pattern.runs pattern)) = pattern) := by
  have hColors := colors_runs pattern
  refine ⟨hColors, fun others hOthers => hOthers.eq_runs, fun hPlain => ?_⟩
  have hTerminal : withoutSequences (toTerminal (Pattern.runs pattern)) =
      (Pattern.runs pattern).flatMap Run.text :=
    withoutSequences_toTerminal (by rwa [hColors.text_eq])
  rw [hTerminal, hColors.text_eq]

/-- A bracket behind a backslash belongs to the text around it, the next one does not. -/
theorem runs_maximal_of_escaped_bracket :
    let pattern := "<a\\(b.*?)".toList
    '\x1b' ∉ pattern ∧
      Pattern.runs pattern =
        [⟨.literal, "<a\\(b".toList⟩, ⟨.grouping, ['.']⟩, ⟨.quantifier, ['*', '?']⟩, ⟨.grouping, [')']⟩] ∧
      withoutSequences (toTerminal (Pattern.runs pattern)) = pattern := by
  intro pattern
  have hPlain : '\x1b' ∉ pattern := by decide
  exact ⟨hPlain, by decide, (runs_maximal pattern).2.2 hPlain⟩

end Changelog.Pattern
