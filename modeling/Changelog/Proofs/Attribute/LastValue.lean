import Changelog.Layout.Container
import Changelog.Proofs.Attribute.Token
import Changelog.Proofs.NameMap
import Changelog.Proofs.Text.Words
import Mathlib.Logic.Relation

/-! The attributes of a bracket hold, under each name, what the last token that gives the name a value gives.
Every token is read on its own, so what is read depends only on the list of the pairs that are given. A
change of the tokens that leaves this list alone, or reorders it where no name occurs twice, changes no
attribute. -/

namespace Changelog.Attribute

variable {g : Grammar} {bracket name : Text} {value : AttributeValue} {words others : List Text}

/-- One change of the tokens of a bracket. -/
inductive Grammar.Rewrite (g : Grammar) : List Text → List Text → Prop
  | insert (before after : List Text) {token : Text}
      (unusable : ∀ name value, ¬ g.Gives token name value) :
      g.Rewrite (before ++ after) (before ++ token :: after)
  | remove (before after : List Text) {token : Text}
      (unusable : ∀ name value, ¬ g.Gives token name value) :
      g.Rewrite (before ++ token :: after) (before ++ after)
  | permute {words others : List Text} (order : words.Perm others)
      (distinct : words.Pairwise fun a b => ∀ name text other, Says a name text → ¬ Says b name other) :
      g.Rewrite words others
  | respell (before after : List Text) {token respelled : Text} (h : Respelled token respelled) :
      g.Rewrite (before ++ token :: after) (before ++ respelled :: after)

/-- The pairs that the tokens give, from left to right. -/
def Grammar.given (g : Grammar) (words : List Text) : List (Text × AttributeValue) :=
  words.filterMap fun token => (g.readToken token).toOption

/-- Only the tokens that could be read leave a trace in the attributes; the notices do not matter for
them. -/
theorem values_foldl (read : List (Except Notice (Text × AttributeValue))) (found : Attributes) :
    (read.foldl (fun found token =>
      match token with
      | .ok (name, value) => found.insert name value
      | .error _ => found) found).values =
      (read.filterMap Except.toOption).foldl (fun m pair => m.insert pair.1 pair.2) found.values := by
  induction read generalizing found with
  | nil => rfl
  | cons token rest ih =>
      rw [List.foldl_cons, ih]
      cases token <;> rfl

/-- The attributes of a bracket depend on nothing but the pairs that its tokens give. -/
theorem Grammar.values_parse (g : Grammar) (bracket : Text) :
    (g.parse bracket).value.values = NameMap.ofList (g.given (tokens bracket)) := by
  have hValues := values_foldl ((tokens bracket).map g.readToken) {}
  rw [List.filterMap_map] at hValues
  exact hValues

/-- A bracket is read up to its first closing bracket, and cut at white space. -/
theorem tokens_eq (bracket : Text) : tokens bracket = Text.separated (bracket.takeWhile (· != '>')) :=
  Text.words_eq_separated _

/-- A token adds to the pairs at its own place, whatever stands around it. -/
theorem Grammar.given_append_cons (g : Grammar) (before after : List Text) (token : Text) :
    g.given (before ++ token :: after) =
      g.given before ++ ((g.readToken token).toOption.toList ++ g.given after) := by
  rw [Grammar.given, List.filterMap_append, List.filterMap_cons]
  cases hRead : (g.readToken token).toOption <;> rfl

/-- The last pair of a name in the list is given by the last token that gives the name a value, and the
other way round. -/
theorem Grammar.given_eq_append_cons_iff :
    (∃ front back, g.given words = front ++ (name, value) :: back ∧ ∀ later ∈ back, later.1 ≠ name) ↔
      ∃ before token after, words = before ++ token :: after ∧ g.Gives token name value ∧
        ∀ later ∈ after, ∀ other, ¬ g.Gives later name other := by
  constructor
  · rintro ⟨front, back, hGiven, hLater⟩
    obtain ⟨before, rest, rfl, _, hRest⟩ := List.filterMap_eq_append_iff.1 hGiven
    obtain ⟨skipped, token, after, rfl, _, hToken, hAfter⟩ := List.filterMap_eq_cons_iff.1 hRest
    refine ⟨before ++ skipped, token, after, (List.append_assoc ..).symm,
      Grammar.toOption_readToken.1 hToken, fun later hMem other hGives => ?_⟩
    have hBack : (name, other) ∈ back :=
      hAfter ▸ List.mem_filterMap.2 ⟨later, hMem, Grammar.toOption_readToken.2 hGives⟩
    exact hLater _ hBack rfl
  · rintro ⟨before, token, after, rfl, hGives, hLater⟩
    refine ⟨g.given before, g.given after, ?_, fun ⟨other, given⟩ hMem hName => ?_⟩
    · rw [Grammar.given_append_cons, Grammar.toOption_readToken.2 hGives]
      rfl
    · obtain ⟨later, hAfter, hRead⟩ := List.mem_filterMap.1 hMem
      subst hName
      exact hLater later hAfter given (Grammar.toOption_readToken.1 hRead)

theorem Grammar.toOption_readToken_eq_none {token : Text} :
    (g.readToken token).toOption = none ↔ ∀ name value, ¬ g.Gives token name value := by
  rw [Option.eq_none_iff_forall_ne_some, Prod.forall]
  exact forall₂_congr fun _ _ => not_congr Grammar.toOption_readToken

/-- A token that gives nothing may stand anywhere. -/
theorem Grammar.given_insert (before after : List Text) {token : Text}
    (h : ∀ name value, ¬ g.Gives token name value) :
    g.given (before ++ token :: after) = g.given (before ++ after) := by
  rw [Grammar.given_append_cons, Grammar.toOption_readToken_eq_none.2 h]
  exact List.filterMap_append.symm

/-- Another spelling of a token gives the same pair. -/
theorem Grammar.given_respell (before after : List Text) {token respelled : Text}
    (h : Respelled token respelled) :
    g.given (before ++ respelled :: after) = g.given (before ++ token :: after) := by
  have hRead : (g.readToken respelled).toOption = (g.readToken token).toOption :=
    Option.ext fun pair => by
      rw [Grammar.toOption_readToken, Grammar.toOption_readToken, h.gives_iff]
  rw [Grammar.given_append_cons, Grammar.given_append_cons, hRead]

/-- If no two tokens say something of one name, no name is given twice. -/
theorem Grammar.nodup_given
    (h : words.Pairwise fun a b => ∀ name text other, Says a name text → ¬ Says b name other) :
    ((g.given words).map Prod.fst).Nodup := by
  -- whatever gives a name also says it, so the names that are given are apart as those that are said
  refine List.pairwise_map.2 (List.pairwise_filterMap.2 (h.imp fun {a b} hSays => ?_))
  rintro ⟨name, value⟩ hFirst ⟨other, _⟩ hSecond hName
  obtain ⟨text, hText, _⟩ := Grammar.toOption_readToken.1 hFirst
  obtain ⟨_, hOther, _⟩ := Grammar.toOption_readToken.1 hSecond
  have hSame : name = other := hName
  exact hSays name text _ hText (hSame ▸ hOther)

/-- One change keeps the entries up to their order. -/
theorem Grammar.Rewrite.perm (h : g.Rewrite words others) :
    (NameMap.ofList (g.given words)).entries.Perm (NameMap.ofList (g.given others)).entries := by
  cases h with
  | insert before after hUnusable => rw [Grammar.given_insert before after hUnusable]
  | remove before after hUnusable => rw [Grammar.given_insert before after hUnusable]
  | permute hOrder hDistinct =>
      exact NameMap.ofList_perm (hOrder.filterMap _) (Grammar.nodup_given hDistinct)
  | respell before after hSpelling => rw [Grammar.given_respell before after hSpelling]

/-- Any number of changes keeps the entries up to their order, and with them what is found under each
name. -/
theorem Grammar.perm_of_reflTransGen (h : Relation.ReflTransGen g.Rewrite words others) :
    (NameMap.ofList (g.given words)).entries.Perm (NameMap.ofList (g.given others)).entries := by
  induction h with
  | refl => exact .refl _
  | tail _ hStep ih => exact ih.trans hStep.perm

/-- Under a name stands what the last token that gives the name a value gives, among what stands between
white space in front of the first closing bracket; under any other name stands nothing. Two brackets whose
tokens are turned into each other by changes as above, whatever white space is between them, have the same
attributes. -/
theorem Grammar.parse_holds_last (g : Grammar) (bracket : Text) :
    (g.parse bracket).value.values.Distinct ∧
    (∀ name value, (g.parse bracket).value.values.get? name = some value ↔
      ∃ before token after, Text.separated (bracket.takeWhile (· != '>')) = before ++ token :: after ∧
        g.Gives token name value ∧ ∀ later ∈ after, ∀ other, ¬ g.Gives later name other) ∧
    ∀ other, Relation.ReflTransGen g.Rewrite (Text.separated (bracket.takeWhile (· != '>')))
        (Text.separated (other.takeWhile (· != '>'))) →
      (g.parse bracket).value.values.entries.Perm (g.parse other).value.values.entries := by
  refine ⟨?_, fun name value => ?_, fun other h => ?_⟩
  · rw [Grammar.values_parse]
    exact NameMap.distinct_ofList _
  · rw [Grammar.values_parse, NameMap.get?_ofList_eq_some_iff, Grammar.given_eq_append_cons_iff, tokens_eq]
  · rw [Grammar.values_parse, Grammar.values_parse, tokens_eq, tokens_eq]
    exact Grammar.perm_of_reflTransGen h

/-- The later size does not convert, and is not offered to the hook either. -/
theorem Grammar.parse_holds_last_of_pair :
    let before := "Fps=9 SIZE=4x2 SIZE=4\t>x".toList
    let after := "'size'='4x2'  fps=9".toList
    let parsed := ((Container.grammar .gif).parse before).value.values
    Relation.ReflTransGen (Container.grammar .gif).Rewrite
      (Text.separated (before.takeWhile (· != '>'))) (Text.separated (after.takeWhile (· != '>'))) ∧
    parsed.get? sizeName = some (.dimensions 4 2) ∧
    parsed.entries.Perm ((Container.grammar .gif).parse after).value.values.entries := by
  intro before after parsed
  let pair : Text := ['4', 'x', '2']
  have hBefore : Text.separated (before.takeWhile (· != '>')) =
      [['F', 'p', 's'] ++ '=' :: ['9'], sizeName ++ '=' :: pair, sizeName ++ '=' :: ['4']] := by
    decide +kernel
  have hAfter : Text.separated (after.takeWhile (· != '>')) =
      [['\''] ++ ['s', 'i', 'z', 'e'] ++ ['\''] ++ '=' :: (['\''] ++ pair ++ ['\'']),
        ['f', 'p', 's'] ++ '=' :: ['9']] := by
    decide +kernel
  have hLate : ∀ name value, ¬ (Container.grammar .gif).Gives (sizeName ++ '=' :: ['4']) name value :=
    Grammar.toOption_readToken_eq_none.1 (by decide +kernel)
  have hNames : [['F', 'p', 's'] ++ '=' :: ['9'], sizeName ++ '=' :: pair].Pairwise fun a b =>
      ∀ name text other, Says a name text → ¬ Says b name other := by
    refine List.pairwise_pair.2 fun name text other hFps hSize => ?_
    have hFps := ((says_append_cons_iff (by decide) _).1 hFps).1
    have hSize := ((says_append_cons_iff (by decide) _).1 hSize).1
    exact absurd (hFps.symm.trans hSize) (by decide)
  have hQuote : ∀ c ∈ ['\''], isQuote c = true := List.forall_mem_singleton.2 rfl
  have hRewrite : Relation.ReflTransGen (Container.grammar .gif).Rewrite
      (Text.separated (before.takeWhile (· != '>'))) (Text.separated (after.takeWhile (· != '>'))) := by
    rw [hBefore, hAfter]
    exact (((((Relation.ReflTransGen.single
      (.remove [_, _] [] hLate)).tail
      (.permute (.swap ..) hNames)).tail
      (.respell [] _ (.letters _ ['s', 'i', 'z', 'e'] _ (by decide) (by decide)))).tail
      (.respell [] _ (.quotedName _ ['\''] ['\''] _ (by decide) hQuote hQuote))).tail
      (.respell [] _ (.quotedValue _ ['\''] ['\''] pair (by decide) hQuote hQuote))).tail
      (.respell [_] [] (.letters ['F', 'p', 's'] ['f', 'p', 's'] ['9'] (by decide) (by decide)))
  exact ⟨hRewrite, by decide +kernel, (Grammar.parse_holds_last _ before).2.2 after hRewrite⟩

end Changelog.Attribute
