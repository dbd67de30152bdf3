import Changelog.NameMap
import Mathlib.Data.List.Induction
import Mathlib.Data.List.Nodup
import Mathlib.Data.List.Perm.Basic

/-! A map that is filled from left to right holds, under each name, the last value that was inserted. Its
entries are told by what the lookup answers, up to their order, because no name has two of them. -/

namespace Changelog.NameMap

variable {β : Type} {m n : NameMap β} {pairs others : List (Text × β)} {name : Text} {value : β}

/-- No name has two entries. -/
def Distinct (m : NameMap β) : Prop :=
  (m.entries.map Prod.fst).Nodup

theorem distinct_empty : Distinct ({} : NameMap β) :=
  List.nodup_nil

/-- A value takes the place of an earlier one of its name, so no name comes to have two. -/
theorem Distinct.insert (h : m.Distinct) (name : Text) (value : β) : (m.insert name value).Distinct := by
  have hOthers : ((m.entries.filter fun entry => entry.1 != name).map Prod.fst).Nodup :=
    h.sublist (List.filter_sublist.map _)
  refine List.nodup_cons.2 ⟨fun hMem => ?_, hOthers⟩
  obtain ⟨entry, hEntry, hName⟩ := List.mem_map.1 hMem
  have hNe : entry.1 ≠ name := by simpa using (List.mem_filter.1 hEntry).2
  exact hNe hName

/-- What is listed is what is found. -/
theorem Distinct.mem_entries_iff (h : m.Distinct) :
    (name, value) ∈ m.entries ↔ m.get? name = some value := by
  rw [get?, List.lookup_eq_some_iff]
  constructor
  · intro hMem
    obtain ⟨before, after, hEntries⟩ := List.append_of_mem hMem
    refine ⟨before, after, hEntries, fun entry hEntry => ?_⟩
    rw [Distinct, hEntries, List.map_append, List.nodup_append] at h
    have hNe := h.2.2 entry.1 (List.mem_map_of_mem hEntry) name (by simp)
    simpa using hNe.symm
  · rintro ⟨before, after, hEntries, _⟩
    simp [hEntries]

/-- Two maps that answer every lookup alike have the same entries. -/
theorem Distinct.perm (h : m.Distinct) (h' : n.Distinct) (hGet : ∀ name, m.get? name = n.get? name) :
    m.entries.Perm n.entries := by
  refine (List.perm_ext_iff_of_nodup h.of_map h'.of_map).2 fun ⟨name, value⟩ => ?_
  rw [h.mem_entries_iff, h'.mem_entries_iff, hGet]

theorem ofList_concat (pairs : List (Text × β)) (pair : Text × β) :
    ofList (pairs ++ [pair]) = (ofList pairs).insert pair.1 pair.2 :=
  List.foldl_concat ..

/-- However often a name is given, it has one entry in the map. -/
theorem distinct_ofList (pairs : List (Text × β)) : (ofList pairs).Distinct := by
  induction pairs using List.reverseRecOn with
  | nil => exact List.nodup_nil
  | append_singleton pairs pair ih => exact ofList_concat pairs pair ▸ ih.insert _ _

/-- The last pair of a name is the one that is found. -/
theorem get?_ofList (pairs : List (Text × β)) (name : Text) :
    (ofList pairs).get? name = pairs.reverse.lookup name := by
  induction pairs using List.reverseRecOn with
  | nil => rfl
  | append_singleton pairs pair ih =>
      rw [ofList_concat, get?_insert, ih, List.reverse_concat, List.lookup_cons]
      by_cases h : name = pair.1
      · simp [h]
      · rw [if_neg h, beq_eq_false_iff_ne.2 h]

/-- The same, told of the list from which the map was filled. -/
theorem get?_ofList_eq_some_iff :
    (ofList pairs).get? name = some value ↔
      ∃ before after, pairs = before ++ (name, value) :: after ∧ ∀ later ∈ after, later.1 ≠ name := by
  rw [get?_ofList, List.lookup_eq_some_iff]
  constructor
  · rintro ⟨after, before, hPairs, hLater⟩
    refine ⟨before.reverse, after.reverse, ?_, fun later hMem => ?_⟩
    · have hPairs := congrArg List.reverse hPairs
      simpa using hPairs
    · have hNe := hLater later (List.mem_reverse.1 hMem)
      simpa using (bne_iff_ne.1 hNe).symm
  · rintro ⟨before, after, rfl, hLater⟩
    refine ⟨after.reverse, before.reverse, by simp, fun later hMem => ?_⟩
    exact bne_iff_ne.2 (hLater later (List.mem_reverse.1 hMem)).symm

/-- Only names that are given are found. -/
theorem get?_ofList_eq_none_iff :
    (ofList pairs).get? name = none ↔ ∀ pair ∈ pairs, pair.1 ≠ name := by
  rw [get?_ofList, List.lookup_eq_none_iff]
  constructor
  · intro h pair hMem
    exact (bne_iff_ne.1 (h pair (List.mem_reverse.2 hMem))).symm
  · intro h pair hMem
    exact bne_iff_ne.2 (h pair (List.mem_reverse.1 hMem)).symm

theorem get?_ofList_eq_some_iff_mem (hNames : (pairs.map Prod.fst).Nodup) :
    (ofList pairs).get? name = some value ↔ (name, value) ∈ pairs := by
  have hReverse : (NameMap.mk pairs.reverse).Distinct := by
    rw [Distinct, List.map_reverse, List.nodup_reverse]
    exact hNames
  rw [get?_ofList, ← List.mem_reverse]
  exact hReverse.mem_entries_iff.symm

/-- The order of the pairs matters only where a name has several. -/
theorem ofList_perm (h : pairs.Perm others) (hNames : (pairs.map Prod.fst).Nodup) :
    (ofList pairs).entries.Perm (ofList others).entries := by
  have hOthers : (others.map Prod.fst).Nodup := (h.map Prod.fst).nodup_iff.1 hNames
  refine (distinct_ofList pairs).perm (distinct_ofList others) fun name => Option.ext fun value => ?_
  rw [get?_ofList_eq_some_iff_mem hNames, get?_ofList_eq_some_iff_mem hOthers, h.mem_iff]

end Changelog.NameMap
