import Changelog.Proofs.Download.Succession
import Mathlib.Data.List.Forall2

/-! A cache after its images have been given up. Workers from before may still be at work, but on sets
that the cache has left behind. Two runs are compared: one in which they go on, and one in which they end
at once. -/

namespace Changelog

theorem forall₂_set {α β : Type} {R : α → β → Prop} {l : List α} {l' : List β}
    (h : List.Forall₂ R l l') (i : Nat) {x : α} {y : β} (hNew : R x y) :
    List.Forall₂ R (l.set i x) (l'.set i y) := by
  induction h generalizing i with
  | nil => exact .nil
  | cons hHead hTail ih =>
      cases i with
      | zero => exact .cons hNew hTail
      | succ i => exact .cons hHead (ih i)

theorem exists_getElem?_of_forall₂ {α β : Type} {R : α → β → Prop} {l : List α} {l' : List β}
    (h : List.Forall₂ R l l') {i : Nat} {x : α} (hGet : l[i]? = some x) :
    ∃ y, l'[i]? = some y ∧ R x y := by
  induction h generalizing i with
  | nil => cases hGet
  | cons hHead hTail ih =>
      cases i with
      | zero => cases hGet; exact ⟨_, rfl, hHead⟩
      | succ i => exact ih hGet

namespace Batches

variable {a b : Batches} {sets i : Nat}

/-- All workers end at once, without writing anything. -/
def halt (b : Batches) : Batches :=
  { b with workers := b.workers.map fun w =>
      { w with worker := { w.worker with queue := [], phase := .ready } } }

/-- A worker of the two runs: one from before, of one of the first sets, which is at its end in the
second run, or a later one, the same in both. -/
def Counterpart (sets : Nat) (w w' : BatchWorker) : Prop :=
  (w.set < sets ∧ w'.worker.isFinished = true) ∨ (sets ≤ w.set ∧ w = w')

/-- Batches that differ at most in the first sets and in the workers of these sets. -/
structure Alike (sets : Nat) (a b : Batches) : Prop where
  sets_le : sets ≤ a.retired.length
  length_eq : a.retired.length = b.retired.length
  set_eq (number : Nat) : sets ≤ number → a.set number = b.set number
  workers : List.Forall₂ (Counterpart sets) a.workers b.workers
  awaited_eq : a.awaited = b.awaited

theorem set_of_length_le (b : Batches) {number : Nat} (h : b.retired.length ≤ number) :
    b.set number = b.current := by
  rw [set, List.getElem?_eq_none h, Option.getD_none]

/-- Batches that are alike show the same current set. -/
theorem Alike.current_eq (h : Alike sets a b) : a.current = b.current := by
  rw [← set_of_length_le a (Nat.le_refl _), h.set_eq _ h.sets_le,
    set_of_length_le b (Nat.le_of_eq h.length_eq.symm)]

/-- Writing a set changes that set only. A number beyond the abandoned sets stands for the current one. -/
theorem set_putSet_eq (b : Batches) (number : Nat) (set : RemoteSet) (other : Nat) :
    (b.putSet number set).set other =
      if other = number ∨ (b.retired.length ≤ number ∧ b.retired.length ≤ other) then set
      else b.set other := by
  by_cases hLt : number < b.retired.length
  · have hNot : ¬(b.retired.length ≤ number ∧ b.retired.length ≤ other) := by omega
    by_cases hOther : other = number
    · simp [putSet, Batches.set, hLt, hOther]
    · simp [putSet, Batches.set, hLt, hOther, hNot, Ne.symm hOther]
  · by_cases hOther : other < b.retired.length
    · have hNe : other ≠ number := by omega
      have hNot : ¬b.retired.length ≤ other := Nat.not_le_of_lt hOther
      simp [putSet, Batches.set, hLt, hOther, hNe, hNot]
    · simp [putSet, Batches.set, hLt, Nat.le_of_not_lt hLt, Nat.le_of_not_lt hOther]

/-- Giving up the images keeps the abandoned sets, marks the current one as abandoned, and puts an empty one
in its place. -/
theorem set_dispose (b : Batches) (number : Nat) :
    b.dispose.set number =
      if number < b.retired.length then b.set number
      else if number = b.retired.length then b.current.clear else {} := by
  unfold set dispose
  dsimp only
  rw [List.getElem?_append]
  split
  · rename_i hLt
    rw [List.getElem?_eq_getElem hLt, Option.getD_some, Option.getD_some]
  · split
    · rename_i hEq
      rw [hEq, Nat.sub_self]
      rfl
    · rename_i hNot hNe
      rw [List.getElem?_eq_none (by simp; omega), Option.getD_none]

/-- Right after the images are given up, it makes no difference to later sets whether the workers go on or
end at once. -/
theorem alike_dispose_halt (h : b.Orderly) :
    Alike (b.retired.length + 1) b.dispose b.dispose.halt where
  sets_le := by simp [dispose]
  length_eq := rfl
  set_eq _ _ := rfl
  workers := by
    refine List.forall₂_map_right_iff.2 (List.forall₂_same.2 fun w hMem => ?_)
    obtain ⟨i, hWorker⟩ := List.mem_iff_getElem?.1 hMem
    exact .inl ⟨Nat.lt_succ_of_le (h.set_le hWorker), rfl⟩
  awaited_eq := rfl

/-- If no worker is at work in the first run, none is in the second. The converse fails, since there the
workers from before have been stopped. -/
theorem Alike.not_running (h : Alike sets a b) (hRunning : ¬a.isRunning = true) :
    ¬b.isRunning = true := by
  intro hOther
  obtain ⟨i, w', hAwaited, hWorker', hAtWork⟩ := isRunning_iff.1 hOther
  obtain ⟨w, hWorker, hPair⟩ := exists_getElem?_of_forall₂ (List.Forall₂.flip h.workers) hWorker'
  rcases hPair with ⟨_, hEnd⟩ | ⟨_, rfl⟩
  · rw [hEnd] at hAtWork
    cases hAtWork
  · exact hRunning (isRunning_iff.2 ⟨i, w, h.awaited_eq.trans hAwaited, hWorker, hAtWork⟩)

theorem set_withCurrent (b : Batches) (current : RemoteSet) (awaited : Option Nat) (number : Nat) :
    ({ b with current, awaited } : Batches).set number =
      if number < b.retired.length then b.set number else current := by
  unfold set
  dsimp only
  split
  · rename_i hLt
    rw [List.getElem?_eq_getElem hLt, Option.getD_some, Option.getD_some]
  · rename_i hLe
    rw [List.getElem?_eq_none (Nat.le_of_not_lt hLe), Option.getD_none]

theorem Alike.withCurrent (h : Alike sets a b) (current : RemoteSet) (awaited : Option Nat) :
    Alike sets { a with current, awaited } { b with current, awaited } :=
  { h with
    awaited_eq := rfl
    set_eq := fun number hLe => by
      rw [set_withCurrent a, set_withCurrent b, h.length_eq, h.set_eq number hLe] }

/-- A new worker is one of the later ones, and the same in both. -/
theorem Alike.spawn (h : Alike sets a b) (images : List RemoteImage) :
    Alike sets (a.spawn images) (b.spawn images) := by
  have hWith (awaited : Option Nat) := h.withCurrent (b.current.register images).1 awaited
  unfold Batches.spawn
  dsimp only
  rw [h.current_eq, h.length_eq, h.workers.length_eq]
  split
  · exact hWith none
  · refine { hWith (some b.workers.length) with workers := ?_ }
    refine List.rel_append h.workers (.cons (.inr ⟨?_, rfl⟩) .nil)
    exact h.length_eq ▸ h.sets_le

/-- Images may be given up again, and what was current then is abandoned in both. -/
theorem Alike.dispose (h : Alike sets a b) : Alike sets a.dispose b.dispose where
  sets_le := by
    have hLe := h.sets_le
    simp only [Batches.dispose, List.length_append, List.length_singleton]
    omega
  length_eq := by simp [Batches.dispose, h.length_eq]
  set_eq number hLe := by
    rw [set_dispose, set_dispose, h.length_eq, h.set_eq number hLe, h.current_eq]
  workers := h.workers
  awaited_eq := h.awaited_eq

/-- A worker at its end changes nothing, so the two stay alike if one of the first workers moves. A
later worker finds the same in both, and so it does the same. -/
theorem Alike.move (h : Alike sets a b) (i : Nat) (m : Worker.Move) :
    Alike sets (a.onWorker i m.act) (b.onWorker i m.act) := by
  cases hWorker : a.workers[i]? with
  | none =>
      have hLe : b.workers.length ≤ i :=
        h.workers.length_eq ▸ List.getElem?_eq_none_iff.1 hWorker
      rw [onWorker_of_none hWorker, onWorker_of_none (List.getElem?_eq_none hLe)]
      exact h
  | some w =>
      obtain ⟨w', hWorker', hPair⟩ := exists_getElem?_of_forall₂ h.workers hWorker
      have hSetsLe := h.sets_le
      refine ⟨?_, ?_, fun number hLe => ?_, ?_, ?_⟩
      · rw [length_retired_onWorker]
        exact hSetsLe
      · rw [length_retired_onWorker, length_retired_onWorker]
        exact h.length_eq
      · rcases hPair with ⟨hOld, hEnd⟩ | ⟨hNew, rfl⟩
        · -- the worker of the first run writes to one of the first sets only
          rw [onWorker_of_fixed hWorker' (m.act_of_isFinished hEnd), onWorker_eq hWorker]
          refine Eq.trans ?_ (h.set_eq number hLe)
          exact (set_putSet_eq ..).trans (if_neg (by omega))
        · rw [onWorker_eq hWorker, onWorker_eq hWorker', h.set_eq _ hNew]
          refine (set_putSet_eq a ..).trans (Eq.trans ?_ (set_putSet_eq b ..).symm)
          rw [h.length_eq, h.set_eq number hLe]
      · rw [onWorker_eq hWorker, onWorker_eq hWorker']
        refine forall₂_set h.workers i ?_
        rcases hPair with ⟨hOld, hEnd⟩ | ⟨hNew, rfl⟩
        · refine .inl ⟨hOld, ?_⟩
          rw [m.act_of_isFinished (s := (b.set w'.set, w'.worker)) hEnd]
          exact hEnd
        · exact .inr ⟨hNew, by rw [h.set_eq _ hNew]⟩
      · rw [awaited_onWorker, awaited_onWorker]
        exact h.awaited_eq

end Batches

namespace ImageCache

variable {a b a' : ImageCache} {sets : Nat}

/-- Two caches with the same images at hand. -/
structure Alike (sets : Nat) (a b : ImageCache) : Prop where
  pictures_eq : a.pictures = b.pictures
  animations_eq : a.animations = b.animations
  downloads : Batches.Alike sets a.downloads b.downloads

/-- Whatever happens to the first cache can happen to the second one too, and they stay alike. -/
theorem Alike.act? (h : Alike sets a b) {event : Event} (hAct : a.act? event = some a') :
    ∃ b', b.act? event = some b' ∧ Alike sets a' b' := by
  obtain ⟨hPictures, hAnimations, hDownloads⟩ := h
  cases event with
  | insertPicture name texture =>
      cases hAct
      exact ⟨_, rfl, congrArg (·.insert name texture) hPictures, hAnimations, hDownloads⟩
  | insertFrames name frames =>
      cases hAct
      exact ⟨_, rfl, hPictures, congrArg (·.insert name frames) hAnimations, hDownloads⟩
  | lookup name => cases hAct; exact ⟨_, rfl, hPictures, hAnimations, hDownloads⟩
  | begin images =>
      obtain ⟨hRunning, hSpawn⟩ := Option.ite_none_left_eq_some.1 hAct
      obtain rfl := Option.some.inj hSpawn
      exact ⟨_, if_neg (hDownloads.not_running hRunning), hPictures, hAnimations,
        hDownloads.spawn images⟩
  | beginInVain images =>
      obtain ⟨hRunning, hRegister⟩ := Option.ite_none_left_eq_some.1 hAct
      obtain rfl := Option.some.inj hRegister
      refine ⟨_, if_neg (hDownloads.not_running hRunning), hPictures, hAnimations, ?_⟩
      unfold onDownloads Batches.registerOnly
      dsimp only
      rw [hDownloads.current_eq]
      exact hDownloads.withCurrent _ none
  | wait =>
      obtain ⟨hRunning, hReap⟩ := Option.ite_none_left_eq_some.1 hAct
      obtain rfl := Option.some.inj hReap
      exact ⟨_, if_neg (hDownloads.not_running hRunning), hPictures, hAnimations,
        { hDownloads with awaited_eq := rfl }⟩
  | dispose => cases hAct; exact ⟨_, rfl, rfl, rfl, hDownloads.dispose⟩
  | move i m => cases hAct; exact ⟨_, rfl, hPictures, hAnimations, hDownloads.move i m⟩

theorem Alike.run? (h : Alike sets a b) {events : List Event} (hRun : a.run? events = some a') :
    ∃ b', b.run? events = some b' ∧ Alike sets a' b' := by
  induction events generalizing a b with
  | nil => cases hRun; exact ⟨b, rfl, h⟩
  | cons event rest ih =>
      obtain ⟨next, hAct, hRest⟩ := Option.bind_eq_some_iff.1 hRun
      obtain ⟨next', hAct', hNext⟩ := h.act? hAct
      obtain ⟨b', hRest', hEnd⟩ := ih hNext hRest
      exact ⟨b', by rw [run?_cons, hAct', Option.bind_some, hRest'], hEnd⟩

/-- Whatever is asked, the two caches give the same answer. The reachable set as a whole is the same, so
this is so even if the accesses of one question come at different moments. -/
structure SameView (a b : ImageCache) : Prop where
  remote : a.remote = b.remote
  lookup (name : Text) : a.lookup name = b.lookup name
  naturalSize? (name : Text) : a.naturalSize? name = b.naturalSize? name
  status? (name : Text) : a.remote.status? name = b.remote.status? name
  size : a.size = b.size
  generation : a.generation = b.generation
  released : a.dispose.2 = b.dispose.2

/-- Caches that are alike cannot be told apart from outside. -/
theorem Alike.sameView (h : Alike sets a b) : SameView a b := by
  obtain ⟨hPictures, hAnimations, hDownloads⟩ := h
  have hRemote : a.remote = b.remote := hDownloads.current_eq
  have hFrames : a.frameCount = b.frameCount := by rw [frameCount, frameCount, hAnimations]
  refine ⟨hRemote, fun name => ?_, fun name => ?_, fun name => by rw [hRemote], ?_, ?_, ?_⟩
  · rw [ImageCache.lookup, ImageCache.lookup, hPictures, hRemote]
  · rw [ImageCache.naturalSize?, ImageCache.naturalSize?, hPictures, hRemote, hAnimations]
  · rw [ImageCache.size, ImageCache.size, hPictures, hFrames, hRemote]
  · rw [ImageCache.generation, ImageCache.generation, hRemote]
  · rw [ImageCache.dispose, ImageCache.dispose, hPictures, hFrames, hRemote]

/-- Nothing is there, and there is nothing to give up. -/
structure Blank (c : ImageCache) : Prop where
  lookup (name : Text) : c.lookup name = .missing
  naturalSize? (name : Text) : c.naturalSize? name = none
  size : c.size = 0
  generation : c.generation = 0
  released : c.dispose.2 = 0

/-- A cache whose images have just been given up holds nothing. -/
theorem blank_dispose (c : ImageCache) : Blank c.dispose.1 :=
  ⟨fun _ => rfl, fun _ => rfl, rfl, rfl, rfl⟩

/-- Once its images have been given up, a cache is empty, and nothing that the workers from before still
do is ever seen: whatever comes then, in any order, looks as if these workers had ended at once. -/
theorem isolated_after_dispose (pictures : NameMap Texture) (animations : NameMap FrameSet)
    (before : List Event) {c : ImageCache} (hBefore : (opened pictures animations).run? before = some c) :
    Blank c.dispose.1 ∧ ∀ after final, c.dispose.1.run? after = some final →
      ∃ final', (c.dispose.1.onDownloads Batches.halt).run? after = some final' ∧
        SameView final final' := by
  have hOrderly : c.downloads.Orderly := orderly_run? Batches.orderly_empty hBefore
  have hAlike : Alike (c.downloads.retired.length + 1) c.dispose.1
      (c.dispose.1.onDownloads Batches.halt) :=
    ⟨rfl, rfl, Batches.alike_dispose_halt hOrderly⟩
  refine ⟨blank_dispose c, fun after final hFinal => ?_⟩
  obtain ⟨final', hFinal', hEnd⟩ := hAlike.run? hFinal
  exact ⟨final', hFinal', hEnd.sameView⟩

/-- The worker from before ends its fetch, takes up one job more, and fails; then the same name is
downloaded again, from another address. -/
theorem isolated_from_late_download :
    let before : List Event := [.begin [⟨['a'], ['x']⟩, ⟨['b'], ['y']⟩], .move 0 (.turn none)]
    let after : List Event :=
      [.move 0 (.turn (some (.image ⟨8, 4⟩))), .insertPicture ['p'] ⟨['p'], ⟨1, 1⟩⟩,
        .move 0 (.turn none), .move 0 .takeUp, .move 0 (.turn none), .move 0 (.turn none),
        .begin [⟨['a'], ['z']⟩], .move 1 (.turn none)]
    ∃ c final final', (opened {} {}).run? before = some c ∧ c.dispose.1.run? after = some final ∧
      (c.dispose.1.onDownloads Batches.halt).run? after = some final' ∧ Blank c.dispose.1 ∧
      SameView final final' ∧ final'.lookup ['a'] = .remote .inProgress ∧
      final'.generation = 0 ∧ final'.dispose.2 = 1 := by
  intro before after
  let c := ((opened {} {}).run? before).getD {}
  let final := (c.dispose.1.run? after).getD {}
  have hBefore : (opened {} {}).run? before = some c := by decide +kernel
  have hFinal : c.dispose.1.run? after = some final := by decide +kernel
  obtain ⟨hBlank, hIsolated⟩ := isolated_after_dispose {} {} before hBefore
  obtain ⟨final', hFinal', hView⟩ := hIsolated after final hFinal
  refine ⟨c, final, final', hBefore, hFinal, hFinal', hBlank, hView, ?_, ?_, ?_⟩
  · exact (hView.lookup ['a']).symm.trans (by decide +kernel)
  · exact hView.generation.symm.trans (by decide +kernel)
  · exact hView.released.symm.trans (by decide +kernel)

end ImageCache

end Changelog
