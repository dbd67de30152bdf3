import Changelog.Layout.Animation
import Mathlib.Algebra.Order.Ring.Int
import Mathlib.Data.List.Nodup

/-! Which pictures an animation shows while time passes. The picture at a tick depends on the place of the
tick in its cycle only. A window of one cycle's length that is moved on by a tick loses the picture that it
gains, so every such window shows the pictures of a cycle. -/

namespace Changelog.Animation

variable {delay count : Nat}

/-- The pictures at as many ticks from `start` on as a cycle has. -/
def window (delay count : Nat) (start : Int) : List Nat :=
  (List.range (count + delay)).map fun (k : Nat) => indexAtTick (start + k) delay count

/-- The first picture is held for the ticks of the delay; the last one is never passed. -/
theorem indexAtTick_eq (hCount : 0 < count) (tick : Int) :
    indexAtTick tick delay count = (tick % (count + delay)).toNat - delay := by
  have hNonneg : 0 ≤ tick % (count + delay : Int) := Int.emod_nonneg _ (by omega)
  have hLt : tick % (count + delay : Int) < count + delay := Int.emod_lt_of_pos _ (by omega)
  show (min (tick % (count + delay : Int) - delay) count).toNat = _
  omega

/-- At every tick there is a picture to show, also at a negative one. -/
theorem indexAtTick_lt (hCount : 0 < count) (tick : Int) : indexAtTick tick delay count < count := by
  have hLt : tick % (count + delay : Int) < count + delay := Int.emod_lt_of_pos _ (by omega)
  rw [indexAtTick_eq hCount]
  omega

/-- Whole cycles make no difference. -/
theorem indexAtTick_add_cycles (delay count : Nat) (tick cycles : Int) :
    indexAtTick (tick + cycles * (count + delay)) delay count = indexAtTick tick delay count := by
  show (min ((tick + cycles * (count + delay : Int)) % (count + delay : Int) - delay) count).toNat = _
  rw [Int.add_mul_emod_self_right]
  rfl

/-- Within the first cycle the number of the picture is the tick, less the delay. -/
theorem indexAtTick_natCast (hCount : 0 < count) {k : Nat} (hk : k < count + delay) :
    indexAtTick k delay count = k - delay := by
  have hMod : (k : Int) % (count + delay : Int) = k := Int.emod_eq_of_lt (by omega) (by omega)
  rw [indexAtTick_eq hCount, hMod, Int.toNat_natCast]

/-- A cycle holds the first picture for the delay and then shows the pictures one after the other. -/
theorem window_zero (hCount : 0 < count) :
    window delay count 0 = List.replicate delay 0 ++ List.range count := by
  have hHeld : (List.range delay).map (fun (k : Nat) => indexAtTick (0 + k) delay count) =
      List.replicate delay 0 := by
    refine List.eq_replicate_iff.2 ⟨by simp, fun i hi => ?_⟩
    obtain ⟨k, hk, rfl⟩ := List.mem_map.1 hi
    have hk : k < delay := List.mem_range.1 hk
    rw [Int.zero_add, indexAtTick_natCast hCount (by omega)]
    omega
  have hShown : (List.range count).map (fun (k : Nat) => indexAtTick (0 + (delay + k : Nat)) delay count) =
      List.range count := by
    refine (List.map_congr_left fun k hk => ?_).trans (List.map_id _)
    have hk : k < count := List.mem_range.1 hk
    rw [Int.zero_add, indexAtTick_natCast hCount (by omega)]
    exact Nat.add_sub_cancel_left delay k
  rw [window, Nat.add_comm, List.range_add, List.map_append, List.map_map, hHeld]
  exact congrArg _ hShown

theorem window_add_cycles (delay count : Nat) (start cycles : Int) :
    window delay count (start + cycles * (count + delay)) = window delay count start := by
  refine List.map_congr_left fun k _ => ?_
  rw [add_right_comm, indexAtTick_add_cycles]

/-- A window that is moved on by one tick shows at its end what it showed at its beginning. -/
theorem window_succ_perm (delay count : Nat) (start : Int) :
    (window delay count (start + 1)).Perm (window delay count start) := by
  rcases Nat.eq_zero_or_pos (count + delay) with hNone | hPos
  · rw [window, window, hNone]
    rfl
  · obtain ⟨rest, hLength⟩ : ∃ rest, count + delay = rest + 1 := ⟨count + delay - 1, by omega⟩
    -- the last tick of the later window is a cycle behind the first one of the earlier window
    have hNext : indexAtTick (start + 1 + rest) delay count = indexAtTick start delay count := by
      rw [← indexAtTick_add_cycles delay count start 1]
      congr 1
      omega
    have hLater : (List.range rest).map (fun (k : Nat) => indexAtTick (start + 1 + k) delay count) =
        (List.range rest).map fun (k : Nat) => indexAtTick (start + (k + 1 : Nat)) delay count :=
      List.map_congr_left fun k _ => by
        congr 1
        omega
    rw [window, window, hLength, List.range_succ, List.map_append, hLater, List.map_singleton, hNext,
      ← List.range_succ, List.range_succ_eq_map, List.map_cons, List.map_map, Nat.cast_zero, add_zero]
    exact List.perm_append_singleton _ _

/-- Wherever a window of a cycle's length begins, it shows the pictures of a cycle. -/
theorem window_perm (hCount : 0 < count) (start : Int) :
    (window delay count start).Perm (List.replicate delay 0 ++ List.range count) := by
  have hFrom (r : Nat) : (window delay count r).Perm (window delay count 0) := by
    induction r with
    | zero => exact List.Perm.refl _
    | succ r ih => exact (window_succ_perm delay count r).trans ih
  -- negative starts have no induction from 0: go back by whole cycles first
  have hPhase : start = (start % (count + delay : Int)).toNat +
      start / (count + delay : Int) * (count + delay) := by
    rw [Int.toNat_of_nonneg (Int.emod_nonneg _ (by omega)), Int.emod_add_ediv_mul]
  rw [hPhase, window_add_cycles, ← window_zero hCount]
  exact hFrom _

end Changelog.Animation
