import Frcmob.Lib.Transition
import Frcmob.OnDevice.SampleFrames
import Mathlib.Data.List.Chain
import Mathlib.Tactic.Linarith
import Mathlib.Tactic.NormNum
import Mathlib.Tactic.Ring

/-!
Samples stay on their grid. While no gap between frames is longer than the interval, the frame
that passes a target comes before the next one, so the target moves on by one interval and never
to the frame.
-/

namespace Frcmob.OnDevice.SampleFrames

open Transition

variable {K : Type} [Field K] [LinearOrder K]

/-- The targets, half a frame early. -/
def SampleOptions.grid (opts : SampleOptions K) (k : Nat) : K :=
  opts.startSec + k * opts.intervalSec - halfFrameSec

/-- The first of the frames that is no earlier than a target, if it is not past the end. -/
def firstAt (opts : SampleOptions K) (frames : List K) (k : Nat) : Option K :=
  (frames.find? fun t => opts.grid k ≤ t).filter (· ≤ opts.endSec)

variable {opts : SampleOptions K} {frames : List K} {t : K} {k n : Nat}

theorem grid_succ (n : Nat) : opts.grid (n + 1) = opts.grid n + opts.intervalSec := by
  unfold SampleOptions.grid
  push_cast
  ring

theorem grid_zero : opts.grid 0 = opts.startSec - halfFrameSec := by
  simp [SampleOptions.grid]

/-! ### One more frame -/

theorem firstAt_append_of_lt (h : t < opts.grid k) :
    firstAt opts (frames ++ [t]) k = firstAt opts frames k := by
  rw [firstAt, firstAt, List.find?_append, List.find?_cons_of_neg (by simpa using h), List.find?_nil,
    Option.or_none]

theorem firstAt_append_of_past (h : opts.endSec < t) :
    firstAt opts (frames ++ [t]) k = firstAt opts frames k := by
  rw [firstAt, firstAt, List.find?_append]
  cases hfind : frames.find? fun t => opts.grid k ≤ t with
  | some u => rfl
  | none =>
      by_cases hgrid : opts.grid k ≤ t
      · rw [List.find?_cons_of_pos (by simpa using hgrid), Option.none_or]
        simp [Option.filter, h]
      · rw [List.find?_cons_of_neg (by simpa using hgrid)]
        rfl

theorem firstAt_append_of_none (hnone : ∀ u ∈ frames, u < opts.grid k) (hgrid : opts.grid k ≤ t)
    (hend : t ≤ opts.endSec) : firstAt opts (frames ++ [t]) k = some t := by
  have hfind : (frames.find? fun t => opts.grid k ≤ t) = none := by
    rw [List.find?_eq_none]
    intro u hu
    simpa using hnone u hu
  rw [firstAt, List.find?_append, hfind, Option.none_or,
    List.find?_cons_of_pos (by simpa using hgrid)]
  simp [Option.filter, hend]

/-- A target that a frame has passed keeps its frame. -/
theorem firstAt_append_of_some {u : K} (h : firstAt opts frames k = some u) :
    firstAt opts (frames ++ [t]) k = some u := by
  rw [firstAt, Option.filter_eq_some_iff] at h
  rw [firstAt, List.find?_append, h.1, Option.some_or, Option.filter_eq_some_iff]
  exact ⟨rfl, h.2⟩

/-! ### The targets so far -/

/-- Before the end the next target is that of the next sample, and no frame has reached it. -/
structure OnGrid (opts : SampleOptions K) (frames : List K) (s : Sampler K) : Prop where
  ready : ∀ k, s.ready[k]? = firstAt opts frames k
  past : s.pastEnd = true → ∃ t ∈ frames, opts.endSec < t
  next : s.pastEnd = false → ∀ t ∈ frames, t < opts.grid s.ready.length
  target : s.pastEnd = false → if s.ready = [] then s.nextTarget = none
    else s.nextTarget = some (opts.startSec + s.ready.length * opts.intervalSec)

/-! ### The run -/

section
variable [IsStrictOrderedRing K]

theorem halfFrameSec_pos : (0 : K) < halfFrameSec := by
  norm_num [halfFrameSec]

theorem grid_mono (h : k ≤ n) : opts.grid k ≤ opts.grid n := by
  have hcast : (k : K) ≤ n := Nat.cast_le.mpr h
  have hmul := mul_le_mul_of_nonneg_right hcast opts.positive.le
  unfold SampleOptions.grid
  linarith

/-- A frame before the next target but one moves the target on by one interval. -/
theorem advance_of_lt {s : Sampler K} (h : OnGrid opts frames s) (hlive : s.pastEnd = false)
    (ht : t < opts.grid (s.ready.length + 1)) :
    advanceSampleTarget (some (maxTarget s.nextTarget opts.startSec)) t opts.intervalSec =
      opts.startSec + (s.ready.length + 1 : Nat) * opts.intervalSec := by
  have hmax : maxTarget s.nextTarget opts.startSec =
      opts.startSec + s.ready.length * opts.intervalSec := by
    have htarget := h.target hlive
    split at htarget
    · rename_i hnone
      rw [htarget, hnone]
      simp [maxTarget]
    · rw [htarget]
      have hnonneg := mul_nonneg (Nat.cast_nonneg (α := K) s.ready.length) opts.positive.le
      exact max_eq_left (by linarith)
  have hhalf : (0 : K) < halfFrameSec := halfFrameSec_pos
  rw [SampleOptions.grid] at ht
  push_cast at ht ⊢
  simp only [advanceSampleTarget, hmax, Option.getD_some]
  rw [if_neg (by linarith)]
  ring

theorem OnGrid.output {s : Sampler K} (h : OnGrid opts frames s) (hafter : ∀ u ∈ frames, u < t)
    (hgap : if frames = [] then t < opts.grid 1 else ∃ u ∈ frames, t - u ≤ opts.intervalSec) :
    OnGrid opts (frames ++ [t]) (SampleFrames.output opts s t) := by
  unfold SampleFrames.output
  have hpassed : ∀ k < s.ready.length, firstAt opts (frames ++ [t]) k = s.ready[k]? := by
    intro k hk
    rw [List.getElem?_eq_getElem hk]
    exact firstAt_append_of_some (by rw [← h.ready, List.getElem?_eq_getElem hk])
  by_cases hpast : s.pastEnd = true
  · obtain ⟨u, hu, hend⟩ := h.past hpast
    rw [if_pos (.inl hpast)]
    refine ⟨fun k => ?_, fun _ => ⟨u, List.mem_append_left _ hu, hend⟩, ?_, ?_⟩
    · rw [firstAt_append_of_past (hend.trans (hafter u hu)), h.ready]
    · exact fun hlive => absurd (hpast.symm.trans hlive) (by decide)
    · exact fun hlive => absurd (hpast.symm.trans hlive) (by decide)
  have hlive : s.pastEnd = false := by simpa using hpast
  by_cases hstart : t < opts.startSec - halfFrameSec
  · rw [if_pos (.inr hstart)]
    have hbelow : ∀ k, t < opts.grid k :=
      fun k => (hstart.trans_eq grid_zero.symm).trans_le (grid_mono k.zero_le)
    refine ⟨fun k => ?_, fun hp => absurd hp hpast, fun _ u hu => ?_, h.target⟩
    · rw [firstAt_append_of_lt (hbelow k), h.ready]
    · rcases List.mem_append.mp hu with hu | hu
      · exact h.next hlive u hu
      · exact List.mem_singleton.mp hu ▸ hbelow _
  rw [if_neg (by simp [hpast, hstart])]
  by_cases hend : opts.endSec < t
  · rw [if_pos hend]
    refine ⟨fun k => ?_, fun _ => ⟨t, by simp, hend⟩, ?_, ?_⟩
    · rw [firstAt_append_of_past hend]
      exact h.ready k
    · exact fun hlive => by cases hlive
    · exact fun hlive => by cases hlive
  rw [if_neg hend]
  by_cases htake : ∀ target ∈ s.nextTarget, target ≤ t + halfFrameSec
  · have hreached : opts.grid s.ready.length ≤ t := by
      have htarget := h.target hlive
      split at htarget
      · rename_i hnone
        rw [hnone, List.length_nil, grid_zero]
        exact not_lt.mp hstart
      · have hle := htake _ (by rw [htarget]; rfl)
        rw [SampleOptions.grid]
        linarith
    have hnext : t < opts.grid (s.ready.length + 1) := by
      split at hgap
      · rename_i hnone
        have hready : s.ready.length = 0 := by
          have hzero := h.ready 0
          rw [hnone] at hzero
          exact Nat.le_zero.mp (List.getElem?_eq_none_iff.mp hzero)
        rwa [hready]
      · obtain ⟨u, hu, hclose⟩ := hgap
        have hbefore := h.next hlive u hu
        rw [grid_succ]
        linarith
    rw [if_pos htake]
    refine ⟨fun k => ?_, fun hp => absurd hp hpast, fun _ u hu => ?_, fun _ => ?_⟩
    · rcases Nat.lt_trichotomy k s.ready.length with hk | rfl | hk
      · rw [hpassed k hk, List.getElem?_append_left hk]
      · rw [firstAt_append_of_none (h.next hlive) hreached (not_lt.mp hend)]
        simp
      · rw [firstAt_append_of_lt (hnext.trans_le (grid_mono hk)), ← h.ready,
          List.getElem?_eq_none (by simpa using Nat.succ_le_of_lt hk), List.getElem?_eq_none hk.le]
    · rw [List.length_append, List.length_singleton]
      rcases List.mem_append.mp hu with hu | hu
      · exact (h.next hlive u hu).trans_le (grid_mono (Nat.le_succ _))
      · exact List.mem_singleton.mp hu ▸ hnext
    · rw [if_neg (by simp), List.length_append, List.length_singleton,
        advance_of_lt h hlive hnext]
  · have hbelow : t < opts.grid s.ready.length := by
      have htarget := h.target hlive
      split at htarget
      · rw [htarget] at htake
        exact absurd (fun _ hmem => by cases hmem) htake
      · rw [htarget] at htake
        rw [SampleOptions.grid]
        have hlt := lt_of_not_ge fun hle => htake fun target hmem => by
          cases hmem
          exact hle
        linarith
    rw [if_neg htake]
    refine ⟨fun k => ?_, fun hp => absurd hp hpast, fun _ u hu => ?_, h.target⟩
    · rcases Nat.lt_or_ge k s.ready.length with hk | hk
      · rw [hpassed k hk]
      · rw [firstAt_append_of_lt (hbelow.trans_le (grid_mono hk)), h.ready]
    · rcases List.mem_append.mp hu with hu | hu
      · exact h.next hlive u hu
      · exact List.mem_singleton.mp hu ▸ hbelow

/-- The sequence starts before the second target and has no gap longer than the interval. -/
structure Steady (opts : SampleOptions K) (frames : List K) : Prop where
  increasing : frames.Pairwise (· < ·)
  gaps : frames.IsChain fun p t => t - p ≤ opts.intervalSec
  first : ∀ t ∈ frames.head?, t < opts.grid 1

omit [IsStrictOrderedRing K] in
theorem Steady.gap {before after : List K} (h : Steady opts (before ++ t :: after)) :
    if before = [] then t < opts.grid 1 else ∃ u ∈ before, t - u ≤ opts.intervalSec := by
  split
  · rename_i hnil
    subst hnil
    exact h.first t rfl
  · rename_i hne
    obtain ⟨-, -, hgap⟩ := List.isChain_append.mp h.gaps
    exact ⟨_, List.getLast_mem hne, hgap _ (List.getLast?_eq_some_getLast hne) _ rfl⟩

theorem samples_eq_firstAt (h : Steady opts frames) (k : Nat) :
    (samples opts frames)[k]? = firstAt opts frames k := by
  have hgrid : OnGrid opts frames (frames.foldl (SampleFrames.output opts) {}) := by
    refine foldl_rounds ⟨fun k => by rfl, ?_, ?_, fun _ => rfl⟩ ?_
    · exact fun hpast => by cases hpast
    · exact fun _ u hu => by cases hu
    · rintro before t after s rfl hs
      refine hs.output (fun u hu => ?_) h.gap
      exact (List.pairwise_append.mp h.increasing).2.2 u hu t List.mem_cons_self
  exact hgrid.ready k

omit [IsStrictOrderedRing K] in
theorem samples_sublist (opts : SampleOptions K) (frames : List K) :
    (samples opts frames).Sublist frames := by
  refine @foldl_rounds _ _ (SampleFrames.output opts) (fun before s => s.ready.Sublist before)
    frames {} (List.Sublist.refl []) fun before t after s _ hs => ?_
  have hskip : s.ready.Sublist (before ++ [t]) := hs.trans (List.sublist_append_left before [t])
  unfold SampleFrames.output
  split
  · exact hskip
  · split
    · exact hskip
    · split
      · exact hs.append_right [t]
      · exact hskip

/-- The frames before the one that is taken have not reached its target. -/
theorem firstAt_spec (h : Steady opts frames) (hfirst : firstAt opts frames k = some t) :
    opts.grid k ≤ t ∧ t ∈ frames ∧ (∀ p ∈ frames, p < t → p < opts.grid k) ∧
      t - opts.grid k < opts.intervalSec := by
  obtain ⟨hfind, -⟩ := Option.filter_eq_some_iff.mp hfirst
  obtain ⟨hreached, before, after, rfl, hbefore⟩ := List.find?_eq_some_iff_append.mp hfind
  have hreached : opts.grid k ≤ t := by simpa using hreached
  have hbelow : ∀ p ∈ before, p < opts.grid k := by simpa using hbefore
  obtain ⟨-, hafter, -⟩ := List.pairwise_append.mp h.increasing
  refine ⟨hreached, by simp, fun p hp hlt => ?_, ?_⟩
  · rcases List.mem_append.mp hp with hp | hp
    · exact hbelow p hp
    · rcases List.mem_cons.mp hp with rfl | hp
      · exact absurd hlt (lt_irrefl p)
      · exact absurd hlt ((List.pairwise_cons.mp hafter).1 p hp).not_gt
  · have hgap := h.gap
    split at hgap
    · have hzero : opts.grid 0 ≤ opts.grid k := grid_mono k.zero_le
      rw [grid_succ 0] at hgap
      linarith
    · obtain ⟨p, hp, hclose⟩ := hgap
      have hp' := hbelow p hp
      linarith

theorem sampling_stays_on_grid (opts : SampleOptions K) (frames : List K)
    (h : Steady opts frames) :
    (∀ k, (samples opts frames)[k]? = firstAt opts frames k) ∧
      (∀ k t, (samples opts frames)[k]? = some t → opts.grid k ≤ t ∧
        t - opts.grid k < opts.intervalSec ∧
          ∀ p ∈ frames, p < t → t - opts.grid k < t - p) ∧
      ∀ anyFrames, (samples opts anyFrames).Sublist anyFrames := by
  refine ⟨samples_eq_firstAt h, fun k t ht => ?_, samples_sublist opts⟩
  obtain ⟨hreached, -, hbefore, hclose⟩ := firstAt_spec h ((samples_eq_firstAt h k).symm.trans ht)
  exact ⟨hreached, hclose, fun p hp hlt => sub_lt_sub_left (hbefore p hp hlt) t⟩

end

/-! Three samples a second, of frames one of which comes just before its target. -/

def threeASecond : SampleOptions ℚ where
  startSec := 0
  endSec := 10
  intervalSec := 1 / 3
  positive := by norm_num

def earlyFrames : List ℚ := [0, 3 / 10, 1 / 3 - 1 / 200, 1 / 3 + 1 / 100, 2 / 3]

theorem earlyFrames_steady : Steady threeASecond earlyFrames := by
  constructor
  · norm_num [earlyFrames]
  · norm_num [earlyFrames, threeASecond]
  · norm_num [earlyFrames, threeASecond, SampleOptions.grid, halfFrameSec]

theorem sampling_stays_on_grid_early :
    (∀ k, (samples threeASecond earlyFrames)[k]? = firstAt threeASecond earlyFrames k) ∧
      (∀ k t, (samples threeASecond earlyFrames)[k]? = some t → threeASecond.grid k ≤ t ∧
        t - threeASecond.grid k < threeASecond.intervalSec ∧
          ∀ p ∈ earlyFrames, p < t → t - threeASecond.grid k < t - p) ∧
      ∀ anyFrames, (samples threeASecond anyFrames).Sublist anyFrames :=
  sampling_stays_on_grid threeASecond earlyFrames earlyFrames_steady

/-- The second sample is a frame before its target. -/
theorem sample_before_target :
    earlyFrames.Pairwise (· < ·) ∧
      (earlyFrames.IsChain fun p t => t - p ≤ threeASecond.intervalSec) ∧
      (∀ t ∈ earlyFrames.head?, t < threeASecond.startSec + threeASecond.intervalSec) ∧
      (samples threeASecond earlyFrames)[1]? = some (1 / 3 - 1 / 200) ∧
      (earlyFrames.find? fun t => threeASecond.startSec + 1 * threeASecond.intervalSec ≤ t) =
        some (1 / 3 + 1 / 100) := by
  refine ⟨?_, ?_, ?_, ?_, ?_⟩
  · norm_num [earlyFrames]
  · norm_num [earlyFrames, threeASecond]
  · norm_num [earlyFrames, threeASecond]
  · decide +kernel
  · decide +kernel

end Frcmob.OnDevice.SampleFrames
