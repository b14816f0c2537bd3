import Frcmob.AutoScout.DwellTime
import Mathlib.Data.List.TakeWhile

/-!
What a lookup in the index of the opponents finds. It looks at three sample times, the last
before the asked time and the first two from it on, so a sample within the tolerance can be
missed where samples stand close together. The merged intervals of presence cover what the
intervals of the opponents cover.
-/

open Rounding

namespace Frcmob.ShiftPlay

universe u

/-! ### Presence -/

section Presence
variable {K : Type u} [LinearOrder K]

instance : Std.Total (@spanLe K _) where
  total a b := by
    rcases lt_trichotomy a.1 b.1 with h | h | h
    · exact .inl (.inl h)
    · exact (le_total a.2 b.2).imp (fun h' => .inr ⟨h, h'⟩) (fun h' => .inr ⟨h.symm, h'⟩)
    · exact .inr (.inl h)

instance : IsTrans (K × K) spanLe where
  trans a b c hab hbc := by
    rcases hab with hab | ⟨hab, hab'⟩ <;> rcases hbc with hbc | ⟨hbc, hbc'⟩
    · exact .inl (hab.trans hbc)
    · exact .inl (hbc ▸ hab)
    · exact .inl (hab ▸ hbc)
    · exact .inr ⟨hab.trans hbc, hab'.trans hbc'⟩

theorem fst_le_of_spanLe {a b : K × K} (h : spanLe a b) : a.1 ≤ b.1 :=
  h.elim le_of_lt fun h => h.1.le

/-- The spans stand in the order of their starts. -/
def ByStart (spans : List (K × K)) : Prop :=
  spans.Pairwise fun p q => p.1 ≤ q.1

theorem byStart_insertionSort (spans : List (K × K)) :
    ByStart (spans.insertionSort spanLe) :=
  (List.pairwise_insertionSort spanLe spans).imp fst_le_of_spanLe

theorem covers_mergeInto {last : K × K} {spans : List (K × K)} (h : ByStart (last :: spans))
    (t : K) : Spans.Covers (mergeInto last spans) t ↔ Spans.Covers (last :: spans) t := by
  induction spans generalizing last with
  | nil => rfl
  | cons span rest ih =>
      have hspan := List.pairwise_cons.mp h
      have hrest := List.pairwise_cons.mp hspan.2
      by_cases hmerge : span.1 ≤ last.2
      · have hmerged : ByStart ((last.1, max last.2 span.2) :: rest) :=
          List.pairwise_cons.mpr ⟨fun q hq => hspan.1 q (List.mem_cons_of_mem _ hq), hrest.2⟩
        have hle := hspan.1 span List.mem_cons_self
        rw [mergeInto, if_pos hmerge, ih hmerged]
        simp only [Spans.covers_cons, lt_max_iff]
        rw [← or_assoc]
        refine or_congr_left ⟨?_, ?_⟩
        · rintro ⟨hstart, hend | hend⟩
          · exact .inl ⟨hstart, hend⟩
          · rcases lt_or_ge t last.2 with ht | ht
            · exact .inl ⟨hstart, ht⟩
            · exact .inr ⟨hmerge.trans ht, hend⟩
        · rintro (⟨hstart, hend⟩ | ⟨hstart, hend⟩)
          · exact ⟨hstart, .inl hend⟩
          · exact ⟨hle.trans hstart, .inr hend⟩
      · rw [mergeInto, if_neg hmerge, Spans.covers_cons, ih hspan.2]
        exact Spans.covers_cons.symm

theorem le_of_mem_mergeInto {last : K × K} {spans : List (K × K)} (h : ByStart (last :: spans))
    {p : K × K} (hp : p ∈ mergeInto last spans) : last.1 ≤ p.1 := by
  induction spans generalizing last with
  | nil => exact (List.mem_singleton.mp hp ▸ le_rfl)
  | cons span rest ih =>
      have hspan := List.pairwise_cons.mp h
      have hrest := List.pairwise_cons.mp hspan.2
      by_cases hmerge : span.1 ≤ last.2
      · rw [mergeInto, if_pos hmerge] at hp
        refine @ih (last.1, max last.2 span.2) (List.pairwise_cons.mpr ⟨fun q hq => ?_, hrest.2⟩) hp
        exact hspan.1 q (List.mem_cons_of_mem _ hq)
      · rw [mergeInto, if_neg hmerge] at hp
        rcases List.mem_cons.mp hp with rfl | hp
        · exact le_rfl
        · exact (hspan.1 span List.mem_cons_self).trans (ih hspan.2 hp)

/-- After merging, each interval starts and ends before the next one starts. -/
theorem pairwise_mergeInto {last : K × K} {spans : List (K × K)} (h : ByStart (last :: spans)) :
    (mergeInto last spans).Pairwise fun p q => p.1 ≤ q.1 ∧ p.2 ≤ q.1 := by
  induction spans generalizing last with
  | nil => exact List.pairwise_singleton ..
  | cons span rest ih =>
      have hspan := List.pairwise_cons.mp h
      have hrest := List.pairwise_cons.mp hspan.2
      by_cases hmerge : span.1 ≤ last.2
      · rw [mergeInto, if_pos hmerge]
        refine ih (List.pairwise_cons.mpr ⟨fun q hq => ?_, hrest.2⟩)
        exact hspan.1 q (List.mem_cons_of_mem _ hq)
      · rw [mergeInto, if_neg hmerge]
        refine List.pairwise_cons.mpr ⟨fun q hq => ?_, ih hspan.2⟩
        have hstart := le_of_mem_mergeInto hspan.2 hq
        exact ⟨(hspan.1 span List.mem_cons_self).trans hstart, (not_le.mp hmerge).le.trans hstart⟩

theorem covers_mergeSorted {spans : List (K × K)} (h : ByStart spans) (t : K) :
    Spans.Covers (mergeSorted spans) t ↔ Spans.Covers spans t := by
  cases spans with
  | nil => rfl
  | cons span rest => exact covers_mergeInto h t

theorem pairwise_mergeSorted {spans : List (K × K)} (h : ByStart spans) :
    (mergeSorted spans).Pairwise fun p q => p.1 ≤ q.1 ∧ p.2 ≤ q.1 := by
  cases spans with
  | nil => exact List.Pairwise.nil
  | cons span rest => exact pairwise_mergeInto h

variable [Field K] [IsStrictOrderedRing K]

/-- The overlap with intervals in the order of their starts. -/
theorem overlapDuration_eq (startSec endSec : K) {spans : List (K × K)} (h : ByStart spans) :
    overlapDuration startSec endSec spans = Spans.total (Spans.clip startSec endSec spans) := by
  induction spans with
  | nil => rfl
  | cons span rest ih =>
      have hrest := List.pairwise_cons.mp h
      have hclip : Spans.clip startSec endSec (span :: rest) =
          if max span.1 startSec < min span.2 endSec then
            (max span.1 startSec, min span.2 endSec) :: Spans.clip startSec endSec rest
          else Spans.clip startSec endSec rest := by
        simp [Spans.clip, List.filter_cons]
      rw [overlapDuration, hclip, ih hrest.2]
      split_ifs with hbefore hlt hafter hlt hlt
      · exact absurd ((le_max_right _ _).trans_lt (hlt.trans_le (min_le_left _ _)))
          (not_lt.mpr hbefore)
      · rfl
      · exact absurd ((le_max_left _ _).trans_lt (hlt.trans_le (min_le_right _ _)))
          (not_lt.mpr hafter)
      -- The loop stops here: no later interval starts before the segment ends.
      · have hnone : Spans.clip startSec endSec rest = [] := by
          refine List.eq_nil_iff_forall_not_mem.mpr fun q hq => ?_
          obtain ⟨hmem, hforward⟩ := List.mem_filter.mp hq
          obtain ⟨p, hp, rfl⟩ := List.mem_map.mp hmem
          have hend := (le_max_left p.1 startSec).trans_lt
            ((of_decide_eq_true hforward).trans_le (min_le_right p.2 endSec))
          exact absurd (hafter.trans (hrest.1 p hp)) (not_le.mpr hend)
        rw [hnone, Spans.total_nil]
      · rw [Spans.total_cons, max_eq_right (sub_nonneg.mpr hlt.le)]
      · rw [max_eq_left (sub_nonpos.mpr (not_lt.mp hlt)), zero_add]

end Presence

/-! ### The nearest opponent -/

section Lookup
variable {K : Type u} [LinearOrder K]

/-- The sample times that a lookup at `time` looks at: the last one before it and the first two
from it on. -/
structure Neighbour (times : Set K) (time t : K) : Prop where
  last : t < time → ∀ t' ∈ times, t' < time → t' ≤ t
  firstTwo : time ≤ t → ∀ a ∈ times, ∀ b ∈ times,
    time ≤ a → a < t → time ≤ b → b < t → a = b

/-- Entries in the order of their times, no two of one time. -/
def ByTime {β : Type u} (entries : List (K × β)) : Prop :=
  entries.Pairwise fun e e' => e.1 < e'.1

theorem candidates_append {α : Type u} (before after : List α) :
    candidates (before ++ after) before.length = before.getLast?.toList ++ after.take 2 := by
  rcases List.eq_nil_or_concat before with rfl | ⟨before, last, rfl⟩
  · rcases after with _ | ⟨a, _ | ⟨b, after⟩⟩ <;> simp [candidates]
  · rcases after with _ | ⟨a, _ | ⟨b, after⟩⟩ <;>
      simp [candidates, Nat.add_assoc]

variable {β : Type u}

theorem mem_getLast? {entries : List (K × β)} (h : ByTime entries) {e : K × β} :
    e ∈ entries.getLast?.toList ↔ e ∈ entries ∧ ∀ e' ∈ entries, e'.1 ≤ e.1 := by
  rcases List.eq_nil_or_concat entries with rfl | ⟨before, last, rfl⟩
  · simp
  · have hlast := (List.pairwise_append.mp (List.concat_eq_append ▸ h)).2.2
    simp only [List.concat_eq_append, List.getLast?_append, List.getLast?_singleton,
      Option.some_or, Option.toList_some, List.mem_singleton, List.mem_append]
    constructor
    · rintro rfl
      refine ⟨.inr rfl, ?_⟩
      rintro e' (he' | rfl)
      · exact (hlast e' he' e (List.mem_singleton.mpr rfl)).le
      · exact le_rfl
    · rintro ⟨he | he, hmax⟩
      · exact absurd (hmax last (.inr rfl))
          (not_le.mpr (hlast e he last (List.mem_singleton.mpr rfl)))
      · exact he

theorem mem_take_two {entries : List (K × β)} (h : ByTime entries) {e : K × β} :
    e ∈ entries.take 2 ↔
      e ∈ entries ∧ ∀ a ∈ entries, ∀ b ∈ entries, a.1 < e.1 → b.1 < e.1 → a.1 = b.1 := by
  rcases entries with _ | ⟨first, _ | ⟨second, rest⟩⟩
  · simp
  · simp
  · have hfirst := List.pairwise_cons.mp h
    have hsecond := List.pairwise_cons.mp hfirst.2
    have hlt := hfirst.1 second List.mem_cons_self
    constructor
    · intro he
      refine ⟨List.mem_of_mem_take he, ?_⟩
      -- Only the first of them can stand before one of the first two.
      have hbefore : ∀ a ∈ first :: second :: rest, a.1 < e.1 → a = first := by
        intro a ha hae
        rcases List.mem_cons.mp ha with heq | hrest
        · exact heq
        · refine absurd hae (not_lt.mpr ?_)
          rcases List.mem_cons.mp he with rfl | he
          · exact (hfirst.1 a hrest).le
          · obtain rfl := List.mem_singleton.mp he
            rcases List.mem_cons.mp hrest with rfl | hrest
            · exact le_rfl
            · exact (hsecond.1 a hrest).le
      intro a ha b hb hae hbe
      rw [hbefore a ha hae, hbefore b hb hbe]
    · rintro ⟨he, honly⟩
      rcases List.mem_cons.mp he with rfl | he
      · simp
      rcases List.mem_cons.mp he with rfl | he
      · simp
      · refine absurd ?_ hlt.ne
        exact honly first List.mem_cons_self second (by simp)
          (hfirst.1 e (List.mem_cons_of_mem _ he)) (hsecond.1 e he)

theorem le_of_mem_dropWhile {entries : List (K × β)} (h : ByTime entries) {time : K} :
    ∀ e ∈ entries.dropWhile (·.1 < time), time ≤ e.1 := by
  induction entries with
  | nil => exact fun e he => absurd he List.not_mem_nil
  | cons first rest ih =>
      have hfirst := List.pairwise_cons.mp h
      rw [List.dropWhile_cons]
      split
      · exact ih hfirst.2
      · rename_i hstop
        have hle : time ≤ first.1 := not_lt.mp fun hlt => hstop (decide_eq_true hlt)
        intro e he
        rcases List.mem_cons.mp he with rfl | he
        · exact hle
        · exact hle.trans (hfirst.1 e he).le

/-- Where the index of a time parts the entries. -/
theorem bisectLeft_parts {entries : List (K × β)} (h : ByTime entries) (time : K) :
    ∃ before after, entries = before ++ after ∧
      bisectLeft (entries.map Prod.fst) time = before.length ∧
      (∀ e ∈ before, e.1 < time) ∧ ∀ e ∈ after, time ≤ e.1 := by
  refine ⟨entries.takeWhile (·.1 < time), entries.dropWhile (·.1 < time),
    List.takeWhile_append_dropWhile.symm, ?_, ?_, le_of_mem_dropWhile h⟩
  · rw [bisectLeft, List.takeWhile_map, List.length_map]
    rfl
  · exact fun e he => by simpa using List.mem_takeWhile_imp he

/-- The entries that a lookup looks at. -/
theorem mem_candidates {entries : List (K × β)} (h : ByTime entries) (time : K) {e : K × β} :
    e ∈ candidates entries (bisectLeft (entries.map Prod.fst) time) ↔
      e ∈ entries ∧ Neighbour {t | t ∈ entries.map Prod.fst} time e.1 := by
  obtain ⟨before, after, rfl, hlen, hbefore, hafter⟩ := bisectLeft_parts h time
  have hparts := List.pairwise_append.mp h
  rw [hlen, candidates_append, List.mem_append, mem_getLast? hparts.1, mem_take_two hparts.2.1]
  have hfst : ∀ e' ∈ before ++ after, e'.1 ∈ (before ++ after).map Prod.fst :=
    fun _ => List.mem_map_of_mem
  constructor
  · rintro (⟨he, hmax⟩ | ⟨he, honly⟩)
    · refine ⟨List.mem_append_left _ he,
        ⟨fun _ t ht hlt => ?_, fun hle => absurd (hbefore e he) (not_lt.mpr hle)⟩⟩
      obtain ⟨e', he', rfl⟩ := List.mem_map.mp ht
      rcases List.mem_append.mp he' with he' | he'
      · exact hmax e' he'
      · exact absurd hlt (not_lt.mpr (hafter e' he'))
    · refine ⟨List.mem_append_right _ he, ⟨fun hlt => absurd hlt (not_lt.mpr (hafter e he)), ?_⟩⟩
      have hin : ∀ t ∈ (before ++ after).map Prod.fst, time ≤ t → ∃ e' ∈ after, e'.1 = t := by
        intro t ht hle
        obtain ⟨e', he', rfl⟩ := List.mem_map.mp ht
        rcases List.mem_append.mp he' with he' | he'
        · exact absurd (hbefore e' he') (not_lt.mpr hle)
        · exact ⟨e', he', rfl⟩
      intro _ a ha b hb hta hae htb hbe
      obtain ⟨a, hafterA, rfl⟩ := hin a ha hta
      obtain ⟨b, hafterB, rfl⟩ := hin b hb htb
      exact honly a hafterA b hafterB hae hbe
  · rintro ⟨he, hneighbour⟩
    rcases List.mem_append.mp he with he | he
    · refine .inl ⟨he, fun e' he' => ?_⟩
      exact hneighbour.last (hbefore e he) _ (hfst e' (List.mem_append_left _ he')) (hbefore e' he')
    · refine .inr ⟨he, fun a ha b hb hae hbe => ?_⟩
      exact hneighbour.firstTwo (hafter e he) _ (hfst a (List.mem_append_right _ ha)) _
        (hfst b (List.mem_append_right _ hb)) (hafter a ha) hae (hafter b hb) hbe

variable [Field K] [FloorRing K]

/-- The samples of the opponents: rounded time and place. -/
def samples (tracks : List (List (TrackPoint K))) : List (K × K × K) :=
  (tracks.flatMap located).map fun sample => (roundTo 3 sample.1.timeSec, sample.2)

def sampleTimes (tracks : List (List (TrackPoint K))) : Set K :=
  {t | ∃ sample ∈ samples tracks, sample.1 = t}

/-- The samples that a lookup at `time` compares. -/
def nearSamples (tracks : List (List (TrackPoint K))) (time : K) : Set (K × K × K) :=
  {sample | sample ∈ samples tracks ∧ |sample.1 - time| ≤ shadowTimeTolSec ∧
    Neighbour (sampleTimes tracks) time sample.1}

/-- The groups of the index. -/
theorem mem_index_samples {tracks : List (List (TrackPoint K))} {time : K} {place : K × K} :
    (∃ entry ∈ (opponentIndex tracks).samples, entry.1 = time ∧ place ∈ entry.2) ↔
      (time, place) ∈ samples tracks := by
  simp only [opponentIndex, List.mem_insertionSort, samples, List.mem_map]
  constructor
  · rintro ⟨entry, hentry, rfl, hplace⟩
    rw [Grouping.mem_group hentry] at hplace
    obtain ⟨sample, hsample, rfl⟩ := List.mem_map.mp hplace
    obtain ⟨hmem, htime⟩ := List.mem_filter.mp hsample
    exact ⟨sample, hmem, Prod.ext (of_decide_eq_true htime) rfl⟩
  · rintro ⟨sample, hsample, heq⟩
    obtain ⟨rfl, rfl⟩ := Prod.mk.inj heq
    refine ⟨_, Grouping.group_of_mem hsample, rfl, ?_⟩
    exact List.mem_map_of_mem (List.mem_filter.mpr ⟨hsample, decide_eq_true rfl⟩)

instance total_sampleTime : Std.Total fun a b : K × List (K × K) => a.1 ≤ b.1 :=
  ⟨fun a b => le_total a.1 b.1⟩

instance isTrans_sampleTime : IsTrans (K × List (K × K)) fun a b => a.1 ≤ b.1 :=
  ⟨fun _ _ _ h h' => le_trans h h'⟩

theorem byTime_index (tracks : List (List (TrackPoint K))) :
    ByTime (opponentIndex tracks).samples := by
  have hsorted := List.pairwise_insertionSort (fun a b : K × List (K × K) => a.1 ≤ b.1)
    (Grouping.group (fun sample : TrackPoint K × K × K => roundTo 3 sample.1.timeSec)
      (fun sample => sample.2) (tracks.flatMap located))
  have hdistinct : ((opponentIndex tracks).samples.map Prod.fst).Nodup :=
    ((List.perm_insertionSort _ _).map Prod.fst).nodup_iff.mpr (Grouping.nodup_keys_group ..)
  exact (hsorted.and (List.pairwise_map.mp hdistinct)).imp fun h => lt_of_le_of_ne h.1 h.2

theorem mem_index_times (tracks : List (List (TrackPoint K))) (t : K) :
    t ∈ (opponentIndex tracks).samples.map Prod.fst ↔ t ∈ sampleTimes tracks := by
  have hkeys := ((List.perm_insertionSort (fun a b : K × List (K × K) => a.1 ≤ b.1)
    (Grouping.group (fun sample : TrackPoint K × K × K => roundTo 3 sample.1.timeSec)
      (fun sample => sample.2) (tracks.flatMap located))).map Prod.fst).mem_iff (a := t)
  rw [opponentIndex, hkeys, Grouping.mem_keys_group, sampleTimes, samples]
  simp

variable [Hypot K]

/-- The distances that a lookup compares. -/
theorem minDistance_eq (tracks : List (List (TrackPoint K))) (time x y : K) :
    ∃ distances : List K, minDistance (opponentIndex tracks) time x y = distances.min? ∧
      ∀ d, d ∈ distances ↔ ∃ sample ∈ nearSamples tracks time,
        Hypot.hypot (sample.2.1 - x) (sample.2.2 - y) = d := by
  refine ⟨_, rfl, fun d => ?_⟩
  have htimes : {t | t ∈ (opponentIndex tracks).samples.map Prod.fst} = sampleTimes tracks :=
    Set.ext (mem_index_times tracks)
  rw [List.mem_map]
  simp only [List.mem_flatMap, List.mem_filter, decide_eq_true_eq, not_lt,
    mem_candidates (byTime_index tracks), htimes]
  constructor
  · rintro ⟨place, ⟨entry, ⟨⟨hentry, hneighbour⟩, hnear⟩, hplace⟩, rfl⟩
    exact ⟨(entry.1, place), ⟨mem_index_samples.mp ⟨entry, hentry, rfl, hplace⟩, hnear,
      hneighbour⟩, rfl⟩
  · rintro ⟨⟨t, place⟩, ⟨hsample, hnear, hneighbour⟩, rfl⟩
    obtain ⟨entry, hentry, rfl, hplace⟩ := mem_index_samples.mpr hsample
    exact ⟨place, ⟨entry, ⟨⟨hentry, hneighbour⟩, hnear⟩, hplace⟩, rfl⟩

end Lookup

/-! ### Both lookups -/

/-- A distance lookup returns the least distance over the samples at the neighbouring sample
times within the tolerance, none where there are none; an overlap is as long as the segment is
covered by the presence of the opponents. -/
theorem opponent_lookups [Hypot ℝ] (tracks : List (List (TrackPoint ℝ))) :
    (∀ time x y d, minDistance (opponentIndex tracks) time x y = some d ↔
      IsLeast {d | ∃ sample ∈ nearSamples tracks time,
        Hypot.hypot (sample.2.1 - x) (sample.2.2 - y) = d} d) ∧
    (∀ time x y, minDistance (opponentIndex tracks) time x y = none ↔
      nearSamples tracks time = ∅) ∧
    ∀ startSec endSec,
      overlapDuration startSec endSec (opponentIndex tracks).coverageIntervals =
        Spans.length ({t | startSec ≤ t ∧ t < endSec} ∩
          {t | ∃ points ∈ tracks, Spans.Covers (presence points) t}) := by
  refine ⟨fun time x y d => ?_, fun time x y => ?_, fun startSec endSec => ?_⟩
  · obtain ⟨distances, heq, hmem⟩ := minDistance_eq tracks time x y
    rw [heq, List.min?_eq_some_iff]
    refine and_congr (hmem d) (forall_congr' fun d' => ?_)
    rw [hmem d']
    rfl
  · obtain ⟨distances, heq, hmem⟩ := minDistance_eq tracks time x y
    rw [heq, List.min?_eq_none_iff, List.eq_nil_iff_forall_not_mem,
      Set.eq_empty_iff_forall_notMem]
    refine ⟨fun h sample hsample => ?_, fun h d hd => ?_⟩
    · exact h _ ((hmem _).mpr ⟨sample, hsample, rfl⟩)
    · obtain ⟨sample, hsample, -⟩ := (hmem d).mp hd
      exact h sample hsample
  · have hsorted := byStart_insertionSort (tracks.flatMap presence)
    have hmerged := pairwise_mergeSorted hsorted
    have hordered : Spans.Ordered _ := hmerged.imp And.right
    rw [opponentIndex, overlapDuration_eq _ _ (hmerged.imp And.left),
      ← Spans.length_covers (Spans.forward_clip _ _ _) (hordered.clip _ _)]
    refine congrArg Spans.length (Set.ext fun t => ?_)
    have hcovers : Spans.Covers ((tracks.flatMap presence).insertionSort spanLe) t ↔
        ∃ points ∈ tracks, Spans.Covers (presence points) t := by
      simp only [Spans.Covers, List.mem_insertionSort, List.mem_flatMap]
      constructor
      · rintro ⟨p, ⟨points, hpoints, hp⟩, ht⟩
        exact ⟨points, hpoints, p, hp, ht⟩
      · rintro ⟨points, hpoints, p, hp, ht⟩
        exact ⟨p, ⟨points, hpoints, hp⟩, ht⟩
    exact (Spans.covers_clip.trans (and_congr_right fun _ => (covers_mergeSorted hsorted t).trans
      hcovers))

/-- The distance of points that differ in one coordinate. -/
@[reducible] def alongAxis : Hypot ℚ := ⟨fun x y => max |x| |y|⟩

def sampleAt (timeSec fieldX : ℚ) : TrackPoint ℚ where
  timeSec := timeSec
  fieldX := some fieldX
  fieldY := some 0
  zoneKey := none
  speedMps := none

def closeSamples : List (List (TrackPoint ℚ)) :=
  [[sampleAt (95 / 10) 0], [sampleAt (99 / 10) 4]]

/-- An opponent sampled at the asked place half a second before is missed, where another one was
sampled between. -/
theorem nearest_sample_missed :
    @minDistance ℚ _ _ alongAxis (opponentIndex closeSamples) 10 0 0 = some 4 ∧
      ∃ sample ∈ samples closeSamples, |sample.1 - 10| ≤ shadowTimeTolSec ∧
        alongAxis.hypot (sample.2.1 - 0) (sample.2.2 - 0) = 0 := by
  decide +kernel

end Frcmob.ShiftPlay
