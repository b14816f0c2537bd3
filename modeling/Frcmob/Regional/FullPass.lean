import Frcmob.Lib.Rotation
import Frcmob.Regional.Rechecks
import Mathlib.Algebra.Order.Floor.Div
import Mathlib.Data.Finset.Dedup
import Mathlib.Tactic.IntervalCases

/-!
A full pass over the settled events. A tick re-checks those with the oldest marks, and a re-check
that leaves a newer mark puts its event behind all that waited. One that fails leaves the mark as
it was, and the same events are picked again.
-/

namespace Frcmob.Regional

open Places Rotation

variable {K : Type} (fromisoformat : String → Option Int)
  (settings : RegionalSettings)

/-! ### The settled events -/

def settledKeys (marks : Marks K) (tick : Tick K) : Finset String :=
  ((settledEvents fromisoformat settings marks tick.candidates tick.today).map
    (·.2.key)).toFinset

variable {fromisoformat settings} {marks : Marks K} {tick : Tick K}

theorem Tick.candidates_distinct (tick : Tick K) : (tick.candidates.map Event.key).Nodup :=
  tick.distinct.sublist ((List.take_sublist _ _).map _)

theorem settledMark_eq_some {today : Int} {event : Event} {last : K}
    (h : settledMark fromisoformat settings marks today event = some last) :
    marks event.key = some last := by
  unfold settledMark at h
  split at h
  · rename_i hmark _
    split at h
    · cases h
    · rw [hmark, h]
  · cases h

theorem mem_settledEvents {events : List Event} {today : Int} {x : K × Event} :
    x ∈ settledEvents fromisoformat settings marks events today ↔
      x.2 ∈ events ∧ settledMark fromisoformat settings marks today x.2 = some x.1 := by
  obtain ⟨last, event⟩ := x
  simp only [settledEvents, List.mem_filterMap, Option.map_eq_some_iff, Prod.mk.injEq]
  constructor
  · rintro ⟨event, hmem, mark, hmark, rfl, rfl⟩
    exact ⟨hmem, hmark⟩
  · rintro ⟨hmem, hmark⟩
    exact ⟨event, hmem, last, hmark, rfl, rfl⟩

/-- The events of the list in its order, so their keys are distinct. -/
theorem settledEvents_sublist (events : List Event) (today : Int) :
    ((settledEvents fromisoformat settings marks events today).map Prod.snd).Sublist events := by
  induction events with
  | nil => exact List.Sublist.refl _
  | cons event events ih =>
      rw [settledEvents, List.filterMap_cons]
      cases settledMark fromisoformat settings marks today event with
      | none => exact ih.cons _
      | some last => exact ih.cons_cons _

theorem mem_settledKeys {key : String} : key ∈ settledKeys fromisoformat settings marks tick ↔
    ∃ x ∈ settledEvents fromisoformat settings marks tick.candidates tick.today,
      x.2.key = key := by
  rw [settledKeys, List.mem_toFinset, List.mem_map]

theorem eq_of_key {events : List Event} (hdistinct : (events.map Event.key).Nodup) {e e' : Event}
    (he : e ∈ events) (he' : e' ∈ events) (hkey : e.key = e'.key) : e = e' :=
  List.inj_on_of_nodup_map hdistinct he he' hkey

theorem candidate_of_settled {key : String}
    (h : key ∈ settledKeys fromisoformat settings marks tick) :
    key ∈ tick.candidates.map Event.key := by
  obtain ⟨x, hx, rfl⟩ := mem_settledKeys.mp h
  exact List.mem_map_of_mem (mem_settledEvents.mp hx).1

/-! ### The loop over the processed events -/

theorem markProcessed_of_notMem {keys : List String} {key : String} (hkey : key ∉ keys) :
    markProcessed tick marks keys key = marks key := by
  induction keys generalizing marks with
  | nil => rfl
  | cons k keys ih =>
      rw [List.mem_cons, not_or] at hkey
      rw [markProcessed]
      split
      · rfl
      · rw [ih hkey.2]
        cases (tick.refresh k).markedAt with
        | none => rfl
        | some now => exact Function.update_of_ne hkey.1 _ _

theorem markProcessed_of_mem {keys : List String} {key : String} {now : K} (hkey : key ∈ keys)
    (hquiet : ∀ k ∈ keys, tick.runPostCompute → (tick.refresh k).postComputeRaises = false)
    (hnow : (tick.refresh key).markedAt = some now) :
    markProcessed tick marks keys key = some now := by
  induction keys generalizing marks with
  | nil => cases hkey
  | cons k keys ih =>
      have hgoes : ¬ (tick.runPostCompute && (tick.refresh k).postComputeRaises) = true := by
        have hk := hquiet k List.mem_cons_self
        simpa using hk
      rw [markProcessed, if_neg hgoes]
      by_cases hrest : key ∈ keys
      · exact ih hrest fun k hk => hquiet k (List.mem_cons_of_mem _ hk)
      · obtain rfl := (List.mem_cons.mp hkey).resolve_right hrest
        rw [markProcessed_of_notMem hrest, hnow]
        exact Function.update_self _ _ _

/-! ### What a tick picks -/

variable [LinearOrder K]

section
variable (fromisoformat settings)

/-- While settled events wait, none of the work raises and every settled event picked gets a mark
later than those of the events that wait. -/
def Refreshed (marks : Marks K) (tick : Tick K) : Prop :=
  ∀ y ∈ settledKeys fromisoformat settings marks tick,
    y ∉ selectedKeys fromisoformat settings marks tick →
      (∀ x ∈ selectedKeys fromisoformat settings marks tick,
        (tick.refresh x).ingest ≠ .raised ∧ ((tick.refresh x).ingest = .processed →
          tick.runPostCompute → (tick.refresh x).postComputeRaises = false)) ∧
      ∀ x ∈ settledKeys fromisoformat settings marks tick,
        x ∈ selectedKeys fromisoformat settings marks tick →
          (tick.refresh x).ingest = .processed ∧
            ∃ now, (tick.refresh x).markedAt = some now ∧ ∀ last, marks y = some last → last < now

/-- What the cap lets through. -/
def oldestSettled (marks : Marks K) (tick : Tick K) : List (K × Event) :=
  (sortBy Prod.fst
    (settledEvents fromisoformat settings marks tick.candidates tick.today)).take
      settings.recheckCap

end

theorem oldestSettled_keys : ((oldestSettled fromisoformat settings marks tick).map
    (·.2.key)).Nodup := by
  have hevents : ((settledEvents fromisoformat settings marks tick.candidates
      tick.today).map Prod.snd).Sublist tick.candidates :=
    settledEvents_sublist tick.candidates tick.today
  have hsettled := tick.candidates_distinct.sublist (hevents.map _)
  rw [List.map_map] at hsettled
  have hsorted := ((perm_sortBy Prod.fst _).map _).nodup_iff.mpr hsettled
  exact hsorted.sublist ((List.take_sublist _ _).map _)

theorem mem_of_mem_oldestSettled {x : K × Event}
    (hx : x ∈ oldestSettled fromisoformat settings marks tick) :
    x ∈ settledEvents fromisoformat settings marks tick.candidates tick.today :=
  (perm_sortBy Prod.fst _).mem_iff.mp (List.mem_of_mem_take hx)

/-- Without a full list the cap lets every settled event through. -/
theorem mem_oldestSettled_of_length_lt
    (hlength : (oldestSettled fromisoformat settings marks tick).length < settings.recheckCap)
    {x : K × Event}
    (hx : x ∈ settledEvents fromisoformat settings marks tick.candidates tick.today) :
    x ∈ oldestSettled fromisoformat settings marks tick := by
  have hsorted := (perm_sortBy Prod.fst _).mem_iff.mpr hx
  unfold oldestSettled at hlength ⊢
  rw [List.length_take] at hlength
  rwa [List.take_of_length_le (by omega)]

theorem oldestSettled_le {x y : K × Event}
    (hx : x ∈ oldestSettled fromisoformat settings marks tick)
    (hy : y ∈ settledEvents fromisoformat settings marks tick.candidates tick.today)
    (hwaits : y ∉ oldestSettled fromisoformat settings marks tick) : x.1 ≤ y.1 := by
  have hpairwise := pairwise_sortBy Prod.fst
    (settledEvents fromisoformat settings marks tick.candidates tick.today)
  have hsorted := (perm_sortBy Prod.fst _).mem_iff.mpr hy
  rw [← List.take_append_drop settings.recheckCap (sortBy _ _)] at hpairwise hsorted
  have hlater := (List.mem_append.mp hsorted).resolve_left hwaits
  exact (List.pairwise_append.mp hpairwise).2.2 x hx y hlater

/-- Everything is picked, or of the settled events those the cap lets through. -/
theorem selected_cases :
    (∀ y ∈ settledKeys fromisoformat settings marks tick,
      y ∈ selectedKeys fromisoformat settings marks tick) ∨
    ∀ y ∈ settledKeys fromisoformat settings marks tick,
      y ∈ selectedKeys fromisoformat settings marks tick →
        ∃ x ∈ oldestSettled fromisoformat settings marks tick, x.2.key = y := by
  unfold selectedKeys selectedEvents
  split
  · exact .inl fun y hy => candidate_of_settled hy
  · cases hread : tick.marksRead with
    | false => exact .inl fun y hy => candidate_of_settled hy
    | true =>
        refine .inr fun y hy hselected => ?_
        obtain ⟨x, hx, rfl⟩ := mem_settledKeys.mp hy
        obtain ⟨event, hevent, hkey⟩ := List.mem_map.mp hselected
        rcases List.mem_append.mp hevent with hdue | hrecheck
        · obtain ⟨hcandidate, hnone⟩ := List.mem_filter.mp hdue
          obtain ⟨hmem, hmark⟩ := mem_settledEvents.mp hx
          rw [eq_of_key tick.candidates_distinct hcandidate hmem hkey, hmark] at hnone
          cases hnone
        · obtain ⟨z, hz, rfl⟩ := List.mem_map.mp hrecheck
          exact ⟨z, hz, hkey⟩

theorem selected_of_oldestSettled {x : K × Event}
    (hx : x ∈ oldestSettled fromisoformat settings marks tick) :
    x.2.key ∈ selectedKeys fromisoformat settings marks tick := by
  unfold selectedKeys selectedEvents
  have hcandidate := (mem_settledEvents.mp (mem_of_mem_oldestSettled hx)).1
  split
  · exact List.mem_map_of_mem hcandidate
  · cases hread : tick.marksRead with
    | false => exact List.mem_map_of_mem hcandidate
    | true => exact List.mem_map_of_mem (List.mem_append_right _ (List.mem_map_of_mem hx))

/-! ### What a tick marks -/

theorem runTick_of_notMem {key : String}
    (hkey : key ∉ selectedKeys fromisoformat settings marks tick) :
    runTick fromisoformat settings marks tick key = marks key := by
  unfold runTick
  split
  · rfl
  · exact markProcessed_of_notMem fun hmem => hkey (List.mem_filter.mp hmem).1

theorem Refreshed.runTick (h : Refreshed fromisoformat settings marks tick) {x y : String}
    (hx : x ∈ settledKeys fromisoformat settings marks tick)
    (hpicked : x ∈ selectedKeys fromisoformat settings marks tick)
    (hy : y ∈ settledKeys fromisoformat settings marks tick)
    (hwaits : y ∉ selectedKeys fromisoformat settings marks tick) :
    ∃ now, runTick fromisoformat settings marks tick x = some now ∧
      ∀ last, marks y = some last → last < now := by
  obtain ⟨hquiet, hmarked⟩ := h y hy hwaits
  obtain ⟨hprocessed, now, hnow, hlater⟩ := hmarked x hx hpicked
  refine ⟨now, ?_, hlater⟩
  have hgoes : ¬ (selectedKeys fromisoformat settings marks tick).any
      (fun key => (tick.refresh key).ingest = .raised) = true := by
    rw [List.any_eq_true]
    rintro ⟨k, hk, hraised⟩
    exact (hquiet k hk).1 (of_decide_eq_true hraised)
  rw [Regional.runTick, if_neg hgoes]
  refine markProcessed_of_mem (List.mem_filter.mpr ⟨hpicked, decide_eq_true hprocessed⟩) ?_ hnow
  intro k hk
  obtain ⟨hmem, hdone⟩ := List.mem_filter.mp hk
  exact (hquiet k hmem).2 (of_decide_eq_true hdone)

/-! ### A full pass -/

/-- No mark is before every mark. -/
def lastMark (marks : Marks K) (key : String) : WithBot K :=
  marks key

omit [LinearOrder K] in
theorem lastMark_of_settled {x : K × Event}
    (hx : x ∈ settledEvents fromisoformat settings marks tick.candidates tick.today) :
    lastMark marks x.2.key = x.1 :=
  settledMark_eq_some (mem_settledEvents.mp hx).2

theorem turn (h : Refreshed fromisoformat settings marks tick) :
    Turn settings.recheckCap (settledKeys fromisoformat settings marks tick)
      (lastMark marks) (lastMark (runTick fromisoformat settings marks tick))
      ((settledKeys fromisoformat settings marks tick).filter
        (· ∈ selectedKeys fromisoformat settings marks tick)) := by
  have hwaits : ∀ y ∈ settledKeys fromisoformat settings marks tick,
      y ∉ (settledKeys fromisoformat settings marks tick).filter
        (· ∈ selectedKeys fromisoformat settings marks tick) →
      y ∉ selectedKeys fromisoformat settings marks tick :=
    fun y hy hout hselected => hout (Finset.mem_filter.mpr ⟨hy, hselected⟩)
  constructor
  · exact Finset.filter_subset _ _
  · intro hfew y hy
    obtain ⟨x, hx, rfl⟩ := mem_settledKeys.mp hy
    have hkeys : ((oldestSettled fromisoformat settings marks tick).map (·.2.key)).toFinset ⊆
        (settledKeys fromisoformat settings marks tick).filter
          (· ∈ selectedKeys fromisoformat settings marks tick) := by
      intro key hkey
      obtain ⟨z, hz, rfl⟩ := List.mem_map.mp (List.mem_toFinset.mp hkey)
      exact Finset.mem_filter.mpr ⟨mem_settledKeys.mpr ⟨z, mem_of_mem_oldestSettled hz, rfl⟩,
        selected_of_oldestSettled hz⟩
    have hcard := Finset.card_le_card hkeys
    rw [List.toFinset_card_of_nodup oldestSettled_keys, List.length_map] at hcard
    exact Finset.mem_filter.mpr ⟨hy, selected_of_oldestSettled
      (mem_oldestSettled_of_length_lt (hcard.trans_lt hfew) hx)⟩
  · intro x hx y hy hout
    obtain ⟨hx, hpicked⟩ := Finset.mem_filter.mp hx
    rcases @selected_cases _ fromisoformat settings marks tick _ with hall | hcapped
    · exact absurd (hall y hy) (hwaits y hy hout)
    · obtain ⟨e, he, rfl⟩ := hcapped x hx hpicked
      obtain ⟨e', he', rfl⟩ := mem_settledKeys.mp hy
      rw [lastMark_of_settled (mem_of_mem_oldestSettled he), lastMark_of_settled he']
      refine WithBot.coe_le_coe.mpr (oldestSettled_le he he' fun hmem => ?_)
      exact hwaits _ hy hout (selected_of_oldestSettled hmem)
  · intro y hy hout
    exact runTick_of_notMem (hwaits y hy hout)
  · intro x hx y hy hout
    obtain ⟨hx, hpicked⟩ := Finset.mem_filter.mp hx
    obtain ⟨now, hnow, hlater⟩ := h.runTick hx hpicked hy (hwaits y hy hout)
    obtain ⟨e, he, rfl⟩ := mem_settledKeys.mp hy
    rw [lastMark_of_settled he]
    exact (WithBot.coe_lt_coe.mpr (hlater _ (lastMark_of_settled he))).trans_eq hnow.symm

theorem settled_selected_in_turn (settings : RegionalSettings)
    (hcap : 1 ≤ settings.maxRechecksPerTick) (marks : Marks K) (ticks : Nat → Tick K) (start : Nat)
    (S : Finset String)
    (hset : ∀ k < S.card ⌈/⌉ settings.maxRechecksPerTick.toNat,
      settledKeys fromisoformat settings (marksAt fromisoformat settings marks ticks (start + k))
        (ticks (start + k)) = S)
    (hrefreshed : ∀ k < S.card ⌈/⌉ settings.maxRechecksPerTick.toNat,
      Refreshed fromisoformat settings (marksAt fromisoformat settings marks ticks (start + k))
        (ticks (start + k))) :
    ∀ key ∈ S, ∃ k < S.card ⌈/⌉ settings.maxRechecksPerTick.toNat,
      key ∈ selectedKeys fromisoformat settings
        (marksAt fromisoformat settings marks ticks (start + k)) (ticks (start + k)) := by
  intro key hkey
  have hroom : S.card ≤ (S.card ⌈/⌉ settings.maxRechecksPerTick.toNat) * settings.recheckCap := by
    have hpos : 0 < settings.maxRechecksPerTick.toNat := by omega
    have hle := (@ceilDiv_le_iff_le_mul Nat _ _ _ _ S.card _ hpos).mp le_rfl
    have hsame : settings.recheckCap = settings.maxRechecksPerTick.toNat := by
      unfold RegionalSettings.recheckCap
      omega
    rw [hsame, Nat.mul_comm]
    exact hle
  have hturn : ∀ k < S.card ⌈/⌉ settings.maxRechecksPerTick.toNat, Turn settings.recheckCap S
      (lastMark (marksAt fromisoformat settings marks ticks (start + k)))
      (lastMark (marksAt fromisoformat settings marks ticks (start + k + 1)))
      (S.filter (· ∈ selectedKeys fromisoformat settings
        (marksAt fromisoformat settings marks ticks (start + k)) (ticks (start + k)))) := by
    intro k hk
    have hk' := turn (hrefreshed k hk)
    rwa [hset k hk] at hk'
  obtain ⟨k, hk, hpicked⟩ := @exists_picked _ _ _ _ _ _ _
    (fun k => lastMark (marksAt fromisoformat settings marks ticks (start + k))) _ _
    hturn hroom hkey
  exact ⟨k, hk, (Finset.mem_filter.mp hpicked).2⟩

/-! Two settled events and one re-check a tick. -/

def twoEvents : List Event :=
  [⟨"2026aaa", by decide, some "2026-03-01"⟩, ⟨"2026bbb", by decide, some "2026-03-08"⟩]

def marchDate : String → Option Int
  | "2026-03-01" => some 739676
  | "2026-03-08" => some 739683
  | _ => none

def oneRecheck : RegionalSettings where
  settleDays := 3
  maxRechecksPerTick := 1

def bothRefreshed : Marks Nat
  | "2026aaa" => some 100
  | "2026bbb" => some 200
  | _ => none

def septemberTick (refresh : String → Refresh Nat) : Tick Nat where
  completed := twoEvents
  distinct := by decide
  maxEvents := 300
  today := 739888
  refreshAll := false
  marksRead := true
  runPostCompute := true
  refresh := refresh

/-- All goes well, `k` hours on. -/
def allProcessed (k : Nat) (_key : String) : Refresh Nat where
  ingest := .processed
  postComputeRaises := false
  markedAt := some (300 + k)

def firstFails (k : Nat) (key : String) : Refresh Nat where
  ingest := if key = "2026aaa" then .ingestFailed else .processed
  postComputeRaises := false
  markedAt := some (300 + k)

variable {marks : Marks Nat} {a b : Nat} (ha : marks "2026aaa" = some a)
  (hb : marks "2026bbb" = some b) (refresh : String → Refresh Nat)
include ha hb

theorem settledEvents_september : settledEvents marchDate oneRecheck marks
    (septemberTick refresh).candidates (septemberTick refresh).today =
      [(a, ⟨"2026aaa", by decide, some "2026-03-01"⟩),
        (b, ⟨"2026bbb", by decide, some "2026-03-08"⟩)] := by
  simp [settledEvents, septemberTick, Tick.candidates, twoEvents, settledMark, marchDate,
    oneRecheck, ha, hb]

theorem settledKeys_september :
    settledKeys marchDate oneRecheck marks (septemberTick refresh) = {"2026aaa", "2026bbb"} := by
  rw [settledKeys, settledEvents_september ha hb]
  rfl

/-- The event with the older mark is picked. -/
theorem selectedKeys_september :
    selectedKeys marchDate oneRecheck marks (septemberTick refresh) =
      [if a ≤ b then "2026aaa" else "2026bbb"] := by
  have hdue : (septemberTick refresh).candidates.filter (fun event =>
      (settledMark marchDate oneRecheck marks (septemberTick refresh).today event).isNone) = [] := by
    simp [septemberTick, Tick.candidates, twoEvents, settledMark, marchDate, oneRecheck, ha, hb]
  have hselected : selectedEvents marchDate oneRecheck marks (septemberTick refresh) =
      (eventsDueForRefresh marchDate oneRecheck (some marks) (septemberTick refresh).candidates
        (septemberTick refresh).today).1 := rfl
  rw [selectedKeys, hselected, eventsDueForRefresh]
  simp only [hdue, settledEvents_september ha hb, sortBy_pair, List.nil_append]
  split
  · rfl
  · rfl

omit ha hb

/-- The event whose ingest fails is picked at every tick, and the other one never. -/
theorem failing_event_starves :
    (∀ k, settledKeys marchDate oneRecheck
      (marksAt marchDate oneRecheck bothRefreshed (fun k => septemberTick (firstFails k)) k)
        (septemberTick (firstFails k)) = {"2026aaa", "2026bbb"}) ∧
      ∀ k, "2026bbb" ∉ selectedKeys marchDate oneRecheck
        (marksAt marchDate oneRecheck bothRefreshed (fun k => septemberTick (firstFails k)) k)
          (septemberTick (firstFails k)) := by
  have hselected : ∀ k, selectedKeys marchDate oneRecheck bothRefreshed
      (septemberTick (firstFails k)) = ["2026aaa"] := by
    intro k
    rw [@selectedKeys_september bothRefreshed 100 200 rfl rfl]
    rfl
  have hmarks : ∀ k, marksAt marchDate oneRecheck bothRefreshed
      (fun k => septemberTick (firstFails k)) k = bothRefreshed := by
    intro k
    induction k with
    | zero => rfl
    | succ k ih =>
        rw [marksAt, ih, runTick, hselected]
        rfl
  constructor
  · intro k
    rw [hmarks]
    exact @settledKeys_september bothRefreshed 100 200 rfl rfl _
  · intro k
    rw [hmarks, hselected]
    decide

theorem settled_selected_in_turn_two :
    (∃ k < 2, "2026aaa" ∈ selectedKeys marchDate oneRecheck
      (marksAt marchDate oneRecheck bothRefreshed (fun k => septemberTick (allProcessed k)) (0 + k))
        (septemberTick (allProcessed (0 + k)))) ∧
      ∃ k < 2, "2026bbb" ∈ selectedKeys marchDate oneRecheck
        (marksAt marchDate oneRecheck bothRefreshed (fun k => septemberTick (allProcessed k))
          (0 + k)) (septemberTick (allProcessed (0 + k))) := by
  have hmarks : ∀ k < 2, ∃ a b, marksAt marchDate oneRecheck bothRefreshed
      (fun k => septemberTick (allProcessed k)) (0 + k) "2026aaa" = some a ∧
      marksAt marchDate oneRecheck bothRefreshed
        (fun k => septemberTick (allProcessed k)) (0 + k) "2026bbb" = some b ∧
      a < 300 + (0 + k) ∧ b < 300 + (0 + k) := by
    have hfirst : marksAt marchDate oneRecheck bothRefreshed
        (fun k => septemberTick (allProcessed k)) 1 =
          Function.update bothRefreshed "2026aaa" (some 300) := by
      rw [marksAt, runTick, marksAt, @selectedKeys_september bothRefreshed 100 200 rfl rfl]
      rfl
    intro k hk
    interval_cases k
    · exact ⟨100, 200, rfl, rfl, by decide, by decide⟩
    · rw [Nat.zero_add, hfirst]
      exact ⟨300, 200, rfl, rfl, by decide, by decide⟩
  suffices hturn : ∀ key ∈ ({"2026aaa", "2026bbb"} : Finset String), ∃ k < 2,
      key ∈ selectedKeys marchDate oneRecheck (marksAt marchDate oneRecheck bothRefreshed
        (fun k => septemberTick (allProcessed k)) (0 + k))
          (septemberTick (allProcessed (0 + k))) from
    ⟨hturn "2026aaa" (by decide), hturn "2026bbb" (by decide)⟩
  refine settled_selected_in_turn oneRecheck (by decide) bothRefreshed
    (fun k => septemberTick (allProcessed k)) 0 {"2026aaa", "2026bbb"} ?_ ?_
  · intro k hk
    obtain ⟨a, b, ha, hb, -⟩ := hmarks k hk
    exact settledKeys_september ha hb _
  · intro k hk y hy _
    obtain ⟨a, b, ha, hb, hlt⟩ := hmarks k hk
    refine ⟨fun _ _ => ⟨by simp [septemberTick, allProcessed], fun _ _ => rfl⟩, fun _ _ _ => ?_⟩
    refine ⟨rfl, _, rfl, fun last hlast => ?_⟩
    rw [settledKeys_september ha hb] at hy
    rcases Finset.mem_insert.mp hy with rfl | hy
    · rw [ha, Option.some.injEq] at hlast
      exact hlast ▸ hlt.1
    · rw [Finset.mem_singleton.mp hy, hb, Option.some.injEq] at hlast
      exact hlast ▸ hlt.2

end Frcmob.Regional
