import Frcmob.Offline.Replay

/-!
Writes to one record replay in the order they were made, in every run whose writes to
one record draw growing clock values. One that draws the millisecond of an earlier one
still waiting may overtake it, as the sort breaks the tie by the random part of the ids.
-/

namespace Frcmob.Offline
open Transition

/-- Writes to one record go out, and are accepted, in the order they were made. -/
structure InOrder (s : State) : Prop where
  sending : ∀ r, s.request = some r → ∀ y ∈ s.store, y.Pending →
    y.recordKey = r.item.recordKey → s.rank r.item.id ≤ s.rank y.id
  accepting : s.accepted.Pairwise fun x y => x.recordKey = y.recordKey → s.rank x.id ≤ s.rank y.id
  lastAccepted : ∀ key, (∀ row ∈ s.store, row.recordKey ≠ key) →
    ((s.accepted.filter (·.recordKey = key)).getLast?.map (·.id)) =
      (s.made.filter (·.recordKey = key)).getLast?.map (·.id)

theorem OrderInv.reachable {backend : Backend} {s : State}
    (h : ReachableWhen (queueSystem backend) (DrawnLater backend) s) : OrderInv backend s := by
  refine h.invariant ?_ ?_
  · intro s hs
    rw [show s = {} from hs]
    refine ⟨⟨.start, nofun, nofun⟩, ?_, nofun, ⟨nofun, nofun, .nil, nofun⟩⟩
    cases backend with
    | indexedDb => exact fun x hx => absurd hx (Table.notMem_empty x)
    | localStorage => exact List.Sublist.refl _
  · intro s a t hs hlater hstep
    exact hs.step hlater (stepped_of_step hstep)

/-- A write whose record has nothing left in the store has been accepted. -/
theorem OrderInv.made_accepted {backend : Backend} {s : State} (h : OrderInv backend s)
    {m : QueuedMutation} (hm : m ∈ s.made) (hnone : ∀ row ∈ s.store, row.recordKey ≠ m.recordKey) :
    ∃ z ∈ s.accepted, z.SameWrite m := by
  cases h.kept.kept m hm with
  | inl hrow =>
      obtain ⟨row, hrow, hsame⟩ := hrow
      exact absurd hsame.recordKey (hnone row hrow)
  | inr hdone =>
      obtain ⟨p, hp, hsame, hsuccess⟩ := hdone
      exact ⟨p.1, h.accepted.delivered p hp hsuccess, hsame⟩

/-- The last element of a filtered list ranks highest among its elements. -/
private theorem rank_le_getLast {s : State} {l : List QueuedMutation} {key : String}
    (hl : l.Pairwise fun x y => x.recordKey = y.recordKey → s.rank x.id ≤ s.rank y.id)
    {x z : QueuedMutation} (hx : x ∈ l.filter (·.recordKey = key))
    (hz : (l.filter (·.recordKey = key)).getLast? = some z) : s.rank x.id ≤ s.rank z.id := by
  have hne : l.filter (·.recordKey = key) ≠ [] := List.ne_nil_of_mem hx
  have hlast : (l.filter (·.recordKey = key)).getLast hne = z :=
    Option.some.inj ((List.getLast?_eq_some_getLast hne).symm.trans hz)
  have hpair : (l.filter (·.recordKey = key)).Pairwise
      fun x y => s.rank x.id ≤ s.rank y.id := by
    refine (hl.filter _).imp_of_mem ?_
    intro a b ha hb hab
    have hka : a.recordKey = key := by simpa using (List.mem_filter.mp ha).2
    have hkb : b.recordKey = key := by simpa using (List.mem_filter.mp hb).2
    exact hab (hka.trans hkb.symm)
  exact hlast ▸ hpair.rel_getLast_of_rel_getLast_getLast hx (le_refl _)

theorem OrderInv.lastAccepted {backend : Backend} {s : State} (h : OrderInv backend s)
    {key : String} (hnone : ∀ row ∈ s.store, row.recordKey ≠ key) :
    ((s.accepted.filter (·.recordKey = key)).getLast?.map (·.id)) =
      (s.made.filter (·.recordKey = key)).getLast?.map (·.id) := by
  have hmade : s.made.Pairwise fun x y => x.recordKey = y.recordKey →
      s.rank x.id ≤ s.rank y.id := by
    refine (pairwise_rank h.kept.stored (.refl _)).imp ?_
    intro x y hlt _
    exact le_of_lt hlt
  have hto : ∀ z ∈ s.accepted.filter (·.recordKey = key),
      ∃ m ∈ s.made.filter (·.recordKey = key), z.id = m.id := by
    intro z hz
    obtain ⟨hz, hkey⟩ := List.mem_filter.mp hz
    obtain ⟨m, hm, hsame⟩ := h.accepted.origin z hz
    exact ⟨m, List.mem_filter.mpr ⟨hm, by simpa [← hsame.recordKey] using hkey⟩, hsame.1⟩
  have hfrom : ∀ m ∈ s.made.filter (·.recordKey = key),
      ∃ z ∈ s.accepted.filter (·.recordKey = key), z.id = m.id := by
    intro m hm
    obtain ⟨hm, hkey⟩ := List.mem_filter.mp hm
    have hkey : m.recordKey = key := by simpa using hkey
    obtain ⟨z, hz, hsame⟩ := h.made_accepted hm (hkey ▸ hnone)
    exact ⟨z, List.mem_filter.mpr ⟨hz, by simpa [hsame.recordKey] using hkey⟩, hsame.1⟩
  cases hz : (s.accepted.filter (·.recordKey = key)).getLast? with
  | none =>
      have hempty : s.made.filter (·.recordKey = key) = [] := by
        refine List.eq_nil_iff_forall_not_mem.mpr ?_
        intro m hm
        obtain ⟨z, hzm, -⟩ := hfrom m hm
        rw [List.getLast?_eq_none_iff.mp hz] at hzm
        exact List.not_mem_nil hzm
      rw [hempty]; rfl
  | some z =>
      obtain ⟨m, hm, hid⟩ := hto z (List.mem_of_getLast? hz)
      obtain ⟨l, hl⟩ : ∃ l, (s.made.filter (·.recordKey = key)).getLast? = some l :=
        ⟨_, List.getLast?_eq_some_getLast (List.ne_nil_of_mem hm)⟩
      obtain ⟨z', hz', hid'⟩ := hfrom l (List.mem_of_getLast? hl)
      have hle : s.rank z.id ≤ s.rank l.id := hid ▸ rank_le_getLast hmade hm hl
      have hge : s.rank l.id ≤ s.rank z.id := hid' ▸ rank_le_getLast h.accepted.ordered hz' hz
      have hzmade : z.id ∈ s.made.map (·.id) :=
        hid ▸ List.mem_map_of_mem (List.mem_filter.mp hm).1
      rw [hl, Option.map_some, Option.map_some, Option.some_inj]
      exact (State.rank_inj hzmade).mp (le_antisymm hle hge)

/-- Over every run of enqueues and flushes with every outcome, whose writes to one
record draw growing clock values and in which the server carries out nothing that the
phone gave up on. -/
theorem writes_in_order (backend : Backend) {s : State}
    (h : ReachableWhen (queueSystem backend) (DrawnLater backend) s) : InOrder s := by
  have hinv := OrderInv.reachable h
  refine ⟨?_, hinv.accepted.ordered, fun key hnone => hinv.lastAccepted hnone⟩
  intro r hr y hy hpy hsame
  obtain ⟨f, running, sent⟩ := Option.bind_eq_some_iff.mp hr
  exact (hinv.flush f running).sending r sent y hy hpy hsame

/-! Two saves of one pit entry in one millisecond; the second one's suffix sorts first. -/

def tiedFirst : QueuedMutation := .fresh "1000-zz9x4k" 1000 (pitSave "frc118" "tank")

def tiedSecond : QueuedMutation := .fresh "1000-a1b2c3" 1000 (pitSave "frc118" "swerve")

def tiedRun : List Action :=
  [.enqueue tiedFirst.id 1000 tiedFirst.toMutation,
    .enqueue tiedSecond.id 1000 tiedSecond.toMutation,
    .beginFlush [tiedSecond, tiedFirst], .next]

/-- The flush sends the later save while the earlier one is pending. -/
theorem write_overtaken : ∃ s, Reachable (queueSystem .indexedDb) s ∧ ¬ InOrder s := by
  refine ⟨_, reachable_of_run tiedRun rfl rfl, ?_⟩
  intro h
  have hbad := h.sending ⟨tiedSecond, false⟩ rfl tiedFirst (by decide +kernel) rfl (by decide)
  revert hbad
  decide +kernel

/-- The same saves a millisecond apart, the first one's answer lost. -/
def retriedRun : List Action :=
  [.enqueue "1000-zz9x4k" 1000 (pitSave "frc118" "tank"),
    .beginFlush [tiedFirst], .next, .serve,
    .enqueue "1001-a1b2c3" 1001 (pitSave "frc118" "swerve"), .answer .failed, .endFlush]

theorem writes_in_order_retried :
    ∃ s, (queueSystem .indexedDb).run {} retriedRun = some s ∧ InOrder s :=
  ⟨_, rfl, writes_in_order .indexedDb
    (reachableWhen_of_run retriedRun (.start rfl) (by decide +kernel) rfl)⟩

end Frcmob.Offline
