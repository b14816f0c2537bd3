import Frcmob.Offline.Order
import Frcmob.Offline.PitSaves

/-!
Pit notes end at the last save in every run in which no direct save is stored while an
earlier one waits in the queue: the queue delivers the waiting ones in order, so the
last one made is the last one stored.
-/

namespace Frcmob.Offline
open Transition

/-- Where the entry stands: a refused save is kept on the phone; or the last save is
pending, and is what the server stores once it has accepted it; or nothing is queued,
and the server stores the direct save it has taken or else the last save. -/
inductive PitProgress (e : PitEntry) (s : PitState) : Prop
  | blocked {row : QueuedMutation} (stored : row ∈ s.queue.store)
      (key : row.recordKey = e.recordKey) (refused : ¬ row.Pending)
  | waiting {m : QueuedMutation} (made : m ∈ s.queue.made) (key : m.recordKey = e.recordKey)
      (latest : ∀ x ∈ s.queue.made, x.recordKey = e.recordKey →
        s.queue.rank x.id ≤ s.queue.rank m.id)
      (pending : ∃ row ∈ s.queue.store, row.Pending ∧ row.SameWrite m)
      (last : s.last = some m.payload)
      (accepted : ∀ z ∈ s.queue.accepted, z.id = m.id →
        s.stored = some (normalizePayload m.payload))
      (unserved : ∀ d, s.direct = some d → d.served = false)
  | clear (empty : ∀ row ∈ s.queue.store, row.recordKey ≠ e.recordKey)
      (served : ∀ d, s.direct = some d → d.served = true →
        s.stored = some (normalizePayload d.payload))
      (settled : (∀ d, s.direct = some d → d.served = false) → ∀ payload,
        s.last = some payload → s.stored = some (normalizePayload payload))

structure PitInv (backend : Backend) (e : PitEntry) (s : PitState) : Prop where
  order : OrderInv backend s.queue
  progress : PitProgress e s

theorem afterQueue_eq {s : PitState} {e : PitEntry} {q : State} (writes : List QueuedMutation)
    (h : q.accepted = s.queue.accepted ++ writes) :
    s.afterQueue e q = { s with queue := q, stored := upsertAccepted e s.stored writes } := by
  simp [PitState.afterQueue, h]

theorem afterQueue_silent {s : PitState} {e : PitEntry} {q : State}
    (h : q.accepted = s.queue.accepted) : s.afterQueue e q = { s with queue := q } := by
  rw [afterQueue_eq [] (by simpa using h)]
  rfl

theorem SameWrite.payload {x y : QueuedMutation} (h : x.SameWrite y) : x.payload = y.payload := by
  rw [h.2.2]

/-- The invariant reads only the rows, the saves and the log of the queue. -/
theorem PitProgress.congr {e : PitEntry} {s : PitState} (h : PitProgress e s) {q : State}
    (hstore : q.store = s.queue.store) (hmade : q.made = s.queue.made)
    (haccepted : q.accepted = s.queue.accepted) : PitProgress e { s with queue := q } := by
  cases h with
  | blocked stored key refused => exact .blocked (hstore ▸ stored) key refused
  | waiting made key latest pending last accepted unserved =>
      refine .waiting (hmade ▸ made) key ?_ (hstore ▸ pending) last ?_ unserved
      · simpa only [hmade, rank_congr hmade] using latest
      · simpa only [haccepted] using accepted
  | clear empty served settled => exact .clear (hstore ▸ empty) served settled

/-- Saves with one id are one save. -/
theorem StoreInv.made_eq {s : State} (h : StoreInv s) {x y : QueuedMutation} (hx : x ∈ s.made)
    (hy : y ∈ s.made) (hid : x.id = y.id) : x = y :=
  List.inj_on_of_nodup_map h.ids hx hy hid

theorem PitProgress.enqueueOther {e : PitEntry} {s : PitState} (hs : StoreInv s.queue)
    (h : PitProgress e s) {item : QueuedMutation} (fresh : item.id ∉ s.queue.made.map (·.id))
    (other : item.recordKey ≠ e.recordKey) :
    PitProgress e { s with queue := enqueueStep s.queue item } := by
  have hkeep : ∀ row ∈ s.queue.store, row ∈ (enqueueStep s.queue item).store :=
    fun row hrow => Table.mem_put_of_ne hrow (hs.new_id fresh row hrow)
  cases h with
  | blocked stored key refused => exact .blocked (hkeep _ stored) key refused
  | @waiting m made key latest pending last accepted unserved =>
      refine .waiting (List.mem_append_left _ made) key ?_ ?_ last accepted unserved
      · intro x hx hkey
        cases List.mem_append.mp hx with
        | inr hnew => exact absurd (List.mem_singleton.mp hnew ▸ hkey) other
        | inl hold =>
            rw [rank_enqueue (List.mem_map_of_mem hold), rank_enqueue (List.mem_map_of_mem made)]
            exact latest x hold hkey
      · obtain ⟨row, hrow, hpending, hsame⟩ := pending
        exact ⟨row, hkeep row hrow, hpending, hsame⟩
  | clear empty served settled =>
      refine .clear ?_ served settled
      intro row hrow
      cases Table.mem_put.mp hrow with
      | inl heq => exact heq ▸ other
      | inr hold => exact empty row hold.1

/-- The server accepts the queued write in flight. -/
theorem PitProgress.accept {backend : Backend} {e : PitEntry} {s : PitState}
    (hs : OrderInv backend s.queue) (h : PitProgress e s) {f : Flush} {r : Request}
    (running : s.queue.flush = some f) (sent : f.request = some r) {q : State}
    (hstore : q.store = s.queue.store) (hmade : q.made = s.queue.made)
    (haccepted : q.accepted = s.queue.accepted ++ [r.item]) :
    PitProgress e (s.afterQueue e q) := by
  have hitem := hs.kept.stored.request_stored running sent
  have hpending := (hs.kept.stored.flush f running).pending r sent
  rw [afterQueue_eq _ haccepted]
  cases h with
  | blocked stored key refused => exact .blocked (hstore ▸ stored) key refused
  | @waiting m made key latest pending last accepted unserved =>
      obtain ⟨row, hrow, hrowPending, hsame⟩ := pending
      refine .waiting (hmade ▸ made) key ?_ ⟨row, hstore ▸ hrow, hrowPending, hsame⟩ last ?_
        unserved
      · simpa only [hmade, rank_congr hmade] using latest
      · intro z hz hid
        rw [haccepted] at hz
        by_cases hrm : r.item.id = m.id
        · -- the write in flight is the last save itself
          have heq : r.item = row := Table.eq_of_key hitem hrow (hrm.trans hsame.1.symm)
          have hsame' : r.item.SameWrite m := heq ▸ hsame
          simp [upsertAccepted, hsame'.recordKey, key, SameWrite.payload hsame']
        · have hz : z ∈ s.queue.accepted := by
            cases List.mem_append.mp hz with
            | inl hold => exact hold
            | inr hnew => exact absurd (List.mem_singleton.mp hnew ▸ hid) hrm
          have hother : r.item.recordKey ≠ e.recordKey := by
            -- after the last save was accepted no earlier one of the entry is pending
            intro hrk
            obtain ⟨x, hx, hzx⟩ := hs.accepted.origin z hz
            have hxm : x = m := hs.kept.stored.made_eq hx made (hzx.1.symm.trans hid)
            have hzkey : z.recordKey = e.recordKey := hzx.recordKey.trans (hxm ▸ key)
            obtain ⟨y, hy, hry⟩ := hs.kept.stored.origin _ hitem
            have hle := hs.accepted.first z hz r.item hitem hpending (hrk.trans hzkey.symm)
            have hge := latest y hy (hry.recordKey.symm.trans hrk)
            rw [hid] at hle
            rw [← hry.1] at hge
            exact hrm ((State.rank_inj (hs.kept.stored.made_id hitem)).mp (le_antisymm hge hle))
          simpa [upsertAccepted, hother] using accepted z hz hid
  | clear empty served settled =>
      have hother := empty _ hitem
      have hsilent : upsertAccepted e s.stored [r.item] = s.stored := by
        simp [upsertAccepted, hother]
      rw [hsilent]
      exact .clear (hstore ▸ empty) served settled

/-- The store write after an answer, once a delivered write is in the server's log. -/
theorem PitProgress.settle {backend : Backend} {e : PitEntry} {s : PitState}
    (hs : OrderInv backend s.queue) (h : PitProgress e s) {f : Flush} {r : Request}
    (running : s.queue.flush = some f) (sent : f.request = some r) {q : State} {v : Verdict}
    (hstore : q.store = Frcmob.Offline.settle s.queue.store r.item v)
    (hmade : q.made = s.queue.made) (haccepted : q.accepted = s.queue.accepted)
    (hdelivered : v = .delivered → r.item ∈ s.queue.accepted) :
    PitProgress e { s with queue := q } := by
  have hitem := hs.kept.stored.request_stored running sent
  have hpending := (hs.kept.stored.flush f running).pending r sent
  by_cases hblocked : ∃ row ∈ q.store, row.recordKey = e.recordKey ∧ ¬ row.Pending
  · obtain ⟨row, hrow, hkey, hrefused⟩ := hblocked
    exact .blocked hrow hkey hrefused
  have hall : ∀ row ∈ q.store, row.recordKey = e.recordKey → row.Pending := by
    intro row hrow hkey
    by_contra hnot
    exact hblocked ⟨row, hrow, hkey, hnot⟩
  cases h with
  | @blocked row stored key refused =>
      refine absurd (hall row ?_ key) refused
      rw [hstore]
      refine mem_settle_of_ne v stored ?_
      intro hid
      exact refused ((Table.eq_of_key stored hitem hid) ▸ hpending)
  | @waiting m made key latest pending last accepted unserved =>
      obtain ⟨row, hrow, hrowPending, hsame⟩ := pending
      have hlatest : ∀ x ∈ q.made, x.recordKey = e.recordKey → q.rank x.id ≤ q.rank m.id := by
        simpa only [hmade, rank_congr hmade] using latest
      have haccepted' : ∀ z ∈ q.accepted, z.id = m.id →
          s.stored = some (normalizePayload m.payload) := by
        simpa only [haccepted] using accepted
      by_cases hrm : r.item.id = m.id
      · have heq : r.item = row := Table.eq_of_key hitem hrow (hrm.trans hsame.1.symm)
        have hsame' : r.item.SameWrite m := heq ▸ hsame
        by_cases hv : v = .delivered
        · refine .clear ?_ (fun d hd hserved => ?_) ?_
          · intro y hy hkey
            have hy' := hy
            rw [hstore] at hy'
            cases mem_settle_pending hy' (hall y hy hkey) with
            | inl hretry => rw [hv] at hretry; cases hretry.1
            | inr hold =>
                obtain ⟨x, hx, hyx⟩ := hs.kept.stored.origin y hold.1
                have hle := (hs.flush f running).sending r sent y hold.1 (hall y hy hkey)
                  (hkey.trans (key.symm.trans hsame'.recordKey.symm))
                have hge := latest x hx (hyx.recordKey.symm.trans hkey)
                rw [← hyx.1, ← hrm] at hge
                exact hold.2 ((State.rank_inj (hs.kept.stored.made_id hold.1)).mp
                  (le_antisymm hge hle))
          · rw [unserved d hd] at hserved
            cases hserved
          · intro _ payload hpayload
            have hpayload' : m.payload = payload := Option.some.inj (last.symm.trans hpayload)
            exact hpayload' ▸ accepted r.item (hdelivered hv) hrm
        · obtain ⟨row', hrow', hsame''⟩ := settle_keeps s.queue.store r.item hv
          have hrow' : row' ∈ q.store := hstore ▸ hrow'
          have hkey' : row'.recordKey = e.recordKey :=
            hsame''.recordKey.trans (hsame'.recordKey.trans key)
          exact .waiting (hmade ▸ made) key hlatest
            ⟨row', hrow', hall row' hrow' hkey', hsame''.trans hsame'⟩ last haccepted' unserved
      · refine .waiting (hmade ▸ made) key hlatest ⟨row, ?_, hrowPending, hsame⟩ last haccepted'
          unserved
        rw [hstore]
        exact mem_settle_of_ne v hrow fun hid => hrm (hid.symm.trans hsame.1)
  | clear empty served settled =>
      refine .clear ?_ served settled
      intro row hrow
      rw [hstore] at hrow
      cases mem_settle hrow with
      | inl hsame => exact hsame.recordKey ▸ empty _ hitem
      | inr hold => exact empty row hold.1

/-- The queue once the server has accepted the write in flight. -/
def served (q : State) (f : Flush) (r : Request) : State :=
  { q with
    flush := some { f with request := some { r with served := true } }
    accepted := q.accepted ++ [r.item] }

/-- A success answer to a write not yet accepted accepts it first. -/
theorem answerStep_served {q : State} {f : Flush} {r : Request} {outcome : Outcome}
    (hnew : r.served = false) (hv : verdict outcome = .delivered) :
    answerStep q f r outcome =
      answerStep (served q f r) { f with request := some { r with served := true } }
        { r with served := true } outcome := by
  simp [answerStep, served, acceptedBy, Flush.settled, hnew, hv]

theorem PitProgress.answer {backend : Backend} {e : PitEntry} {s : PitState}
    (hs : OrderInv backend s.queue) (h : PitProgress e s) {f : Flush} {r : Request}
    (running : s.queue.flush = some f) (sent : f.request = some r) (outcome : Outcome) :
    PitProgress e (s.afterQueue e (answerStep s.queue f r outcome)) := by
  by_cases hnow : r.served = false ∧ verdict outcome = .delivered
  · rw [answerStep_served hnow.1 hnow.2]
    have hserved : OrderInv backend (served s.queue f r) := 
      hs.step (a := .serve) trivial (.serve running sent)
    have hprogress := h.accept hs running sent (q := served s.queue f r) rfl rfl rfl
    have hin : r.item ∈ s.queue.accepted ++ [r.item] :=
      List.mem_append_right _ (List.mem_singleton_self _)
    rw [afterQueue_eq [r.item] rfl] at hprogress
    rw [afterQueue_eq [r.item] (by simp [answerStep, served, acceptedBy])]
    exact hprogress.settle hserved rfl rfl rfl rfl
      (by simp [answerStep, served, acceptedBy]) fun _ => hin
  · have hby : acceptedBy r (verdict outcome) = [] := by
      cases hr : r.served with
      | true => simp [acceptedBy, hr]
      | false =>
          have hverdict : verdict outcome ≠ .delivered := fun hv => hnow ⟨hr, hv⟩
          simp [acceptedBy, hr, hverdict]
    have haccepted : (answerStep s.queue f r outcome).accepted = s.queue.accepted := by
      simp [answerStep, hby]
    rw [afterQueue_silent haccepted]
    refine h.settle hs running sent rfl rfl haccepted ?_
    intro hv
    cases hr : r.served with
    | true => exact (hs.flush f running).served r sent hr
    | false => exact absurd ⟨hr, hv⟩ hnow

theorem PitProgress.queue {backend : Backend} {e : PitEntry} {s : PitState}
    (hs : OrderInv backend s.queue) (h : PitProgress e s) {a : Action} {q : State}
    (other : OtherRecord e a) (later : DrawnLater backend s.queue a)
    (hstep : Stepped backend s.queue a q) : PitProgress e (s.afterQueue e q) := by
  cases hstep with
  | enqueue id queuedAt mutation =>
      rw [afterQueue_silent (by rfl)]
      exact h.enqueueOther hs.kept.stored later.1 other
  | serve running sent => exact h.accept hs running sent rfl rfl rfl
  | answer outcome running sent => exact h.answer hs running sent outcome
  | beginFlush _ _ | skip _ _ _ _ | send _ _ _ _ _ | endFlush _ | abort _ =>
      rw [afterQueue_silent (by rfl)]
      exact h.congr rfl rfl rfl
  | serveLate late => exact later.elim

/-- A failed direct save becomes the newest write of its record. -/
theorem PitProgress.lost {backend : Backend} {e : PitEntry} {s : PitState}
    (hs : OrderInv backend s.queue) {item : QueuedMutation}
    (key : item.recordKey = e.recordKey) (hpending : item.Pending)
    (fresh : item.id ∉ s.queue.made.map (·.id)) (strays : List Payload) :
    PitProgress e
      { s with
        queue := enqueueStep s.queue item
        direct := none
        strays := strays
        last := some item.payload } := by
  by_cases hblocked : ∃ row ∈ s.queue.store, row.recordKey = e.recordKey ∧ ¬ row.Pending
  · obtain ⟨row, hrow, hkey, hrefused⟩ := hblocked
    exact .blocked (Table.mem_put_of_ne hrow (hs.kept.stored.new_id fresh row hrow)) hkey hrefused
  · refine .waiting (m := item) (by simp [enqueueStep]) key ?_
      ⟨item, Table.mem_put_self .., hpending, .refl item⟩ rfl ?_ nofun
    · intro x hx _
      cases List.mem_append.mp hx with
      | inr hnew => exact List.mem_singleton.mp hnew ▸ le_refl _
      | inl hold =>
          rw [rank_enqueue (List.mem_map_of_mem hold), rank_enqueued fresh]
          exact le_of_lt (State.rank_lt (List.mem_map_of_mem hold))
    · intro z hz hid
      obtain ⟨x, hx, hzx⟩ := hs.accepted.origin z hz
      exact absurd (hid ▸ hzx.1 ▸ List.mem_map_of_mem hx) fresh

theorem PitInv.step {backend : Backend} {e : PitEntry} {s t : PitState} {a : PitAction}
    (h : PitInv backend e s) (safe : PitSafe backend e s a)
    (hstep : pitStep backend e s a = some t) : PitInv backend e t := by
  cases a with
  | queue a =>
      simp only [pitStep, Option.ite_none_right_eq_some, Option.map_eq_some_iff] at hstep
      obtain ⟨other, q, hq, rfl⟩ := hstep
      exact ⟨h.order.step safe (stepped_of_step hq),
        h.progress.queue h.order other safe (stepped_of_step hq)⟩
  | save payload =>
      simp only [pitStep, Option.ite_none_right_eq_some] at hstep
      obtain ⟨idle, hstep⟩ := hstep
      cases hstep
      refine ⟨h.order, ?_⟩
      cases h.progress with
      | blocked stored key refused => exact .blocked stored key refused
      | waiting made key latest pending last accepted _ =>
          exact .waiting made key latest pending last accepted fun d hd => by cases hd; rfl
      | clear empty _ settled =>
          refine .clear empty (fun d hd hserved => ?_) fun _ => settled fun d hd => ?_
          · cases hd
            cases hserved
          · rw [idle] at hd
            cases hd
  | serveDirect =>
      simp only [pitStep, Option.bind_eq_some_iff, Option.ite_none_left_eq_some] at hstep
      obtain ⟨d, hd, -, hstep⟩ := hstep
      cases hstep
      refine ⟨h.order, ?_⟩
      cases h.progress with
      | blocked stored key refused => exact .blocked stored key refused
      | waiting made key _ pending _ _ _ =>
          obtain ⟨row, hrow, hpending, hsame⟩ := pending
          exact absurd (hsame.recordKey.trans key) (safe row hrow hpending)
      | clear empty _ _ =>
          refine .clear empty (fun d' hd' _ => by cases hd'; rfl) fun hnone => ?_
          exact absurd (hnone _ rfl) (by simp)
  | confirmed =>
      simp only [pitStep, Option.bind_eq_some_iff, Option.ite_none_right_eq_some] at hstep
      obtain ⟨d, hd, hserved, hstep⟩ := hstep
      cases hstep
      refine ⟨h.order, ?_⟩
      cases h.progress with
      | blocked stored key refused => exact .blocked stored key refused
      | waiting _ _ _ _ _ _ unserved =>
          rw [unserved d hd] at hserved
          cases hserved
      | clear empty served _ =>
          refine .clear empty nofun fun _ payload hpayload => ?_
          cases hpayload
          exact served d hd hserved
  | refused =>
      simp only [pitStep, Option.bind_eq_some_iff, Option.ite_none_left_eq_some] at hstep
      obtain ⟨d, hd, hserved, hstep⟩ := hstep
      cases hstep
      refine ⟨h.order, ?_⟩
      cases h.progress with
      | blocked stored key refused => exact .blocked stored key refused
      | waiting made key latest pending last accepted _ =>
          exact .waiting made key latest pending last accepted nofun
      | clear empty _ settled =>
          refine .clear empty nofun fun _ => settled fun d' hd' => ?_
          rw [hd] at hd'
          cases hd'
          simpa using hserved
  | lost id queuedAt =>
      simp only [pitStep, Option.map_eq_some_iff] at hstep
      obtain ⟨d, hd, rfl⟩ := hstep
      simp only [PitSafe, hd] at safe
      exact ⟨h.order.step safe (.enqueue ..),
        .lost h.order (e.fresh_recordKey id queuedAt d.payload) rfl safe.1 _⟩
  | serveStray payload => exact safe.elim

/-- Over every run of saves, with every outcome of each direct request, and of flushes
in between, whose steps meet `PitSafe`. -/
theorem pit_ends_at_last_save (backend : Backend) (e : PitEntry) {s : PitState}
    (h : ReachableWhen (pitSystem backend e) (PitSafe backend e) s) : EndsAtLastSave e s := by
  have hinv : PitInv backend e s := by
    refine h.invariant ?_ ?_
    · intro s hs
      rw [show s = { stored := s.stored } from hs]
      refine ⟨OrderInv.reachable (.start rfl), .clear ?_ nofun fun _ => nofun⟩
      exact fun row hrow => absurd hrow (Table.notMem_empty row)
    · intro s a t hs hsafe hstep
      exact hs.step hsafe hstep
  intro hquiet payload hlast
  cases hinv.progress with
  | blocked stored key _ => exact absurd key (hquiet.2 _ stored)
  | waiting _ key _ pending _ _ _ =>
      obtain ⟨row, hrow, -, hsame⟩ := pending
      exact absurd (hsame.recordKey.trans key) (hquiet.2 row hrow)
  | clear _ _ settled =>
      refine settled (fun d hd => ?_) payload hlast
      rw [hquiet.1] at hd
      cases hd

/-! Team 118's pit notes at one event: the first save is queued in a dead spot. -/

def pit118 : PitEntry where
  eventKey := "2026txa"
  teamKey := "frc118"

def tankNotes : Payload := [("drivetrain", .text "tank")]

def swerveNotes : Payload := [("drivetrain", .text "swerve")]

def queuedTank : QueuedMutation := .fresh "1000-zz9x4k" 1000 (pit118.mutation tankNotes)

/-- The correction goes straight to the server before the flush replays the first save. -/
def replayedOverRun : List PitAction :=
  [.save tankNotes, .lost "1000-zz9x4k" 1000,
    .save swerveNotes, .serveDirect, .confirmed,
    .queue (.beginFlush [queuedTank]), .queue .next, .queue .serve,
    .queue (.answer (.answered 200 (.json (some true) none))), .queue .endFlush]

theorem pitSystem_start (backend : Backend) (e : PitEntry) : (pitSystem backend e).start {} := rfl

theorem pit_last_save_undone :
    ∃ s, Reachable (pitSystem .indexedDb pit118) s ∧ ¬ EndsAtLastSave pit118 s := by
  refine ⟨_, reachable_of_run replayedOverRun (pitSystem_start ..) rfl, ?_⟩
  decide +kernel

/-- The same saves with the flush before the correction. -/
def replayedBeforeRun : List PitAction :=
  [.save tankNotes, .lost "1000-zz9x4k" 1000,
    .queue (.beginFlush [queuedTank]), .queue .next, .queue .serve,
    .save swerveNotes,
    .queue (.answer (.answered 200 (.json (some true) none))), .queue .endFlush,
    .serveDirect, .confirmed]

theorem pit_ends_at_last_save_replayed :
    ∃ s, (pitSystem .indexedDb pit118).run {} replayedBeforeRun = some s ∧
      EndsAtLastSave pit118 s :=
  ⟨_, rfl, pit_ends_at_last_save .indexedDb pit118
    (reachableWhen_of_run replayedBeforeRun (.start (pitSystem_start ..)) (by decide +kernel) rfl)⟩

end Frcmob.Offline
