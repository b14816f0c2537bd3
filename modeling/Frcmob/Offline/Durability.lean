import Frcmob.Offline.Stored

/-!
No queued save is lost: over every run, each mutation that was enqueued is in the store
or was answered with a success, and a refused one stays stored and is not sent again.
-/

namespace Frcmob.Offline
open Transition

/-- Nothing the scout queued has been lost. -/
structure WorkKept (s : State) : Prop where
  kept : ∀ m ∈ s.made, (∃ row ∈ s.store, row.SameWrite m) ∨
    ∃ p ∈ s.outcomes, p.1.SameWrite m ∧ p.2.Success
  blocked : ∀ p ∈ s.outcomes, p.2.Refusal →
    ∃ row ∈ s.store, row.id = p.1.id ∧ row.failure.isSome
  notResent : ∀ r, s.request = some r → ∀ p ∈ s.outcomes, p.1.id = r.item.id → ¬ p.2.Refusal
  arrivals : ∀ m ∈ s.arrivals, m ∈ s.store

/-- The part of `WorkKept` that is about the rows and the outcomes. -/
structure KeptInv (s : State) : Prop where
  stored : StoreInv s
  kept : ∀ m ∈ s.made, (∃ row ∈ s.store, row.SameWrite m) ∨
    ∃ p ∈ s.outcomes, p.1.SameWrite m ∧ p.2.Success
  blocked : ∀ p ∈ s.outcomes, p.2.Refusal →
    ∃ row ∈ s.store, row.id = p.1.id ∧ row.failure.isSome

theorem settle_blocks {store : Store} (item : QueuedMutation) {o : Outcome} (h : o.Refusal) :
    ∃ row ∈ settle store item (verdict o), row.id = item.id ∧ row.failure.isSome := by
  obtain ⟨f, hf⟩ := h.blocked
  rw [hf]
  exact ⟨_, Table.mem_put_self .., rfl, rfl⟩

theorem KeptInv.frame {s t : State} (h : KeptInv s) (ht : StoreInv t) (hstore : t.store = s.store)
    (hmade : t.made = s.made) (houtcomes : t.outcomes = s.outcomes) : KeptInv t where
  stored := ht
  kept := by rw [hstore, hmade, houtcomes]; exact h.kept
  blocked := by rw [hstore, houtcomes]; exact h.blocked

theorem KeptInv.enqueue {s : State} (h : KeptInv s) {item : QueuedMutation}
    (fresh : item.id ∉ s.made.map (·.id)) : KeptInv (enqueueStep s item) where
  stored := h.stored.enqueue fresh
  kept m hm := by
    cases List.mem_append.mp hm with
    | inl hold =>
        refine (h.kept m hold).imp_left ?_
        intro ⟨row, hrow, hsame⟩
        exact ⟨row, Table.mem_put_of_ne hrow (h.stored.new_id fresh row hrow), hsame⟩
    | inr hnew =>
        rw [List.mem_singleton.mp hnew]
        exact .inl ⟨item, Table.mem_put_self .., .refl item⟩
  blocked p hp hrefused := by
    obtain ⟨row, hrow, hid⟩ := h.blocked p hp hrefused
    exact ⟨row, Table.mem_put_of_ne hrow (h.stored.new_id fresh row hrow), hid⟩

/-- A row in flight was never refused: it is in the store without a failure. -/
theorem KeptInv.request_notRefused {s : State} (h : KeptInv s) {f : Flush} {r : Request}
    (running : s.flush = some f) (sent : f.request = some r) {p : QueuedMutation × Outcome}
    (hp : p ∈ s.outcomes) (hid : p.1.id = r.item.id) : ¬ p.2.Refusal := by
  intro hrefused
  obtain ⟨row, hrow, hrowid, hfailure⟩ := h.blocked p hp hrefused
  have heq : row = r.item :=
    Table.eq_of_key hrow (h.stored.request_stored running sent) (hrowid.trans hid)
  have hpending : r.item.failure = none := (h.stored.flush f running).pending r sent
  simp [heq, hpending] at hfailure

/-- Only a success removes a row. -/
theorem KeptInv.answer {s : State} (h : KeptInv s) {f : Flush} {r : Request}
    (running : s.flush = some f) (sent : f.request = some r) (outcome : Outcome) :
    KeptInv (answerStep s f r outcome) where
  stored := h.stored.answer running sent outcome
  kept m hm := by
    cases h.kept m hm with
    | inr hdone =>
        obtain ⟨p, hp, hsuccess⟩ := hdone
        exact .inr ⟨p, List.mem_append_left _ hp, hsuccess⟩
    | inl hstored =>
        obtain ⟨row, hrow, hsame⟩ := hstored
        by_cases hid : row.id = r.item.id
        · have heq : row = r.item :=
            Table.eq_of_key hrow (h.stored.request_stored running sent) hid
          by_cases hdelivered : verdict outcome = .delivered
          · refine .inr ⟨(r.item, outcome), by simp [answerStep], heq ▸ hsame, ?_⟩
            exact (verdict_delivered_iff outcome).mp hdelivered
          · obtain ⟨row', hrow', hsame'⟩ := settle_keeps s.store r.item hdelivered
            exact .inl ⟨row', hrow', hsame'.trans (heq ▸ hsame)⟩
        · exact .inl ⟨row, mem_settle_of_ne _ hrow hid, hsame⟩
  blocked p hp hrefused := by
    cases List.mem_append.mp hp with
    | inl hold =>
        obtain ⟨row, hrow, hid, hfailure⟩ := h.blocked p hold hrefused
        refine ⟨row, mem_settle_of_ne _ hrow ?_, hid, hfailure⟩
        exact fun heq => h.request_notRefused running sent hold (hid ▸ heq) hrefused
    | inr hnew =>
        rw [List.mem_singleton.mp hnew] at hrefused ⊢
        exact settle_blocks r.item hrefused

theorem KeptInv.step {s t : State} {backend : Backend} {a : Action} (h : KeptInv s)
    (fresh : FreshId s a) (hstep : Stepped backend s a t) : KeptInv t := by
  have hstored := h.stored.step fresh hstep
  cases hstep with
  | enqueue id queuedAt mutation => exact h.enqueue fresh
  | answer outcome running sent => exact h.answer running sent outcome
  | beginFlush _ _ | skip _ _ _ _ | send _ _ _ _ _ | serve _ _ | endFlush _ | abort _
  | serveLate _ => exact h.frame hstored rfl rfl rfl

theorem KeptInv.reachable {backend : Backend} {s : State}
    (h : ReachableWhen (queueSystem backend) FreshId s) : KeptInv s := by
  refine h.invariant ?_ ?_
  · intro s hs
    rw [show s = {} from hs]
    exact ⟨.start, nofun, nofun⟩
  · intro s a t hs hfresh hstep
    exact hs.step hfresh (stepped_of_step hstep)

/-- Over every run of enqueues and flushes, with every outcome of every request, in
which no two mutations draw the same id. -/
theorem queued_work_kept (backend : Backend) {s : State}
    (h : ReachableWhen (queueSystem backend) FreshId s) : WorkKept s := by
  have hinv := KeptInv.reachable h
  refine ⟨hinv.kept, hinv.blocked, ?_, fun m hm => (hinv.stored.arrivals m hm).1⟩
  intro r hr p hp hid
  obtain ⟨f, running, sent⟩ := Option.bind_eq_some_iff.mp hr
  exact hinv.request_notRefused running sent hp hid

def pitSave (team notes : String) : Mutation where
  url := "/api/v1/pit-scouting"
  body := some
    { strings := [("event_key", "2026txa"), ("team_key", team)]
      payload := [("notes", .text notes)] }

/-- Two saves of one millisecond that draw the same suffix: the second `put` replaces
the first one's row, which nobody was sent. -/
theorem queued_work_replaced :
    ∃ s, Reachable (queueSystem .indexedDb) s ∧ ¬ WorkKept s := by
  refine ⟨_, reachable_of_run [.enqueue "1000-abc123" 1000 (pitSave "frc118" "swerve"),
    .enqueue "1000-abc123" 1000 (pitSave "frc254" "tank")] rfl rfl, ?_⟩
  intro h
  have hlost := h.kept (.fresh "1000-abc123" 1000 (pitSave "frc118" "swerve")) (by decide)
  revert hlost
  decide +kernel

def firstSave : QueuedMutation := .fresh "1000-abc123" 1000 (pitSave "frc118" "swerve")

/-- A save queued while the flush is sending another one, which the server refuses. -/
def refusedRun : List Action :=
  [.enqueue "1000-abc123" 1000 (pitSave "frc118" "swerve"), .beginFlush [firstSave], .next,
    .enqueue "1001-xyz789" 1001 (pitSave "frc254" "tank"), .answer (.answered 403 .empty),
    .endFlush]

theorem queued_work_kept_refused :
    ∃ s, (queueSystem .indexedDb).run {} refusedRun = some s ∧ WorkKept s :=
  ⟨_, rfl, queued_work_kept .indexedDb
    (reachableWhen_of_run refusedRun (.start rfl) (by decide +kernel) rfl)⟩

end Frcmob.Offline
