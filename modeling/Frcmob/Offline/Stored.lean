import Frcmob.Offline.Queue

/-!
What every run of the queue keeps of its stored rows: ids never repeat, each row is a
save that was made, and the snapshot of the running flush stays true to the store, as
nothing but that flush rewrites a row.
-/

namespace Frcmob.Offline

/-- The rows of the snapshot not settled yet: the one in flight and those to come. -/
def Flush.work (f : Flush) : List QueuedMutation :=
  (f.request.map Request.item).toList ++ f.rest

@[simp] theorem Flush.work_start (queue : List QueuedMutation) :
    Flush.work { rest := queue } = queue := rfl

/-- Only the running flush changes stored rows, so its snapshot stays true to them. -/
structure FlushInv (store : Store) (f : Flush) : Prop where
  stored : ∀ x ∈ f.work, x ∈ store
  distinct : (f.work.map (·.id)).Nodup
  pending : ∀ r, f.request = some r → r.item.Pending

/-- Ids never repeat, rows come from saves, and arrivals are not in the snapshot. -/
structure StoreInv (s : State) : Prop where
  ids : (s.made.map (·.id)).Nodup
  origin : ∀ row ∈ s.store, ∃ m ∈ s.made, row.SameWrite m
  flush : ∀ f, s.flush = some f → FlushInv s.store f
  arrivals : ∀ m ∈ s.arrivals, m ∈ s.store ∧ ∀ f, s.flush = some f → ∀ x ∈ f.work, x.id ≠ m.id

/-- Each enqueue draws an id that no earlier mutation drew. -/
def FreshId (s : State) : Action → Prop
  | .enqueue id _ _ => id ∉ s.made.map (·.id)
  | _ => True

instance (s : State) : ∀ a, Decidable (FreshId s a)
  | .enqueue id _ _ => inferInstanceAs (Decidable (id ∉ s.made.map (·.id)))
  | .beginFlush _ | .next | .serve | .answer _ | .endFlush | .abort | .serveLate _ =>
      isTrue True.intro

theorem Flush.work_idle {f : Flush} (h : f.request = none) : f.work = f.rest := by
  simp [work, h]

theorem Flush.work_sent {f : Flush} {r : Request} (h : f.request = some r) :
    f.work = r.item :: f.rest := by
  simp [work, h]

@[simp] theorem Flush.settled_request (f : Flush) (item : QueuedMutation) (v : Verdict) :
    (f.settled item v).request = none := rfl

@[simp] theorem Flush.settled_rest (f : Flush) (item : QueuedMutation) (v : Verdict) :
    (f.settled item v).rest = f.rest := rfl

@[simp] theorem Flush.settled_work (f : Flush) (item : QueuedMutation) (v : Verdict) :
    (f.settled item v).work = f.rest := rfl

/-- A settled row is the same write, and every other row is as it was. -/
theorem mem_settle {store : Store} {item row : QueuedMutation} {v : Verdict}
    (h : row ∈ settle store item v) : row.SameWrite item ∨ (row ∈ store ∧ row.id ≠ item.id) := by
  cases v with
  | delivered => exact .inr (Table.mem_erase.mp h)
  | retry =>
      cases Table.mem_put.mp h with
      | inl heq => exact .inl (heq ▸ item.retried_sameWrite)
      | inr hrow => exact .inr hrow
  | blocked failure =>
      cases Table.mem_put.mp h with
      | inl heq => exact .inl (heq ▸ item.blocked_sameWrite failure)
      | inr hrow => exact .inr hrow

theorem mem_settle_of_ne {store : Store} {item row : QueuedMutation} (v : Verdict)
    (h : row ∈ store) (hne : row.id ≠ item.id) : row ∈ settle store item v := by
  cases v with
  | delivered => exact Table.mem_erase.mpr ⟨h, hne⟩
  | retry => exact Table.mem_put_of_ne h hne
  | blocked failure => exact Table.mem_put_of_ne h hne

theorem settle_keeps (store : Store) (item : QueuedMutation) {v : Verdict} (h : v ≠ .delivered) :
    ∃ row ∈ settle store item v, row.SameWrite item := by
  cases v with
  | delivered => exact absurd rfl h
  | retry => exact ⟨_, Table.mem_put_self .., item.retried_sameWrite⟩
  | blocked failure => exact ⟨_, Table.mem_put_self .., item.blocked_sameWrite failure⟩

theorem FlushInv.thin {store : Store} {f g : Flush} (h : FlushInv store f)
    (hwork : g.work.Sublist f.work) (hsent : ∀ r, g.request = some r → r.item.Pending) :
    FlushInv store g where
  stored x hx := h.stored x (hwork.subset hx)
  distinct := (hwork.map _).nodup h.distinct
  pending := hsent

theorem FlushInv.put {store : Store} {f : Flush} (h : FlushInv store f) {item : QueuedMutation}
    (hnew : ∀ x ∈ store, x.id ≠ item.id) : FlushInv (store.put item) f where
  stored x hx := Table.mem_put_of_ne (h.stored x hx) (hnew x (h.stored x hx))
  distinct := h.distinct
  pending := h.pending

theorem FlushInv.rest_ne {store : Store} {f : Flush} {r : Request} (h : FlushInv store f)
    (sent : f.request = some r) {x : QueuedMutation} (hx : x ∈ f.rest) : x.id ≠ r.item.id := by
  have hd := h.distinct
  rw [f.work_sent sent, List.map_cons, List.nodup_cons] at hd
  intro heq
  exact hd.1 (heq ▸ List.mem_map_of_mem hx)

theorem FlushInv.settled {store : Store} {f : Flush} {r : Request} (h : FlushInv store f)
    (sent : f.request = some r) (v : Verdict) :
    FlushInv (settle store r.item v) (f.settled r.item v) where
  stored x hx :=
    mem_settle_of_ne v (h.stored x (f.work_sent sent ▸ List.mem_cons_of_mem _ hx))
      (h.rest_ne sent hx)
  distinct := by
    have hd := h.distinct
    rw [f.work_sent sent, List.map_cons, List.nodup_cons] at hd
    exact hd.2
  pending := nofun

theorem StoreInv.request_stored {s : State} (h : StoreInv s) {f : Flush} {r : Request}
    (running : s.flush = some f) (sent : f.request = some r) : r.item ∈ s.store :=
  (h.flush f running).stored _ (f.work_sent sent ▸ List.mem_cons_self)

/-- No stored row has an id that no mutation drew. -/
theorem StoreInv.new_id {s : State} (h : StoreInv s) {id : String}
    (fresh : id ∉ s.made.map (·.id)) : ∀ row ∈ s.store, row.id ≠ id := by
  intro row hrow heq
  obtain ⟨m, hm, hsame⟩ := h.origin row hrow
  exact fresh (heq ▸ hsame.1 ▸ List.mem_map_of_mem hm)

theorem StoreInv.start : StoreInv {} where
  ids := List.nodup_nil
  origin row hrow := absurd hrow (Table.notMem_empty row)
  flush := nofun
  arrivals := nofun

/-- A step that leaves the rows and the saves alone and only moves the flush forward. -/
theorem StoreInv.move {s t : State} (h : StoreInv s) (hstore : t.store = s.store)
    (hmade : t.made = s.made) (harrivals : t.arrivals = s.arrivals)
    (hflush : ∀ g, t.flush = some g → ∃ f, s.flush = some f ∧ g.work.Sublist f.work ∧
      ∀ r, g.request = some r → r.item.Pending) : StoreInv t where
  ids := hmade ▸ h.ids
  origin := by rw [hstore, hmade]; exact h.origin
  flush g hg := by
    obtain ⟨f, hf, hwork, hsent⟩ := hflush g hg
    exact hstore ▸ (h.flush f hf).thin hwork hsent
  arrivals m hm := by
    rw [harrivals] at hm
    refine ⟨hstore ▸ (h.arrivals m hm).1, ?_⟩
    intro g hg x hx
    obtain ⟨f, hf, hwork, -⟩ := hflush g hg
    exact (h.arrivals m hm).2 f hf x (hwork.subset hx)

theorem StoreInv.enqueue {s : State} (h : StoreInv s) {item : QueuedMutation}
    (fresh : item.id ∉ s.made.map (·.id)) : StoreInv (enqueueStep s item) where
  ids := by
    simp only [enqueueStep, List.map_append, List.map_cons, List.map_nil]
    exact List.nodup_append.mpr ⟨h.ids, List.nodup_singleton _, by
      intro a ha b hb
      rw [List.mem_singleton.mp hb]
      rintro rfl
      exact fresh ha⟩
  origin row hrow := by
    cases Table.mem_put.mp hrow with
    | inl heq => exact ⟨item, by simp [enqueueStep], heq ▸ .refl _⟩
    | inr hold =>
        obtain ⟨m, hm, hsame⟩ := h.origin row hold.1
        exact ⟨m, List.mem_append_left _ hm, hsame⟩
  flush f hf := (h.flush f hf).put (h.new_id fresh)
  arrivals m hm := by
    cases List.mem_append.mp hm with
    | inl hold =>
        have hstored := (h.arrivals m hold).1
        exact ⟨Table.mem_put_of_ne hstored (h.new_id fresh m hstored), (h.arrivals m hold).2⟩
    | inr hnew =>
        rw [List.mem_singleton.mp hnew]
        exact ⟨Table.mem_put_self .., fun f hf x hx =>
          h.new_id fresh x ((h.flush f hf).stored x hx)⟩

theorem StoreInv.begin {s : State} (h : StoreInv s) {backend : Backend}
    {queue : List QueuedMutation} (read : ReadQueue backend s.store queue) :
    StoreInv { s with flush := some { rest := queue }, arrivals := [] } where
  ids := h.ids
  origin := h.origin
  flush f hf := by
    cases hf
    exact ⟨fun x hx => read.perm.mem_iff.mp hx,
      (read.perm.map _).nodup_iff.mpr s.store.unique, nofun⟩
  arrivals := nofun

theorem StoreInv.answer {s : State} (h : StoreInv s) {f : Flush} {r : Request}
    (running : s.flush = some f) (sent : f.request = some r) (outcome : Outcome) :
    StoreInv (answerStep s f r outcome) where
  ids := h.ids
  origin row hrow := by
    cases mem_settle hrow with
    | inl hsame =>
        obtain ⟨m, hm, hitem⟩ := h.origin _ (h.request_stored running sent)
        exact ⟨m, hm, hsame.trans hitem⟩
    | inr hold => exact h.origin row hold.1
  flush g hg := by
    cases hg
    exact (h.flush f running).settled sent _
  arrivals m hm := by
    obtain ⟨hstored, hwork⟩ := h.arrivals m hm
    have hwork := hwork f running
    refine ⟨mem_settle_of_ne _ hstored ?_, ?_⟩
    · exact (hwork r.item (f.work_sent sent ▸ List.mem_cons_self)).symm
    · intro g hg x hx
      cases hg
      exact hwork x (f.work_sent sent ▸ List.mem_cons_of_mem _ hx)

theorem StoreInv.step {s t : State} {backend : Backend} {a : Action} (h : StoreInv s)
    (fresh : FreshId s a) (hstep : Stepped backend s a t) : StoreInv t := by
  cases hstep with
  | enqueue id queuedAt mutation => exact h.enqueue fresh
  | beginFlush idle read => exact h.begin read
  | skip running idle head passed =>
      refine h.move rfl rfl rfl ?_
      intro g hg
      cases hg
      refine ⟨_, running, ?_, fun r hr => by rw [idle] at hr; cases hr⟩
      simp [Flush.work, idle, head]
  | send running idle head pending due =>
      refine h.move rfl rfl rfl ?_
      intro g hg
      cases hg
      refine ⟨_, running, ?_, fun r hr => by cases hr; exact pending⟩
      rw [Flush.work_idle idle, head]
      exact List.Sublist.refl _
  | @serve f r' running sent =>
      refine h.move rfl rfl rfl ?_
      intro g hg
      cases hg
      refine ⟨_, running, ?_, fun r hr => by
        cases hr; exact (h.flush _ running).pending r' sent⟩
      rw [Flush.work_sent sent]
      exact List.Sublist.refl _
  | answer outcome running sent => exact h.answer running sent outcome
  | endFlush running => exact h.move rfl rfl rfl nofun
  | abort late => exact h.move rfl rfl rfl nofun
  | serveLate late =>
      exact h.move rfl rfl rfl fun g hg => ⟨g, hg, .refl _, (h.flush g hg).pending⟩

end Frcmob.Offline
