import Mathlib.Data.List.Pairwise
import Frcmob.Offline.Durability

/-!
The order of the writes to one record, against the order the scout made them in: of the
stored rows, of a running flush, and of the server's log. In IndexedDB it rests on
`queuedAt`, in localStorage on the order of the rows.
-/

namespace Frcmob.Offline
open Transition

/-- Where in the scout's history the mutation of this id stands. -/
def State.rank (s : State) (id : String) : Nat :=
  (s.made.map (·.id)).idxOf id

/-- An enqueue draws a fresh id and, in IndexedDB, a later millisecond than every pending
write to its record; the server carries out no request that the phone gave up on. -/
def DrawnLater (backend : Backend) (s : State) : Action → Prop
  | .enqueue id queuedAt mutation => id ∉ s.made.map (·.id) ∧
      (backend = .indexedDb → ∀ y ∈ s.store.rows, y.Pending →
        y.recordKey = (QueuedMutation.fresh id queuedAt mutation).recordKey → y.queuedAt < queuedAt)
  | .serveLate _ => False
  | _ => True

instance (backend : Backend) (s : State) : ∀ a, Decidable (DrawnLater backend s a)
  | .enqueue _ _ _ => inferInstanceAs (Decidable (_ ∧ (_ → ∀ y ∈ s.store.rows, _)))
  | .serveLate _ => isFalse id
  | .beginFlush _ | .next | .serve | .answer _ | .endFlush | .abort => isTrue True.intro

theorem DrawnLater.freshId {backend : Backend} {s : State} {a : Action}
    (h : DrawnLater backend s a) : FreshId s a := by
  cases a with
  | enqueue id queuedAt mutation => exact h.1
  | beginFlush _ | next | serve | answer _ | endFlush | abort | serveLate _ => trivial

/-! ### Ranks -/

theorem State.rank_lt {s : State} {id : String} (h : id ∈ s.made.map (·.id)) :
    s.rank id < s.made.length := by
  simpa [rank] using List.idxOf_lt_length_of_mem h

theorem State.rank_inj {s : State} {x y : String} (hx : x ∈ s.made.map (·.id)) :
    s.rank x = s.rank y ↔ x = y :=
  List.idxOf_inj hx

theorem rank_enqueue {s : State} {item : QueuedMutation} {id : String}
    (h : id ∈ s.made.map (·.id)) : (enqueueStep s item).rank id = s.rank id := by
  simp only [State.rank, enqueueStep, List.map_append]
  exact List.idxOf_append_of_mem h

theorem rank_enqueued {s : State} {item : QueuedMutation} (h : item.id ∉ s.made.map (·.id)) :
    (enqueueStep s item).rank item.id = s.made.length := by
  simp only [State.rank, enqueueStep, List.map_append]
  rw [List.idxOf_append_of_notMem h]
  simp

/-- In a list without repetition, positions grow along every sublist. -/
theorem pairwise_idxOf_of_sublist {l L : List String} (hL : L.Nodup) (h : l.Sublist L) :
    l.Pairwise fun a b => L.idxOf a < L.idxOf b := by
  refine List.Pairwise.sublist h (List.pairwise_iff_getElem.mpr ?_)
  intro i j hi hj hij
  rwa [hL.idxOf_getElem i hi, hL.idxOf_getElem j hj]

theorem pairwise_rank {s : State} (h : StoreInv s) {l : List QueuedMutation}
    (hl : (l.map (·.id)).Sublist (s.made.map (·.id))) :
    l.Pairwise fun x y => s.rank x.id < s.rank y.id := by
  have hids := pairwise_idxOf_of_sublist h.ids hl
  rwa [List.pairwise_map] at hids

theorem StoreInv.made_id {s : State} (h : StoreInv s) {row : QueuedMutation}
    (hrow : row ∈ s.store) : row.id ∈ s.made.map (·.id) := by
  obtain ⟨m, hm, hsame⟩ := h.origin row hrow
  exact hsame.1 ▸ List.mem_map_of_mem hm

/-! ### The order of the stored rows -/

/-- What each backend orders its rows by, in agreement with the scout's order. -/
def RowsOrdered (s : State) : Backend → Prop
  | .indexedDb => ∀ x ∈ s.store, ∀ y ∈ s.store, x.Pending → y.Pending →
      x.recordKey = y.recordKey → s.rank x.id < s.rank y.id → x.queuedAt < y.queuedAt
  | .localStorage => (s.store.rows.map (·.id)).Sublist (s.made.map (·.id))

/-- A snapshot lists the pending writes of each record in the scout's order. -/
theorem RowsOrdered.snapshot {backend : Backend} {s : State} (h : StoreInv s)
    (hrows : RowsOrdered s backend) {queue : List QueuedMutation}
    (read : ReadQueue backend s.store queue) :
    queue.Pairwise fun x y => x.Pending → y.Pending → x.recordKey = y.recordKey →
      s.rank x.id ≤ s.rank y.id := by
  cases backend with
  | localStorage =>
      rw [show queue = s.store.rows from read]
      exact (pairwise_rank h hrows).imp fun hlt _ _ _ => le_of_lt hlt
  | indexedDb =>
      refine List.Pairwise.imp_of_mem ?_ read.2
      intro x y hx hy hle hpx hpy hsame
      by_contra hnot
      have hx := read.1.mem_iff.mp hx
      have hy := read.1.mem_iff.mp hy
      have hlt := hrows y hy x hx hpy hpx hsame.symm (lt_of_not_ge hnot)
      omega

/-- The running flush against the scout's order. `behind`: an earlier pending write of a
record that is not waiting is still in the flush's own work. -/
structure FlushOrdered (s : State) (f : Flush) : Prop where
  ordered : f.rest.Pairwise fun x y => x.Pending → y.Pending → x.recordKey = y.recordKey →
    s.rank x.id ≤ s.rank y.id
  behind : ∀ x ∈ f.rest, x.Pending → x.recordKey ∉ f.waiting → ∀ y ∈ s.store, y.Pending →
    y.recordKey = x.recordKey → s.rank y.id < s.rank x.id → y ∈ f.work
  sending : ∀ r, f.request = some r → ∀ y ∈ s.store, y.Pending →
    y.recordKey = r.item.recordKey → s.rank r.item.id ≤ s.rank y.id
  served : ∀ r, f.request = some r → r.served = true → r.item ∈ s.accepted

/-- The server's log against the scout's order. -/
structure AcceptedOrdered (s : State) : Prop where
  origin : ∀ z ∈ s.accepted, ∃ m ∈ s.made, z.SameWrite m
  first : ∀ z ∈ s.accepted, ∀ y ∈ s.store, y.Pending → y.recordKey = z.recordKey →
    s.rank z.id ≤ s.rank y.id
  ordered : s.accepted.Pairwise fun x y => x.recordKey = y.recordKey → s.rank x.id ≤ s.rank y.id
  delivered : ∀ p ∈ s.outcomes, p.2.Success → p.1 ∈ s.accepted

structure OrderInv (backend : Backend) (s : State) : Prop where
  kept : KeptInv s
  rows : RowsOrdered s backend
  flush : ∀ f, s.flush = some f → FlushOrdered s f
  accepted : AcceptedOrdered s

theorem rank_congr {s t : State} (h : t.made = s.made) (id : String) : t.rank id = s.rank id := by
  simp only [State.rank, h]

/-! ### Enqueue -/

theorem StoreInv.rank_lt_new {s : State} (h : StoreInv s) {item row : QueuedMutation}
    (fresh : item.id ∉ s.made.map (·.id)) (hrow : row ∈ s.store) :
    (enqueueStep s item).rank row.id < (enqueueStep s item).rank item.id := by
  rw [rank_enqueue (h.made_id hrow), rank_enqueued fresh]
  exact State.rank_lt (h.made_id hrow)

theorem RowsOrdered.enqueue {backend : Backend} {s : State} (h : StoreInv s)
    (hrows : RowsOrdered s backend) {id : String} {queuedAt : Nat} {mutation : Mutation}
    (later : DrawnLater backend s (.enqueue id queuedAt mutation)) :
    RowsOrdered (enqueueStep s (.fresh id queuedAt mutation)) backend := by
  obtain ⟨fresh, hclock⟩ := later
  cases backend with
  | localStorage =>
      simp only [RowsOrdered, enqueueStep, List.map_append]
      rw [Table.map_key_put_of_notMem (h.new_id fresh)]
      exact List.Sublist.append hrows (.refl _)
  | indexedDb =>
      intro x hx y hy hpx hpy hsame hlt
      cases Table.mem_put.mp hy with
      | inl hnew =>
          subst hnew
          cases Table.mem_put.mp hx with
          | inl heq => rw [heq] at hlt; exact absurd hlt (lt_irrefl _)
          | inr hold => exact hclock rfl x hold.1 hpx hsame
      | inr hold =>
          have hnew : (enqueueStep s (.fresh id queuedAt mutation)).rank y.id < _ :=
            h.rank_lt_new fresh hold.1
          cases Table.mem_put.mp hx with
          | inl heq => rw [heq] at hlt; omega
          | inr hold' =>
              rw [rank_enqueue (h.made_id hold'.1), rank_enqueue (h.made_id hold.1)] at hlt
              exact hrows x hold'.1 y hold.1 hpx hpy hsame hlt

theorem FlushOrdered.enqueue {s : State} {f : Flush} (hs : StoreInv s) (hf : FlushInv s.store f)
    (h : FlushOrdered s f) {item : QueuedMutation} (fresh : item.id ∉ s.made.map (·.id)) :
    FlushOrdered (enqueueStep s item) f := by
  have hwork : ∀ x ∈ f.work, (enqueueStep s item).rank x.id = s.rank x.id :=
    fun x hx => rank_enqueue (hs.made_id (hf.stored x hx))
  have hrest : ∀ x ∈ f.rest, x ∈ f.work := fun x hx => List.mem_append_right _ hx
  refine ⟨?_, ?_, ?_, h.served⟩
  · refine h.ordered.imp_of_mem ?_
    intro x y hx hy hle
    rwa [hwork x (hrest x hx), hwork y (hrest y hy)]
  · intro x hx hpending hdue y hy hpy hsame hlt
    have hxs := hf.stored x (hrest x hx)
    have hnew := hs.rank_lt_new fresh hxs
    cases Table.mem_put.mp hy with
    | inl heq => rw [heq] at hlt; omega
    | inr hold =>
        rw [rank_enqueue (hs.made_id hold.1), rank_enqueue (hs.made_id hxs)] at hlt
        exact h.behind x hx hpending hdue y hold.1 hpy hsame hlt
  · intro r hr y hy hpy hsame
    have hrs := hf.stored r.item (f.work_sent hr ▸ List.mem_cons_self)
    cases Table.mem_put.mp hy with
    | inl heq =>
        rw [heq]
        exact le_of_lt (hs.rank_lt_new fresh hrs)
    | inr hold =>
        rw [rank_enqueue (hs.made_id hold.1), rank_enqueue (hs.made_id hrs)]
        exact h.sending r hr y hold.1 hpy hsame

theorem AcceptedOrdered.enqueue {s : State} (hs : StoreInv s) (h : AcceptedOrdered s)
    {item : QueuedMutation} (fresh : item.id ∉ s.made.map (·.id)) :
    AcceptedOrdered (enqueueStep s item) := by
  have hmade : ∀ z ∈ s.accepted, z.id ∈ s.made.map (·.id) := by
    intro z hz
    obtain ⟨m, hm, hsame⟩ := h.origin z hz
    exact hsame.1 ▸ List.mem_map_of_mem hm
  refine ⟨?_, ?_, ?_, h.delivered⟩
  · intro z hz
    obtain ⟨m, hm, hsame⟩ := h.origin z hz
    exact ⟨m, List.mem_append_left _ hm, hsame⟩
  · intro z hz y hy hpy hsame
    rw [rank_enqueue (hmade z hz)]
    cases Table.mem_put.mp hy with
    | inl heq =>
        rw [heq, rank_enqueued fresh]
        exact le_of_lt (State.rank_lt (hmade z hz))
    | inr hold =>
        rw [rank_enqueue (hs.made_id hold.1)]
        exact h.first z hz y hold.1 hpy hsame
  · refine h.ordered.imp_of_mem ?_
    intro x y hx hy hle
    rwa [rank_enqueue (hmade x hx), rank_enqueue (hmade y hy)]

/-! ### A round of the flush -/

theorem FlushOrdered.congr {s t : State} {f : Flush} (h : FlushOrdered s f)
    (hmade : t.made = s.made) (hstore : t.store = s.store)
    (haccepted : ∀ z ∈ s.accepted, z ∈ t.accepted) : FlushOrdered t f := by
  refine ⟨?_, ?_, ?_, fun r hr hs => haccepted _ (h.served r hr hs)⟩
  · simpa only [rank_congr hmade] using h.ordered
  · simpa only [rank_congr hmade, hstore] using h.behind
  · simpa only [rank_congr hmade, hstore] using h.sending

theorem FlushOrdered.begin {backend : Backend} {s : State} (hs : StoreInv s)
    (hrows : RowsOrdered s backend) {queue : List QueuedMutation}
    (read : ReadQueue backend s.store queue) : FlushOrdered s { rest := queue } where
  ordered := hrows.snapshot hs read
  behind _ _ _ _ _ hy _ _ _ := read.perm.mem_iff.mpr hy
  sending := nofun
  served := nofun

theorem FlushOrdered.skip {s : State} {f : Flush} (h : FlushOrdered s f) {item : QueuedMutation}
    {rest : List QueuedMutation} (idle : f.request = none) (head : f.rest = item :: rest)
    (passed : ¬ item.Pending ∨ item.recordKey ∈ f.waiting) :
    FlushOrdered s { f with rest := rest } where
  ordered := by
    have hordered := h.ordered
    rw [head] at hordered
    exact hordered.tail
  behind x hx hpending hdue y hy hpy hsame hlt := by
    have hy := h.behind x (head ▸ List.mem_cons_of_mem _ hx) hpending hdue y hy hpy hsame hlt
    rw [Flush.work_idle idle, head] at hy
    rw [Flush.work_idle (f := { f with rest := rest }) idle]
    cases List.mem_cons.mp hy with
    | inr hrest => exact hrest
    | inl heq =>
        subst heq
        cases passed with
        | inl hblocked => exact absurd hpy hblocked
        | inr hwaiting => exact absurd (hsame ▸ hwaiting) hdue
  sending r hr := by rw [idle] at hr; cases hr
  served r hr := by rw [idle] at hr; cases hr

/-- No earlier pending write of the record is left when its turn comes. -/
theorem FlushOrdered.send {s : State} {f : Flush} (h : FlushOrdered s f) {item : QueuedMutation}
    {rest : List QueuedMutation} (idle : f.request = none) (head : f.rest = item :: rest)
    (pending : item.Pending) (due : item.recordKey ∉ f.waiting) :
    FlushOrdered s { f with rest := rest, request := some { item } } := by
  have hordered := h.ordered
  rw [head, List.pairwise_cons] at hordered
  refine ⟨hordered.2, ?_, ?_, ?_⟩
  · intro x hx hpending hdue y hy hpy hsame hlt
    have hy := h.behind x (head ▸ List.mem_cons_of_mem _ hx) hpending hdue y hy hpy hsame hlt
    rwa [Flush.work_idle idle, head] at hy
  · intro r hr y hy hpy hsame
    cases hr
    by_contra hnot
    have hwork := h.behind item (head ▸ List.mem_cons_self) pending due y hy hpy hsame
      (lt_of_not_ge hnot)
    rw [Flush.work_idle idle, head] at hwork
    cases List.mem_cons.mp hwork with
    | inl heq => exact hnot (heq ▸ le_refl _)
    | inr hrest => exact hnot (hordered.1 y hrest pending hpy hsame.symm)
  · intro r hr hserved
    cases hr
    cases hserved

/-! ### Answers -/

/-- A pending row after the write is the retried one or an untouched one. -/
theorem mem_settle_pending {store : Store} {item row : QueuedMutation} {v : Verdict}
    (h : row ∈ settle store item v) (hpending : row.Pending) :
    (v = .retry ∧ row = item.retried) ∨ (row ∈ store ∧ row.id ≠ item.id) := by
  cases v with
  | delivered => exact .inr (Table.mem_erase.mp h)
  | retry => exact (Table.mem_put.mp h).imp_left fun heq => ⟨rfl, heq⟩
  | blocked failure =>
      cases Table.mem_put.mp h with
      | inl heq => exact absurd (heq ▸ hpending) (item.not_pending_blocked failure)
      | inr hrow => exact .inr hrow

/-- A pending row after the write was pending before it, as the same write. -/
theorem settle_pending_origin {store : Store} {item row : QueuedMutation} {v : Verdict}
    (hitem : item ∈ store) (hpending : item.Pending) (h : row ∈ settle store item v)
    (hrow : row.Pending) : ∃ old ∈ store, old.Pending ∧ row.SameWrite old := by
  cases mem_settle_pending h hrow with
  | inl hretry => exact ⟨item, hitem, hpending, hretry.2 ▸ item.retried_sameWrite⟩
  | inr hold => exact ⟨row, hold.1, hrow, .refl row⟩

theorem settle_ids {store : Store} {item : QueuedMutation} (hitem : item ∈ store) (v : Verdict) :
    ((settle store item v).rows.map (·.id)).Sublist (store.rows.map (·.id)) := by
  cases v with
  | delivered => exact store.map_key_erase item.id
  | retry =>
      rw [settle, Table.map_key_put_of_mem (x := item.retried) ⟨item, hitem, rfl⟩]
  | blocked failure =>
      rw [settle, Table.map_key_put_of_mem (x := item.blocked failure) ⟨item, hitem, rfl⟩]

theorem RowsOrdered.settle {backend : Backend} {s t : State} (hrows : RowsOrdered s backend)
    (hmade : t.made = s.made) {item : QueuedMutation} {v : Verdict}
    (hstore : t.store = settle s.store item v) (hitem : item ∈ s.store) (hpending : item.Pending) :
    RowsOrdered t backend := by
  cases backend with
  | localStorage =>
      simp only [RowsOrdered, hstore, hmade]
      exact (settle_ids hitem v).trans hrows
  | indexedDb =>
      intro x hx y hy hpx hpy hsame hlt
      rw [hstore] at hx hy
      obtain ⟨x', hx', hpx', hsx⟩ := settle_pending_origin hitem hpending hx hpx
      obtain ⟨y', hy', hpy', hsy⟩ := settle_pending_origin hitem hpending hy hpy
      rw [rank_congr hmade, rank_congr hmade, hsx.1, hsy.1] at hlt
      rw [hsx.2.1, hsy.2.1]
      refine hrows x' hx' y' hy' hpx' hpy' ?_ hlt
      rw [← hsx.recordKey, ← hsy.recordKey, hsame]

theorem FlushOrdered.answer {s : State} {f : Flush} (h : FlushOrdered s f) {r : Request}
    (sent : f.request = some r) (outcome : Outcome) :
    FlushOrdered (answerStep s f r outcome) (f.settled r.item (verdict outcome)) where
  ordered := h.ordered
  behind x hx hpending hdue y hy hpy hsame hlt := by
    have hdue' : x.recordKey ∉ f.waiting := by
      intro hin
      apply hdue
      simp only [Flush.settled]
      split
      · exact List.mem_append_left _ hin
      · exact hin
    cases mem_settle_pending hy hpy with
    | inl hretry =>
        -- the record is waiting now, so nothing of it is sent after this row
        refine absurd ?_ hdue
        simp [Flush.settled, hretry.1, ← hsame, hretry.2]
    | inr hold =>
        have hwork := h.behind x hx hpending hdue' y hold.1 hpy hsame hlt
        rw [f.work_sent sent] at hwork
        cases List.mem_cons.mp hwork with
        | inl heq => exact absurd (heq ▸ rfl) hold.2
        | inr hrest => exact hrest
  sending := nofun
  served := nofun

theorem AcceptedOrdered.congr {s t : State} (h : AcceptedOrdered s) (hmade : t.made = s.made)
    (hstore : t.store = s.store) (haccepted : t.accepted = s.accepted)
    (houtcomes : t.outcomes = s.outcomes) : AcceptedOrdered t := by
  refine ⟨?_, ?_, ?_, ?_⟩
  · rw [hmade, haccepted]; exact h.origin
  · simpa only [rank_congr hmade, hstore, haccepted] using h.first
  · simpa only [rank_congr hmade, haccepted] using h.ordered
  · rw [haccepted, houtcomes]; exact h.delivered

/-- The server accepts the write in flight: no earlier one of its record is pending. -/
theorem AcceptedOrdered.accept {s : State} (hs : StoreInv s) (h : AcceptedOrdered s) {f : Flush}
    (hf : FlushOrdered s f) {r : Request} (running : s.flush = some f) (sent : f.request = some r) :
    AcceptedOrdered { s with accepted := s.accepted ++ [r.item] } where
  origin z hz := by
    cases List.mem_append.mp hz with
    | inl hold => exact h.origin z hold
    | inr hnew =>
        rw [List.mem_singleton.mp hnew]
        exact hs.origin _ (hs.request_stored running sent)
  first z hz y hy hpy hsame := by
    cases List.mem_append.mp hz with
    | inl hold => exact h.first z hold y hy hpy hsame
    | inr hnew =>
        rw [List.mem_singleton.mp hnew] at hsame ⊢
        exact hf.sending r sent y hy hpy hsame
  ordered := by
    refine List.pairwise_append.mpr ⟨h.ordered, List.pairwise_singleton .., ?_⟩
    intro z hz x hx hsame
    rw [List.mem_singleton.mp hx] at hsame ⊢
    exact h.first z hz r.item (hs.request_stored running sent)
      ((hs.flush f running).pending r sent) hsame.symm
  delivered p hp hsuccess := List.mem_append_left _ (h.delivered p hp hsuccess)

theorem AcceptedOrdered.settle {s t : State} (h : AcceptedOrdered s) {item : QueuedMutation}
    {outcome : Outcome} (hitem : item ∈ s.store) (hpending : item.Pending)
    (hmade : t.made = s.made) (haccepted : t.accepted = s.accepted)
    (hstore : t.store = settle s.store item (verdict outcome))
    (houtcomes : t.outcomes = s.outcomes ++ [(item, outcome)])
    (hdelivered : outcome.Success → item ∈ s.accepted) : AcceptedOrdered t := by
  refine ⟨?_, ?_, ?_, ?_⟩
  · rw [hmade, haccepted]; exact h.origin
  · intro z hz y hy hpy hsame
    rw [haccepted] at hz
    rw [hstore] at hy
    obtain ⟨y', hy', hpy', hsy⟩ := settle_pending_origin hitem hpending hy hpy
    rw [rank_congr hmade, rank_congr hmade, hsy.1]
    exact h.first z hz y' hy' hpy' (hsy.recordKey.symm.trans hsame)
  · simpa only [rank_congr hmade, haccepted] using h.ordered
  · intro p hp hsuccess
    rw [houtcomes] at hp
    rw [haccepted]
    cases List.mem_append.mp hp with
    | inl hold => exact h.delivered p hold hsuccess
    | inr hnew =>
        rw [List.mem_singleton.mp hnew] at hsuccess ⊢
        exact hdelivered hsuccess

theorem AcceptedOrdered.answer {s : State} (hs : StoreInv s) (h : AcceptedOrdered s) {f : Flush}
    (hf : FlushOrdered s f) {r : Request} (running : s.flush = some f)
    (sent : f.request = some r) (outcome : Outcome) :
    AcceptedOrdered (answerStep s f r outcome) := by
  have hitem := hs.request_stored running sent
  have hpending := (hs.flush f running).pending r sent
  by_cases hnow : r.served = true ∨ verdict outcome ≠ .delivered
  · have hby : acceptedBy r (verdict outcome) = [] := by
      cases hnow with
      | inl hserved => simp [acceptedBy, hserved]
      | inr hnot => simp [acceptedBy, hnot]
    refine h.settle hitem hpending rfl ?_ rfl rfl ?_
    · simp [answerStep, hby]
    · intro hsuccess
      cases hnow with
      | inl hserved => exact hf.served r sent hserved
      | inr hnot => exact absurd ((verdict_delivered_iff outcome).mpr hsuccess) hnot
  · have hby : acceptedBy r (verdict outcome) = [r.item] := by
      simp only [not_or, Bool.not_eq_true, not_not] at hnow
      simp [acceptedBy, hnow]
    refine (h.accept hs hf running sent).settle hitem hpending rfl ?_ rfl rfl ?_
    · simp [answerStep, hby]
    · intro _
      exact List.mem_append_right _ (List.mem_singleton_self _)

theorem OrderInv.step {s t : State} {backend : Backend} {a : Action} (h : OrderInv backend s)
    (later : DrawnLater backend s a) (hstep : Stepped backend s a t) : OrderInv backend t := by
  have hs := h.kept.stored
  have hkept := h.kept.step later.freshId hstep
  cases hstep with
  | enqueue id queuedAt mutation =>
      exact ⟨hkept, h.rows.enqueue hs later,
        fun f hf => (h.flush f hf).enqueue hs (hs.flush f hf) later.1,
        h.accepted.enqueue hs later.1⟩
  | beginFlush idle read =>
      refine ⟨hkept, h.rows, ?_, h.accepted.congr rfl rfl rfl rfl⟩
      intro f hf
      cases hf
      exact (FlushOrdered.begin hs h.rows read).congr rfl rfl fun _ => id
  | skip running idle head passed =>
      refine ⟨hkept, h.rows, ?_, h.accepted.congr rfl rfl rfl rfl⟩
      intro f hf
      cases hf
      exact ((h.flush _ running).skip idle head passed).congr rfl rfl fun _ => id
  | send running idle head pending due =>
      refine ⟨hkept, h.rows, ?_, h.accepted.congr rfl rfl rfl rfl⟩
      intro f hf
      cases hf
      exact ((h.flush _ running).send idle head pending due).congr rfl rfl fun _ => id
  | @serve f r' running sent =>
      have hf := h.flush _ running
      refine ⟨hkept, h.rows, ?_, (h.accepted.accept hs hf running sent).congr rfl rfl rfl rfl⟩
      intro g hg
      cases hg
      refine ⟨hf.ordered, ?_, ?_, ?_⟩
      · have hbehind := hf.behind
        rwa [Flush.work_sent sent] at hbehind
      · intro r hr
        cases hr
        exact hf.sending r' sent
      · intro r hr _
        cases hr
        exact List.mem_append_right _ (List.mem_singleton_self _)
  | answer outcome running sent =>
      have hf := h.flush _ running
      refine ⟨hkept, ?_, ?_, h.accepted.answer hs hf running sent outcome⟩
      · exact h.rows.settle rfl rfl (hs.request_stored running sent)
          ((hs.flush _ running).pending _ sent)
      · intro g hg
        cases hg
        exact hf.answer sent outcome
  | endFlush running => exact ⟨hkept, h.rows, nofun, h.accepted.congr rfl rfl rfl rfl⟩
  | abort late => exact ⟨hkept, h.rows, nofun, h.accepted.congr rfl rfl rfl rfl⟩
  | serveLate late => exact later.elim

end Frcmob.Offline
