import Frcmob.Offline.Queue

/-!
The queue in several tabs over one store. Each tab flushes for itself, from the rows it has read,
and what it does to the store after an answer is a step of its own. A row that one tab has
delivered and deleted can so be written again by another whose own request has failed.
-/

namespace Frcmob.OfflineTabs
open Frcmob.Offline Transition

/-- Where the flush of a tab stands. `settling` has an answer that the store does not show yet. -/
inductive Stage
  | reading
  | looping (loop : Flush)
  | settling (loop : Flush) (item : QueuedMutation) (v : Verdict)
deriving DecidableEq

/-- A flush, with the ids that were removed before it started. -/
structure TabFlush where
  before : List String
  stage : Stage
deriving DecidableEq

/-- A request that was sent, with the ids that were removed before its flush started. -/
structure Sent where
  before : List String
  item : QueuedMutation
deriving DecidableEq

/-- The store and the flushes of the tabs. `drawn` are the ids of all mutations so far, `removed`
those that the server accepted and a tab deleted. -/
structure State where
  store : Store
  flushes : Nat → Option TabFlush
  drawn : List String
  removed : List String
  sent : List Sent

def goTo (s : State) (tab : Nat) (flush : Option TabFlush) : State :=
  { s with flushes := Function.update s.flushes tab flush }

/-- `enqueue` draws an id and saves the row. -/
def enqueue (s : State) (item : QueuedMutation) : State :=
  { s with store := s.store.put item, drawn := item.id :: s.drawn }

/-- One round of the loop up to its `fetch`, or past a row that is not sent. -/
def advance (s : State) (tab : Nat) (before : List String) (loop : Flush) : State :=
  let s' := goTo s tab (some ⟨before, .looping loop⟩)
  match loop.request with
  | none => s'
  | some request => { s' with sent := ⟨before, request.item⟩ :: s.sent }

/-- The store write after an answer: `removeQueuedItem` or `saveQueuedItem`. -/
def write (s : State) (tab : Nat) (before : List String) (loop : Flush) (item : QueuedMutation)
    (v : Verdict) : State :=
  { goTo s tab (some ⟨before, .looping loop⟩) with
    store := settle s.store item v
    removed := if v = .delivered then item.id :: s.removed else s.removed }

/-- `stop` is the end of a flush: its queue is done, a storage call throws, or the tab closes. -/
inductive Action
  | enqueue (id : String) (queuedAt : Nat) (mutation : Mutation)
  | flush (tab : Nat)
  | read (tab : Nat) (queue : List QueuedMutation)
  | next (tab : Nat)
  | answer (tab : Nat) (outcome : Outcome)
  | write (tab : Nat)
  | stop (tab : Nat)
deriving DecidableEq

/-- A new id is one that no mutation has had. -/
def step (backend : Backend) (s : State) : Action → Option State
  | .enqueue id queuedAt mutation =>
    if id ∈ s.drawn then none else some (enqueue s (.fresh id queuedAt mutation))
  | .flush tab =>
    match s.flushes tab with
    | none => some (goTo s tab (some ⟨s.removed, .reading⟩))
    | some _ => some s
  | .read tab queue =>
    match s.flushes tab with
    | some ⟨before, .reading⟩ =>
      if ReadQueue backend s.store queue then
        some (goTo s tab (some ⟨before, .looping { rest := queue }⟩))
      else
        none
    | _ => none
  | .next tab =>
    match s.flushes tab with
    | some ⟨before, .looping loop⟩ => loop.next.map (advance s tab before)
    | _ => none
  | .answer tab outcome =>
    match s.flushes tab with
    | some ⟨before, .looping loop⟩ =>
      loop.request.map fun request =>
        let v := verdict outcome
        goTo s tab (some ⟨before, .settling (loop.settled request.item v) request.item v⟩)
    | _ => none
  | .write tab =>
    match s.flushes tab with
    | some ⟨before, .settling loop item v⟩ => some (write s tab before loop item v)
    | _ => none
  | .stop tab => some (goTo s tab none)

/-- Any rows may be stored, no tab flushes and nothing has been removed. -/
def Started (s : State) : Prop :=
  (∀ row ∈ s.store, row.id ∈ s.drawn) ∧ (∀ tab, s.flushes tab = none) ∧ s.removed = [] ∧
    s.sent = []

def system (backend : Backend) : System State Action where
  start := Started
  step := step backend

/-- What the server has accepted and a tab has deleted is not in the store again, and no flush
that started later sends it. -/
structure Settled (s : State) : Prop where
  gone : ∀ id ∈ s.removed, ∀ row ∈ s.store, row.id ≠ id
  notAgain : ∀ sent ∈ s.sent, sent.item.id ∉ sent.before

/-! ### What a step does -/

inductive Effect (backend : Backend) (s : State) : Action → State → Prop
  | enqueue {id : String} {queuedAt : Nat} {mutation : Mutation} : id ∉ s.drawn →
      Effect backend s (.enqueue id queuedAt mutation)
        (enqueue s (.fresh id queuedAt mutation))
  | flush {tab : Nat} :
      Effect backend s (.flush tab) (goTo s tab (some ⟨s.removed, .reading⟩))
  | read {tab : Nat} {queue : List QueuedMutation} {before : List String} :
      s.flushes tab = some ⟨before, .reading⟩ → ReadQueue backend s.store queue →
      Effect backend s (.read tab queue)
        (goTo s tab (some ⟨before, .looping { rest := queue }⟩))
  | next {tab : Nat} {before : List String} {loop loop' : Flush} :
      s.flushes tab = some ⟨before, .looping loop⟩ → loop.next = some loop' →
      Effect backend s (.next tab) (advance s tab before loop')
  | answer {tab : Nat} {outcome : Outcome} {before : List String} {loop : Flush}
      {request : Request} :
      s.flushes tab = some ⟨before, .looping loop⟩ → loop.request = some request →
      Effect backend s (.answer tab outcome)
        (goTo s tab (some ⟨before, .settling (loop.settled request.item (verdict outcome))
          request.item (verdict outcome)⟩))
  | write {tab : Nat} {before : List String} {loop : Flush} {item : QueuedMutation}
      {v : Verdict} :
      s.flushes tab = some ⟨before, .settling loop item v⟩ →
      Effect backend s (.write tab) (write s tab before loop item v)
  | stop {tab : Nat} : Effect backend s (.stop tab) (goTo s tab none)
  | stay {a : Action} : Effect backend s a s

theorem effect_of_step {backend : Backend} {s t : State} {a : Action}
    (h : step backend s a = some t) : Effect backend s a t := by
  cases a with
  | enqueue id queuedAt mutation =>
      simp only [step] at h
      split at h
      · cases h
      · cases h
        exact .enqueue ‹_›
  | flush tab =>
      simp only [step] at h
      split at h <;> cases h
      · exact .flush
      · exact .stay
  | read tab queue =>
      simp only [step] at h
      split at h
      · split at h <;> cases h
        exact .read ‹_› ‹_›
      · cases h
  | next tab =>
      simp only [step] at h
      split at h
      · obtain ⟨loop', hnext, rfl⟩ := Option.map_eq_some_iff.mp h
        exact .next ‹_› hnext
      · cases h
  | answer tab outcome =>
      simp only [step] at h
      split at h
      · obtain ⟨request, hrequest, rfl⟩ := Option.map_eq_some_iff.mp h
        exact .answer ‹_› hrequest
      · cases h
  | write tab =>
      simp only [step] at h
      split at h <;> cases h
      exact .write ‹_›
  | stop tab =>
      cases h
      exact .stop

/-! ### The invariant -/

/-- The rows that a flush has still to settle. -/
def Stage.work : Stage → List QueuedMutation
  | .reading => []
  | .looping loop => (loop.request.map Request.item).toList ++ loop.rest
  | .settling loop item _ => item :: ((loop.request.map Request.item).toList ++ loop.rest)

/-- A flush works on rows of mutations made so far, none of which was removed before it started. -/
structure TabFlush.Sound (s : State) (flush : TabFlush) : Prop where
  before : flush.before ⊆ s.removed
  drawn : ∀ item ∈ flush.stage.work, item.id ∈ s.drawn
  notBefore : ∀ item ∈ flush.stage.work, item.id ∉ flush.before

structure Inv (s : State) : Prop where
  stored : ∀ row ∈ s.store, row.id ∈ s.drawn
  removed : s.removed ⊆ s.drawn
  settled : Settled s
  flushes : ∀ tab flush, s.flushes tab = some flush → flush.Sound s

theorem TabFlush.Sound.mono {s t : State} {flush : TabFlush} (h : flush.Sound s)
    (hremoved : s.removed ⊆ t.removed) (hdrawn : s.drawn ⊆ t.drawn) : flush.Sound t where
  before := List.Subset.trans h.before hremoved
  drawn := fun item hitem => hdrawn (h.drawn item hitem)
  notBefore := h.notBefore

/-- A flush that goes on with rows that it had before. -/
theorem TabFlush.Sound.fewer {s : State} {before : List String} {stage stage' : Stage}
    (h : TabFlush.Sound s ⟨before, stage⟩) (hwork : stage'.work ⊆ stage.work) :
    TabFlush.Sound s ⟨before, stage'⟩ where
  before := h.before
  drawn := fun item hitem => h.drawn item (hwork hitem)
  notBefore := fun item hitem => h.notBefore item (hwork hitem)

theorem sound_goTo {s : State} (h : ∀ tab flush, s.flushes tab = some flush → flush.Sound s)
    {tab : Nat} {next : Option TabFlush} (hnext : ∀ flush, next = some flush → flush.Sound s) :
    ∀ tab' flush, (goTo s tab next).flushes tab' = some flush → flush.Sound s := by
  intro tab' flush hflush
  unfold goTo at hflush
  by_cases htab : tab' = tab
  · subst htab
    exact hnext flush (by simpa using hflush)
  · exact h tab' flush (by simpa [Function.update_of_ne htab] using hflush)

theorem Inv.goTo {s : State} (h : Inv s) {tab : Nat} {next : Option TabFlush}
    (hnext : ∀ flush, next = some flush → flush.Sound s) : Inv (goTo s tab next) where
  stored := h.stored
  removed := h.removed
  settled := ⟨h.settled.gone, h.settled.notAgain⟩
  flushes := by
    intro tab' flush hflush
    exact (sound_goTo h.flushes hnext tab' flush hflush).mono (fun _ h => h) fun _ h => h

theorem Inv.enqueue {s : State} (h : Inv s) {item : QueuedMutation} (hnew : item.id ∉ s.drawn) :
    Inv (enqueue s item) where
  stored := by
    intro row hrow
    rcases Table.mem_put.mp hrow with rfl | ⟨hold, -⟩
    · exact List.mem_cons_self
    · exact List.mem_cons_of_mem _ (h.stored row hold)
  removed := List.Subset.trans h.removed (List.subset_cons_self _ _)
  settled := by
    refine ⟨?_, h.settled.notAgain⟩
    intro id hid row hrow heq
    rcases Table.mem_put.mp hrow with rfl | ⟨hold, -⟩
    · exact hnew (heq ▸ h.removed hid)
    · exact h.settled.gone id hid row hold heq
  flushes := fun tab flush hflush =>
    (h.flushes tab flush hflush).mono (fun _ h => h) (List.subset_cons_self _ _)

/-- What is read is stored, so it has not been removed. -/
theorem Inv.read {backend : Backend} {s : State} (h : Inv s) {tab : Nat} {before : List String}
    {queue : List QueuedMutation} (hflush : s.flushes tab = some ⟨before, .reading⟩)
    (hread : ReadQueue backend s.store queue) :
    Inv (OfflineTabs.goTo s tab (some ⟨before, .looping { rest := queue }⟩)) := by
  apply h.goTo
  intro flush heq
  cases heq
  have hbefore := (h.flushes tab _ hflush).before
  have hstored : ∀ item ∈ queue, item ∈ s.store := fun item hitem => hread.perm.subset hitem
  refine ⟨hbefore, ?_, ?_⟩
  · intro item hitem
    exact h.stored item (hstored item hitem)
  · intro item hitem hmem
    exact h.settled.gone item.id (hbefore hmem) item (hstored item hitem) rfl

theorem work_next {loop loop' : Flush} (h : loop.next = some loop') :
    (Stage.looping loop').work ⊆ (Stage.looping loop).work := by
  unfold Flush.next at h
  split at h
  · rename_i item rest hidle hrest
    simp only [Stage.work, hidle, hrest]
    split at h <;> cases h
    · simp [hidle]
    · simp
  · cases h

theorem Inv.next {s : State} (h : Inv s) {tab : Nat} {before : List String} {loop loop' : Flush}
    (hflush : s.flushes tab = some ⟨before, .looping loop⟩) (hnext : loop.next = some loop') :
    Inv (advance s tab before loop') := by
  have hsound := (h.flushes tab _ hflush).fewer (work_next hnext)
  have hgo : Inv (OfflineTabs.goTo s tab (some ⟨before, .looping loop'⟩)) :=
    h.goTo fun flush heq => (Option.some.inj heq) ▸ hsound
  unfold advance
  split
  · exact hgo
  · rename_i request hrequest
    refine ⟨hgo.stored, hgo.removed, ⟨hgo.settled.gone, ?_⟩, ?_⟩
    · intro sent hsent
      rcases List.mem_cons.mp hsent with rfl | hold
      · apply hsound.notBefore request.item
        simp [Stage.work, hrequest]
      · exact h.settled.notAgain sent hold
    · intro tab' flush hflush'
      exact (hgo.flushes tab' flush hflush').mono (fun _ h => h) fun _ h => h

theorem Inv.answer {s : State} (h : Inv s) {tab : Nat} {before : List String} {loop : Flush}
    {request : Request} (hflush : s.flushes tab = some ⟨before, .looping loop⟩)
    (hrequest : loop.request = some request) (v : Verdict) :
    Inv (OfflineTabs.goTo s tab
      (some ⟨before, .settling (loop.settled request.item v) request.item v⟩)) := by
  apply h.goTo
  intro flush heq
  cases heq
  apply (h.flushes tab _ hflush).fewer
  simp [Stage.work, hrequest, Flush.settled]

/-- A row that is written back is still stored. -/
def kept (s : State) (item : QueuedMutation) (v : Verdict) : Bool :=
  decide (v = .delivered) || (s.store.get? item.id).isSome

theorem kept_iff {s : State} {item : QueuedMutation} {v : Verdict} :
    kept s item v = true ↔ v = .delivered ∨ ∃ row ∈ s.store, row.id = item.id := by
  simp [kept, Table.get?_isSome]

/-- A write after an answer changes only the row of its item. -/
theorem id_of_mem_settle {store : Store} {item row : QueuedMutation} {v : Verdict}
    (h : row ∈ settle store item v) :
    row ∈ store ∧ row.id ≠ item.id ∨ v ≠ .delivered ∧ row.id = item.id := by
  cases v with
  | delivered => exact .inl (Table.mem_erase.mp h)
  | retry =>
      rcases Table.mem_put.mp h with rfl | hold
      · exact .inr ⟨nofun, rfl⟩
      · exact .inl hold
  | blocked failure =>
      rcases Table.mem_put.mp h with rfl | hold
      · exact .inr ⟨nofun, rfl⟩
      · exact .inl hold

theorem removed_write (s : State) (tab : Nat) (before : List String) (loop : Flush)
    (item : QueuedMutation) (v : Verdict) :
    s.removed ⊆ (write s tab before loop item v).removed := by
  unfold write
  split
  · exact List.subset_cons_self _ _
  · exact fun _ h => h

theorem mem_removed_write {s : State} {tab : Nat} {before : List String} {loop : Flush}
    {item : QueuedMutation} {v : Verdict} {id : String}
    (h : id ∈ (write s tab before loop item v).removed) :
    id ∈ s.removed ∨ v = .delivered ∧ id = item.id := by
  unfold write at h
  split at h
  · rename_i hv
    rcases List.mem_cons.mp h with heq | hold
    · exact .inr ⟨hv, heq⟩
    · exact .inl hold
  · exact .inl h

theorem Inv.write {s : State} (h : Inv s) {tab : Nat} {before : List String} {loop : Flush}
    {item : QueuedMutation} {v : Verdict}
    (hflush : s.flushes tab = some ⟨before, .settling loop item v⟩)
    (hkept : kept s item v = true) : Inv (write s tab before loop item v) := by
  have hsound := h.flushes tab _ hflush
  have hdrawn : item.id ∈ s.drawn := hsound.drawn item List.mem_cons_self
  refine ⟨?_, ?_, ⟨?_, h.settled.notAgain⟩, ?_⟩
  · intro row hrow
    rcases id_of_mem_settle hrow with ⟨hold, -⟩ | ⟨-, hid⟩
    · exact h.stored row hold
    · exact hid ▸ hdrawn
  · intro id hid
    rcases mem_removed_write hid with hold | ⟨-, rfl⟩
    · exact h.removed hold
    · exact hdrawn
  · intro id hid row hrow heq
    rcases id_of_mem_settle hrow with ⟨hold, hne⟩ | ⟨hv, hrowId⟩
    · rcases mem_removed_write hid with hid | ⟨-, hid⟩
      · exact h.settled.gone id hid row hold heq
      · exact hne (heq.trans hid)
    · rcases mem_removed_write hid with hid | ⟨hdelivered, -⟩
      · -- The row was stored before the write, so it had not been removed.
        rcases kept_iff.mp hkept with hdelivered | ⟨old, hold, holdId⟩
        · exact hv hdelivered
        · exact h.settled.gone id hid old hold (holdId.trans (hrowId.symm.trans heq))
      · exact hv hdelivered
  · intro tab' flush hflush'
    have hnext : TabFlush.Sound s ⟨before, .looping loop⟩ :=
      hsound.fewer (List.subset_cons_self _ _)
    have hall := @sound_goTo s h.flushes tab (some ⟨before, .looping loop⟩)
      fun flush heq => (Option.some.inj heq) ▸ hnext
    exact (hall tab' flush hflush').mono (removed_write s tab before loop item v) fun _ h => h

/-! ### Runs -/

/-- A tab that writes a row back finds it stored. -/
def Careful (s : State) : Action → Prop
  | .write tab =>
    match s.flushes tab with
    | some ⟨_, .settling _ item v⟩ => kept s item v = true
    | _ => True
  | _ => True

instance (s : State) (a : Action) : Decidable (Careful s a) := by
  unfold Careful
  split
  · split <;> infer_instance
  · infer_instance

theorem Inv.step {backend : Backend} {s t : State} {a : Action} (h : Inv s)
    (hcareful : Careful s a) (hstep : step backend s a = some t) : Inv t := by
  cases effect_of_step hstep with
  | enqueue hnew => exact h.enqueue hnew
  | flush =>
      apply h.goTo
      intro flush heq
      cases heq
      exact ⟨fun _ h => h, fun _ hitem => absurd hitem List.not_mem_nil,
        fun _ hitem => absurd hitem List.not_mem_nil⟩
  | read hflush hread => exact h.read hflush hread
  | next hflush hnext => exact h.next hflush hnext
  | answer hflush hrequest => exact h.answer hflush hrequest _
  | write hflush =>
      simp only [Careful, hflush] at hcareful
      exact h.write hflush hcareful
  | stop => exact h.goTo fun _ heq => absurd heq (Option.some_ne_none _).symm
  | stay => exact h

theorem inv_of_started {s : State} (h : Started s) : Inv s := by
  obtain ⟨hstored, hflushes, hremoved, hsent⟩ := h
  refine ⟨hstored, ?_, ⟨?_, ?_⟩, ?_⟩ <;> simp_all

def row : QueuedMutation := .fresh "m" 0 { url := "/api/scouting" }

def withRow : State :=
  ⟨Table.empty.put row, fun _ => none, ["m"], [], []⟩

theorem started_withRow : Started withRow := by
  refine ⟨?_, fun _ => rfl, rfl, rfl⟩
  intro stored hstored
  rcases Table.mem_put.mp hstored with rfl | ⟨hold, -⟩
  · decide
  · exact absurd hold List.not_mem_nil

/-- Both tabs have read the row and send it. -/
def bothSend : List Action :=
  [.flush 0, .flush 1, .read 0 [row], .read 1 [row], .next 0, .next 1]

/-- One has no answer and writes the row back before the other deletes it. -/
def triedThenDelivered : List Action :=
  bothSend ++ [.answer 1 .failed, .write 1, .answer 0 (.answered 200 .empty), .write 0,
    .stop 0, .flush 0, .read 0 []]

/-- The other way round, the row is stored again and the next flush sends it. -/
def deliveredThenTried : List Action :=
  bothSend ++ [.answer 0 (.answered 200 .empty), .write 0, .answer 1 .failed, .write 1,
    .stop 0, .flush 0, .read 0 [row.retried], .next 0]

end Frcmob.OfflineTabs
