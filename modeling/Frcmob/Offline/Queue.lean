import Mathlib.Data.List.Perm.Basic
import Frcmob.Lib.Table
import Frcmob.Lib.Transition
import Frcmob.Text

/-!
The offline mutation queue of `utils/offlineQueue.ts`: the stored rows, `enqueue`,
and one `flushQueue` as the steps it takes between its awaits, so that enqueues,
the server and the network may act between any two of them. One page runs it, with
the store it found at start: IndexedDB, or localStorage where that is unavailable.
-/

namespace Frcmob.Offline
open Transition

inductive FailureReason
  | serverRejected
  | conflict
deriving DecidableEq

structure Failure where
  reason : FailureReason
  status : Nat
deriving DecidableEq

/-- A value of a `payload` object; `other` is an object or anything else. -/
inductive PayloadValue
  | text (s : String)
  | scalar (s : String)
  | list (items : List String)
  | other
deriving DecidableEq

/-- What `JSON.parse` finds in a request body that the queue and the pit endpoint read:
the string-valued properties and the `payload` object. -/
structure Body where
  strings : List (String × String) := []
  payload : List (String × PayloadValue) := []
deriving DecidableEq

/-- What a caller hands to `enqueue`. -/
structure Mutation where
  url : String
  method : String := "POST"
  body : Option Body := none
  headers : List (String × String) := []
  label : Option String := none
deriving DecidableEq

/-- A stored row; `queuedAt` is in milliseconds, whose ISO strings sort the same way. -/
structure QueuedMutation extends Mutation where
  id : String
  queuedAt : Nat
  attempts : Nat := 0
  failure : Option Failure := none
deriving DecidableEq

namespace QueuedMutation

/-- The row `enqueue` builds from the id and the clock it drew. -/
def fresh (id : String) (queuedAt : Nat) (mutation : Mutation) : QueuedMutation :=
  { mutation with id := id, queuedAt := queuedAt }

/-- `{ ...item, attempts: item.attempts + 1 }` -/
def retried (item : QueuedMutation) : QueuedMutation :=
  { item with attempts := item.attempts + 1 }

def blocked (item : QueuedMutation) (failure : Failure) : QueuedMutation :=
  { item with attempts := item.attempts + 1, failure := some failure }

def bodyPart (item : QueuedMutation) (name : String) : String :=
  match item.body with
  | none => ""
  | some body => lower ((body.strings.lookup name).getD "")

/-- `item.url.split('?')[0]` -/
def path (item : QueuedMutation) : String :=
  String.ofList (item.url.toList.takeWhile (· ≠ '?'))

def recordKey (item : QueuedMutation) : String :=
  String.intercalate "|" [item.method, item.path, item.bodyPart "event_key",
    item.bodyPart "team_key", item.bodyPart "client_entry_id"]

/-- The same save, whatever its attempts and its failure. -/
def SameWrite (x y : QueuedMutation) : Prop :=
  x.id = y.id ∧ x.queuedAt = y.queuedAt ∧ x.toMutation = y.toMutation

def Pending (item : QueuedMutation) : Prop :=
  item.failure = none

instance (x y : QueuedMutation) : Decidable (x.SameWrite y) :=
  inferInstanceAs (Decidable (_ ∧ _))

instance (item : QueuedMutation) : Decidable item.Pending :=
  inferInstanceAs (Decidable (_ = _))

@[simp] theorem retried_id (item : QueuedMutation) : item.retried.id = item.id := rfl
@[simp] theorem blocked_id (item : QueuedMutation) (f : Failure) : (item.blocked f).id = item.id :=
  rfl
@[simp] theorem retried_recordKey (item : QueuedMutation) :
    item.retried.recordKey = item.recordKey := rfl
@[simp] theorem retried_queuedAt (item : QueuedMutation) :
    item.retried.queuedAt = item.queuedAt := rfl
@[simp] theorem retried_pending (item : QueuedMutation) : item.retried.Pending ↔ item.Pending :=
  Iff.rfl
@[simp] theorem not_pending_blocked (item : QueuedMutation) (f : Failure) :
    ¬ (item.blocked f).Pending := nofun
@[simp] theorem fresh_pending (id : String) (at' : Nat) (m : Mutation) :
    (fresh id at' m).Pending := rfl

theorem SameWrite.refl (x : QueuedMutation) : x.SameWrite x := ⟨rfl, rfl, rfl⟩

theorem SameWrite.trans {x y z : QueuedMutation} (h : x.SameWrite y) (h' : y.SameWrite z) :
    x.SameWrite z :=
  ⟨h.1.trans h'.1, h.2.1.trans h'.2.1, h.2.2.trans h'.2.2⟩

theorem retried_sameWrite (item : QueuedMutation) : item.retried.SameWrite item := ⟨rfl, rfl, rfl⟩

theorem blocked_sameWrite (item : QueuedMutation) (f : Failure) :
    (item.blocked f).SameWrite item := ⟨rfl, rfl, rfl⟩

theorem SameWrite.recordKey {x y : QueuedMutation} (h : x.SameWrite y) :
    x.recordKey = y.recordKey := by
  simp only [QueuedMutation.recordKey, path, bodyPart, h.2.2]

end QueuedMutation

/-! ### Answers -/

/-- The text of an acknowledgement: `json` gives its `ok` and `conflict` where they are
booleans, `malformed` whether the reply called itself JSON, `cut` a body that broke off. -/
inductive ReplyText
  | empty
  | json (ok conflict : Option Bool)
  | malformed (jsonType : Bool)
  | cut
deriving DecidableEq

/-- How a replayed request ends: no answer (or the timeout), or a response. -/
inductive Outcome
  | failed
  | answered (status : Nat) (text : ReplyText)
deriving DecidableEq

/-- `Response.ok` -/
def isOk (status : Nat) : Bool :=
  200 ≤ status && status < 300

/-- `none` where the code throws. -/
def isConflictBody : ReplyText → Option Bool
  | .empty => some false
  | .json ok conflict => some (ok = some false && conflict = some true)
  | .malformed jsonType => if jsonType then none else some false
  | .cut => none

inductive Verdict
  | delivered
  | retry
  | blocked (failure : Failure)
deriving DecidableEq

/-- The branch of `flushQueue` that an outcome takes. -/
def verdict : Outcome → Verdict
  | .failed => .retry
  | .answered status text =>
      let conflict :=
        if status = 409 then some true else if isOk status then isConflictBody text else some false
      match conflict with
      | none => .retry
      | some conflict =>
          if isOk status && !conflict then .delivered
          else if 500 ≤ status || status = 408 || status = 429 then .retry
          else .blocked ⟨if conflict then .conflict else .serverRejected, status⟩

/-- The server answered with a success that is not a conflict. -/
def Outcome.Success : Outcome → Prop
  | .answered status .empty | .answered status (.malformed false) => isOk status = true
  | .answered status (.json ok conflict) =>
      isOk status = true ∧ ¬ (ok = some false ∧ conflict = some true)
  | _ => False

/-- The server answered with a conflict or another failure that is not temporary. -/
def Outcome.Refusal : Outcome → Prop
  | .failed => False
  | .answered status text =>
      (isOk status = true ∧ text = .json (some false) (some true)) ∨
        (isOk status = false ∧ status < 500 ∧ status ≠ 408 ∧ status ≠ 429)

theorem isOk_iff {status : Nat} : isOk status = true ↔ 200 ≤ status ∧ status < 300 := by
  simp [isOk]

instance (o : Outcome) : Decidable o.Success := by
  unfold Outcome.Success; split <;> infer_instance

theorem verdict_ok {status : Nat} (h : isOk status = true) (text : ReplyText) :
    verdict (.answered status text) = .delivered ↔ isConflictBody text = some false := by
  have hs := isOk_iff.mp h
  have hne : status ≠ 409 := by omega
  simp only [verdict, hne, h, if_false, if_true]
  cases isConflictBody text with
  | none => simp
  | some conflict =>
      cases conflict with
      | false => simp
      | true =>
          have hlow : ¬ 500 ≤ status := by omega
          have h408 : status ≠ 408 := by omega
          have h429 : status ≠ 429 := by omega
          simp [hlow, h408, h429]

theorem verdict_delivered_iff (o : Outcome) : verdict o = .delivered ↔ o.Success := by
  cases o with
  | failed => simp [verdict, Outcome.Success]
  | answered status text =>
      by_cases h : isOk status = true
      · rw [verdict_ok h]
        cases text with
        | empty => simp [isConflictBody, Outcome.Success, h]
        | json ok conflict => simp [isConflictBody, Outcome.Success, h]
        | malformed jsonType => cases jsonType <;> simp [isConflictBody, Outcome.Success, h]
        | cut => simp [isConflictBody, Outcome.Success]
      · have hnot : ¬ Outcome.Success (.answered status text) := by
          cases text with
          | empty => exact h
          | json ok conflict => exact fun hs => h hs.1
          | malformed jsonType => cases jsonType <;> simp [Outcome.Success, h]
          | cut => exact id
        simp only [hnot, iff_false, verdict, h, Bool.false_and, if_false, Bool.false_eq_true]
        by_cases h409 : status = 409
        · simp [h409]
        · simp only [h409, if_false]
          split <;> simp

theorem Outcome.Refusal.blocked {o : Outcome} (h : o.Refusal) : ∃ f, verdict o = .blocked f := by
  cases o with
  | failed => exact h.elim
  | answered status text =>
      simp only [verdict]
      cases h with
      | inl h =>
          have hs := isOk_iff.mp h.1
          have hne : status ≠ 409 := by omega
          refine ⟨⟨.conflict, status⟩, ?_⟩
          simp [h.1, h.2, hne, isConflictBody]
          omega
      | inr h =>
          by_cases h409 : status = 409
          · exact ⟨⟨.conflict, status⟩, by simp [h409, isOk]⟩
          · refine ⟨⟨.serverRejected, status⟩, ?_⟩
            simp [h409, h.1]
            omega

/-! ### The store -/

abbrev Store := Table QueuedMutation.id

inductive Backend
  | indexedDb
  | localStorage
deriving DecidableEq

/-- What `readQueue` may return. The comparator of `idbReadAll` never answers 0, so the
rows of one millisecond come in an order each engine makes of the key order. -/
def ReadQueue (backend : Backend) (store : Store) (queue : List QueuedMutation) : Prop :=
  match backend with
  | .indexedDb => queue.Perm store.rows ∧ queue.Pairwise fun x y => x.queuedAt ≤ y.queuedAt
  | .localStorage => queue = store.rows

instance (backend : Backend) (store : Store) (queue : List QueuedMutation) :
    Decidable (ReadQueue backend store queue) := by
  cases backend <;> unfold ReadQueue <;> infer_instance

theorem ReadQueue.perm {backend : Backend} {store : Store} {queue : List QueuedMutation}
    (h : ReadQueue backend store queue) : queue.Perm store.rows := by
  cases backend with
  | indexedDb => exact h.1
  | localStorage => exact h ▸ List.Perm.refl _

/-- The store write after an answer. -/
def settle (store : Store) (item : QueuedMutation) : Verdict → Store
  | .delivered => store.erase item.id
  | .retry => store.put item.retried
  | .blocked failure => store.put (item.blocked failure)

/-! ### A flush and the world around it -/

/-- A request on its way; `served` once the server has accepted its write. -/
structure Request where
  item : QueuedMutation
  served : Bool := false
deriving DecidableEq

/-- `flushQueue` in its loop: the rows of its snapshot still to come and the `waiting` keys. -/
structure Flush where
  rest : List QueuedMutation
  waiting : List String := []
  request : Option Request := none
deriving DecidableEq

/-- `flush` is `flushInFlight`. The lists after it are the world and the history:
requests given up on that may still reach the server, the writes the server accepted, the
mutations enqueued, those since the last flush began, and the outcomes of the requests. -/
structure State where
  store : Store := .empty
  flush : Option Flush := none
  abandoned : List QueuedMutation := []
  accepted : List QueuedMutation := []
  made : List QueuedMutation := []
  arrivals : List QueuedMutation := []
  outcomes : List (QueuedMutation × Outcome) := []

/-- The request in flight. -/
def State.request (s : State) : Option Request :=
  s.flush.bind Flush.request

inductive Action
  | enqueue (id : String) (queuedAt : Nat) (mutation : Mutation)
  | beginFlush (queue : List QueuedMutation)
  | next
  | serve
  | answer (outcome : Outcome)
  | endFlush
  | abort
  | serveLate (item : QueuedMutation)
deriving DecidableEq

def enqueueStep (s : State) (item : QueuedMutation) : State :=
  { s with
    store := s.store.put item
    made := s.made ++ [item]
    arrivals := s.arrivals ++ [item] }

/-- One round of the loop up to its `fetch`: skip a blocked row or a waiting record. -/
def Flush.next (f : Flush) : Option Flush :=
  match f.request, f.rest with
  | none, item :: rest =>
      if item.failure.isSome || f.waiting.contains item.recordKey then some { f with rest := rest }
      else some { f with rest := rest, request := some { item } }
  | _, _ => none

/-- The request given up on may still be carried out. -/
def abandonedBy (r : Request) : List QueuedMutation :=
  if r.served then [] else [r.item]

/-- What the server has accepted once it answered: a success says it did. -/
def acceptedBy (r : Request) (v : Verdict) : List QueuedMutation :=
  if r.served || v ≠ .delivered then [] else [r.item]

def Flush.settled (f : Flush) (item : QueuedMutation) (v : Verdict) : Flush :=
  { f with
    waiting := if v = .retry then f.waiting ++ [item.recordKey] else f.waiting
    request := none }

def answerStep (s : State) (f : Flush) (r : Request) (outcome : Outcome) : State :=
  let v := verdict outcome
  { s with
    store := settle s.store r.item v
    flush := some (f.settled r.item v)
    abandoned := s.abandoned ++ if v = .retry then abandonedBy r else []
    accepted := s.accepted ++ acceptedBy r v
    outcomes := s.outcomes ++ [(r.item, outcome)] }

/-- `abort` is a storage write that throws or a page that closes. -/
def step (backend : Backend) (s : State) : Action → Option State
  | .enqueue id queuedAt mutation => some (enqueueStep s (.fresh id queuedAt mutation))
  | .beginFlush queue =>
      if s.flush.isNone ∧ ReadQueue backend s.store queue then
        some { s with flush := some { rest := queue }, arrivals := [] }
      else none
  | .next => s.flush.bind fun f => f.next.map fun f' => { s with flush := some f' }
  | .serve =>
      s.flush.bind fun f => f.request.bind fun r =>
        if r.served then none
        else some { s with
          flush := some { f with request := some { r with served := true } }
          accepted := s.accepted ++ [r.item] }
  | .answer outcome =>
      s.flush.bind fun f => f.request.map fun r => answerStep s f r outcome
  | .endFlush =>
      s.flush.bind fun f =>
        if f.rest = [] ∧ f.request = none then some { s with flush := none } else none
  | .abort =>
      s.flush.map fun f =>
        { s with flush := none, abandoned := s.abandoned ++ (f.request.map abandonedBy).getD [] }
  | .serveLate item =>
      if item ∈ s.abandoned then
        some { s with abandoned := s.abandoned.erase item, accepted := s.accepted ++ [item] }
      else none

/-- The queue as a system, from an empty store. -/
def queueSystem (backend : Backend) : System State Action where
  start s := s = {}
  step := step backend

/-- What a step can do, case by case. -/
inductive Stepped (backend : Backend) (s : State) : Action → State → Prop
  | enqueue (id : String) (queuedAt : Nat) (mutation : Mutation) :
      Stepped backend s (.enqueue id queuedAt mutation)
        (enqueueStep s (.fresh id queuedAt mutation))
  | beginFlush {queue : List QueuedMutation} (idle : s.flush = none)
      (read : ReadQueue backend s.store queue) :
      Stepped backend s (.beginFlush queue)
        { s with flush := some { rest := queue }, arrivals := [] }
  | skip {f : Flush} {item : QueuedMutation} {rest : List QueuedMutation}
      (running : s.flush = some f) (idle : f.request = none) (head : f.rest = item :: rest)
      (passed : ¬ item.Pending ∨ item.recordKey ∈ f.waiting) :
      Stepped backend s .next { s with flush := some { f with rest := rest } }
  | send {f : Flush} {item : QueuedMutation} {rest : List QueuedMutation}
      (running : s.flush = some f) (idle : f.request = none) (head : f.rest = item :: rest)
      (pending : item.Pending) (due : item.recordKey ∉ f.waiting) :
      Stepped backend s .next
        { s with flush := some { f with rest := rest, request := some { item } } }
  | serve {f : Flush} {r : Request} (running : s.flush = some f) (sent : f.request = some r) :
      Stepped backend s .serve { s with
        flush := some { f with request := some { r with served := true } }
        accepted := s.accepted ++ [r.item] }
  | answer {f : Flush} {r : Request} (outcome : Outcome) (running : s.flush = some f)
      (sent : f.request = some r) :
      Stepped backend s (.answer outcome) (answerStep s f r outcome)
  | endFlush {f : Flush} (running : s.flush = some f) :
      Stepped backend s .endFlush { s with flush := none }
  | abort (late : List QueuedMutation) :
      Stepped backend s .abort { s with flush := none, abandoned := late }
  | serveLate {item : QueuedMutation} (late : item ∈ s.abandoned) :
      Stepped backend s (.serveLate item)
        { s with abandoned := s.abandoned.erase item, accepted := s.accepted ++ [item] }

theorem stepped_next {s t : State} {backend : Backend} (h : step backend s .next = some t) :
    Stepped backend s .next t := by
  simp only [step, Option.bind_eq_some_iff, Option.map_eq_some_iff, Flush.next] at h
  obtain ⟨f, running, f', hnext, rfl⟩ := h
  split at hnext
  · rename_i item rest idle head
    split at hnext
    · rename_i passed
      cases hnext
      refine .skip running idle head ?_
      simpa [QueuedMutation.Pending, Option.isSome_iff_ne_none] using passed
    · rename_i due
      cases hnext
      simp only [Bool.or_eq_true, not_or, Option.not_isSome_iff_eq_none,
        List.contains_iff_mem] at due
      exact .send running idle head due.1 due.2
  · cases hnext

theorem stepped_of_step {s t : State} {backend : Backend} {a : Action}
    (h : step backend s a = some t) : Stepped backend s a t := by
  cases a with
  | enqueue id queuedAt mutation =>
      cases h
      exact .enqueue id queuedAt mutation
  | beginFlush queue =>
      simp only [step, Option.ite_none_right_eq_some, Option.isNone_iff_eq_none] at h
      obtain ⟨⟨idle, read⟩, h⟩ := h
      cases h
      exact .beginFlush idle read
  | next => exact stepped_next h
  | serve =>
      simp only [step, Option.bind_eq_some_iff, Option.ite_none_left_eq_some] at h
      obtain ⟨f, running, r, sent, -, h⟩ := h
      cases h
      exact .serve running sent
  | answer outcome =>
      simp only [step, Option.bind_eq_some_iff, Option.map_eq_some_iff] at h
      obtain ⟨f, running, r, sent, rfl⟩ := h
      exact .answer outcome running sent
  | endFlush =>
      simp only [step, Option.bind_eq_some_iff, Option.ite_none_right_eq_some] at h
      obtain ⟨f, running, -, h⟩ := h
      cases h
      exact .endFlush running
  | abort =>
      simp only [step, Option.map_eq_some_iff] at h
      obtain ⟨f, -, rfl⟩ := h
      exact .abort _
  | serveLate item =>
      simp only [step, Option.ite_none_right_eq_some] at h
      obtain ⟨late, h⟩ := h
      cases h
      exact .serveLate late

end Frcmob.Offline
