import Frcmob.Offline.Replay

/-!
The pit saves of one device for one workspace, event and team: `handleSave` sends each
save straight to the server, and `apiFetch` queues it when the connection fails. The
page takes one save at a time, while the queue flushes on its own.
-/

namespace Frcmob.Offline
open Transition

abbrev Payload := List (String × PayloadValue)

def maxPayloadFields : Nat := 80

/-- The value `_normalize_payload` keeps, if any. -/
def cleanedValue : PayloadValue → Option PayloadValue
  | .text s => some (.text (takeChars 2000 s))
  | .scalar s => some (.scalar s)
  | .list items => some (.list ((items.take 24).map (takeChars 120)))
  | .other => none

/-- `cleaned[token] = value` -/
def setField (cleaned : Payload) (token : String) (value : PayloadValue) : Payload :=
  if cleaned.any (·.1 = token) then
    cleaned.map fun field => if field.1 = token then (token, value) else field
  else cleaned ++ [(token, value)]

def normalizePayload (raw : Payload) : Payload :=
  (raw.take maxPayloadFields).foldl
    (fun cleaned field =>
      match cleanedValue field.2 with
      | some value => setField cleaned (takeChars 64 field.1) value
      | none => cleaned) []

/-- What the device's saves of one entry have in common. -/
structure PitEntry where
  api : String := "/api/v1"
  eventKey : String
  teamKey : String
  scoutProfile : Option String := none
  headers : List (String × String) := [("content-type", "application/json")]
deriving DecidableEq

/-- ` for Team 118`, for a key like `frc118` in any case. -/
def teamLabel (teamKey : String) : String :=
  let digits := teamKey.toList.drop 3
  if lower (takeChars 3 teamKey) = "frc" ∧ digits ≠ [] ∧ digits.all Char.isDigit then
    " for Team " ++ String.ofList digits
  else ""

/-- The request of `upsertPitEntry`, as `apiFetch` queues it. -/
def PitEntry.mutation (e : PitEntry) (payload : Payload) : Mutation where
  url := e.api ++ "/pit-scouting"
  method := "POST"
  body := some
    { strings := [("event_key", e.eventKey), ("team_key", e.teamKey)] ++
        e.scoutProfile.toList.map fun profile => ("scout_profile", profile)
      payload := payload }
  headers := e.headers
  label := some ("Pit notes" ++ teamLabel e.teamKey)

/-- The record key of every save of the entry. -/
def PitEntry.recordKey (e : PitEntry) : String :=
  (QueuedMutation.fresh "" 0 (e.mutation [])).recordKey

def Mutation.payload (m : Mutation) : Payload :=
  (m.body.map Body.payload).getD []

@[simp] theorem PitEntry.mutation_payload (e : PitEntry) (payload : Payload) :
    (e.mutation payload).payload = payload := rfl

@[simp] theorem PitEntry.fresh_recordKey (e : PitEntry) (id : String) (queuedAt : Nat)
    (payload : Payload) :
    (QueuedMutation.fresh id queuedAt (e.mutation payload)).recordKey = e.recordKey := rfl

/-- The request of the save under way; `served` once the server has stored it. -/
structure DirectSave where
  payload : Payload
  served : Bool := false
deriving DecidableEq

/-- `stored` is the payload of the server's row, `strays` the direct saves given up on
that may still reach the server, `last` the last save the page reported as made. -/
structure PitState where
  queue : State := {}
  stored : Option Payload := none
  direct : Option DirectSave := none
  strays : List Payload := []
  last : Option Payload := none

/-- `upsert_pit_entry` on the accepted writes, each of which replaces the whole payload
of its entry. -/
def upsertAccepted (e : PitEntry) (stored : Option Payload) (writes : List QueuedMutation) :
    Option Payload :=
  writes.foldl
    (fun stored write =>
      if write.recordKey = e.recordKey then some (normalizePayload write.payload) else stored)
    stored

/-- `save` is `handleSave` up to its request, `lost` a connection failure that queues
it, `refused` an error answer, after which the form stays open. -/
inductive PitAction
  | queue (a : Action)
  | save (payload : Payload)
  | serveDirect
  | confirmed
  | refused
  | lost (id : String) (queuedAt : Nat)
  | serveStray (payload : Payload)

/-- Saves of the entry are queued by `lost` only; other writes go to other records. -/
def OtherRecord (e : PitEntry) : Action → Prop
  | .enqueue id queuedAt mutation =>
      (QueuedMutation.fresh id queuedAt mutation).recordKey ≠ e.recordKey
  | _ => True

instance (e : PitEntry) : ∀ a, Decidable (OtherRecord e a)
  | .enqueue _ _ _ => inferInstanceAs (Decidable (_ ≠ _))
  | .beginFlush _ | .next | .serve | .answer _ | .endFlush | .abort | .serveLate _ =>
      isTrue True.intro

/-- The queue moves to `q`, and the server stores what it accepted on the way. -/
def PitState.afterQueue (s : PitState) (e : PitEntry) (q : State) : PitState :=
  { s with
    queue := q
    stored := upsertAccepted e s.stored (q.accepted.drop s.queue.accepted.length) }

def pitStep (backend : Backend) (e : PitEntry) (s : PitState) : PitAction → Option PitState
  | .queue a =>
      if OtherRecord e a then (step backend s.queue a).map (s.afterQueue e) else none
  | .save payload =>
      if s.direct = none then some { s with direct := some { payload } } else none
  | .serveDirect =>
      s.direct.bind fun d =>
        if d.served then none
        else some { s with
          direct := some { d with served := true }
          stored := some (normalizePayload d.payload) }
  | .confirmed =>
      s.direct.bind fun d =>
        if d.served then some { s with direct := none, last := some d.payload } else none
  | .refused =>
      s.direct.bind fun d => if d.served then none else some { s with direct := none }
  | .lost id queuedAt =>
      s.direct.map fun d =>
        { s with
          queue := enqueueStep s.queue (.fresh id queuedAt (e.mutation d.payload))
          direct := none
          strays := s.strays ++ if d.served then [] else [d.payload]
          last := some d.payload }
  | .serveStray payload =>
      if payload ∈ s.strays then
        some { s with
          strays := s.strays.erase payload
          stored := some (normalizePayload payload) }
      else none

/-- From whatever the server has stored for the entry before. -/
def pitSystem (backend : Backend) (e : PitEntry) : System PitState PitAction where
  start s := s = { stored := s.stored }
  step := pitStep backend e

/-- Nothing of the entry is on its way any more. -/
def PitQuiet (e : PitEntry) (s : PitState) : Prop :=
  s.direct = none ∧ ∀ row ∈ s.queue.store.rows, row.recordKey ≠ e.recordKey

/-- The server has the last save. -/
def EndsAtLastSave (e : PitEntry) (s : PitState) : Prop :=
  PitQuiet e s → ∀ payload, s.last = some payload → s.stored = some (normalizePayload payload)

instance (e : PitEntry) (s : PitState) : Decidable (PitQuiet e s) :=
  inferInstanceAs (Decidable (_ ∧ _))

instance (e : PitEntry) (s : PitState) : Decidable (EndsAtLastSave e s) :=
  decidable_of_iff (PitQuiet e s → s.stored = s.last.map normalizePayload ∨ s.last = none) <| by
    rw [EndsAtLastSave]
    cases s.last with
    | none => simp
    | some payload => simp

/-- Queued writes are drawn later than the pending ones of their record, the server
stores no direct save while an earlier one is pending in the queue, and carries out
nothing that the phone gave up on. -/
def PitSafe (backend : Backend) (e : PitEntry) (s : PitState) : PitAction → Prop
  | .queue a => DrawnLater backend s.queue a
  | .serveDirect => ∀ row ∈ s.queue.store.rows, row.Pending → row.recordKey ≠ e.recordKey
  | .lost id queuedAt =>
      DrawnLater backend s.queue
        (.enqueue id queuedAt (e.mutation ((s.direct.map DirectSave.payload).getD [])))
  | .serveStray _ => False
  | _ => True

instance (backend : Backend) (e : PitEntry) (s : PitState) (a : PitAction) :
    Decidable (PitSafe backend e s a) := by
  cases a <;> unfold PitSafe <;> infer_instance

end Frcmob.Offline
