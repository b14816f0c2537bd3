import Frcmob.Lib.Places
import Mathlib.Logic.Function.Basic

/-!
One tick of the regional automation from the completed events on: `_events_due_for_refresh` and
the end of `run_regional_post_event_breakdowns` in `services/events/regional_automation.py`, and
the status of `refresh_event` in `pipeline.py`. When an event was last refreshed is a mark in
Redis.
-/

namespace Frcmob.Regional

open Places

variable {K : Type}

/-- A completed event. Only events with a key are collected. -/
structure Event where
  key : String
  named : key ≠ ""
  endDate : Option String
deriving DecidableEq

structure RegionalSettings where
  settleDays : Int
  maxRechecksPerTick : Int

/-- The numbers under `automation:regional:event_refreshed:`. -/
abbrev Marks (K : Type) := String → Option K

def RegionalSettings.recheckCap (settings : RegionalSettings) : Nat :=
  (max 0 settings.maxRechecksPerTick).toNat

section
variable (fromisoformat : String → Option Int) (settings : RegionalSettings)

/-- The mark of a settled event. Dates are numbers of days. -/
def settledMark (refreshedAt : Marks K) (today : Int) (event : Event) : Option K :=
  match refreshedAt event.key, event.endDate.bind fromisoformat with
  | some last, some ended => if today - ended ≤ max 0 settings.settleDays then none else some last
  | _, _ => none

/-- `settled`, before it is sorted. -/
def settledEvents (refreshedAt : Marks K) (events : List Event) (today : Int) :
    List (K × Event) :=
  events.filterMap fun event =>
    (settledMark fromisoformat settings refreshedAt today event).map (·, event)

/-- Without the marks everything is due. The second part is how many settled events wait. -/
def eventsDueForRefresh [LinearOrder K] (refreshedAt : Option (Marks K)) (events : List Event)
    (today : Int) : List Event × Nat :=
  match refreshedAt with
  | none => (events, 0)
  | some refreshedAt =>
      let due := events.filter fun event =>
        (settledMark fromisoformat settings refreshedAt today event).isNone
      let settled := sortBy Prod.fst (settledEvents fromisoformat settings refreshedAt events today)
      let rechecks := (settled.take settings.recheckCap).map Prod.snd
      (due ++ rechecks, settled.length - rechecks.length)

end

/-- `refresh_event` catches what the ingest raises, but its rollback can raise again. -/
inductive Ingest
  | processed
  | ingestFailed
  | raised
deriving DecidableEq

/-- What becomes of an event's refresh. Its mark is the time at which it is set, unless Redis does
not take it. -/
structure Refresh (K : Type) where
  ingest : Ingest
  postComputeRaises : Bool
  markedAt : Option K

/-- What a tick finds. The completed events are the values of a dict by their keys. -/
structure Tick (K : Type) where
  completed : List Event
  distinct : (completed.map Event.key).Nodup
  maxEvents : Int
  today : Int
  refreshAll : Bool
  marksRead : Bool
  runPostCompute : Bool
  refresh : String → Refresh K

/-- `candidate_events` -/
def Tick.candidates (tick : Tick K) : List Event :=
  tick.completed.take (max 1 (min tick.maxEvents 1000)).toNat

def markEventRefreshed (marks : Marks K) (key : String) : Option K → Marks K
  | none => marks
  | some now => Function.update marks key (some now)

/-- The loop over the processed events, which ends where a post compute raises. -/
def markProcessed (tick : Tick K) (marks : Marks K) : List String → Marks K
  | [] => marks
  | key :: rest =>
      if tick.runPostCompute && (tick.refresh key).postComputeRaises then marks
      else markProcessed tick (markEventRefreshed marks key (tick.refresh key).markedAt) rest

section
variable [LinearOrder K] (fromisoformat : String → Option Int) (settings : RegionalSettings)

def selectedEvents (marks : Marks K) (tick : Tick K) : List Event :=
  if tick.refreshAll then tick.candidates
  else (eventsDueForRefresh fromisoformat settings (if tick.marksRead then some marks else none)
    tick.candidates tick.today).1

def selectedKeys (marks : Marks K) (tick : Tick K) : List String :=
  (selectedEvents fromisoformat settings marks tick).map Event.key

/-- Every event is ingested first. -/
def runTick (marks : Marks K) (tick : Tick K) : Marks K :=
  let keys := selectedKeys fromisoformat settings marks tick
  if keys.any fun key => (tick.refresh key).ingest = .raised then marks
  else markProcessed tick marks (keys.filter fun key => (tick.refresh key).ingest = .processed)

/-- The marks before each tick. -/
def marksAt (marks : Marks K) (ticks : Nat → Tick K) : Nat → Marks K
  | 0 => marks
  | k + 1 => runTick fromisoformat settings (marksAt marks ticks k) (ticks k)

end

end Frcmob.Regional
