import Mathlib.Data.Rat.Floor
import Frcmob.Lib.Transition

/-!
`useSingleFlightPolling`. An effect polls with a timer, a flag for its run in flight and a queued
reason, all its own; a change of the options ends it and begins another, while its run goes on.
-/

namespace Frcmob.Polling
open Transition

inductive SingleFlightPollReason
  | initial
  | poll
  | manual
  | resume
  | update
deriving DecidableEq

/-- An interval that is not finite is none. -/
structure Options where
  enabled : Bool := true
  intervalMs : Option ℚ
  visible : Bool := true
  backoffMultiplier : ℚ := 7 / 4
  maxBackoffMs : ℚ := 120000
  minBackoffMs : ℚ := 2000
deriving DecidableEq

def normalizedIntervalMs : Option ℚ → Int
  | none => 10000
  | some raw => max 1000 ⌊raw⌋

def Options.safeIntervalMs (options : Options) : Int :=
  normalizedIntervalMs options.intervalMs

/-- Of the same values for what the effect depends on. -/
def Options.sameEffect (a b : Options) : Bool :=
  a.backoffMultiplier = b.backoffMultiplier && a.enabled = b.enabled &&
    a.maxBackoffMs = b.maxBackoffMs && a.minBackoffMs = b.minBackoffMs &&
    a.safeIntervalMs = b.safeIntervalMs && a.visible = b.visible

def Options.polls (options : Options) : Bool :=
  options.enabled && options.visible

/-- What an effect that polls has of its own: `refreshes` are the calls of `refreshNow` that wait
for its run, `updateTimer` whether an update is about to run. -/
structure Effect where
  options : Options
  timer : Option Int := none
  requestInFlightFlag : Bool := false
  pendingReason : Option SingleFlightPollReason := none
  nextDelayMs : Int
  refreshes : Nat := 0
  updateTimer : Bool := false
deriving DecidableEq

/-- A manual or initial request, through `triggerNow` or from a pull to refresh. -/
inductive Asked
  | trigger
  | refresh
deriving DecidableEq

/-- `orphans` are the runs in flight of effects that are over, `started` the runs so far, and
`unserved` the requests made while a run was executing that no run has followed. -/
structure Hook where
  mounted : Bool := true
  options : Options
  effect : Option Effect := none
  orphans : Nat := 0
  requestInFlight : Bool := false
  started : List SingleFlightPollReason := []
  unserved : List Asked := []
deriving DecidableEq

/-- How many runs are executing. -/
def Hook.executing (h : Hook) : Nat :=
  h.orphans + if h.effect.any (·.requestInFlightFlag) then 1 else 0

def Effect.clearTimer (e : Effect) : Effect :=
  { e with timer := none }

def Effect.schedule (e : Effect) (delayMs : Int) : Effect :=
  { e with timer := some (max 300 delayMs) }

def Hook.setEffect (h : Hook) (e : Effect) : Hook :=
  { h with effect := some e }

def Hook.execute (h : Hook) (e : Effect) (reason : SingleFlightPollReason) : Hook :=
  if e.requestInFlightFlag then
    if reason ≠ .poll then h.setEffect { e with pendingReason := some reason }
    else h.setEffect (e.schedule e.nextDelayMs)
  else
    { h.setEffect { e with requestInFlightFlag := true } with
      requestInFlight := true
      started := reason :: h.started
      unserved := [] }

/-- The delay after a run. -/
def Effect.delayAfter (e : Effect) (successful : Bool) : Int :=
  if successful then e.options.safeIntervalMs
  else
    let lowerBoundMs := max ⌊e.options.minBackoffMs⌋ e.options.safeIntervalMs
    let upperBoundMs := max lowerBoundMs ⌊e.options.maxBackoffMs⌋
    let stepped := ⌊(e.nextDelayMs : ℚ) * max (11 / 10) e.options.backoffMultiplier + 1 / 2⌋
    max lowerBoundMs (min upperBoundMs stepped)

/-- The run of the effect that polls has come to its end. -/
def Hook.settle (h : Hook) (e : Effect) (successful : Bool) : Hook :=
  let h := { h with requestInFlight := false }
  let e := { e with requestInFlightFlag := false, nextDelayMs := e.delayAfter successful }
  match e.pendingReason with
  | some queued => h.execute { e with pendingReason := none } queued
  | none => h.setEffect (e.schedule e.nextDelayMs)

/-- The effect begins: it polls at once, or waits for other options. -/
def Hook.begin (h : Hook) (options : Options) : Hook :=
  let h := { h with options := options }
  if options.polls then h.execute { options := options, nextDelayMs := options.safeIntervalMs } .initial
  else { h with requestInFlight := false }

/-- The effect ends; a run of it goes on. -/
def Hook.dispose (h : Hook) : Hook :=
  { h with orphans := h.executing, effect := none }

/-- A request counts while a run is executing, unless polling is disabled. -/
def Hook.ask (h : Hook) (asked : Asked) : Hook :=
  if 0 < h.executing ∧ h.mounted ∧ h.options.enabled then
    { h with unserved := asked :: h.unserved }
  else h

inductive HookAction
  | triggerNow (reason : SingleFlightPollReason)
  | timer
  | updated
  | updateTimer
  | refreshNow
  | refreshGoesOn (timedOut : Bool)
  | complete (successful : Bool)
  | completeOrphan
  | setOptions (options : Options)
  | unmount
deriving DecidableEq

def Hook.triggerNow (h : Hook) (reason : SingleFlightPollReason) : Hook :=
  let h := if reason = .manual ∨ reason = .initial then h.ask .trigger else h
  match h.effect with
  | none => h
  | some e => h.execute e.clearTimer reason

/-- A run in flight answers first. -/
def Hook.refreshNow (h : Hook) (e : Effect) : Hook :=
  let h := h.ask .refresh
  if e.requestInFlightFlag then h.setEffect { e with refreshes := e.refreshes + 1 }
  else h.execute e.clearTimer .manual

/-- The effects that have ended answer no timer and no event. -/
def hookStep (h : Hook) : HookAction → Option Hook
  | .triggerNow reason => some (h.triggerNow reason)
  | .timer => (h.effect.filter (·.timer.isSome)).map fun e => h.execute e.clearTimer .poll
  | .updated => h.effect.map fun e => h.setEffect { e with updateTimer := true }
  | .updateTimer => (h.effect.filter (·.updateTimer)).map fun e =>
      h.execute { e with updateTimer := false } .update
  | .refreshNow => h.effect.map h.refreshNow
  | .refreshGoesOn timedOut =>
      (h.effect.filter fun e => 0 < e.refreshes && (!e.requestInFlightFlag || timedOut)).map fun e =>
        h.execute { e with refreshes := e.refreshes - 1 }.clearTimer .manual
  | .complete successful =>
      (h.effect.filter (·.requestInFlightFlag)).map fun e => h.settle e successful
  | .completeOrphan => if 0 < h.orphans then some { h with orphans := h.orphans - 1 } else none
  | .setOptions options =>
      if h.mounted then
        if options.sameEffect h.options then some { h with options := options }
        else
          let t := h.dispose.begin options
          some (if options.enabled then t else { t with unserved := [] })
      else none
  | .unmount =>
      if h.mounted then some { h.dispose with mounted := false, unserved := [] } else none

def hookSystem : System Hook HookAction where
  start h := h = ({ options := h.options } : Hook).begin h.options
  step := hookStep

end Frcmob.Polling
