import Mathlib.Algebra.Order.Ring.Rat
import Mathlib.Logic.Function.Basic
import Frcmob.Lib.Places
import Frcmob.Lib.Table
import Frcmob.Lib.Transition
import Frcmob.Text

/-!
The sockets a tab holds for the events in play (`features/live/liveResults.ts`, and what
`liveVersions.ts` keeps for it). Sockets, timeouts and intervals are those of the browser, numbered
as they are made; an entry that left the map is never looked at again, so only those in it are
kept.
-/

namespace Frcmob.LiveSockets

open Transition

def maxSockets : Nat := 6
def idleMs : Int := 90000
def maxRetryMs : ℚ := 60000
def freshWindowMs : Int := 10000
def inPlayWindowSec : ℚ := 3600

/-- `id` tells the objects apart that entries of one event have been. -/
structure Entry where
  eventKey : String
  id : Nat
  socket : Option Nat
  lastInterestMs : Int
  retries : Nat
  timer : Option Nat
  ping : Option Nat
  refused : Bool
deriving DecidableEq

/-- `readyState` -/
inductive Phase
  | connecting
  | isOpen
  | closing
  | closed
deriving DecidableEq

/-- A socket and what its callbacks hold. -/
structure Socket where
  eventKey : String
  entry : Nat
  phase : Phase
deriving DecidableEq

/-- A pending `setTimeout` of `connect`. -/
structure Timer where
  eventKey : String
  entry : Nat
  delayMs : ℚ
deriving DecidableEq

structure Tab where
  nowMs : Int
  started : Bool
  entries : Table Entry.eventKey
  sockets : Nat → Option Socket
  timers : Nat → Option Timer
  pings : Nat → Option Nat
  next : Nat
  versions : String → Option String
  freshUntil : String → Option Int
  /-- The `api:updated` events, newest first. -/
  updates : List String

def Entry.idle (entry : Entry) (nowMs : Int) : Bool :=
  decide (idleMs < nowMs - entry.lastInterestMs)

/-- The wait before attempt `retries`, where `random` is `Math.random()`. -/
def retryDelay (retries : Nat) (random : ℚ) : ℚ :=
  min maxRetryMs (2000 * 2 ^ retries) * (4 / 5 + random * (2 / 5))

/-! ### Browser objects -/

/-- `clearTimeout`, `clearInterval` -/
def clear {β : Type} (pending : Nat → Option β) : Option Nat → Nat → Option β
  | none => pending
  | some i => Function.update pending i none

def Socket.close (socket : Socket) : Socket :=
  if socket.phase = .connecting ∨ socket.phase = .isOpen then { socket with phase := .closing }
  else socket

def closeSocket (sockets : Nat → Option Socket) : Option Nat → Nat → Option Socket
  | none => sockets
  | some i => Function.update sockets i ((sockets i).map Socket.close)

namespace Tab

/-- `close` -/
def close (s : Tab) (eventKey : String) : Tab :=
  match s.entries.get? eventKey with
  | none => s
  | some entry =>
      { s with
        entries := s.entries.erase eventKey
        timers := clear s.timers entry.timer
        pings := clear s.pings entry.ping
        sockets := closeSocket s.sockets entry.socket }

def set (s : Tab) (entry : Entry) : Tab :=
  { s with entries := s.entries.put entry }

/-- `entries.get(eventKey)`, where it still is that entry. -/
def owner (s : Tab) (eventKey : String) (id : Nat) : Option Entry :=
  (s.entries.get? eventKey).filter fun entry => entry.id = id

/-- `connect`; the socket cannot be made where `constructs` is false. -/
def connect (s : Tab) (eventKey : String) (id : Nat) (constructs : Bool) : Tab :=
  match s.owner eventKey id with
  | none => s
  | some entry =>
      let entry := { entry with timer := none }
      if entry.refused ∨ constructs = false then s.set entry
      else
        { s.set { entry with socket := some s.next } with
          sockets := Function.update s.sockets s.next (some ⟨eventKey, id, .connecting⟩)
          next := s.next + 1 }

/-- `socket.onopen` -/
def opened (s : Tab) (i : Nat) (socket : Socket) : Tab :=
  { s with
    sockets := Function.update s.sockets i (some { socket with phase := .isOpen })
    entries := match s.owner socket.eventKey socket.entry with
      | none => s.entries
      | some entry => s.entries.put { entry with retries := 0, ping := some s.next }
    pings := Function.update s.pings s.next (some i)
    next := s.next + 1 }

/-- `applyLiveVersion`, and the event that `socket.onmessage` raises for it. -/
def applyLiveVersion (s : Tab) (eventKey version : String) : Tab :=
  let key := normalizeKey eventKey
  let previous := s.versions key
  let s := { s with versions := Function.update s.versions key (some version) }
  if previous = none ∨ previous = some version then s
  else
    { s with
      freshUntil := Function.update s.freshUntil key (some (s.nowMs + freshWindowMs))
      updates := eventKey :: s.updates }

/-- `socket.onclose` -/
def closed (s : Tab) (i : Nat) (socket : Socket) (code : Nat) (random : ℚ) : Tab :=
  let s := { s with
    sockets := Function.update s.sockets i (some { socket with phase := .closed }) }
  match s.owner socket.eventKey socket.entry with
  | none => s
  | some entry =>
      let s := { s with pings := clear s.pings entry.ping }
      let entry := { entry with ping := none, socket := none }
      if code = 4400 then s.set { entry with refused := true }
      else if entry.idle s.nowMs then (s.set entry).close socket.eventKey
      else
        { s.set { entry with retries := entry.retries + 1, timer := some s.next } with
          timers := Function.update s.timers s.next
            (some ⟨socket.eventKey, socket.entry, retryDelay entry.retries random⟩)
          next := s.next + 1 }

/-- The entry that nobody asked about for the longest. -/
def oldest (s : Tab) : Option Entry :=
  (Places.sortBy Entry.lastInterestMs s.entries.rows).head?

/-- The seventh entry is at the cost of the oldest. -/
def makeRoom (s : Tab) : Tab :=
  if maxSockets < s.entries.rows.length then
    (s.oldest.map fun oldest => s.close oldest.eventKey).getD s
  else s

/-- `onInterest` -/
def onInterest (s : Tab) (eventKey : String) (onLine constructs : Bool) : Tab :=
  match s.entries.get? eventKey with
  | some existing => s.set { existing with lastInterestMs := s.nowMs }
  | none =>
      if onLine then
        let id := s.next
        let s := { s.set ⟨eventKey, id, none, s.nowMs, 0, none, none, false⟩ with
          next := s.next + 1 }
        s.makeRoom.connect eventKey id constructs
      else s

/-- `sweep` -/
def sweep (s : Tab) : Tab :=
  s.entries.rows.foldl (fun t entry => if entry.idle s.nowMs then t.close entry.eventKey else t) s

/-- What `startLiveResults` returns. -/
def stop (s : Tab) : Tab :=
  s.entries.rows.foldl (fun t entry => t.close entry.eventKey) { s with started := false }

end Tab

structure ScheduleMatch where
  isCompleted : Bool
  actualTime : Option ℚ
  predictedTime : Option ℚ
  scheduledTime : Option ℚ

def eventInPlay (played : List ScheduleMatch) (nowSec : ℚ) : Bool :=
  played.any fun game => !game.isCompleted &&
    ((game.actualTime.or game.predictedTime).or game.scheduledTime).any fun at_ =>
      decide (|at_ - nowSec| ≤ inPlayWindowSec)

/-- `closing` is a close that the server begins; `message` has the version of a message of type
`results`. -/
inductive Action
  | clock (nowMs : Int)
  | start
  | stop
  | schedule (eventKey : String) (played : List ScheduleMatch) (onLine constructs : Bool)
  | opened (i : Nat)
  | message (i : Nat) (version : Option String)
  | closing (i : Nat)
  | closed (i : Nat) (code : Nat) (random : ℚ)
  | timeout (t : Nat) (constructs : Bool)
  | sweep

def step (s : Tab) : Action → Option Tab
  | .clock nowMs => some { s with nowMs := nowMs }
  | .start => some { s with started := true }
  | .stop => if s.started then some s.stop else none
  | .schedule eventKey played onLine constructs =>
      if s.started && eventInPlay played (s.nowMs / 1000) then
        some (s.onInterest (normalizeKey eventKey) onLine constructs)
      else some s
  | .opened i => do
      let socket ← s.sockets i
      if socket.phase = .connecting then some (s.opened i socket) else none
  | .message i version => do
      let socket ← s.sockets i
      if socket.phase = .isOpen then
        some ((version.map (s.applyLiveVersion socket.eventKey)).getD s)
      else none
  | .closing i => do
      let socket ← s.sockets i
      if socket.phase = .isOpen then
        some { s with
          sockets := Function.update s.sockets i (some { socket with phase := .closing }) }
      else none
  | .closed i code random => do
      let socket ← s.sockets i
      if socket.phase = .closed then none else some (s.closed i socket code random)
  | .timeout t constructs => do
      let timer ← s.timers t
      some ({ s with timers := Function.update s.timers t none }.connect timer.eventKey
        timer.entry constructs)
  | .sweep => if s.started then some s.sweep else none

def system : System Tab Action where
  start s := s.started = false ∧ s.entries = .empty ∧ (∀ i, s.sockets i = none) ∧
    (∀ t, s.timers t = none) ∧ ∀ p, s.pings p = none
  step := step

end Frcmob.LiveSockets
