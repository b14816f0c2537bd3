import Mathlib.Data.List.Basic
import Frcmob.Lib.Rosters
import Frcmob.Lib.Transition

/-!
The sockets that hear of an event's new results: `live_signal.py`. A socket's `serve` and the
loop's `tick` take one step from each `await` to the next, in any order; Redis holds the
version of each event's results, and anyone may note a new one at any time.
-/

namespace Frcmob.LiveSignal

/-- What a worker goes by: its limit of open files, if it has one, and `\d` of a regex. -/
structure Worker where
  softLimit : Option Nat
  isDecimal : Char → Bool

def maxSocketsPerWorker : Nat := 3000
def maxSocketsPerClient : Nat := 50
def filesReserved : Nat := 512

def socketCap (worker : Worker) : Nat :=
  match worker.softLimit with
  | none => maxSocketsPerWorker
  | some soft => min maxSocketsPerWorker (soft - filesReserved)

/-- `^\d{4}[a-z0-9]{1,16}$` -/
def isEventKey (worker : Worker) (eventKey : String) : Bool :=
  let season := eventKey.toList.take 4
  let code := eventKey.toList.drop 4
  season.length == 4 && season.all worker.isDecimal && decide (1 ≤ code.length) &&
    decide (code.length ≤ 16) && code.all fun c => c.isDigit || c.isLower

/-- How far `serve` is. The sets count a socket from `joined` until it has `left`. -/
inductive Phase
  | accepting
  | joined
  | read (current : Option String)
  | listening
  | left
deriving DecidableEq

/-- A socket. `heard` is the version that the last message to it carried. -/
structure Socket where
  eventKey : String
  client : String
  phase : Phase
  isOpen : Bool
  heard : Option (Option String)
deriving DecidableEq

def Phase.connected : Phase → Bool
  | .accepting | .left => false
  | .joined | .read _ | .listening => true

def Socket.connected (socket : Socket) : Bool :=
  socket.phase.connected

/-- How far `tick` is: the events it reads, the versions it has yet to compare, and the
sockets it has yet to tell of one. -/
inductive Tick
  | idle
  | reading (events : List String)
  | comparing (latest : List (String × Option String))
  | telling (eventKey version : String) (sockets : Finset Nat)
      (latest : List (String × Option String))
deriving DecidableEq

def Tick.latest : Tick → List (String × Option String)
  | .idle | .reading _ => []
  | .comparing latest | .telling _ _ _ latest => latest

def Tick.sockets : Tick → Finset Nat
  | .idle | .reading _ | .comparing _ => ∅
  | .telling _ _ sockets _ => sockets

/-- A worker's hub with its sockets, and Redis. `lastRead` is the version a tick has read of
an event if no other has been noted since. -/
structure Hub where
  sockets : List (String × Finset Nat)
  versions : String → Option (Option String)
  perClient : String → Nat
  conns : Nat → Option Socket
  store : String → Option String
  tick : Tick
  lastRead : String → Option String

def Hub.socketCount (hub : Hub) : Nat :=
  Rosters.total hub.sockets

def Hub.put (hub : Hub) (i : Nat) (socket : Socket) : Hub :=
  { hub with conns := Function.update hub.conns i (some socket) }

/-- From `accept` to the read of the version. -/
def Hub.join (hub : Hub) (i : Nat) (socket : Socket) : Hub :=
  { hub.put i { socket with phase := .joined } with
    sockets := Rosters.add socket.eventKey i hub.sockets
    perClient := Function.update hub.perClient socket.client
      (hub.perClient socket.client + 1) }

/-- `self._versions.setdefault(event_key, current)` -/
def Hub.setdefault (hub : Hub) (eventKey : String) (current : Option String) : Hub :=
  if hub.versions eventKey = none then
    { hub with versions := Function.update hub.versions eventKey (some current) }
  else
    hub

/-- The `finally` of `serve`. A set goes only when it is empty, so the set a socket was added
to is the one of its event; a count that reaches 0 is deleted and reads as 0 again. -/
def Hub.leave (hub : Hub) (i : Nat) (socket : Socket) : Hub :=
  let sockets := Rosters.discard socket.eventKey i hub.sockets
  { hub.put i { socket with phase := .left } with
    sockets := sockets
    perClient := Function.update hub.perClient socket.client
      (hub.perClient socket.client - 1)
    versions := if Rosters.at? socket.eventKey sockets = ∅ then
        Function.update hub.versions socket.eventKey none
      else
        hub.versions }

/-- Redis gets a version of an event's results; `none` is one that expires. -/
def Hub.note (hub : Hub) (eventKey : String) (version : Option String) : Hub :=
  if hub.store eventKey = version then hub
  else
    { hub with
      store := Function.update hub.store eventKey version
      lastRead := Function.update hub.lastRead eventKey none }

/-- `latest = await asyncio.to_thread(_versions, events)` -/
def Hub.readLatest (hub : Hub) (events : List String) : Hub :=
  { hub with
    tick := .comparing (events.map fun eventKey => (eventKey, hub.store eventKey))
    lastRead := fun eventKey =>
      if eventKey ∈ events then hub.store eventKey else hub.lastRead eventKey }

/-- One event of the loop over `latest`, up to its first send. -/
def Hub.compare (hub : Hub) (eventKey : String) (version : Option String)
    (latest : List (String × Option String)) : Hub :=
  match version with
  | none => { hub with tick := .comparing latest }
  | some version =>
    if hub.versions eventKey = some (some version) then
      { hub with tick := .comparing latest }
    else
      { hub with
        versions := Function.update hub.versions eventKey (some (some version))
        tick := .telling eventKey version (Rosters.at? eventKey hub.sockets) latest }

/-- What can happen next. -/
inductive Action
  | request (i : Nat) (eventKey client : String)
  | accept (i : Nat)
  | readVersion (i : Nat)
  | firstSend (i : Nat) (delivered : Bool)
  | leave (i : Nat)
  /-- The client goes; `serve` has yet to notice. -/
  | close (i : Nat)
  | note (eventKey : String) (version : Option String)
  | tickStart
  | tickRead
  | tickFails
  | compare
  | send (i : Nat) (delivered : Bool)
  | told
  | tickDone
deriving DecidableEq

/-- The first test of `serve`; a socket that fails it is closed. -/
def admits (worker : Worker) (hub : Hub) (eventKey client : String) : Bool :=
  isEventKey worker eventKey && decide (hub.socketCount < socketCap worker) &&
    decide (hub.perClient client < maxSocketsPerClient)

def stepSocket (hub : Hub) (i : Nat) (socket : Socket) : Action → Option Hub
  | .accept _ => if socket.phase = .accepting then some (hub.join i socket) else none
  | .readVersion _ =>
    if socket.phase = .joined then
      some (hub.put i { socket with phase := .read (hub.store socket.eventKey) })
    else
      none
  | .firstSend _ delivered =>
    match socket.phase with
    | .read current =>
      let next := hub.setdefault socket.eventKey current
      if delivered then
        if socket.isOpen then
          some (next.put i { socket with phase := .listening, heard := some current })
        else
          none
      else
        some (next.leave i socket)
    | _ => none
  | .leave _ =>
    if socket.connected then some (hub.leave i socket)
    else if socket.phase = .accepting then some (hub.put i { socket with phase := .left })
    else none
  | .close _ => some (hub.put i { socket with isOpen := false })
  | _ => none

def stepTick (hub : Hub) : Action → Option Hub
  | .tickStart =>
    match hub.tick with
    | .idle => some { hub with tick := .reading (hub.sockets.map Prod.fst) }
    | _ => none
  | .tickRead =>
    match hub.tick with
    | .reading events => some (hub.readLatest events)
    | _ => none
  | .tickFails =>
    match hub.tick with
    | .reading _ => some { hub with tick := .idle }
    | _ => none
  | .compare =>
    match hub.tick with
    | .comparing ((eventKey, version) :: latest) => some (hub.compare eventKey version latest)
    | _ => none
  | .told =>
    match hub.tick with
    | .telling _ _ sockets latest =>
      if sockets = ∅ then some { hub with tick := .comparing latest } else none
    | _ => none
  | .tickDone =>
    match hub.tick with
    | .comparing [] => some { hub with tick := .idle }
    | _ => none
  | _ => none

/-- A send of `tick`; the sockets are told in any order. -/
def stepSend (hub : Hub) (i : Nat) (delivered : Bool) : Option Hub :=
  match hub.tick, hub.conns i with
  | .telling eventKey version sockets latest, some socket =>
    if i ∈ sockets then
      let next := { hub with tick := .telling eventKey version (sockets.erase i) latest }
      if delivered then
        if socket.isOpen then
          some (next.put i { socket with heard := some (some version) })
        else
          none
      else
        some next
    else
      none
  | _, _ => none

def step (worker : Worker) (hub : Hub) : Action → Option Hub
  | .request i eventKey client =>
    if hub.conns i = none then
      if admits worker hub eventKey client then
        some (hub.put i ⟨eventKey, client, .accepting, true, none⟩)
      else
        some hub
    else
      none
  | .note eventKey version => some (hub.note eventKey version)
  | .send i delivered => stepSend hub i delivered
  | .accept i => (hub.conns i).bind fun socket => stepSocket hub i socket (.accept i)
  | .readVersion i => (hub.conns i).bind fun socket => stepSocket hub i socket (.readVersion i)
  | .firstSend i delivered =>
    (hub.conns i).bind fun socket => stepSocket hub i socket (.firstSend i delivered)
  | .leave i => (hub.conns i).bind fun socket => stepSocket hub i socket (.leave i)
  | .close i => (hub.conns i).bind fun socket => stepSocket hub i socket (.close i)
  | action => stepTick hub action

/-- A hub without sockets; Redis may hold any versions. -/
def Started (hub : Hub) : Prop :=
  hub.sockets = [] ∧ (∀ e, hub.versions e = none) ∧ (∀ c, hub.perClient c = 0) ∧
    (∀ i, hub.conns i = none) ∧ hub.tick = .idle ∧ ∀ e, hub.lastRead e = none

def system (worker : Worker) : Transition.System Hub Action where
  start := Started
  step := step worker

end Frcmob.LiveSignal
