import Frcmob.Lib.Rosters
import Frcmob.Lib.Transition
import Frcmob.Text

/-!
The live sockets of the rooms and the presence of their scouts: `realtime.py`. What a call does
under the lock is one step; what it asks of Redis afterwards is on its way until it lands or is
lost. The snapshots that the calls return are left out.
-/

namespace Frcmob.Realtime

structure ConnectionMeta where
  roomKey : String
  scoutProfile : String
  clientId : Option String
  connectionId : String
  connectedAt : Nat
  seenAt : Nat
deriving DecidableEq

/-- Who asked for a write. -/
inductive Origin
  | connect
  | touch
  | keepalive
deriving DecidableEq

/-- A `_set_presence` on its way. -/
structure Write where
  socket : Nat
  origin : Origin
  payload : ConnectionMeta
deriving DecidableEq

/-- How far the `disconnect` is that took a socket's metadata. -/
inductive Stage
  | cancelling
  | deleted
  | returned
deriving DecidableEq

structure Closing where
  taken : ConnectionMeta
  stage : Stage
deriving DecidableEq

/-- A worker's hub, the presence keys in Redis, and what is on its way between them. `accepted`
are the sockets that have been accepted, `drawn` the keys of their connections. -/
structure Hub where
  roomConnections : List (String × Finset Nat)
  connectionMeta : Nat → Option ConnectionMeta
  keepaliveTasks : Nat → Bool
  httpPresence : List (String × ConnectionMeta)
  presence : String → Option ConnectionMeta
  writes : List Write
  httpDeletes : List String
  closing : Nat → Option Closing
  accepted : Finset Nat
  drawn : List String

/-- `settings.scouting_rooms_presence_prefix` -/
structure Settings where
  presencePrefix : String

def presenceKey (settings : Settings) (m : ConnectionMeta) : String :=
  settings.presencePrefix ++ m.roomKey ++ ":" ++ m.connectionId

/-- `f"{client_id or 'client'}-{secrets.token_hex(6)}"` -/
def connectionIdOf (clientId : Option String) (token : String) : String :=
  ((clientId.filter (· ≠ "")).getD "client") ++ "-" ++ token

/-! ### The steps -/

def ofScout (roomKey scoutProfile : String) (clientId : Option String) (m : ConnectionMeta) :
    Bool :=
  let clientLookup := normalizeKey (clientId.getD "")
  decide (normalizeKey m.roomKey = normalizeKey roomKey) &&
    decide (normalizeKey m.scoutProfile = normalizeKey scoutProfile) &&
    (decide (clientLookup = "") || decide (normalizeKey (m.clientId.getD "") = clientLookup))

/-- What `_pop_http_presence_unlocked` removes. -/
def poppedHttp (rows : List (String × ConnectionMeta)) (roomKey scoutProfile : String)
    (clientId : Option String) : List (String × ConnectionMeta) :=
  if normalizeKey roomKey = "" ∨ normalizeKey scoutProfile = "" then []
  else rows.filter fun row => ofScout roomKey scoutProfile clientId row.2

def connect (settings : Settings) (hub : Hub) (i : Nat) (m : ConnectionMeta) : Hub :=
  let removed := poppedHttp hub.httpPresence m.roomKey m.scoutProfile m.clientId
  { hub with
    roomConnections := Rosters.add m.roomKey i hub.roomConnections
    connectionMeta := Function.update hub.connectionMeta i (some m)
    keepaliveTasks := Function.update hub.keepaliveTasks i true
    httpPresence := hub.httpPresence.filter fun row => decide (row ∉ removed)
    httpDeletes := hub.httpDeletes ++ removed.map fun row => presenceKey settings row.2
    writes := hub.writes ++ [⟨i, .connect, m⟩]
    accepted := insert i hub.accepted
    drawn := presenceKey settings m :: hub.drawn }

/-- The metadata is marked as seen and a write of it is on its way. -/
def mark (hub : Hub) (i : Nat) (m : ConnectionMeta) (origin : Origin) (now : Nat) : Hub :=
  let seen := { m with seenAt := now }
  { hub with
    connectionMeta := Function.update hub.connectionMeta i (some seen)
    writes := hub.writes ++ [⟨i, origin, seen⟩] }

def popTask (hub : Hub) (i : Nat) : Hub :=
  { hub with keepaliveTasks := Function.update hub.keepaliveTasks i false }

/-- The socket leaves its room, and its connection starts to close. -/
def takeMeta (hub : Hub) (i : Nat) (m : ConnectionMeta) : Hub :=
  { hub with
    connectionMeta := Function.update hub.connectionMeta i none
    roomConnections := Rosters.discard m.roomKey i hub.roomConnections
    closing := Function.update hub.closing i (some ⟨m, .cancelling⟩) }

/-- `disconnect` under the lock. A call that finds no metadata returns at once. -/
def disconnect (hub : Hub) (i : Nat) : Hub :=
  match hub.connectionMeta i with
  | none => popTask hub i
  | some m => takeMeta (popTask hub i) i m

def land (settings : Settings) (hub : Hub) (write : Write) : Hub :=
  { hub with
    writes := hub.writes.erase write
    presence := Function.update hub.presence (presenceKey settings write.payload)
      (some write.payload) }

def forget (hub : Hub) (key : String) : Hub :=
  { hub with presence := Function.update hub.presence key none }

def advance (hub : Hub) (i : Nat) (closing : Closing) (stage : Stage) : Hub :=
  { hub with closing := Function.update hub.closing i (some { closing with stage := stage }) }

/-- No write of the keep-alive task is on its way: what `await task` waits for. -/
def keepaliveDone (hub : Hub) (i : Nat) : Bool :=
  hub.writes.all fun write => !(write.socket == i && write.origin == .keepalive)

/-- What can happen next. `disconnect` is called by the endpoint where it ends, by a removal or
a takeover, and by a broadcast for each socket that a send failed on. -/
inductive Action
  | connect (i : Nat) (roomKey scoutProfile : String) (clientId : Option String)
      (token : String) (now : Nat)
  | touch (i : Nat) (now : Nat)
  | keepalive (i : Nat) (now : Nat)
  | land (write : Write)
  | lose (write : Write)
  | deleteHttp (key : String)
  | loseHttp (key : String)
  | disconnect (i : Nat)
  | deletePresence (i : Nat)
  | deleteFails (i : Nat)
  | returns (i : Nat)
  /-- Requests over HTTP, and the removal of old rows. -/
  | http (rows : List (String × ConnectionMeta))
  | expire (key : String)
deriving DecidableEq

/-- A socket is accepted once, and a token makes the key of its connection a new one. -/
def step (settings : Settings) (hub : Hub) : Action → Option Hub
  | .connect i roomKey scoutProfile clientId token now =>
    let m : ConnectionMeta :=
      ⟨roomKey, scoutProfile, clientId, connectionIdOf clientId token, now, now⟩
    if i ∈ hub.accepted ∨ presenceKey settings m ∈ hub.drawn then none
    else some (connect settings hub i m)
  | .touch i now =>
    match hub.connectionMeta i with
    | none => some hub
    | some m => some (mark hub i m .touch now)
  | .keepalive i now =>
    if hub.keepaliveTasks i && keepaliveDone hub i then
      match hub.connectionMeta i with
      | none => some hub
      | some m => some (mark hub i m .keepalive now)
    else
      none
  | .land write => if write ∈ hub.writes then some (land settings hub write) else none
  | .lose write =>
    if write ∈ hub.writes then some { hub with writes := hub.writes.erase write } else none
  | .deleteHttp key =>
    if key ∈ hub.httpDeletes then
      some { forget hub key with httpDeletes := hub.httpDeletes.erase key }
    else
      none
  | .loseHttp key =>
    if key ∈ hub.httpDeletes then
      some { hub with httpDeletes := hub.httpDeletes.erase key }
    else
      none
  | .disconnect i => some (disconnect hub i)
  | .deletePresence i =>
    match hub.closing i with
    | some closing =>
      if closing.stage = .cancelling ∧ keepaliveDone hub i = true then
        some (forget (advance hub i closing .deleted) (presenceKey settings closing.taken))
      else
        none
    | none => none
  | .deleteFails i =>
    match hub.closing i with
    | some closing =>
      if closing.stage = .cancelling ∧ keepaliveDone hub i = true then
        some (advance hub i closing .deleted)
      else
        none
    | none => none
  | .returns i =>
    match hub.closing i with
    | some closing =>
      if closing.stage = .deleted then some (advance hub i closing .returned) else none
    | none => none
  | .http rows => some { hub with httpPresence := rows }
  | .expire key => some (forget hub key)

def Started (hub : Hub) : Prop :=
  hub.roomConnections = [] ∧ (∀ i, hub.connectionMeta i = none) ∧
    (∀ i, hub.keepaliveTasks i = false) ∧ hub.writes = [] ∧ ∀ i, hub.closing i = none

def system (settings : Settings) : Transition.System Hub Action where
  start := Started
  step := step settings

end Frcmob.Realtime
