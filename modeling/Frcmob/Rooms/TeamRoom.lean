import Mathlib.Logic.Function.Basic
import Frcmob.Lib.Transition

/-!
The team room of a page: `useTeamRoom.ts`. One hook, its requests on their way, and the server as
far as the order of the saves is concerned. Timers and focus are polls that can come at any time.
The match schedule and the list of room keys are left out.
-/

namespace Frcmob.TeamRoom

/-- A workspace session; `team` is the workspace a membership belongs to. -/
structure Session (team : Nat → Nat) where
  workspaceId : Nat
  memberId : Nat
  owned : team memberId = workspaceId
deriving DecidableEq

inductive Role
  | leader
  | member
deriving DecidableEq

structure TeamRoomMember where
  memberId : Nat
  displayName : String
  role : Role
deriving DecidableEq

structure TeamRoomAssignment where
  matchKey : String
  teamKey : String
  assignedMemberId : Option Nat
  assignedDisplayName : String
  memberActive : Bool
  covered : Bool
  coveredByMe : Bool
deriving DecidableEq

structure TeamRoomSnapshot where
  ok : Bool
  roomKey : String
  eventKey : String
  me : TeamRoomMember
  members : List TeamRoomMember
  assignments : List TeamRoomAssignment
deriving DecidableEq

structure TeamRoomAssignmentChange where
  matchKey : String
  teamKey : String
  assignedMemberId : Option Nat
deriving DecidableEq

inductive Status
  | idle
  | loading
  | ready
  | error
deriving DecidableEq

variable {team : Nat → Nat}

/-- `${workspaceId}:${memberId}:${event}` where all three are there. -/
structure Scope (team : Nat → Nat) where
  session : Session team
  event : String
deriving DecidableEq

/-- A save in the chain: how many were made before it, and the page it was made on. -/
structure Save (team : Nat → Nat) where
  number : Nat
  scope : Scope team
  changes : List TeamRoomAssignmentChange
deriving DecidableEq

inductive Kind (team : Nat → Nat)
  | open_
  | poll
  | save (save : Save team)
deriving DecidableEq

/-- A request on its way: `visit` is the effect that started it, `asker` the session whose token
it carries. -/
structure Request (team : Nat → Nat) where
  kind : Kind team
  visit : Nat
  scope : Scope team
  asker : Option (Session team)
deriving DecidableEq

/-- The save on its way, and whether the server has carried it out. -/
structure Flight (team : Nat → Nat) where
  seq : Nat
  save : Save team
  reached : Bool
deriving DecidableEq

/-- A response that was applied, the request it answers and the scope of the page at that time. -/
structure Applied (team : Nat → Nat) where
  seq : Nat
  request : Request team
  page : Option (Scope team)
  response : TeamRoomSnapshot

/-- An entry of localStorage under `team_room_snapshot_v1`. -/
structure CopyKey where
  workspaceId : Nat
  memberId : Nat
  eventKey : String
deriving DecidableEq

/-- The refs and states of the hook; `visit` counts its effects, and `active` is an effect that
has a scope and has not been cleaned up. `applied`, `saved`, `made`, `reached` and `abandoned` are
the history: responses applied, copies written, saves made, the saves in the order in which the
server carried them out, and those given up while they were still on their way. -/
structure Hook (team : Nat → Nat) where
  session : Option (Session team)
  scopeRef : Option (Scope team)
  visit : Nat
  active : Bool
  requestSeq : Nat
  appliedSeq : Nat
  savesInFlight : Nat
  pollInFlight : Bool
  refreshQueued : Bool
  roomOpen : Bool
  snapshot : Option TeamRoomSnapshot
  snapshotJson : Option TeamRoomSnapshot
  status : Status
  error : String
  fromSavedCopy : Bool
  copies : CopyKey → Option TeamRoomSnapshot
  requests : Nat → Option (Request team)
  chain : List (Save team)
  saving : Option (Flight team)
  applied : List (Applied team)
  saved : List (CopyKey × Applied team)
  made : Nat
  reached : List Nat
  abandoned : List Nat

/-! ### Responses -/

/-- Where `saveSnapshot` puts a response: the key has the event of the response. -/
def copyKey (scope : Scope team) (response : TeamRoomSnapshot) : CopyKey :=
  ⟨scope.session.workspaceId, scope.session.memberId, response.eventKey⟩

/-- The part of `accept` after its checks. `fits` is false where the storage is full. -/
def apply (hook : Hook team) (response : TeamRoomSnapshot) (request : Request team) (seq : Nat)
    (fits : Bool) : Hook team :=
  let entry := ⟨seq, request, hook.scopeRef, response⟩
  let hook' := { hook with
    appliedSeq := seq
    fromSavedCopy := false
    status := .ready
    error := ""
    applied := entry :: hook.applied }
  if some response = hook.snapshotJson then
    hook'
  else
    let key := copyKey request.scope response
    { hook' with
      snapshotJson := some response
      snapshot := some response
      copies := if fits then Function.update hook.copies key (some response) else hook.copies
      saved := if fits then (key, entry) :: hook.saved else hook.saved }

def accept (hook : Hook team) (response : TeamRoomSnapshot) (request : Request team) (seq : Nat)
    (fits : Bool) : Hook team :=
  if hook.scopeRef ≠ some request.scope then hook
  else if response.me.memberId ≠ request.scope.session.memberId ∨ seq < hook.appliedSeq then hook
  else apply hook response request seq fits

/-! ### Requests -/

/-- `nextSeq` and the request it is for. -/
def send (hook : Hook team) (kind : Kind team) (scope : Scope team) : Hook team :=
  { hook with
    requestSeq := hook.requestSeq + 1
    requests := Function.update hook.requests (hook.requestSeq + 1)
      (some ⟨kind, hook.visit, scope, hook.session⟩) }

/-- `poll`, with what it reads of the page and the clock: whether the page is visible and whether
an open is due. -/
def poll (hook : Hook team) (visible due : Bool) : Hook team :=
  match hook.scopeRef with
  | none => hook
  | some scope =>
    if !hook.active || !visible || decide (0 < hook.savesInFlight) || hook.pollInFlight then hook
    else if hook.roomOpen then { send hook .poll scope with pollInFlight := true }
    else if due then { send hook .open_ scope with pollInFlight := true }
    else hook

/-- `refetch` of the current effect, if there is one. -/
def refetch (hook : Hook team) (visible due : Bool) : Hook team :=
  if !hook.active then hook
  else if hook.pollInFlight then { hook with refreshQueued := true }
  else poll hook visible due

/-- The `finally` of `poll`, in the effect that started it. -/
def endPoll (hook : Hook team) (request : Request team) (visible due : Bool) : Hook team :=
  if request.visit = hook.visit ∧ hook.active then
    if hook.refreshQueued then
      poll { hook with pollInFlight := false, refreshQueued := false } visible due
    else
      { hook with pollInFlight := false }
  else
    hook

/-- What follows a save in `saveChanges`. -/
def endSave (hook : Hook team) (visible due : Bool) : Hook team :=
  let hook' := { hook with savesInFlight := hook.savesInFlight - 1, saving := none }
  if hook'.savesInFlight = 0 then refetch hook' visible due else hook'

def land (hook : Hook team) (seq : Nat) : Hook team :=
  { hook with requests := Function.update hook.requests seq none }

/-- An effect marks its own room as open. -/
def opened (hook : Hook team) (request : Request team) (isOpen : Bool) : Hook team :=
  if request.visit = hook.visit then { hook with roomOpen := isOpen } else hook

/-- A response to a request; `none` is the 404 of a poll for a room that is not there. -/
def answer (hook : Hook team) (seq : Nat) (request : Request team)
    (response : Option TeamRoomSnapshot) (fits visible due : Bool) : Hook team :=
  let hook := land hook seq
  match request.kind, response with
  | .open_, some response =>
    endPoll (opened (accept hook response request seq fits) request true) request visible due
  | .poll, some response =>
    if request.visit = hook.visit ∧ hook.active then
      endPoll (accept hook response request seq fits) request visible due
    else
      hook
  | .poll, none =>
    if request.visit = hook.visit ∧ hook.active then
      send { hook with roomOpen := false } .open_ request.scope
    else
      hook
  | .save _, some response =>
    endSave (accept hook response request seq fits) visible due
  | _, none => hook

/-- The save that ends may be carried out later. -/
def stillOnItsWay (hook : Hook team) (late : Bool) : Bool :=
  late && hook.saving.all fun flight => !flight.reached

/-- A request that ends in an error. `late` is a save that the server may still carry out. -/
def fail (hook : Hook team) (seq : Nat) (request : Request team) (error : String)
    (late visible due : Bool) : Hook team :=
  let hook := land hook seq
  match request.kind with
  | .open_ =>
    if request.visit = hook.visit ∧ hook.active then
      endPoll { hook with status := .error, error := error } request visible due
    else
      hook
  | .poll => endPoll hook request visible due
  | .save save =>
    let hook' := endSave hook visible due
    if stillOnItsWay hook late then { hook' with abandoned := save.number :: hook.abandoned }
    else hook'

/-! ### The page -/

def scopeOf (session : Option (Session team)) (event : String) : Option (Scope team) :=
  match session with
  | none => none
  | some session => if event = "" then none else some ⟨session, event⟩

def readSavedSnapshot (hook : Hook team) (scope : Scope team) : Option TeamRoomSnapshot :=
  (hook.copies ⟨scope.session.workspaceId, scope.session.memberId, scope.event⟩).filter
    fun copy => decide (copy.eventKey = scope.event) &&
      decide (copy.me.memberId = scope.session.memberId)

/-- The effect of the hook for a new scope. -/
def enter (hook : Hook team) (event : String) : Hook team :=
  let hook' := { hook with
    scopeRef := scopeOf hook.session event
    visit := hook.visit + 1
    appliedSeq := hook.requestSeq
    error := ""
    pollInFlight := false
    refreshQueued := false
    roomOpen := false }
  match scopeOf hook.session event with
  | none => { hook' with active := false, snapshot := none, status := .idle }
  | some scope =>
    let copy := readSavedSnapshot hook scope
    { hook' with
      active := true
      snapshotJson := copy
      snapshot := copy
      fromSavedCopy := copy.isSome
      status := .loading }

/-- A save joins the chain. -/
def queue (hook : Hook team) (scope : Scope team) (changes : List TeamRoomAssignmentChange) :
    Hook team :=
  { hook with
    savesInFlight := hook.savesInFlight + 1
    chain := hook.chain ++ [⟨hook.made, scope, changes⟩]
    made := hook.made + 1 }

/-- `saveChanges` up to its first `await`, from a page of the given scope. -/
def saveChanges (hook : Hook team) (scope : Option (Scope team))
    (changes : List TeamRoomAssignmentChange) (online : Bool) : Hook team :=
  match scope with
  | none => hook
  | some scope =>
    if changes = [] ∨ online = false then hook else queue hook scope changes

/-- The next save of the chain, once the one before it has settled. -/
def startSave (hook : Hook team) (save : Save team) (rest : List (Save team)) : Hook team :=
  { send hook (.save save) save.scope with
    chain := rest
    saving := some ⟨hook.requestSeq + 1, save, false⟩ }

/-- The server carries out the save on its way. -/
def reach (hook : Hook team) (flight : Flight team) : Hook team :=
  { hook with
    saving := some { flight with reached := true }
    reached := hook.reached ++ [flight.save.number] }

/-- The server carries out a save that was given up. -/
def reachLate (hook : Hook team) (number : Nat) : Hook team :=
  { hook with
    abandoned := hook.abandoned.erase number
    reached := hook.reached ++ [number] }

/-- What can happen next. `leave` is the cleanup of the effect when the page is closed. -/
inductive Action (team : Nat → Nat)
  | signIn (session : Option (Session team))
  | enter (event : String)
  | leave
  | poll (visible due : Bool)
  | retry (visible : Bool)
  | save (scope : Option (Scope team)) (changes : List TeamRoomAssignmentChange) (online : Bool)
  | startSave
  | reach
  | reachLate (number : Nat)
  | answer (seq : Nat) (response : Option TeamRoomSnapshot) (fits visible due : Bool)
  | fail (seq : Nat) (error : String) (late visible due : Bool)

/-- `_normalize_event_key` of a key that the page has trimmed and lowered. -/
def serverKey (event : String) : String :=
  String.ofList (event.toList.take 48)

/-- `team_snapshot`: the room of the event that was asked for, for the member who asked. Only a
poll may find no room, and a save is answered once it has been carried out. -/
def mayAnswer (hook : Hook team) (request : Request team) (response : Option TeamRoomSnapshot) :
    Bool :=
  match request.asker, response with
  | some asker, some response =>
    decide (response.me.memberId = asker.memberId) &&
      decide (response.eventKey = serverKey request.scope.event) &&
      (match request.kind with
      | .save _ => hook.saving.any fun flight => flight.reached
      | _ => true)
  | none, some _ => false
  | _, none => decide (request.kind = .poll)

def step (hook : Hook team) : Action team → Option (Hook team)
  | .signIn session => some { hook with session := session }
  | .enter event => some (enter hook event)
  | .leave => some { hook with active := false }
  | .poll visible due => some (poll hook visible due)
  | .retry visible => some (refetch hook visible true)
  | .save scope changes online => some (saveChanges hook scope changes online)
  | .startSave =>
    match hook.saving, hook.chain with
    | none, save :: rest => some (startSave hook save rest)
    | _, _ => none
  | .reach =>
    match hook.saving with
    | some flight => if flight.reached then none else some (reach hook flight)
    | none => none
  | .reachLate number => if number ∈ hook.abandoned then some (reachLate hook number) else none
  | .answer seq response fits visible due =>
    match hook.requests seq with
    | some request =>
      if mayAnswer hook request response then
        some (answer hook seq request response fits visible due)
      else
        none
    | none => none
  | .fail seq error late visible due =>
    match hook.requests seq with
    | some request => some (fail hook seq request error late visible due)
    | none => none

/-- A page before its first effect. -/
def Started (hook : Hook team) : Prop :=
  hook.scopeRef = none ∧ hook.active = false ∧ hook.requestSeq = 0 ∧ hook.appliedSeq = 0 ∧
    hook.savesInFlight = 0 ∧ hook.snapshot = none ∧ (∀ seq, hook.requests seq = none) ∧
    hook.chain = [] ∧ hook.saving = none ∧ hook.applied = [] ∧ hook.saved = [] ∧ hook.made = 0 ∧
    hook.reached = [] ∧ hook.abandoned = []

def system (team : Nat → Nat) : Transition.System (Hook team) (Action team) where
  start := Started
  step := step

end Frcmob.TeamRoom
