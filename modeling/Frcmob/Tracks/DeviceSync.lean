import Frcmob.Lib.Table
import Frcmob.Lib.Transition

/-!
The recordings kept on a device and their uploads: `offlineStore.ts`, the flush of `sync.ts` and
`finishAndSync` of `OnDeviceRun.tsx`. All tabs share one store. A read and a write of it are two
steps, so that everything else can come between them.
-/

namespace Frcmob.DeviceSync

/-- What a run has produced, and what an upload of it carries. -/
structure Recording (Payload : Type) where
  id : String
  eventKey : Option String
  matchKey : Option String
  createdAt : Nat
  payload : Payload
deriving DecidableEq

inductive FailureKind
  | connection
  | server
  | access
  | rejected
deriving DecidableEq

structure RecordingSyncFailure where
  kind : FailureKind
  status : Option Nat
  atMs : Nat
deriving DecidableEq

structure StoredSession (Payload Response : Type) extends Recording Payload where
  synced : Bool
  syncFailure : Option RecordingSyncFailure
  syncResult : Option Response
  workspaceId : Option Nat
  workspaceName : Option String
deriving DecidableEq

/-- A workspace session of a tab. `owner` is the workspace that the server issued a token for. -/
structure WorkspaceSession (owner : String → Nat) where
  token : String
  workspaceId : Nat
  workspaceName : String
  owned : owner token = workspaceId
deriving DecidableEq

/-- `POST /tracks/on-device-session` with the token in its header. -/
structure Post (Payload : Type) where
  body : Recording Payload
  workspaceId : Option Nat
  token : String
deriving DecidableEq

/-- How a `post` ended: with the response of the server, or with an error and its status if it
has one. -/
inductive Outcome (Response : Type)
  | synced (response : Response)
  | failed (status : Option Nat)
deriving DecidableEq

def classifyRecordingSyncFailure (status : Option Nat) (now : Nat) : RecordingSyncFailure :=
  let kind :=
    match status with
    | none => .connection
    | some code =>
      if code = 401 ∨ code = 403 then .access
      else if code = 408 ∨ code = 429 ∨ 500 ≤ code then .server
      else if 400 ≤ code then .rejected
      else .connection
  ⟨kind, status, now⟩

/-- Who uploads: the one flush of a tab, or the screen of a run. -/
inductive Slot
  | flush (tab : Nat)
  | run (tab n : Nat)
deriving DecidableEq

def Slot.tab : Slot → Nat
  | .flush tab => tab
  | .run tab _ => tab

variable {Payload Response : Type} {owner : String → Nat}

/-- What an upload holds on to: the workspace it started with and, in a flush, the sessions after
the one at hand. -/
structure Turn (owner : String → Nat) (Payload Response : Type) where
  workspace : WorkspaceSession owner
  rest : List (StoredSession Payload Response)
deriving DecidableEq

/-- Where an upload stands, with what it read before. -/
inductive Phase (owner : String → Nat) (Payload Response : Type)
  | saved (session : StoredSession Payload Response)
  | listing (workspace : WorkspaceSession owner) (retryRejected : Bool)
  | next (turn : Turn owner Payload Response)
  | binding (turn : Turn owner Payload Response) (session : StoredSession Payload Response)
  | checking (turn : Turn owner Payload Response) (session : StoredSession Payload Response)
  | posting (turn : Turn owner Payload Response) (post : Post Payload)
  | reading (turn : Turn owner Payload Response) (id : String) (outcome : Outcome Response)
  | writing (turn : Turn owner Payload Response) (row : StoredSession Payload Response)
deriving DecidableEq

/-- The keyed object store `sessions`. -/
abbrev Sessions (Payload Response : Type) :=
  Table fun row : StoredSession Payload Response => row.id

/-- The tabs of a device. `recorded` are the sessions as first saved, `posts` the uploads sent and
`acknowledged` those whose response has come back. -/
structure Device (owner : String → Nat) (Payload Response : Type) where
  workspace : Nat → Option (WorkspaceSession owner)
  store : Sessions Payload Response
  uploads : Slot → Option (Phase owner Payload Response)
  recorded : List (StoredSession Payload Response)
  posts : List (Post Payload)
  acknowledged : List (Post Payload)

/-! ### The steps -/

def goTo (device : Device owner Payload Response) (slot : Slot)
    (phase : Option (Phase owner Payload Response)) : Device owner Payload Response :=
  { device with uploads := Function.update device.uploads slot phase }

/-- `saveSession` -/
def saveSession (device : Device owner Payload Response)
    (row : StoredSession Payload Response) : Device owner Payload Response :=
  { device with store := device.store.put row }

/-- `current?.workspace.id === workspaceId && current.token === workspaceToken` -/
def isCurrent (device : Device owner Payload Response) (tab : Nat)
    (workspace : WorkspaceSession owner) : Bool :=
  match device.workspace tab with
  | none => false
  | some current =>
    decide (current.workspaceId = workspace.workspaceId) && decide (current.token = workspace.token)

/-- A flush goes on to its next session, a run's screen is done. -/
def afterwards (slot : Slot) (turn : Turn owner Payload Response) :
    Option (Phase owner Payload Response) :=
  match slot with
  | .flush _ => some (.next turn)
  | .run _ _ => none

/-- A flush sends the id of the workspace it started with, a run's screen that of the session. -/
def postOf (slot : Slot) (workspace : WorkspaceSession owner)
    (session : StoredSession Payload Response) : Post Payload :=
  match slot with
  | .flush _ => ⟨session.toRecording, some workspace.workspaceId, workspace.token⟩
  | .run _ _ => ⟨session.toRecording, session.workspaceId, workspace.token⟩

def bound (workspace : WorkspaceSession owner) (session : StoredSession Payload Response) :
    StoredSession Payload Response :=
  { session with
    workspaceId := some workspace.workspaceId
    workspaceName := some workspace.workspaceName }

/-- The upload itself, if the workspace is still the current one. -/
def upload (device : Device owner Payload Response) (slot : Slot)
    (turn : Turn owner Payload Response) (session : StoredSession Payload Response) :
    Device owner Payload Response :=
  let post := postOf slot turn.workspace session
  if isCurrent device slot.tab turn.workspace then
    { goTo device slot (some (.posting turn post)) with posts := post :: device.posts }
  else
    match slot with
    | .flush _ => goTo device slot (some (.reading turn session.id (.failed none)))
    | .run _ _ => goTo device slot none

/-- A session without a workspace is bound to one before it is uploaded. -/
def uploadOrBind (device : Device owner Payload Response) (slot : Slot)
    (turn : Turn owner Payload Response) (session : StoredSession Payload Response) :
    Device owner Payload Response :=
  match session.workspaceId with
  | none => goTo device slot (some (.binding turn (bound turn.workspace session)))
  | some _ => upload device slot turn session

/-- `flushPendingOnDeviceSessions` while no flush of the tab is in flight. -/
def startFlush (device : Device owner Payload Response) (tab : Nat) (retryRejected : Bool) :
    Device owner Payload Response :=
  match device.workspace tab with
  | none => device
  | some workspace =>
    if workspace.token = "" then device
    else goTo device (.flush tab) (some (.listing workspace retryRejected))

def shouldSync (workspace : WorkspaceSession owner) (retryRejected : Bool)
    (session : StoredSession Payload Response) : Bool :=
  (decide (session.workspaceId = none) ||
    decide (session.workspaceId = some workspace.workspaceId)) &&
  (retryRejected || decide (session.syncFailure.map (·.kind) ≠ some .rejected))

/-- `(await listPendingSessions(db)).filter(shouldSync)` -/
def pending (device : Device owner Payload Response) (workspace : WorkspaceSession owner)
    (retryRejected : Bool) : List (StoredSession Payload Response) :=
  (device.store.rows.filter fun row => !row.synced).filter (shouldSync workspace retryRejected)

/-- One round of the loop of `syncPendingSessions`, up to its first `await`. -/
def nextSession (device : Device owner Payload Response) (slot : Slot)
    (turn : Turn owner Payload Response) : Device owner Payload Response :=
  match turn.rest with
  | [] => goTo device slot none
  | session :: rest =>
    if isCurrent device slot.tab turn.workspace then
      uploadOrBind device slot { turn with rest := rest } session
    else
      goTo device slot none

/-- `finishAndSync` once the run is stored. -/
def direct (device : Device owner Payload Response) (slot : Slot) (mounted online : Bool)
    (session : StoredSession Payload Response) : Device owner Payload Response :=
  match mounted && online, device.workspace slot.tab with
  | true, some workspace =>
    if workspace.token = "" ∨
        ∃ id, session.workspaceId = some id ∧ id ≠ workspace.workspaceId then
      goTo device slot none
    else
      uploadOrBind device slot ⟨workspace, []⟩ session
  | _, _ => goTo device slot none

def acknowledge (device : Device owner Payload Response) (slot : Slot)
    (turn : Turn owner Payload Response) (post : Post Payload) (response : Response) :
    Device owner Payload Response :=
  { goTo device slot (some (.reading turn post.body.id (.synced response))) with
    acknowledged := post :: device.acknowledged }

/-- What `markSessionSynced` and `markSessionSyncFailed` write over the row they read. -/
def marked (row : StoredSession Payload Response) (now : Nat) :
    Outcome Response → Option (StoredSession Payload Response)
  | .synced response =>
    some { row with synced := true, syncFailure := none, syncResult := some response }
  | .failed status =>
    if row.synced then none
    else some { row with syncFailure := some (classifyRecordingSyncFailure status now) }

def readRow (device : Device owner Payload Response) (slot : Slot)
    (turn : Turn owner Payload Response) (id : String) (outcome : Outcome Response) (now : Nat) :
    Device owner Payload Response :=
  match (device.store.get? id).bind fun row => marked row now outcome with
  | none => goTo device slot (afterwards slot turn)
  | some row => goTo device slot (some (.writing turn row))

/-- What can happen next. `setWorkspace` is a sign-in, a switch or the end of a session, also one
that another tab has stored. `abandon` is an upload that ends early: the page is closed or the
store cannot be opened. -/
inductive Action (owner : String → Nat) (Payload Response : Type)
  | setWorkspace (tab : Nat) (workspace : Option (WorkspaceSession owner))
  | record (tab n : Nat) (recording : Recording Payload) (workspace : Option (Nat × String))
  | direct (slot : Slot) (mounted online : Bool)
  | flush (tab : Nat) (retryRejected : Bool)
  | list (slot : Slot)
  | next (slot : Slot)
  | put (slot : Slot)
  | putFails (slot : Slot)
  | check (slot : Slot)
  | acknowledge (slot : Slot) (response : Response)
  | fail (slot : Slot) (status : Option Nat)
  | read (slot : Slot) (now : Nat)
  | abandon (slot : Slot)
deriving DecidableEq

/-- The session of a new run, with the workspace that was current when the run was finished. -/
def newSession (recording : Recording Payload) (workspace : Option (Nat × String)) :
    StoredSession Payload Response :=
  ⟨recording, false, none, none, workspace.map Prod.fst, workspace.map Prod.snd⟩

def record (device : Device owner Payload Response) (tab n : Nat)
    (session : StoredSession Payload Response) : Device owner Payload Response :=
  { saveSession (goTo device (.run tab n) (some (.saved session))) session with
    recorded := session :: device.recorded }

/-- A new id is not one of a stored session. -/
def step (device : Device owner Payload Response) :
    Action owner Payload Response → Option (Device owner Payload Response)
  | .setWorkspace tab workspace =>
    some { device with workspace := Function.update device.workspace tab workspace }
  | .record tab n recording workspace =>
    if device.uploads (.run tab n) = none ∧ device.store.get? recording.id = none then
      some (record device tab n (newSession recording workspace))
    else
      none
  | .direct slot mounted online =>
    match device.uploads slot with
    | some (.saved session) => some (direct device slot mounted online session)
    | _ => none
  | .flush tab retryRejected =>
    match device.uploads (.flush tab) with
    | none => some (startFlush device tab retryRejected)
    | some _ => some device
  | .list slot =>
    match device.uploads slot with
    | some (.listing workspace retryRejected) =>
      some (goTo device slot (some (.next ⟨workspace, pending device workspace retryRejected⟩)))
    | _ => none
  | .next slot =>
    match device.uploads slot with
    | some (.next turn) => some (nextSession device slot turn)
    | _ => none
  | .put slot =>
    match device.uploads slot with
    | some (.binding turn session) =>
      some (saveSession (goTo device slot (some (.checking turn session))) session)
    | some (.writing turn row) => some (saveSession (goTo device slot (afterwards slot turn)) row)
    | _ => none
  | .putFails slot =>
    match device.uploads slot with
    | some (.binding turn session) =>
      some (goTo device slot (some (.reading turn session.id (.failed none))))
    | some (.writing _ _) => some (goTo device slot none)
    | _ => none
  | .check slot =>
    match device.uploads slot with
    | some (.checking turn session) => some (upload device slot turn session)
    | _ => none
  | .acknowledge slot response =>
    match device.uploads slot with
    | some (.posting turn post) => some (acknowledge device slot turn post response)
    | _ => none
  | .fail slot status =>
    match device.uploads slot with
    | some (.posting turn post) =>
      some (goTo device slot (some (.reading turn post.body.id (.failed status))))
    | _ => none
  | .read slot now =>
    match device.uploads slot with
    | some (.reading turn id outcome) => some (readRow device slot turn id outcome now)
    | _ => none
  | .abandon slot => some (goTo device slot none)

/-- A device on which nothing has been recorded yet. -/
def Started (device : Device owner Payload Response) : Prop :=
  device.store = Table.empty ∧ (∀ slot, device.uploads slot = none) ∧ device.recorded = [] ∧
    device.posts = [] ∧ device.acknowledged = []

def system (owner : String → Nat) (Payload Response : Type) :
    Transition.System (Device owner Payload Response) (Action owner Payload Response) where
  start := Started
  step := step

end Frcmob.DeviceSync
