import Mathlib.Data.List.Basic
import Frcmob.Lib.Transition

/-!
The workspace session of the native app: `workspaceSession.ts` where `isNativeApp()` holds. The
session is kept in the secure store of the device, whose writes come one at a time; a flag in
localStorage says that a sign-out may not have reached it yet. A write reaches the store in one
step and is answered in another, and the app can be restarted in between. That localStorage takes
a write is assumed; the badge, the join code and the photo cache are left out.
-/

namespace Frcmob.NativeSession

inductive WorkspaceRole
  | leader
  | member
deriving DecidableEq

structure WorkspaceSummary where
  id : Nat
  name : String
  frcTeamNumber : Option Nat
deriving DecidableEq

structure WorkspaceMe where
  id : Nat
  displayName : String
  role : WorkspaceRole
deriving DecidableEq

/-- `parse` takes no session without a token. -/
structure WorkspaceSession where
  token : String
  nonempty : token ≠ ""
  expiresAt : Nat
  workspace : WorkspaceSummary
  me : WorkspaceMe

instance : DecidableEq WorkspaceSession := fun a b =>
  decidable_of_iff (a.token = b.token ∧ a.expiresAt = b.expiresAt ∧ a.workspace = b.workspace ∧
    a.me = b.me) <| by
    cases a
    cases b
    simp

inductive WorkspaceEndReason
  | left
  | revoked
  | expired
deriving DecidableEq

/-- A call of `persistNativeSession`, with what waits for it: `publish` of a session that was set
at a revision, the end of a `clearWorkspaceSession`, or one of the three in the bootstrap. -/
inductive Write
  | save (session : WorkspaceSession) (revision : Nat)
  | remove (revision : Nat)
  | bootClear
  | migrate (session : WorkspaceSession)
  | drop (expired : Bool)
deriving DecidableEq

def Write.value : Write → Option WorkspaceSession
  | .save session _ => some session
  | .migrate session => some session
  | _ => none

/-- `booting` is before or between the writes of the bootstrap, `waiting` during one, and `stuck`
after it has failed. -/
inductive Phase
  | booting
  | waiting
  | running
  | stuck
deriving DecidableEq

/-- The secure store (`vault`), localStorage (`legacy`, `clearPending`, `endReason`), the memory
of the app, and the writes not answered yet, of which the first may have `landed`. `known` are the
tokens of all sessions so far, `ended` those that were signed out, revoked or expired, and
`written` is the session that was written last. -/
structure Device where
  vault : Option WorkspaceSession
  legacy : Option WorkspaceSession
  clearPending : Bool
  endReason : Option WorkspaceEndReason
  phase : Phase
  cached : Option WorkspaceSession
  lastEndReason : Option WorkspaceEndReason
  revision : Nat
  writes : List Write
  landed : Bool
  now : Nat
  known : List String
  ended : List String
  written : Option WorkspaceSession

/-- `expiresAt * 1000 <= Date.now()` -/
def Expired (now : Nat) (session : WorkspaceSession) : Prop :=
  session.expiresAt * 1000 ≤ now

instance (now : Nat) (session : WorkspaceSession) : Decidable (Expired now session) :=
  inferInstanceAs (Decidable (_ ≤ _))

/-! ### The steps -/

/-- `setWorkspaceSession` up to the write. -/
def setSession (device : Device) (session : WorkspaceSession) : Device :=
  { device with
    revision := device.revision + 1
    writes := device.writes ++ [.save session (device.revision + 1)]
    known := session.token :: device.known }

/-- The sessions that a sign-out ends: all of them when the member leaves, else the current one. -/
def endedBy (device : Device) : WorkspaceEndReason → List String
  | .left => device.known
  | _ => (device.cached.map (·.token)).toList

def clearSession (device : Device) (reason : WorkspaceEndReason) : Device :=
  { device with
    revision := device.revision + 1
    cached := none
    clearPending := true
    writes := device.writes ++ [.remove (device.revision + 1)]
    lastEndReason := some reason
    endReason := some reason
    legacy := none
    ended := endedBy device reason ++ device.ended }

/-- `getWorkspaceSession` signs out a session that has expired. -/
def getSession (device : Device) : Device :=
  match device.cached with
  | none => device
  | some session => if Expired device.now session then clearSession device .expired else device

/-- A 401 on a request with a token, in `apiFetch`. -/
def unauthorized (device : Device) (token : String) : Device :=
  let device := getSession device
  if device.cached.map (·.token) = some token then clearSession device .revoked else device

/-- The first write reaches the secure store. -/
def land (device : Device) (write : Write) : Device :=
  { device with
    vault := write.value
    landed := true
    written := write.value.or device.written }

def publish (device : Device) (session : WorkspaceSession) : Device :=
  { device with
    clearPending := false
    legacy := none
    cached := some session
    lastEndReason := none
    endReason := none }

/-- The end of the bootstrap. -/
def start (device : Device) (session : Option WorkspaceSession) : Device :=
  { device with phase := .running, cached := session, legacy := none }

/-- What waits for a write that has succeeded. -/
def answered (device : Device) : Write → Device
  | .save session revision =>
    if revision = device.revision then publish device session else device
  | .remove revision =>
    if revision = device.revision then { device with clearPending := false } else device
  | .bootClear => { device with phase := .booting, legacy := none, clearPending := false }
  | .migrate session => start device (some session)
  | .drop expired =>
    { start device none with
      lastEndReason := if expired then some .expired else device.lastEndReason }

/-- What waits for a write that has failed. -/
def failed (device : Device) : Write → Device
  | .save _ _ | .remove _ => device
  | _ => { device with phase := .stuck }

def pop (device : Device) (rest : List Write) : Device :=
  { device with writes := rest, landed := false }

def await (device : Device) (write : Write) : Device :=
  { device with writes := [write], phase := .waiting }

/-- `bootstrapWorkspaceSession` up to its next write; `readable` is whether the secure store can
be read. -/
def boot (device : Device) (readable : Bool) : Device :=
  if device.clearPending then await device .bootClear
  else if !readable then { device with phase := .stuck }
  else
    match device.vault.or device.legacy with
    | none => await device (.drop false)
    | some session =>
      if Expired device.now session then await device (.drop true)
      else if device.vault.isNone then await device (.migrate session)
      else start device (some session)

/-- The app starts again, from what is stored. -/
def restart (device : Device) : Device :=
  { device with
    phase := .booting
    cached := none
    lastEndReason := none
    revision := 0
    writes := []
    landed := false }

inductive Action
  | set (session : WorkspaceSession)
  | leave
  | unauthorized (token : String)
  | get
  | land
  | complete
  | fail
  | boot (readable : Bool)
  | tick (ms : Nat)
  | restart
deriving DecidableEq

/-- A session that is set has a new token, or that of the current session, whose details have
changed. -/
def mayBeSet (device : Device) (session : WorkspaceSession) : Bool :=
  decide (session.token ∉ device.known) ||
    decide (device.cached.map (·.token) = some session.token)

/-- Nothing but the bootstrap runs before the app has started. -/
def step (device : Device) : Action → Option Device
  | .set session =>
    if device.phase = .running ∧ mayBeSet device session then some (setSession device session)
    else none
  | .leave => if device.phase = .running then some (clearSession device .left) else none
  | .unauthorized token =>
    if device.phase = .running then some (unauthorized device token) else none
  | .get => if device.phase = .running then some (getSession device) else none
  | .land =>
    match device.writes with
    | write :: _ => if device.landed then none else some (land device write)
    | [] => none
  | .complete =>
    match device.writes with
    | write :: rest => if device.landed then some (answered (pop device rest) write) else none
    | [] => none
  | .fail =>
    match device.writes with
    | write :: rest => if device.landed then none else some (failed (pop device rest) write)
    | [] => none
  | .boot readable => if device.phase = .booting then some (boot device readable) else none
  | .tick ms => some { device with now := device.now + ms }
  | .restart => some (restart device)

/-- The app starts for the first time with what an earlier version may have stored. -/
def Started (device : Device) : Prop :=
  device.phase = .booting ∧ device.clearPending = false ∧ device.cached = none ∧
    device.revision = 0 ∧ device.writes = [] ∧ device.landed = false ∧ device.ended = [] ∧
    device.written = none ∧ (∀ session, device.vault = some session → session.token ∈ device.known) ∧
    ∀ session, device.legacy = some session → session.token ∈ device.known

def system : Transition.System Device Action where
  start := Started
  step := step

end Frcmob.NativeSession
