import Frcmob.Keys
import Frcmob.Lib.Transition
import Frcmob.Lib.Window
import Frcmob.Push.SubscriptionKeys
import Frcmob.Text
import Frcmob.Workspaces.Names

/-!
The push subscriptions of all browsers: `api/routes_push.py` and `services/push/subscriptions.py`.
A new subscription is admitted and stored under one advisory lock of the database. What the
browsers take back, what the senders find gone and what is too old goes without that lock, so it
may go between the count of an admission and its commit.
-/

namespace Frcmob.Subscriptions

open Transition

/-! ### Endpoints -/

/-- What `urlsplit` makes of an address, with the port it reads. -/
structure SplitResult where
  scheme : String
  hostname : Option String
  port : Option Nat := none
  username : Option String := none
  password : Option String := none
deriving DecidableEq

/-- The settings, and the libraries that are asked about a text. `isDecimal` is `\d`; `urlsplit`
is `none` where it raises. -/
structure Service where
  productionLike : Bool
  maxTotal : Int
  maxNewPerHour : Int
  retentionDays : Int
  maxFailures : Int
  leadMinutesDefault : Int
  pushConfigured : Bool
  isDecimal : Char → Bool
  onCurve : List UInt8 → Bool
  urlsplit : String → Option SplitResult

def pushServiceHosts : List String :=
  ["fcm.googleapis.com", "android.googleapis.com", "updates.push.services.mozilla.com",
    "web.push.apple.com"]

def pushServiceHostSuffixes : List String :=
  [".push.apple.com", ".notify.windows.com", ".push.services.mozilla.com"]

def pushEndpointAllowed (service : Service) (endpoint : String) : Bool :=
  match service.urlsplit (strip endpoint) with
  | none => false
  | some parts =>
      let host := lower (parts.hostname.getD "")
      parts.scheme = "https" && (parts.port = none || parts.port = some 443) &&
        parts.username.getD "" = "" && parts.password.getD "" = "" &&
        (pushServiceHosts.contains host ||
          pushServiceHostSuffixes.any fun suffix => suffix.toList.isSuffixOf host.toList)

/-! ### What a browser asks for -/

def maxTeamsPerSubscription : Nat := 30

def normalizeTeamKeys (service : Service) (raw : List String) : List String :=
  (raw.take maxTeamsPerSubscription).foldl (fun cleaned item =>
    let token := normalizeKey item
    if isTeamKey service.isDecimal token && !cleaned.contains token then cleaned ++ [token] else cleaned) []

/-- The preferences as sent; the minutes are `none` where they are missing, zero or no number. -/
structure RawPrefs where
  matchLeadMinutes : Option Int := none
  shiftAlerts : Bool := false
  scoutProfile : String := ""
  roomKey : String := ""
deriving DecidableEq

structure Prefs where
  matchLeadMinutes : Int
  shiftAlerts : Bool
  scoutProfile : String
  roomKey : String
  memberKey : Option String := none
deriving DecidableEq

def normalizePrefs (service : Service) (raw : RawPrefs) : Prefs where
  matchLeadMinutes := max 1 (min (raw.matchLeadMinutes.getD service.leadMinutesDefault) 60)
  shiftAlerts := raw.shiftAlerts
  scoutProfile := takeChars 40 (strip raw.scoutProfile)
  roomKey := takeChars 48 (normalizeKey raw.roomKey)

/-- A member of a workspace who is signed in. -/
structure Actor where
  workspaceId : Nat
  displayName : String
  memberKey : String
deriving DecidableEq

structure ScoutingRoom where
  roomKey : String
  workspaceId : Nat
deriving DecidableEq

def bindShiftAlerts (rooms : List ScoutingRoom) (actor : Option Actor) (prefs : Prefs) :
    Except HTTPException Prefs :=
  if !prefs.shiftAlerts && prefs.roomKey = "" then .ok prefs
  else
    let room := if prefs.roomKey = "" then none else rooms.find? (·.roomKey = prefs.roomKey)
    match actor, room with
    | some actor, some room =>
        if room.workspaceId = actor.workspaceId then
          .ok { prefs with scoutProfile := actor.displayName, memberKey := some actor.memberKey }
        else .error ⟨403, "Shift alerts need your team workspace and one of its rooms."⟩
    | _, _ => .error ⟨403, "Shift alerts need your team workspace and one of its rooms."⟩

structure PushSubscribeRequest where
  endpoint : String
  keys : Keys
  eventKey : Option String := none
  teamKeys : List String := []
  prefs : RawPrefs := {}
deriving DecidableEq

/-- What the rows of other tables say to a request. -/
structure Context where
  events : List String := []
  rooms : List ScoutingRoom := []
  actor : Option Actor := none
deriving DecidableEq

/-- What a request that passes its checks has the database store. -/
structure Draft where
  endpoint : String
  keys : Keys
  eventKey : Option String
  teamKeys : List String
  prefs : Prefs
deriving DecidableEq

/-- `subscribe`, up to the lock. -/
def PushSubscribeRequest.check (service : Service) (context : Context)
    (payload : PushSubscribeRequest) : Except HTTPException Draft :=
  let endpoint := strip payload.endpoint
  if !pushEndpointAllowed service endpoint then .error ⟨400, "Invalid push endpoint"⟩
  else if !validSubscriptionKeys service.onCurve payload.keys then
    .error ⟨400, "Invalid subscription encryption keys"⟩
  else
    let eventKey := normalizeKey (payload.eventKey.getD "")
    if eventKey ≠ "" && !isEventKey service.isDecimal eventKey then .error ⟨400, "Invalid event key"⟩
    else if eventKey ≠ "" && !context.events.contains eventKey then
      .error ⟨503, "This event's notification data is not available yet."⟩
    else
      (bindShiftAlerts context.rooms context.actor (normalizePrefs service payload.prefs)).map
        fun prefs =>
          { endpoint := endpoint
            keys := payload.keys
            eventKey := if eventKey = "" then none else some eventKey
            teamKeys := normalizeTeamKeys service payload.teamKeys
            prefs := prefs }

/-! ### Rows, budgets and the lock -/

/-- `registeredBy` is no column: the workspace that the row was admitted for. -/
structure PushSubscription extends Draft where
  id : Nat
  enabled : Bool := true
  failureCount : Nat := 0
  createdAt : Int
  updatedAt : Int
  registeredBy : Option Nat
deriving DecidableEq

/-- The workspace, if any, and the hour since the epoch. -/
abbrev BudgetKey := Option Nat × Int

/-- An admitted request that holds the lock: `doomed` are the rows that it purges, `target` is the
row that it changes, or `none` if it makes one. -/
structure Pending where
  doomed : List Nat
  target : Option Nat
  draft : Draft
  workspaceId : Option Nat
deriving DecidableEq

/-- `granted` and `draws` count, of every budget, the rows admitted and the requests for one. -/
structure State where
  now : Int
  rows : List PushSubscription := []
  budget : Window.Counters BudgetKey := fun _ => none
  pending : Option Pending := none
  nextId : Nat := 0
  granted : BudgetKey → Nat := fun _ => 0
  draws : BudgetKey → Nat := fun _ => 0

def cutoff (service : Service) (now : Int) : Int :=
  now - 86400 * max 1 service.retentionDays

def workspaceRegistrationsPerHour : Nat := 60

def subscriptionCeiling (service : Service) : Nat :=
  2 * service.maxTotal.toNat

/-- The rows there may be for the caller to be admitted. -/
def cap (service : Service) (workspaceId : Option Nat) : Nat :=
  if workspaceId.isSome then subscriptionCeiling service else service.maxTotal.toNat

def limit (service : Service) (key : BudgetKey) : Nat :=
  if key.1.isSome then workspaceRegistrationsPerHour else service.maxNewPerHour.toNat

def budgetKey (workspaceId : Option Nat) (now : Int) : BudgetKey :=
  (workspaceId, now / 3600)

/-- Redis answers; it counts but the answer is lost; or it is not there. -/
inductive RedisAnswer
  | answers
  | lost
  | absent
deriving DecidableEq

/-- `_CONSUME_BUDGET` -/
def State.consume (s : State) (key : BudgetKey) : State :=
  let counted := Window.incr s.budget s.now key
  { s with
    budget := if Window.count s.budget s.now key + 1 = 1 then
        Window.expire counted key (s.now + 7200)
      else counted
    draws := Function.update s.draws key (s.draws key + 1) }

def State.grant (s : State) (key : BudgetKey) : State :=
  { s with granted := Function.update s.granted key (s.granted key + 1) }

def budgetUnavailable : HTTPException :=
  ⟨503, "Notifications are temporarily unavailable. Try again later."⟩

def tooManyNew : HTTPException :=
  ⟨429, "Too many new notification subscriptions. Try again later."⟩

/-- `admit_new_subscription` where `kept` are the rows that the purge leaves. -/
def State.admitNewSubscription (service : Service) (s : State) (kept : List PushSubscription)
    (workspaceId : Option Nat) (redis : RedisAnswer) : Option HTTPException × State :=
  let key := budgetKey workspaceId s.now
  let counted := Window.count s.budget s.now key + 1
  -- a development server without Redis counts the rows of the hour
  let since := 1 + kept.countP fun row => s.now / 3600 * 3600 ≤ row.createdAt
  if cap service workspaceId ≤ kept.length then
    (some ⟨429, "Notification subscriptions are at capacity. Try again later."⟩, s)
  else
    match redis with
    | .answers =>
        if limit service key < counted then (some tooManyNew, s.consume key)
        else (none, (s.consume key).grant key)
    | .lost =>
        if service.productionLike then (some budgetUnavailable, s.consume key)
        else if limit service key < since then (some tooManyNew, s.consume key)
        else (none, (s.consume key).grant key)
    | .absent =>
        if service.productionLike then (some budgetUnavailable, s)
        else if limit service key < since then (some tooManyNew, s)
        else (none, s.grant key)

/-- `subscribe`, from the lock to the commit. A refusal leaves the rows as they were. -/
def State.subscribe (service : Service) (s : State) (payload : PushSubscribeRequest)
    (context : Context) (redis : RedisAnswer) : Option HTTPException × State :=
  match payload.check service context with
  | .error refusal => (some refusal, s)
  | .ok draft =>
      let workspaceId := context.actor.map (·.workspaceId)
      let kept := s.rows.filter fun row => cutoff service s.now ≤ row.updatedAt
      let doomed := (s.rows.filter fun row => row.updatedAt < cutoff service s.now).map (·.id)
      match kept.find? fun row => row.endpoint = draft.endpoint with
      | some row => (none, { s with pending := some ⟨doomed, some row.id, draft, workspaceId⟩ })
      | none =>
          let (refusal, admitted) := s.admitNewSubscription service kept workspaceId redis
          (refusal, if refusal.isSome then admitted
            else { admitted with pending := some ⟨doomed, none, draft, workspaceId⟩ })

def updateRow (rows : List PushSubscription) (id : Nat)
    (f : PushSubscription → PushSubscription) : List PushSubscription :=
  rows.map fun row => if row.id = id then f row else row

/-- A row to be changed that is gone by then ends the request with an error. -/
def State.commit (s : State) (p : Pending) : State :=
  let kept := s.rows.filter fun row => !p.doomed.contains row.id
  match p.target with
  | some id =>
      if kept.any (·.id = id) then
        { s with
          pending := none
          rows := updateRow kept id fun row =>
            { row with
              keys := p.draft.keys, eventKey := p.draft.eventKey, teamKeys := p.draft.teamKeys,
              prefs := p.draft.prefs, enabled := true, failureCount := 0, updatedAt := s.now } }
      else { s with pending := none }
  | none =>
      { s with
        pending := none
        rows := kept ++ [{
          p.draft with
          id := s.nextId, createdAt := s.now, updatedAt := s.now, registeredBy := p.workspaceId }]
        nextId := s.nextId + 1 }

/-! ### Sending -/

/-- How `webpush` ends. -/
inductive SendOutcome
  | delivered
  | gone
  | refused
  | crashed
deriving DecidableEq

def maxFailures (service : Service) : Int :=
  max 1 (if service.maxFailures = 0 then 8 else service.maxFailures)

def State.delete (s : State) (id : Nat) : State :=
  { s with rows := s.rows.filter fun row => row.id ≠ id }

/-- `send_web_push` to a row that was read as `loaded`, maybe some time before. -/
def State.sendWebPush (service : Service) (s : State) (loaded : PushSubscription)
    (outcome : SendOutcome) : State :=
  if !service.pushConfigured then s
  else if !pushEndpointAllowed service loaded.endpoint then s.delete loaded.id
  else if !validSubscriptionKeys service.onCurve loaded.keys then s.delete loaded.id
  else
    match outcome with
    | .delivered =>
        if loaded.failureCount = 0 then s
        else
          { s with
            rows := updateRow s.rows loaded.id fun row =>
              { row with failureCount := 0, updatedAt := s.now } }
    | .gone => s.delete loaded.id
    | .refused =>
        { s with
          rows := updateRow s.rows loaded.id fun row =>
            { row with
              failureCount := loaded.failureCount + 1
              enabled := if maxFailures service ≤ loaded.failureCount + 1 then false
                else row.enabled
              updatedAt := s.now } }
    | .crashed => s

/-! ### Runs -/

inductive Action
  | clock (seconds : Nat)
  | subscribe (payload : PushSubscribeRequest) (context : Context) (redis : RedisAnswer)
  | commit
  | abort
  | unsubscribe (endpoint : String)
  | purge
  | send (loaded : PushSubscription) (outcome : SendOutcome)

/-- Only the holder of the lock may commit or give up; a second `subscribe` waits for it. -/
def step (service : Service) (s : State) : Action → Option State
  | .clock seconds => some { s with now := s.now + seconds }
  | .subscribe payload context redis =>
      if s.pending.isSome then none else some (s.subscribe service payload context redis).2
  | .commit => s.pending.map s.commit
  | .abort => if s.pending.isSome then some { s with pending := none } else none
  | .unsubscribe endpoint =>
      some { s with rows := s.rows.filter fun row => row.endpoint ≠ strip endpoint }
  | .purge =>
      some { s with rows := s.rows.filter fun row => cutoff service s.now ≤ row.updatedAt }
  | .send loaded outcome => some (s.sendWebPush service loaded outcome)

def system (service : Service) : System State Action where
  start s := ∃ now, s = { now := now }
  step := step service

end Frcmob.Subscriptions
