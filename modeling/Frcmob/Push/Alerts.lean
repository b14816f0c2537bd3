import Frcmob.Text
import Mathlib.Data.List.Dedup
import Mathlib.Data.List.Sort
import Mathlib.Data.String.Basic

/-!
The scheduled alert job (`services/push/match_alerts.py`) over the rows it reads.
A session holds the rows last committed and the pending ORM state; a rollback goes
back to the former. What the push services answer, what TBA answers and the clock
are inputs of a tick, and every hand-over to `send_web_push` is recorded.
-/

namespace Frcmob.Push

def maxLeadSec : Int := 60 * 60
def maxNotifiedKeys : Nat := 300
def maxEventsPerTick : Nat := 20
def maxMatchesPerEvent : Nat := 100
def maxScheduleDelaySec : Int := 24 * 60 * 60
def earlyStartLookaheadSec : Int := 60 * 60

/-! Rows, with the columns the job reads. -/

structure Prefs where
  /-- `none` where the stored value is missing or is not a number -/
  matchLeadMinutes : Option Int := none
  shiftAlerts : Bool := false
  roomKey : String := ""
  scoutProfile : String := ""
  memberKey : String := ""
deriving DecidableEq

structure PushSubscription where
  id : Nat
  eventKey : Option String
  teamKeys : List String := []
  prefs : Prefs := {}
  enabled : Bool := true
  /-- the dict of alert keys already handed over, in insertion order -/
  notified : List (String × Int) := []
  failureCount : Nat := 0
  updatedAt : Int := 0
deriving DecidableEq

structure Match where
  matchKey : String
  eventKey : String
  compLevel : String := "qm"
  setNumber : Int := 1
  matchNumber : Int := 1
  time : Option Int := none
  predictedTime : Option Int := none
  actualTime : Option Int := none
deriving DecidableEq

structure MatchTeam where
  matchKey : String
  teamKey : String
  alliance : String
deriving DecidableEq

structure ScoutingRoomAssignment where
  roomKey : String
  matchKey : String
  teamKey : String
  assignedScoutProfileNorm : String
deriving DecidableEq

structure TeamWorkspaceMember where
  memberKey : String
  workspaceId : Nat
  removedAt : Option Int := none
deriving DecidableEq

structure ScoutingRoom where
  roomKey : String
  workspaceId : Nat
deriving DecidableEq

structure Db where
  subscriptions : List PushSubscription
  events : List String
  matchRows : List Match
  matchTeams : List MatchTeam
  assignments : List ScoutingRoomAssignment := []
  members : List TeamWorkspaceMember := []
  rooms : List ScoutingRoom := []
deriving DecidableEq

/-- The settings the job and the sender read. -/
structure Settings where
  pushConfigured : Bool := true
  matchLeadMinutesDefault : Int := 15
  retentionDays : Nat := 90
  maxFailures : Nat := 8
  maxTotal : Nat := 10000
deriving DecidableEq

/-- How one call of `send_web_push` ends. -/
inductive SendOutcome where
  | delivered
  /-- endpoint or keys not usable, or the push service says the endpoint is gone -/
  | gone
  | refused
  | crashed
deriving DecidableEq

/-- One TBA match of a refresh: its key and the times `_unix` accepted. -/
structure MatchTimes where
  key : String
  predictedTime : Option Int := none
  actualTime : Option Int := none
deriving DecidableEq

inductive RefreshOutcome where
  | raised
  | answered (tbaMatches : List MatchTimes)
deriving DecidableEq

structure PushPayload where
  title : String
  body : String
  tag : String
  url : String
deriving DecidableEq

/-- One hand-over to `send_web_push`, with its result. -/
structure Sent where
  subscription : Nat
  payload : PushPayload
  ok : Bool
deriving DecidableEq

/-- What one tick finds outside: the clock, TBA's answer for each event and the
outcome of the n-th send the service ever makes. -/
structure TickInput where
  now : Int
  refresh : String → RefreshOutcome
  answer : Nat → SendOutcome

/-- The database session and the record of all sends: those made before the last
commit and those made since. -/
structure World where
  committed : Db
  current : Db
  settled : List Sent := []
  sinceCommit : List Sent := []
deriving DecidableEq

namespace World

def sent (w : World) : List Sent :=
  w.settled ++ w.sinceCommit

def commit (w : World) : World :=
  { w with committed := w.current, settled := w.sent, sinceCommit := [] }

def rollback (w : World) : World :=
  { w with current := w.committed }

def setSubscriptions (w : World) (rows : List PushSubscription) : World :=
  { w with current := { w.current with subscriptions := rows } }

/-- Set columns of one row; a row that is gone stays gone. -/
def updateSubscription (w : World) (id : Nat) (f : PushSubscription → PushSubscription) : World :=
  w.setSubscriptions (w.current.subscriptions.map fun row => if row.id = id then f row else row)

def deleteSubscription (w : World) (id : Nat) : World :=
  w.setSubscriptions (w.current.subscriptions.filter fun row => row.id ≠ id)

def record (w : World) (s : Sent) : World :=
  { w with sinceCommit := w.sinceCommit ++ [s] }

end World

/-! Texts and keys of an alert. -/

def matchLabel (m : Match) : String :=
  let comp := lower (if m.compLevel = "" then "qm" else m.compLevel)
  if comp = "qm" then "Qual " ++ toString m.matchNumber
  else if comp = "sf" then "Playoff M" ++ toString m.setNumber
  else if comp = "f" then "Final " ++ toString m.matchNumber
  else String.ofList (comp.toList.map Char.toUpper) ++ " " ++ toString m.setNumber ++ "-"
    ++ toString m.matchNumber

/-- Python's `round` of `x / 60`: to the nearest integer, ties to even. -/
def roundMinutes (x : Int) : Int :=
  let q := x.fdiv 60
  let r := x.fmod 60
  if r < 30 ∨ (r = 30 ∧ q % 2 = 0) then q else q + 1

def minutesUntil (matchTime now : Int) : Int :=
  max 0 (roundMinutes (matchTime - now))

def teamDedupeKey (m : Match) (teamKey : String) : String :=
  "team:" ++ m.matchKey ++ ":" ++ teamKey

def shiftDedupeKey (m : Match) : String :=
  "shift:" ++ m.matchKey

def teamAlert (m : Match) (eventKey teamKey alliance : String) (now matchTime : Int) :
    PushPayload where
  title := "Team " ++ removeprefix teamKey "frc" ++ " plays soon"
  body := matchLabel m ++ " starts in ~" ++ toString (minutesUntil matchTime now) ++ " min ("
    ++ alliance ++ " alliance)."
  tag := teamDedupeKey m teamKey
  url := "/match-center?event=" ++ eventKey

def shiftAlert (m : Match) (a : ScoutingRoomAssignment) (now matchTime : Int) :
    PushPayload where
  title := "Scouting shift coming up"
  body := "You scout team " ++ removeprefix a.teamKey "frc" ++ " in " ++ matchLabel m ++ " (~"
    ++ toString (minutesUntil matchTime now) ++ " min)."
  tag := shiftDedupeKey m
  url := "/scouting/assignments"

/-! The `notified` dict. -/

def isNotified (notified : List (String × Int)) (key : String) : Bool :=
  notified.any fun item => item.1 = key

/-- `notified[key] = now` -/
def markNotified (notified : List (String × Int)) (key : String) (now : Int) :
    List (String × Int) :=
  if isNotified notified key then
    notified.map fun item => if item.1 = key then (key, now) else item
  else notified ++ [(key, now)]

/-- The order of `_prune_notified` compares the stamps as texts. -/
def pruneNotified (notified : List (String × Int)) : List (String × Int) :=
  if notified.length ≤ maxNotifiedKeys then notified
  else
    let ordered := notified.insertionSort fun a b => toString a.2 ≤ toString b.2
    ordered.drop (ordered.length - maxNotifiedKeys)

/-! Sending. -/

def sendEffect (settings : Settings) (outcome : SendOutcome) (id : Nat) (w : World) : World :=
  match outcome with
  | .delivered => w.updateSubscription id fun row => { row with failureCount := 0 }
  | .gone => w.deleteSubscription id
  | .refused => w.updateSubscription id fun row =>
      { row with
        failureCount := row.failureCount + 1
        enabled := row.enabled && decide (row.failureCount + 1 < max 1 settings.maxFailures) }
  | .crashed => w

/-- `send_web_push`: the hand-over is recorded with its result. -/
def sendWebPush (settings : Settings) (input : TickInput) (id : Nat) (payload : PushPayload)
    (w : World) : World :=
  if settings.pushConfigured then
    let outcome := input.answer w.sent.length
    (sendEffect settings outcome id w).record ⟨id, payload, outcome = .delivered⟩
  else w.record ⟨id, payload, false⟩

/-! Match times. -/

def expectedStart (m : Match) : Option Int :=
  m.predictedTime <|> m.time

/-- The last entry of a key counts, as in the dict the source builds. -/
def incomingTimes (tbaMatches : List MatchTimes) (key : String) : Option MatchTimes :=
  tbaMatches.reverse.find? fun t => t.key = key

def refreshedMatch (tbaMatches : List MatchTimes) (eventKey : String) (m : Match) : Match :=
  if m.eventKey = eventKey then
    match incomingTimes tbaMatches m.matchKey with
    | some t => { m with
        predictedTime := t.predictedTime <|> m.predictedTime
        actualTime := t.actualTime <|> m.actualTime }
    | none => m
  else m

/-- `refresh_match_times`: commits only when a row moved. -/
def refreshMatchTimes (eventKey : String) (tbaMatches : List MatchTimes) (w : World) : World :=
  let rows := w.current.matchRows.map (refreshedMatch tbaMatches eventKey)
  if rows = w.current.matchRows then w
  else World.commit { w with current := { w.current with matchRows := rows } }

/-- The `try` around the refresh: an exception rolls the session back. -/
def refreshEvent (input : TickInput) (eventKey : String) (w : World) : World :=
  match input.refresh eventKey with
  | .raised => w.rollback
  | .answered tbaMatches => refreshMatchTimes eventKey tbaMatches w

/-! Which matches and subscriptions a tick looks at. -/

def inRange (low high : Int) (t : Option Int) : Bool :=
  match t with
  | some t => decide (low ≤ t) && decide (t ≤ high)
  | none => false

def subscribedEvents (db : Db) : List String :=
  (db.subscriptions.filter (·.enabled)).filterMap (·.eventKey)

/-- The matches that can put an event on the tick's list. -/
def relevantMatches (db : Db) (now : Int) : List Match :=
  let low := now - maxScheduleDelaySec
  let high := now + maxLeadSec + earlyStartLookaheadSec
  db.matchRows.filter fun m =>
    m.eventKey ∈ db.events && m.eventKey ∈ subscribedEvents db && m.actualTime.isNone
      && (inRange low high m.time || inRange low high m.predictedTime)

def distance (now : Int) (m : Match) : Nat :=
  match expectedStart m with
  | some t => (t - now).natAbs
  | none => 0

/-- The smallest distance of an event's relevant matches. -/
def eventDistance (rows : List Match) (now : Int) (eventKey : String) : Nat :=
  (((rows.filter fun m => m.eventKey = eventKey).map (distance now)).min?).getD 0

def eventKeys (db : Db) (now : Int) : List String :=
  let rows := relevantMatches db now
  let rank := eventDistance rows now
  (((rows.map (·.eventKey)).dedup.insertionSort fun a b =>
    rank a < rank b ∨ (rank a = rank b ∧ a ≤ b))).take maxEventsPerTick

def subscriptionCeiling (settings : Settings) : Nat :=
  2 * settings.maxTotal

def tickSubscriptions (settings : Settings) (db : Db) (keys : List String) :
    List PushSubscription :=
  ((db.subscriptions.filter fun s => s.enabled && (s.eventKey.any (· ∈ keys))).insertionSort
    fun a b => a.id ≤ b.id).take (subscriptionCeiling settings)

def subEventKey (s : PushSubscription) : String :=
  normalizeKey (s.eventKey.getD "")

/-- `subs_by_event`: the events in order of first mention, each with its subscriptions. -/
def subsByEvent (subs : List PushSubscription) : List (String × List Nat) :=
  let named := subs.filter fun s => subEventKey s ≠ ""
  (named.foldl (fun seen s => if subEventKey s ∈ seen then seen else seen ++ [subEventKey s])
    []).map fun key => (key, (named.filter fun s => subEventKey s = key).map (·.id))

/-- The event's matches due within the hour, soonest first. -/
def dueMatches (db : Db) (now : Int) (eventKey : String) : List Match :=
  let rows := db.matchRows.filter fun m =>
    m.eventKey = eventKey && m.actualTime.isNone
      && inRange (now - 300) (now + maxLeadSec) (expectedStart m)
  let start := fun m => (expectedStart m).getD 0
  (rows.insertionSort fun a b =>
    start a < start b ∨ (start a = start b ∧ a.matchKey ≤ b.matchKey)).take maxMatchesPerEvent

def purgeExpiredSubscriptions (settings : Settings) (now : Int) (w : World) : World :=
  let cutoff := now - 86400 * (max 1 settings.retentionDays : Nat)
  w.setSubscriptions (w.current.subscriptions.filter fun s => ¬ s.updatedAt < cutoff)

/-! One subscription. -/

def shiftAlertsStillAllowed (db : Db) (prefs : Prefs) (roomKey : String) : Bool :=
  prefs.memberKey ≠ "" &&
    match db.members.find? (fun m => m.memberKey = prefs.memberKey),
        db.rooms.find? (fun r => r.roomKey = roomKey) with
    | some member, some room =>
        member.removedAt.isNone && decide (room.workspaceId = member.workspaceId)
    | _, _ => false

def leadSec (settings : Settings) (prefs : Prefs) : Int :=
  let minutes := match prefs.matchLeadMinutes with
    | some 0 | none => settings.matchLeadMinutesDefault
    | some n => n
  max 60 (min (minutes * 60) maxLeadSec)

def favoriteTeams (s : PushSubscription) : List String :=
  (s.teamKeys.filter fun t => strip t ≠ "").map normalizeKey

/-- The scout's first assignment to the match, when shift alerts are on and allowed. -/
def shiftAssignment (db : Db) (prefs : Prefs) (m : Match) : Option ScoutingRoomAssignment :=
  let roomKey := normalizeKey prefs.roomKey
  let profile := normalizeKey prefs.scoutProfile
  if prefs.shiftAlerts && roomKey ≠ "" && profile ≠ "" && shiftAlertsStillAllowed db prefs roomKey
  then db.assignments.find? fun a =>
    a.roomKey = roomKey && a.matchKey = m.matchKey && a.assignedScoutProfileNorm = profile
  else none

/-- The loop's own variables for one subscription: its copy of `notified` and `changed`. -/
structure Loop where
  world : World
  notified : List (String × Int)
  changed : Bool := false
deriving DecidableEq

/-- Hand over one alert unless its key is marked, and mark it whatever the result. -/
def Loop.alert (settings : Settings) (input : TickInput) (id : Nat) (l : Loop)
    (payload : PushPayload) : Loop :=
  if isNotified l.notified payload.tag then l
  else
    { world := sendWebPush settings input id payload l.world
      notified := markNotified l.notified payload.tag input.now
      changed := true }

/-- The alerts one match may raise for a subscription, in the order of the source. -/
def matchAlerts (settings : Settings) (db : Db) (now : Int) (eventKey : String)
    (sub : PushSubscription) (m : Match) : List PushPayload :=
  let matchTime := (m.predictedTime.filter (· ≠ 0) <|> m.time).getD 0
  if now ≤ matchTime ∧ matchTime ≤ now + leadSec settings sub.prefs then
    let slots := db.matchTeams.filter fun slot => slot.matchKey = m.matchKey
    let favorites := favoriteTeams sub
    (slots.filter fun slot => normalizeKey slot.teamKey ∈ favorites).map (fun slot =>
        teamAlert m eventKey (normalizeKey slot.teamKey) slot.alliance now matchTime)
      ++ (shiftAssignment db sub.prefs m).toList.map (shiftAlert m · now matchTime)
  else []

def subscriptionAlerts (settings : Settings) (input : TickInput) (eventKey : String)
    (ms : List Match) (w : World) (sub : PushSubscription) : Loop :=
  (ms.flatMap (matchAlerts settings w.current input.now eventKey sub)).foldl
    (Loop.alert settings input sub.id) { world := w, notified := sub.notified }

/-- The loop body for one subscription. Writing the row refreshes `updated_at`. -/
def alertSubscription (settings : Settings) (input : TickInput) (eventKey : String)
    (ms : List Match) (w : World) (id : Nat) : World :=
  match w.current.subscriptions.find? (fun s => s.id = id) with
  | none => w
  | some sub =>
      let l := subscriptionAlerts settings input eventKey ms w sub
      if l.changed then
        l.world.updateSubscription id fun row =>
          { row with notified := pruneNotified l.notified, updatedAt := input.now }
      else l.world

/-- The loop body for one event. -/
def alertEvent (settings : Settings) (input : TickInput) (w : World)
    (event : String × List Nat) : World :=
  let refreshed := refreshEvent input event.1 w
  let ms := dueMatches refreshed.current input.now event.1
  if ms = [] then refreshed
  else event.2.foldl (alertSubscription settings input event.1 ms) refreshed

structure TickResult where
  skipped : Bool := false
  subscriptions : Nat := 0
  sent : Nat := 0
deriving DecidableEq

/-- `subs`: what a tick works through; empty when push is off or no event is near. -/
def tickSubs (settings : Settings) (input : TickInput) (w : World) : List PushSubscription :=
  if settings.pushConfigured then
    tickSubscriptions settings w.current (eventKeys w.current input.now)
  else []

/-- The session as the loop over events finds it. -/
def purgedWorld (settings : Settings) (input : TickInput) (w : World) : World :=
  purgeExpiredSubscriptions settings input.now w

def tickEvents (settings : Settings) (input : TickInput) (w : World) : List (String × List Nat) :=
  subsByEvent (tickSubs settings input (purgedWorld settings input w))

def runMatchAlertTick (settings : Settings) (input : TickInput) (w : World) :
    World × TickResult :=
  let purged := purgedWorld settings input w
  let after := ((tickEvents settings input w).foldl (alertEvent settings input) purged).commit
  (after,
    { skipped := !settings.pushConfigured
      subscriptions := (tickSubs settings input purged).length
      sent := ((after.sent.drop w.sent.length).filter (·.ok)).length })

end Frcmob.Push
