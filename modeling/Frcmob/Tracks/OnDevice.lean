import Mathlib.Algebra.GroupWithZero.Nat
import Mathlib.Data.Rat.Defs
import Frcmob.Assignments.Team
import Frcmob.AutoScout.Drafts
import Frcmob.Text

/-!
Recordings that a phone has analysed (`api/routes_tracks.py`): what the server makes of one, and
the rows it stores. Times and places are exact numbers; one that is not finite is `none`.
-/

namespace Frcmob.Tracks
open Assignments (Match MatchTeam)
open AutoScout (SessionStatus)

structure OnDeviceTrackPoint where
  timeSec : Option Rat
  fieldX : Option Rat
  fieldY : Option Rat
  speedMps : Option Rat
deriving DecidableEq

/-- The columns that a session's row copies from the payload. -/
structure Provenance where
  schemaVersion : String := "on_device_session_v1_legacy"
  modelVersion : Option String := none
  calibrationVersion : Option String := none
  calibrationRmseM : Option Rat := none
  poseFallbackRatio : Option Rat := none
  identityConfidence : Option Rat := none
  identitySource : String := "unknown"
  timingSource : String := "unknown"
  captureToMatchOffsetSec : Option Rat := none
  shift1ActiveAlliance : Option String := none
  shift1Source : Option String := none
deriving DecidableEq

structure OnDevicePayload where
  pointsByTeam : List (String × List OnDeviceTrackPoint)
  provenance : Provenance := {}
deriving DecidableEq

/-- A team member who sends a recording. -/
structure Sender where
  workspaceId : Nat
  memberKey : String
deriving DecidableEq

/-- `sender`, `authorized`, `identity` and `room` are what authentication makes of the request:
the member or a refusal, whether a key or room token signs it and as whom, and the room that the
token is for. -/
structure OnDeviceSessionRequest where
  sender : Except HTTPException (Option Sender)
  authorized : Bool
  identity : String
  room : Except HTTPException (Option String)
  id : String
  matchKey : String
  workspaceId : Option Nat
  createdAt : Option Rat
  payload : OnDevicePayload

/-- Settings, and the server's pure functions on payloads. -/
structure TracksServer where
  publicReadonlyMode : Bool
  requireSignedToken : Bool
  maxTeams : Nat
  maxTotalPoints : Nat
  maxPointsPerTeam : Nat
  maxRunsPerMatch : Nat
  minQualityScore : Rat
  fieldLengthM : Rat
  fieldWidthM : Rat
  matchDurationSec : Rat
  classifyPoint : Rat → Rat → Option String
  /-- The score of a payload and the details of it. -/
  onDeviceQuality : OnDevicePayload → Rat × String
  payloadJson : OnDevicePayload → String
  opaqueHash : String → String
  storedShift1ActiveAlliance : String → Option String × Option String

/-! ### Points -/

structure TrackPoint where
  timeSec : Rat
  fieldX : Rat
  fieldY : Rat
  zoneKey : Option String
  speedMps : Option Rat
deriving DecidableEq

def normalizeTrackPoint (server : TracksServer) (raw : OnDeviceTrackPoint) : Option TrackPoint :=
  match raw.timeSec, raw.fieldX, raw.fieldY with
  | some timeSec, some fieldX, some fieldY =>
      if timeSec > server.matchDurationSec + 5 ∨ ¬ (0 ≤ fieldX ∧ fieldX ≤ server.fieldLengthM) ∨
          ¬ (0 ≤ fieldY ∧ fieldY ≤ server.fieldWidthM) then none
      else some ⟨timeSec, fieldX, fieldY, server.classifyPoint fieldX fieldY, raw.speedMps⟩
  | _, _, _ => none

abbrev PointsByTeam := Table (Prod.fst : String × List TrackPoint → String)

def extractPointsByTeam (server : TracksServer) (payload : OnDevicePayload) :
    Except HTTPException PointsByTeam :=
  let items := payload.pointsByTeam
  if server.maxTeams < items.length then 
    .error ⟨413, "too many teams in payload (max " ++ toString server.maxTeams ++ ")"⟩
  else if server.maxTotalPoints < (items.map (·.2.length)).sum then
    .error ⟨413, "too many track points in payload (max " ++ toString server.maxTotalPoints ++ ")"⟩
  else if items.any fun item => server.maxPointsPerTeam < item.2.length then
    .error ⟨413, "too many points for one team (max " ++ toString server.maxPointsPerTeam ++ ")"⟩
  else
    .ok (Table.empty.putAll (items.filterMap fun item =>
      let normalized := item.2.filterMap (normalizeTrackPoint server)
      if normalized = [] then none else some (normalizeKey item.1, normalized)))

/-! ### Rows -/

structure QualityDetails where
  scores : String
  clientCreatedAt : Option Rat
  validTeamCount : Nat
  validPointCount : Nat
  skippedUnknownTeams : List String
  payloadFingerprint : String
deriving DecidableEq

structure OnDeviceSession where
  id : Nat
  analysisRunId : Nat
  matchKey : String
  eventKey : String
  roomKey : Option String
  workspaceId : Option Nat
  principalHash : String
  clientSessionIdHash : String
  provenance : Provenance
  qualityScore : Rat
  qualityDetails : QualityDetails
  status : SessionStatus
  reviewNote : Option String := none
  reviewedAt : Option Nat := none
deriving DecidableEq

/-- `uq_on_device_session_principal_client` -/
def OnDeviceSession.client (session : OnDeviceSession) : String × String :=
  (session.principalHash, session.clientSessionIdHash)

/-- A stored point, without the columns that are constant on a phone's tracks. -/
structure RobotTrack where
  analysisRunId : Nat
  matchKey : String
  eventKey : String
  teamKey : String
  trackId : Nat
  frameIndex : Nat
  point : TrackPoint
deriving DecidableEq

structure TrackDb where
  eventMatches : List Match := []
  matchTeams : List MatchTeam := []
  sessions : List OnDeviceSession := []
  tracks : List RobotTrack := []
deriving DecidableEq

/-- The match's teams by lower-case key; the last of two that share one counts. -/
def teamByLower (db : TrackDb) (matchKey teamLower : String) : Option MatchTeam :=
  (db.matchTeams.filter fun team => team.matchKey = matchKey ∧ team.teamKey ≠ "").reverse.find?
    fun team => normalizeKey team.teamKey = teamLower

/-- The rows of a recording: teams in the order of their keys, the points of each in time. -/
def trackRows (db : TrackDb) (m : Match) (runId : Nat) (points : PointsByTeam) : List RobotTrack :=
  ((points.rows.insertionSort fun a b => a.1 ≤ b.1).zipIdx).flatMap fun team =>
    match teamByLower db m.matchKey team.1.1 with
    | none => []
    | some matchTeam =>
        ((team.1.2.insertionSort fun p q => p.timeSec ≤ q.timeSec).zipIdx).map fun point =>
          { analysisRunId := runId
            matchKey := m.matchKey
            eventKey := m.eventKey
            teamKey := matchTeam.teamKey
            trackId := team.2
            frameIndex := point.2
            point := point.1 }

/-! ### Before anything is locked -/

/-- Who sends the recording, for which workspace; the member stands in for a key or token. -/
def callerOf (server : TracksServer) (body : OnDeviceSessionRequest) :
    Except HTTPException (String × Option Nat) := do
  if server.publicReadonlyMode then
    throw ⟨403, "On-device session sync is disabled in public mode."⟩
  let sender ← body.sender
  let workspaceId := sender.map (·.workspaceId)
  if body.workspaceId ≠ none ∧ body.workspaceId ≠ workspaceId then
    throw ⟨409, "session workspace does not match the caller; switch back and retry"⟩
  let (authorized, identity) := match body.authorized, sender with
    | false, some sender =>
        (true, "w:" ++ toString sender.workspaceId ++ ":" ++ sender.memberKey)
    | authorized, _ => (authorized, body.identity)
  if server.requireSignedToken ∧ ¬ authorized then
    throw ⟨403, "on-device sync requires a team workspace, an admin key, or a room access token"⟩
  if strip body.matchKey = "" then throw ⟨422, "match_key is required"⟩
  return (identity, workspaceId)

/-! ### What a recording is to do, once the match's row is locked -/

inductive IngestTarget
  | create
  | rewrite (sessionId : Nat)
  | preserve (sessionId : Nat)
deriving DecidableEq

/-- What an ingest is to do for the locked match: `session` holds the values of the columns to be
written, and `rows` those of the tracks. -/
structure IngestPlan where
  target : IngestTarget
  lockedMatch : Match
  payload : OnDevicePayload
  session : OnDeviceSession
  rows : List RobotTrack
deriving DecidableEq

def safeLogToken (raw : String) (maxLen : Nat) : String :=
  takeChars maxLen (String.ofList (raw.toList.filter fun c => ¬ (c.toNat < 32 ∨ c.toNat = 127)))

/-- The points of the teams that play in the match, and the keys of the others. -/
def matchPoints (server : TracksServer) (db : TrackDb) (m : Match) (payload : OnDevicePayload) :
    Except HTTPException (PointsByTeam × List String) := do
  let points ← extractPointsByTeam server payload
  if points.rows = [] then throw ⟨422, "payload contained no usable track points"⟩
  let known := points.filter fun team => (teamByLower db m.matchKey team.1).isSome
  if known.rows = [] then
    throw ⟨422, "payload contained no track points for teams assigned to this match"⟩
  let unknown := (points.rows.map (·.1)).filter fun team =>
    (teamByLower db m.matchKey team).isNone
  return (known, unknown.insertionSort (· ≤ ·))

/-- The columns of a session as this recording leaves them; `id` and `runId` are the session's,
or those drawn for a new one. -/
def sessionValues (server : TracksServer) (m : Match) (body : OnDeviceSessionRequest)
    (roomKey : Option String) (identity : String) (workspaceId : Option Nat) (rawId : String)
    (points : PointsByTeam) (skipped : List String) (id runId : Nat) : OnDeviceSession :=
  let quality := server.onDeviceQuality body.payload
  let shift1 := match body.payload.provenance.shift1ActiveAlliance with
    | none => server.storedShift1ActiveAlliance m.matchKey
    | some alliance => (some alliance, body.payload.provenance.shift1Source)
  { id := id
    analysisRunId := runId
    matchKey := m.matchKey
    eventKey := m.eventKey
    roomKey := roomKey
    workspaceId := workspaceId
    principalHash := server.opaqueHash identity
    clientSessionIdHash := server.opaqueHash rawId
    provenance := { body.payload.provenance with
      shift1ActiveAlliance := shift1.1
      shift1Source := shift1.2 }
    qualityScore := quality.1
    qualityDetails :=
      { scores := quality.2
        clientCreatedAt := body.createdAt
        validTeamCount := points.rows.length
        validPointCount := (points.rows.map (·.2.length)).sum
        skippedUnknownTeams := skipped
        payloadFingerprint := server.opaqueHash (server.payloadJson body.payload) }
    status := .provisional }

/-- The sessions that count against the cap of a caller: its workspace's, or its own. -/
def ownedBy (workspaceId : Option Nat) (principalHash : String) (session : OnDeviceSession) :
    Prop :=
  if workspaceId = none then session.principalHash = principalHash
  else session.workspaceId = workspaceId

instance (workspaceId : Option Nat) (principalHash : String) (session : OnDeviceSession) :
    Decidable (ownedBy workspaceId principalHash session) :=
  inferInstanceAs (Decidable (ite _ _ _))

/-- What a recording is to do with its session. `values` are the session's columns for an id and
a run; `newRunId` is the id that a new run draws, and a new session draws its own on commit. -/
def planSession (server : TracksServer) (db : TrackDb) (m : Match) (payload : OnDevicePayload)
    (workspaceId : Option Nat) (points : PointsByTeam) (values : Nat → Nat → OnDeviceSession)
    (newRunId : Nat) : Except HTTPException IngestPlan :=
  let new := values 0 newRunId
  match db.sessions.find? (·.client = new.client) with
  | some existing =>
      let rows := trackRows db m existing.analysisRunId points
      if existing.matchKey ≠ m.matchKey then
        .error ⟨409, "client session id is already associated with another match"⟩
      else if existing.status = .provisional then
        .ok ⟨.rewrite existing.id, m, payload, values existing.id existing.analysisRunId, rows⟩
      else if existing.qualityDetails.payloadFingerprint ≠
          new.qualityDetails.payloadFingerprint then
        .error ⟨409, "reviewed on-device session is immutable; use a new session id"⟩
      else .ok ⟨.preserve existing.id, m, payload, existing, rows⟩
  | none =>
      let runCount := (db.sessions.filter fun session =>
        session.matchKey = m.matchKey ∧ ownedBy workspaceId new.principalHash session).length
      if server.maxRunsPerMatch ≤ runCount then
        .error ⟨429, "too many on-device runs for this match; try again later"⟩
      else .ok ⟨.create, m, payload, new, trackRows db m newRunId points⟩

def planIngest (server : TracksServer) (db : TrackDb) (m : Match) (body : OnDeviceSessionRequest)
    (identity : String) (workspaceId : Option Nat) (newRunId : Nat) :
    Except HTTPException IngestPlan := do
  let roomKey ← body.room
  if db.matchTeams.all fun team => team.matchKey ≠ m.matchKey then
    throw ⟨409, "No team links for match; re-run event ingestion"⟩
  else
    let found ← matchPoints server db m body.payload
    let rawId := safeLogToken (strip body.id) 120
    if rawId = "" then throw ⟨422, "id must contain a printable character"⟩
    else
      planSession server db m body.payload workspaceId found.1
        (sessionValues server m body roomKey identity workspaceId rawId found.1 found.2) newRunId

end Frcmob.Tracks
