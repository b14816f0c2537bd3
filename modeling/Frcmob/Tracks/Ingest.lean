import Frcmob.Lib.Transition
import Frcmob.Tracks.OnDevice

/-!
Ingests and reviews of phone recordings, statement by statement. A request works in a transaction
of its own and sees what is committed; an ingest holds the lock of its match's row from before it
reads the session until it commits, and a review takes no lock before it writes.
-/

namespace Frcmob.Tracks
open Assignments (Match)
open AutoScout (SessionStatus)
open Transition

structure OnDeviceSessionReviewRequest where
  status : SessionStatus
  reviewed : status ≠ .provisional
  note : Option String
  force : Bool

/-- An open request: an ingest before it has read the session, with what it is to do, after it
has deleted the tracks it saw, and after it has inserted its own; or a review. -/
inductive Work
  | locked (m : Match) (body : OnDeviceSessionRequest) (identity : String)
      (workspaceId : Option Nat)
  | planned (plan : IngestPlan)
  | cleared (plan : IngestPlan) (removed : List RobotTrack)
  | stored (plan : IngestPlan) (removed added : List RobotTrack)
  | review (loaded : OnDeviceSession) (body : OnDeviceSessionReviewRequest)

/-- What an ingest that has read the session is to do. -/
def Work.plan : Work → Option IngestPlan
  | .planned plan | .cleared plan _ | .stored plan _ _ => some plan
  | .locked .. | .review .. => none

/-- The match whose row the request has locked. -/
def Work.lockedMatch : Work → Option String
  | .locked m .. => some m.matchKey
  | .planned plan | .cleared plan _ | .stored plan _ _ => some plan.lockedMatch.matchKey
  | .review .. => none

/-- The committed rows, the sequences of ids, the locks on match rows, and the open requests. -/
structure TracksState where
  db : TrackDb
  nextSessionId : Nat := 1
  nextRunId : Nat := 1
  rowLock : String → Option Nat := fun _ => none
  work : Nat → Option Work := fun _ => none

inductive Action
  | lockMatch (i : Nat) (body : OnDeviceSessionRequest)
  | readSession (i : Nat)
  | deleteTracks (i : Nat)
  | insertTracks (i : Nat)
  | commitIngest (i : Nat)
  | loadReview (i : Nat) (sessionId : Nat) (body : OnDeviceSessionReviewRequest)
  | commitReview (i : Nat) (now : Nat)
  | fail (i : Nat)

namespace TracksState

def setWork (st : TracksState) (i : Nat) (w : Option Work) : TracksState :=
  { st with work := fun j => if j = i then w else st.work j }

/-- The request's transaction ends, and with it its locks. -/
def finish (st : TracksState) (i : Nat) : TracksState :=
  { st.setWork i none with
    rowLock := fun key => if st.rowLock key = some i then none else st.rowLock key }

end TracksState

def TrackDb.runTracks (db : TrackDb) (runId : Nat) : List RobotTrack :=
  db.tracks.filter (·.analysisRunId = runId)

/-- The tracks that the ingest deletes: those it sees of the run that it rewrites. -/
def IngestPlan.deletedRows (plan : IngestPlan) (db : TrackDb) : List RobotTrack :=
  match plan.target with
  | .rewrite _ => db.runTracks plan.session.analysisRunId
  | .create | .preserve _ => []

def IngestPlan.insertedRows (plan : IngestPlan) : List RobotTrack :=
  match plan.target with
  | .create | .rewrite _ => plan.rows
  | .preserve _ => []

/-- The columns that an ingest writes to a session it rewrites. -/
def rewriteSession (plan : IngestPlan) (session : OnDeviceSession) : OnDeviceSession :=
  { session with
    provenance := plan.session.provenance
    qualityScore := plan.session.qualityScore
    qualityDetails := plan.session.qualityDetails }

/-- The rows after an ingest's commit; `none` where the session's unique key refuses it. -/
def commitPlan (db : TrackDb) (newId : Nat) (plan : IngestPlan)
    (removed added : List RobotTrack) : Option TrackDb :=
  match plan.target with
  | .create =>
      if db.sessions.any (·.client = plan.session.client) then none
      else some { db with
        sessions := db.sessions ++ [{ plan.session with id := newId }]
        tracks := db.tracks ++ added }
  | .rewrite id =>
      some { db with
        sessions := db.sessions.map fun session =>
          if session.id = id then rewriteSession plan session else session
        tracks := db.tracks.diff removed ++ added }
  | .preserve _ => some db

/-- A review writes the columns that it changes from what it loaded. The drafts that a rejection
withdraws are left out. -/
def reviewSession (loaded : OnDeviceSession) (body : OnDeviceSessionReviewRequest) (now : Nat)
    (session : OnDeviceSession) : OnDeviceSession :=
  let note := (body.note.map strip).filter (· ≠ "")
  if session.id = loaded.id then
    { session with
      status := if loaded.status = body.status then session.status else body.status
      reviewNote := if loaded.reviewNote = note then session.reviewNote else note
      reviewedAt := some now }
  else session

def tracksStep (server : TracksServer) (st : TracksState) : Action → Option TracksState
  | .lockMatch i body =>
      if (st.work i).isSome then none
      else match callerOf server body with
        | .error _ => some st
        | .ok (identity, workspaceId) =>
            match st.db.eventMatches.find? (·.matchKey = strip body.matchKey) with
            | none => some st
            | some m =>
                if (st.rowLock m.matchKey).isSome then none
                else some { st.setWork i (some (.locked m body identity workspaceId)) with
                  rowLock := fun key => if key = m.matchKey then some i else st.rowLock key }
  | .readSession i =>
      match st.work i with
      | some (.locked m body identity workspaceId) =>
          match planIngest server st.db m body identity workspaceId st.nextRunId with
          | .error _ => some (st.finish i)
          | .ok plan => some { st.setWork i (some (.planned plan)) with
              nextRunId := st.nextRunId + if plan.target = .create then 1 else 0 }
      | _ => none
  | .deleteTracks i =>
      match st.work i with
      | some (.planned plan) =>
          some (st.setWork i (some (.cleared plan (plan.deletedRows st.db))))
      | _ => none
  | .insertTracks i =>
      match st.work i with
      | some (.cleared plan removed) =>
          some (st.setWork i (some (.stored plan removed plan.insertedRows)))
      | _ => none
  | .commitIngest i =>
      match st.work i with
      | some (.stored plan removed added) =>
          match commitPlan st.db st.nextSessionId plan removed added with
          | none => some (st.finish i)
          | some db => some { st.finish i with db := db, nextSessionId := st.nextSessionId + 1 }
      | _ => none
  | .loadReview i sessionId body =>
      if (st.work i).isSome then none
      else match st.db.sessions.find? (·.id = sessionId) with
        | none => some st
        | some session =>
            if body.status = .accepted ∧ session.qualityScore < server.minQualityScore ∧
                body.force = false then some st
            else some (st.setWork i (some (.review session body)))
  | .commitReview i now =>
      match st.work i with
      | some (.review loaded body) =>
          some { st.finish i with
            db := { st.db with sessions := st.db.sessions.map (reviewSession loaded body now) } }
      | _ => none
  | .fail i => some (st.finish i)

/-- Any matches and lineups; nothing sent yet. -/
def tracksSystem (server : TracksServer) : System TracksState Action where
  start st := ∃ eventMatches matchTeams,
    st = { db := { eventMatches := eventMatches, matchTeams := matchTeams } }
  step := tracksStep server

end Frcmob.Tracks
