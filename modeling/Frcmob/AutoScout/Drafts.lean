import Frcmob.Lib.Table
import Frcmob.Text
import Mathlib.Data.List.Sort

/-!
Auto-scout drafts (`services/auto_scout/scouting.py`): generation from the best
accepted phone recording, the human review of a draft, and the operator's review of
a recording. What the mapper computes from the tracks is a parameter, so every
result here holds for any mapper.
-/

namespace Frcmob.AutoScout

/-- A JSON object, each value as its text. -/
abbrev JsonObject := List (String × String)

inductive DraftStatus where
  | pending | generating | ready | lowConfidence | failed | approved | rejected | superseded
deriving DecidableEq

inductive SessionStatus where
  | provisional | accepted | rejected
deriving DecidableEq

inductive RunKind where
  | video | officialTruth | onDevice
deriving DecidableEq

inductive RunStatus where
  | queued | running | completed | failed | requeued
deriving DecidableEq

structure DraftPayload where
  formPatch : JsonObject := []
  notesSeed : String := ""
  derivedInsights : JsonObject := []
deriving DecidableEq

structure AutoScoutDraft where
  id : Nat
  eventKey : String
  matchKey : String
  teamKey : String
  status : DraftStatus := .pending
  draftPayload : DraftPayload := {}
  approvedPayload : DraftPayload := {}
  fieldConfidence : JsonObject := []
  fieldProvenance : JsonObject := []
  fieldEvidenceRefs : JsonObject := []
  fieldOverrides : List (String × String × String) := []
  coverageSummary : JsonObject := []
  missingReasons : List String := []
  analysisVersion : String := "video_v3_tracks"
  analysisRunId : Option Nat := none
  mapperVersion : String := "unknown"
  draftVersion : Nat := 1
  generatedAt : Int := 0
  updatedAt : Int := 0
  approvedAt : Option Int := none
  approvedBy : Option String := none
  rejectedAt : Option Int := none
  rejectedReason : Option String := none
  supersededAt : Option Int := none
deriving DecidableEq

/-- The drafts table with its autoincrement counter. -/
structure Drafts where
  table : Table AutoScoutDraft.id
  nextId : Nat
  bound : ∀ d ∈ table, d.id < nextId

namespace Drafts

instance : Membership AutoScoutDraft Drafts := ⟨fun ds d => d ∈ ds.table⟩

theorem mem_def {ds : Drafts} {d : AutoScoutDraft} : d ∈ ds ↔ d ∈ ds.table := Iff.rfl

instance (ds : Drafts) (d : AutoScoutDraft) : Decidable (d ∈ ds) :=
  inferInstanceAs (Decidable (d ∈ ds.table))

def empty : Drafts := ⟨.empty, 1, by simp⟩

/-- Set columns of the rows `p` selects. -/
def change (ds : Drafts) (p : AutoScoutDraft → Bool) (f : AutoScoutDraft → AutoScoutDraft)
    (hf : ∀ d, (f d).id = d.id) : Drafts where
  table := ds.table.mapRows (fun d => if p d then f d else d) (by intro d; split <;> simp [hf])
  nextId := ds.nextId
  bound := by
    intro d hd
    obtain ⟨d', hd', rfl⟩ := Table.mem_mapRows.mp hd
    split
    · exact hf d' ▸ ds.bound d' hd'
    · exact ds.bound d' hd'

def insert (ds : Drafts) (d : AutoScoutDraft) : Drafts where
  table := ds.table.put { d with id := ds.nextId }
  nextId := ds.nextId + 1
  bound := by
    intro d' hd'
    rcases Table.mem_put.mp hd' with rfl | ⟨hd', -⟩
    · exact Nat.lt_succ_self _
    · exact Nat.lt_succ_of_lt (ds.bound d' hd')

theorem mem_change {ds : Drafts} {p : AutoScoutDraft → Bool}
    {f : AutoScoutDraft → AutoScoutDraft} (hf : ∀ d, (f d).id = d.id) {d : AutoScoutDraft} :
    d ∈ ds.change p f hf ↔ ∃ d' ∈ ds, (if p d' then f d' else d') = d := by
  simp only [mem_def, Drafts.change, Table.mem_mapRows]

/-- A row that `p` does not select is not touched. -/
theorem mem_change_of_not {ds : Drafts} {p : AutoScoutDraft → Bool}
    {f : AutoScoutDraft → AutoScoutDraft} (hf : ∀ d, (f d).id = d.id) {d : AutoScoutDraft}
    (hd : d ∈ ds) (hp : p d = false) : d ∈ ds.change p f hf :=
  (mem_change hf).mpr ⟨d, hd, by simp [hp]⟩

theorem mem_insert {ds : Drafts} {d new : AutoScoutDraft} (hd : d ∈ ds) :
    d ∈ ds.insert new :=
  Table.mem_put_of_ne hd (Nat.ne_of_lt (ds.bound d hd))

theorem eq_of_id {ds : Drafts} {d d' : AutoScoutDraft} (hd : d ∈ ds) (hd' : d' ∈ ds)
    (h : d.id = d'.id) : d = d' :=
  Table.eq_of_key hd hd' h

end Drafts

structure AnalysisRun where
  id : Nat
  version : String := "v0"
  runKind : RunKind := .onDevice
  status : RunStatus := .completed
deriving DecidableEq

structure OnDeviceSession where
  id : Nat
  analysisRunId : Nat
  matchKey : String
  /-- in thousandths -/
  qualityScore : Nat
  status : SessionStatus := .provisional
deriving DecidableEq

structure RobotTrack where
  id : Nat
  analysisRunId : Nat
  teamKey : String
  timeSec : Int
deriving DecidableEq

/-- The rows drafts are made from. -/
structure Recordings where
  runs : List AnalysisRun
  /-- run id and analysis version of each run context -/
  contexts : List (Nat × String)
  sessions : List OnDeviceSession
  tracks : List RobotTrack
deriving DecidableEq

structure Db where
  matchKeys : List String
  teamKeys : List String
  /-- event key and season year -/
  events : List (String × Nat)
  /-- match key and team key of each robot of each match -/
  matchTeams : List (String × String)
  recordings : Recordings
  drafts : Drafts

structure HttpError where
  status : Nat
  detail : String
deriving DecidableEq

/-- What `_build_ready_payload` returns. -/
structure ReadyPayload where
  status : DraftStatus
  draftPayload : DraftPayload := {}
  fieldConfidence : JsonObject := []
  fieldProvenance : JsonObject := []
  fieldEvidenceRefs : JsonObject := []
  coverageSummary : JsonObject := []
  missingReasons : List String := []
deriving DecidableEq

/-- The mapper: season year, team, run and that team's tracks in time order. -/
abbrev Mapper := Recordings → Nat → String → AnalysisRun → List RobotTrack → ReadyPayload

def analysisVersion : String := "on_device_pwa_v1"

def autoScoutFormFields : List String :=
  ["auto_mobility", "auto_scored", "auto_missed", "auto_pickups", "auto_cycles",
    "auto_path_quality_1_5", "teleop_scored", "teleop_missed", "teleop_under_defense_scored",
    "teleop_under_defense_attempts", "teleop_cycles", "teleop_drops", "intake_failures",
    "foul_count", "offense_level_1_5", "defense_level_1_5", "field_awareness_1_5",
    "decision_quality_1_5", "communication_1_5", "anti_defense_level_1_5", "escape_level_1_5",
    "reroute_level_1_5", "hit_recovery_level_1_5", "bump_crosses", "trench_crosses",
    "climbed_under_pressure", "protected_zone_risk", "endgame_mode"]

def seasonSupported (year : Nat) : Bool :=
  year = 2025 || year = 2026

def mapperVersionForSeason (year : Nat) : String :=
  if year = 2026 then "2026_v2" else toString year ++ "_v1"

def readyStatuses : List DraftStatus := [.ready, .lowConfidence]

def needsReview : JsonObject :=
  autoScoutFormFields.map fun field => (field, "needs_review")

/-! Lookups -/

structure Slot where
  eventKey : String
  matchKey : String
  teamKey : String
deriving DecidableEq

/-- `order_by(generated_at.desc(), id.desc())` -/
def newestFirst (a b : AutoScoutDraft) : Prop :=
  b.generatedAt < a.generatedAt ∨ (b.generatedAt = a.generatedAt ∧ b.id ≤ a.id)

instance (a b : AutoScoutDraft) : Decidable (newestFirst a b) :=
  inferInstanceAs (Decidable (_ ∨ _))

def newest (ds : Drafts) (p : AutoScoutDraft → Bool) : Option AutoScoutDraft :=
  ((ds.table.rows.filter p).insertionSort newestFirst).head?

theorem mem_of_newest {ds : Drafts} {p : AutoScoutDraft → Bool} {d : AutoScoutDraft}
    (h : newest ds p = some d) : d ∈ ds ∧ p d = true := by
  have hmem := List.mem_of_head? h
  rw [List.mem_insertionSort] at hmem
  exact List.mem_filter.mp hmem

def inSlot (slot : Slot) (d : AutoScoutDraft) : Bool :=
  d.eventKey = slot.eventKey && d.matchKey = slot.matchKey && d.teamKey = slot.teamKey

def latestNonSupersededDraft (ds : Drafts) (slot : Slot) : Option AutoScoutDraft :=
  newest ds fun d => inSlot slot d && d.supersededAt.isNone

def pendingOrFailedDraft (ds : Drafts) (slot : Slot) (mapperVersion : String) :
    Option AutoScoutDraft :=
  newest ds fun d => inSlot slot d && d.mapperVersion = mapperVersion
    && d.analysisRunId.isNone && d.supersededAt.isNone
    && d.status ∈ [DraftStatus.pending, .generating, .failed]

/-- The rows of the unique constraint: this match, robot, run and mapper, whatever
their status and whatever event they were made for. -/
def onFile (slot : Slot) (runId : Nat) (mapperVersion : String) (d : AutoScoutDraft) : Bool :=
  d.matchKey = slot.matchKey && d.teamKey = slot.teamKey
    && d.analysisRunId = some runId && d.mapperVersion = mapperVersion

def bestOnDeviceRun (r : Recordings) (matchKey : String) (teamKey : Option String) :
    Option AnalysisRun :=
  let accepted := r.sessions.filter fun s => s.matchKey = matchKey && s.status = .accepted
  let pairs := accepted.flatMap fun s =>
    (r.runs.filter fun run =>
      run.id = s.analysisRunId && run.runKind = .onDevice && run.status = .completed
        && teamKey.all fun team => r.tracks.any fun t =>
            t.analysisRunId = run.id && t.teamKey = team).map fun run => (run, s)
  ((pairs.insertionSort fun a b =>
    b.2.qualityScore < a.2.qualityScore ∨
      (b.2.qualityScore = a.2.qualityScore ∧ b.1.id ≤ a.1.id)).head?).map (·.1)

def latestCompletedRunForMatch (r : Recordings) (slot : Slot) : Option AnalysisRun :=
  bestOnDeviceRun r slot.matchKey (some slot.teamKey) <|> bestOnDeviceRun r slot.matchKey none

/-- The version of the run's context, or of the run itself where that is missing. -/
def runAnalysisVersion (r : Recordings) (run : AnalysisRun) : String :=
  match r.contexts.find? fun c => c.1 = run.id with
  | some (_, version) => if version = "" then run.version else version
  | none => run.version

def runStale (r : Recordings) (run : AnalysisRun) : Bool :=
  runAnalysisVersion r run ≠ analysisVersion

/-! Generation -/

structure GenerateRequest where
  eventKey : String
  matchKey : String
  teamKey : String
  forceRegenerate : Bool := false
deriving DecidableEq

/-- The slot a request names and its season year, or the error of the first check
that fails. -/
def checkRequest (db : Db) (req : GenerateRequest) : Except HttpError (Slot × Nat) :=
  let slot : Slot :=
    ⟨normalizeKey req.eventKey, normalizeKey req.matchKey, normalizeKey req.teamKey⟩
  if slot.matchKey ∉ db.matchKeys then .error ⟨404, "Match not found."⟩
  else if slot.teamKey ∉ db.teamKeys then .error ⟨404, "Team not found."⟩
  else match db.events.find? fun e => e.1 = slot.eventKey with
    | none => .error ⟨404, "Event not found."⟩
    | some (_, year) =>
        if (slot.matchKey, slot.teamKey) ∉ db.matchTeams then
          .error ⟨400, "Selected team is not assigned to the selected match."⟩
        else .ok (slot, year)

/-- A row the ORM would create for the slot. -/
def blankDraft (slot : Slot) (mapperVersion : String) (now : Int) : AutoScoutDraft where
  id := 0
  eventKey := slot.eventKey
  matchKey := slot.matchKey
  teamKey := slot.teamKey
  mapperVersion := mapperVersion
  generatedAt := now

structure Generated where
  drafts : Drafts
  id : Nat
  created : Bool

/-- Set columns of the row found, or of a new row. -/
def writeDraft (ds : Drafts) (found : Option AutoScoutDraft) (blank : AutoScoutDraft)
    (f : AutoScoutDraft → AutoScoutDraft) (hf : ∀ d, (f d).id = d.id) : Generated :=
  match found with
  | some row => ⟨ds.change (·.id = row.id) f hf, row.id, false⟩
  | none => ⟨ds.insert (f blank), ds.nextId, true⟩

def failedColumns (now : Int) (runId : Option Nat) (provenance coverage : JsonObject)
    (reason : String) (row : AutoScoutDraft) : AutoScoutDraft :=
  { row with
    status := .failed
    analysisVersion := analysisVersion
    analysisRunId := runId
    draftPayload := {}
    fieldConfidence := []
    fieldProvenance := provenance
    fieldEvidenceRefs := []
    coverageSummary := coverage
    missingReasons := [reason]
    updatedAt := now }

/-- A season without a form: the run id of a row on file stays as it is. -/
def generateUnsupported (now : Int) (slot : Slot) (mapper : String) (ds : Drafts) : Generated :=
  writeDraft ds (pendingOrFailedDraft ds slot mapper) (blankDraft slot mapper now)
    (fun row => failedColumns now row.analysisRunId [] [("supported", "false")]
      "game_year_unsupported" row)
    fun _ => rfl

/-- No accepted recording, or one made by another analysis version. -/
def generateWithoutRun (now : Int) (slot : Slot) (mapper : String) (stale : Bool)
    (ds : Drafts) : Generated :=
  writeDraft ds (pendingOrFailedDraft ds slot mapper) (blankDraft slot mapper now)
    (fun row => failedColumns now none needsReview
      [("on_device_recording", if stale then "true" else "false")]
      (if stale then "analysis_stale" else "no_on_device_recording") row)
    fun _ => rfl

/-- The recording has no track of this robot. -/
def generateWithoutTracks (now : Int) (slot : Slot) (mapper : String) (run : AnalysisRun)
    (anyTracks : Bool) (ds : Drafts) : Generated :=
  let placeholder :=
    (ds.table.rows.find? fun d => onFile slot run.id mapper d && d.supersededAt.isNone)
      <|> pendingOrFailedDraft ds slot mapper
  writeDraft ds placeholder (blankDraft slot mapper now)
    (failedColumns now (some run.id) needsReview [("track_rows", "0")]
      (if anyTracks then "team_not_resolved" else "low_track_coverage"))
    fun _ => rfl

def readyColumns (now : Int) (slot : Slot) (mapper version : String) (runId : Nat)
    (bump : Bool) (ready : ReadyPayload) (row : AutoScoutDraft) : AutoScoutDraft :=
  { row with
    draftVersion := if bump then row.draftVersion + 1 else row.draftVersion
    status := ready.status
    eventKey := slot.eventKey
    matchKey := slot.matchKey
    teamKey := slot.teamKey
    analysisRunId := some runId
    analysisVersion := version
    mapperVersion := mapper
    draftPayload := ready.draftPayload
    fieldConfidence := ready.fieldConfidence
    fieldProvenance := ready.fieldProvenance
    fieldEvidenceRefs := ready.fieldEvidenceRefs
    coverageSummary := ready.coverageSummary
    missingReasons := ready.missingReasons
    updatedAt := now
    supersededAt := none }

def settled (status : DraftStatus) : Bool :=
  status ∈ [DraftStatus.approved, .rejected, .superseded]

def supersede (now : Int) (row : AutoScoutDraft) : AutoScoutDraft :=
  { row with status := .superseded, supersededAt := some now, updatedAt := now }

def supersedeOtherDrafts (now : Int) (slot : Slot) (keepId : Nat) (ds : Drafts) : Drafts :=
  ds.change (fun d => inSlot slot d && d.supersededAt.isNone && !settled d.status
    && d.id ≠ keepId) (supersede now) fun _ => rfl

/-- The draft on file for this run is rewritten whatever its status. -/
def generateReady (now : Int) (slot : Slot) (mapper version : String) (run : AnalysisRun)
    (force : Bool) (ready : ReadyPayload) (ds : Drafts) : Generated :=
  let existing := ds.table.rows.find? (onFile slot run.id mapper)
  let written := writeDraft ds existing (blankDraft slot mapper now)
    (readyColumns now slot mapper version run.id (existing.isSome && force) ready) fun _ => rfl
  { written with drafts := supersedeOtherDrafts now slot written.id written.drafts }

/-- The two early returns: an approved latest draft, and a ready one of the current run. -/
def answersLatest (req : GenerateRequest) (run : Option AnalysisRun) (latest : AutoScoutDraft) :
    Bool :=
  latest.status = .approved ||
    (!req.forceRegenerate && latest.status ∈ readyStatuses
      && run.all fun run => latest.analysisRunId = some run.id)

def teamTracks (r : Recordings) (run : AnalysisRun) (teamKey : String) : List RobotTrack :=
  (r.tracks.filter fun t => t.analysisRunId = run.id && t.teamKey = teamKey).insertionSort
    fun a b => a.timeSec < b.timeSec ∨ (a.timeSec = b.timeSec ∧ a.id ≤ b.id)

def generateFromRun (build : Mapper) (now : Int) (req : GenerateRequest) (slot : Slot)
    (year : Nat) (r : Recordings) (run : AnalysisRun) (ds : Drafts) : Generated :=
  let mapper := mapperVersionForSeason year
  if runStale r run then generateWithoutRun now slot mapper true ds
  else
    let tracks := teamTracks r run slot.teamKey
    if tracks = [] then
      generateWithoutTracks now slot mapper run (r.tracks.any (·.analysisRunId = run.id)) ds
    else
      generateReady now slot mapper (runAnalysisVersion r run) run req.forceRegenerate
        (build r year slot.teamKey run tracks) ds

def generateDraft (build : Mapper) (now : Int) (req : GenerateRequest) (slot : Slot)
    (year : Nat) (r : Recordings) (ds : Drafts) : Generated :=
  let mapper := mapperVersionForSeason year
  if seasonSupported year then
    let run := latestCompletedRunForMatch r slot
    match (latestNonSupersededDraft ds slot).filter (answersLatest req run) with
    | some latest => ⟨ds, latest.id, false⟩
    | none =>
        match run with
        | none => generateWithoutRun now slot mapper false ds
        | some run => generateFromRun build now req slot year r run ds
  else generateUnsupported now slot mapper ds

def generateAutoScoutDraft (build : Mapper) (now : Int) (req : GenerateRequest) (db : Db) :
    Except HttpError (Db × Nat × Bool) :=
  match checkRequest db req with
  | .error e => .error e
  | .ok (slot, year) =>
      let g := generateDraft build now req slot year db.recordings db.drafts
      .ok ({ db with drafts := g.drafts }, g.id, g.created)

/-! Human review of a draft -/

def normalizeProfile (raw : String) : String :=
  takeChars 120 (collapseSpaces raw)

def normalizeDraftPayload (p : DraftPayload) : DraftPayload :=
  { p with
    formPatch := p.formPatch.filter fun kv => kv.1 ∈ autoScoutFormFields
    notesSeed := strip p.notesSeed }

def fieldOverrideDiff (auto edited : DraftPayload) : List (String × String × String) :=
  auto.formPatch.filterMap fun kv =>
    let value := ((edited.formPatch.find? fun e => e.1 = kv.1).map (·.2)).getD kv.2
    if value = kv.2 then none else some (kv.1, kv.2, value)

structure ApproveRequest where
  draftId : Nat
  draftVersion : Nat
  approvedBy : String
  editedPayload : DraftPayload := {}
deriving DecidableEq

structure RejectRequest where
  draftId : Nat
  draftVersion : Nat
  reason : String
deriving DecidableEq

/-- The checks both reviews share; `verb` is the only word their messages differ in. -/
def reviewable (db : Db) (draftId draftVersion : Nat) (verb : String) :
    Except HttpError AutoScoutDraft :=
  match db.drafts.table.get? draftId with
  | none => .error ⟨404, "Auto-scout draft not found."⟩
  | some row =>
      if row.status ∉ readyStatuses then
        .error ⟨409, "Only ready drafts can be " ++ verb ++ "."⟩
      else if row.draftVersion ≠ draftVersion then
        .error ⟨409, "Draft version is stale. Refresh and review again."⟩
      else .ok row

def approveAutoScoutDraft (now : Int) (req : ApproveRequest) (db : Db) :
    Except HttpError Db :=
  match reviewable db req.draftId req.draftVersion "approved" with
  | .error e => .error e
  | .ok row =>
      let approver := normalizeProfile req.approvedBy
      if approver = "" then .error ⟨400, "approved_by is required."⟩
      else
        let payload := normalizeDraftPayload req.editedPayload
        .ok { db with drafts := db.drafts.change (·.id = row.id) (fun row =>
          { row with
            status := .approved
            approvedAt := some now
            approvedBy := some approver
            approvedPayload := payload
            fieldOverrides := fieldOverrideDiff row.draftPayload payload
            updatedAt := now }) fun _ => rfl }

def rejectAutoScoutDraft (now : Int) (req : RejectRequest) (db : Db) : Except HttpError Db :=
  match reviewable db req.draftId req.draftVersion "rejected" with
  | .error e => .error e
  | .ok row =>
      let detail := takeChars 240 (strip req.reason)
      if detail = "" then .error ⟨400, "Reject reason is required."⟩
      else
        .ok { db with drafts := db.drafts.change (·.id = row.id) (fun row =>
          { row with
            status := .rejected
            rejectedAt := some now
            rejectedReason := some detail
            updatedAt := now }) fun _ => rfl }

/-! Operator review of a recording -/

def withdrawDraftsForRun (now : Int) (runId : Nat) (ds : Drafts) : Drafts :=
  ds.change (fun d => d.analysisRunId = some runId && d.supersededAt.isNone
    && !settled d.status) (supersede now) fun _ => rfl

/-- A number of thousandths as `:.3f` prints it. -/
def formatThousandths (n : Nat) : String :=
  let digits := toString (1000 + n % 1000)
  toString (n / 1000) ++ "." ++ String.ofList (digits.toList.drop 1)

structure SessionReview where
  sessionId : Nat
  /-- accept when true, reject when false -/
  accept : Bool
  force : Bool := false
deriving DecidableEq

def setSessionStatus (r : Recordings) (id : Nat) (status : SessionStatus) : Recordings :=
  { r with
    sessions := r.sessions.map fun s => if s.id = id then { s with status := status } else s }

def reviewOnDeviceSession (minimum : Nat) (now : Int) (review : SessionReview) (db : Db) :
    Except HttpError Db :=
  match db.recordings.sessions.find? fun s => s.id = review.sessionId with
  | none => .error ⟨404, "On-device session not found"⟩
  | some session =>
      if review.accept then
        if session.qualityScore < minimum ∧ review.force = false then
          .error ⟨409, "session quality " ++ formatThousandths session.qualityScore
            ++ " is below the acceptance threshold " ++ formatThousandths minimum⟩
        else .ok { db with recordings := setSessionStatus db.recordings session.id .accepted }
      else
        .ok { db with
          recordings := setSessionStatus db.recordings session.id .rejected
          drafts := withdrawDraftsForRun now session.analysisRunId db.drafts }

end Frcmob.AutoScout
