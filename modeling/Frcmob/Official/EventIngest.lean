import Frcmob.Lib.Grouping
import Frcmob.Lib.Table
import Frcmob.Official.Truth
import Mathlib.Data.List.Sort

/-!
Ingest of an event from TBA: `services/events/ingest.py`, with `match_lineups.py`,
`match_times.py`, `alliance_results.py` and `evidence.py`. The rows of teams, profiles and
event teams are left out, as no stage reads them.
-/

namespace Frcmob.Official

universe u

/-! ### Tables -/

structure Event where
  eventKey : String
  name : String
  year : Int

structure Match where
  matchKey : String
  eventKey : String
  compLevel : String
  setNumber : Int
  matchNumber : Int
  time : Option Int
  predictedTime : Option Int
  actualTime : Option Int

structure MatchTeam where
  matchKey : String
  teamKey : String
  eventKey : String
  alliance : String
  station : String

def MatchTeam.key (row : MatchTeam) : String × String := (row.matchKey, row.teamKey)

structure AnalysisRun where
  id : Nat
  matchKey : String
  version : String
  runKind : String
  status : String

structure AnalysisRunContext where
  runId : Nat
  matchKey : String
  eventKey : String
  analysisVersion : String
  paramsHash : String

/-- A finding without its row id and its run's. -/
structure FindingFields (K : Type u) where
  matchKey : String
  eventKey : String
  teamKey : String
  alliance : String
  station : Option String
  source : String
  fuelScoringRate : Option K
  cycleTimeSec : Option K
  autoContribution : Option K
  climbSuccessProb : Option K
  defensiveEngagementSec : Option K
  reliabilityScore : Option K
  summary : Json K

structure TeamMatchFinding (K : Type u) where
  id : Nat
  analysisRunId : Nat
  fields : FindingFields K

structure MatchEvent (K : Type u) where
  analysisRunId : Nat
  matchKey : String
  eventKey : String
  teamKey : String
  timeSec : K
  eventType : String
  confidence : K
  details : Obj K

/-- A track of a recording, as far as the ingest looks at it. -/
structure RobotTrack where
  id : Nat
  analysisRunId : Nat

/-- A row of `parse_alliance_results`. -/
structure AllianceRow (K : Type u) where
  matchKey : String
  alliance : String
  teamKeys : List String
  surrogateTeamKeys : List String
  dqTeamKeys : List String
  totalScore : Int
  scoreWithoutFouls : Option Int
  result : String
  minorFoulsCommitted : Option Int
  majorFoulsCommitted : Option Int
  foulPointsReceived : Option Int
  rankingPoints : Option Int
  components : Obj K
  rawBreakdown : Obj K

structure MatchAllianceResult (K : Type u) extends AllianceRow K where
  eventKey : String
  seasonYear : Int

def MatchAllianceResult.key {K : Type u} (row : MatchAllianceResult K) : String × String :=
  (row.matchKey, row.alliance)

structure EventTeamStat (K : Type u) where
  eventKey : String
  teamKey : String
  opr : Option K
  dpr : Option K
  ccwm : Option K
  source : String

def EventTeamStat.key {K : Type u} (row : EventTeamStat K) : String × String :=
  (row.eventKey, row.teamKey)

/-- The tables, and the ids the next rows get. -/
structure Db (K : Type u) where
  events : Table Event.eventKey
  matchRows : Table Match.matchKey
  matchTeams : Table MatchTeam.key
  runs : List AnalysisRun
  contexts : List AnalysisRunContext
  findings : List (TeamMatchFinding K)
  matchEvents : List (MatchEvent K)
  tracks : List RobotTrack
  results : Table (@MatchAllianceResult.key K)
  stats : Table (@EventTeamStat.key K)
  nextRun : Nat
  nextFinding : Nat

/-- What the database promises of its ids: a run's id is below the next one, and a row of a run
names the id of one. -/
structure Db.Keyed {K : Type u} (db : Db K) : Prop where
  runs : ∀ run ∈ db.runs, run.id < db.nextRun
  contexts : ∀ context ∈ db.contexts, context.runId < db.nextRun
  findings : ∀ finding ∈ db.findings, finding.analysisRunId < db.nextRun
  matchEvents : ∀ event ∈ db.matchEvents, event.analysisRunId < db.nextRun
  tracks : ∀ track ∈ db.tracks, track.analysisRunId < db.nextRun

/-! ### The dataset -/

/-- The answers of TBA that the ingest stores; `none` where a request failed. -/
structure Dataset (K : Type u) where
  eventKey : String
  event : Event
  matchList : List (MatchPayload K)
  coprs : Option (Json K)
  oprs : Option (Json K)

section Stages
variable {K : Type u}

def scoreBreakdownSource : String := "tba_score_breakdown"

def scoreBreakdownRunVersion : String := "tba_score_breakdown_v2"

def officialTruth : String := "official_truth"

/-! ### Matches and line-ups -/

section Merge
variable [Floats K]

/-- `_unix` -/
def unix : Json K → Option Int
  | .int value => if 0 < value then some value else none
  | .float value => if 0 < Floats.truncate value then some (Floats.truncate value) else none
  | _ => none

/-- The match row of a payload, with `match_times_from_payload`. -/
def matchOf (eventKey : String) (m : MatchPayload K) : Match :=
  ⟨m.key, eventKey, m.compLevel, m.setNumber, m.matchNumber, unix m.time, unix m.predictedTime,
    unix m.actualTime⟩

/-- The first writes of `ingest_event`: the event and its matches. -/
def mergeEvent (d : Dataset K) (db : Db K) : Db K :=
  { db with
    events := db.events.put d.event
    matchRows := db.matchRows.putAll (d.matchList.map (matchOf d.eventKey)) }

end Merge

/-- The links of the line-ups, in the order of the payload. -/
def lineupLinks (d : Dataset K) : List MatchTeam :=
  d.matchList.flatMap fun m => ["red", "blue"].flatMap fun alliance =>
    (((m.alliance? alliance).map AlliancePayload.teamKeys).getD []).zipIdx.map
      fun (teamKey, idx) => ⟨m.key, teamKey, d.eventKey, alliance, stationOf alliance idx⟩

/-- One row for each robot in a match: the first one listed wins. -/
def firstListed : List MatchTeam → List MatchTeam
  | [] => []
  | link :: links => link :: (firstListed links).filter (·.key ≠ link.key)

/-- The new line-up of one match: it replaces the old one unless an alliance is missing. -/
def writeLineup (rows : Table MatchTeam.key) (group : String × List MatchTeam) :
    Table MatchTeam.key :=
  let kept := if ["red", "blue"].all (group.2.map MatchTeam.alliance).contains then
      rows.filter fun row => row.matchKey ≠ group.1 ∨ row.teamKey ∈ group.2.map MatchTeam.teamKey
    else rows
  kept.putAll group.2

/-- `write_match_lineups` -/
def writeMatchLineups (links : List MatchTeam) (db : Db K) : Db K × Nat :=
  let byMatch := Grouping.group MatchTeam.matchKey id (firstListed links)
  ({ db with matchTeams := byMatch.foldl writeLineup db.matchTeams },
    (byMatch.map fun group => group.2.length).sum)

/-! ### Weights of the teams -/

/-- `clear_existing_score_breakdown_rows`: the ids of the event's official runs. -/
def staleRunIds (eventKey : String) (db : Db K) : List Nat :=
  (db.runs.filter fun run =>
    ((db.matchRows.get? run.matchKey).any fun m => m.eventKey = eventKey) ∧
      run.version ∈ ["tba_score_breakdown_v1", scoreBreakdownRunVersion] ∧
      run.runKind = officialTruth).map AnalysisRun.id

/-- `clear_existing_score_breakdown_rows` -/
def clearExistingScoreBreakdownRows (eventKey : String) (db : Db K) : Db K :=
  let stale := staleRunIds eventKey db
  { db with
    runs := db.runs.filter fun run => run.id ∉ stale
    contexts := db.contexts.filter fun context => context.runId ∉ stale
    findings := db.findings.filter fun finding => finding.analysisRunId ∉ stale
    matchEvents := db.matchEvents.filter fun event => event.analysisRunId ∉ stale
    tracks := db.tracks.filter fun track => track.analysisRunId ∉ stale }

section Weights
variable [Field K] [LinearOrder K]

/-- `_effective_fuel_rate_prior` -/
def effectiveFuelRatePrior (fuelScoringRate cycleTimeSec : Option K) : Option K :=
  let cycleImplied := match cycleTimeSec with
    | some cycleTime => if 0 < cycleTime then some (60 / max (1 / 10 ^ 6) cycleTime) else none
    | none => none
  match fuelScoringRate, cycleImplied with
  | none, implied => implied
  | some rate, none => some (max 0 rate)
  | some rate, some implied => some (max (max 0 rate) implied)

/-- Newest match first, matches without a time last, then the newest finding. -/
def sampledBefore (a b : Option Int × TeamMatchFinding K) : Bool :=
  match a.1, b.1 with
  | some s, some t => s > t ∨ (s = t ∧ a.2.id ≥ b.2.id)
  | some _, none => true
  | none, some _ => false
  | none, none => a.2.id ≥ b.2.id

/-- The findings of a query for rate samples, newest first. -/
def sampleRows (db : Db K) (chosen : TeamMatchFinding K → Bool) (limit : Nat) :
    List (TeamMatchFinding K) :=
  let joined := (db.findings.filter chosen).filterMap fun finding =>
    (db.matchRows.get? finding.fields.matchKey).map fun m => (m.time, finding)
  ((joined.insertionSort fun a b => sampledBefore a b).take limit).map Prod.snd

/-- `_collect_rate_samples`, for one team. -/
def collectRateSamples (rows : List (TeamMatchFinding K)) (teamKey : String) : List K :=
  rows.filterMap fun finding =>
    if finding.fields.teamKey = teamKey then
      (effectiveFuelRatePrior finding.fields.fuelScoringRate finding.fields.cycleTimeSec).filter
        fun effective => 0 < effective
    else none

/-- The rate samples of a team: those of the event, else those of the season. -/
def samplesByTeam (db : Db K) (eventKey : String) (seasonYear : Int) (teamKeys : List String)
    (teamKey : String) : List K :=
  let eventRows := sampleRows db (fun finding => finding.fields.teamKey ∈ teamKeys ∧
    finding.fields.source ≠ scoreBreakdownSource ∧ finding.fields.eventKey = eventKey)
    (max 120 (teamKeys.length * 10))
  let missing := teamKeys.filter fun team => (collectRateSamples eventRows team).isEmpty
  let seasonRows := sampleRows db (fun finding => finding.fields.teamKey ∈ missing ∧
    finding.fields.source ≠ scoreBreakdownSource ∧
    (db.events.get? finding.fields.eventKey).any fun event => event.year = seasonYear)
    (max 200 (missing.length * 10))
  collectRateSamples eventRows teamKey ++ collectRateSamples seasonRows teamKey

/-- The weighted mean of the first eight samples. -/
def samplePrior (samples : List K) : K :=
  let weighted := (samples.take 8).zipIdx.map fun (sample, index) =>
    (sample, max (35 / 100 : K) (1 - index * (12 / 100)))
  (weighted.map fun (sample, weight) => sample * weight).sum / (weighted.map Prod.snd).sum

/-- What a stored OPR says about a team without samples. -/
def oprPrior (opr : Option K) : Option K :=
  match opr with
  | some opr => if 0 < opr then some (max (2 / 10) (min 20 (opr * (8 / 100)))) else none
  | none => none

variable [Floats K]

def priorWeight (prior : K) : K :=
  Floats.round4 (max (8 / 10) (min (45 / 10) (1 + Floats.powTwoFifths prior)))

/-- `compute_team_fuel_weight_priors` -/
def computeTeamFuelWeightPriors (db : Db K) (eventKey : String) (seasonYear : Int)
    (teamKeys : List String) : TeamNumbers K := fun teamKey =>
  if teamKey ∉ teamKeys then none
  else
    let prior := match samplesByTeam db eventKey seasonYear teamKeys teamKey with
      | [] => oprPrior ((db.stats.get? (eventKey, teamKey)).bind EventTeamStat.opr)
      | samples => some (samplePrior samples)
    (prior.filter fun prior => 0 < prior).map priorWeight

end Weights

/-! ### Official findings -/

section Truth
variable [Field K] [LinearOrder K] [Floats K]

/-- `evidence_rejection_reason` -/
def evidenceRejectionReason (summary : Obj K) : Option String :=
  let notEligible : Bool := match summary.get "video_evidence" with
    | .obj evidence => !(Obj.getOr evidence "ratings_eligible" (.bool false)).truthy
    | _ => false
  let throughput := (summary.get "throughput_metrics").dict
  let mixed := ["cycle_time_source", "score_events_source"].any fun key =>
    let source := lower (pyStr (throughput.getOr key (.str "")))
    source ≠ "" ∧ ¬ startsWith source "cv_"
  if notEligible then some "video_metrics_not_validated_for_ratings"
  else if startsWith (pyStr (summary.getOr "source" (.str ""))) "video" ∧ mixed then
    some "mixed_official_and_video_evidence"
  else none

/-- A robot in a match has usable evidence that is not official. -/
def hasUsableFinding (db : Db K) (eventKey matchKey teamKey : String) : Bool :=
  db.findings.any fun finding =>
    finding.fields.eventKey = eventKey ∧ finding.fields.source ≠ scoreBreakdownSource ∧
      finding.fields.matchKey = matchKey ∧ finding.fields.teamKey = teamKey ∧
      (evidenceRejectionReason finding.fields.summary.dict).isNone

/-- The lengths that `upsert_score_breakdown_truth` takes from the context. -/
structure Lengths (K : Type u) where
  autoEndSec : K
  teleopSec : K
  totalSec : K
  endgameStartSec : K

def lengthsOf (context : Context K) (seasonYear : Int) : Lengths K :=
  let phases := context.phases
  let totalSec := max phases.autoSec phases.totalSec
  { autoEndSec := phases.autoSec
    teleopSec := if seasonYear = rebuiltSeasonYear then
        max 1 (orNumber phases.teleopActiveHubSec (rebuiltActiveHubDurationFromPhases
          phases.autoSec phases.teleopSec phases.endgameSec true))
      else max 1 phases.teleopSec
    totalSec
    endgameStartSec := max phases.autoSec (totalSec - phases.endgameSec) }

/-- What the ingest is run with for one event. -/
structure TruthInput (K : Type u) where
  eventKey : String
  seasonYear : Int
  context : Context K
  autoFuelCoprByTeam : Option (TeamNumbers K)

def autoPointsOf (row : TruthRow K) : Option K :=
  row.autoPoints.map (max 0)

/-- `scoring_proxy`: the robot's fuel count, or its points where there is none. -/
def scoringProxy (row : TruthRow K) : K :=
  match row.teleopScoreCount with
  | some count => if 0 < count then count else max 0 row.teleopPoints
  | none => max 0 row.teleopPoints

/-- `fuel_scoring_rate` as it is stored. -/
def fuelScoringRate (lengths : Lengths K) (row : TruthRow K) : K :=
  Floats.round4 (max 0 (max 0 (scoringProxy row) / lengths.teleopSec * 60))

/-- `value if isinstance(value, int) else None` -/
def intOrNone : Json K → Json K
  | .int value => .int value
  | .bool value => .bool value
  | _ => .null

def scoreOf (m : MatchPayload K) (alliance : String) : Json K :=
  ((m.alliance? alliance).map AlliancePayload.score).getD .null

/-- The finding that a row is stored as. -/
def findingOf (input : TruthInput K) (m : MatchPayload K) (row : TruthRow K) : FindingFields K where
  matchKey := m.key
  eventKey := input.eventKey
  teamKey := row.teamKey
  alliance := row.alliance
  station := if row.station = "" then none else some row.station
  source := scoreBreakdownSource
  fuelScoringRate := some (fuelScoringRate (lengthsOf input.context input.seasonYear) row)
  cycleTimeSec := none
  autoContribution := (autoPointsOf row).map Floats.round4
  climbSuccessProb := some (Floats.round4
    (if row.climbSuccess then 1 else if 0 < max 0 row.climbPoints then 35 / 100 else 0))
  defensiveEngagementSec := none
  reliabilityScore := none
  summary := .obj [("source", .str scoreBreakdownSource), ("official_score_breakdown", .bool true),
    ("red_score", intOrNone (scoreOf m "red")), ("blue_score", intOrNone (scoreOf m "blue")),
    ("season_year", .int input.seasonYear), ("status", .obj row.status),
    ("cycle_time_source", .str "unknown_from_alliance_breakdown")]

/-- The match events that a row is stored with. -/
def eventsOf (input : TruthInput K) (m : MatchPayload K) (runId : Nat) (row : TruthRow K) :
    List (MatchEvent K) :=
  let lengths := lengthsOf input.context input.seasonYear
  let allocation := row.status.get "auto_allocation"
  let allocated (name : String) : Bool := match allocation with
    | .str value => decide (value = name)
    | _ => false
  let event (timeSec : K) (eventType : String) (confidence : K) (details : Obj K) : MatchEvent K :=
    ⟨runId, m.key, input.eventKey, row.teamKey, min lengths.totalSec timeSec, eventType,
      confidence, ("source", .str scoreBreakdownSource) :: details ++
        [("season_year", .int input.seasonYear)]⟩
  let climbPoints := max 0 row.climbPoints
  (match autoPointsOf row with
    | some points => if 0 < points then
        [event lengths.autoEndSec "auto_points_scored"
          (if allocated "event_auto_fuel_copr" then 65 / 100 else 99 / 100)
          [(if allocated "no_hub_fuel" then "official_points" else "estimated_points",
            .float (Floats.round4 points)), ("allocation", allocation)]]
      else []
    | none => []) ++
  (if 0 < scoringProxy row then
    [event (lengths.autoEndSec + 1 / 2 * lengths.teleopSec) "teleop_fuel_score_success" (98 / 100)
      [("count_estimate", .float (Floats.round4 (scoringProxy row))),
        ("official_points", .float (Floats.round4 (max 0 row.teleopPoints)))]]
    else []) ++
  (if 0 < climbPoints ∨ row.climbSuccess then
    [event (lengths.endgameStartSec + 5)
      (if row.climbSuccess then "climb_success" else "climb_attempt") (98 / 100)
      [("official_points", .float (Floats.round4 climbPoints)), ("status", .obj row.status)]]
    else [])

/-- A row is stored unless its robot has usable evidence of its own. -/
def isStored (db : Db K) (eventKey : String) (m : MatchPayload K) (row : TruthRow K) : Bool :=
  row.teamKey ≠ "" ∧ row.alliance ∈ ["red", "blue"] ∧
    ¬ hasUsableFinding db eventKey m.key row.teamKey

/-- The official run of one match, with its findings and events; none without rows. -/
def insertRun (input : TruthInput K) (m : MatchPayload K) (rows : List (TruthRow K)) (db : Db K) :
    Db K :=
  if rows.isEmpty then db
  else
    { db with
      runs := db.runs ++
        [⟨db.nextRun, m.key, scoreBreakdownRunVersion, officialTruth, "completed"⟩]
      contexts := db.contexts ++ [⟨db.nextRun, m.key, input.eventKey, scoreBreakdownRunVersion,
        scoreBreakdownRunVersion⟩]
      findings := db.findings ++ rows.zipIdx.map fun (row, i) =>
        ⟨db.nextFinding + i, db.nextRun, findingOf input m row⟩
      matchEvents := db.matchEvents ++ rows.flatMap (eventsOf input m db.nextRun)
      nextRun := db.nextRun + 1
      nextFinding := db.nextFinding + rows.length }

/-- The teams of the matches, each once. -/
def matchTeamKeys (matchList : List (MatchPayload K)) : List String :=
  (matchList.flatMap fun m => ["red", "blue"].flatMap fun alliance =>
    (((m.alliance? alliance).map AlliancePayload.teamKeys).getD []).filter (· ≠ "")).dedup

/-- The truth rows of a match, none for a payload without a key. -/
def truthRows (input : TruthInput K) (weights : TeamNumbers K) (m : MatchPayload K) :
    List (TruthRow K) :=
  if m.key = "" then []
  else extractScoreBreakdownTruthRows m input.seasonYear input.context weights
    input.autoFuelCoprByTeam

structure TruthCounts where
  clearedRuns : Nat
  parsedMatches : Nat
  insertedRuns : Nat
  insertedFindings : Nat
  insertedEvents : Nat
  skippedDueExistingFindings : Nat

/-- `require_known_season_rules` -/
def requireKnownSeasonRules (seasonYear : Int) (feature : String) : Except String PUnit :=
  if rebuiltSeasonYear < seasonYear then
    .error (feature ++ " has no rules adapter for season " ++ toString seasonYear ++
      "; latest supported season is " ++ toString rebuiltSeasonYear)
  else .ok ⟨⟩

/-- The runs of the matches, once the old ones are cleared and the weights are known. What blocks
a row is read before the first is written. -/
def insertRuns (input : TruthInput K) (weights : TeamNumbers K) (matchList : List (MatchPayload K))
    (cleared : Db K) : Db K :=
  matchList.foldl (fun db m =>
    insertRun input m ((truthRows input weights m).filter (isStored cleared input.eventKey m)) db)
    cleared

/-- `upsert_score_breakdown_truth` -/
def upsertScoreBreakdownTruth (input : TruthInput K) (matchList : List (MatchPayload K))
    (db : Db K) : Except String (Db K × TruthCounts) := do
  requireKnownSeasonRules input.seasonYear "event score-breakdown ingestion"
  let cleared := clearExistingScoreBreakdownRows input.eventKey db
  let weights := computeTeamFuelWeightPriors cleared input.eventKey input.seasonYear
    (matchTeamKeys matchList)
  let stored := insertRuns input weights matchList cleared
  let rows := matchList.map (truthRows input weights)
  return (stored,
    { clearedRuns := (staleRunIds input.eventKey db).length
      parsedMatches := rows.countP fun rows => !rows.isEmpty
      insertedRuns := stored.runs.length - cleared.runs.length
      insertedFindings := stored.findings.length - cleared.findings.length
      insertedEvents := stored.matchEvents.length - cleared.matchEvents.length
      skippedDueExistingFindings := (matchList.map fun m => (truthRows input weights m).countP
        fun row => row.teamKey ≠ "" ∧ row.alliance ∈ ["red", "blue"] ∧
          hasUsableFinding cleared input.eventKey m.key row.teamKey).sum })

/-! ### Alliance results -/

/-- `_int` -/
def jsonInt (value : Json K) : Option Int :=
  (asFloat value).map Floats.roundInt

/-- `_keys` -/
def lowerKeys (keys : List String) : List String :=
  (keys.filter (· ≠ "")).map lower

def optionalInt : Option Int → Json K
  | none => .null
  | some value => .int value

/-- `_components_2026` -/
def components2026 (points : ScoringPoints K) (breakdown : Obj K) : Obj K :=
  let hub := hubScore breakdown
  let number (data : Obj K) (key : String) : Json K := optionalInt (jsonInt (data.get key))
  let tower (name : String) (autoPhase : Bool) : Json K :=
    .arr ((List.range 3).map fun i =>
      .float (towerPointsFromStatus (breakdown.get (robotField name i)) autoPhase points))
  [("auto_hub_points", number hub "autoPoints"),
    ("teleop_hub_points", number hub "teleopPoints"),
    ("transition_hub_points", number hub "transitionPoints"),
    ("shift1_hub_points", number hub "shift1Points"),
    ("shift2_hub_points", number hub "shift2Points"),
    ("shift3_hub_points", number hub "shift3Points"),
    ("shift4_hub_points", number hub "shift4Points"),
    ("endgame_hub_points", number hub "endgamePoints"),
    ("hub_fuel_count", number hub "totalCount"),
    ("robot_auto_tower_points", tower "autoTowerRobot" true),
    ("robot_endgame_tower_points", tower "endGameTowerRobot" false),
    ("auto_tower_points", number breakdown "autoTowerPoints"),
    ("endgame_tower_points", number breakdown "endGameTowerPoints"),
    ("tower_points", number breakdown "totalTowerPoints"),
    ("adjust_points", number breakdown "adjustPoints"),
    ("energized_rp", .bool (breakdown.get "energizedAchieved").truthy),
    ("supercharged_rp", .bool (breakdown.get "superchargedAchieved").truthy),
    ("traversal_rp", .bool (breakdown.get "traversalAchieved").truthy)]

/-- One alliance in `parse_alliance_results`; `none` until the match has a score. -/
def allianceRow (points : ScoringPoints K) (m : MatchPayload K) (seasonYear : Int)
    (color : String) : Option (AllianceRow K) :=
  let teams (part : AlliancePayload K → List String) : List String :=
    lowerKeys (((m.alliance? color).map part).getD [])
  let breakdown := (m.scoreBreakdown.bind (· color)).getD []
  let foulPoints := jsonInt (breakdown.get "foulPoints")
  let winner := lower (if m.winningAlliance.truthy then pyStr m.winningAlliance else "")
  match jsonInt (scoreOf m color) with
  | none => none
  | some score =>
      if score < 0 then none
      else some
        { matchKey := lower m.key
          alliance := color
          teamKeys := teams AlliancePayload.teamKeys
          surrogateTeamKeys := teams AlliancePayload.surrogateTeamKeys
          dqTeamKeys := teams AlliancePayload.dqTeamKeys
          totalScore := score
          scoreWithoutFouls := foulPoints.map fun points => score - points
          result := if winner = "" then "tie" else if winner = color then "win" else "loss"
          minorFoulsCommitted := jsonInt (breakdown.get "minorFoulCount")
          majorFoulsCommitted := jsonInt (breakdown.get "majorFoulCount")
          foulPointsReceived := foulPoints
          rankingPoints := jsonInt (breakdown.get "rp")
          components := if seasonYear = 2026 ∧ !breakdown.isEmpty then
            components2026 points breakdown else []
          rawBreakdown := breakdown }

/-- `parse_alliance_results` -/
def parseAllianceResults (points : ScoringPoints K) (m : MatchPayload K) (seasonYear : Int) :
    List (AllianceRow K) :=
  (["red", "blue"].mapM (allianceRow points m seasonYear)).getD []

/-- `known` of `upsert_alliance_results`: the stored key of a lower-case match key. -/
def knownKey (eventKey : String) (matchRows : Table Match.matchKey) (low : String) :
    Option String :=
  ((matchRows.rows.filter fun m => m.eventKey = eventKey ∧ lower m.matchKey = low).map
    Match.matchKey).getLast?

def resultRows (input : TruthInput K) (matchList : List (MatchPayload K))
    (matchRows : Table Match.matchKey) : List (MatchAllianceResult K) :=
  matchList.flatMap fun m =>
    (parseAllianceResults input.context.scoringPoints m input.seasonYear).filterMap fun row =>
      (knownKey input.eventKey matchRows row.matchKey).map fun matchKey =>
        { row with matchKey, eventKey := input.eventKey, seasonYear := input.seasonYear }

/-- `upsert_alliance_results` -/
def upsertAllianceResults (input : TruthInput K) (matchList : List (MatchPayload K)) (db : Db K) :
    Db K × Nat :=
  let rows := resultRows input matchList db.matchRows
  ({ db with results := db.results.putAll rows }, rows.length)

/-! ### Team statistics -/

/-- `float(value)` of an int or a float. -/
def statValue : Json K → Option K
  | .int value => some value
  | .float value => some value
  | .bool value => some (if value then 1 else 0)
  | _ => none

def statRows (eventKey : String) (payload : Obj K) : List (EventTeamStat K) :=
  let oprs := (payload.get "oprs").dict
  let dprs := (payload.get "dprs").dict
  let ccwms := (payload.get "ccwms").dict
  let allTeamKeys := (oprs.map Prod.fst ++ dprs.map Prod.fst ++ ccwms.map Prod.fst).dedup
  (allTeamKeys.filter (· ≠ "")).map fun teamKey =>
    ⟨eventKey, teamKey, statValue (oprs.get teamKey), statValue (dprs.get teamKey),
      statValue (ccwms.get teamKey), "tba_opr"⟩

/-- The rows that `upsert_event_team_stats_from_tba` writes of the answer. -/
def statRowsOf (eventKey : String) : Option (Json K) → List (EventTeamStat K)
  | some (.obj payload) => statRows eventKey payload
  | _ => []

/-- `upsert_event_team_stats_from_tba` -/
def upsertEventTeamStatsFromTba (eventKey : String) (oprs : Option (Json K)) (db : Db K) :
    Db K × Nat × String :=
  let rows := statRowsOf eventKey oprs
  let source := match oprs with
    | none => "remote_unavailable"
    | some (.obj payload) =>
        if ["oprs", "dprs", "ccwms"].all fun name => (Obj.get payload name).dict.isEmpty then "empty"
        else "tba"
    | some _ => "invalid_payload"
  ({ db with stats := db.stats.putAll rows }, rows.length, source)

/-! ### The whole ingest -/

/-- `extract_2026_auto_fuel_coprs` -/
def extract2026AutoFuelCoprs (payload : Json K) : TeamNumbers K := fun teamKey =>
  asFloat ((payload.dict.get "Hub Auto Fuel Count").dict.get teamKey)

def inputOf (config : Option (GameConfig K)) (d : Dataset K) : TruthInput K where
  eventKey := d.eventKey
  seasonYear := d.event.year
  context := truthContext config
  autoFuelCoprByTeam :=
    if d.event.year = rebuiltSeasonYear then d.coprs.map extract2026AutoFuelCoprs else none

structure IngestReport where
  matchCount : Nat
  matchTeamLinks : Nat
  eventTeamStatsUpserted : Nat
  eventTeamStatsSource : String
  scoreBreakdownTruth : TruthCounts
  allianceResults : Nat

/-- `ingest_event`, as far as it stores what TBA answered. -/
def ingestEvent (config : Option (GameConfig K)) (d : Dataset K) (db : Db K) :
    Except String (Db K × IngestReport) := do
  let input := inputOf config d
  let (db, links) := writeMatchLineups (lineupLinks d) (mergeEvent d db)
  let (db, truth) ← upsertScoreBreakdownTruth input d.matchList db
  let (db, written) := upsertAllianceResults input d.matchList db
  let (db, upserts, source) := upsertEventTeamStatsFromTba d.eventKey d.oprs db
  return (db, ⟨d.matchList.length, links, upserts, source, truth, written⟩)

/-- The database after an ingest; one that raises is rolled back. -/
def ingested (config : Option (GameConfig K)) (d : Dataset K) (db : Db K) : Db K :=
  match ingestEvent config d db with
  | .ok (db', _) => db'
  | .error _ => db

end Truth
end Stages

end Frcmob.Official
