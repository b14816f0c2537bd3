import Mathlib.Data.List.Sort
import Frcmob.Lib.Table
import Frcmob.Ratings.SeasonRun
import Frcmob.Text

/-!
A season in the database: the rows that `load_season` and `season_prior_multipliers` query, the
results they make of them, and the writes that change them. A query answers in the order in which
rows were first stored.
-/

namespace Frcmob.Ratings

universe u

inductive Side
  | red
  | blue
deriving DecidableEq

/-! ### Stored rows -/

structure EventRow where
  eventKey : String
  year : Nat
deriving DecidableEq

structure MatchRow where
  matchKey : String
  eventKey : String
  compLevel : String
  time : Option Int
  predictedTime : Option Int
  actualTime : Option Int
deriving DecidableEq

/-- The columns of `match_alliance_results` that a season reads. -/
structure AllianceRow (K : Type u) where
  matchKey : String
  alliance : Side
  teamKeys : List String
  surrogateTeamKeys : List String
  totalScore : Option Int
  scoreWithoutFouls : Option Int
  foulPointsReceived : Option Int
  rankingPoints : Option Int
  result : Option String
  components : Components K
deriving DecidableEq

/-- `unread` stands for the other columns. -/
structure AllianceResult (K : Type u) extends AllianceRow K where
  seasonYear : Nat
  unread : String
  updatedAt : Int
deriving DecidableEq

/-- A finding's columns, with the fields of its summary that a season reads. -/
structure FindingRow (K : Type u) where
  matchKey : String
  teamKey : String
  source : String
  fuelScoringRate : Option K
  autoContribution : Option K
  autoAllocation : Option String
  endgameTower : Option String
  redScore : Option Int
  blueScore : Option Int
deriving DecidableEq

structure Finding (K : Type u) extends FindingRow K where
  id : Nat
  eventKey : String
deriving DecidableEq

structure MatchTeam where
  matchKey : String
  teamKey : String
  eventKey : String
  alliance : Side
deriving DecidableEq

structure TeamPriorStrength (K : Type u) where
  season : Nat
  teamKey : String
  z : K
  unread : String
  updatedAt : Int
deriving DecidableEq

structure TeamRow where
  teamKey : String
  rookieYear : Option Nat
deriving DecidableEq

variable {K : Type u}

def AllianceResult.rowKey (r : AllianceResult K) : String × Side :=
  (r.matchKey, r.alliance)

def MatchTeam.rowKey (r : MatchTeam) : String × String :=
  (r.matchKey, r.teamKey)

def TeamPriorStrength.rowKey (r : TeamPriorStrength K) : Nat × String :=
  (r.season, r.teamKey)

structure Db (K : Type u) where
  events : Table EventRow.eventKey
  storedMatches : Table MatchRow.matchKey
  allianceResults : Table (@AllianceResult.rowKey K)
  findings : Table (@Finding.id K)
  matchTeams : Table MatchTeam.rowKey
  priorStrengths : Table (@TeamPriorStrength.rowKey K)
  teams : Table TeamRow.teamKey

def Db.empty : Db K :=
  ⟨Table.empty, Table.empty, Table.empty, Table.empty, Table.empty, Table.empty, Table.empty⟩

/-! ### Queries -/

/-- A row of the first query: key, event, start and level, of a match that has a time. -/
structure CardRow where
  matchKey : String
  eventKey : String
  time : Int
  level : String
deriving DecidableEq

/-- What the queries of one season answer. -/
structure SeasonRows (K : Type u) where
  cards : List CardRow
  alliances : List (AllianceRow K)
  findings : List (FindingRow K)
  lineups : List MatchTeam
  priors : List (String × K)
  rookies : List String

/-- `event_key LIKE '2026%'` -/
def ofSeason (year : Nat) (eventKey : String) : Bool :=
  (toString year).toList.isPrefixOf eventKey.toList

def MatchRow.matchTime (m : MatchRow) : Option Int :=
  (m.actualTime.or m.time).or m.predictedTime

def officialSources : List String :=
  ["tba_score_breakdown", "tba_score_breakdown_backfill"]

def queryCards (db : Db K) (year : Nat) : List CardRow :=
  db.storedMatches.rows.filterMap fun m =>
    if (db.events.get? m.eventKey).any (·.year = year) then
      m.matchTime.map fun t => ⟨lower m.matchKey, m.eventKey, t, lower m.compLevel⟩
    else none

def seasonResults (db : Db K) (year : Nat) : List (AllianceResult K) :=
  db.allianceResults.rows.filter (·.seasonYear = year)

def seasonFindings (db : Db K) (year : Nat) : List (Finding K) :=
  db.findings.rows.filter fun f => ofSeason year f.eventKey

def seasonPriors (db : Db K) (year : Nat) : List (TeamPriorStrength K) :=
  db.priorStrengths.rows.filter fun p => p.season + 1 = year

def seasonRookies (db : Db K) (year : Nat) : List TeamRow :=
  db.teams.rows.filter fun t => t.rookieYear = some year

def querySeason (db : Db K) (year : Nat) : SeasonRows K where
  cards := queryCards db year
  alliances := (seasonResults db year).map (·.toAllianceRow)
  findings := ((seasonFindings db year).filter fun f => f.source ∈ officialSources).map
    (·.toFindingRow)
  lineups := db.matchTeams.rows.filter fun t => ofSeason year t.eventKey
  priors := (seasonPriors db year).map fun p => (p.teamKey, p.z)
  rookies := (seasonRookies db year).map (·.teamKey)

/-! ### Results of a season -/

/-- What the game configuration sets for a robot's official points. -/
structure Scoring (K : Type u) where
  activeHubMinutes : K
  highClimb : K
  midClimb : K
  lowClimb : K

/-- `part in token` -/
def hasPart (part token : String) : Bool :=
  token.toList.tails.any fun rest => part.toList.isPrefixOf rest

variable [Field K]

/-- `_tower_points_from_status`, of the endgame. -/
def climbPoints (scoring : Scoring K) (endgameTower : String) : K :=
  let token := normalizeKey endgameTower
  if token = "" ∨ token ∈ ["none", "no", "unknown"] then 0
  else if hasPart "level3" token ∨ hasPart "deep" token ∨ hasPart "travers" token ∨
      token = "high" then scoring.highClimb
  else if hasPart "level2" token ∨ hasPart "shallow" token ∨ token = "mid" then scoring.midClimb
  else if hasPart "level1" token then scoring.lowClimb
  else if hasPart "park" token ∨ token = "low" then scoring.lowClimb / 4
  else 0

/-- `match_points` -/
def matchPoints (scoring : Scoring K) (time : Int) (row : FindingRow K) : MatchPoints K where
  matchKey := lower row.matchKey
  time := time
  teleop := row.fuelScoringRate.map (· * scoring.activeHubMinutes)
  auto :=
    if row.autoAllocation = some "event_auto_fuel_copr" ∨ row.autoAllocation = some "no_hub_fuel" then
      row.autoContribution
    else none
  climb := row.endgameTower.map (climbPoints scoring)

/-- `cards_raw`: one card for each key. -/
def cardsRaw (rows : SeasonRows K) : Table CardRow.matchKey :=
  Table.empty.putAll rows.cards

/-- `alliance_rows`: the last row of the match's side. -/
def storedSide (rows : SeasonRows K) (matchKey : String) (side : Side) : Option (AllianceRow K) :=
  (rows.alliances.filter fun r => lower r.matchKey = matchKey ∧ r.alliance = side).getLast?

/-- Ingested rows before the rows of the old backfill. -/
def findingsOf (rows : SeasonRows K) (matchKey : String) : List (FindingRow K) :=
  let here := rows.findings.filter fun f => lower f.matchKey = matchKey
  here.filter (·.source = "tba_score_breakdown") ++ here.filter (·.source ≠ "tba_score_breakdown")

/-- The first of a team's findings counts. -/
def firstOfTeam (found : List (FindingRow K)) : List (FindingRow K) :=
  found.foldl (fun kept f =>
    if kept.any fun k => lower k.teamKey = lower f.teamKey then kept else kept ++ [f]) []

def robotsOf (scoring : Scoring K) (rows : SeasonRows K) (card : CardRow) :
    Dict (MatchPoints K) :=
  (firstOfTeam (findingsOf rows card.matchKey)).foldl (fun (robots : Dict (MatchPoints K)) f =>
    robots.insert (lower f.teamKey) (matchPoints scoring card.time f)) ∅

/-- `summary_scores`: the first scores that a finding knows. -/
def summaryScores (rows : SeasonRows K) (matchKey : String) : Option (Int × Int) :=
  (firstOfTeam (findingsOf rows matchKey)).findSome? fun f =>
    match f.redScore, f.blueScore with
    | some red, some blue => if 0 ≤ red ∧ 0 ≤ blue then some (red, blue) else none
    | _, _ => none

def lineup (rows : SeasonRows K) (matchKey : String) (side : Side) : List String :=
  (rows.lineups.filter fun t => lower t.matchKey = matchKey ∧ t.alliance = side).map
    fun t => lower t.teamKey

/-- The earliest time among the event's matches. -/
def eventStartOf (rows : SeasonRows K) (eventKey : String) (time : Int) : Int :=
  (((cardsRaw rows).rows.filter (·.eventKey = eventKey)).map (·.time)).foldl min time

def setComponent (components : Components K) (key : String) (value : ComponentValue K) :
    Components K :=
  components.insert key value

def ComponentValue.ofInt : Option Int → ComponentValue K
  | some n => .number n
  | none => .null

/-- `_with_fouls` -/
def withFouls (row : Option (AllianceRow K)) : Components K :=
  match row with
  | none => ∅
  | some row =>
      let fouled := match row.foulPointsReceived with
        | some points =>
            setComponent row.components "foul_points_received" (.ofInt (some points))
        | none => row.components
      let ranked := setComponent fouled "ranking_points" (.ofInt row.rankingPoints)
      let surrogates :=
        setComponent ranked "surrogate_team_keys" (.teamKeys row.surrogateTeamKeys)
      setComponent surrogates "result" (row.result.elim .null .text)

/-- Teams, scores and points of a match, from its stored results or else from its findings. -/
def scored (rows : SeasonRows K) (matchKey : String) :
    Option ((List String × List String) × (Int × Int) × Option K × Option K) :=
  let red := storedSide rows matchKey .red
  let blue := storedSide rows matchKey .blue
  match red.bind (·.totalScore), blue.bind (·.totalScore) with
  | some redScore, some blueScore =>
      some ((red.elim [] (·.teamKeys), blue.elim [] (·.teamKeys)), (redScore, blueScore),
        (red.bind (·.scoreWithoutFouls)).map Int.cast,
        (blue.bind (·.scoreWithoutFouls)).map Int.cast)
  | _, _ =>
      (summaryScores rows matchKey).map fun scores =>
        ((lineup rows matchKey .red, lineup rows matchKey .blue), scores, none, none)

def resultOf (scoring : Scoring K) (rows : SeasonRows K) (card : CardRow) :
    Option (MatchResult K) :=
  match scored rows card.matchKey with
  | none => none
  | some ((red, blue), (redScore, blueScore), redPoints, bluePoints) =>
      if red.length ≠ 3 ∨ blue.length ≠ 3 then none
      else some
        { card :=
            { matchKey := card.matchKey
              eventKey := card.eventKey
              time := card.time
              compLevel := card.level
              eventStart := eventStartOf rows card.eventKey card.time
              red := red
              blue := blue }
          redScore := redScore
          blueScore := blueScore
          redPoints := redPoints
          bluePoints := bluePoints
          robots := robotsOf scoring rows card
          redComponents := withFouls (storedSide rows card.matchKey .red)
          blueComponents := withFouls (storedSide rows card.matchKey .blue) }

def playedBefore (a b : MatchResult K) : Prop :=
  a.card.time < b.card.time ∨ (a.card.time = b.card.time ∧ a.card.matchKey ≤ b.card.matchKey)

instance : DecidableRel (@playedBefore K) :=
  fun _ _ => inferInstanceAs (Decidable (_ ∨ _))

/-- `load_season`, from what its queries answer. -/
def loadSeason (scoring : Scoring K) (rows : SeasonRows K) : List (MatchResult K) :=
  ((cardsRaw rows).rows.filterMap (resultOf scoring rows)).insertionSort playedBefore

variable [DecidableEq K] [Maths K]

/-- `season_prior_multipliers`, from what its queries answer. -/
def seasonPriorMultipliers (baseline : Baseline K) (rows : SeasonRows K) : Setup K :=
  let known := if baseline.priorBeta = 0 then [] else rows.priors
  let rookies := if baseline.rookieMultiplier = 1 then [] else rows.rookies
  let strengths := known.foldl (fun (d : Dict K) p =>
    d.insert (lower p.1) (Maths.exp (baseline.priorBeta * p.2))) ∅
  { multipliers := rookies.foldl (fun (d : Dict K) team =>
      if (d.lookup (lower team)).isSome then d
      else d.insert (lower team) baseline.rookieMultiplier) strengths
    varMultipliers := known.foldl (fun (d : Dict K) p =>
      d.insert (lower p.1) baseline.priorKnownVarMultiplier) ∅ }

end Frcmob.Ratings
