import Frcmob.Lib.Rounding
import Frcmob.Text
import Mathlib.Algebra.BigOperators.Group.List.Basic
import Mathlib.Algebra.Order.Field.Basic
import Mathlib.Data.Rat.Floor

/-!
What an official score breakdown says about each robot: `services/scoring/truth.py` and the
durations of `services/season_config.py` it uses. `K` stands for Python's floats.
-/

namespace Frcmob.Official

universe u

/-- A value of a decoded JSON payload. -/
inductive Json (K : Type u)
  | null
  | bool (value : Bool)
  | int (value : Int)
  | float (value : K)
  | str (value : String)
  | arr (items : List (Json K))
  | obj (fields : List (String × Json K))

/-- A Python dictionary with JSON values, one for each key. -/
abbrev Obj (K : Type u) := List (String × Json K)

/-- Python's operations on floats beyond the arithmetic of a field, and the texts of values. -/
class Floats (K : Type u) where
  /-- `x ** 0.4` -/
  powTwoFifths : K → K
  /-- `round(x, 4)` -/
  round4 : K → K
  /-- `int(round(x))` -/
  roundInt : K → Int
  /-- `int(x)` -/
  truncate : K → Int
  /-- `float(token)`, where it neither raises nor leaves the finite numbers. -/
  parse : String → Option K
  /-- `str(value)` of a number, a list or a dictionary. -/
  str : Json K → String

section Values
variable {K : Type u}

/-- `payload.get(key, default)` -/
def Obj.getOr (payload : Obj K) (key : String) (default : Json K) : Json K :=
  (List.lookup key payload).getD default

/-- `payload.get(key)` -/
def Obj.get (payload : Obj K) (key : String) : Json K :=
  payload.getOr key .null

/-- `value if isinstance(value, dict) else {}` -/
def Json.dict : Json K → Obj K
  | .obj fields => fields
  | _ => []

def optional : Option K → Json K
  | none => .null
  | some value => .float value

variable [Field K] [LinearOrder K] [Floats K]

/-- `_as_float` -/
def asFloat : Json K → Option K
  | .int value => some value
  | .float value => some value
  | .str value => if strip value = "" then none else Floats.parse (strip value)
  | _ => none

def Json.truthy : Json K → Bool
  | .null => false
  | .bool value => value
  | .int value => decide (value ≠ 0)
  | .float value => decide (value ≠ 0)
  | .str value => decide (value ≠ "")
  | .arr items => !items.isEmpty
  | .obj fields => !fields.isEmpty

/-- `str(value)` -/
def pyStr : Json K → String
  | .null => "None"
  | .bool true => "True"
  | .bool false => "False"
  | .str value => value
  | value => Floats.str value

/-- `str(value or "").strip().lower()` -/
def token (value : Json K) : String :=
  if value.truthy then normalizeKey (pyStr value) else ""

end Values

/-- `text.startswith(start)` -/
def startsWith (text start : String) : Bool :=
  start.toList.isPrefixOf text.toList

/-- `part in token` -/
def contains (token part : String) : Bool :=
  token.toList.tails.any part.toList.isPrefixOf

/-! ### Phases and points -/

structure Phases (K : Type u) where
  totalSec : K
  autoSec : K
  teleopSec : K
  endgameSec : K
  teleopActiveHubSec : K

structure ScoringPoints (K : Type u) where
  autoLevel1Climb : K
  lowClimb : K
  midClimb : K
  highClimb : K

structure Context (K : Type u) where
  phases : Phases K
  scoringPoints : ScoringPoints K

/-- What `load_game_config` reads of the game's configuration file. -/
structure GameConfig (K : Type u) where
  totalSec : K
  autoSec : K
  teleopSec : K
  endgameSec : K
  /-- Key and points of each scoring action. -/
  scoringActions : List (String × Option K)

def rebuiltSeasonYear : Int := 2026

section Durations
variable {K : Type u} [Field K] [LinearOrder K]

def rebuiltActiveHubDurationSec (autoSec teleopSec endgameSec : K) (grace : Bool) : K :=
  let autoEnd := max 0 autoSec
  let teleop := max 0 teleopSec
  let totalSec := max autoEnd (autoEnd + teleop)
  let endgameStart := max autoEnd (totalSec - max 0 endgameSec)
  let transitionEnd := min endgameStart (autoEnd + 10)
  let shiftBand := max 0 (endgameStart - transitionEnd)
  let activeShiftDuration := max 0 (shiftBand * (1 / 2))
  let endgameDuration := max 0 (totalSec - endgameStart)
  let duration := max 1 ((transitionEnd - autoEnd) + activeShiftDuration + endgameDuration)
  max 1 (if grace then duration + 3 * 3 else duration)

/-- `x or y` of two numbers. -/
def orNumber (x y : K) : K :=
  if x = 0 then y else x

def rebuiltActiveHubDurationFromPhases (autoSec teleopSec endgameSec : K) (grace : Bool) : K :=
  rebuiltActiveHubDurationSec (orNumber autoSec 20) (orNumber teleopSec 140)
    (orNumber endgameSec 30) grace

def defaultScoringPoints : ScoringPoints K := ⟨15, 10, 20, 30⟩

/-- One scoring action of the configuration. -/
def ScoringPoints.set (points : ScoringPoints K) : String × Option K → ScoringPoints K
  | (key, some value) =>
      if key = "auto_level1_climb" then { points with autoLevel1Climb := value }
      else if key = "low_climb" then { points with lowClimb := value }
      else if key = "mid_climb" then { points with midClimb := value }
      else if key = "high_climb" then { points with highClimb := value }
      else points
  | (_, none) => points

def phasesOf (totalSec autoSec teleopSec endgameSec : K) : Phases K :=
  ⟨totalSec, autoSec, teleopSec, endgameSec,
    rebuiltActiveHubDurationFromPhases autoSec teleopSec endgameSec true⟩

/-- `_truth_context`; `none` when the configuration cannot be loaded. -/
def truthContext : Option (GameConfig K) → Context K
  | none => ⟨phasesOf 160 20 140 30, defaultScoringPoints⟩
  | some config =>
      ⟨phasesOf config.totalSec config.autoSec config.teleopSec config.endgameSec,
        config.scoringActions.foldl ScoringPoints.set defaultScoringPoints⟩

end Durations

/-! ### Small helpers -/

section Shares
variable {K : Type u} [Field K] [LinearOrder K]

/-- A dictionary of team keys with a number for some of them. -/
abbrev TeamNumbers (K : Type u) := String → Option K

/-- `_coalesce_float` -/
def coalesceFloat (values : List (Option K)) : Option K :=
  values.findSome? id

/-- `_sum_optional` -/
def sumOptional (values : List (Option K)) : Option K :=
  if (values.filterMap id).isEmpty then none else some (values.filterMap id).sum

/-- `_sum_dict_keys` -/
def sumDictKeys [Floats K] (data : Obj K) (keys : List String) : Option K :=
  sumOptional (keys.map fun key => asFloat (data.get key))

/-- `_share_evenly` -/
def shareEvenly (value : Option K) (slots : Nat) : List K :=
  match value with
  | none => List.replicate slots 0
  | some value => List.replicate slots (value / slots)

/-- A team's weight in `_share_weighted`. -/
def weightOf (teamWeightByKey : TeamNumbers K) (key : String) : K :=
  match teamWeightByKey key with
  | some weight => if 0 < weight then max (8 / 100) weight else 1
  | none => 1

/-- `_share_weighted` -/
def shareWeighted (value : Option K) (keys : List String) (teamWeightByKey : TeamNumbers K) :
    List K :=
  match value with
  | none => List.replicate keys.length 0
  | some total =>
      let weights := keys.map (weightOf teamWeightByKey)
      if weights.sum ≤ 0 then shareEvenly value keys.length
      else weights.map fun weight => total * (weight / weights.sum)

variable [Floats K]

/-- `_first_non_null` -/
def firstNonNull (mapping : Obj K) (keys : List String) : Json K :=
  match keys with
  | [] => .null
  | key :: rest =>
      match mapping.get key with
      | .null => firstNonNull mapping rest
      | value => value

/-- `_is_yes` -/
def isYes (value : Json K) : Bool :=
  token value ∈ ["yes", "true", "1"]

/-- `_tower_points_from_status` -/
def towerPointsFromStatus (status : Json K) (autoPhase : Bool) (points : ScoringPoints K) : K :=
  let text := token status
  if text ∈ ["", "none", "no", "unknown"] then 0
  else if contains text "level3" ∨ contains text "deep" ∨ contains text "travers" ∨
      text = "high" then points.highClimb
  else if contains text "level2" ∨ contains text "shallow" ∨ text = "mid" then points.midClimb
  else if contains text "level1" then
    if autoPhase then points.autoLevel1Climb else points.lowClimb
  else if contains text "park" ∨ text = "low" then points.lowClimb * (1 / 4)
  else 0

/-- `_reefscape_endgame_points_2025` -/
def reefscapeEndgamePoints2025 (status : Json K) : K :=
  let text := token status
  if text = "deepcage" then 12
  else if text = "shallowcage" then 6
  else if text = "parked" then 2
  else 0

end Shares

/-! ### The parsers -/

/-- The official row of one robot in one match. -/
structure TruthRow (K : Type u) where
  teamKey : String
  alliance : String
  station : String
  autoPoints : Option K
  teleopPoints : K
  teleopScoreCount : Option K
  climbPoints : K
  climbSuccess : Bool
  status : Obj K

section Parsers
variable {K : Type u} [Field K] [LinearOrder K] [Floats K]

/-- `f"{alliance[0]}{idx}"`, where robots count from one. -/
def stationOf (alliance : String) (idx : Nat) : String :=
  String.ofList (alliance.toList.take 1 ++ Nat.toDigits 10 (idx + 1))

/-- `f"{name}{idx}"` -/
def robotField (name : String) (idx : Nat) : String :=
  name ++ String.ofList (Nat.toDigits 10 (idx + 1))

/-- `hubScore` of a 2026 breakdown. -/
def hubScore (breakdown : Obj K) : Obj K :=
  (breakdown.get "hubScore").dict

/-- `total - part` where both are known, else `total`. -/
def lessPart (total part : Option K) : Option K :=
  match total, part with
  | some total, some part => some (total - part)
  | total, _ => total

def hubAutoPoints (breakdown : Obj K) : Option K :=
  coalesceFloat [asFloat ((hubScore breakdown).get "autoPoints"),
    lessPart (asFloat (breakdown.get "totalAutoPoints")) (asFloat (breakdown.get "autoTowerPoints"))]

def hubShiftPoints (breakdown : Obj K) : Option K :=
  sumDictKeys (hubScore breakdown)
    ["shift1Points", "shift2Points", "shift3Points", "shift4Points", "transitionPoints",
      "endgamePoints"]

def hubShiftCounts (breakdown : Obj K) : Option K :=
  sumDictKeys (hubScore breakdown)
    ["shift1Count", "shift2Count", "shift3Count", "shift4Count", "transitionCount",
      "endgameCount"]

/-- `total_teleop_points` of a 2026 breakdown. -/
def teleopPoints2026 (breakdown : Obj K) : Option K :=
  coalesceFloat [asFloat ((hubScore breakdown).get "teleopPoints"), hubShiftPoints breakdown,
    lessPart (asFloat (breakdown.get "totalTeleopPoints"))
      (asFloat (breakdown.get "endGameTowerPoints"))]

/-- `total_teleop_count` of a 2026 breakdown, and whether it was capped to the points. -/
def teleopCount2026 (breakdown : Obj K) : Option K × Bool :=
  let count := coalesceFloat [asFloat ((hubScore breakdown).get "teleopCount"),
    hubShiftCounts breakdown, asFloat ((hubScore breakdown).get "totalCount")]
  match count, teleopPoints2026 breakdown with
  | some c, some points =>
      if 0 < points ∧ points * (105 / 100) < c then (some points, true) else (some c, false)
  | count, _ => (count, false)

/-- Each robot's part of the alliance's auto fuel, when every robot has an estimate. -/
def autoPointsByTeam (teamKeys : List String) (hubAuto : Option K)
    (autoFuelCoprByTeam : Option (TeamNumbers K)) : Option (List K) :=
  match hubAuto, autoFuelCoprByTeam with
  | some hubAuto, some coprs =>
      let weights := teamKeys.map fun key => max 0 ((coprs key).getD 0)
      if (teamKeys.all fun key => (coprs key).isSome) ∧ 0 < weights.sum then
        some (weights.map fun weight => hubAuto * weight / weights.sum)
      else none
  | _, _ => none

/-- `teleop_allocation` of a 2026 row. -/
def teleopAllocation (teamKeys : List String) (teamWeightByKey : TeamNumbers K) : String :=
  if teamKeys.any fun key => decide ((teamWeightByKey key).getD 0 ≠ 0) then "weighted_team_prior"
  else "equal_split"

/-- `_parse_2026_alliance_truth` -/
def parse2026AllianceTruth (teamKeys : List String) (alliance : String) (breakdown : Obj K)
    (context : Context K) (teamWeightByKey : TeamNumbers K)
    (autoFuelCoprByTeam : Option (TeamNumbers K)) : List (TruthRow K) :=
  let hubAuto := hubAutoPoints breakdown
  let (totalCount, capped) := teleopCount2026 breakdown
  let autoByTeam := autoPointsByTeam teamKeys hubAuto autoFuelCoprByTeam
  let pointsByTeam := shareWeighted (teleopPoints2026 breakdown) teamKeys teamWeightByKey
  let countByTeam := if totalCount.isSome then shareWeighted totalCount teamKeys teamWeightByKey
    else []
  teamKeys.zipIdx.map fun (teamKey, idx) =>
    let autoStatus := firstNonNull breakdown
      (["autoTowerRobot", "autoRobot", "autoLineRobot", "autoMobilityRobot"].map
        (robotField · idx))
    let endgameStatus := firstNonNull breakdown
      (["endGameTowerRobot", "endGameRobot", "endgameRobot", "endGameCageRobot",
        "endGameHangarRobot"].map (robotField · idx))
    let autoTowerPoints := towerPointsFromStatus autoStatus true context.scoringPoints
    { teamKey
      alliance
      station := stationOf alliance idx
      autoPoints := match autoByTeam with
        | some byTeam => some (max 0 (byTeam.getD idx 0 + autoTowerPoints))
        | none => if hubAuto = some 0 then some autoTowerPoints else none
      teleopPoints := max 0 (pointsByTeam.getD idx 0)
      teleopScoreCount := countByTeam[idx]?
      climbPoints := towerPointsFromStatus endgameStatus false context.scoringPoints
      climbSuccess := token endgameStatus ∉ ["", "none", "no", "unknown", "null"]
      status := [("auto_tower", autoStatus), ("endgame_tower", endgameStatus),
        ("hub_shift_points", optional (hubShiftPoints breakdown)),
        ("hub_shift_counts", optional (hubShiftCounts breakdown)),
        ("teleop_count_capped_to_points", .bool capped),
        ("auto_allocation", .str (if autoByTeam.isSome then "event_auto_fuel_copr"
          else if hubAuto = some 0 then "no_hub_fuel" else "unknown")),
        ("teleop_allocation", .str (teleopAllocation teamKeys teamWeightByKey))] }

/-- `_parse_2025_alliance_truth` -/
def parse2025AllianceTruth (teamKeys : List String) (alliance : String) (breakdown : Obj K)
    (teamWeightByKey : TeamNumbers K) : List (TruthRow K) :=
  let teleopCount := sumOptional [asFloat (breakdown.get "teleopCoralCount"),
    asFloat (breakdown.get "netAlgaeCount"), asFloat (breakdown.get "wallAlgaeCount")]
  let lineFlags := (List.range teamKeys.length).map fun idx =>
    isYes (breakdown.get (robotField "autoLineRobot" idx))
  let mobilityPointsIfYes :=
    (asFloat (breakdown.get "autoMobilityPoints")).getD 0 / (max 1 (lineFlags.count true) : Nat)
  let autoCoralShare := (asFloat (breakdown.get "autoCoralPoints")).getD 0 / teamKeys.length
  let pointsByTeam := shareWeighted (some ((asFloat (breakdown.get "teleopPoints")).getD 0))
    teamKeys teamWeightByKey
  let countByTeam := if teleopCount.isSome then shareWeighted teleopCount teamKeys teamWeightByKey
    else []
  teamKeys.zipIdx.map fun (teamKey, idx) =>
    let endgameStatus := breakdown.get (robotField "endGameRobot" idx)
    let line := lineFlags.getD idx false
    { teamKey
      alliance
      station := stationOf alliance idx
      autoPoints := some (max 0 (autoCoralShare + if line then mobilityPointsIfYes else 0))
      teleopPoints := max 0 (pointsByTeam.getD idx 0)
      teleopScoreCount := countByTeam[idx]?
      climbPoints := reefscapeEndgamePoints2025 endgameStatus
      climbSuccess := token endgameStatus ∈ ["deepcage", "shallowcage"]
      status := [("auto_line", .str (if line then "Yes" else "No")), ("endgame", endgameStatus)] }

/-- `_parse_generic_alliance_truth` -/
def parseGenericAllianceTruth (teamKeys : List String) (alliance : String) (breakdown : Obj K)
    (context : Context K) (teamWeightByKey : TeamNumbers K) : List (TruthRow K) :=
  let autoByTeam := shareEvenly (coalesceFloat [asFloat (breakdown.get "totalAutoPoints"),
    asFloat (breakdown.get "autoPoints")]) teamKeys.length
  let pointsByTeam := shareWeighted (coalesceFloat [asFloat (breakdown.get "totalTeleopPoints"),
    asFloat (breakdown.get "teleopPoints")]) teamKeys teamWeightByKey
  teamKeys.zipIdx.map fun (teamKey, idx) =>
    let endgameStatus := firstNonNull breakdown
      (["endGameRobot", "endgameRobot"].map (robotField · idx))
    let climbPoints := towerPointsFromStatus endgameStatus false context.scoringPoints
    { teamKey
      alliance
      station := stationOf alliance idx
      autoPoints := some (max 0 (autoByTeam.getD idx 0))
      teleopPoints := max 0 (pointsByTeam.getD idx 0)
      teleopScoreCount := none
      climbPoints
      climbSuccess := 0 < climbPoints ∧ ¬ contains (token endgameStatus) "park"
      status := [("endgame", endgameStatus)] }

end Parsers

/-! ### A match's rows -/

/-- An alliance of a match payload. -/
structure AlliancePayload (K : Type u) where
  score : Json K
  teamKeys : List String
  surrogateTeamKeys : List String
  dqTeamKeys : List String

/-- A match as the event's match list brings it. `none` where the payload has no object. -/
structure MatchPayload (K : Type u) where
  key : String
  compLevel : String
  setNumber : Int
  matchNumber : Int
  time : Json K
  predictedTime : Json K
  actualTime : Json K
  winningAlliance : Json K
  alliances : Option (String → Option (AlliancePayload K))
  scoreBreakdown : Option (String → Option (Obj K))

section Matches
variable {K : Type u}

/-- `(match.get("alliances") or {}).get(alliance)` -/
def MatchPayload.alliance? (m : MatchPayload K) (alliance : String) :
    Option (AlliancePayload K) :=
  m.alliances.bind (· alliance)

variable [Field K] [LinearOrder K] [Floats K]

/-- The rows of one alliance, by the season's rules. -/
def parseAllianceTruth (seasonYear : Int) (teamKeys : List String) (alliance : String)
    (breakdown : Obj K) (context : Context K) (teamWeightByKey : TeamNumbers K)
    (autoFuelCoprByTeam : Option (TeamNumbers K)) : List (TruthRow K) :=
  if seasonYear = rebuiltSeasonYear then
    parse2026AllianceTruth teamKeys alliance breakdown context teamWeightByKey autoFuelCoprByTeam
  else if seasonYear = 2025 then
    parse2025AllianceTruth teamKeys alliance breakdown teamWeightByKey
  else parseGenericAllianceTruth teamKeys alliance breakdown context teamWeightByKey

/-- `_extract_score_breakdown_truth_rows`, after its check of the season. -/
def extractScoreBreakdownTruthRows (m : MatchPayload K) (seasonYear : Int) (context : Context K)
    (teamWeightByKey : TeamNumbers K) (autoFuelCoprByTeam : Option (TeamNumbers K)) :
    List (TruthRow K) :=
  match m.alliances, m.scoreBreakdown with
  | some alliances, some breakdowns =>
      ["red", "blue"].flatMap fun alliance =>
        match alliances alliance, breakdowns alliance with
        | some payload, some breakdown =>
            parseAllianceTruth seasonYear (payload.teamKeys.filter (· ≠ "")) alliance breakdown
              context teamWeightByKey autoFuelCoprByTeam
        | _, _ => []
  | _, _ => []

end Matches

/-! ### Rational numbers as floats -/

/-- `x ** 0.4` rounded down to four places: the digits are found bit by bit. -/
def powTwoFifthsDown (x : ℚ) : ℚ :=
  ((List.range 21).reverse.foldl (fun (n : ℕ) (bit : ℕ) =>
    if ((n + 2 ^ bit : ℕ) / 10 ^ 4 : ℚ) ^ 5 ≤ x ^ 2 then n + 2 ^ bit else n) 0 : ℕ) / 10 ^ 4

instance : Floats ℚ where
  powTwoFifths := powTwoFifthsDown
  round4 := Rounding.roundTo 4
  roundInt := Rounding.roundHalfEven
  truncate x := if 0 ≤ x then ⌊x⌋ else ⌈x⌉
  parse token := token.toInt?.map fun n => (n : ℚ)
  str
    | .int n => toString n
    | .float x => toString x
    | _ => ""

end Frcmob.Official
