import Frcmob.Lib.Table
import Mathlib.Algebra.Order.Ring.Rat

/-!
The stored phase windows of a match: `services/phase_windows.py`, with the seconds as whole
numbers. The windows of the 2026 game have a transition and four shifts besides the four phases
of every season.
-/

namespace Frcmob.Phases

/-- With what its validators check. -/
structure MatchPhases where
  totalSec : Int
  autoSec : Int
  teleopSec : Int
  endgameSec : Int
  positive : 0 < totalSec ∧ 0 < autoSec ∧ 0 < teleopSec ∧ 0 < endgameSec
  timing : autoSec + teleopSec = totalSec
  endgame : endgameSec ≤ teleopSec

structure GameConfig where
  seasonYear : Int
  version : String
  phases : MatchPhases

structure Match where
  matchKey : String
  eventKey : String
  time : Option Int
deriving DecidableEq

def rebuiltSeasonYear : Int := 2026
def rebuiltTransitionShiftSec : Int := 10
def rebuiltAllianceShiftSec : Int := 25
def rebuiltAllianceShiftCount : Nat := 4
def rebuiltEndgameWindowSec : Int := 30
def phaseModelVersion : String := "phase_v1"

/-! ### Computing the windows -/

structure Window where
  startSec : Int
  endSec : Int
  durationSec : Int
  startUnix : Option Int
  endUnix : Option Int
deriving DecidableEq

def window (startSec endSec : Int) (matchTime : Option Int) : Window where
  startSec := startSec
  endSec := endSec
  durationSec := max 0 (endSec - startSec)
  startUnix := matchTime.map (· + startSec)
  endUnix := matchTime.map (· + endSec)

/-- A shift is named by its index, a stored window has a confidence. -/
structure PhaseWindow extends Window where
  shiftIndex : Option Nat
  activeAllianceHint : Option String
  confidence : Option ℚ

def PhaseWindow.plain (w : Window) : PhaseWindow :=
  { w with shiftIndex := none, activeAllianceHint := none, confidence := none }

def MatchPhases.endgameStartSec (phases : MatchPhases) : Int :=
  max phases.autoSec (phases.totalSec - phases.endgameSec)

/-- The windows of every season. -/
def standardWindows (phases : MatchPhases) (matchTime : Option Int) : List (String × PhaseWindow) :=
  [("auto", .plain (window 0 phases.autoSec matchTime)),
    ("teleop", .plain (window phases.autoSec phases.totalSec matchTime)),
    ("teleop_scoring", .plain (window phases.autoSec phases.endgameStartSec matchTime)),
    ("endgame", .plain (window phases.endgameStartSec phases.totalSec matchTime))]

def shiftActiveAlliance (shiftIndex : Nat) (shift1ActiveAlliance : Option String) : Option String :=
  if shift1ActiveAlliance = some "red" ∨ shift1ActiveAlliance = some "blue" then
    if shiftIndex % 2 = 1 then shift1ActiveAlliance
    else if shift1ActiveAlliance = some "red" then some "blue" else some "red"
  else none

def shiftWindows (endgameStartSec : Int) (matchTime : Option Int) :
    Int → List Nat → List (String × PhaseWindow)
  | _, [] => []
  | shiftCursor, shiftIdx :: rest =>
      let shiftEnd := min (shiftCursor + rebuiltAllianceShiftSec) endgameStartSec
      ("shift_" ++ toString shiftIdx,
        { window shiftCursor shiftEnd matchTime with
          shiftIndex := some shiftIdx
          activeAllianceHint := shiftActiveAlliance shiftIdx none
          confidence := none }) :: shiftWindows endgameStartSec matchTime shiftEnd rest

/-- The windows that only the 2026 game has. -/
def rebuiltWindows (phases : MatchPhases) (matchTime : Option Int) : List (String × PhaseWindow) :=
  let transitionEnd := min phases.endgameStartSec (phases.autoSec + rebuiltTransitionShiftSec)
  ("transition", .plain (window phases.autoSec transitionEnd matchTime)) ::
    shiftWindows phases.endgameStartSec matchTime transitionEnd
      (List.range' 1 rebuiltAllianceShiftCount)

structure RebuiltTiming where
  transitionSec : Int
  allianceShiftSec : Int
  allianceShiftCount : Nat
  endgameWindowSec : Int

/-- `params_payload`, which the match time is no part of. -/
structure Params where
  seasonYear : Int
  version : String
  totalSec : Int
  autoSec : Int
  teleopSec : Int
  endgameSec : Int
  rebuilt : Option RebuiltTiming
  windowKeys : List String

structure Payload where
  source : String
  modelVersion : String
  configSeason : Int
  configVersion : String
  totalSec : Int
  windows : List (String × PhaseWindow)
  paramsHash : String

/-- The two ways to compute differ in the windows and in the timing of their hash. -/
def payload (stablePayloadHash : Params → String) (config : GameConfig)
    (windows : List (String × PhaseWindow)) (rebuilt : Option RebuiltTiming) : Payload where
  source := "game_config"
  modelVersion := phaseModelVersion
  configSeason := config.seasonYear
  configVersion := config.version
  totalSec := config.phases.totalSec
  windows := windows
  paramsHash := stablePayloadHash {
    seasonYear := config.seasonYear
    version := config.version
    totalSec := config.phases.totalSec
    autoSec := config.phases.autoSec
    teleopSec := config.phases.teleopSec
    endgameSec := config.phases.endgameSec
    rebuilt := rebuilt
    windowKeys := (windows.map Prod.fst).mergeSort }

def computeRebuiltPhaseWindowsPayload (stablePayloadHash : Params → String) (matchTime : Option Int)
    (config : GameConfig) : Payload :=
  payload stablePayloadHash config
    (standardWindows config.phases matchTime ++ rebuiltWindows config.phases matchTime)
    (some {
      transitionSec := rebuiltTransitionShiftSec
      allianceShiftSec := rebuiltAllianceShiftSec
      allianceShiftCount := rebuiltAllianceShiftCount
      endgameWindowSec := rebuiltEndgameWindowSec })

def requireKnownSeasonRules (year : Int) (feature : String) : Except String Unit :=
  if rebuiltSeasonYear < year then
    .error (feature ++ " has no rules adapter for season " ++ toString year ++
      "; latest supported season is " ++ toString rebuiltSeasonYear)
  else .ok ()

def computePhaseWindowsPayload (stablePayloadHash : Params → String) (config : GameConfig)
    (matchTime : Option Int) : Except String Payload := do
  requireKnownSeasonRules config.seasonYear "phase-window computation"
  if config.seasonYear = rebuiltSeasonYear then
    return computeRebuiltPhaseWindowsPayload stablePayloadHash matchTime config
  else
    return payload stablePayloadHash config (standardWindows config.phases matchTime) none

/-! ### The stored rows -/

structure Row extends Window where
  matchKey : String
  phaseKey : String
  modelVersion : String
  eventKey : String
  source : String
  confidence : ℚ
  paramsHash : String
  computedAt : Nat

def Row.key (row : Row) : String × String × String :=
  (row.matchKey, row.phaseKey, row.modelVersion)

abbrev Rows := Table Row.key

def rowsOf (rows : Rows) (matchKey : String) : List Row :=
  rows.rows.filter fun row => row.matchKey = matchKey ∧ row.modelVersion = phaseModelVersion

def toRow (m : Match) (p : Payload) (confidence : ℚ) (now : Nat) (phase : String × PhaseWindow) :
    Row :=
  { phase.2.toWindow with
    matchKey := m.matchKey
    phaseKey := phase.1
    modelVersion := phaseModelVersion
    eventKey := m.eventKey
    source := p.source
    confidence := max 0 (min 1 confidence)
    paramsHash := p.paramsHash
    computedAt := now }

section
variable (stablePayloadHash : Params → String) (config : GameConfig)

def upsertMatchPhaseWindows (rows : Rows) (m : Match) (source : String) (confidence : ℚ)
    (force : Bool) (now : Nat) : Except String (Payload × Rows) := do
  let computed ← computePhaseWindowsPayload stablePayloadHash config m.time
  let p := { computed with source := source }
  let existingRows := rowsOf rows m.matchKey
  if !force && !existingRows.isEmpty && existingRows.all (·.paramsHash = p.paramsHash) then
    return (p, rows)
  else
    return (p, rows.putAll (p.windows.map (toRow m p confidence now)))

def latestRow (first : Row) (rows : List Row) : Row :=
  rows.foldl (fun latest row => if latest.computedAt < row.computedAt then row else latest) first

def byPhase (row : Row) : String × PhaseWindow :=
  (row.phaseKey, { row.toWindow with
    shiftIndex := none, activeAllianceHint := none, confidence := some row.confidence })

/-- What is stored is returned without a look at its hash. -/
def getOrComputeMatchPhaseWindows (rows : Rows) (m : Match) (refresh : Bool) (now : Nat) :
    Except String (Payload × Rows) :=
  match refresh, rowsOf rows m.matchKey with
  | true, _ | false, [] =>
      upsertMatchPhaseWindows stablePayloadHash config rows m "game_config" (9 / 10) true now
  | false, first :: rest =>
      let windows := (first :: rest).map byPhase
      let latest := latestRow first (first :: rest)
      .ok ({
        source := latest.source
        modelVersion := phaseModelVersion
        configSeason := config.seasonYear
        configVersion := config.version
        totalSec := ((windows.lookup "teleop").map (·.endSec)).getD config.phases.totalSec
        windows := windows
        paramsHash := latest.paramsHash }, rows)

end

end Frcmob.Phases
