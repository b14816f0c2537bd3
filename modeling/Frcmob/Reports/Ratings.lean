import Frcmob.Lib.Fixed
import Frcmob.Reports.Normalized

/-!
The ratings that a report's form and points give: `driverCompetency`, `manualScoutingRating` and
`overallScoutRating` of `scoutingPage.helpers.ts` in exact arithmetic. `exp` is `Math.exp`.
-/

namespace Frcmob.ScoutReport

open Js (Str units toFixed)

/-! ### Numbers in a range -/

def clampNumber (value low high : ℚ) : ℚ :=
  max low (min high value)

@[ext]
structure UpTo (top : ℕ) where
  val : ℚ
  nonneg : 0 ≤ val
  le_top : val ≤ top

/-- Cut to `digits` decimals. -/
@[ext]
structure Fixed (digits : ℕ) where
  val : ℚ
  fixed : toFixed digits val = val

@[ext]
structure Score (top digits : ℕ) extends UpTo top where
  fixed : toFixed digits val = val

def Fixed.of (digits : ℕ) (value : ℚ) : Fixed digits :=
  ⟨toFixed digits value, Js.toFixed_toFixed digits value⟩

theorem Fixed.of_val {digits : ℕ} (x : Fixed digits) : of digits x.val = x :=
  Fixed.ext x.fixed

namespace UpTo
variable {top : ℕ}

/-- `clampNumber(value, 0, top)` -/
def clamp (top : ℕ) (value : ℚ) : UpTo top :=
  ⟨clampNumber value 0 top, le_max_left _ _, max_le top.cast_nonneg (min_le_left _ _)⟩

theorem clamp_val (x : UpTo top) : clamp top x.val = x := by
  apply UpTo.ext
  change max 0 (min (top : ℚ) x.val) = x.val
  rw [min_eq_right x.le_top, max_eq_right x.nonneg]

/-- `Number(x.toFixed(digits))` -/
def cut (x : UpTo top) (digits : ℕ) : Score top digits where
  val := toFixed digits x.val
  nonneg := (Js.toFixed_mem digits ⟨x.nonneg, x.le_top⟩).1
  le_top := (Js.toFixed_mem digits ⟨x.nonneg, x.le_top⟩).2
  fixed := Js.toFixed_toFixed digits x.val

theorem cut_clamp_val {digits : ℕ} (x : Score top digits) : (clamp top x.val).cut digits = x := by
  rw [clamp_val]
  exact Score.ext x.fixed

/-- `x * 100` -/
def percent (x : UpTo 1) : UpTo 100 where
  val := x.val * 100
  nonneg := mul_nonneg x.nonneg (by norm_num)
  le_top := by
    have hle := x.le_top
    push_cast at hle ⊢
    linarith

/-- `Math.round(x)` -/
def round (x : UpTo top) (digits : ℕ) : Score top digits where
  val := wholeNumber (x.val + 1 / 2)
  nonneg := Nat.cast_nonneg _
  le_top := by
    have hle := x.le_top
    rw [wholeNumber, Nat.cast_le, Int.toNat_le, ← Int.lt_add_one_iff, Int.floor_lt]
    push_cast
    linarith
  fixed := Js.toFixed_natCast digits _

end UpTo

/-! ### Signals -/

def pushUnique (list : List Str) (value : Str) : List Str :=
  if value ∈ list then list else list ++ [value]

/-- The texts whose test holds, or the one text for none. -/
def remarks (tests : List (Bool × String)) (otherwise : String) : List Str :=
  let list := tests.foldl (fun list test =>
    if test.1 then pushUnique list (units test.2) else list) []
  if list = [] then pushUnique list (units otherwise) else list

def safeRatio (numerator denominator fallback : ℚ) : ℚ :=
  if denominator ≤ 0 then fallback else numerator / denominator

section
variable (exp : ℚ → ℚ)

def logistic01 (value midpoint steepness : ℚ) : ℚ :=
  let scale := max 0.0001 steepness
  1 / (1 + exp (-(value - midpoint) / scale))

def sampleEvidenceConfidence (observations midpoint steepness : ℚ) : ℚ :=
  clampNumber (logistic01 exp (max 0 observations) midpoint steepness) 0 1

end

def bayesianRate (successes attempts priorMean priorStrength : ℚ) : ℚ :=
  let safeAttempts := max 0 attempts
  let safeSuccesses := clampNumber successes 0 safeAttempts
  let alpha := clampNumber priorMean 0.01 0.99 * max 1 priorStrength
  let beta := (1 - clampNumber priorMean 0.01 0.99) * max 1 priorStrength
  (safeSuccesses + alpha) / max 1 (safeAttempts + alpha + beta)

/-- `clampNumber(((level ?? 3) - 1) / 4, 0, 1)` -/
def gradeSignal (level : Option Level) : ℚ :=
  clampNumber (((level.elim 3 Level.val : Int) - 1) / 4) 0 1

/-- `Number(flag)` -/
def ofFlag (flag : Bool) : ℚ :=
  if flag then 1 else 0

def normalizeScoreTier (score : ℚ) : Str :=
  if 88 ≤ score then units "Elite"
  else if 76 ≤ score then units "Strong"
  else if 62 ≤ score then units "Solid"
  else if 48 ≤ score then units "Developing"
  else units "At Risk"

/-! ### Drivers -/

def endgameDriverFactor : EndgameMode → ℚ
  | .none => 0.24
  | .keptScoring => 0.52
  | .parked => 0.58
  | .climbLevel1 => 0.72
  | .climbLevel2 => 0.86
  | .climbLevel3 => 1

inductive DriverPart
  | teleopVolume
  | teleopAccuracy
  | offense
  | defense
  | endgame
  | discipline
deriving DecidableEq

structure DriverCompetency where
  score : UpTo 100
  level : Level
  tier : Str
  breakdown : DriverPart → UpTo 1

theorem levels_on_scale : ∀ n ∈ [(1 : Int), 2, 3, 4, 5], 1 ≤ n ∧ n ≤ 5 := by decide

def Level.of (n : Int) (h : n ∈ [(1 : Int), 2, 3, 4, 5]) : Level where
  val := n
  one_le := (levels_on_scale n h).1
  le_five := (levels_on_scale n h).2

/-- The level of a score and its tier. -/
def driverLevel (score : ℚ) : Level × String :=
  if 88 ≤ score then (.of 5 (by simp), "Elite")
  else if 74 ≤ score then (.of 4 (by simp), "Strong")
  else if 60 ≤ score then (.of 3 (by simp), "Solid")
  else if 46 ≤ score then (.of 2 (by simp), "Developing")
  else (.of 1 (by simp), "Struggling")

def driverCompetency (exp : ℚ → ℚ) (form : ScoutForm) : DriverCompetency :=
  let count (c : Count) : ℚ := form.count c
  let teleopAttempts := count .teleopScored + count .teleopMissed
  let teleopEvidence := sampleEvidenceConfidence exp teleopAttempts 8 2.4
  let teleopAccuracy := clampNumber (bayesianRate (count .teleopScored) teleopAttempts 0.57 7) 0 1
  let defendedAttempts := count .teleopUnderDefenseAttempts
  let defendedEvidence := sampleEvidenceConfidence exp defendedAttempts 5 1.9
  let defendedAccuracy := clampNumber
    (bayesianRate (count .teleopUnderDefenseScored) defendedAttempts teleopAccuracy 5) 0 1
  let teleopVolume := clampNumber
    (0.5 * logistic01 exp (count .teleopScored) 10.5 2.8 +
      0.34 * logistic01 exp (count .teleopCycles) 8.5 2.2 +
      0.16 * logistic01 exp (count .autoPickups + count .teleopCycles) 12 3.3) 0 1
  let cycleYield := safeRatio (count .teleopScored) (max 1 (count .teleopCycles)) 0.88
  let dropPressure := safeRatio (count .teleopDrops + count .intakeFailures * 0.85)
    (teleopAttempts + 4) 0.2
  let handlingEfficiency := clampNumber (1 - dropPressure * 1.35) 0 1
  let cycleEfficiency := clampNumber
    (0.58 * logistic01 exp cycleYield 1.28 0.28 + 0.42 * handlingEfficiency) 0 1
  let offenseSignal := gradeSignal (form.grade .offenseLevel)
  let defenseSignal := gradeSignal (form.grade .defenseLevel)
  let awarenessSignal := gradeSignal (form.grade .fieldAwareness)
  let decisionSignal := gradeSignal (form.grade .decisionQuality)
  let communicationSignal := gradeSignal (form.grade .communication)
  let tacticalSignal := clampNumber
    (0.28 * awarenessSignal + 0.28 * decisionSignal + 0.18 * communicationSignal +
      0.16 * offenseSignal + 0.1 * defenseSignal) 0 1
  let antiDefenseSignal := clampNumber
    (0.34 * gradeSignal (form.grade .antiDefenseLevel) +
      0.26 * gradeSignal (form.grade .escapeLevel) +
      0.2 * gradeSignal (form.grade .rerouteLevel) +
      0.2 * gradeSignal (form.grade .hitRecoveryLevel)) 0 1
  let defendedRetention := clampNumber (0.5 + (defendedAccuracy - teleopAccuracy) * 1.4) 0 1
  let laneMobilitySignal := clampNumber
    (0.52 * logistic01 exp (count .bumpCrosses + count .trenchCrosses) 7 2.5 +
      0.48 * antiDefenseSignal) 0 1
  let pressureSignal := clampNumber
    (0.46 * antiDefenseSignal + 0.34 * defendedRetention + 0.2 * laneMobilitySignal) 0 1
  let endgameSignal := clampNumber
    (endgameDriverFactor form.endgameMode * (if form.flag .climbedUnderPressure then 1.07 else 1) -
      ofFlag (form.flag .protectedZoneRisk) * 0.08) 0 1
  let foulPressure := safeRatio (count .foulCount) (max 1 (teleopAttempts / 6)) 0
  let disciplineSignal := clampNumber
    (1 - foulPressure * 0.24 - dropPressure * 0.52 -
      ofFlag (form.flag .protectedZoneRisk) * 0.16) 0 1
  let consistencySpread :=
    max teleopAccuracy (max defendedAccuracy (max cycleEfficiency
      (max tacticalSignal disciplineSignal))) -
    min teleopAccuracy (min defendedAccuracy (min cycleEfficiency
      (min tacticalSignal disciplineSignal)))
  let consistencySignal := clampNumber (1 - consistencySpread * 0.46) 0 1
  let evidenceSignal := clampNumber
    (0.44 * teleopEvidence + 0.24 * defendedEvidence +
      0.2 * sampleEvidenceConfidence exp (count .teleopCycles) 6 1.7 +
      0.12 * sampleEvidenceConfidence exp (count .autoScored + count .teleopScored) 10 2.8) 0 1
  let synergyBonus := clampNumber
    ((if 0.64 ≤ teleopVolume ∧ 0.6 ≤ teleopAccuracy then 0.038 else 0) +
      (if 0.63 ≤ pressureSignal ∧ 0.62 ≤ disciplineSignal then 0.032 else 0) +
      (if 0.68 ≤ tacticalSignal ∧ 0.63 ≤ cycleEfficiency then 0.028 else 0)) 0 0.12
  let volatilityPenalty := clampNumber
    ((if 0.72 ≤ teleopVolume ∧ teleopAccuracy ≤ 0.46 then 0.06 else 0) +
      (if 4 ≤ defendedAttempts ∧ pressureSignal ≤ 0.42 then 0.05 else 0) +
      (if disciplineSignal ≤ 0.45 then 0.04 else 0) +
      (if evidenceSignal ≤ 0.3 then 0.035 else 0)) 0 0.21
  let baselineScore01 := clampNumber
    (0.16 * teleopVolume + 0.17 * teleopAccuracy + 0.14 * cycleEfficiency +
      0.14 * pressureSignal + 0.13 * tacticalSignal + 0.1 * endgameSignal +
      0.08 * disciplineSignal + 0.05 * consistencySignal + 0.03 * laneMobilitySignal) 0 1
  let evidenceAdjustment := clampNumber ((evidenceSignal - 0.45) * 0.16) (-0.06) 0.07
  let score01 := clampNumber
    (baselineScore01 + synergyBonus - volatilityPenalty + evidenceAdjustment) 0 1
  let score := ((UpTo.clamp 1 score01).percent.round 0).toUpTo
  let level := driverLevel score.val
  { score := score
    level := level.1
    tier := units level.2
    breakdown part := (UpTo.clamp 1 (match part with
      | .teleopVolume => teleopVolume
      | .teleopAccuracy => teleopAccuracy
      | .offense => tacticalSignal
      | .defense => pressureSignal
      | .endgame => endgameSignal
      | .discipline => disciplineSignal)).cut 4 |>.toUpTo }

/-! ### Scouting -/

def maxEndgamePoints : ℕ :=
  ([EndgameMode.none, .keptScoring, .parked, .climbLevel1, .climbLevel2, .climbLevel3].map
    endgamePoints).foldl max 0

inductive ManualPart
  | auto
  | teleop
  | endgame
  | antiDefense
  | execution
  | discipline
deriving DecidableEq

structure ManualScoutingRating where
  score : Score 100 1
  tier : Str
  breakdown : ManualPart → UpTo 1
  pros : List Str
  cons : List Str

def manualScoutingRating (form : ScoutForm) (driverScore : DriverCompetency) :
    ManualScoutingRating :=
  let count (c : Count) : ℚ := form.count c
  let share (x : ℚ) : ℚ := clampNumber x 0 1
  let autoAttempts := count .autoScored + count .autoMissed
  let autoAccuracy := if 0 < autoAttempts then count .autoScored / autoAttempts else 0.5
  let autoSignal := share
    (0.34 * share (count .autoScored / 7) + 0.2 * autoAccuracy +
      0.2 * ofFlag (form.flag .autoMobility) + 0.14 * share (count .autoPickups / 4) +
      0.12 * gradeSignal (form.grade .autoPathQuality))
  let teleopAttempts := count .teleopScored + count .teleopMissed
  let teleopAccuracy := if 0 < teleopAttempts then count .teleopScored / teleopAttempts else 0.5
  let defendedAccuracy :=
    if 0 < count .teleopUnderDefenseAttempts then
      count .teleopUnderDefenseScored / max 1 (count .teleopUnderDefenseAttempts)
    else 0.5
  let teleopSignal := share
    (0.38 * share (count .teleopScored / 26) + 0.2 * teleopAccuracy +
      0.16 * share (count .teleopCycles / 12) + 0.18 * defendedAccuracy +
      0.08 * share (1 - count .teleopDrops * 0.08))
  let endgameSignal := share
    (0.78 * (endgamePoints form.endgameMode / maxEndgamePoints) +
      0.22 * ofFlag (form.flag .climbedUnderPressure))
  let antiDefenseSignal := share
    (0.26 * gradeSignal (form.grade .antiDefenseLevel) +
      0.2 * gradeSignal (form.grade .escapeLevel) +
      0.16 * gradeSignal (form.grade .rerouteLevel) +
      0.14 * gradeSignal (form.grade .hitRecoveryLevel) +
      0.1 * share (count .teleopUnderDefenseScored / 10) +
      0.08 * share (count .bumpCrosses / 12) + 0.06 * share (count .trenchCrosses / 12))
  let executionSignal := share
    (0.28 * gradeSignal (form.grade .offenseLevel) +
      0.18 * gradeSignal (form.grade .defenseLevel) +
      0.18 * gradeSignal (form.grade .fieldAwareness) +
      0.18 * gradeSignal (form.grade .decisionQuality) +
      0.08 * gradeSignal (form.grade .communication) + 0.1 * share (driverScore.score.val / 100))
  let disciplineSignal := share
    (1 - count .foulCount * 0.11 - count .teleopDrops * 0.035 - count .intakeFailures * 0.03 -
      ofFlag (form.flag .protectedZoneRisk) * 0.18)
  let score01 := 0.2 * autoSignal + 0.29 * teleopSignal + 0.16 * endgameSignal +
    0.17 * antiDefenseSignal + 0.12 * executionSignal + 0.06 * disciplineSignal
  let score := (UpTo.clamp 1 score01).percent.round 1
  { score := score
    tier := normalizeScoreTier score.val
    breakdown part := (UpTo.clamp 1 (match part with
      | .auto => autoSignal
      | .teleop => teleopSignal
      | .endgame => endgameSignal
      | .antiDefense => antiDefenseSignal
      | .execution => executionSignal
      | .discipline => disciplineSignal)).cut 4 |>.toUpTo
    pros := remarks
      [(0.68 ≤ autoSignal, "Strong autonomous consistency."),
        (0.72 ≤ teleopSignal, "High teleop production and efficiency."),
        (0.68 ≤ antiDefenseSignal, "Maintains output while under defense."),
        (0.75 ≤ endgameSignal, "Reliable endgame value under pressure."),
        (0.82 ≤ disciplineSignal, "Few fouls or handling problems.")]
      "No clear strength yet."
    cons := remarks
      [(autoSignal ≤ 0.4, "Autonomous output currently limited."),
        (teleopSignal ≤ 0.46, "Teleop scoring is slow or misses a lot."),
        (antiDefenseSignal ≤ 0.42, "Defense pressure causes meaningful drop-off."),
        (endgameSignal ≤ 0.38, "Endgame ceiling appears limited."),
        (disciplineSignal ≤ 0.46, "Penalties and handling errors add risk.")]
      "No major red flags in this scouting sample." }

/-! ### Overall -/

/-- `SCOUT_POINTS_SCALE` -/
structure PointsScale where
  midpoint : ℚ
  spread : ℚ

def autoScale : PointsScale := ⟨9, 5.5⟩
def teleopScale : PointsScale := ⟨28, 24⟩
def totalScale : PointsScale := ⟨37, 30⟩

inductive OverallPart
  | manual
  | driver
  | points
  | endgame
  | discipline
deriving DecidableEq

structure OverallScoutRating where
  score : Score 100 1
  tier : Str
  components : OverallPart → Fixed 2

def overallScoutRating (exp : ℚ → ℚ) (points : Points) (manualRating : ManualScoutingRating)
    (driverScore : DriverCompetency) : OverallScoutRating :=
  let share (x : ℚ) : ℚ := clampNumber x 0 1
  let manual (part : ManualPart) : ℚ := (manualRating.breakdown part).val
  let driver (part : DriverPart) : ℚ := (driverScore.breakdown part).val
  let manual01 := share (manualRating.score.val / 100)
  let driver01 := share (driverScore.score.val / 100)
  let autoPointsSignal := logistic01 exp points.auto autoScale.midpoint autoScale.spread
  let teleopPointsSignal := logistic01 exp points.teleop teleopScale.midpoint teleopScale.spread
  let endgamePointsSignal := share (points.endgame / max 1 maxEndgamePoints)
  let totalPointsSignal := logistic01 exp points.total totalScale.midpoint totalScale.spread
  let pointsSignal := share
    (0.42 * totalPointsSignal + 0.22 * teleopPointsSignal + 0.14 * autoPointsSignal +
      0.22 * endgamePointsSignal)
  let pressureSignal := share (0.56 * manual .antiDefense + 0.44 * driver .defense)
  let endgameSignal := share (0.58 * manual .endgame + 0.42 * driver .endgame)
  let disciplineSignal := share (0.58 * manual .discipline + 0.42 * driver .discipline)
  let executionSignal := share (0.62 * manual .execution + 0.38 * driver .offense)
  let reliabilitySignal := share
    (0.38 * disciplineSignal + 0.27 * executionSignal + 0.2 * manual .teleop +
      0.15 * pressureSignal)
  let manualDriverGap := |manual01 - driver01|
  let alignmentPenalty := clampNumber (manualDriverGap * 0.22) 0 0.1
  let ceilingBonus := clampNumber
    ((pointsSignal - 0.62) * 0.1 + (if 0.72 ≤ endgameSignal then 0.025 else 0)) 0 0.09
  let riskPenalty := clampNumber
    ((1 - reliabilitySignal) * 0.09 + (if pressureSignal < 0.4 then 0.025 else 0)) 0 0.12
  let score01 := 0.42 * manual01 + 0.22 * driver01 + 0.14 * pointsSignal + 0.09 * endgameSignal +
    0.07 * reliabilitySignal + 0.06 * pressureSignal + ceilingBonus - alignmentPenalty -
    riskPenalty
  let rounded := (UpTo.clamp 1 score01).percent.cut 1
  { score := rounded
    tier := normalizeScoreTier rounded.val
    components part := Fixed.of 2 ((match part with
      | .manual => manual01
      | .driver => driver01
      | .points => pointsSignal
      | .endgame => endgameSignal
      | .discipline => reliabilitySignal) * 100) }

end Frcmob.ScoutReport
