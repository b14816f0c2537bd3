import Frcmob.Reports.Qr
import Frcmob.Reports.Ratings

/-!
What `normalizeEntry` reads of ratings, of official numbers and of a draft's origin that a report
has already. A record made of each is read back as it was.
-/

namespace Frcmob.ScoutReport

open Js (Str Value Record units)

/-! ### Keyed properties -/

section
variable {κ : Type} {keys : List κ} {name : κ → String} {value : κ → Value}

def keyed (keys : List κ) (name : κ → String) (value : κ → Value) : Record :=
  keys.map fun key => (name key, value key)

theorem get_keyed (hnodup : (keys.map name).Nodup) {key : κ} (h : key ∈ keys) :
    Record.get (keyed keys name value) (name key) = some (value key) := by
  apply Js.Record.get_of_mem
  · rw [keyed, List.map_map]
    exact hnodup
  · exact List.mem_map.mpr ⟨key, h, rfl⟩

end

/-- `Array.isArray(raw) ? raw.map(String) : []` -/
def texts (rt : Runtime) : Option Value → List Str
  | some (.arr items) => items.map (text rt)
  | _ => []

theorem texts_str (rt : Runtime) (list : List Str) :
    texts rt (some (.arr (list.map .str))) = list := by
  rw [texts, List.map_map]
  exact List.map_id'' (fun _ => rfl) list

theorem parseNumber_number (rt : Runtime) (q : ℚ) : parseNumber rt (some (number q)) = some q :=
  rfl

/-- The shares of a breakdown, `0.5` where one is missing. -/
def normalizeBreakdown {κ : Type} (rt : Runtime) (raw : Option Record) (name : κ → String)
    (part : κ) : UpTo 1 :=
  .clamp 1 ((parseNumber rt (raw.bind fun breakdown => breakdown.get (name part))).getD 0.5)

/-! ### Drivers -/

def DriverPart.all : List DriverPart :=
  [.teleopVolume, .teleopAccuracy, .offense, .defense, .endgame, .discipline]

def DriverPart.name : DriverPart → String
  | .teleopVolume => "teleop_volume_0_1"
  | .teleopAccuracy => "teleop_accuracy_0_1"
  | .offense => "offense_0_1"
  | .defense => "defense_0_1"
  | .endgame => "endgame_0_1"
  | .discipline => "discipline_0_1"

/-- `clampNumber(value, 1, 5)` -/
def clampLevel (value : Int) : Level :=
  ⟨max 1 (min 5 value), le_max_left _ _, max_le (by decide) (min_le_left _ _)⟩

theorem clampLevel_val (level : Level) : clampLevel level.val = level := by
  obtain ⟨value, hlow, hhigh⟩ := level
  rw [clampLevel, Level.mk.injEq, min_eq_right hhigh, max_eq_right hlow]

def normalizeDriver (rt : Runtime) (driver : Record) : DriverCompetency where
  score := .clamp 100 ((parseNumber rt (driver.get "score_0_100")).getD 0)
  level := clampLevel ⌊(parseNumber rt (driver.get "level_1_5")).getD 3 + 1 / 2⌋
  tier := stringOr (driver.get "tier") (units "Solid")
  breakdown := normalizeBreakdown rt (Js.asRecord (driver.get "breakdown")) DriverPart.name

def DriverCompetency.record (driver : DriverCompetency) : Record :=
  [("score_0_100", number driver.score.val), ("level_1_5", number driver.level.val),
    ("tier", .str driver.tier),
    ("breakdown", .obj (keyed DriverPart.all DriverPart.name fun part =>
      number (driver.breakdown part).val))]

theorem DriverPart.mem_all (part : DriverPart) : part ∈ all := by
  cases part <;> decide

theorem DriverPart.nodup_names : (all.map name).Nodup := by
  decide

theorem normalizeBreakdown_keyed {κ : Type} (rt : Runtime) {keys : List κ} {name : κ → String}
    (hnodup : (keys.map name).Nodup) (breakdown : κ → UpTo 1) {part : κ} (h : part ∈ keys) :
    normalizeBreakdown rt (some (keyed keys name fun part => number (breakdown part).val)) name
      part = breakdown part := by
  rw [normalizeBreakdown, Option.bind_some, get_keyed hnodup h, parseNumber_number,
    Option.getD_some, UpTo.clamp_val]

theorem normalizeDriver_record (rt : Runtime) (driver : DriverCompetency) :
    normalizeDriver rt driver.record = driver := by
  have hscore : driver.record.get "score_0_100" = some (number driver.score.val) := rfl
  have hlevel : driver.record.get "level_1_5" = some (number driver.level.val) := rfl
  have htier : driver.record.get "tier" = some (.str driver.tier) := rfl
  have hbreakdown : driver.record.get "breakdown" = some (.obj (keyed DriverPart.all
    DriverPart.name fun part => number (driver.breakdown part).val)) := rfl
  have hround : ⌊(driver.level.val : ℚ) + 1 / 2⌋ = driver.level.val := by
    rw [Int.floor_intCast_add]
    norm_num
  rw [normalizeDriver, hscore, hlevel, htier, hbreakdown, parseNumber_number, parseNumber_number,
    Option.getD_some, Option.getD_some, UpTo.clamp_val, hround, clampLevel_val]
  congr 1
  funext part
  exact normalizeBreakdown_keyed rt DriverPart.nodup_names driver.breakdown part.mem_all

/-! ### Scouting -/

def ManualPart.all : List ManualPart :=
  [.auto, .teleop, .endgame, .antiDefense, .execution, .discipline]

def ManualPart.name : ManualPart → String
  | .auto => "auto_0_1"
  | .teleop => "teleop_0_1"
  | .endgame => "endgame_0_1"
  | .antiDefense => "anti_defense_0_1"
  | .execution => "execution_0_1"
  | .discipline => "discipline_0_1"

theorem ManualPart.mem_all (part : ManualPart) : part ∈ all := by
  cases part <;> decide

theorem ManualPart.nodup_names : (all.map name).Nodup := by
  decide

/-- Of a rating that is there. -/
def normalizeManualRating (rt : Runtime) (raw : Record) (form : ScoutForm)
    (driver : DriverCompetency) : ManualScoutingRating :=
  let score := UpTo.clamp 100
    ((parseNumber rt (raw.get "score_0_100")).getD (manualScoutingRating form driver).score.val)
  { score := score.cut 1
    tier := stringOr (raw.get "tier") (normalizeScoreTier score.val)
    breakdown := normalizeBreakdown rt (Js.asRecord (raw.get "breakdown")) ManualPart.name
    pros := texts rt (raw.get "pros")
    cons := texts rt (raw.get "cons") }

def ManualScoutingRating.record (manual : ManualScoutingRating) : Record :=
  [("score_0_100", number manual.score.val), ("tier", .str manual.tier),
    ("breakdown", .obj (keyed ManualPart.all ManualPart.name fun part =>
      number (manual.breakdown part).val)),
    ("pros", .arr (manual.pros.map .str)), ("cons", .arr (manual.cons.map .str))]

theorem normalizeManualRating_record (rt : Runtime) (manual : ManualScoutingRating)
    (form : ScoutForm) (driver : DriverCompetency) :
    normalizeManualRating rt manual.record form driver = manual := by
  have hscore : manual.record.get "score_0_100" = some (number manual.score.val) := rfl
  have htier : manual.record.get "tier" = some (.str manual.tier) := rfl
  have hbreakdown : manual.record.get "breakdown" = some (.obj (keyed ManualPart.all
    ManualPart.name fun part => number (manual.breakdown part).val)) := rfl
  have hpros : manual.record.get "pros" = some (.arr (manual.pros.map .str)) := rfl
  have hcons : manual.record.get "cons" = some (.arr (manual.cons.map .str)) := rfl
  rw [normalizeManualRating, hscore, htier, hbreakdown, hpros, hcons, texts_str, texts_str,
    parseNumber_number, Option.getD_some, UpTo.cut_clamp_val]
  congr 1
  funext part
  exact normalizeBreakdown_keyed rt ManualPart.nodup_names manual.breakdown part.mem_all

/-! ### Overall -/

def OverallPart.all : List OverallPart :=
  [.manual, .driver, .points, .endgame, .discipline]

def OverallPart.name : OverallPart → String
  | .manual => "manual_0_100"
  | .driver => "driver_0_100"
  | .points => "points_0_100"
  | .endgame => "endgame_0_100"
  | .discipline => "discipline_0_100"

theorem OverallPart.mem_all (part : OverallPart) : part ∈ all := by
  cases part <;> decide

theorem OverallPart.nodup_names : (all.map name).Nodup := by
  decide

/-- The components, each from `fallback` where it is missing. -/
def normalizeComponents {κ : Type} (rt : Runtime) (raw : Option Record) (name : κ → String)
    (fallback : κ → ℚ) (part : κ) : Fixed 2 :=
  .of 2 ((parseNumber rt (raw.bind fun components => components.get (name part))).getD
    (fallback part))

theorem normalizeComponents_keyed {κ : Type} (rt : Runtime) {keys : List κ} {name : κ → String}
    (hnodup : (keys.map name).Nodup) (components : κ → Fixed 2) (fallback : κ → ℚ) {part : κ}
    (h : part ∈ keys) :
    normalizeComponents rt (some (keyed keys name fun part => number (components part).val)) name
      fallback part = components part := by
  rw [normalizeComponents, Option.bind_some, get_keyed hnodup h, parseNumber_number,
    Option.getD_some, Fixed.of_val]

/-- Of a rating that is there, which counts only with a score. -/
def normalizeOverallScoutRating (rt : Runtime) (exp : ℚ → ℚ) (raw : Record) (points : Points)
    (manual : ManualScoutingRating) (driver : DriverCompetency) : OverallScoutRating :=
  let fallback := overallScoutRating exp points manual driver
  match parseNumber rt (raw.get "score_0_100") with
  | none => fallback
  | some parsedScore =>
      let score := (UpTo.clamp 100 parsedScore).cut 1
      { score := score
        tier := stringOr (raw.get "tier") (normalizeScoreTier score.val)
        components := normalizeComponents rt (Js.asRecord (raw.get "components")) OverallPart.name
          fun part => (fallback.components part).val }

def OverallScoutRating.record (overall : OverallScoutRating) : Record :=
  [("score_0_100", number overall.score.val), ("tier", .str overall.tier),
    ("components", .obj (keyed OverallPart.all OverallPart.name fun part =>
      number (overall.components part).val))]

theorem normalizeOverallScoutRating_record (rt : Runtime) (exp : ℚ → ℚ)
    (overall : OverallScoutRating) (points : Points) (manual : ManualScoutingRating)
    (driver : DriverCompetency) :
    normalizeOverallScoutRating rt exp overall.record points manual driver = overall := by
  have hscore : overall.record.get "score_0_100" = some (number overall.score.val) := rfl
  have htier : overall.record.get "tier" = some (.str overall.tier) := rfl
  have hcomponents : overall.record.get "components" = some (.obj (keyed OverallPart.all
    OverallPart.name fun part => number (overall.components part).val)) := rfl
  simp only [normalizeOverallScoutRating, hscore, htier, hcomponents, parseNumber_number,
    UpTo.cut_clamp_val]
  congr 1
  funext part
  exact normalizeComponents_keyed rt OverallPart.nodup_names overall.components _ part.mem_all

/-! ### Official numbers -/

inductive ApiPart
  | manualWeighted
  | apiStrength
  | apiReliability
  | apiAuto
  | apiClimb
  | apiCycle
  | freshnessPenalty
deriving DecidableEq

def ApiPart.all : List ApiPart :=
  [.manualWeighted, .apiStrength, .apiReliability, .apiAuto, .apiClimb, .apiCycle,
    .freshnessPenalty]

def ApiPart.name : ApiPart → String
  | .manualWeighted => "manual_weighted_0_100"
  | .apiStrength => "api_strength_0_100"
  | .apiReliability => "api_reliability_0_100"
  | .apiAuto => "api_auto_0_100"
  | .apiClimb => "api_climb_0_100"
  | .apiCycle => "api_cycle_0_100"
  | .freshnessPenalty => "freshness_penalty_0_100"

theorem ApiPart.mem_all (part : ApiPart) : part ∈ all := by
  cases part <;> decide

theorem ApiPart.nodup_names : (all.map name).Nodup := by
  decide

structure ScoutingApiRating where
  score : Score 100 1
  confidence : Score 1 3
  tier : Str
  components : ApiPart → Fixed 2
  pros : List Str
  cons : List Str

def normalizeScoutingApiRating (rt : Runtime) (raw : Record) : Option ScoutingApiRating := do
  let score ← parseNumber rt (raw.get "score_0_100")
  let confidence ← parseNumber rt (raw.get "confidence_0_1")
  return {
    score := (UpTo.clamp 100 score).cut 1
    confidence := (UpTo.clamp 1 confidence).cut 3
    tier := stringOr (raw.get "tier") (normalizeScoreTier score)
    components := normalizeComponents rt (Js.asRecord (raw.get "components")) ApiPart.name
      fun _ => 0
    pros := texts rt (raw.get "pros")
    cons := texts rt (raw.get "cons") }

def ScoutingApiRating.record (rating : ScoutingApiRating) : Record :=
  [("score_0_100", number rating.score.val), ("confidence_0_1", number rating.confidence.val),
    ("tier", .str rating.tier),
    ("components", .obj (keyed ApiPart.all ApiPart.name fun part =>
      number (rating.components part).val)),
    ("pros", .arr (rating.pros.map .str)), ("cons", .arr (rating.cons.map .str))]

theorem normalizeScoutingApiRating_record (rt : Runtime) (rating : ScoutingApiRating) :
    normalizeScoutingApiRating rt rating.record = some rating := by
  have hscore : rating.record.get "score_0_100" = some (number rating.score.val) := rfl
  have hconfidence : rating.record.get "confidence_0_1" = some (number rating.confidence.val) :=
    rfl
  have htier : rating.record.get "tier" = some (.str rating.tier) := rfl
  have hcomponents : rating.record.get "components" = some (.obj (keyed ApiPart.all
    ApiPart.name fun part => number (rating.components part).val)) := rfl
  have hpros : rating.record.get "pros" = some (.arr (rating.pros.map .str)) := rfl
  have hcons : rating.record.get "cons" = some (.arr (rating.cons.map .str)) := rfl
  have hparts : normalizeComponents rt (some (keyed ApiPart.all ApiPart.name fun part =>
      number (rating.components part).val)) ApiPart.name (fun _ => 0) = rating.components :=
    funext fun part =>
      normalizeComponents_keyed rt ApiPart.nodup_names rating.components _ part.mem_all
  simp only [normalizeScoutingApiRating, hscore, hconfidence, htier, hcomponents, hpros, hcons,
    texts_str, parseNumber_number, Option.bind_eq_bind, Option.bind_some, UpTo.cut_clamp_val,
    Js.asRecord, hparts]
  rfl

inductive SnapshotPart
  | rating
  | confidence
  | reliability
  | autoContribution
  | climbSuccessProb
  | cycleTimeSec
  | tbaRank
deriving DecidableEq

def SnapshotPart.all : List SnapshotPart :=
  [.rating, .confidence, .reliability, .autoContribution, .climbSuccessProb, .cycleTimeSec,
    .tbaRank]

def SnapshotPart.name : SnapshotPart → String
  | .rating => "rating_0_100"
  | .confidence => "confidence_0_1"
  | .reliability => "reliability_0_1"
  | .autoContribution => "auto_contribution"
  | .climbSuccessProb => "climb_success_prob"
  | .cycleTimeSec => "cycle_time_sec"
  | .tbaRank => "tba_rank"

theorem SnapshotPart.mem_all (part : SnapshotPart) : part ∈ all := by
  cases part <;> decide

structure ApiTeamSnapshot where
  sourceEventKey : Option Str
  fetchedAtMs : ℕ
  part : SnapshotPart → Option ℚ
  warnings : List Str

/-- `typeof value === 'string' ? value : null` -/
def stringOrNull : Option Value → Option Str
  | some (.str s) => some s
  | _ => none

def normalizeApiSnapshot (rt : Runtime) (raw : Record) : ApiTeamSnapshot where
  sourceEventKey := stringOrNull (raw.get "source_event_key")
  fetchedAtMs := toInt rt (raw.get "fetched_at_ms") rt.now
  part key := parseNumber rt (raw.get key.name)
  warnings := texts rt (raw.get "warnings")

def orNull (value : Option ℚ) : Value :=
  value.elim .null number

def ApiTeamSnapshot.record (snapshot : ApiTeamSnapshot) : Record :=
  [("source_event_key", snapshot.sourceEventKey.elim .null .str),
    ("fetched_at_ms", number snapshot.fetchedAtMs)] ++
    (keyed SnapshotPart.all SnapshotPart.name fun key => orNull (snapshot.part key)) ++
    [("warnings", .arr (snapshot.warnings.map .str))]

theorem stringOrNull_elim (value : Option Str) :
    stringOrNull (some (value.elim .null .str)) = value := by
  cases value <;> rfl

theorem parseNumber_orNull (rt : Runtime) (value : Option ℚ) :
    parseNumber rt (some (orNull value)) = value := by
  cases value <;> rfl

theorem normalizeApiSnapshot_record (rt : Runtime) (snapshot : ApiTeamSnapshot) :
    normalizeApiSnapshot rt snapshot.record = snapshot := by
  have hsource : snapshot.record.get "source_event_key" =
      some (snapshot.sourceEventKey.elim .null .str) := rfl
  have hfetched : snapshot.record.get "fetched_at_ms" = some (number snapshot.fetchedAtMs) := rfl
  have hwarnings : snapshot.record.get "warnings" = some (.arr (snapshot.warnings.map .str)) := rfl
  have hpart : ∀ key : SnapshotPart,
      snapshot.record.get key.name = some (orNull (snapshot.part key)) := by
    intro key
    cases key <;> rfl
  have hnumber : toInt rt (some (number snapshot.fetchedAtMs)) rt.now = snapshot.fetchedAtMs :=
    toInt_number rt snapshot.fetchedAtMs rt.now
  simp only [normalizeApiSnapshot, hsource, hfetched, hwarnings, hpart, stringOrNull_elim, hnumber,
    parseNumber_orNull, texts_str]

/-! ### Drafts -/

/-- A version with no white space around it. -/
@[ext]
structure Version where
  val : Str
  trimmed : Js.trim val = val
  nonempty : val ≠ []

/-- `typeof value === 'string' ? value.trim() : ''`, where it is not empty. -/
def versionOf (value : Option Value) : Option Version :=
  let version := Js.trim (stringOr value [])
  if h : version ≠ [] then some ⟨version, Js.trim_eq_self (Js.trimmed_trim _), h⟩ else none

structure AutoScoutMeta where
  draftId : ℕ
  drafted : draftId ≠ 0
  mapperVersion : Version
  analysisVersion : Version
  approvedAtMs : Option Int

def normalizeAutoScoutMeta (rt : Runtime) (raw : Record) : Option AutoScoutMeta :=
  let draftId := toInt rt (raw.get "draft_id") 0
  if h : draftId ≠ 0 then do
    let mapperVersion ← versionOf (raw.get "mapper_version")
    let analysisVersion ← versionOf (raw.get "analysis_version")
    return {
      draftId := draftId
      drafted := h
      mapperVersion := mapperVersion
      analysisVersion := analysisVersion
      approvedAtMs := (parseNumber rt (raw.get "approved_at_ms")).map Int.floor }
  else none

def AutoScoutMeta.record (origin : AutoScoutMeta) : Record :=
  [("draft_id", number origin.draftId), ("mapper_version", .str origin.mapperVersion.val),
    ("analysis_version", .str origin.analysisVersion.val),
    ("approved_at_ms", orNull (origin.approvedAtMs.map fun ms => (ms : ℚ)))]

theorem versionOf_str (version : Version) : versionOf (some (.str version.val)) = some version := by
  simp only [versionOf, stringOr, version.trimmed]
  rw [dif_pos version.nonempty]

theorem normalizeAutoScoutMeta_record (rt : Runtime) (origin : AutoScoutMeta) :
    normalizeAutoScoutMeta rt origin.record = some origin := by
  have hdraft : origin.record.get "draft_id" = some (number origin.draftId) := rfl
  have hmapper : origin.record.get "mapper_version" = some (.str origin.mapperVersion.val) := rfl
  have hanalysis : origin.record.get "analysis_version" = some (.str origin.analysisVersion.val) :=
    rfl
  have happroved : origin.record.get "approved_at_ms" =
      some (orNull (origin.approvedAtMs.map fun ms => (ms : ℚ))) := rfl
  have hnumber : toInt rt (some (number origin.draftId)) 0 = origin.draftId :=
    toInt_number rt origin.draftId 0
  have hfloor : (origin.approvedAtMs.map fun ms => (ms : ℚ)).map Int.floor =
      origin.approvedAtMs := by
    cases origin.approvedAtMs with
    | none => rfl
    | some ms => exact congrArg some (Int.floor_intCast ms)
  simp only [normalizeAutoScoutMeta, hdraft, hmapper, hanalysis, happroved, hnumber, versionOf_str,
    parseNumber_orNull, hfloor]
  rw [dif_pos origin.drafted]
  rfl

structure AutoScoutFieldOverride where
  fromValue : Value
  toValue : Value

structure FieldOverrides where
  entries : List (String × AutoScoutFieldOverride)
  nonempty : entries ≠ []

/-- A property with both own properties of an override. -/
def overrideOf (field : String × Value) : Option (String × AutoScoutFieldOverride) := do
  let parsed ← Js.asRecord (some field.2)
  let fromValue ← parsed.get "from"
  let toValue ← parsed.get "to"
  return (field.1, ⟨fromValue, toValue⟩)

def normalizeFieldOverrides (row : Record) : Option FieldOverrides :=
  let entries := row.filterMap overrideOf
  if h : entries ≠ [] then some ⟨entries, h⟩ else none

def FieldOverrides.record (overrides : FieldOverrides) : Record :=
  overrides.entries.map fun entry =>
    (entry.1, .obj [("from", entry.2.fromValue), ("to", entry.2.toValue)])

theorem normalizeFieldOverrides_record (overrides : FieldOverrides) :
    normalizeFieldOverrides overrides.record = some overrides := by
  have hentries : overrides.record.filterMap overrideOf = overrides.entries := by
    rw [FieldOverrides.record, List.filterMap_map]
    exact List.filterMap_some
  simp only [normalizeFieldOverrides, hentries]
  rw [dif_pos overrides.nonempty]

end Frcmob.ScoutReport
