import Mathlib.Tactic.Linarith
import Frcmob.Lib.Js

/-!
A scouting report as the app saves it and as it reads one from anywhere else:
`buildSavedScoutingEntry` and `normalizeEntry` of `scoutingPage.helpers.ts`, with the
normalisers both go through.
-/

namespace Frcmob.ScoutReport

open Js (Str Number Value Record units)

/-- What the browser does: lower case, `Number(text)`, `String(value)` of what is not a
string, the clock and the ids drawn from it. -/
structure Runtime where
  lower : Js.Lowering
  numberOf : Str → Number
  otherText : Value → Str
  now : Nat
  freshId : Number → Str

/-! ### Values -/

def parseNumber (rt : Runtime) : Option Value → Option ℚ
  | some (.num (.finite q)) => some q
  | some (.str s) =>
      if Js.trim s = [] then none
      else match rt.numberOf s with
        | .finite q => some q
        | _ => none
  | _ => none

/-- `Math.max(0, Math.floor(q))` -/
def wholeNumber (q : ℚ) : Nat :=
  ⌊q⌋.toNat

def toInt (rt : Runtime) (value : Option Value) (fallback : Nat) : Nat :=
  match parseNumber rt value with
  | none => fallback
  | some q => wholeNumber q

/-- `Level1To5` without its `null`. -/
structure Level where
  val : Int
  one_le : 1 ≤ val
  le_five : val ≤ 5
deriving DecidableEq

/-- `Math.round`, between the ends of the scale. -/
def roundLevel (q : ℚ) (hlow : 1 < q) (hhigh : q < 5) : Level where
  val := ⌊q + 1 / 2⌋
  one_le := by
    rw [Int.le_floor]
    push_cast
    linarith
  le_five := by
    rw [← Int.lt_add_one_iff, Int.floor_lt]
    push_cast
    linarith

def toLevel (rt : Runtime) (value : Option Value) (fallback : Option Level) : Option Level :=
  match parseNumber rt value with
  | none => fallback
  | some q =>
      if hlow : q ≤ 1 then some ⟨1, by omega, by omega⟩
      else if hhigh : 5 ≤ q then some ⟨5, by omega, by omega⟩
      else some (roundLevel q (not_le.mp hlow) (not_le.mp hhigh))

def toBool (rt : Runtime) (value : Option Value) (fallback : Bool) : Bool :=
  match value with
  | some (.bool b) => b
  | some (.num (.finite q)) => decide (0 < q)
  | some (.num .posInf) => true
  | some (.num _) => false
  | some (.str s) =>
      let normalized := rt.lower.key s
      if normalized ∈ [units "true", units "1", units "yes"] then true
      else if normalized ∈ [units "false", units "0", units "no"] then false
      else fallback
  | _ => fallback

/-- `String(value)` -/
def text (rt : Runtime) : Value → Str
  | .str s => s
  | v => rt.otherText v

/-- `String(a || b || … || default)` -/
def firstText (rt : Runtime) (candidates : List (Option Value)) (default : Str) : Str :=
  match candidates.find? Js.truthy with
  | some (some v) => text rt v
  | _ => default

def stringOr (value : Option Value) (default : Str) : Str :=
  match value with
  | some (.str s) => s
  | _ => default

/-! ### The form -/

inductive Flag
  | autoMobility
  | climbedUnderPressure
  | protectedZoneRisk
deriving DecidableEq

inductive Count
  | autoScored
  | autoMissed
  | autoPickups
  | autoCycles
  | teleopScored
  | teleopMissed
  | teleopUnderDefenseScored
  | teleopUnderDefenseAttempts
  | teleopCycles
  | teleopDrops
  | intakeFailures
  | foulCount
  | bumpCrosses
  | trenchCrosses
deriving DecidableEq

inductive Grade
  | autoPathQuality
  | offenseLevel
  | defenseLevel
  | fieldAwareness
  | decisionQuality
  | communication
  | antiDefenseLevel
  | escapeLevel
  | rerouteLevel
  | hitRecoveryLevel
deriving DecidableEq

/-- The fields of the form: those of each kind, and the endgame. -/
inductive FormKey
  | flag (f : Flag)
  | count (c : Count)
  | grade (g : Grade)
  | endgameMode
deriving DecidableEq

def Flag.name : Flag → String
  | .autoMobility => "auto_mobility"
  | .climbedUnderPressure => "climbed_under_pressure"
  | .protectedZoneRisk => "protected_zone_risk"

def Count.name : Count → String
  | .autoScored => "auto_scored"
  | .autoMissed => "auto_missed"
  | .autoPickups => "auto_pickups"
  | .autoCycles => "auto_cycles"
  | .teleopScored => "teleop_scored"
  | .teleopMissed => "teleop_missed"
  | .teleopUnderDefenseScored => "teleop_under_defense_scored"
  | .teleopUnderDefenseAttempts => "teleop_under_defense_attempts"
  | .teleopCycles => "teleop_cycles"
  | .teleopDrops => "teleop_drops"
  | .intakeFailures => "intake_failures"
  | .foulCount => "foul_count"
  | .bumpCrosses => "bump_crosses"
  | .trenchCrosses => "trench_crosses"

def Grade.name : Grade → String
  | .autoPathQuality => "auto_path_quality_1_5"
  | .offenseLevel => "offense_level_1_5"
  | .defenseLevel => "defense_level_1_5"
  | .fieldAwareness => "field_awareness_1_5"
  | .decisionQuality => "decision_quality_1_5"
  | .communication => "communication_1_5"
  | .antiDefenseLevel => "anti_defense_level_1_5"
  | .escapeLevel => "escape_level_1_5"
  | .rerouteLevel => "reroute_level_1_5"
  | .hitRecoveryLevel => "hit_recovery_level_1_5"

def FormKey.name : FormKey → String
  | .flag f => f.name
  | .count c => c.name
  | .grade g => g.name
  | .endgameMode => "endgame_mode"

inductive EndgameMode
  | none
  | keptScoring
  | parked
  | climbLevel1
  | climbLevel2
  | climbLevel3
deriving DecidableEq

def EndgameMode.name : EndgameMode → String
  | .none => "none"
  | .keptScoring => "kept_scoring"
  | .parked => "parked"
  | .climbLevel1 => "climb_level_1"
  | .climbLevel2 => "climb_level_2"
  | .climbLevel3 => "climb_level_3"

structure ScoutForm where
  flag : Flag → Bool
  count : Count → Nat
  grade : Grade → Option Level
  endgameMode : EndgameMode

def emptyForm : ScoutForm where
  flag _ := false
  count _ := 0
  grade _ := none
  endgameMode := .none

def normalizeEndgame (value : Option Value) : EndgameMode :=
  let endgameRaw := stringOr value []
  let known := [EndgameMode.keptScoring, .parked, .climbLevel1, .climbLevel2, .climbLevel3]
  (known.find? fun mode => endgameRaw = units mode.name).getD .none

def normalizeForm (rt : Runtime) : Option Record → ScoutForm
  | none => emptyForm
  | some raw =>
      { flag f := toBool rt (raw.get f.name) false
        count c := toInt rt (raw.get c.name) 0
        grade g := toLevel rt (raw.get g.name) none
        endgameMode := normalizeEndgame (raw.get FormKey.endgameMode.name) }

structure Points where
  auto : ℚ
  teleop : ℚ
  endgame : ℚ
  total : ℚ
deriving DecidableEq

def endgamePoints : EndgameMode → Nat
  | .none => 0
  | .keptScoring => 0
  | .parked => 5
  | .climbLevel1 => 10
  | .climbLevel2 => 20
  | .climbLevel3 => 30

def pointsFromForm (form : ScoutForm) : Points :=
  let auto := form.count .autoScored + if form.flag .autoMobility then 1 else 0
  let teleop := form.count .teleopScored
  let endgame := endgamePoints form.endgameMode
  ⟨auto, teleop, endgame, auto + teleop + endgame⟩

/-! ### Texts and tags -/

def normalizeEventKeyInput (rt : Runtime) (raw : Str) : Str :=
  rt.lower.key raw

def normalizeScoutProfile (raw : Str) : Str :=
  (Js.collapse (Js.trim raw)).take 40

def normalizeScoutingNotes (raw : Str) : Str :=
  (Js.replaceCrLf raw).take 600

/-- `[a-z0-9_-]` -/
def isRoomKeyUnit (u : UInt16) : Bool :=
  (97 ≤ u && u ≤ 122) || (48 ≤ u && u ≤ 57) || u = 95 || u = 45

def normalizeRoomKey (rt : Runtime) (raw : Str) : Str :=
  ((rt.lower.key raw).filter isRoomKeyUnit).take 48

/-- `normalizeRoomKey(raw) || null` -/
def roomKeyOrNull (rt : Runtime) (raw : Str) : Option Str :=
  if normalizeRoomKey rt raw = [] then none else some (normalizeRoomKey rt raw)

inductive ScoutNoteTag
  | defense
  | greatDriver
  | fastCycles
  | brokeDown
  | tipped
  | lostPower
  | penalties
  | noShow
deriving DecidableEq

def ScoutNoteTag.id : ScoutNoteTag → String
  | .defense => "defense"
  | .greatDriver => "great_driver"
  | .fastCycles => "fast_cycles"
  | .brokeDown => "broke_down"
  | .tipped => "tipped"
  | .lostPower => "lost_power"
  | .penalties => "penalties"
  | .noShow => "no_show"

def scoutNoteTags : List ScoutNoteTag :=
  [.defense, .greatDriver, .fastCycles, .brokeDown, .tipped, .lostPower, .penalties, .noShow]

/-- `String(value ?? '').trim().toLowerCase()` -/
def tagText (rt : Runtime) : Value → Str
  | .null => rt.lower.key []
  | v => rt.lower.key (text rt v)

/-- Known tags only, each once, in the list's order. -/
def normalizeNoteTags (rt : Runtime) : Option Value → List ScoutNoteTag
  | some (.arr items) =>
      let present := items.map (tagText rt)
      scoutNoteTags.filter fun tag => units tag.id ∈ present
  | _ => []

/-! ### Reports -/

/-- The ratings, whose arithmetic is floating point, and what is read of a record that has
them already. -/
structure Analytics where
  Driver : Type
  Manual : Type
  Overall : Type
  ApiRating : Type
  ApiSnapshot : Type
  AutoScoutMeta : Type
  FieldOverrides : Type
  driverCompetency : ScoutForm → Driver
  manualScoutingRating : ScoutForm → Driver → Manual
  overallScoutRating : Points → Manual → Driver → Overall
  normalizeDriver : Record → Driver
  normalizeManualRating : Record → ScoutForm → Driver → Manual
  normalizeOverallScoutRating : Record → Points → Manual → Driver → Overall
  normalizeScoutingApiRating : Record → Option ApiRating
  normalizeApiSnapshot : Record → ApiSnapshot
  normalizeAutoScoutMeta : Record → Option AutoScoutMeta
  normalizeFieldOverrides : Record → Option FieldOverrides

inductive Mode
  | match_
  | rapid
deriving DecidableEq

inductive Alliance
  | red
  | blue
deriving DecidableEq

inductive EntrySource
  | manual
  | reviewedAuto
deriving DecidableEq

structure SavedScoutingEntry (a : Analytics) where
  id : Str
  savedAtMs : Number
  scoutProfile : Str
  roomKey : Option Str
  mode : Mode
  eventKey : Str
  matchKey : Str
  matchDisplay : Str
  teamKey : Str
  teamLabel : Str
  alliance : Alliance
  station : Option Str
  points : Points
  form : ScoutForm
  driverCompetency : a.Driver
  manualRating : a.Manual
  overallScoutRating : a.Overall
  scoutingApiRating : Option a.ApiRating
  apiSnapshot : Option a.ApiSnapshot
  notes : Str
  tags : List ScoutNoteTag
  entrySource : EntrySource
  autoScoutMeta : Option a.AutoScoutMeta
  fieldOverrides : Option a.FieldOverrides
  serverSynced : Bool

/-- What the page passes when a scout saves. -/
structure EntryPayload (a : Analytics) where
  id : Option Str
  savedAtMs : Number
  scoutProfile : Str
  roomKey : Option Str
  mode : Mode
  eventKey : Str
  matchKey : Str
  matchDisplay : Str
  teamKey : Str
  teamLabel : Str
  alliance : Alliance
  station : Option Str
  points : Points
  form : Record
  driverCompetency : a.Driver
  manualRating : a.Manual
  overallScoutRating : a.Overall
  scoutingApiRating : Option a.ApiRating
  apiSnapshot : Option a.ApiSnapshot
  notes : Str
  tags : Option (List Str)
  entrySource : EntrySource
  autoScoutMeta : Option a.AutoScoutMeta
  fieldOverrides : Option a.FieldOverrides

/-- `Math.max(0, Math.floor(ms))` -/
def savedAt : Number → Number
  | .finite q => .finite (wholeNumber q)
  | .nan => .nan
  | .posInf => .posInf
  | .negInf => .finite 0

variable {a : Analytics}

def buildSavedScoutingEntry (rt : Runtime) (payload : EntryPayload a) : SavedScoutingEntry a where
  id := (payload.id.filter (· ≠ [])).getD (rt.freshId (savedAt payload.savedAtMs))
  savedAtMs := savedAt payload.savedAtMs
  scoutProfile := normalizeScoutProfile payload.scoutProfile
  roomKey := (payload.roomKey.filter (· ≠ [])).bind (roomKeyOrNull rt)
  mode := payload.mode
  eventKey := normalizeEventKeyInput rt payload.eventKey
  matchKey := normalizeEventKeyInput rt payload.matchKey
  matchDisplay :=
    firstText rt [some (.str payload.matchDisplay), some (.str payload.matchKey)] (units "Match")
  teamKey := rt.lower.key (firstText rt [some (.str payload.teamKey)] [])
  teamLabel :=
    firstText rt [some (.str payload.teamLabel), some (.str payload.teamKey)] (units "Team")
  alliance := payload.alliance
  station := payload.station
  points := payload.points
  form := normalizeForm rt (some payload.form)
  driverCompetency := payload.driverCompetency
  manualRating := payload.manualRating
  overallScoutRating := payload.overallScoutRating
  scoutingApiRating := payload.scoutingApiRating
  apiSnapshot := payload.apiSnapshot
  notes := normalizeScoutingNotes payload.notes
  tags := normalizeNoteTags rt (payload.tags.map fun tags => .arr (tags.map .str))
  entrySource := payload.entrySource
  autoScoutMeta := if payload.entrySource = .reviewedAuto then payload.autoScoutMeta else none
  fieldOverrides := if payload.entrySource = .reviewedAuto then payload.fieldOverrides else none
  serverSynced := false

/-- Whether a value is the string `name`. -/
def isText (value : Option Value) (name : String) : Bool :=
  match value with
  | some (.str s) => s = units name
  | _ => false

def isTrue : Option Value → Bool
  | some (.bool b) => b
  | _ => false

def normalizePoints (rt : Runtime) (raw : Option Record) (derived : Points) : Points :=
  let number (key : String) := parseNumber rt (raw.bind fun points => points.get key)
  ⟨(number "auto").getD derived.auto, (number "teleop").getD derived.teleop,
    (number "endgame").getD derived.endgame, (number "total").getD derived.total⟩

def normalizeRecord (rt : Runtime) (row : Record) : SavedScoutingEntry a :=
  let recordOf (key : String) := Js.asRecord (row.get key)
  let form := normalizeForm rt (recordOf "form")
  let points := normalizePoints rt (recordOf "points") (pointsFromForm form)
  let driver := (recordOf "driver_competency").elim (a.driverCompetency form) a.normalizeDriver
  let manual := (recordOf "manual_rating").elim (a.manualScoutingRating form driver)
    fun raw => a.normalizeManualRating raw form driver
  let overall := (recordOf "overall_scout_rating").elim (a.overallScoutRating points manual driver)
    fun raw => a.normalizeOverallScoutRating raw points manual driver
  { id := stringOr (row.get "id") (rt.freshId (.finite rt.now))
    savedAtMs := .finite (toInt rt (row.get "saved_at_ms") rt.now)
    scoutProfile := normalizeScoutProfile (stringOr (row.get "scout_profile") [])
    roomKey := roomKeyOrNull rt (stringOr (row.get "room_key") [])
    mode := if isText (row.get "mode") "rapid" then .rapid else .match_
    eventKey := normalizeEventKeyInput rt (firstText rt [row.get "event_key"] [])
    matchKey := normalizeEventKeyInput rt (firstText rt [row.get "match_key"] [])
    matchDisplay :=
      firstText rt [row.get "match_display", row.get "match_key"] (units "Match")
    teamKey := rt.lower.key (firstText rt [row.get "team_key"] [])
    teamLabel := firstText rt [row.get "team_label", row.get "team_key"] (units "Team")
    alliance := if isText (row.get "alliance") "blue" then .blue else .red
    station := match row.get "station" with
      | some (.str s) => some s
      | _ => none
    points := points
    form := form
    driverCompetency := driver
    manualRating := manual
    overallScoutRating := overall
    scoutingApiRating := (recordOf "scouting_api_rating").bind a.normalizeScoutingApiRating
    apiSnapshot := (recordOf "api_snapshot").map a.normalizeApiSnapshot
    notes := normalizeScoutingNotes (stringOr (row.get "notes") [])
    tags := normalizeNoteTags rt (row.get "tags")
    entrySource := if isText (row.get "entry_source") "reviewed_auto" then .reviewedAuto else .manual
    autoScoutMeta := (recordOf "auto_scout_meta").bind a.normalizeAutoScoutMeta
    fieldOverrides := (recordOf "field_overrides").bind a.normalizeFieldOverrides
    serverSynced := isTrue (row.get "server_synced") }

/-- `null` for what is not a record. -/
def normalizeEntry (rt : Runtime) (value : Option Value) : Option (SavedScoutingEntry a) :=
  (Js.asRecord value).map (normalizeRecord rt)

/-! ### What the normalisers leave as it is -/

@[simp] theorem wholeNumber_natCast (n : Nat) : wholeNumber n = n := by
  rw [wholeNumber, Int.floor_natCast, Int.toNat_natCast]

theorem toInt_number (rt : Runtime) (n fallback : Nat) :
    toInt rt (some (.num (.finite n))) fallback = n :=
  wholeNumber_natCast n

theorem toLevel_number (rt : Runtime) (level : Level) (fallback : Option Level) :
    toLevel rt (some (.num (.finite level.val))) fallback = some level := by
  obtain ⟨n, hlow, hhigh⟩ := level
  simp only [toLevel, parseNumber]
  split
  · rename_i hone
    have hn : n = 1 := le_antisymm (by exact_mod_cast hone) hlow
    subst hn
    rfl
  · split
    · rename_i hfive
      have hn : n = 5 := le_antisymm hhigh (by exact_mod_cast hfive)
      subst hn
      rfl
    · have hfloor : ⌊(n : ℚ) + 1 / 2⌋ = n := by
        rw [Int.floor_intCast_add]
        norm_num
      simp only [roundLevel, hfloor]

theorem normalizeEndgame_name (mode : EndgameMode) :
    normalizeEndgame (some (.str (units mode.name))) = mode := by
  cases mode <;> decide +kernel

theorem firstText_of_ne (rt : Runtime) {s : Str} (h : s ≠ []) (rest : List (Option Value))
    (default : Str) : firstText rt (some (.str s) :: rest) default = s := by
  have htruthy : Js.truthy (some (.str s)) = true := by
    rw [Js.truthy, Bool.not_eq_true', List.isEmpty_eq_false_iff]
    exact h
  rw [firstText, List.find?_cons_of_pos htruthy]
  rfl

theorem firstText_nil (rt : Runtime) (rest : List (Option Value)) (default : Str) :
    firstText rt (some (.str []) :: rest) default = firstText rt rest default := by
  rw [firstText, firstText, List.find?_cons_of_neg (by decide)]

/-- `String(text || '')` of a string. -/
theorem firstText_self (rt : Runtime) (s : Str) : firstText rt [some (.str s)] [] = s := by
  cases s with
  | nil => rw [firstText_nil]; rfl
  | cons u s => exact firstText_of_ne rt (List.cons_ne_nil u s) [] []

theorem firstText_two_ne (rt : Runtime) (s t : Str) {default : Str} (h : default ≠ []) :
    firstText rt [some (.str s), some (.str t)] default ≠ [] := by
  cases s with
  | cons u s =>
      rw [firstText_of_ne rt (List.cons_ne_nil u s)]
      exact List.cons_ne_nil u s
  | nil =>
      rw [firstText_nil]
      cases t with
      | cons u t =>
          rw [firstText_of_ne rt (List.cons_ne_nil u t)]
          exact List.cons_ne_nil u t
      | nil =>
          rw [firstText_nil]
          exact h

/-! ### Normalised once more -/

theorem length_scoutProfile_le (raw : Str) : (normalizeScoutProfile raw).length ≤ 40 := by
  rw [normalizeScoutProfile, List.length_take]
  exact Nat.min_le_left _ _

theorem startsWithSpace_scoutProfile (raw : Str) :
    Js.startsWithSpace (normalizeScoutProfile raw) = false := by
  have hstart := (Js.trimmed_trim raw).start
  rw [← Js.startsWithSpace_collapse] at hstart
  rw [normalizeScoutProfile, Js.startsWithSpace, List.head?_take]
  exact hstart

/-- A profile cut behind a blank loses the blank the second time, and no other does. -/
theorem scoutProfile_again_iff (raw : Str) :
    normalizeScoutProfile (normalizeScoutProfile raw) = normalizeScoutProfile raw ↔
      Js.endsWithSpace (normalizeScoutProfile raw) = false := by
  have hstart := startsWithSpace_scoutProfile raw
  have hlength := length_scoutProfile_le raw
  have hsqueezed : Js.Squeezed (normalizeScoutProfile raw) :=
    (Js.squeezed_collapse (Js.trim raw)).take 40
  generalize normalizeScoutProfile raw = s at hstart hlength hsqueezed ⊢
  cases hend : Js.endsWithSpace s with
  | false =>
      rw [normalizeScoutProfile, Js.trim_eq_self ⟨hstart, hend⟩, Js.collapse_eq_self hsqueezed,
        List.take_of_length_le hlength]
      exact iff_of_true rfl rfl
  | true =>
      refine iff_of_false ?_ (by decide)
      intro heq
      have hshorter := Js.length_trim_lt hend hstart
      have hcollapse := Js.length_collapse_le (Js.trim s)
      have hlist := congrArg List.length heq
      rw [normalizeScoutProfile, List.length_take] at hlist
      omega

/-- Notes whose line ends were cleaned into a new CR LF lose it the second time. -/
theorem scoutingNotes_again_iff (raw : Str) :
    normalizeScoutingNotes (normalizeScoutingNotes raw) = normalizeScoutingNotes raw ↔
      Js.hasCrLf (normalizeScoutingNotes raw) = false := by
  have hlength : (normalizeScoutingNotes raw).length ≤ 600 := by
    rw [normalizeScoutingNotes, List.length_take]
    exact Nat.min_le_left _ _
  generalize normalizeScoutingNotes raw = s at hlength ⊢
  rw [normalizeScoutingNotes,
    List.take_of_length_le ((Js.length_replaceCrLf_le s).trans hlength)]
  exact Js.replaceCrLf_eq_self_iff s

/-- What building a report leaves of its texts. -/
theorem build_keys (rt : Runtime) (payload : EntryPayload a) :
    let entry := buildSavedScoutingEntry rt payload
    rt.lower.key entry.eventKey = entry.eventKey ∧
    rt.lower.key entry.matchKey = entry.matchKey ∧ rt.lower.key entry.teamKey = entry.teamKey :=
  ⟨rt.lower.key_key _, rt.lower.key_key _, rt.lower.key_key _⟩

theorem build_labels (rt : Runtime) (payload : EntryPayload a) :
    let entry := buildSavedScoutingEntry rt payload
    entry.matchDisplay ≠ [] ∧ entry.teamLabel ≠ [] :=
  ⟨firstText_two_ne rt _ _ (by decide), firstText_two_ne rt _ _ (by decide)⟩

/-- A save time is a whole number, unless the clock gave none. -/
theorem savedAt_finite {ms : Number} {q : ℚ} (h : savedAt ms = .finite q) : ∃ n : Nat, q = n := by
  cases ms with
  | finite r => exact ⟨wholeNumber r, (Number.finite.inj h).symm⟩
  | nan => cases h
  | posInf => cases h
  | negInf => exact ⟨0, (Number.finite.inj h).symm.trans Nat.cast_zero.symm⟩

end Frcmob.ScoutReport
