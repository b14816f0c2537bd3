import Frcmob.Reports.StoredRatings

/-!
Reports that are normalised again, as every load, merge and import does: what the second
`normalizeEntry` makes of the record that the first one gave.
-/

namespace Frcmob.ScoutReport

open Js (Str Number Value Record units)

/-! ### Reports as records -/

/-- The ratings as the app computes and reads them. -/
abbrev analytics (exp : ℚ → ℚ) (rt : Runtime) : Analytics where
  Driver := DriverCompetency
  Manual := ManualScoutingRating
  Overall := OverallScoutRating
  ApiRating := ScoutingApiRating
  ApiSnapshot := ApiTeamSnapshot
  AutoScoutMeta := AutoScoutMeta
  FieldOverrides := FieldOverrides
  driverCompetency := driverCompetency exp
  manualScoutingRating := manualScoutingRating
  overallScoutRating := overallScoutRating exp
  normalizeDriver := normalizeDriver rt
  normalizeManualRating := normalizeManualRating rt
  normalizeOverallScoutRating := normalizeOverallScoutRating rt exp
  normalizeScoutingApiRating := normalizeScoutingApiRating rt
  normalizeApiSnapshot := normalizeApiSnapshot rt
  normalizeAutoScoutMeta := normalizeAutoScoutMeta rt
  normalizeFieldOverrides := normalizeFieldOverrides

def EntrySource.name : EntrySource → String
  | .manual => "manual"
  | .reviewedAuto => "reviewed_auto"

def Points.record (points : Points) : Record :=
  [("auto", number points.auto), ("teleop", number points.teleop),
    ("endgame", number points.endgame), ("total", number points.total)]

def strOrNull (value : Option Str) : Value :=
  value.elim .null .str

def recordOrNull {α : Type} (value : Option α) (record : α → Record) : Value :=
  value.elim .null fun x => .obj (record x)

variable {exp : ℚ → ℚ} {rt : Runtime}

/-- The object that `normalizeEntry` returns. -/
def entryRecord (entry : SavedScoutingEntry (analytics exp rt)) : Record :=
  [("id", .str entry.id), ("saved_at_ms", .num entry.savedAtMs),
    ("scout_profile", .str entry.scoutProfile), ("room_key", strOrNull entry.roomKey),
    ("mode", .str (units entry.mode.name)), ("event_key", .str entry.eventKey),
    ("match_key", .str entry.matchKey), ("match_display", .str entry.matchDisplay),
    ("team_key", .str entry.teamKey), ("team_label", .str entry.teamLabel),
    ("alliance", .str (units entry.alliance.name)), ("station", strOrNull entry.station),
    ("points", .obj entry.points.record), ("form", .obj (unpackForm (packForm entry.form))),
    ("driver_competency", .obj (DriverCompetency.record entry.driverCompetency)),
    ("manual_rating", .obj (ManualScoutingRating.record entry.manualRating)),
    ("overall_scout_rating", .obj (OverallScoutRating.record entry.overallScoutRating)),
    ("scouting_api_rating", recordOrNull entry.scoutingApiRating ScoutingApiRating.record),
    ("api_snapshot", recordOrNull entry.apiSnapshot ApiTeamSnapshot.record),
    ("notes", .str entry.notes),
    ("tags", .arr (entry.tags.map fun tag => .str (units tag.id))),
    ("entry_source", .str (units entry.entrySource.name)),
    ("auto_scout_meta", recordOrNull entry.autoScoutMeta AutoScoutMeta.record),
    ("field_overrides", recordOrNull entry.fieldOverrides FieldOverrides.record)] ++
    if entry.serverSynced then [("server_synced", .bool true)] else []

/-- `normalizeEntry`, as a function of values. -/
def normalized (exp : ℚ → ℚ) (rt : Runtime) (value : Value) : Option Value :=
  (normalizeEntry rt (some value)).map fun entry : SavedScoutingEntry (analytics exp rt) =>
    .obj (entryRecord entry)

section
variable {α : Type} {record : α → Record}

theorem asRecord_recordOrNull (value : Option α) :
    Js.asRecord (some (recordOrNull value record)) = value.map record := by
  cases value <;> rfl

theorem bind_recordOrNull {read : Record → Option α} (h : ∀ x, read (record x) = some x)
    (value : Option α) : (Js.asRecord (some (recordOrNull value record))).bind read = value := by
  rw [asRecord_recordOrNull]
  cases value with
  | none => rfl
  | some x => exact h x

theorem map_recordOrNull {read : Record → α} (h : ∀ x, read (record x) = x)
    (value : Option α) : (Js.asRecord (some (recordOrNull value record))).map read = value := by
  rw [asRecord_recordOrNull]
  cases value with
  | none => rfl
  | some x => exact congrArg some (h x)

end

theorem stringOrNull_strOrNull (value : Option Str) :
    stringOrNull (some (strOrNull value)) = value := by
  cases value <;> rfl

/-! ### Letters that lower case leaves -/

/-- Lower-case letters, digits, `_` and `-` are left as they are. -/
def KeepsRoomKeys (lower : Js.Lowering) : Prop :=
  ∀ s, (∀ u ∈ s, isRoomKeyUnit u = true) → lower.run s = s

theorem isSpace_of_isRoomKeyUnit {u : UInt16} (h : isRoomKeyUnit u = true) :
    Js.isSpace u = false := by
  -- `List.all`, since a decided `∀ u ∈ _` may range over every code unit instead
  have hspaces : Js.spaces.all (fun u => !isRoomKeyUnit u) = true := by decide
  rw [← Bool.not_eq_true, Js.isSpace, List.contains_iff_mem]
  intro hmem
  have hnot := List.all_eq_true.mp hspaces u hmem
  rw [h] at hnot
  cases hnot

theorem KeepsRoomKeys.key {lower : Js.Lowering} (h : KeepsRoomKeys lower) {s : Str}
    (hs : ∀ u ∈ s, isRoomKeyUnit u = true) : lower.key s = s := by
  have htrimmed : Js.Trimmed s :=
    Js.trimmed_of_forall fun u hu => isSpace_of_isRoomKeyUnit (hs u hu)
  rw [Js.Lowering.key, Js.trim_eq_self htrimmed, h s hs]

theorem normalizeRoomKey_units (rt : Runtime) (raw : Str) :
    ∀ u ∈ normalizeRoomKey rt raw, isRoomKeyUnit u = true :=
  fun _ hu => (List.mem_filter.mp (List.mem_of_mem_take hu)).2

theorem normalizeRoomKey_again {rt : Runtime} (h : KeepsRoomKeys rt.lower) (raw : Str) :
    normalizeRoomKey rt (normalizeRoomKey rt raw) = normalizeRoomKey rt raw := by
  have hunits := normalizeRoomKey_units rt raw
  have hlength : (normalizeRoomKey rt raw).length ≤ 48 := by
    rw [normalizeRoomKey, List.length_take]
    exact Nat.min_le_left _ _
  generalize normalizeRoomKey rt raw = key at hunits hlength ⊢
  rw [normalizeRoomKey, h.key hunits, List.filter_eq_self.mpr hunits,
    List.take_of_length_le hlength]

theorem normalizeRoomKey_nil {rt : Runtime} (h : KeepsRoomKeys rt.lower) :
    normalizeRoomKey rt [] = [] := by
  rw [normalizeRoomKey, h.key fun u hu => (List.not_mem_nil hu).elim]
  rfl

/-- A room key is read back from what it was written as. -/
theorem roomKeyOrNull_again {rt : Runtime} (h : KeepsRoomKeys rt.lower) (raw : Str) :
    roomKeyOrNull rt (stringOr (some (strOrNull (roomKeyOrNull rt raw))) []) =
      roomKeyOrNull rt raw := by
  by_cases hempty : normalizeRoomKey rt raw = []
  · have hnone : roomKeyOrNull rt raw = none := if_pos hempty
    rw [hnone]
    exact if_pos (normalizeRoomKey_nil h)
  · have hsome : roomKeyOrNull rt raw = some (normalizeRoomKey rt raw) := if_neg hempty
    rw [hsome]
    change roomKeyOrNull rt (normalizeRoomKey rt raw) = _
    rw [roomKeyOrNull, normalizeRoomKey_again h, if_neg hempty]

theorem tagText_id {rt : Runtime} (h : KeepsRoomKeys rt.lower) (tag : ScoutNoteTag) :
    tagText rt (.str (units tag.id)) = units tag.id := by
  have hunits : (units tag.id).all isRoomKeyUnit = true := by
    cases tag <;> decide
  exact h.key (List.all_eq_true.mp hunits)

theorem units_id_inj {tag tag' : ScoutNoteTag} (h : units tag.id = units tag'.id) : tag = tag' := by
  have hall : ∀ x ∈ scoutNoteTags, ∀ y ∈ scoutNoteTags, units x.id = units y.id → x = y := by
    decide
  have hmem : ∀ x : ScoutNoteTag, x ∈ scoutNoteTags := fun x => by cases x <;> decide
  exact hall tag (hmem tag) tag' (hmem tag') h

theorem normalizeNoteTags_again {rt : Runtime} (h : KeepsRoomKeys rt.lower)
    (value : Option Value) :
    normalizeNoteTags rt (some (.arr
      ((normalizeNoteTags rt value).map fun tag => .str (units tag.id)))) =
    normalizeNoteTags rt value := by
  have hkept : ∀ kept : ScoutNoteTag → Bool, normalizeNoteTags rt (some (.arr
      ((scoutNoteTags.filter kept).map fun tag => .str (units tag.id)))) =
        scoutNoteTags.filter kept := by
    intro kept
    have htexts : (scoutNoteTags.filter kept).map (fun tag => tagText rt (.str (units tag.id))) =
        (scoutNoteTags.filter kept).map fun tag => units tag.id :=
      List.map_congr_left fun tag _ => tagText_id h tag
    rw [normalizeNoteTags, List.map_map, Function.comp_def, htexts]
    apply List.filter_congr
    intro tag htag
    rw [Bool.eq_iff_iff, decide_eq_true_iff, List.mem_map]
    constructor
    · rintro ⟨other, hother, heq⟩
      rw [← units_id_inj heq]
      exact (List.mem_filter.mp hother).2
    · exact fun hkeep => ⟨tag, List.mem_filter.mpr ⟨htag, hkeep⟩, rfl⟩
  cases value with
  | none => exact hkept fun _ => false
  | some v =>
      cases v with
      | arr items => exact hkept fun tag => units tag.id ∈ items.map (tagText rt)
      | null | bool _ | num _ | str _ | obj _ => exact hkept fun _ => false

/-! ### What the second pass reads -/

/-- What the second pass makes of a report. -/
def SavedScoutingEntry.again (entry : SavedScoutingEntry (analytics exp rt)) :
    SavedScoutingEntry (analytics exp rt) :=
  { entry with
    scoutProfile := normalizeScoutProfile entry.scoutProfile
    matchDisplay := firstText rt [some (.str entry.matchDisplay), some (.str entry.matchKey)]
      (units "Match")
    teamLabel := firstText rt [some (.str entry.teamLabel), some (.str entry.teamKey)]
      (units "Team")
    notes := normalizeScoutingNotes entry.notes }

/-- The clock goes on, and ids are drawn anew. -/
def Runtime.later (rt : Runtime) (now : Nat) (freshId : Number → Str) : Runtime :=
  { rt with now := now, freshId := freshId }

variable {now : Nat} {freshId : Number → Str}

theorem normalizePoints_record (points derived : Points) :
    normalizePoints rt (some points.record) derived = points :=
  rfl

theorem firstText_strs (rt rt' : Runtime) (candidates : List Str) (default : Str) :
    firstText rt (candidates.map fun s => some (.str s)) default =
      firstText rt' (candidates.map fun s => some (.str s)) default := by
  induction candidates with
  | nil => rfl
  | cons s candidates ih =>
      cases s with
      | nil => rw [List.map_cons, firstText_nil, firstText_nil, ih]
      | cons u s =>
          have hne : u :: s ≠ [] := List.cons_ne_nil u s
          rw [List.map_cons, firstText_of_ne rt hne, firstText_of_ne rt' hne]

/-- A key that was trimmed and lowered, read from its text. -/
theorem key_again (rt' : Runtime) (raw : Str) :
    rt.lower.key (firstText rt' [some (.str (rt.lower.key raw))] []) = rt.lower.key raw := by
  rw [firstText_self, rt.lower.key_key]

theorem isText_mode (mode : Mode) :
    (if isText (some (.str (units mode.name))) "rapid" then Mode.rapid else .match_) = mode := by
  cases mode <;> decide

theorem isText_alliance (alliance : Alliance) :
    (if isText (some (.str (units alliance.name))) "blue" then Alliance.blue else .red) =
      alliance := by
  cases alliance <;> decide

theorem isText_entrySource (source : EntrySource) :
    (if isText (some (.str (units source.name))) "reviewed_auto" then EntrySource.reviewedAuto
      else .manual) = source := by
  cases source <;> decide

theorem get_serverSynced (entry : SavedScoutingEntry (analytics exp rt)) :
    isTrue ((entryRecord entry).get "server_synced") = entry.serverSynced := by
  cases hsynced : entry.serverSynced with
  | false => simp only [entryRecord, hsynced]; rfl
  | true => simp only [entryRecord, hsynced]; rfl

/-- The second pass changes four texts at most. -/
theorem entryRecord_again (hlower : KeepsRoomKeys rt.lower) (row : Record) :
    let entry : SavedScoutingEntry (analytics exp rt) := normalizeRecord rt row
    let second : SavedScoutingEntry (analytics exp (rt.later now freshId)) :=
      normalizeRecord (rt.later now freshId) (entryRecord entry)
    entryRecord second = entryRecord entry.again := by
  intro entry second
  have hid : second.id = entry.id := rfl
  have hsaved : second.savedAtMs = entry.savedAtMs :=
    congrArg (fun ms : Nat => Number.finite ms) (toInt_number _ _ _)
  have hprofile : second.scoutProfile = entry.again.scoutProfile := rfl
  have hroom : second.roomKey = entry.roomKey := roomKeyOrNull_again hlower _
  have hmode : second.mode = entry.mode := isText_mode _
  have hevent : second.eventKey = entry.eventKey := key_again _ _
  have hmatch : second.matchKey = entry.matchKey := key_again _ _
  have hdisplay : second.matchDisplay = entry.again.matchDisplay :=
    firstText_strs _ _ [entry.matchDisplay, entry.matchKey] _
  have hteam : second.teamKey = entry.teamKey := key_again _ _
  have hlabel : second.teamLabel = entry.again.teamLabel :=
    firstText_strs _ _ [entry.teamLabel, entry.teamKey] _
  have halliance : second.alliance = entry.alliance := isText_alliance _
  have hstation : second.station = entry.station := stringOrNull_strOrNull _
  have hpoints : second.points = entry.points := rfl
  have hform : second.form = entry.form := normalizeForm_unpackForm _ _
  have hdriver : (second.driverCompetency : DriverCompetency) = entry.driverCompetency :=
    normalizeDriver_record _ _
  have hmanual : (second.manualRating : ManualScoutingRating) = entry.manualRating :=
    normalizeManualRating_record _ _ _ _
  have hoverall : (second.overallScoutRating : OverallScoutRating) = entry.overallScoutRating :=
    normalizeOverallScoutRating_record _ _ _ _ _ _
  have hrating : (second.scoutingApiRating : Option ScoutingApiRating) = entry.scoutingApiRating :=
    bind_recordOrNull (normalizeScoutingApiRating_record _) _
  have hsnapshot : (second.apiSnapshot : Option ApiTeamSnapshot) = entry.apiSnapshot :=
    map_recordOrNull (normalizeApiSnapshot_record _) _
  have hnotes : second.notes = entry.again.notes := rfl
  have htags : second.tags = entry.tags := normalizeNoteTags_again hlower _
  have hsource : second.entrySource = entry.entrySource := isText_entrySource _
  have hmeta : (second.autoScoutMeta : Option AutoScoutMeta) = entry.autoScoutMeta :=
    bind_recordOrNull (normalizeAutoScoutMeta_record _) _
  have hoverrides : (second.fieldOverrides : Option FieldOverrides) = entry.fieldOverrides :=
    bind_recordOrNull normalizeFieldOverrides_record _
  have hsynced : second.serverSynced = entry.serverSynced := get_serverSynced entry
  simp only [entryRecord, hid, hsaved, hprofile, hroom, hmode, hevent, hmatch, hdisplay, hteam,
    hlabel, halliance, hstation, hpoints, hform, hdriver, hmanual, hoverall, hrating, hsnapshot,
    hnotes, htags, hsource, hmeta, hoverrides, hsynced]
  rfl

/-! ### Normalised twice -/

/-- The texts that the second pass may change. -/
structure Steady (rt : Runtime) (row : Record) : Prop where
  /-- the profile, trimmed and with single blanks, is not cut behind a blank -/
  scoutProfile :
    let profile := Js.collapse (Js.trim (stringOr (row.get "scout_profile") []))
    ¬ (40 < profile.length ∧ profile[39]? = some Js.space)
  /-- no two carriage returns before a line feed, ahead of where the notes are cut -/
  notes : ∀ before after, stringOr (row.get "notes") [] =
      before ++ Js.carriageReturn :: Js.carriageReturn :: Js.lineFeed :: after →
    600 < (Js.replaceCrLf before).length + 2
  /-- what stands for a label is no list or object whose text is empty -/
  matchDisplay : ∀ v, [row.get "match_display", row.get "match_key"].find? Js.truthy =
    some (some v) → text rt v ≠ []
  teamLabel : ∀ v, [row.get "team_label", row.get "team_key"].find? Js.truthy =
    some (some v) → text rt v ≠ []

theorem firstText_ne_nil_iff (rt : Runtime) {candidates : List (Option Value)} {default : Str}
    (h : default ≠ []) : firstText rt candidates default ≠ [] ↔
      ∀ v, candidates.find? Js.truthy = some (some v) → text rt v ≠ [] := by
  rw [firstText]
  cases candidates.find? Js.truthy with
  | none => exact iff_of_true h fun _ heq => by cases heq
  | some candidate =>
      cases candidate with
      | none => exact iff_of_true h fun _ heq => by cases heq
      | some v =>
          constructor
          · intro hne w heq
            rw [← Option.some.inj (Option.some.inj heq)]
            exact hne
          · exact fun hall => hall v rfl

/-- A label is kept unless it is empty. -/
theorem label_steady_iff (rt : Runtime) (candidates : List (Option Value)) (key : Str)
    {default : Str} (h : default ≠ []) :
    firstText rt [some (.str (firstText rt candidates default)), some (.str key)] default =
        firstText rt candidates default ↔
      ∀ v, candidates.find? Js.truthy = some (some v) → text rt v ≠ [] := by
  rw [← firstText_ne_nil_iff rt h]
  constructor
  · intro heq hnil
    have hne := firstText_two_ne rt (firstText rt candidates default) key h
    rw [heq] at hne
    exact hne hnil
  · exact fun hne => firstText_of_ne rt hne _ _

theorem scoutProfile_steady_iff (raw : Str) :
    normalizeScoutProfile (normalizeScoutProfile raw) = normalizeScoutProfile raw ↔
      ¬ (40 < (Js.collapse (Js.trim raw)).length ∧
        (Js.collapse (Js.trim raw))[39]? = some Js.space) := by
  have hend : Js.endsWithSpace (Js.collapse (Js.trim raw)) = false := by
    rw [Js.endsWithSpace_collapse]
    exact (Js.trimmed_trim raw).finish
  rw [scoutProfile_again_iff, ← Js.endsWithSpace_take hend (Js.squeezed_collapse _) 39,
    Bool.not_eq_true]
  rfl

theorem scoutingNotes_steady_iff (raw : Str) :
    normalizeScoutingNotes (normalizeScoutingNotes raw) = normalizeScoutingNotes raw ↔
      ∀ before after,
        raw = before ++ Js.carriageReturn :: Js.carriageReturn :: Js.lineFeed :: after →
          600 < (Js.replaceCrLf before).length + 2 := by
  rw [scoutingNotes_again_iff, ← Bool.not_eq_true, normalizeScoutingNotes,
    Js.hasCrLf_take_replaceCrLf]
  push Not
  rfl

theorem entryRecord_again_iff (entry : SavedScoutingEntry (analytics exp rt)) :
    entryRecord entry.again = entryRecord entry ↔
      entry.again.scoutProfile = entry.scoutProfile ∧ entry.again.notes = entry.notes ∧
        entry.again.matchDisplay = entry.matchDisplay ∧
          entry.again.teamLabel = entry.teamLabel := by
  constructor
  · intro heq
    have hget : ∀ {key : String} {s t : Str}, (entryRecord entry.again).get key = some (.str s) →
        (entryRecord entry).get key = some (.str t) → s = t := by
      intro key s t hs ht
      rw [heq, ht] at hs
      exact (Value.str.inj (Option.some.inj hs)).symm
    exact ⟨@hget "scout_profile" _ _ rfl rfl, @hget "notes" _ _ rfl rfl,
      @hget "match_display" _ _ rfl rfl, @hget "team_label" _ _ rfl rfl⟩
  · rintro ⟨hprofile, hnotes, hdisplay, hlabel⟩
    simp only [entryRecord, hprofile, hnotes, hdisplay, hlabel]
    rfl

theorem normalized_obj (exp : ℚ → ℚ) (rt : Runtime) (row : Record) :
    normalized exp rt (.obj row) =
      some (.obj (entryRecord (normalizeRecord rt row : SavedScoutingEntry (analytics exp rt)))) :=
  rfl

theorem normalized_again_iff (exp : ℚ → ℚ) {rt : Runtime} (hlower : KeepsRoomKeys rt.lower)
    {value report : Value} (hreport : normalized exp rt value = some report) (now : Nat)
    (freshId : Number → Str) :
    normalized exp (rt.later now freshId) report = some report ↔
      ∃ row, value = .obj row ∧ Steady rt row := by
  cases value with
  | null | bool _ | num _ | str _ | arr _ => cases hreport
  | obj row =>
      rw [normalized_obj] at hreport
      cases hreport
      rw [normalized_obj, entryRecord_again hlower, Option.some_inj, Value.obj.injEq,
        entryRecord_again_iff]
      constructor
      · rintro ⟨hprofile, hnotes, hdisplay, hlabel⟩
        exact ⟨row, rfl, (scoutProfile_steady_iff _).mp hprofile,
          (scoutingNotes_steady_iff _).mp hnotes,
          (label_steady_iff rt _ _ (by decide)).mp hdisplay,
          (label_steady_iff rt _ _ (by decide)).mp hlabel⟩
      · rintro ⟨_, hrow, hsteady⟩
        cases hrow
        exact ⟨(scoutProfile_steady_iff _).mpr hsteady.scoutProfile,
          (scoutingNotes_steady_iff _).mpr hsteady.notes,
          (label_steady_iff rt _ _ (by decide)).mpr hsteady.matchDisplay,
          (label_steady_iff rt _ _ (by decide)).mpr hsteady.teamLabel⟩

/-! ### A profile cut behind a blank -/

theorem keepsRoomKeys_ascii : KeepsRoomKeys Js.Lowering.ascii := by
  intro s hs
  refine (List.map_congr_left fun u hu => ?_).trans (List.map_id s)
  have hkept : ∀ u : UInt16, isRoomKeyUnit u = true → ¬ (65 ≤ u ∧ u ≤ 90) := by
    intro u hu hupper
    simp only [isRoomKeyUnit, Bool.or_eq_true, Bool.and_eq_true, decide_eq_true_eq] at hu
    grind
  exact if_neg (hkept u (hs u hu))

def expSeries (x : ℚ) : ℚ :=
  1 + x + x ^ 2 / 2

/-- A report from another phone, of `scout`. -/
def receivedReport (scout : String) : Record :=
  [("id", .str (units "1760000000000-a1b2c3")), ("saved_at_ms", number 1760000000000),
    ("scout_profile", .str (units scout)), ("mode", .str (units "match")),
    ("event_key", .str (units "2026busy")), ("match_key", .str (units "2026busy_qm9")),
    ("match_display", .str (units "Qual 9")), ("team_key", .str (units "frc254")),
    ("team_label", .str (units "254")), ("alliance", .str (units "red")), ("station", .null),
    ("form", .obj []), ("notes", .str (units "Fell over"))]

theorem normalized_again_iff_plain :
    ∃ report, normalized expSeries plainRuntime (.obj (receivedReport "Ada")) = some report ∧
      (normalized expSeries (plainRuntime.later 0 plainRuntime.freshId) report = some report ↔
        ∃ row, Value.obj (receivedReport "Ada") = .obj row ∧ Steady plainRuntime row) :=
  ⟨_, rfl, normalized_again_iff expSeries keepsRoomKeys_ascii rfl 0 plainRuntime.freshId⟩

/-- The blank behind which the profile was cut goes with the second pass. -/
theorem cut_profile_normalized_again :
    ∃ report,
      normalized expSeries plainRuntime
        (.obj (receivedReport "Ada and Grace, blue corner, front stand Anna")) = some report ∧
      normalized expSeries (plainRuntime.later 0 plainRuntime.freshId) report ≠ some report := by
  refine ⟨_, rfl, fun heq => ?_⟩
  rw [normalized_obj, entryRecord_again keepsRoomKeys_ascii, Option.some_inj, Value.obj.injEq,
    entryRecord_again_iff] at heq
  exact absurd heq.1 (by decide)

end Frcmob.ScoutReport
