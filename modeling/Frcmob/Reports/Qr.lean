import Frcmob.Lib.Base64
import Frcmob.Reports.Normalized

/-!
A report handed over as a QR code: `encodeEntryForQr` and `decodeEntryFromQr` of
`qrUtils.ts`. The browser's JSON, text encoder and compression streams are a channel; the
base64 is spelled out.
-/

namespace Frcmob.ScoutReport

open Js (Str Number Value Record units)

variable {a : Analytics}

/-- JSON, UTF-8 and the compression streams; what throws has no value. -/
structure Channel where
  stringify : Value → Str
  parse : Str → Option Value
  encodeText : Str → List UInt8
  decodeText : List UInt8 → Str
  hasStreams : Bool
  deflate : List UInt8 → List UInt8
  inflate : List UInt8 → Option (List UInt8)

/-! ### The compact form -/

/-- The canonical form field order. -/
def formKeys : List FormKey :=
  [.flag .autoMobility, .count .autoScored, .count .autoMissed, .count .autoPickups,
    .count .autoCycles, .grade .autoPathQuality, .count .teleopScored, .count .teleopMissed,
    .count .teleopUnderDefenseScored, .count .teleopUnderDefenseAttempts, .count .teleopCycles,
    .count .teleopDrops, .count .intakeFailures, .count .foulCount, .grade .offenseLevel,
    .grade .defenseLevel, .grade .fieldAwareness, .grade .decisionQuality, .grade .communication,
    .grade .antiDefenseLevel, .grade .escapeLevel, .grade .rerouteLevel, .grade .hitRecoveryLevel,
    .count .bumpCrosses, .count .trenchCrosses, .flag .climbedUnderPressure,
    .flag .protectedZoneRisk, .endgameMode]

def number (q : ℚ) : Value :=
  .num (.finite q)

/-- `form[key]` -/
def ScoutForm.value (form : ScoutForm) : FormKey → Value
  | .flag f => .bool (form.flag f)
  | .count c => number (form.count c)
  | .grade g => (form.grade g).elim .null fun level => number level.val
  | .endgameMode => .str (units form.endgameMode.name)

def packForm (form : ScoutForm) : List Value :=
  formKeys.map form.value

/-- The items of `f`; `null` and `undefined` have none to read and throw. -/
def itemsOf : Option Value → Option (List Value)
  | none => none
  | some .null => none
  | some (.arr items) => some items
  | some (.str s) => some (s.map fun u => .str [u])
  | some _ => some []

def unpackForm (values : List Value) : Record :=
  (formKeys.map FormKey.name).zip values

def Mode.name : Mode → String
  | .match_ => "match"
  | .rapid => "rapid"

def Alliance.name : Alliance → String
  | .red => "red"
  | .blue => "blue"

def entryToCompact (entry : SavedScoutingEntry a) : Record :=
  [("v", number 1), ("t", .num entry.savedAtMs), ("sp", .str entry.scoutProfile),
    ("m", .str (units entry.mode.name)), ("ek", .str entry.eventKey), ("mk", .str entry.matchKey),
    ("md", .str entry.matchDisplay), ("tk", .str entry.teamKey), ("tl", .str entry.teamLabel),
    ("al", .str (units entry.alliance.name)), ("st", entry.station.elim .null .str),
    ("f", .arr (packForm entry.form)), ("rp", number 0), ("n", .str entry.notes)]

/-- The properties of an object literal that are not `undefined`. -/
def defined (fields : List (String × Option Value)) : Record :=
  fields.filterMap fun f => f.2.map fun v => (f.1, v)

def compactToRaw (compact : Record) : Option Record :=
  (itemsOf (compact.get "f")).map fun values =>
    defined
      [("saved_at_ms", compact.get "t"), ("scout_profile", compact.get "sp"),
        ("mode", compact.get "m"), ("event_key", compact.get "ek"),
        ("match_key", compact.get "mk"), ("match_display", compact.get "md"),
        ("team_key", compact.get "tk"), ("team_label", compact.get "tl"),
        ("alliance", compact.get "al"), ("station", compact.get "st"),
        ("form", some (.obj (unpackForm values))), ("notes", compact.get "n")]

/-! ### Bytes and letters -/

def Channel.compressBytes (ch : Channel) (data : List UInt8) : List UInt8 :=
  if ch.hasStreams then ch.deflate data else data

def Channel.decompressBytes (ch : Channel) (data : List UInt8) : Option (List UInt8) :=
  if ch.hasStreams then ch.inflate data else some data

/-- A plus sign is written as a minus sign, a slash as an underscore. -/
def toUrlLetter (u : UInt16) : UInt16 :=
  if u = 43 then 45 else if u = 47 then 95 else u

/-- And back. -/
def fromUrlLetter (u : UInt16) : UInt16 :=
  if u = 45 then 43 else if u = 95 then 47 else u

/-- `.replace(/=+$/, '')` -/
def stripFilling (s : Str) : Str :=
  (s.reverse.dropWhile (· = Base64.pad)).reverse

def uint8ToBase64url (bytes : List UInt8) : Str :=
  stripFilling ((Base64.btoa bytes).map toUrlLetter)

/-- `while (b64.length % 4 !== 0) b64 += '='` -/
def fillUp (s : Str) : Str :=
  s ++ List.replicate ((4 - s.length % 4) % 4) Base64.pad

def base64urlToUint8 (s : Str) : Option (List UInt8) :=
  Base64.atob (fillUp (s.map fromUrlLetter))

def qrPrefix : Str :=
  units "FRCMOB1:"

def encodeEntryForQr (ch : Channel) (entry : SavedScoutingEntry a) : Str :=
  let jsonStr := ch.stringify (.obj (entryToCompact entry))
  qrPrefix ++ uint8ToBase64url (ch.compressBytes (ch.encodeText jsonStr))

/-- `compact.v === 1` -/
def isVersionOne : Option Value → Bool
  | some (.num (.finite q)) => q = 1
  | _ => false

def decodeCompact : Value → Option Record
  | .obj compact => if isVersionOne (Js.Record.get compact "v") then compactToRaw compact else none
  | _ => none

def decodeEntryFromQr (ch : Channel) (qrString : Str) : Option Record :=
  let str := Js.trim qrString
  if qrPrefix.isPrefixOf str then
    (base64urlToUint8 (str.drop qrPrefix.length)).bind fun compressed =>
      (ch.decompressBytes compressed).bind fun raw =>
        (ch.parse (ch.decodeText raw)).bind decodeCompact
  else none

/-! ### Letters come back as the bytes -/

theorem fromUrlLetter_toUrlLetter {n : Nat} (h : n < 64) :
    fromUrlLetter (toUrlLetter (Base64.letter n)) = Base64.letter n := by
  have hall : ∀ m < 64, fromUrlLetter (toUrlLetter (Base64.letter m)) = Base64.letter m := by
    decide
  exact hall n h

theorem toUrlLetter_ne_pad {n : Nat} (h : n < 64) :
    toUrlLetter (Base64.letter n) ≠ Base64.pad := by
  have hall : ∀ m < 64, toUrlLetter (Base64.letter m) ≠ Base64.pad := by decide
  exact hall n h

theorem isSpace_urlLetter {n : Nat} (h : n < 64) :
    Js.isSpace (toUrlLetter (Base64.letter n)) = false := by
  have hall : ∀ m < 64, Js.isSpace (toUrlLetter (Base64.letter m)) = false := by decide
  exact hall n h

theorem stripFilling_append {s : Str} (h : ∀ u ∈ s, u ≠ Base64.pad) (n : Nat) :
    stripFilling (s ++ List.replicate n Base64.pad) = s := by
  induction n with
  | zero =>
      rw [List.replicate_zero, List.append_nil, stripFilling]
      cases hs : s.reverse with
      | nil => rw [List.reverse_eq_nil_iff.mp hs]; rfl
      | cons u rest =>
          have hu : u ∈ s := List.mem_reverse.mp (hs ▸ List.mem_cons_self)
          rw [List.dropWhile_cons_of_neg (by simpa using h u hu), ← hs, List.reverse_reverse]
  | succ n ih =>
      rw [List.replicate_succ', ← List.append_assoc, stripFilling, List.reverse_append,
        List.reverse_singleton, List.singleton_append, List.dropWhile_cons_of_pos (by simp)]
      exact ih

/-- The letters of the bytes, without filling. -/
theorem uint8ToBase64url_eq (bytes : List UInt8) : uint8ToBase64url bytes =
    (Base64.sextets bytes).map fun n => toUrlLetter (Base64.letter n) := by
  have hletters : ∀ u ∈ (Base64.sextets bytes).map fun n => toUrlLetter (Base64.letter n),
      u ≠ Base64.pad := by
    intro u hu
    obtain ⟨n, hn, rfl⟩ := List.mem_map.mp hu
    exact toUrlLetter_ne_pad (Base64.sextets_lt bytes n hn)
  have hpad : toUrlLetter Base64.pad = Base64.pad := by decide
  rw [uint8ToBase64url, Base64.btoa, List.map_append, List.map_map, List.map_replicate, hpad]
  exact stripFilling_append hletters _

theorem base64url_bytes (bytes : List UInt8) :
    base64urlToUint8 (uint8ToBase64url bytes) = some bytes := by
  have hback : ((Base64.sextets bytes).map fun n => toUrlLetter (Base64.letter n)).map
      fromUrlLetter = (Base64.sextets bytes).map Base64.letter := by
    rw [List.map_map]
    apply List.map_congr_left
    exact fun n hn => fromUrlLetter_toUrlLetter (Base64.sextets_lt bytes n hn)
  have hfill : (4 - (Base64.sextets bytes).length % 4) % 4 = Base64.filling bytes := by
    have hlength := Base64.length_sextets bytes
    have hle := Base64.filling_le bytes
    omega
  rw [base64urlToUint8, uint8ToBase64url_eq, hback, fillUp, List.length_map, hfill]
  exact Base64.atob_btoa bytes

theorem trim_qr (bytes : List UInt8) :
    Js.trim (qrPrefix ++ uint8ToBase64url bytes) = qrPrefix ++ uint8ToBase64url bytes := by
  apply Js.trim_eq_self
  apply Js.trimmed_of_forall
  intro u hu
  rcases List.mem_append.mp hu with hprefix | hletter
  · have hall : qrPrefix.all fun v => !Js.isSpace v := by decide
    exact Bool.not_eq_true' _ ▸ List.all_eq_true.mp hall u hprefix
  · rw [uint8ToBase64url_eq] at hletter
    obtain ⟨n, hn, rfl⟩ := List.mem_map.mp hletter
    exact isSpace_urlLetter (Base64.sextets_lt bytes n hn)

/-- A value that JSON and UTF-8 carry over, in bytes that inflating gives back. -/
structure Channel.Carries (ch : Channel) (v : Value) : Prop where
  json : ch.parse (ch.decodeText (ch.encodeText (ch.stringify v))) = some v.json
  inflate : ch.inflate (ch.deflate (ch.encodeText (ch.stringify v))) =
    some (ch.encodeText (ch.stringify v))

theorem Channel.Carries.decompress {ch : Channel} {v : Value} (h : ch.Carries v) :
    ch.decompressBytes (ch.compressBytes (ch.encodeText (ch.stringify v))) =
      some (ch.encodeText (ch.stringify v)) := by
  rw [decompressBytes, compressBytes]
  split
  · exact h.inflate
  · rfl

/-- What is scanned is the compact form, as JSON leaves it. -/
theorem decode_encode {ch : Channel} {entry : SavedScoutingEntry a}
    (h : ch.Carries (.obj (entryToCompact entry))) :
    decodeEntryFromQr ch (encodeEntryForQr ch entry) =
      decodeCompact (Value.json (.obj (entryToCompact entry))) := by
  simp only [decodeEntryFromQr, encodeEntryForQr, trim_qr]
  rw [if_pos (List.isPrefixOf_iff_prefix.mpr (List.prefix_append _ _)),
    List.drop_left, base64url_bytes, Option.bind_some, h.decompress, Option.bind_some, h.json,
    Option.bind_some]

/-! ### The form comes back -/

theorem mem_formKeys (key : FormKey) : key ∈ formKeys := by
  cases key with
  | flag f => cases f <;> decide
  | count c => cases c <;> decide
  | grade g => cases g <;> decide
  | endgameMode => decide

theorem formKey_name_inj {k k' : FormKey} (h : k.name = k'.name) : k = k' := by
  have hall : ∀ x ∈ formKeys, ∀ y ∈ formKeys, x.name = y.name → x = y := by decide
  exact hall k (mem_formKeys k) k' (mem_formKeys k') h

theorem lookup_zip {keys : List FormKey} {key : FormKey} (value : FormKey → Value)
    (h : key ∈ keys) :
    ((keys.map FormKey.name).zip (keys.map value)).lookup key.name = some (value key) := by
  induction keys with
  | nil => cases h
  | cons k keys ih =>
      rw [List.map_cons, List.map_cons, List.zip_cons_cons, List.lookup_cons]
      by_cases hk : key = k
      · subst hk
        rw [beq_self_eq_true]
      · have hname : (key.name == k.name) = false :=
          beq_eq_false_iff_ne.mpr fun heq => hk (formKey_name_inj heq)
        rw [hname]
        exact ih ((List.mem_cons.mp h).resolve_left hk)

/-- Each field is unpacked from where it was packed. -/
theorem get_unpackForm (form : ScoutForm) (key : FormKey) :
    Js.Record.get (unpackForm (packForm form)) key.name = some (form.value key) :=
  lookup_zip form.value (mem_formKeys key)

theorem normalizeForm_unpackForm (rt : Runtime) (form : ScoutForm) :
    normalizeForm rt (some (unpackForm (packForm form))) = form := by
  have hflag : ∀ f : Flag,
      Js.Record.get (unpackForm (packForm form)) f.name = some (.bool (form.flag f)) :=
    fun f => get_unpackForm form (.flag f)
  have hcount : ∀ c : Count,
      Js.Record.get (unpackForm (packForm form)) c.name = some (number (form.count c)) :=
    fun c => get_unpackForm form (.count c)
  have hgrade : ∀ g : Grade, Js.Record.get (unpackForm (packForm form)) g.name =
      some ((form.grade g).elim .null fun level => number level.val) :=
    fun g => get_unpackForm form (.grade g)
  have hend : Js.Record.get (unpackForm (packForm form)) FormKey.endgameMode.name =
      some (.str (units form.endgameMode.name)) := get_unpackForm form .endgameMode
  have hgrades : ∀ g : Grade,
      toLevel rt (some ((form.grade g).elim .null fun level => number level.val)) none =
        form.grade g := by
    intro g
    cases form.grade g with
    | none => rfl
    | some level => exact toLevel_number rt level none
  have hcounts : ∀ c : Count, toInt rt (some (number (form.count c))) 0 = form.count c :=
    fun c => toInt_number rt (form.count c) 0
  simp only [normalizeForm, hflag, hcount, hgrade, hend, hgrades, hcounts,
    normalizeEndgame_name, toBool]

theorem json_value (form : ScoutForm) (key : FormKey) :
    (form.value key).json = form.value key := by
  cases key with
  | flag f => rfl
  | count c => rfl
  | grade g =>
      rw [ScoutForm.value]
      cases form.grade g with
      | none => rfl
      | some level => rfl
  | endgameMode => rfl

theorem json_packForm (form : ScoutForm) : Js.jsonItems (packForm form) = packForm form := by
  rw [Js.jsonItems_eq, packForm, List.map_map]
  apply List.map_congr_left
  exact fun key _ => json_value form key

/-! ### The report comes back -/

/-- What the scanning phone gets to normalise. -/
def rawEntry (entry : SavedScoutingEntry a) : Record :=
  [("saved_at_ms", entry.savedAtMs.json), ("scout_profile", .str entry.scoutProfile),
    ("mode", .str (units entry.mode.name)), ("event_key", .str entry.eventKey),
    ("match_key", .str entry.matchKey), ("match_display", .str entry.matchDisplay),
    ("team_key", .str entry.teamKey), ("team_label", .str entry.teamLabel),
    ("alliance", .str (units entry.alliance.name)), ("station", entry.station.elim .null .str),
    ("form", .obj (unpackForm (packForm entry.form))), ("notes", .str entry.notes)]

theorem decodeCompact_entryToCompact (entry : SavedScoutingEntry a) :
    decodeCompact (Value.json (.obj (entryToCompact entry))) = some (rawEntry entry) := by
  have hstation : Value.json (entry.station.elim .null .str) = entry.station.elim .null .str := by
    cases entry.station with
    | none => rfl
    | some s => rfl
  have hone : Value.json (number 1) = number 1 := rfl
  have hzero : Value.json (number 0) = number 0 := rfl
  simp only [entryToCompact, Value.json, Js.jsonFields, json_packForm, hstation, hone, hzero]
  rfl

/-- Scanned and normalised. -/
def handOff (rt : Runtime) (ch : Channel) (entry : SavedScoutingEntry a) :
    Option (SavedScoutingEntry a) :=
  (decodeEntryFromQr ch (encodeEntryForQr ch entry)).bind fun raw =>
    normalizeEntry rt (some (.obj raw))

/-- The same report, with the ratings its form gives. -/
structure Survives (entry received : SavedScoutingEntry a) : Prop where
  mode : received.mode = entry.mode
  eventKey : received.eventKey = entry.eventKey
  matchKey : received.matchKey = entry.matchKey
  matchDisplay : received.matchDisplay = entry.matchDisplay
  teamKey : received.teamKey = entry.teamKey
  teamLabel : received.teamLabel = entry.teamLabel
  alliance : received.alliance = entry.alliance
  station : received.station = entry.station
  form : received.form = entry.form
  notes : received.notes = entry.notes
  tags : received.tags = entry.tags
  scoutProfile : received.scoutProfile = entry.scoutProfile
  savedAtMs : received.savedAtMs = entry.savedAtMs
  points : received.points = pointsFromForm entry.form
  driver : received.driverCompetency = a.driverCompetency entry.form
  manual : received.manualRating =
    a.manualScoutingRating entry.form (a.driverCompetency entry.form)
  overall : received.overallScoutRating =
    a.overallScoutRating (pointsFromForm entry.form)
      (a.manualScoutingRating entry.form (a.driverCompetency entry.form))
      (a.driverCompetency entry.form)

/-- No tags, which the compact form has no place for; a save time; and texts that normalising
once more leaves as they are. -/
structure Portable (entry : SavedScoutingEntry a) : Prop where
  tags : entry.tags = []
  savedAtMs : ∃ q, entry.savedAtMs = .finite q
  notes : Js.hasCrLf entry.notes = false
  scoutProfile : Js.endsWithSpace entry.scoutProfile = false

theorem handOff_eq {rt : Runtime} {ch : Channel} {entry : SavedScoutingEntry a}
    (h : ch.Carries (.obj (entryToCompact entry))) :
    handOff rt ch entry = some (normalizeRecord rt (rawEntry entry)) := by
  rw [handOff, decode_encode h, decodeCompact_entryToCompact]
  rfl

theorem received_form (rt : Runtime) (entry : SavedScoutingEntry a) :
    (normalizeRecord rt (rawEntry entry) : SavedScoutingEntry a).form = entry.form :=
  normalizeForm_unpackForm rt entry.form

/-- A save time that is a whole number is read as it was written. -/
theorem received_savedAtMs (rt : Runtime) {entry : SavedScoutingEntry a} {n : Nat}
    (h : entry.savedAtMs = .finite n) :
    (normalizeRecord rt (rawEntry entry) : SavedScoutingEntry a).savedAtMs = entry.savedAtMs := by
  have hread : (normalizeRecord rt (rawEntry entry) : SavedScoutingEntry a).savedAtMs =
      .finite (toInt rt (some entry.savedAtMs.json) rt.now) := rfl
  rw [hread, h, Number.json, toInt_number]

theorem received_survives {rt : Runtime} {payload : EntryPayload a}
    (h : Portable (buildSavedScoutingEntry rt payload)) :
    Survives (buildSavedScoutingEntry rt payload)
      (normalizeRecord rt (rawEntry (buildSavedScoutingEntry rt payload))) := by
  have hkeys := build_keys rt payload
  have hlabels := build_labels rt payload
  have hprofile := scoutProfile_again_iff payload.scoutProfile
  have hnotes := scoutingNotes_again_iff payload.notes
  have hform := received_form rt (buildSavedScoutingEntry rt payload)
  have hsaved : ∃ n : Nat, (buildSavedScoutingEntry rt payload).savedAtMs = .finite n := by
    obtain ⟨q, hq⟩ := h.savedAtMs
    obtain ⟨n, rfl⟩ := savedAt_finite hq
    exact ⟨n, hq⟩
  generalize hentry : buildSavedScoutingEntry rt payload = entry at *
  constructor
  case mode => cases hmode : entry.mode <;> simp only [rawEntry, hmode] <;> rfl
  case eventKey =>
    have hread := firstText_self rt entry.eventKey
    exact (congrArg rt.lower.key hread).trans hkeys.1
  case matchKey =>
    have hread := firstText_self rt entry.matchKey
    exact (congrArg rt.lower.key hread).trans hkeys.2.1
  case matchDisplay => exact firstText_of_ne rt hlabels.1 _ _
  case teamKey =>
    have hread := firstText_self rt entry.teamKey
    exact (congrArg rt.lower.key hread).trans hkeys.2.2
  case teamLabel => exact firstText_of_ne rt hlabels.2 _ _
  case alliance => cases halliance : entry.alliance <;> simp only [rawEntry, halliance] <;> rfl
  case station => cases hstation : entry.station <;> simp only [rawEntry, hstation] <;> rfl
  case form => exact hform
  case notes =>
    subst hentry
    exact hnotes.mpr h.notes
  case tags => rw [h.tags]; rfl
  case scoutProfile =>
    subst hentry
    exact hprofile.mpr h.scoutProfile
  case savedAtMs =>
    obtain ⟨n, hn⟩ := hsaved
    exact received_savedAtMs rt hn
  case points => exact congrArg pointsFromForm hform
  case driver => exact congrArg a.driverCompetency hform
  case manual => rw [← hform]; rfl
  case overall => rw [← hform]; rfl

theorem portable_of_survives {rt : Runtime} {payload : EntryPayload a}
    (h : Survives (buildSavedScoutingEntry rt payload)
      (normalizeRecord rt (rawEntry (buildSavedScoutingEntry rt payload)))) :
    Portable (buildSavedScoutingEntry rt payload) where
  tags := h.tags.symm
  savedAtMs := ⟨_, h.savedAtMs.symm⟩
  notes := (scoutingNotes_again_iff payload.notes).mp h.notes
  scoutProfile := (scoutProfile_again_iff payload.scoutProfile).mp h.scoutProfile

/-- A report survives the hand-off exactly when it has no tags, a save time, notes without
CR LF and a profile that does not end with a blank. -/
theorem handOff_survives_iff (rt : Runtime) (ch : Channel) (payload : EntryPayload a)
    (h : ch.Carries (.obj (entryToCompact (buildSavedScoutingEntry rt payload)))) :
    (∃ received, handOff rt ch (buildSavedScoutingEntry rt payload) = some received ∧
      Survives (buildSavedScoutingEntry rt payload) received) ↔
    Portable (buildSavedScoutingEntry rt payload) := by
  rw [handOff_eq h]
  constructor
  · rintro ⟨received, hreceived, hsurvives⟩
    rw [← Option.some.inj hreceived] at hsurvives
    exact portable_of_survives hsurvives
  · intro hportable
    exact ⟨_, rfl, received_survives hportable⟩

/-! ### A tag that is not handed over -/

def plainAnalytics : Analytics where
  Driver := Unit
  Manual := Unit
  Overall := Unit
  ApiRating := Unit
  ApiSnapshot := Unit
  AutoScoutMeta := Unit
  FieldOverrides := Unit
  driverCompetency _ := ()
  manualScoutingRating _ _ := ()
  overallScoutRating _ _ _ := ()
  normalizeDriver _ := ()
  normalizeManualRating _ _ _ := ()
  normalizeOverallScoutRating _ _ _ _ := ()
  normalizeScoutingApiRating _ := none
  normalizeApiSnapshot _ := ()
  normalizeAutoScoutMeta _ := none
  normalizeFieldOverrides _ := none

def plainRuntime : Runtime where
  lower := Js.Lowering.ascii
  numberOf _ := .nan
  otherText _ := []
  now := 1760000100000
  freshId _ := units "1760000100000-a1b2c3"

/-- A saved form nobody has filled in, with some tags. -/
def savedPayload (tags : Option (List Str)) : EntryPayload plainAnalytics where
  id := none
  savedAtMs := .finite 1760000000000
  scoutProfile := units "Ada"
  roomKey := none
  mode := .match_
  eventKey := units "2026busy"
  matchKey := units "2026busy_qm9"
  matchDisplay := units "Qual 9"
  teamKey := units "frc254"
  teamLabel := units "254"
  alliance := .red
  station := none
  points := ⟨0, 0, 0, 0⟩
  form := []
  driverCompetency := ()
  manualRating := ()
  overallScoutRating := ()
  scoutingApiRating := none
  apiSnapshot := none
  notes := units "Fell over"
  tags := tags
  entrySource := .manual
  autoScoutMeta := none
  fieldOverrides := none

def savedEntry (tags : Option (List Str)) : SavedScoutingEntry plainAnalytics :=
  buildSavedScoutingEntry plainRuntime (savedPayload tags)

/-- What `JSON.stringify` writes of the saved report; its tags are not in it. -/
def savedJson : Str :=
  units "\x7b\"v\":1,\"t\":1760000000000,\"sp\":\"Ada\",\"m\":\"match\",\"ek\":\"2026busy\"," ++
    units "\"mk\":\"2026busy_qm9\",\"md\":\"Qual 9\",\"tk\":\"frc254\",\"tl\":\"254\"," ++
    units "\"al\":\"red\",\"st\":null,\"f\":[false,0,0,0,0,null,0,0,0,0,0,0,0,0," ++
    units "null,null,null,null,null,null,null,null,null,0,0,false,false,\"none\"]," ++
    units "\"rp\":0,\"n\":\"Fell over\"\x7d"

def parseSaved (s : Str) : Option Value :=
  if s = savedJson then some (.json (.obj (entryToCompact (savedEntry none)))) else none

/-- A browser without compression streams, on the saved report. -/
def plainChannel : Channel where
  stringify _ := savedJson
  parse := parseSaved
  encodeText s := s.map UInt16.toUInt8
  decodeText bytes := bytes.map UInt8.toUInt16
  hasStreams := false
  deflate bytes := bytes
  inflate bytes := some bytes

theorem plainChannel_carries (tags : Option (List Str)) :
    plainChannel.Carries (.obj (entryToCompact (savedEntry tags))) := by
  have htext : plainChannel.decodeText (plainChannel.encodeText savedJson) = savedJson := by
    decide +kernel
  constructor
  case json =>
    have hstringify : ∀ v, plainChannel.stringify v = savedJson := fun _ => rfl
    have hcompact : entryToCompact (savedEntry tags) = entryToCompact (savedEntry none) := rfl
    have hparse : plainChannel.parse = parseSaved := rfl
    rw [hstringify, htext, hparse, parseSaved, if_pos rfl, hcompact]
  case inflate => rfl

/-- A report without tags survives. -/
theorem handOff_survives_iff_plain :
    (∃ received, handOff plainRuntime plainChannel (savedEntry none) = some received ∧
      Survives (savedEntry none) received) ∧ Portable (savedEntry none) := by
  have hportable : Portable (savedEntry none) :=
    ⟨rfl, ⟨1760000000000, by decide⟩, by decide, by decide⟩
  exact ⟨(handOff_survives_iff plainRuntime plainChannel (savedPayload none)
    (plainChannel_carries none)).mpr hportable, hportable⟩

/-- A robot that tipped over arrives without its tag. -/
theorem handOff_drops_tags :
    (savedEntry (some [units "tipped"])).tags = [.tipped] ∧
    ∃ received, handOff plainRuntime plainChannel (savedEntry (some [units "tipped"])) =
      some received ∧ received.tags = [] := by
  constructor
  · decide
  · exact ⟨_, handOff_eq (plainChannel_carries _), rfl⟩

end Frcmob.ScoutReport
