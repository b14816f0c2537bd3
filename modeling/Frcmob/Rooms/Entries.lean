import Mathlib.Data.Rat.Defs
import Frcmob.Lib.Register
import Frcmob.Text

/-!
The reports of a scouting room (`_persist_room_entry` of `routes_scouting_rooms.py`). A row
has the report as its payload and, beside it, the event, match and team that coverage and
the insights read.
-/

namespace Frcmob.Rooms

structure ScoutingRoom where
  roomKey : String
  workspaceId : Nat
  eventKey : Option String
deriving DecidableEq

structure TeamWorkspaceMember where
  id : Nat
  workspaceId : Nat
  displayName : String
  removed : Bool
deriving DecidableEq

/-- A report as the app sends it. `notes` stands for what the server only stores. -/
structure EntryPayload where
  id : Option String
  eventKey : Option String
  matchKey : Option String
  teamKey : Option String
  savedAtMs : Option Int
  scoutProfile : String
  totalPoints : Option Rat
  driverScore : Option Rat
  manualRating : Option Rat
  scoutingApiRating : Option Rat
  notes : String
deriving DecidableEq

structure ScoutingRoomEntry where
  roomKey : String
  eventKey : Option String
  matchKey : Option String
  teamKey : Option String
  scoutProfile : String
  authorMemberId : Option Nat
  clientEntryId : Option String
  payload : EntryPayload
  totalPoints : Option Rat
  driverScore : Option Rat
  manualRating : Option Rat
  scoutingApiRating : Option Rat
deriving DecidableEq

/-- A room, the reports of its workspace, and what the server looks up for them. -/
structure Database where
  room : ScoutingRoom
  entries : List ScoutingRoomEntry
  members : List TeamWorkspaceMember
  events : List String
  matchKeys : List String
  teams : List String
  storageFull : Bool
deriving DecidableEq

structure EntryLimits where
  entryMaxBytes : Nat
  entriesMaxPerWorkspace : Nat
  roomEntryBytes : EntryPayload → Nat

/-- A request to save a report. `generatedId` is the id that the server makes up if it has to. -/
structure EntrySave where
  entry : EntryPayload
  scoutProfile : String
  authorMemberId : Nat
  clientEntryId : Option String
  generatedId : String
deriving DecidableEq

structure HTTPException where
  statusCode : Nat
  detail : String
deriving DecidableEq

/-! ### Values -/

/-- `value or None` -/
def truthy (value : Option String) : Option String :=
  value.filter (· ≠ "")

def normalizeScoutProfile (raw : String) : String :=
  takeChars 40 (collapseSpaces raw)

/-- The keys of an event, a match and a team are cut to 48, 80 and 24 characters. -/
def normalizeKeyTo (length : Nat) (raw : Option String) : Option String :=
  (truthy (some (normalizeKey (raw.getD "")))).map (takeChars length)

def normalizeEventKey : Option String → Option String :=
  normalizeKeyTo 48

def normalizeMatchKey : Option String → Option String :=
  normalizeKeyTo 80

def normalizeTeamKey : Option String → Option String :=
  normalizeKeyTo 24

/-- `str(client_entry_id or "").strip()[:120] or None` -/
def normalizeClientId (raw : Option String) : Option String :=
  truthy (some (takeChars 120 (strip (raw.getD ""))))

/-- A natural number to 53 significant bits, halves to even. -/
def roundToDouble (n : Nat) : Nat :=
  let unit := 2 ^ (n.log2 - 52)
  let low := n / unit
  let rest := n % unit
  if unit < 2 * rest ∨ (unit = 2 * rest ∧ low % 2 = 1) then (low + 1) * unit else low * unit

/-- `float(n)`; `none` is an `OverflowError`. -/
def floatOfInt (n : Int) : Option Int :=
  let rounded := roundToDouble n.natAbs
  if rounded < 2 ^ 1024 then some (n.sign * rounded) else none

/-- `_float_or_none(payload.get("saved_at_ms")) or 0.0` -/
def savedAt (payload : EntryPayload) : Option Int :=
  match payload.savedAtMs with
  | some n => floatOfInt n
  | none => some 0

/-! ### Saving a report -/

def guardRoomEntryStorage (limits : EntryLimits) (db : Database) (payload : EntryPayload)
    (adding : Bool) : Except HTTPException Unit :=
  if max 1024 limits.entryMaxBytes < limits.roomEntryBytes payload then
    .error ⟨413, "This report is too large to save. Shorten the notes and try again."⟩
  else if ¬ adding then .ok ()
  else if max 1 limits.entriesMaxPerWorkspace ≤ db.entries.length then
    .error ⟨413, "Your team has saved as many reports as a workspace can hold."⟩
  else if db.storageFull then
    .error ⟨507, "Report storage is full right now. Your report is still on this phone."⟩
  else .ok ()

def authorize (db : Database) (save : EntrySave) : Except HTTPException Unit :=
  match db.members.find? (·.id = save.authorMemberId) with
  | none =>
      .error ⟨401, "Your workspace access is no longer valid. Rejoin with your team's code."⟩
  | some author =>
      if author.removed ∨ author.workspaceId ≠ db.room.workspaceId then
        .error ⟨401, "Your workspace access is no longer valid. Rejoin with your team's code."⟩
      else if normalizeScoutProfile author.displayName ≠ save.scoutProfile then
        .error ⟨403, "Your scout name changed. Join the room again."⟩
      else .ok ()

/-- The room's row of a client id. -/
def rowOf (db : Database) (clientId : String) : Option ScoutingRoomEntry :=
  db.entries.find? fun row => row.roomKey = db.room.roomKey ∧ row.clientEntryId = some clientId

def eventColumn (db : Database) (entry : EntryPayload) : Option String :=
  (normalizeEventKey ((truthy entry.eventKey).or db.room.eventKey)).filter (· ∈ db.events)

def matchColumn (db : Database) (entry : EntryPayload) : Option String :=
  (normalizeMatchKey entry.matchKey).filter (· ∈ db.matchKeys)

def teamColumn (db : Database) (entry : EntryPayload) : Option String :=
  (normalizeTeamKey entry.teamKey).filter (· ∈ db.teams)

/-- The id that a new report is stored with. -/
def storedId (save : EntrySave) : String :=
  (truthy save.entry.id).getD ((normalizeClientId save.clientEntryId).getD save.generatedId)

/-- The row of a report that is new. -/
def insertRow (db : Database) (save : EntrySave) : ScoutingRoomEntry :=
  { roomKey := db.room.roomKey
    eventKey := eventColumn db save.entry
    matchKey := matchColumn db save.entry
    teamKey := teamColumn db save.entry
    scoutProfile := save.scoutProfile
    authorMemberId := some save.authorMemberId
    clientEntryId := normalizeClientId save.clientEntryId
    payload := { save.entry with
      id := some (storedId save)
      scoutProfile := save.scoutProfile }
    totalPoints := save.entry.totalPoints
    driverScore := save.entry.driverScore
    manualRating := save.entry.manualRating
    scoutingApiRating := save.entry.scoutingApiRating }

/-- The row of a report that is saved again. The columns stay as they are. -/
def updateRow (existing : ScoutingRoomEntry) (clientId : String) (save : EntrySave) :
    ScoutingRoomEntry :=
  let id := (truthy existing.payload.id).getD clientId
  { existing with
    payload := { save.entry with id := some id, scoutProfile := save.scoutProfile }
    totalPoints := save.entry.totalPoints
    driverScore := save.entry.driverScore
    manualRating := save.entry.manualRating
    scoutingApiRating := save.entry.scoutingApiRating }

/-- The first report with an event gives it to a room that has none. -/
def ScoutingRoom.withEvent (room : ScoutingRoom) (eventKey : Option String) : ScoutingRoom :=
  { room with
    eventKey := if (truthy room.eventKey).isSome then room.eventKey
      else eventKey.or room.eventKey }

def insertEntry (limits : EntryLimits) (db : Database) (save : EntrySave) :
    Except HTTPException (Database × ScoutingRoomEntry × Bool) := do
  let row := insertRow db save
  guardRoomEntryStorage limits db row.payload true
  let room := db.room.withEvent row.eventKey
  return ({ db with room := room, entries := db.entries ++ [row] }, row, true)

/-- A retry carries the same time and changes nothing. -/
def resaveEntry (limits : EntryLimits) (db : Database) (existing : ScoutingRoomEntry)
    (clientId : String) (save : EntrySave) :
    Except HTTPException (Database × ScoutingRoomEntry × Bool) :=
  if existing.authorMemberId ≠ some save.authorMemberId then
    .error ⟨409, "This report belongs to another or unknown author. Save a new report."⟩
  else
    match savedAt existing.payload, savedAt save.entry with
    | some previous, some incoming =>
        if incoming ≤ previous then .ok (db, existing, false)
        else do
          let row := updateRow existing clientId save
          guardRoomEntryStorage limits db row.payload false
          return ({ db with entries := db.entries.map fun r => if r = existing then row else r },
            row, false)
    | _, _ => .error ⟨500, "Internal Server Error"⟩

def persistRoomEntry (limits : EntryLimits) (db : Database) (save : EntrySave) :
    Except HTTPException (Database × ScoutingRoomEntry × Bool) := do
  authorize db save
  match normalizeClientId save.clientEntryId with
  | some clientId =>
      match rowOf db clientId with
      | some existing => resaveEntry limits db existing clientId save
      | none => insertEntry limits db save
  | none => insertEntry limits db save

/-- A refused save changes nothing. -/
def deliver (limits : EntryLimits) (db : Database) (save : EntrySave) : Database :=
  match persistRoomEntry limits db save with
  | .ok (next, _) => next
  | .error _ => db

/-! ### What is stored -/

theorem normalizeClientId_ne {raw : Option String} {clientId : String}
    (h : normalizeClientId raw = some clientId) : clientId ≠ "" := by
  rw [normalizeClientId, truthy, Option.filter_eq_some_iff] at h
  simpa using h.2

/-- A time below 2^53 is a float as it is. -/
theorem floatOfInt_of_lt {n : Int} (h : n.natAbs < 2 ^ 53) : floatOfInt n = some n := by
  have hlog : n.natAbs.log2 - 52 = 0 := by
    by_cases hzero : n.natAbs = 0
    · simp [hzero]
    · have hlt : n.natAbs.log2 < 53 := (Nat.log2_lt hzero).mpr h
      omega
  have hrounded : roundToDouble n.natAbs = n.natAbs := by
    simp [roundToDouble, hlog, Nat.mod_one]
  have hsmall : n.natAbs < 2 ^ 1024 := h.trans (by decide +kernel)
  rw [floatOfInt, hrounded, if_pos hsmall, Int.sign_mul_natAbs]

/-- The row first made for one save and last changed by another. -/
def rowFor (db : Database) (clientId : String) (first last : EntrySave) : ScoutingRoomEntry :=
  updateRow (insertRow db first) clientId last

section Rows
variable {db : Database} {clientId : String} {first last save : EntrySave}

theorem truthy_storedId (hclient : normalizeClientId save.clientEntryId = some clientId) :
    truthy (some (storedId save)) = some (storedId save) := by
  rw [storedId, hclient, Option.getD_some]
  cases hid : truthy save.entry.id with
  | none =>
      have hne := normalizeClientId_ne hclient
      simpa [truthy] using hne
  | some id =>
      rw [truthy, Option.filter_eq_some_iff] at hid
      simpa [truthy] using hid.2

theorem rowFor_self (db : Database)
    (hclient : normalizeClientId save.clientEntryId = some clientId) :
    rowFor db clientId save save = insertRow db save := by
  simp only [rowFor, updateRow, insertRow, truthy_storedId hclient, Option.getD_some]

theorem updateRow_rowFor (db : Database) (last save : EntrySave)
    (hclient : normalizeClientId first.clientEntryId = some clientId) :
    updateRow (rowFor db clientId first last) clientId save = rowFor db clientId first save := by
  simp only [rowFor, updateRow, insertRow, truthy_storedId hclient, Option.getD_some]

theorem insertRow_key (db : Database)
    (hclient : normalizeClientId save.clientEntryId = some clientId) :
    (insertRow db save).roomKey = db.room.roomKey ∧
      (insertRow db save).clientEntryId = some clientId := by
  simp only [insertRow, hclient, and_self]

theorem rowFor_key (db : Database) (clientId : String) (first last save : EntrySave) :
    (rowFor db clientId first save).roomKey = (rowFor db clientId first last).roomKey ∧
      (rowFor db clientId first save).clientEntryId =
        (rowFor db clientId first last).clientEntryId := by
  simp only [rowFor, updateRow, and_self]

theorem insertRow_payload (db : Database) (save : EntrySave) :
    (insertRow db save).payload = { save.entry with
      id := some (storedId save)
      scoutProfile := save.scoutProfile } := by
  simp only [insertRow]

/-- The columns are those of the first save. -/
theorem rowFor_columns (db : Database) (clientId : String) (first last : EntrySave) :
    (rowFor db clientId first last).eventKey = eventColumn db first.entry ∧
      (rowFor db clientId first last).matchKey = matchColumn db first.entry ∧
      (rowFor db clientId first last).teamKey = teamColumn db first.entry := by
  simp only [rowFor, updateRow, insertRow, and_self]

theorem rowFor_author (db : Database) (clientId : String) (first last : EntrySave) :
    (rowFor db clientId first last).authorMemberId = some first.authorMemberId := by
  simp only [rowFor, updateRow, insertRow]

theorem rowFor_payload (db : Database) (last : EntrySave)
    (hclient : normalizeClientId first.clientEntryId = some clientId) :
    (rowFor db clientId first last).payload = { last.entry with
      id := some (storedId first)
      scoutProfile := last.scoutProfile } := by
  simp only [rowFor, updateRow, insertRow, truthy_storedId hclient, Option.getD_some]

theorem savedAt_rowFor (db : Database) (clientId : String) (first last : EntrySave) :
    savedAt (rowFor db clientId first last).payload = savedAt last.entry := by
  simp only [rowFor, updateRow, savedAt]

theorem guard_resave {limits : EntryLimits} {payload : EntryPayload}
    (h : guardRoomEntryStorage limits db payload true = .ok ()) (db' : Database) :
    guardRoomEntryStorage limits db' payload false = .ok () := by
  rw [guardRoomEntryStorage] at h ⊢
  split at h
  · cases h
  · rename_i hfits
    rw [if_neg hfits]
    rfl

theorem rowOf_append {row : ScoutingRoomEntry} (hfresh : rowOf db clientId = none)
    (hrow : row.roomKey = db.room.roomKey ∧ row.clientEntryId = some clientId)
    (eventKey : Option String) :
    rowOf { db with room := db.room.withEvent eventKey, entries := db.entries ++ [row] } clientId =
      some row := by
  rw [rowOf] at hfresh
  change (db.entries ++ [row]).find? (fun r => r.roomKey = db.room.roomKey ∧
    r.clientEntryId = some clientId) = some row
  rw [List.find?_append, hfresh, Option.none_or]
  simp [hrow]

theorem rowOf_update {existing row : ScoutingRoomEntry} (hrow : rowOf db clientId = some existing)
    (hkey : row.roomKey = existing.roomKey ∧ row.clientEntryId = existing.clientEntryId) :
    rowOf { db with entries := db.entries.map fun r => if r = existing then row else r } clientId =
      some row := by
  have hsame : ∀ r : ScoutingRoomEntry, (if r = existing then row else r).roomKey = r.roomKey ∧
      (if r = existing then row else r).clientEntryId = r.clientEntryId := by
    intro r
    split
    · rename_i heq
      exact heq ▸ hkey
    · exact ⟨rfl, rfl⟩
  rw [rowOf] at hrow ⊢
  simp only [List.find?_map, Function.comp_def, (hsame _).1, (hsame _).2, hrow, Option.map_some,
    if_pos]

end Rows

end Frcmob.Rooms
