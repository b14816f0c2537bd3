import Frcmob.Lib.Base64
import Frcmob.Lib.Table
import Frcmob.Lib.Transition
import Frcmob.Text

/-!
Pit photos: rows that list paths, and the files on the disk. Uploads, deletions and saves of
`app/api/routes_pit_scouting.py` with the limits of `app/services/workspace_limits.py`. How the
file operations and the commit of a request end is part of the request. The image library is a
parameter; directories, which only hold the files, are left out.
-/

namespace Frcmob.Pits

/-! ### Rows and files -/

/-- A value of the pit form: text, a number, a truth value or nothing as its text, or a list. -/
inductive Answer
  | text (value : String)
  | scalar (shown : String)
  | items (values : List String)
  | nested
  deriving DecidableEq

structure PitScoutingEntry where
  workspaceId : Nat
  eventKey : String
  teamKey : String
  scoutProfile : String
  payload : List (String × Answer)
  photos : List String
  deriving DecidableEq

def PitScoutingEntry.key (row : PitScoutingEntry) : Nat × String × String :=
  (row.workspaceId, row.eventKey, row.teamKey)

/-- A file under the photos' root, by the path it is served under. -/
structure StoredFile where
  path : String
  size : Nat
  deriving DecidableEq

structure Storage where
  entries : Table PitScoutingEntry.key
  files : Table StoredFile.path

structure HttpError where
  status : Nat
  detail : String
  deriving DecidableEq

inductive Failure
  | http (error : HttpError)
  | os
  | commit
  deriving DecidableEq

structure Actor where
  workspaceId : Nat
  displayName : String
  deriving DecidableEq

/-! ### Keys and paths -/

def isDigit (c : Char) : Bool :=
  '0' ≤ c && c ≤ '9'

def isLowerOrDigit (c : Char) : Bool :=
  ('a' ≤ c && c ≤ 'z') || isDigit c

/-- `^\d{4}[a-z0-9]+$` -/
def eventKeyMatches (token : String) : Bool :=
  let cs := token.toList
  (cs.take 4).length = 4 && (cs.take 4).all isDigit && (cs.drop 4).length ≠ 0 &&
    (cs.drop 4).all isLowerOrDigit

/-- `^frc\d{1,5}$` -/
def teamKeyMatches (token : String) : Bool :=
  let cs := token.toList
  cs.take 3 = ['f', 'r', 'c'] && (cs.drop 3).length ≠ 0 && (cs.drop 3).length ≤ 5 &&
    (cs.drop 3).all isDigit

def normalizeEventKey (raw : String) : Except HttpError String :=
  let token := normalizeKey raw
  if token = "" ∨ ¬ eventKeyMatches token then .error ⟨400, "Invalid event key"⟩ else .ok token

def normalizeTeamKey (raw : String) : Except HttpError String :=
  let token := normalizeKey raw
  if token = "" ∨ ¬ teamKeyMatches token then .error ⟨400, "Invalid team key"⟩ else .ok token

def photoDir (eventKey teamKey : String) : String :=
  "/media/pit_photos/" ++ eventKey ++ "/" ++ teamKey ++ "/"

def photoPath (eventKey teamKey fileName : String) : String :=
  photoDir eventKey teamKey ++ fileName

/-- `Path(path).name` of a path that does not end in a slash. -/
def pathName (path : String) : String :=
  String.ofList (path.toList.reverse.takeWhile (· ≠ '/')).reverse

def startsWith (path pre : String) : Bool :=
  pre.toList.isPrefixOf path.toList

/-! ### Images -/

inductive Extension
  | jpg
  | png
  | webp
  deriving DecidableEq

def Extension.text : Extension → String
  | .jpg => ".jpg"
  | .png => ".png"
  | .webp => ".webp"

structure ImageInfo where
  width : Nat
  height : Nat
  frames : Nat
  /-- whether `verify` and `load` accept it -/
  intact : Bool
  deriving DecidableEq

/-- What the image library says about an image, and what it saves. -/
structure Pillow where
  openImage : List UInt8 → Option ImageInfo
  hasMetadata : List UInt8 → Bool
  upright : List UInt8 → Extension → List UInt8

def MAX_PHOTO_BYTES : Nat := 6 * 1024 * 1024
def MAX_PHOTOS_PER_TEAM : Nat := 12
def MAX_PAYLOAD_FIELDS : Nat := 80
def MAX_PHOTO_PIXELS : Nat := 16 * 1024 * 1024

def detectImageExtension (data : List UInt8) : Option Extension :=
  if [0xFF, 0xD8, 0xFF].isPrefixOf data then some .jpg
  else if [0x89, 0x50, 0x4E, 0x47, 0x0D, 0x0A, 0x1A, 0x0A].isPrefixOf data then some .png
  else if [0x52, 0x49, 0x46, 0x46].isPrefixOf data ∧
      (data.drop 8).take 4 = [0x57, 0x45, 0x42, 0x50] then some .webp
  else none

def damaged : HttpError :=
  ⟨400, "This photo is damaged or invalid. Choose a different photo."⟩

def validatePhoto (pillow : Pillow) (data : List UInt8) : Except HttpError Extension :=
  match detectImageExtension data with
  | none => .error ⟨400, "Unsupported image format (JPEG/PNG/WebP only)"⟩
  | some extension =>
      match pillow.openImage data with
      | none => .error damaged
      | some image =>
          if MAX_PHOTO_PIXELS < image.width * image.height then
            .error ⟨413, "Photo dimensions are too large. Resize it and try again."⟩
          else if image.frames ≠ 1 then .error ⟨400, "Upload a single still photo."⟩
          else if ¬ image.intact then .error damaged
          else .ok extension

def stripPhotoMetadata (pillow : Pillow) (data : List UInt8) (extension : Extension) :
    List UInt8 :=
  if pillow.hasMetadata data then pillow.upright data extension else data

/-- `base64.b64decode(raw, validate=True)`: whole groups, no other characters. -/
def b64decode (raw : String) : Option (List UInt8) :=
  let units := raw.toList.map fun c => UInt16.ofNat c.toNat
  if raw.toList.all (fun c => c.toNat < 128) ∧ units.length % 4 = 0 then Base64.atob units
  else none

/-- The text after the first comma; empty if there is none. -/
def afterComma (raw : String) : String :=
  String.ofList ((raw.toList.dropWhile (· ≠ ',')).drop 1)

def tooLarge : HttpError :=
  ⟨413, "Photo too large (6 MB max)"⟩

/-- The image of an upload, as it will be stored. -/
def readPhoto (pillow : Pillow) (imageBase64 : String) :
    Except HttpError (List UInt8 × Extension) := do
  let stripped := strip imageBase64
  let rawB64 := if startsWith stripped "data:" then afterComma stripped else stripped
  if rawB64 = "" then .error ⟨400, "Empty image payload"⟩
  if MAX_PHOTO_BYTES * 4 / 3 + 16 < rawB64.length then .error tooLarge
  match b64decode rawB64 with
  | none => .error ⟨400, "Invalid base64 image payload"⟩
  | some data =>
      if MAX_PHOTO_BYTES < data.length then .error tooLarge
      let extension ← validatePhoto pillow data
      let data := stripPhotoMetadata pillow data extension
      if MAX_PHOTO_BYTES < data.length then .error tooLarge
      .ok (data, extension)

/-! ### Storage limits -/

structure Settings where
  pitPhotoMaxFilesPerWorkspace : Nat
  pitPhotoQuotaBytesPerWorkspace : Nat
  pitPhotoQuotaBytesPerWorkspaceEvent : Nat
  pitPhotoMaxFilesTotal : Nat
  pitPhotoQuotaBytesTotal : Nat
  pitPhotoMinimumFreeBytes : Nat
  deriving DecidableEq

def workspaceRows (storage : Storage) (workspaceId : Nat) : List PitScoutingEntry :=
  storage.entries.rows.filter (·.workspaceId = workspaceId)

def pitPhotoBytesUsed (storage : Storage) (workspaceId : Nat) (eventKey : Option String) : Nat :=
  let rows := (workspaceRows storage workspaceId).filter fun row =>
    eventKey.all (· = row.eventKey)
  (rows.flatMap (·.photos)).foldl (fun total path =>
    total + ((storage.files.get? path).map StoredFile.size).getD 0) 0

/-- The loop over the files, whose count and sizes are capped together. -/
def scanFiles (limit : Nat) : List StoredFile → Nat → Nat → Except HttpError Nat
  | [], _, total => .ok total
  | file :: files, fileCount, total =>
      if max 1 limit ≤ fileCount + 1 then
        .error ⟨413, "Photo storage is at capacity. Delete old photos first."⟩
      else scanFiles limit files (fileCount + 1) (total + file.size)

def guardPitPhotoStorage (settings : Settings) (storage : Storage) (workspaceId : Nat)
    (incomingBytes : Nat) (free : Int) : Except HttpError Unit := do
  let workspaceFiles := ((workspaceRows storage workspaceId).flatMap (·.photos)).length
  if max 1 settings.pitPhotoMaxFilesPerWorkspace ≤ workspaceFiles then
    .error ⟨413, "Your team has reached its photo limit. Delete old photos first."⟩
  let workspaceLimit := max 1 settings.pitPhotoQuotaBytesPerWorkspace
  if workspaceLimit < pitPhotoBytesUsed storage workspaceId none + incomingBytes then
    .error ⟨413, "Your team's photo storage is full. Delete old photos first."⟩
  let total ← scanFiles settings.pitPhotoMaxFilesTotal storage.files.rows 0 0
  if max 1 settings.pitPhotoQuotaBytesTotal < total + incomingBytes then
    .error ⟨413, "Photo storage is at capacity. Try again after old photos are removed."⟩
  if free - incomingBytes < max 1 settings.pitPhotoMinimumFreeBytes then
    .error ⟨503, "Photo uploads are temporarily unavailable. Your notes can still be saved."⟩

/-! ### Requests -/

structure PitEntryUpsertRequest where
  eventKey : String
  teamKey : String
  scoutProfile : Option String
  payload : List (String × Answer)
  deriving DecidableEq

structure PitPhotoUploadRequest where
  eventKey : String
  teamKey : String
  scoutProfile : Option String
  imageBase64 : String
  deriving DecidableEq

structure PitPhotoDeleteRequest where
  eventKey : String
  teamKey : String
  photoPath : String
  deriving DecidableEq

structure Reply where
  photo : Option String
  entry : PitScoutingEntry
  deriving DecidableEq

/-- How the commit ends. -/
inductive SaveFate
  | committed
  | commitFailed
  deriving DecidableEq

/-- How an upload ends that got as far as the disk. -/
inductive UploadFate
  | mkdirFailed
  /-- with a part of the file, of this size, left on the disk, or with none -/
  | writeFailed (part : Option Nat)
  /-- the photo is written; whether it can be unlinked -/
  | commitFailed (unlinks : Bool)
  | committed
  deriving DecidableEq

/-- Whether the photo's file can be unlinked, and how the commit ends. -/
structure DeleteFate where
  unlinks : Bool
  commits : Bool
  deriving DecidableEq

def profileOr (actor : Actor) (scoutProfile : Option String) : String :=
  let scoutProfile := takeChars 40 (strip (scoutProfile.getD ""))
  if scoutProfile = "" then actor.displayName else scoutProfile

def Answer.cleaned : Answer → Option Answer
  | .text value => some (.text (takeChars 2000 value))
  | .scalar shown => some (.scalar shown)
  | .items values => some (.items ((values.take 24).map (takeChars 120)))
  | .nested => none

/-- `cleaned[token] = value` -/
def setField (token : String) (value : Answer) :
    List (String × Answer) → List (String × Answer)
  | [] => [(token, value)]
  | (key, old) :: fields =>
      if key = token then (key, value) :: fields else (key, old) :: setField token value fields

def normalizePayload (raw : List (String × Answer)) : List (String × Answer) :=
  (raw.take MAX_PAYLOAD_FIELDS).foldl (fun cleaned (key, value) =>
    match value.cleaned with
    | none => cleaned
    | some value => setField (takeChars 64 key) value cleaned) []

def loadEntry (storage : Storage) (workspaceId : Nat) (eventKey teamKey : String) :
    Option PitScoutingEntry :=
  storage.entries.get? (workspaceId, eventKey, teamKey)

/-- The row that a save writes. -/
def savedEntry (storage : Storage) (actor : Except HttpError Actor)
    (payload : PitEntryUpsertRequest) : Except HttpError PitScoutingEntry := do
  let actor ← actor
  let eventKey ← normalizeEventKey payload.eventKey
  let teamKey ← normalizeTeamKey payload.teamKey
  let scoutProfile := profileOr actor payload.scoutProfile
  match loadEntry storage actor.workspaceId eventKey teamKey with
  | none => .ok ⟨actor.workspaceId, eventKey, teamKey, scoutProfile,
      normalizePayload payload.payload, []⟩
  | some row => .ok { row with
      payload := normalizePayload payload.payload
      scoutProfile := if scoutProfile = "" then row.scoutProfile else scoutProfile }

def upsertPitEntry (storage : Storage) (actor : Except HttpError Actor)
    (payload : PitEntryUpsertRequest) (fate : SaveFate) : Storage × Except Failure Reply :=
  match savedEntry storage actor payload with
  | .error error => (storage, .error (.http error))
  | .ok row =>
      match fate with
      | .commitFailed => (storage, .error .commit)
      | .committed => ({ storage with entries := storage.entries.put row }, .ok ⟨none, row⟩)

/-- An upload that the checks let through: the row it goes to and the image. -/
structure Accepted where
  row : PitScoutingEntry
  data : List UInt8
  extension : Extension
  deriving DecidableEq

/-- `f"{uuid.uuid4().hex}{extension}"` -/
def fileName (hex : String) (extension : Extension) : String :=
  hex ++ extension.text

def Accepted.path (up : Accepted) (hex : String) : String :=
  photoPath up.row.eventKey up.row.teamKey (fileName hex up.extension)

structure Server where
  settings : Settings
  pillow : Pillow

/-- Everything before the first file operation of an upload. -/
def acceptUpload (server : Server) (storage : Storage) (actor : Except HttpError Actor)
    (payload : PitPhotoUploadRequest) (free : Int) : Except HttpError Accepted := do
  let actor ← actor
  let eventKey ← normalizeEventKey payload.eventKey
  let teamKey ← normalizeTeamKey payload.teamKey
  let (data, extension) ← readPhoto server.pillow payload.imageBase64
  guardPitPhotoStorage server.settings storage actor.workspaceId data.length free
  let quota := server.settings.pitPhotoQuotaBytesPerWorkspaceEvent
  let used := pitPhotoBytesUsed storage actor.workspaceId (some eventKey)
  if 0 < quota ∧ quota < used + data.length then
    .error ⟨413, "Your team's pit photos for this event have reached " ++
      toString (quota / (1024 * 1024)) ++ " MB. Delete a few old ones first."⟩
  let row := (loadEntry storage actor.workspaceId eventKey teamKey).getD
    ⟨actor.workspaceId, eventKey, teamKey, profileOr actor payload.scoutProfile, [], []⟩
  if MAX_PHOTOS_PER_TEAM ≤ row.photos.length then
    .error ⟨400, "Photo limit reached (" ++ toString MAX_PHOTOS_PER_TEAM ++
      " per team). Delete one first."⟩
  .ok ⟨row, data, extension⟩

def Storage.write (storage : Storage) (path : String) (size : Nat) : Storage :=
  { storage with files := storage.files.put ⟨path, size⟩ }

def Storage.unlink (storage : Storage) (path : String) : Storage :=
  { storage with files := storage.files.erase path }

/-- The file first, the row after it. -/
def storePhoto (storage : Storage) (up : Accepted) (hex : String) (fate : UploadFate) :
    Storage × Except Failure Reply :=
  let path := up.path hex
  match fate with
  | .mkdirFailed => (storage, .error .os)
  | .writeFailed part =>
      (match part with
        | some size => storage.write path size
        | none => storage,
        .error (.http ⟨500, "Failed to store photo."⟩))
  | .commitFailed unlinks =>
      let storage := storage.write path up.data.length
      if unlinks then (storage.unlink path, .error .commit) else (storage, .error .os)
  | .committed =>
      let storage := storage.write path up.data.length
      let row := { up.row with photos := up.row.photos ++ [path] }
      ({ storage with entries := storage.entries.put row }, .ok ⟨some path, row⟩)

def uploadPitPhoto (server : Server) (storage : Storage) (actor : Except HttpError Actor)
    (payload : PitPhotoUploadRequest) (free : Int) (hex : String) (fate : UploadFate) :
    Storage × Except Failure Reply :=
  match acceptUpload server storage actor payload free with
  | .error error => (storage, .error (.http error))
  | .ok up => storePhoto storage up hex fate

/-- The row that a deletion is about, which lists the path. -/
def loadPhoto (storage : Storage) (actor : Except HttpError Actor)
    (payload : PitPhotoDeleteRequest) : Except HttpError (PitScoutingEntry × String) := do
  let actor ← actor
  let eventKey ← normalizeEventKey payload.eventKey
  let teamKey ← normalizeTeamKey payload.teamKey
  match loadEntry storage actor.workspaceId eventKey teamKey with
  | none => .error ⟨404, "Pit entry not found"⟩
  | some row =>
      let path := strip payload.photoPath
      if path ∈ row.photos then .ok (row, path)
      else .error ⟨404, "Photo not found on this entry"⟩

/-- The file that goes with a listed path: only ever one of this entry's own folder. -/
def deletedFile (storage : Storage) (row : PitScoutingEntry) (path : String) : Option String :=
  let candidate := photoPath row.eventKey row.teamKey (pathName path)
  if startsWith path (photoDir row.eventKey row.teamKey) ∧
      (storage.files.get? candidate).isSome then some candidate
  else none

/-- The file first, the row after it; a file that cannot be unlinked is left. -/
def deletePitPhoto (storage : Storage) (actor : Except HttpError Actor)
    (payload : PitPhotoDeleteRequest) (fate : DeleteFate) : Storage × Except Failure Reply :=
  match loadPhoto storage actor payload with
  | .error error => (storage, .error (.http error))
  | .ok (row, path) =>
      let storage := match deletedFile storage row path with
        | some candidate => if fate.unlinks then storage.unlink candidate else storage
        | none => storage
      let row := { row with photos := row.photos.filter (· ≠ path) }
      if ¬ fate.commits then (storage, .error .commit)
      else
        -- A placeholder that only held photos goes with the last one.
        let entries := if row.photos = [] ∧ row.payload = [] then storage.entries.erase row.key
          else storage.entries.put row
        ({ storage with entries := entries }, .ok ⟨none, row⟩)

/-! ### Runs -/

inductive PitRequest
  | save (actor : Except HttpError Actor) (payload : PitEntryUpsertRequest) (fate : SaveFate)
  | upload (actor : Except HttpError Actor) (payload : PitPhotoUploadRequest) (free : Int)
      (hex : String) (fate : UploadFate)
  | delete (actor : Except HttpError Actor) (payload : PitPhotoDeleteRequest) (fate : DeleteFate)

/-- The storage, the names that `uuid4` has given, and the paths of the uploads that reported a
failure after that. -/
structure PitState where
  storage : Storage
  drawn : List String
  failed : List String

def isHex (hex : String) : Bool :=
  hex.length = 32 && hex.toList.all fun c => isDigit c || ('a' ≤ c && c ≤ 'f')

def failedPaths (server : Server) (storage : Storage) (actor : Except HttpError Actor)
    (payload : PitPhotoUploadRequest) (free : Int) (hex : String) (fate : UploadFate) :
    List String :=
  match acceptUpload server storage actor payload free,
      (uploadPitPhoto server storage actor payload free hex fate).2 with
  | .ok up, .error _ => [up.path hex]
  | _, _ => []

/-- A name is given once. -/
def pitSystem (server : Server) : Transition.System PitState PitRequest where
  start s := s = ⟨⟨.empty, .empty⟩, [], []⟩
  step s
    | .save actor payload fate =>
        some { s with storage := (upsertPitEntry s.storage actor payload fate).1 }
    | .upload actor payload free hex fate =>
        if isHex hex ∧ hex ∉ s.drawn then
          some {
            storage := (uploadPitPhoto server s.storage actor payload free hex fate).1
            drawn := hex :: s.drawn
            failed := failedPaths server s.storage actor payload free hex fate ++ s.failed }
        else none
    | .delete actor payload fate =>
        some { s with storage := (deletePitPhoto s.storage actor payload fate).1 }

end Frcmob.Pits
