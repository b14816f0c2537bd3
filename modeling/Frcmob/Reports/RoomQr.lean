import Frcmob.Reports.Qr

/-!
A room key handed over as a QR code: `encodeRoomKeyForQr` and `parseRoomKeyFromQr` of
`qrUtils.ts`. JSON, the URL parser and the letters' cases are the browser's.
-/

namespace Frcmob.ScoutReport

open Js (Str Number Value Record units lowerUnit)

/-! ### The browser -/

def upperUnit (u : UInt16) : UInt16 :=
  if 97 ≤ u ∧ u ≤ 122 then u - 32 else u

def Ascii (s : Str) : Prop :=
  ∀ u ∈ s, u < 128

/-- `toLowerCase` and `toUpperCase`. -/
structure Casing where
  lower : Str → Str
  upper : Str → Str
  lower_ascii : ∀ s, Ascii s → lower s = s.map lowerUnit
  upper_ascii : ∀ s, Ascii s → upper s = s.map upperUnit

def Casing.ascii : Casing where
  lower s := s.map lowerUnit
  upper s := s.map upperUnit
  lower_ascii _ _ := rfl
  upper_ascii _ _ := rfl

/-- What `new URL` gives; the parameters as they stand. -/
structure Url where
  searchParams : List (Str × Str)
  pathname : Str

/-- What throws has no value. -/
structure Web where
  parseJson : Str → Option Value
  parseUrl : Str → Option Url
  numberText : Number → Str

def Url.param (url : Url) (name : String) : Option Str :=
  url.searchParams.lookup (units name)

mutual

/-- `String(value)` -/
def stringOf (w : Web) : Value → Str
  | .null => units "null"
  | .bool b => if b then units "true" else units "false"
  | .num n => w.numberText n
  | .str s => s
  | .arr items => joined w items
  | .obj _ => units "[object Object]"

/-- `items.join(',')`, where `null` is empty. -/
def joined (w : Web) : List Value → Str
  | [] => []
  | [.null] => []
  | [v] => stringOf w v
  | .null :: items => units "," ++ joined w items
  | v :: items => stringOf w v ++ units "," ++ joined w items

end

/-! ### Room keys -/

def normalizeRoomKeyToken (c : Casing) (raw : Str) : Str :=
  ((c.lower (Js.trim raw)).filter isRoomKeyUnit).take 48

/-- `[a-z0-9_-]` of either case. -/
def isRoomKeyUnitI (u : UInt16) : Bool :=
  isRoomKeyUnit (lowerUnit u)

/-- `/^[a-z0-9_-]{1,48}$/i` -/
def IsRoomKey (s : Str) : Prop :=
  s ≠ [] ∧ s.length ≤ 48 ∧ ∀ u ∈ s, isRoomKeyUnitI u = true

instance : DecidablePred IsRoomKey := fun s =>
  decidable_of_iff (s ≠ [] ∧ s.length ≤ 48 ∧ s.all isRoomKeyUnitI = true) (by
    rw [IsRoomKey, List.all_eq_true])

def roomKeyFromCandidate (c : Casing) (value : Str) : Option Str :=
  let raw := Js.trim value
  if IsRoomKey raw then
    let normalized := normalizeRoomKeyToken c raw
    if normalized = [] then none else some normalized
  else none

def roomQrPrefix : Str :=
  units "FRCROOM1:"

def encodeRoomKeyForQr (c : Casing) (roomKey : Str) : Str :=
  match roomKeyFromCandidate c roomKey with
  | none => []
  | some normalized => roomQrPrefix ++ normalized

def isQrEntryString (str : Str) : Bool :=
  qrPrefix.isPrefixOf (Js.trim str)

/-! ### The parser -/

/-- `a ?? b` -/
def orElse : Option Value → Option Value → Option Value
  | none, b => b
  | some .null, b => b
  | a, _ => a

/-- The key that a JSON object names; `String(value ?? '')`. -/
def candidateOfJson (w : Web) (row : Record) : Str :=
  match orElse (row.get "room_key") (orElse (row.get "roomKey") (orElse (row.get "scouting_room_key")
    (orElse (row.get "scoutingRoomKey") (row.get "room")))) with
  | none => []
  | some .null => []
  | some v => stringOf w v

def fromJson (c : Casing) (w : Web) (raw : Str) : Option Str :=
  if (units "\x7b").isPrefixOf raw ∧ (units "\x7d").isSuffixOf raw then
    match w.parseJson raw with
    | some (.obj row) => roomKeyFromCandidate c (candidateOfJson w row)
    | _ => none
  else none

/-- The first parameter that is not empty, as `||` takes it. -/
def queryKey (url : Url) : Str :=
  (["room_key", "room", "rk"].findSome? fun name =>
    (url.param name).filter (· ≠ [])).getD []

/-- The key that follows `/scouting/rooms/`, up to the next slash or the end. -/
def keyAfterRooms (s : Str) : Option Str :=
  let start := units "/scouting/rooms/"
  if start.isPrefixOf (s.map lowerUnit) then
    let key := (s.drop start.length).takeWhile isRoomKeyUnitI
    let rest := (s.drop start.length).dropWhile isRoomKeyUnitI
    if 1 ≤ key.length ∧ key.length ≤ 48 ∧ (rest = [] ∨ rest.head? = some 47) then some key
    else none
  else none

/-- `/\/scouting\/rooms\/([a-z0-9_-]{1,48})(?:\/|$)/i`, where it matches first. -/
def matchRooms : Str → Option Str
  | [] => none
  | u :: rest => (keyAfterRooms (u :: rest)).or (matchRooms rest)

def fromUrl (c : Casing) (w : Web) (raw : Str) : Option Str :=
  match w.parseUrl raw with
  | none => none
  | some url =>
      (roomKeyFromCandidate c (queryKey url)).or
        ((matchRooms url.pathname).bind (roomKeyFromCandidate c))

def parseRoomKeyFromQr (c : Casing) (w : Web) (text : Str) : Option Str :=
  let raw := Js.trim text
  if raw = [] ∨ isQrEntryString raw then none
  else if roomQrPrefix.isPrefixOf (c.upper raw) then
    roomKeyFromCandidate c (raw.drop roomQrPrefix.length)
  else
    (roomKeyFromCandidate c raw).or ((fromJson c w raw).or (fromUrl c w raw))

/-! ### Keys that are handed over -/

/-- A valid key in its normal form. -/
structure Normalized (key : Str) : Prop where
  nonempty : key ≠ []
  length : key.length ≤ 48
  units : ∀ u ∈ key, isRoomKeyUnit u = true

/-- What holds of the ASCII units holds of the units of a key, of either case. -/
theorem forall_roomKeyUnitI {p : UInt16 → Prop}
    (h : ∀ n < 128, isRoomKeyUnitI (UInt16.ofNat n) = true → p (UInt16.ofNat n)) {u : UInt16}
    (hu : isRoomKeyUnitI u = true) : p u := by
  have hlt : u.toNat < 128 := by
    by_contra hge
    have hlower : lowerUnit u = u := by
      rw [lowerUnit, if_neg]
      rintro ⟨-, hle⟩
      have hle : u.toNat ≤ 90 := hle
      omega
    rw [isRoomKeyUnitI, hlower, isRoomKeyUnit] at hu
    have hsmall : u ≤ 122 ∨ u ≤ 57 ∨ u = 95 ∨ u = 45 := by grind
    rcases hsmall with hle | hle | rfl | rfl
    · have hle : u.toNat ≤ 122 := hle
      omega
    · have hle : u.toNat ≤ 57 := hle
      omega
    · exact hge (by decide)
    · exact hge (by decide)
  have hsame : UInt16.ofNat u.toNat = u := UInt16.ofNat_toNat
  exact hsame ▸ h u.toNat hlt (hsame.symm ▸ hu)

theorem roomKeyUnitI_lt {u : UInt16} (h : isRoomKeyUnitI u = true) : u < 128 :=
  @forall_roomKeyUnitI (fun u => u < 128) (by decide) u h

theorem roomKeyUnitI_not_space {u : UInt16} (h : isRoomKeyUnitI u = true) :
    Js.isSpace u = false :=
  @forall_roomKeyUnitI (fun u => Js.isSpace u = false) (by decide) u h

theorem lowerUnit_of_roomKeyUnit {u : UInt16} (h : isRoomKeyUnit u = true) : lowerUnit u = u := by
  rw [lowerUnit, if_neg]
  rintro ⟨hge, hle⟩
  have hge : 65 ≤ u.toNat := hge
  have hle : u.toNat ≤ 90 := hle
  have hcases : 97 ≤ u ∨ u ≤ 57 ∨ u = 95 ∨ u = 45 := by
    rw [isRoomKeyUnit] at h
    grind
  rcases hcases with hlow | hdigit | rfl | rfl
  · have hlow : 97 ≤ u.toNat := hlow
    omega
  · have hdigit : u.toNat ≤ 57 := hdigit
    omega
  · exact absurd hle (by decide)
  · exact absurd hge (by decide)

theorem IsRoomKey.ascii {s : Str} (h : IsRoomKey s) : Ascii s := fun u hu =>
  roomKeyUnitI_lt (h.2.2 u hu)

theorem IsRoomKey.normalized {s : Str} (h : IsRoomKey s) : Normalized (s.map lowerUnit) where
  nonempty := by simpa using h.1
  length := by simpa using h.2.1
  units u hu := by
    obtain ⟨v, hv, rfl⟩ := List.mem_map.mp hu
    exact h.2.2 v hv

namespace Normalized

variable {key : Str}

theorem map_lowerUnit (h : Normalized key) : key.map lowerUnit = key := by
  rw [List.map_congr_left fun u hu => lowerUnit_of_roomKeyUnit (h.units u hu), List.map_id']

theorem isRoomKey (h : Normalized key) : IsRoomKey key := by
  refine ⟨h.nonempty, h.length, fun u hu => ?_⟩
  rw [isRoomKeyUnitI, lowerUnit_of_roomKeyUnit (h.units u hu)]
  exact h.units u hu

theorem not_space (h : Normalized key) : ∀ u ∈ key, Js.isSpace u = false := fun u hu =>
  roomKeyUnitI_not_space (h.isRoomKey.2.2 u hu)

theorem trim_eq (h : Normalized key) : Js.trim key = key :=
  Js.trim_eq_self (Js.trimmed_of_forall h.not_space)

end Normalized

theorem normalizeRoomKeyToken_eq (c : Casing) {value : Str} (h : IsRoomKey (Js.trim value)) :
    normalizeRoomKeyToken c value = (Js.trim value).map lowerUnit := by
  have hkey := h.normalized
  rw [normalizeRoomKeyToken, c.lower_ascii _ h.ascii, List.filter_eq_self.mpr hkey.units,
    List.take_of_length_le hkey.length]

theorem roomKeyFromCandidate_eq (c : Casing) {value : Str} (h : IsRoomKey (Js.trim value)) :
    roomKeyFromCandidate c value = some (normalizeRoomKeyToken c value) := by
  have hne : normalizeRoomKeyToken c value ≠ [] := by
    rw [normalizeRoomKeyToken_eq c h]
    exact h.normalized.nonempty
  have htrim : normalizeRoomKeyToken c (Js.trim value) = normalizeRoomKeyToken c value := by
    rw [normalizeRoomKeyToken, Js.trim_eq_self (Js.trimmed_trim value)]
    rfl
  simp only [roomKeyFromCandidate, if_pos h, htrim, if_neg hne]

/-- Whatever a candidate is, what comes of it is normal. -/
theorem normalized_of_candidate {c : Casing} {value key : Str}
    (h : roomKeyFromCandidate c value = some key) : Normalized key := by
  by_cases hvalue : IsRoomKey (Js.trim value)
  · rw [roomKeyFromCandidate_eq c hvalue, normalizeRoomKeyToken_eq c hvalue] at h
    exact Option.some_inj.mp h ▸ hvalue.normalized
  · simp only [roomKeyFromCandidate, if_neg hvalue] at h
    exact absurd h (by simp)

theorem normalized_of_parse {c : Casing} {w : Web} {text key : Str}
    (h : parseRoomKeyFromQr c w text = some key) : Normalized key := by
  have hbind {o : Option Str} (hkey : o.bind (roomKeyFromCandidate c) = some key) :
      Normalized key := by
    obtain ⟨value, -, hvalue⟩ := Option.bind_eq_some_iff.mp hkey
    exact normalized_of_candidate hvalue
  simp only [parseRoomKeyFromQr] at h
  split at h
  · exact absurd h (by simp)
  split at h
  · exact normalized_of_candidate h
  rcases Option.or_eq_some_iff.mp h with h | ⟨-, h⟩
  · exact normalized_of_candidate h
  rcases Option.or_eq_some_iff.mp h with h | ⟨-, h⟩
  · rw [fromJson] at h
    split at h
    · split at h
      · exact normalized_of_candidate h
      · exact absurd h (by simp)
    · exact absurd h (by simp)
  · rw [fromUrl] at h
    split at h
    · exact absurd h (by simp)
    · rcases Option.or_eq_some_iff.mp h with h | ⟨-, h⟩
      · exact normalized_of_candidate h
      · exact hbind h

theorem parse_prefixed (c : Casing) (w : Web) {key : Str} (h : Normalized key) :
    parseRoomKeyFromQr c w (roomQrPrefix ++ key) = some key := by
  have hspace : ∀ u ∈ roomQrPrefix ++ key, Js.isSpace u = false := by
    intro u hu
    rcases List.mem_append.mp hu with hu | hu
    · have hall : roomQrPrefix.all (fun u => Js.isSpace u = false) = true := by decide
      exact of_decide_eq_true (List.all_eq_true.mp hall u hu)
    · exact h.not_space u hu
  have hascii : Ascii (roomQrPrefix ++ key) := by
    intro u hu
    rcases List.mem_append.mp hu with hu | hu
    · have hall : roomQrPrefix.all (fun u => u < 128) = true := by decide
      exact of_decide_eq_true (List.all_eq_true.mp hall u hu)
    · exact h.isRoomKey.ascii u hu
  have htrim : Js.trim (roomQrPrefix ++ key) = roomQrPrefix ++ key :=
    Js.trim_eq_self (Js.trimmed_of_forall hspace)
  have hentry : isQrEntryString (roomQrPrefix ++ key) = false := by
    rw [isQrEntryString, htrim]
    rfl
  have hprefix : roomQrPrefix.isPrefixOf (c.upper (roomQrPrefix ++ key)) = true := by
    rw [c.upper_ascii _ hascii, List.map_append]
    rfl
  have hkey : roomKeyFromCandidate c key = some key := by
    have hroom : IsRoomKey (Js.trim key) := h.trim_eq.symm ▸ h.isRoomKey
    rw [roomKeyFromCandidate_eq c hroom, normalizeRoomKeyToken_eq c hroom, h.trim_eq,
      h.map_lowerUnit]
  have hne : roomQrPrefix ++ key ≠ [] := fun hnil => h.nonempty (List.append_eq_nil_iff.mp hnil).2
  simp only [parseRoomKeyFromQr, htrim, hentry, if_pos hprefix, List.drop_left, hkey, hne,
    Bool.false_eq_true, or_self, if_false]

/-- A valid key comes back in its normal form, and nothing else than such a key ever does. -/
theorem parseRoomKeyFromQr_encodeRoomKeyForQr (c : Casing) (w : Web) :
    (∀ k, IsRoomKey (Js.trim k) →
      parseRoomKeyFromQr c w (encodeRoomKeyForQr c k) = some (normalizeRoomKeyToken c k)) ∧
    ∀ text, parseRoomKeyFromQr c w text = none ∨
      ∃ key, parseRoomKeyFromQr c w text = some key ∧ Normalized key := by
  refine ⟨fun k hk => ?_, fun text => ?_⟩
  · have hkey := normalized_of_candidate (roomKeyFromCandidate_eq c hk)
    rw [encodeRoomKeyForQr, roomKeyFromCandidate_eq c hk]
    exact parse_prefixed c w hkey
  · cases hparse : parseRoomKeyFromQr c w text with
    | none => exact .inl rfl
    | some key => exact .inr ⟨key, rfl, normalized_of_parse hparse⟩

/-- A browser that reads no JSON and no URL. -/
def plainWeb : Web where
  parseJson _ := none
  parseUrl _ := none
  numberText _ := []

theorem parseRoomKeyFromQr_encodeRoomKeyForQr_upper :
    parseRoomKeyFromQr .ascii plainWeb (encodeRoomKeyForQr .ascii (units "Room-Encode_42")) =
      some (normalizeRoomKeyToken .ascii (units "Room-Encode_42")) :=
  (parseRoomKeyFromQr_encodeRoomKeyForQr .ascii plainWeb).1 _ (by decide)

example : matchRooms (units "/api/scouting/rooms/room-path-1/ws") = some (units "room-path-1") := by
  decide

end Frcmob.ScoutReport
