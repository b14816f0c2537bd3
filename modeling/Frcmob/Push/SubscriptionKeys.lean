import Frcmob.Lib.Base64
import Mathlib.Data.List.DropRight
import Mathlib.Data.List.TakeWhile
import Mathlib.Data.String.Basic

/-!
The keys of a push subscription, as `valid_subscription_keys` of `services/push/subscriptions.py`
reads them. Whether a point lies on P-256 is left to the library that answers it.
-/

namespace Frcmob.Subscriptions

open Base64 (sextets ofSextets filling)

/-! ### The letters of base64url -/

def urlLetter (n : Nat) : Char :=
  if n < 26 then Char.ofNat (65 + n)
  else if n < 52 then Char.ofNat (71 + n)
  else if n < 62 then Char.ofNat (n - 4)
  else if n = 62 then '-'
  else '_'

def urlValue (c : Char) : Option Nat :=
  (List.range 64).find? fun n => urlLetter n == c

def letters (ns : List Nat) : List Char :=
  ns.map urlLetter

def urlsafeB64encode (bytes : List UInt8) : List Char :=
  letters (sextets bytes) ++ List.replicate (filling bytes) '='

/-- `base64.b64decode(text, altchars=b"-_", validate=True)` -/
def b64decode (text : List Char) : Option (List UInt8) :=
  let fill := text.dropWhile (· ≠ '=')
  if fill.all (· = '=') && fill.length ≤ 2 && text.length % 4 = 0 then
    ((text.takeWhile (· ≠ '=')).mapM urlValue).bind ofSextets
  else none

/-- `_B64URL.fullmatch` -/
def isB64url (text : List Char) : Bool :=
  let core := text.takeWhile (· ≠ '=')
  let fill := text.dropWhile (· ≠ '=')
  !core.isEmpty && core.all (fun c => (urlValue c).isSome) && fill.all (· = '=') &&
    fill.length ≤ 2

/-- `text.rstrip("=")` -/
def rstripFill (text : List Char) : List Char :=
  text.rdropWhile (· = '=')

/-- A key of the push service's client, where the dict has a text for it. -/
def decodeKey (length : Nat) (value : Option String) : Option (List UInt8) := do
  let text := (← value).toList
  if 4 * ((length + 2) / 3) < text.length then none
  else if isB64url text then
    let raw ← b64decode (text ++ List.replicate ((4 - text.length % 4) % 4) '=')
    if raw.length = length ∧ rstripFill (urlsafeB64encode raw) = rstripFill text then some raw
    else none
  else none

structure Keys where
  p256dh : Option String
  auth : Option String
deriving DecidableEq

/-- `onCurve` is whether `from_encoded_point` takes the point. -/
def validSubscriptionKeys (onCurve : List UInt8 → Bool) (keys : Keys) : Bool :=
  match decodeKey 65 keys.p256dh, decodeKey 16 keys.auth with
  | some point, some _ => decide (point.head? = some 4) && onCurve point
  | _, _ => false

/-! ### Letters and their values -/

theorem urlValue_urlLetter {n : Nat} (h : n < 64) : urlValue (urlLetter n) = some n := by
  have hall : ∀ m < 64, urlValue (urlLetter m) = some m := by decide +kernel
  exact hall n h

theorem urlLetter_ne_fill {n : Nat} (h : n < 64) : urlLetter n ≠ '=' := by
  have hall : ∀ m < 64, urlLetter m ≠ '=' := by decide +kernel
  exact hall n h

section Letters
variable {ns : List Nat} {k : Nat}

theorem ne_fill_of_mem_letters (h : ∀ n ∈ ns, n < 64) {c : Char} (hc : c ∈ letters ns) :
    c ≠ '=' := by
  obtain ⟨n, hn, rfl⟩ := List.mem_map.mp hc
  exact urlLetter_ne_fill (h n hn)

theorem mapM_urlValue_letters (h : ∀ n ∈ ns, n < 64) : (letters ns).mapM urlValue = some ns := by
  induction ns with
  | nil => rfl
  | cons n ns ih =>
      have hns := ih fun m hm => h m (List.mem_cons_of_mem _ hm)
      rw [letters] at hns ⊢
      rw [List.map_cons, List.mapM_cons, urlValue_urlLetter (h n List.mem_cons_self), hns]
      rfl

theorem takeWhile_filled {core : List Char} (h : ∀ c ∈ core, c ≠ '=') :
    (core ++ List.replicate k '=').takeWhile (· ≠ '=') = core := by
  rw [List.takeWhile_append_of_pos (by simpa using h)]
  cases k with
  | zero => simp
  | succ k => simp [List.replicate_succ]

theorem dropWhile_filled {core : List Char} (h : ∀ c ∈ core, c ≠ '=') :
    (core ++ List.replicate k '=').dropWhile (· ≠ '=') = List.replicate k '=' := by
  rw [List.dropWhile_append_of_pos (by simpa using h)]
  cases k with
  | zero => simp
  | succ k => simp [List.replicate_succ]

theorem rstripFill_filled {core : List Char} (h : ∀ c ∈ core, c ≠ '=') :
    rstripFill (core ++ List.replicate k '=') = core := by
  rw [rstripFill, List.rdropWhile, List.reverse_append, List.reverse_replicate,
    List.dropWhile_append_of_pos (by simp), List.reverse_eq_iff]
  refine List.dropWhile_eq_self_iff.mpr fun hlength hlast => ?_
  exact h _ (List.mem_reverse.mp (List.getElem_mem hlength)) (by simpa using hlast)

/-- Three bytes are four letters or less, with the filling just four. -/
theorem length_encode (bytes : List UInt8) :
    (sextets bytes).length + filling bytes = 4 * ((bytes.length + 2) / 3) := by
  fun_induction sextets bytes with
  | case1 => rfl
  | case2 a => simp [filling]
  | case3 a b => simp [filling]
  | case4 a b c bytes ih =>
      simp only [List.length_cons, filling]
      omega

/-- The filling of the bytes is what the letters lack. -/
theorem b64decode_encode (bytes : List UInt8) :
    b64decode (urlsafeB64encode bytes) = some bytes := by
  have hlt := Base64.sextets_lt bytes
  have hcore : ∀ c ∈ letters (sextets bytes), c ≠ '=' := fun c hc => ne_fill_of_mem_letters hlt hc
  have hlength : (urlsafeB64encode bytes).length % 4 = 0 := by
    have h := length_encode bytes
    rw [urlsafeB64encode, List.length_append, letters, List.length_map, List.length_replicate]
    omega
  have hfill := Base64.filling_le bytes
  rw [b64decode, hlength, urlsafeB64encode, takeWhile_filled hcore, dropWhile_filled hcore,
    mapM_urlValue_letters hlt]
  simp [hfill, Base64.ofSextets_sextets]

/-- What the pattern takes is letters and at most two `=`. -/
theorem exists_of_isB64url {text : List Char} (h : isB64url text = true) :
    ∃ core k, text = core ++ List.replicate k '=' ∧ (∀ c ∈ core, c ≠ '=') ∧ core ≠ [] ∧
      (∀ c ∈ core, (urlValue c).isSome = true) ∧ k ≤ 2 := by
  simp only [isB64url, Bool.and_eq_true, Bool.not_eq_true', List.isEmpty_eq_false_iff,
    List.all_eq_true, decide_eq_true_eq] at h
  obtain ⟨⟨⟨hne, hletters⟩, hfill⟩, hle⟩ := h
  refine ⟨text.takeWhile (· ≠ '='), (text.dropWhile (· ≠ '=')).length, ?_, ?_, hne, hletters, hle⟩
  · rw [← List.eq_replicate_of_mem hfill, List.takeWhile_append_dropWhile]
  · intro c hc
    simpa using List.mem_takeWhile_imp hc

theorem isB64url_letters (h : ∀ n ∈ ns, n < 64) (hne : ns ≠ []) (hk : k ≤ 2) :
    isB64url (letters ns ++ List.replicate k '=') = true := by
  have hcore : ∀ c ∈ letters ns, c ≠ '=' := fun c hc => ne_fill_of_mem_letters h hc
  have hvalues : ∀ c ∈ letters ns, (urlValue c).isSome = true := by
    intro c hc
    obtain ⟨n, hn, rfl⟩ := List.mem_map.mp hc
    rw [urlValue_urlLetter (h n hn), Option.isSome_some]
  have hletters : letters ns ≠ [] := mt List.map_eq_nil_iff.mp hne
  rw [isB64url, takeWhile_filled hcore, dropWhile_filled hcore]
  simp only [Bool.and_eq_true, Bool.not_eq_true', List.isEmpty_eq_false_iff, List.all_eq_true,
    decide_eq_true_eq, List.length_replicate]
  exact ⟨⟨⟨hletters, hvalues⟩, fun c hc => List.eq_of_mem_replicate hc⟩, hk⟩

/-- A key is taken if and only if it is the letters of so many bytes, with all of their filling
or a part of it. -/
theorem decodeKey_eq_some {length : Nat} (hpos : 0 < length) {value : Option String}
    {raw : List UInt8} : decodeKey length value = some raw ↔ raw.length = length ∧
      ∃ k ≤ filling raw, value =
        some (String.ofList (letters (sextets raw) ++ List.replicate k '=')) := by
  have hlt := Base64.sextets_lt raw
  have hcore : ∀ c ∈ letters (sextets raw), c ≠ '=' := fun c hc => ne_fill_of_mem_letters hlt hc
  have hwhole := length_encode raw
  have hfill := Base64.filling_le raw
  have hlength : ∀ k, (letters (sextets raw) ++ List.replicate k '=').length =
      (sextets raw).length + k := by
    intro k
    rw [List.length_append, letters, List.length_map, List.length_replicate]
  rw [decodeKey, Option.bind_eq_bind, Option.bind_eq_some_iff]
  constructor
  · rintro ⟨value, rfl, h⟩
    dsimp only at h
    split at h
    · cases h
    next hshort =>
      split at h
      next hform =>
        obtain ⟨bytes, -, h⟩ := Option.bind_eq_some_iff.mp h
        obtain ⟨⟨hbytes, hcanonical⟩, hraw⟩ := Option.ite_none_right_eq_some.mp h
        obtain rfl : bytes = raw := Option.some_inj.mp hraw
        obtain ⟨core, k, htext, hplain, -, -, -⟩ := exists_of_isB64url hform
        rw [htext, rstripFill_filled hplain, urlsafeB64encode, rstripFill_filled hcore]
          at hcanonical
        refine ⟨hbytes, k, ?_, ?_⟩
        · rw [htext, ← hcanonical, hlength, ← hbytes] at hshort
          omega
        · rw [hcanonical, ← htext, String.ofList_toList]
      · cases h
  · rintro ⟨rfl, k, hk, rfl⟩
    have hne : sextets raw ≠ [] := by
      intro hnil
      rw [hnil, List.length_nil] at hwhole
      omega
    have hpadded : letters (sextets raw) ++ List.replicate k '=' ++
        List.replicate ((4 - ((sextets raw).length + k) % 4) % 4) '=' = urlsafeB64encode raw := by
      rw [List.append_assoc, List.replicate_append_replicate, urlsafeB64encode]
      congr 2
      omega
    refine ⟨_, rfl, ?_⟩
    dsimp only
    rw [String.toList_ofList, hlength, if_neg (by omega),
      if_pos (isB64url_letters hlt hne (by omega)), hpadded, b64decode_encode, rstripFill_filled hcore]
    exact if_pos ⟨rfl, rstripFill_filled hcore⟩

end Letters

theorem filling_of_length {bytes : List UInt8} {n : Nat} (h : bytes.length = n)
    (hn : n % 3 ≠ 0) : filling bytes = 3 - n % 3 := by
  subst h
  fun_induction filling bytes with
  | case1 => exact absurd rfl hn
  | case2 => rfl
  | case3 => rfl
  | case4 a b c bytes ih =>
      simp only [List.length_cons] at hn ⊢
      rw [ih (by omega)]
      omega

/-- The keys of a subscription are valid if and only if they are the letters, with all of their
filling or a part of it, of an uncompressed point of the curve and of 16 bytes. -/
theorem validSubscriptionKeys_iff (onCurve : List UInt8 → Bool) (keys : Keys) :
    validSubscriptionKeys onCurve keys = true ↔
      ∃ point secret : List UInt8, point.length = 65 ∧ point.head? = some 4 ∧
        onCurve point = true ∧ secret.length = 16 ∧
        (∃ k ≤ 1, keys.p256dh =
          some (String.ofList (letters (sextets point) ++ List.replicate k '='))) ∧
        ∃ k ≤ 2, keys.auth =
          some (String.ofList (letters (sextets secret) ++ List.replicate k '=')) := by
  have hpoint : ∀ point : List UInt8, point.length = 65 → filling point = 1 :=
    fun _ h => filling_of_length h (by decide)
  have hsecret : ∀ secret : List UInt8, secret.length = 16 → filling secret = 2 :=
    fun _ h => filling_of_length h (by decide)
  rw [validSubscriptionKeys]
  constructor
  · intro h
    split at h
    next point secret hp ha =>
      obtain ⟨hlength, k, hk, hkey⟩ := (decodeKey_eq_some (by decide)).mp hp
      obtain ⟨hlength', k', hk', hkey'⟩ := (decodeKey_eq_some (by decide)).mp ha
      simp only [Bool.and_eq_true, decide_eq_true_eq] at h
      rw [hpoint point hlength] at hk
      rw [hsecret secret hlength'] at hk'
      exact ⟨point, secret, hlength, h.1, h.2, hlength', ⟨k, hk, hkey⟩, k', hk', hkey'⟩
    · cases h
  · rintro ⟨point, secret, hlength, hfirst, hcurve, hlength', ⟨k, hk, hkey⟩, k', hk', hkey'⟩
    have hp : decodeKey 65 keys.p256dh = some point :=
      (decodeKey_eq_some (by decide)).mpr
        ⟨hlength, k, hk.trans_eq (hpoint point hlength).symm, hkey⟩
    have ha : decodeKey 16 keys.auth = some secret :=
      (decodeKey_eq_some (by decide)).mpr
        ⟨hlength', k', hk'.trans_eq (hsecret secret hlength').symm, hkey'⟩
    simp only [hp, ha, hfirst, hcurve, decide_true, Bool.and_self]

end Frcmob.Subscriptions
