import Mathlib.Data.List.Infix
import Frcmob.Lib.Table
import Frcmob.Text

/-!
The saved answers of `api.ts`: copies in memory with an expiry, copies in localStorage
that outlive it for offline use, and the store for large bodies (Cache Storage or
IndexedDB). All three are keyed by workspace and URL. Times are milliseconds.
-/

namespace Frcmob.Api

structure WorkspaceSession where
  token : String
  expiresAt : Nat
  workspaceId : Nat
deriving DecidableEq

/-- `getWorkspaceSession()?.workspace.id ?? 0` -/
def workspaceOf (session : Option WorkspaceSession) : Nat :=
  (session.map (·.workspaceId)).getD 0

/-- `fetchedWith` is the session whose token the request carried, `none` if it carried none. -/
structure Response where
  status : Nat := 200
  body : String
  fetchedWith : Option WorkspaceSession := none
deriving DecidableEq

def Response.ok (response : Response) : Bool :=
  200 ≤ response.status && response.status < 300

def serverTrouble (response : Response) : Bool :=
  500 ≤ response.status || response.status = 429 || response.status = 408

/-- `url.includes(part)` -/
def includes (url part : String) : Bool :=
  decide (part.toList <:+: url.toList)

/-- The first `lv=` parameter, with the `?` or `&` before it if nothing comes after it. -/
def dropLiveVersion : List Char → List Char
  | [] => []
  | c :: rest =>
      if (c = '?' ∨ c = '&') ∧ ['l', 'v', '='].isPrefixOf rest then
        match (rest.drop 3).dropWhile (· ≠ '&') with
        | [] => []
        | _ :: tail => c :: tail
      else c :: dropLiveVersion rest

def stripLiveVersion (url : String) : String :=
  let kept := dropLiveVersion url.toList
  let dangling := kept.getLast? = some '?' ∨ kept.getLast? = some '&'
  String.ofList (if dangling then kept.dropLast else kept)

/-- The key of a GET for a workspace. -/
def cacheKey (workspaceId : Nat) (url : String) : String :=
  "GET:w" ++ toString workspaceId ++ ":" ++ stripLiveVersion url

def cacheKeyFor (session : Option WorkspaceSession) (url : String) : String :=
  cacheKey (workspaceOf session) url

/-- A copy in memory. -/
structure CachedResponse where
  requestKey : String
  storedAtMs : Nat
  expiresAtMs : Nat
  response : Response
deriving DecidableEq

/-- A copy in localStorage, or in the store for large bodies, which has no expiry. -/
structure PersistentCachedResponse where
  requestKey : String
  storedAtMs : Nat
  expiresAtMs : Nat
  retainUntilMs : Nat
  response : Response
deriving DecidableEq

structure Caches where
  memory : Table CachedResponse.requestKey := .empty
  saved : Table PersistentCachedResponse.requestKey := .empty
  stored : Table PersistentCachedResponse.requestKey := .empty

structure CacheLookupResult where
  fresh : Bool
  response : Response
  ageSec : Nat
deriving DecidableEq

def maxResponseCacheEntries : Nat := 200

def persistGetCacheTtlMs : Nat := 345600000

/-- `Math.floor((nowMs - storedAtMs) / 1000)` -/
def ageSec (nowMs storedAtMs : Nat) : Nat :=
  (nowMs - storedAtMs) / 1000

/-- `cacheResponse`: expired copies go, the key's copy becomes the last, and the oldest
beyond 200 go. -/
def Caches.cacheResponse (c : Caches) (now : Nat) (cached : CachedResponse) : Caches :=
  let live := c.memory.filter fun entry => now < entry.expiresAtMs
  let next := (live.erase cached.requestKey).put cached
  { c with memory := next.drop (next.rows.length - maxResponseCacheEntries) }

/-- Fresh, or expired by no more than `staleMs` if that is not zero. -/
def withinWindow (expiresAtMs now staleMs : Nat) : Bool :=
  now < expiresAtMs || (0 < staleMs && now ≤ expiresAtMs + staleMs)

def Caches.readMemoryGetCache (c : Caches) (requestKey : String) (now staleMs : Nat) :
    Caches × Option CacheLookupResult :=
  match c.memory.get? requestKey with
  | none => (c, none)
  | some cached =>
      if withinWindow cached.expiresAtMs now staleMs then
        (c, some {
          fresh := now < cached.expiresAtMs
          response := cached.response
          ageSec := ageSec now cached.storedAtMs })
      else ({ c with memory := c.memory.erase requestKey }, none)

def Caches.readPersistentGetCache (c : Caches) (requestKey : String) (now staleMs : Nat) :
    Caches × Option CacheLookupResult :=
  match c.saved.get? requestKey with
  | none => (c, none)
  | some copy =>
      if withinWindow copy.expiresAtMs now staleMs then
        (c, some {
          fresh := now < copy.expiresAtMs
          response := copy.response
          ageSec := ageSec now copy.storedAtMs })
      else if copy.retainUntilMs ≤ now then ({ c with saved := c.saved.erase requestKey }, none)
      else (c, none)

/-- The newer of the copies in memory and in localStorage, however old. -/
def Caches.readCacheAnyAge (c : Caches) (requestKey : String) (now : Nat) :
    Option CacheLookupResult :=
  let result := fun (storedAtMs : Nat) (response : Response) =>
    ({ fresh := false, response := response, ageSec := ageSec now storedAtMs } : CacheLookupResult)
  match c.memory.get? requestKey, c.saved.get? requestKey with
  | none, none => none
  | some cached, none => some (result cached.storedAtMs cached.response)
  | none, some copy => some (result copy.storedAtMs copy.response)
  | some cached, some copy =>
      if cached.storedAtMs < copy.storedAtMs then some (result copy.storedAtMs copy.response)
      else some (result cached.storedAtMs cached.response)

def Caches.getStoredResponse (c : Caches) (requestKey : String) (now : Nat) :
    Option PersistentCachedResponse :=
  (c.stored.get? requestKey).filter fun copy => now < copy.retainUntilMs

/-- Any copy at all, the newest. -/
def Caches.offlineStaleFallback (c : Caches) (requestKey : String) (now : Nat) : Option Response :=
  match c.readCacheAnyAge requestKey now, c.getStoredResponse requestKey now with
  | none, none => none
  | some hit, none => some hit.response
  | none, some copy => some copy.response
  | some hit, some copy =>
      if now - hit.ageSec * 1000 < copy.storedAtMs then some copy.response else some hit.response

/-- What `savedCopyWithin` finds at once. -/
def Caches.quickCopyWithin (c : Caches) (requestKey : String) (now maxAgeMs : Nat) :
    Option Response :=
  ((c.readCacheAnyAge requestKey now).filter fun quick => quick.ageSec * 1000 ≤ maxAgeMs).map
    (·.response)

/-- What `savedCopyWithin` finds in the store otherwise. -/
def Caches.storedCopyWithin (c : Caches) (requestKey : String) (now maxAgeMs : Nat) :
    Option Response :=
  ((c.getStoredResponse requestKey now).filter fun copy =>
    0 < copy.storedAtMs && now - copy.storedAtMs ≤ maxAgeMs).map (·.response)

/-- The lookups `apiFetch` starts with: an answer that is fresh, or else a stale candidate. -/
def Caches.lookup (c : Caches) (requestKey : String) (now ttlMs staleMs : Nat) :
    Caches × (Response ⊕ Option Response) :=
  let (afterMemory, memCached) := c.readMemoryGetCache requestKey now staleMs
  match memCached.filter (·.fresh) with
  | some hit => (afterMemory, .inl hit.response)
  | none =>
      let (afterSaved, persisted) := afterMemory.readPersistentGetCache requestKey now staleMs
      let candidate := memCached.map (·.response)
      match persisted with
      | none => (afterSaved, .inr candidate)
      | some copy =>
          let kept := afterSaved.cacheResponse now {
            requestKey := requestKey
            storedAtMs := now - copy.ageSec * 1000
            expiresAtMs := if copy.fresh then now + ttlMs else now - 1
            response := copy.response }
          if copy.fresh then (kept, .inl copy.response)
          else (kept, .inr (candidate <|> some copy.response))

/-- `writePersistentGetCache`, into localStorage or where that has no room into the store. -/
def Caches.writePersistentGetCache (c : Caches) (requestKey : String) (response : Response)
    (freshTtlMs now : Nat) (toStore : Bool) : Caches :=
  let copy : PersistentCachedResponse := {
    requestKey := requestKey
    storedAtMs := now
    expiresAtMs := now + freshTtlMs
    retainUntilMs := now + max freshTtlMs persistGetCacheTtlMs
    response := response }
  if toStore then { c with stored := c.stored.put copy } else { c with saved := c.saved.put copy }

/-! ### Keys -/

private theorem takeWhile_digits (n : Nat) (rest : List Char) :
    (Nat.toDigits 10 n ++ ':' :: rest).takeWhile Char.isDigit = Nat.toDigits 10 n := by
  rw [List.takeWhile_append_of_pos, List.takeWhile_cons_of_neg (by decide), List.append_nil]
  exact fun c hc => Nat.isDigit_of_mem_toDigits (by omega) (by omega) hc

/-- A key is of one workspace. -/
theorem cacheKey_workspace {w w' : Nat} {url url' : String}
    (h : cacheKey w url = cacheKey w' url') : w = w' := by
  have hlist := congrArg String.toList h
  have hdigits : ∀ n : Nat, (toString n).toList = Nat.toDigits 10 n := fun n => Nat.toList_repr
  have hcolon : (":" : String).toList = [':'] := rfl
  simp only [cacheKey, String.toList_append, List.append_assoc, List.append_cancel_left_eq,
    hdigits, hcolon, List.singleton_append] at hlist
  have htaken := congrArg (List.takeWhile Char.isDigit) hlist
  rw [takeWhile_digits, takeWhile_digits] at htaken
  rw [← Nat.ofDigitChars_ten_toDigits (n := w), htaken, Nat.ofDigitChars_ten_toDigits]

/-! ### What holds of every copy -/

/-- Every copy has a response that is right for its key. -/
structure Caches.All (P : String → Response → Prop) (c : Caches) : Prop where
  memory : ∀ entry ∈ c.memory, P entry.requestKey entry.response
  saved : ∀ copy ∈ c.saved, P copy.requestKey copy.response
  stored : ∀ copy ∈ c.stored, P copy.requestKey copy.response

section All
variable {P : String → Response → Prop} {c : Caches} {requestKey : String} {now : Nat}

theorem Caches.All.cacheResponse (h : c.All P) {cached : CachedResponse}
    (hcached : P cached.requestKey cached.response) : (c.cacheResponse now cached).All P := by
  refine ⟨fun entry hentry => ?_, h.saved, h.stored⟩
  cases Table.mem_put.mp (Table.mem_of_mem_drop hentry) with
  | inl heq => exact heq ▸ hcached
  | inr hold =>
      have hlive := (Table.mem_erase.mp hold.1).1
      exact h.memory entry (Table.mem_filter.mp hlive).1

theorem Caches.All.readMemory (h : c.All P) (requestKey : String) (now staleMs : Nat) :
    (c.readMemoryGetCache requestKey now staleMs).1.All P ∧
      ∀ hit, (c.readMemoryGetCache requestKey now staleMs).2 = some hit →
        P requestKey hit.response := by
  rw [Caches.readMemoryGetCache]
  cases hget : c.memory.get? requestKey with
  | none => exact ⟨h, nofun⟩
  | some cached =>
      obtain ⟨hmem, rfl⟩ := Table.get?_eq_some.mp hget
      by_cases hwindow : withinWindow cached.expiresAtMs now staleMs
      · simp only [hwindow, if_true]
        exact ⟨h, fun hit heq => Option.some_inj.mp heq ▸ h.memory cached hmem⟩
      · simp only [hwindow]
        refine ⟨⟨fun entry hentry => ?_, h.saved, h.stored⟩, nofun⟩
        exact h.memory entry (Table.mem_erase.mp hentry).1

theorem Caches.All.readPersistent (h : c.All P) (requestKey : String) (now staleMs : Nat) :
    (c.readPersistentGetCache requestKey now staleMs).1.All P ∧
      ∀ hit, (c.readPersistentGetCache requestKey now staleMs).2 = some hit →
        P requestKey hit.response := by
  rw [Caches.readPersistentGetCache]
  cases hget : c.saved.get? requestKey with
  | none => exact ⟨h, nofun⟩
  | some copy =>
      obtain ⟨hmem, rfl⟩ := Table.get?_eq_some.mp hget
      by_cases hwindow : withinWindow copy.expiresAtMs now staleMs
      · simp only [hwindow, if_true]
        exact ⟨h, fun hit heq => Option.some_inj.mp heq ▸ h.saved copy hmem⟩
      · by_cases hretain : copy.retainUntilMs ≤ now
        · simp only [hwindow, hretain, if_true]
          refine ⟨⟨h.memory, fun other hother => ?_, h.stored⟩, nofun⟩
          exact h.saved other (Table.mem_erase.mp hother).1
        · simp only [hwindow, hretain]
          exact ⟨h, nofun⟩

/-- The first lookups find only what is right for the key, and leave only that behind. -/
theorem Caches.All.lookup (h : c.All P) (requestKey : String) (now ttlMs staleMs : Nat) :
    (c.lookup requestKey now ttlMs staleMs).1.All P ∧
      (∀ response, (c.lookup requestKey now ttlMs staleMs).2 = .inl response →
        P requestKey response) ∧
      ∀ response, (c.lookup requestKey now ttlMs staleMs).2 = .inr (some response) →
        P requestKey response := by
  obtain ⟨hmemory, hcandidate⟩ := h.readMemory requestKey now staleMs
  obtain ⟨hsaved, hpersisted⟩ := hmemory.readPersistent requestKey now staleMs
  rw [Caches.lookup]
  cases hfresh : (c.readMemoryGetCache requestKey now staleMs).2.filter (·.fresh) with
  | some hit =>
      simp only [hfresh]
      have hhit := hcandidate hit (Option.filter_eq_some_iff.mp hfresh).1
      exact ⟨hmemory, fun response heq => Sum.inl.inj heq ▸ hhit, nofun⟩
  | none =>
      simp only [hfresh]
      cases hcopy : ((c.readMemoryGetCache requestKey now staleMs).1.readPersistentGetCache
          requestKey now staleMs).2 with
      | none =>
          refine ⟨hsaved, nofun, fun response heq => ?_⟩
          obtain ⟨hit, hhit, rfl⟩ := Option.map_eq_some_iff.mp (Sum.inr.inj heq)
          exact hcandidate hit hhit
      | some copy =>
          have hright := hpersisted copy hcopy
          by_cases hcopyFresh : copy.fresh
          · simp only [hcopyFresh, if_true]
            exact ⟨hsaved.cacheResponse hright, fun response heq => Sum.inl.inj heq ▸ hright, nofun⟩
          · simp only [hcopyFresh]
            refine ⟨hsaved.cacheResponse hright, nofun, fun response heq => ?_⟩
            cases hmem : (c.readMemoryGetCache requestKey now staleMs).2 with
            | none =>
                rw [hmem] at heq
                exact Option.some_inj.mp (Sum.inr.inj heq) ▸ hright
            | some hit =>
                rw [hmem] at heq
                exact Option.some_inj.mp (Sum.inr.inj heq) ▸ hcandidate hit hmem

theorem Caches.All.readAnyAge (h : c.All P) {hit : CacheLookupResult}
    (hhit : c.readCacheAnyAge requestKey now = some hit) : P requestKey hit.response := by
  cases hmem : c.memory.get? requestKey with
  | none =>
      cases hsaved : c.saved.get? requestKey with
      | none => simp [Caches.readCacheAnyAge, hmem, hsaved] at hhit
      | some copy =>
          obtain ⟨hin, rfl⟩ := Table.get?_eq_some.mp hsaved
          simp only [Caches.readCacheAnyAge, hmem, hsaved] at hhit
          exact Option.some_inj.mp hhit ▸ h.saved copy hin
  | some cached =>
      obtain ⟨hcached, rfl⟩ := Table.get?_eq_some.mp hmem
      cases hsaved : c.saved.get? cached.requestKey with
      | none =>
          simp only [Caches.readCacheAnyAge, hmem, hsaved] at hhit
          exact Option.some_inj.mp hhit ▸ h.memory cached hcached
      | some copy =>
          obtain ⟨hin, hkey⟩ := Table.get?_eq_some.mp hsaved
          simp only [Caches.readCacheAnyAge, hmem, hsaved] at hhit
          by_cases hnewer : cached.storedAtMs < copy.storedAtMs
          · rw [if_pos hnewer] at hhit
            exact Option.some_inj.mp hhit ▸ hkey ▸ h.saved copy hin
          · rw [if_neg hnewer] at hhit
            exact Option.some_inj.mp hhit ▸ h.memory cached hcached

theorem Caches.All.getStored (h : c.All P) {copy : PersistentCachedResponse}
    (hcopy : c.getStoredResponse requestKey now = some copy) : P requestKey copy.response := by
  obtain ⟨hget, -⟩ := Option.filter_eq_some_iff.mp hcopy
  obtain ⟨hin, rfl⟩ := Table.get?_eq_some.mp hget
  exact h.stored copy hin

theorem Caches.All.offlineStale (h : c.All P) {response : Response}
    (hhit : c.offlineStaleFallback requestKey now = some response) : P requestKey response := by
  cases hquick : c.readCacheAnyAge requestKey now with
  | none =>
      cases hstored : c.getStoredResponse requestKey now with
      | none => simp [Caches.offlineStaleFallback, hquick, hstored] at hhit
      | some copy =>
          simp only [Caches.offlineStaleFallback, hquick, hstored] at hhit
          exact Option.some_inj.mp hhit ▸ h.getStored hstored
  | some hit =>
      cases hstored : c.getStoredResponse requestKey now with
      | none =>
          simp only [Caches.offlineStaleFallback, hquick, hstored] at hhit
          exact Option.some_inj.mp hhit ▸ h.readAnyAge hquick
      | some copy =>
          simp only [Caches.offlineStaleFallback, hquick, hstored] at hhit
          by_cases hnewer : now - hit.ageSec * 1000 < copy.storedAtMs
          · rw [if_pos hnewer] at hhit
            exact Option.some_inj.mp hhit ▸ h.getStored hstored
          · rw [if_neg hnewer] at hhit
            exact Option.some_inj.mp hhit ▸ h.readAnyAge hquick

theorem Caches.All.quickCopy (h : c.All P) {maxAgeMs : Nat} {response : Response}
    (hhit : c.quickCopyWithin requestKey now maxAgeMs = some response) : P requestKey response := by
  obtain ⟨hit, hfilter, rfl⟩ := Option.map_eq_some_iff.mp hhit
  exact h.readAnyAge (Option.filter_eq_some_iff.mp hfilter).1

theorem Caches.All.storedCopy (h : c.All P) {maxAgeMs : Nat} {response : Response}
    (hhit : c.storedCopyWithin requestKey now maxAgeMs = some response) :
    P requestKey response := by
  obtain ⟨copy, hfilter, rfl⟩ := Option.map_eq_some_iff.mp hhit
  exact h.getStored (Option.filter_eq_some_iff.mp hfilter).1

theorem Caches.All.writePersistent (h : c.All P) {response : Response}
    (hresponse : P requestKey response) (freshTtlMs now : Nat) (toStore : Bool) :
    (c.writePersistentGetCache requestKey response freshTtlMs now toStore).All P := by
  cases toStore with
  | true =>
      refine ⟨h.memory, h.saved, fun copy hcopy => ?_⟩
      cases Table.mem_put.mp hcopy with
      | inl heq => exact heq ▸ hresponse
      | inr hold => exact h.stored copy hold.1
  | false =>
      refine ⟨h.memory, fun copy hcopy => ?_, h.stored⟩
      cases Table.mem_put.mp hcopy with
      | inl heq => exact heq ▸ hresponse
      | inr hold => exact h.saved copy hold.1

end All

end Frcmob.Api
