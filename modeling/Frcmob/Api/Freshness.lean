import Frcmob.Api.Fetch

/-!
How old the copies are that answer a read at once. The clock may be set to anything. What came
from the network is recorded with the time it came and how long it is kept as fresh; a lookup
that finds a copy in localStorage puts it in memory with an expiry of its own, and a copy in
localStorage is fresh from when it is written.
-/

namespace Frcmob.Api
open Transition

/-- A body from the network. -/
structure Receipt where
  requestKey : String
  response : Response
  atMs : Nat
  ttlMs : Nat
deriving DecidableEq

structure Reads where
  client : Client := {}
  receipts : List Receipt := []

inductive ReadAction
  | setClock (now : Nat)
  | api (action : ApiAction)
deriving DecidableEq

/-- How long `run` keeps a response as fresh. -/
def Call.keptTtlMs (call : Call) : Nat :=
  if call.options.audited then max 1 call.cacheTtlMs
  else if call.shouldUseCache then call.cacheTtlMs
  else 1

def Call.receipt (call : Call) (response : Response) (now : Nat) : Receipt where
  requestKey := call.requestKey
  response := response
  atMs := now
  ttlMs := call.keptTtlMs

/-- A part of a combined response came when that did. -/
def Reads.seeded (s : Reads) (source : Answer) (url body : String) (ttlMs : Nat) : List Receipt :=
  (s.receipts.filter fun receipt =>
    receipt.requestKey = source.requestKey ∧ receipt.response = source.response).map
    fun receipt => {
      requestKey := cacheKeyFor s.client.workspaceSession url
      response := { body := body, fetchedWith := source.response.fetchedWith }
      atMs := receipt.atMs
      ttlMs := ttlMs }

/-- What a step brings from the network. -/
def Reads.received (s : Reads) : ApiAction → List Receipt
  | .respond id status body =>
      ((s.client.calls.get? id).map fun call =>
        call.receipt { status := status, body := body, fetchedWith := call.session }
          s.client.now).toList
  | .respondEarly id body =>
      ((s.client.calls.get? id).map fun call => call.receipt { body := body } s.client.now).toList
  | .seed source url body ttlMs => s.seeded source url body ttlMs
  | _ => []

def readStep (s : Reads) : ReadAction → Option Reads
  | .setClock now => some { s with client := { s.client with now := now } }
  | .api action => (apiStep s.client action).map fun client =>
      { client := client, receipts := s.received action ++ s.receipts }

def readSystem : System Reads ReadAction where
  start s := apiSystem.start s.client ∧ s.receipts = []
  step := readStep

/-- Received from the network no longer than its time to live before `untilMs`. -/
def Reads.Fetched (s : Reads) (requestKey : String) (response : Response) (untilMs : Nat) : Prop :=
  ∃ receipt ∈ s.receipts, receipt.requestKey = requestKey ∧ receipt.response = response ∧
    untilMs ≤ receipt.atMs + receipt.ttlMs

/-- What the first lookups of a call find: a fresh answer or a stale one. -/
def Client.found (c : Client) (url : String) (options : ReadOptions) :
    Response ⊕ Option Response :=
  let call : Call := {
    id := 0
    url := url
    options := options
    requestKey := cacheKeyFor c.workspaceSession url }
  if call.shouldUseCache then
    (c.caches.lookup call.requestKey c.now call.cacheTtlMs options.staleWhileRevalidateMs).2
  else .inr none

/-- A call answered as fresh sends nothing and its body came within its time to live, one
answered as stale and refreshed in the background within that and the stale window. -/
structure Reads.Fresh (s : Reads) : Prop where
  fresh : ∀ id url options response, s.client.found url options = .inl response →
    let requestKey := cacheKeyFor s.client.workspaceSession url
    let c := s.client.apiFetch id url options
    c.answers = { requestKey := requestKey, response := response } :: s.client.answers ∧
      c.inflight = s.client.inflight ∧ s.Fetched requestKey response s.client.now
  stale : ∀ id url options response, s.client.found url options = .inr (some response) →
    let requestKey := cacheKeyFor s.client.workspaceSession url
    let c := s.client.apiFetch id url options
    c.answers = { requestKey := requestKey, response := response } :: s.client.answers ∧
      s.Fetched requestKey response (s.client.now - options.staleWhileRevalidateMs)

/-- The copy in localStorage that a lookup puts in memory. -/
def Caches.copiedBack (c : Caches) (requestKey : String) (now staleMs : Nat) :
    Option PersistentCachedResponse :=
  if (c.memory.get? requestKey).any (now < ·.expiresAtMs) then none
  else (c.saved.get? requestKey).filter fun copy => withinWindow copy.expiresAtMs now staleMs

/-- A copy put in memory expires there no later than on the disk, one written to localStorage
is written as the body arrives, and a combined response is taken apart as it arrives. -/
def Timely (s : Reads) : ReadAction → Prop
  | .api (.apiFetch _ url options) =>
      let ttlMs := if shouldBypassCache url options then 0 else options.cacheTtlMs
      0 < ttlMs ∧ options.audited = false →
        ∀ copy ∈ s.client.caches.copiedBack (cacheKeyFor s.client.workspaceSession url)
          s.client.now options.staleWhileRevalidateMs,
        (if s.client.now < copy.expiresAtMs then s.client.now + ttlMs else s.client.now - 1) ≤
          copy.expiresAtMs
  | .api (.land write false) => ∃ receipt ∈ s.receipts,
      receipt.requestKey = write.requestKey ∧ receipt.response = write.response ∧
        receipt.ttlMs = write.freshTtlMs ∧ s.client.now ≤ receipt.atMs
  | .api (.seed source _ _ _) => ∃ receipt ∈ s.receipts,
      receipt.requestKey = source.requestKey ∧ receipt.response = source.response ∧
        s.client.now ≤ receipt.atMs
  | _ => True

instance (s : Reads) : ∀ a, Decidable (Timely s a)
  | .api (.apiFetch _ _ _) => inferInstanceAs (Decidable (_ → _))
  | .api (.land _ false) => inferInstanceAs (Decidable (∃ receipt ∈ s.receipts, _))
  | .api (.seed _ _ _ _) => inferInstanceAs (Decidable (∃ receipt ∈ s.receipts, _))
  | .setClock _ | .api (.land _ true) | .api (.tick _) | .api (.setOnline _)
  | .api (.setWorkspaceSession _) | .api .clearWorkspaceSession | .api (.earlyFetch _)
  | .api (.resume _) | .api (.respond _ _ _) | .api (.respondEarly _ _) | .api (.fail _)
  | .api (.fallback _) | .api (.forget _) | .api (.forgetStored _) | .api .reload =>
      isTrue True.intro

/-! ### Copies by their expiry -/

/-- Every copy that has an expiry has one that is right for its key and response. -/
structure Caches.Until (P : String → Response → Nat → Prop) (c : Caches) : Prop where
  memory : ∀ entry ∈ c.memory, P entry.requestKey entry.response entry.expiresAtMs
  saved : ∀ copy ∈ c.saved, P copy.requestKey copy.response copy.expiresAtMs

section Until
variable {P Q : String → Response → Nat → Prop} {c : Caches} {requestKey : String} {now : Nat}

theorem Caches.Until.mono (h : c.Until P)
    (himp : ∀ requestKey response untilMs, P requestKey response untilMs →
      Q requestKey response untilMs) : c.Until Q :=
  ⟨fun entry hentry => himp _ _ _ (h.memory entry hentry),
    fun copy hcopy => himp _ _ _ (h.saved copy hcopy)⟩

theorem le_of_withinWindow {expiresAtMs staleMs : Nat}
    (h : withinWindow expiresAtMs now staleMs = true) : now ≤ expiresAtMs + staleMs := by
  simp only [withinWindow, Bool.or_eq_true, Bool.and_eq_true, decide_eq_true_eq] at h
  omega

theorem Caches.Until.cacheResponse (h : c.Until P) {cached : CachedResponse}
    (hcached : P cached.requestKey cached.response cached.expiresAtMs) :
    (c.cacheResponse now cached).Until P := by
  refine ⟨fun entry hentry => ?_, h.saved⟩
  cases Table.mem_put.mp (Table.mem_of_mem_drop hentry) with
  | inl heq => exact heq ▸ hcached
  | inr hold =>
      have hlive := (Table.mem_erase.mp hold.1).1
      exact h.memory entry (Table.mem_filter.mp hlive).1

theorem Caches.Until.forget (h : c.Until P) (requestKey : String) :
    Caches.Until P { c with memory := c.memory.erase requestKey } :=
  ⟨fun entry hentry => h.memory entry (Table.mem_erase.mp hentry).1, h.saved⟩

theorem Caches.Until.forgetSaved (h : c.Until P) (requestKey : String) :
    Caches.Until P { c with saved := c.saved.erase requestKey } :=
  ⟨h.memory, fun copy hcopy => h.saved copy (Table.mem_erase.mp hcopy).1⟩

theorem Caches.Until.write (h : c.Until P) {response : Response} {freshTtlMs : Nat}
    (hwrite : P requestKey response (now + freshTtlMs)) :
    (c.writePersistentGetCache requestKey response freshTtlMs now false).Until P := by
  refine ⟨h.memory, fun copy hcopy => ?_⟩
  cases Table.mem_put.mp hcopy with
  | inl heq => exact heq ▸ hwrite
  | inr hold => exact h.saved copy hold.1

/-- The copy that a lookup finds in memory, if any, and that it forgets otherwise. -/
theorem Caches.Until.readMemory (h : c.Until P) (requestKey : String) (now staleMs : Nat) :
    (c.readMemoryGetCache requestKey now staleMs).1.Until P ∧
      (c.readMemoryGetCache requestKey now staleMs).1.saved = c.saved ∧
      ∀ hit, (c.readMemoryGetCache requestKey now staleMs).2 = some hit →
        ∃ entry ∈ c.memory, (hit.fresh = true ↔ now < entry.expiresAtMs) ∧
          now ≤ entry.expiresAtMs + staleMs ∧ P requestKey hit.response entry.expiresAtMs := by
  rw [Caches.readMemoryGetCache]
  cases hget : c.memory.get? requestKey with
  | none => exact ⟨h, rfl, fun hit heq => by cases heq⟩
  | some entry =>
      obtain ⟨hmem, rfl⟩ := Table.get?_eq_some.mp hget
      by_cases hwindow : withinWindow entry.expiresAtMs now staleMs
      · simp only [hwindow, if_true]
        refine ⟨h, True.intro, fun hit heq => ⟨entry, hmem, ?_⟩⟩
        cases heq
        exact ⟨decide_eq_true_iff, le_of_withinWindow hwindow, h.memory entry hmem⟩
      · simp only [hwindow]
        exact ⟨h.forget _, rfl, fun hit heq => by cases heq⟩

theorem fresh_of_memory {entry : CachedResponse} (hget : c.memory.get? requestKey = some entry)
    (hfresh : now < entry.expiresAtMs) (staleMs : Nat) :
    (c.readMemoryGetCache requestKey now staleMs).2.filter (·.fresh) ≠ none := by
  have hwindow : withinWindow entry.expiresAtMs now staleMs = true := by
    simp [withinWindow, hfresh]
  simp [Caches.readMemoryGetCache, hget, hwindow, hfresh]

theorem Caches.Until.readPersistent (h : c.Until P) (requestKey : String) (now staleMs : Nat) :
    (c.readPersistentGetCache requestKey now staleMs).1.Until P ∧
      ∀ hit, (c.readPersistentGetCache requestKey now staleMs).2 = some hit →
        ∃ copy, (c.saved.get? requestKey).filter
            (fun copy => withinWindow copy.expiresAtMs now staleMs) = some copy ∧
          (hit.fresh = true ↔ now < copy.expiresAtMs) ∧ hit.response = copy.response ∧
          now ≤ copy.expiresAtMs + staleMs ∧ P requestKey hit.response copy.expiresAtMs := by
  rw [Caches.readPersistentGetCache]
  cases hget : c.saved.get? requestKey with
  | none => exact ⟨h, fun hit heq => by cases heq⟩
  | some copy =>
      obtain ⟨hmem, rfl⟩ := Table.get?_eq_some.mp hget
      by_cases hwindow : withinWindow copy.expiresAtMs now staleMs
      · simp only [hwindow, if_true]
        refine ⟨h, fun hit heq => ⟨copy, Option.filter_eq_some_iff.mpr ⟨rfl, hwindow⟩, ?_⟩⟩
        cases heq
        exact ⟨decide_eq_true_iff, rfl, le_of_withinWindow hwindow, h.saved copy hmem⟩
      · by_cases hretain : copy.retainUntilMs ≤ now
        · simp only [hwindow, hretain, if_true]
          exact ⟨h.forgetSaved _, fun hit heq => by cases heq⟩
        · simp only [hwindow, hretain]
          exact ⟨h, fun hit heq => by cases heq⟩

/-- Of what the first lookups find and of the copy that they put in memory. -/
theorem Caches.Until.lookup (h : c.Until P) (requestKey : String) (now ttlMs staleMs : Nat) :
    ((∀ copy ∈ c.copiedBack requestKey now staleMs, P requestKey copy.response
        (if now < copy.expiresAtMs then now + ttlMs else now - 1)) →
      (c.lookup requestKey now ttlMs staleMs).1.Until P) ∧
      (∀ response, (c.lookup requestKey now ttlMs staleMs).2 = .inl response →
        ∃ untilMs, now < untilMs ∧ P requestKey response untilMs) ∧
      ∀ response, (c.lookup requestKey now ttlMs staleMs).2 = .inr (some response) →
        ∃ untilMs, now ≤ untilMs + staleMs ∧ P requestKey response untilMs := by
  obtain ⟨hmemory, hsame, hcandidate⟩ := h.readMemory requestKey now staleMs
  obtain ⟨hsaved, hpersisted⟩ := hmemory.readPersistent requestKey now staleMs
  rw [hsame] at hpersisted
  rw [Caches.lookup]
  cases hfresh : (c.readMemoryGetCache requestKey now staleMs).2.filter (·.fresh) with
  | some hit =>
      simp only [hfresh]
      obtain ⟨hhit, hhitFresh⟩ := Option.filter_eq_some_iff.mp hfresh
      obtain ⟨entry, -, hentry, -, hright⟩ := hcandidate hit hhit
      refine ⟨fun _ => hmemory, fun response heq => ?_, fun response heq => by cases heq⟩
      exact ⟨entry.expiresAtMs, hentry.mp hhitFresh, Sum.inl.inj heq ▸ hright⟩
  | none =>
      simp only [hfresh]
      have hstale : ∀ hit, (c.readMemoryGetCache requestKey now staleMs).2 = some hit →
          ∃ untilMs, now ≤ untilMs + staleMs ∧ P requestKey hit.response untilMs := by
        intro hit hhit
        obtain ⟨entry, -, -, hwithin, hright⟩ := hcandidate hit hhit
        exact ⟨entry.expiresAtMs, hwithin, hright⟩
      cases hcopy : ((c.readMemoryGetCache requestKey now staleMs).1.readPersistentGetCache
          requestKey now staleMs).2 with
      | none =>
          refine ⟨fun _ => hsaved, (fun response heq => by cases heq), fun response heq => ?_⟩
          obtain ⟨hit, hhit, rfl⟩ := Option.map_eq_some_iff.mp (Sum.inr.inj heq)
          exact hstale hit hhit
      | some hit =>
          obtain ⟨copy, hfound, hhitFresh, hsameResponse, hwithin, hright⟩ := hpersisted hit hcopy
          have hmiss : ¬ (c.memory.get? requestKey).any (now < ·.expiresAtMs) = true := by
            intro hany
            obtain ⟨entry, hget, hlive⟩ := (Option.any_eq_true _ _).mp hany
            exact fresh_of_memory hget (of_decide_eq_true hlive) staleMs hfresh
          have hin : copy ∈ c.copiedBack requestKey now staleMs := by
            rw [Caches.copiedBack, if_neg hmiss]
            exact hfound
          by_cases hlive : now < copy.expiresAtMs
          · simp only [hhitFresh.mpr hlive, if_true]
            refine ⟨fun hback => hsaved.cacheResponse ?_,
              fun response heq => ⟨copy.expiresAtMs, hlive, Sum.inl.inj heq ▸ hright⟩,
              fun response heq => by cases heq⟩
            have hkept := hback copy hin
            rwa [if_pos hlive, ← hsameResponse] at hkept
          · have hnot : hit.fresh = false := Bool.eq_false_iff.mpr (hhitFresh.not.mpr hlive)
            simp only [hnot]
            refine ⟨fun hback => hsaved.cacheResponse ?_, (fun response heq => by cases heq),
              fun response heq => ?_⟩
            · have hkept := hback copy hin
              rwa [if_neg hlive, ← hsameResponse] at hkept
            cases hmem : (c.readMemoryGetCache requestKey now staleMs).2 with
            | none =>
                rw [hmem] at heq
                exact ⟨copy.expiresAtMs, hwithin, Option.some_inj.mp (Sum.inr.inj heq) ▸ hright⟩
            | some memoryHit =>
                rw [hmem] at heq
                exact Option.some_inj.mp (Sum.inr.inj heq) ▸ hstale memoryHit hmem

end Until

/-! ### Steps that leave the copies alone -/

section Frame
variable (c : Client) (call : Call)

theorem send_caches : (c.send call).caches = c.caches := by
  rw [Client.send]
  extract_lets signed
  split
  · split <;> rfl
  · split <;> rfl

theorem afterSavedCopy_caches : (c.afterSavedCopy call).caches = c.caches := by
  rw [Client.afterSavedCopy]
  split
  · split
    · rfl
    · rfl
    · split
      · rfl
      · exact send_caches c call
  · exact send_caches c call

theorem resume_caches {c t : Client} {call : Call} (h : c.resume call = some t) :
    t.caches = c.caches := by
  rw [Client.resume] at h
  split at h
  · cases h
    exact afterSavedCopy_caches c _
  · obtain ⟨response, -, rfl⟩ := Option.map_eq_some_iff.mp h
    rfl
  · split at h <;> cases h
    · rfl
    · exact send_caches c call
  · split at h <;> cases h <;> rfl
  all_goals cases h

theorem fallback_caches {c t : Client} {call : Call} (h : c.fallback call = some t) :
    t.caches = c.caches := by
  rw [Client.fallback] at h
  split at h
  · cases h
    rfl
  · obtain ⟨response, -, rfl⟩ := Option.map_eq_some_iff.mp h
    rfl

theorem unshare_caches : (c.unshare call).caches = c.caches := by
  rw [Client.unshare]
  split <;> rfl

theorem revoke_caches (response : Response) : (c.revoke call response).caches = c.caches := by
  rw [Client.revoke]
  split <;> rfl

theorem revoke_now (response : Response) : (c.revoke call response).now = c.now := by
  rw [Client.revoke]
  split <;> rfl

end Frame

section Steps
variable {P : String → Response → Nat → Prop} {c : Client}

/-- `apiFetch` changes the copies by its lookups alone. -/
theorem Caches.Until.apiFetch (h : c.caches.Until P) (id : Nat) (url : String)
    (options : ReadOptions)
    (hlookup : ∀ call : Call, call.url = url → call.options = options →
      call.requestKey = cacheKeyFor c.workspaceSession url → call.shouldUseCache = true →
      (c.caches.lookup call.requestKey c.now call.cacheTtlMs
        options.staleWhileRevalidateMs).1.Until P) :
    (c.apiFetch id url options).caches.Until P := by
  unfold Client.apiFetch
  extract_lets call
  split
  · rename_i hcache
    have hfound := hlookup call rfl rfl rfl hcache
    cases hlook : c.caches.lookup call.requestKey c.now call.cacheTtlMs
        options.staleWhileRevalidateMs with
    | mk caches found =>
        rw [hlook] at hfound
        cases found with
        | inl response => exact hfound
        | inr candidate =>
            cases candidate with
            | some stale =>
                dsimp only
                rw [afterSavedCopy_caches]
                exact hfound
            | none =>
                dsimp only
                split
                · exact hfound
                · rw [afterSavedCopy_caches]
                  exact hfound
  · rw [send_caches]
    exact h

theorem Caches.Until.keep (h : c.caches.Until P) {call : Call} {response : Response}
    (hkept : P call.requestKey response (c.now + call.keptTtlMs)) :
    (c.keep call response).caches.Until P := by
  unfold Client.keep
  extract_lets write
  split
  · exact h
  · split
    · exact h
    · rename_i haudited
      split
      · rename_i hcache
        have hcached := hkept
        rw [Call.keptTtlMs, if_neg haudited, if_pos hcache] at hcached
        exact h.cacheResponse hcached
      · split
        · exact h.forget _
        · exact h

theorem Caches.Until.settle (h : c.caches.Until P) {call : Call} {response : Response}
    (hkept : P call.requestKey response (c.now + call.keptTtlMs)) :
    (c.settle call response).caches.Until P := by
  have hrevoked : (c.revoke call response).caches.Until P := by
    rw [revoke_caches]
    exact h
  have hnow := revoke_now c call response
  have hunshared : (((c.revoke call response).keep call response).unshare call).caches.Until P := by
    rw [unshare_caches]
    exact hrevoked.keep (hnow.symm ▸ hkept)
  unfold Client.settle
  extract_lets settled c'
  split
  · exact hunshared
  · exact hunshared

end Steps

theorem Reads.Fetched.mono {s t : Reads} {requestKey : String} {response : Response}
    {untilMs : Nat} (h : s.Fetched requestKey response untilMs)
    (hsub : s.receipts ⊆ t.receipts) : t.Fetched requestKey response untilMs := by
  obtain ⟨receipt, hmem, hright⟩ := h
  exact ⟨receipt, hsub hmem, hright⟩

theorem Reads.Fetched.earlier {s : Reads} {requestKey : String} {response : Response}
    {untilMs untilMs' : Nat} (h : s.Fetched requestKey response untilMs)
    (hle : untilMs' ≤ untilMs) : s.Fetched requestKey response untilMs' := by
  obtain ⟨receipt, hmem, hkey, hresponse, hwithin⟩ := h
  exact ⟨receipt, hmem, hkey, hresponse, hle.trans hwithin⟩

/-- Every copy came within its time to live before its expiry. -/
def Reads.Held (s : Reads) : Prop :=
  s.client.caches.Until s.Fetched

theorem lookup_right {s : Reads} (h : s.Held) {id : Nat} {url : String} {options : ReadOptions}
    (htimely : Timely s (.api (.apiFetch id url options))) {call : Call} (hurl : call.url = url)
    (hoptions : call.options = options)
    (hkey : call.requestKey = cacheKeyFor s.client.workspaceSession url)
    (hcache : call.shouldUseCache = true) :
    (s.client.caches.lookup call.requestKey s.client.now call.cacheTtlMs
      options.staleWhileRevalidateMs).1.Until s.Fetched := by
  have hlive : 0 < call.cacheTtlMs ∧ options.audited = false := by
    simpa [Call.shouldUseCache, hoptions] using hcache
  have httl : call.cacheTtlMs =
      if shouldBypassCache url options then 0 else options.cacheTtlMs := by
    rw [Call.cacheTtlMs, hurl, hoptions]
  rw [httl] at hlive ⊢
  refine (h.lookup _ _ _ _).1 fun copy hcopy => ?_
  rw [hkey] at hcopy ⊢
  have hsaved : s.Fetched copy.requestKey copy.response copy.expiresAtMs ∧
      copy.requestKey = cacheKeyFor s.client.workspaceSession url := by
    rw [Caches.copiedBack] at hcopy
    split at hcopy
    · cases hcopy
    · obtain ⟨hmem, hcopyKey⟩ := Table.get?_eq_some.mp (Option.filter_eq_some_iff.mp hcopy).1
      exact ⟨h.saved copy hmem, hcopyKey⟩
  exact (hsaved.2 ▸ hsaved.1).earlier (htimely hlive copy hcopy)

theorem held_api {s t : Reads} {action : ApiAction} (h : s.Held)
    (htimely : Timely s (.api action)) (hstep : readStep s (.api action) = some t) : t.Held := by
  obtain ⟨client, happly, rfl⟩ := Option.map_eq_some_iff.mp hstep
  have hmono : ∀ requestKey response untilMs, s.Fetched requestKey response untilMs →
      Reads.Fetched { client := client, receipts := s.received action ++ s.receipts }
        requestKey response untilMs :=
    fun _ _ _ hfetched => hfetched.mono (List.subset_append_right _ _)
  -- the copies stand, or are those that a lookup leaves
  have hsame : client.caches.Until s.Fetched →
      Reads.Held { client := client, receipts := s.received action ++ s.receipts } :=
    fun hcaches => hcaches.mono hmono
  cases action with
  | tick _ | setOnline _ | setWorkspaceSession _ | clearWorkspaceSession | earlyFetch _ =>
      cases happly
      exact hsame h
  | apiFetch id url options =>
      rw [apiStep] at happly
      split at happly
      · cases happly
      · cases happly
        exact hsame (h.apiFetch id url options fun call => lookup_right h htimely)
  | resume id =>
      obtain ⟨call, -, hresume⟩ := Option.bind_eq_some_iff.mp happly
      refine hsame ?_
      rw [resume_caches hresume]
      exact h
  | respond id status body =>
      obtain ⟨call, hcall, rfl⟩ := Option.map_eq_some_iff.mp happly
      obtain ⟨hget, -⟩ := Option.filter_eq_some_iff.mp hcall
      refine (h.mono hmono).settle ⟨call.receipt _ s.client.now, ?_, rfl, rfl, Nat.le_refl _⟩
      simp [Reads.received, hget]
  | respondEarly id body =>
      obtain ⟨call, hcall, rfl⟩ := Option.map_eq_some_iff.mp happly
      obtain ⟨hget, -⟩ := Option.filter_eq_some_iff.mp hcall
      refine (h.mono hmono).settle ⟨call.receipt _ s.client.now, ?_, rfl, rfl, Nat.le_refl _⟩
      simp [Reads.received, hget]
  | fail id =>
      obtain ⟨call, -, rfl⟩ := Option.map_eq_some_iff.mp happly
      refine hsame ?_
      have hcaches : (s.client.fail call).caches = s.client.caches := unshare_caches s.client call
      rw [hcaches]
      exact h
  | fallback id =>
      obtain ⟨call, -, hfallback⟩ := Option.bind_eq_some_iff.mp happly
      refine hsame ?_
      rw [fallback_caches hfallback]
      exact h
  | land write toStore =>
      rw [apiStep] at happly
      split at happly
      · cases happly
        cases toStore with
        | true => exact hsame ⟨h.memory, h.saved⟩
        | false =>
            obtain ⟨receipt, hmem, hkey, hresponse, httl, hnow⟩ := htimely
            refine hsame (h.write ⟨receipt, hmem, hkey, hresponse, ?_⟩)
            omega
      · cases happly
  | forget requestKey =>
      cases happly
      exact hsame (h.forgetSaved requestKey)
  | forgetStored _ =>
      cases happly
      exact hsame ⟨h.memory, h.saved⟩
  | seed source url body ttlMs =>
      rw [apiStep] at happly
      split at happly
      · cases happly
        obtain ⟨receipt, hmem, hkey, hresponse, hnow⟩ := htimely
        have hsource : receipt ∈ s.receipts.filter fun receipt =>
            receipt.requestKey = source.requestKey ∧ receipt.response = source.response :=
          List.mem_filter.mpr ⟨hmem, decide_eq_true ⟨hkey, hresponse⟩⟩
        exact (h.mono hmono).cacheResponse ⟨_, List.mem_append_left _
          (List.mem_map_of_mem hsource), rfl, rfl, Nat.add_le_add_right hnow _⟩
      · cases happly
  | reload =>
      cases happly
      exact hsame ⟨fun entry hentry => absurd hentry (Table.notMem_empty entry), h.saved⟩

theorem held_step (s : Reads) (a : ReadAction) (t : Reads) (h : s.Held) (htimely : Timely s a)
    (hstep : readStep s a = some t) : t.Held := by
  cases a with
  | setClock now =>
      cases hstep
      exact h
  | api action => exact held_api h htimely hstep

theorem held_reachable {s : Reads} (h : ReachableWhen readSystem Timely s) : s.Held := by
  refine h.invariant (fun s hstart => ?_) held_step
  obtain ⟨hclient, -⟩ := hstart
  rw [Reads.Held, show s.client = _ from hclient]
  exact ⟨nofun, nofun⟩

/-- What the first lookups find is what the call is answered with. -/
theorem apiFetch_fresh {c : Client} {url : String} {options : ReadOptions} {response : Response}
    (hfound : c.found url options = .inl response) (id : Nat) :
    ∃ caches call, call.requestKey = cacheKeyFor c.workspaceSession url ∧
      c.apiFetch id url options = { c with caches := caches }.answer call response := by
  rw [Client.found] at hfound
  split at hfound
  · rename_i hcache
    unfold Client.apiFetch
    extract_lets call
    have hcall : call.shouldUseCache = true := hcache
    rw [if_pos hcall]
    cases hlook : c.caches.lookup call.requestKey c.now call.cacheTtlMs
        options.staleWhileRevalidateMs with
    | mk caches found =>
        obtain rfl : found = .inl response := by
          have hsnd := congrArg Prod.snd hlook
          exact hsnd.symm.trans hfound
        exact ⟨caches, call, rfl, rfl⟩
  · cases hfound

theorem afterSavedCopy_answers {c : Client} {call : Call} {response : Response}
    (hcache : call.shouldUseCache = true) (hstale : call.stale = some response) :
    (c.afterSavedCopy call).answers =
      { requestKey := call.requestKey, response := response } :: c.answers := by
  rw [Client.afterSavedCopy, if_pos hcache, hstale]
  cases c.inflight.get? call.requestKey with
  | some shared => rfl
  | none =>
      have hsend : (c.send call).answers =
          { requestKey := call.requestKey, response := response } :: c.answers := by
        unfold Client.send
        extract_lets signed
        have hsigned : signed.shouldUseCache = true := hcache
        rw [if_pos hsigned]
        have hsignedStale : signed.stale = some response := hstale
        rw [hsignedStale]
      simpa using hsend

theorem apiFetch_stale {c : Client} {url : String} {options : ReadOptions} {response : Response}
    (hfound : c.found url options = .inr (some response)) (id : Nat) :
    (c.apiFetch id url options).answers =
      { requestKey := cacheKeyFor c.workspaceSession url, response := response } :: c.answers := by
  rw [Client.found] at hfound
  split at hfound
  · rename_i hcache
    unfold Client.apiFetch
    extract_lets call
    have hcall : call.shouldUseCache = true := hcache
    rw [if_pos hcall]
    cases hlook : c.caches.lookup call.requestKey c.now call.cacheTtlMs
        options.staleWhileRevalidateMs with
    | mk caches found =>
        obtain rfl : found = .inr (some response) := by
          have hsnd := congrArg Prod.snd hlook
          exact hsnd.symm.trans hfound
        exact afterSavedCopy_answers hcall rfl
  · cases hfound

theorem fresh_means_fresh {s : Reads} (h : ReachableWhen readSystem Timely s) : s.Fresh := by
  have hheld := held_reachable h
  refine ⟨fun id url options response hfound => ?_, fun id url options response hfound => ?_⟩
  · obtain ⟨caches, call, hkey, happly⟩ := apiFetch_fresh hfound id
    rw [Client.found] at hfound
    split at hfound
    · obtain ⟨untilMs, hlive, hfetched⟩ := (hheld.lookup _ _ _ _).2.1 response hfound
      rw [happly, Client.answer, hkey]
      exact ⟨rfl, rfl, hfetched.earlier hlive.le⟩
    · cases hfound
  · have hanswers := apiFetch_stale hfound id
    rw [Client.found] at hfound
    split at hfound
    · obtain ⟨untilMs, hwithin, hfetched⟩ := (hheld.lookup _ _ _ _).2.2 response hfound
      refine ⟨hanswers, hfetched.earlier ?_⟩
      omega
    · cases hfound

/-! A schedule is read, and read again after a reload. -/

def readSchedule (id : Nat) : ReadAction :=
  .api (.apiFetch id "/api/schedule" {})

def schedule : Response where
  body := "10 matches"

def landSchedule : ReadAction :=
  .api (.land {
    requestKey := cacheKey 0 "/api/schedule"
    response := schedule
    freshTtlMs := 8000 } false)

theorem newReads_start : readSystem.start {} :=
  ⟨rfl, rfl⟩

def rereadRun : List ReadAction :=
  [.setClock 1000, readSchedule 0, .api (.respond 0 200 "10 matches"), landSchedule,
    .setClock 5000]

theorem fresh_means_fresh_reread : ∃ s, readSystem.run {} rereadRun = some s ∧
    s.client.found "/api/schedule" {} = .inl schedule ∧ s.Fresh :=
  ⟨_, rfl, rfl, fresh_means_fresh (reachableWhen_of_run rereadRun (.start newReads_start)
    (by decide +kernel) rfl)⟩

/-- The copy on the disk, read a moment before it expires, is fresh in memory once more. -/
def reloadedRun : List ReadAction :=
  [.setClock 1000, readSchedule 0, .api (.respond 0 200 "10 matches"), landSchedule, .api .reload,
    .setClock 8999, readSchedule 1, .setClock 16998]

theorem fresh_twice_over : ∃ s, Reachable readSystem s ∧
    s.client.found "/api/schedule" {} = .inl schedule ∧
    ¬ s.Fetched (cacheKey 0 "/api/schedule") schedule s.client.now ∧ ¬ s.Fresh := by
  have hrun : ∃ s, readSystem.run {} reloadedRun = some s ∧
      s.client.found "/api/schedule" {} = .inl schedule ∧ s.client.now = 16998 ∧
      s.client.workspaceSession = none ∧
      s.receipts.all (fun receipt => receipt.atMs + receipt.ttlMs ≤ 9000) = true :=
    ⟨_, rfl, rfl, rfl, rfl, by decide +kernel⟩
  obtain ⟨s, hs, hfound, hnow, hsession, hreceipts⟩ := hrun
  have hold : ¬ s.Fetched (cacheKey 0 "/api/schedule") schedule s.client.now := by
    rintro ⟨receipt, hmem, -, -, hwithin⟩
    have := of_decide_eq_true (List.all_eq_true.mp hreceipts receipt hmem)
    omega
  refine ⟨s, reachable_of_run reloadedRun newReads_start hs, hfound, hold, fun hfresh => hold ?_⟩
  have hanswer := (hfresh.fresh 2 "/api/schedule" {} schedule hfound).2.2
  rwa [hsession] at hanswer

end Frcmob.Api
