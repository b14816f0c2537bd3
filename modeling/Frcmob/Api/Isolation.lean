import Frcmob.Api.Fetch

/-!
Saved answers by workspace. The key of a call and the token it sends are of one workspace
unless the session changes while the call waits for a saved copy; what a combined
response seeds is of the workspace whose key it goes under unless the session changed
since it was asked for.
-/

namespace Frcmob.Api
open Transition

/-- Fetched with a token of the workspace whose key this is. -/
def Belongs (requestKey : String) (response : Response) : Prop :=
  ∀ workspaceId url, requestKey = cacheKey workspaceId url →
    workspaceOf response.fetchedWith = workspaceId

/-- What is saved under a workspace's key, or served from it, was fetched with its token. -/
structure Isolated (c : Client) : Prop where
  caches : c.caches.All Belongs
  answers : ∀ answer ∈ c.answers, Belongs answer.requestKey answer.response

/-- After the saved copies the call neither joins a request under way nor waits offline. -/
def Client.goesOn (c : Client) (call : Call) : Bool :=
  !call.shouldUseCache ||
    ((c.inflight.get? call.requestKey).isNone && (call.stale.isSome || c.online))

/-- The call's headers are made when its wait is over. -/
def Client.makesHeaders (c : Client) (call : Call) : Bool :=
  match call.stage with
  | .savedCopy quick =>
      let stored := c.caches.storedCopyWithin call.requestKey c.now call.options.showSavedMaxAgeMs
      c.goesOn { call with stale := quick <|> stored }
  | .offlineFirst => (c.caches.offlineStaleFallback call.requestKey c.now).isNone
  | .joined _ | .offlineLive | .running | .background | .done => false

/-- The session has not moved to another workspace while a call waited for a saved copy or a
combined response was read, and the early request, which has no token, answers only
calls made signed out. -/
def ApiSafe (c : Client) : ApiAction → Prop
  | .resume id => ∀ call ∈ c.calls.get? id, c.makesHeaders call →
      call.requestKey = cacheKeyFor c.workspaceSession call.url
  | .respondEarly id _ => ∀ call ∈ c.calls.get? id, call.requestKey = cacheKeyFor none call.url
  | .seed source _ _ _ =>
      workspaceOf c.workspaceSession = workspaceOf source.response.fetchedWith
  | _ => True

instance (c : Client) (a : ApiAction) : Decidable (ApiSafe c a) := by
  cases a <;> unfold ApiSafe <;> infer_instance

/-- The headers are made. -/
def Stage.sent : Stage → Bool
  | .offlineLive | .running | .background => true
  | .savedCopy _ | .joined _ | .offlineFirst | .done => false

/-- A session's responses are right for this key. -/
def Right (requestKey : String) (session : Option WorkspaceSession) : Prop :=
  ∀ workspaceId url, requestKey = cacheKey workspaceId url → workspaceOf session = workspaceId

structure CallRight (call : Call) : Prop where
  stale : ∀ response, call.stale = some response → Belongs call.requestKey response
  quick : ∀ response, call.stage = .savedCopy (some response) → Belongs call.requestKey response
  result : ∀ response, call.result = some response → Belongs call.requestKey response
  session : call.stage.sent → Right call.requestKey call.session

/-- The call `id` is one for this key. -/
def HasKey (calls : Table Call.id) (id : Nat) (requestKey : String) : Prop :=
  ∃ call ∈ calls, call.id = id ∧ call.requestKey = requestKey

structure ClientInv (c : Client) : Prop where
  caches : c.caches.All Belongs
  calls : ∀ call ∈ c.calls, CallRight call
  joined : ∀ call ∈ c.calls, ∀ other, call.stage = .joined other →
    HasKey c.calls other call.requestKey
  inflight : ∀ p ∈ c.inflight, HasKey c.calls p.2 p.1
  writes : ∀ write ∈ c.writes, Belongs write.requestKey write.response
  answers : ∀ answer ∈ c.answers, Belongs answer.requestKey answer.response

theorem right_cacheKeyFor (session : Option WorkspaceSession) (url : String) :
    Right (cacheKeyFor session url) session :=
  fun _ _ heq => cacheKey_workspace heq

theorem HasKey.put {calls : Table Call.id} {id : Nat} {requestKey : String}
    (h : HasKey calls id requestKey) {call : Call}
    (hsame : ∀ old ∈ calls, old.id = call.id → old.requestKey = call.requestKey) :
    HasKey (calls.put call) id requestKey := by
  obtain ⟨old, hold, hid, hkey⟩ := h
  by_cases hput : old.id = call.id
  · exact ⟨call, Table.mem_put_self _ _, hput ▸ hid, (hsame old hold hput).symm.trans hkey⟩
  · exact ⟨old, Table.mem_put_of_ne hold hput, hid, hkey⟩

/-! ### One call -/

theorem ClientInv.setCall {c : Client} (h : ClientInv c) {call : Call} (hcall : CallRight call)
    (hsame : ∀ old ∈ c.calls, old.id = call.id → old.requestKey = call.requestKey)
    (hjoined : ∀ other, call.stage = .joined other → HasKey c.calls other call.requestKey) :
    ClientInv (c.setCall call) := by
  refine ⟨h.caches, fun other hother => ?_, fun other hother id hstage => ?_,
    fun p hp => (h.inflight p hp).put hsame, h.writes, h.answers⟩
  · cases Table.mem_put.mp hother with
    | inl heq => exact heq ▸ hcall
    | inr hold => exact h.calls other hold.1
  · cases Table.mem_put.mp hother with
    | inl heq => exact heq ▸ (hjoined id (heq ▸ hstage)).put hsame
    | inr hold => exact (h.joined other hold.1 id hstage).put hsame

/-- Another answer that is right for its key. -/
theorem ClientInv.push {c : Client} (h : ClientInv c) {requestKey : String} {response : Response}
    (hresponse : Belongs requestKey response) :
    ClientInv { c with
      answers := { requestKey := requestKey, response := response } :: c.answers } := by
  refine ⟨h.caches, h.calls, h.joined, h.inflight, h.writes, fun answer hanswer => ?_⟩
  cases List.mem_cons.mp hanswer with
  | inl heq => exact heq ▸ hresponse
  | inr hold => exact h.answers answer hold

theorem ClientInv.answer {c : Client} (h : ClientInv c) {call : Call} (hcall : CallRight call)
    (hsame : ∀ old ∈ c.calls, old.id = call.id → old.requestKey = call.requestKey)
    (hstage : ∀ other, call.stage ≠ .joined other) {response : Response}
    (hresponse : Belongs call.requestKey response) : ClientInv (c.answer call response) := by
  have hanswered : CallRight { call with answered := true } :=
    ⟨hcall.stale, hcall.quick, hcall.result, hcall.session⟩
  exact (h.setCall hanswered hsame fun other hother => absurd hother (hstage other)).push hresponse

theorem ClientInv.run {c : Client} (h : ClientInv c) {call : Call} (hcall : CallRight call)
    (hsame : ∀ old ∈ c.calls, old.id = call.id → old.requestKey = call.requestKey)
    (hstage : ∀ other, call.stage ≠ .joined other) : ClientInv (c.run call) := by
  have htaking : ∀ early : Bool, CallRight { call with early := early } :=
    fun _ => ⟨hcall.stale, hcall.quick, hcall.result, hcall.session⟩
  have hset := h.setCall (htaking (call.stage = .running && c.early.contains call.url)) hsame
    fun other hother => absurd hother (hstage other)
  exact ⟨hset.caches, hset.calls, hset.joined, hset.inflight, hset.writes, hset.answers⟩

theorem ClientInv.share {c : Client} (h : ClientInv c) {call : Call}
    (hkey : HasKey c.calls call.id call.requestKey) : ClientInv (c.share call) := by
  refine ⟨h.caches, h.calls, h.joined, fun p hp => ?_, h.writes, h.answers⟩
  cases Table.mem_put.mp hp with
  | inl heq => exact heq ▸ hkey
  | inr hold => exact h.inflight p hold.1

theorem hasKey_run (c : Client) (call : Call) : HasKey (c.run call).calls call.id call.requestKey :=
  ⟨_, Table.mem_put_self c.calls _, rfl, rfl⟩

/-- From the headers on, the token is of the key's workspace. -/
theorem ClientInv.send {c : Client} (h : ClientInv c) {call : Call} (hcall : CallRight call)
    (hsame : ∀ old ∈ c.calls, old.id = call.id → old.requestKey = call.requestKey)
    (hkey : call.requestKey = cacheKeyFor c.workspaceSession call.url) :
    ClientInv (c.send call) := by
  have hright : Right call.requestKey c.workspaceSession := hkey ▸ right_cacheKeyFor _ _
  rw [Client.send]
  extract_lets signed
  have hsent : ∀ (stage : Stage) (answered : Bool), (∀ quick, stage ≠ .savedCopy quick) →
      CallRight { signed with stage := stage, answered := answered } :=
    fun stage answered hquick =>
      ⟨hcall.stale, fun response heq => absurd heq (hquick _), hcall.result, fun _ => hright⟩
  split
  · split
    · exact (h.run (hsent .running _ nofun) hsame nofun).share (hasKey_run c _)
    · rename_i stale hstale
      have hbackground := h.run (hsent .background true nofun) hsame nofun
      exact (hbackground.share (hasKey_run c _)).push (hcall.stale stale hstale)
  · split
    · exact h.run (hsent .running _ nofun) hsame nofun
    · exact h.setCall (hsent .offlineLive _ nofun) hsame nofun

/-- Up to the headers nothing reads the session. -/
theorem ClientInv.afterSavedCopy {c : Client} (h : ClientInv c) {call : Call}
    (hcall : CallRight call)
    (hsame : ∀ old ∈ c.calls, old.id = call.id → old.requestKey = call.requestKey)
    (hkey : c.goesOn call → call.requestKey = cacheKeyFor c.workspaceSession call.url) :
    ClientInv (c.afterSavedCopy call) := by
  have hwaits : ∀ stage : Stage, stage.sent = false → (∀ quick, stage ≠ .savedCopy quick) →
      CallRight { call with stage := stage } := by
    intro stage hsent hquick
    refine ⟨hcall.stale, fun response heq => absurd heq (hquick _), hcall.result, fun hs => ?_⟩
    rw [show stage.sent = true from hs] at hsent
    cases hsent
  rw [Client.afterSavedCopy]
  split
  · split
    · rename_i stale _ hstale
      exact h.answer (hwaits .done rfl nofun) hsame nofun (hcall.stale stale hstale)
    · rename_i key other hshared hstale
      obtain ⟨hin, hentry⟩ := Table.get?_eq_some.mp hshared
      refine h.setCall (hwaits (.joined other) rfl nofun) hsame fun id heq => ?_
      obtain rfl : other = id := Stage.joined.inj heq
      exact hentry ▸ h.inflight _ hin
    · rename_i hshared
      split
      · exact h.setCall (hwaits .offlineFirst rfl nofun) hsame nofun
      · rename_i honline
        refine h.send hcall hsame (hkey ?_)
        cases hstale : call.stale <;> simp_all [Client.goesOn]
  · rename_i hcache
    exact h.send hcall hsame (hkey (by simp [Client.goesOn, hcache]))

theorem ClientInv.withCaches {c : Client} (h : ClientInv c) {caches : Caches}
    (hcaches : caches.All Belongs) : ClientInv { c with caches := caches } :=
  ⟨hcaches, h.calls, h.joined, h.inflight, h.writes, h.answers⟩

/-- A call that has only started. -/
theorem callRight_new {call : Call} (hstage : call.stage = .done) (hresult : call.result = none)
    (hstale : ∀ response, call.stale = some response → Belongs call.requestKey response) :
    CallRight call := by
  refine ⟨hstale, ?_, ?_, ?_⟩ <;> simp [hstage, hresult, Stage.sent]

theorem ClientInv.apiFetch {c : Client} (h : ClientInv c) {id : Nat} {url : String}
    {options : ReadOptions} (hnew : c.calls.get? id = none) :
    ClientInv (c.apiFetch id url options) := by
  have hfresh : ∀ old ∈ c.calls, old.id ≠ id := Table.get?_eq_none.mp hnew
  have hsame : ∀ {key : String}, ∀ old ∈ c.calls, old.id = id → old.requestKey = key :=
    fun old hold hid => absurd hid (hfresh old hold)
  unfold Client.apiFetch
  extract_lets call
  have hcall : CallRight call := callRight_new rfl rfl nofun
  split
  · have hlookup := h.caches.lookup call.requestKey c.now call.cacheTtlMs
      options.staleWhileRevalidateMs
    cases hfound : c.caches.lookup call.requestKey c.now call.cacheTtlMs
        options.staleWhileRevalidateMs with
    | mk caches found =>
        rw [hfound] at hlookup
        obtain ⟨hcaches, hhit, hcandidate⟩ := hlookup
        have hc := h.withCaches hcaches
        cases found with
        | inl response => exact hc.answer hcall hsame nofun (hhit response rfl)
        | inr candidate =>
            cases candidate with
            | some stale =>
                refine hc.afterSavedCopy (callRight_new rfl rfl fun response heq => ?_) hsame
                  fun _ => rfl
                exact hcandidate response (congrArg Sum.inr heq)
            | none =>
                dsimp only
                split
                · refine hc.setCall ⟨nofun, fun response heq => ?_, nofun, nofun⟩ hsame nofun
                  exact hcaches.quickCopy (Stage.savedCopy.inj heq)
                · exact hc.afterSavedCopy hcall hsame fun _ => rfl
  · exact h.send hcall hsame rfl

theorem same_call {c : Client} {call : Call} (hmem : call ∈ c.calls) :
    ∀ old ∈ c.calls, old.id = call.id → old.requestKey = call.requestKey :=
  fun _ hold hid => congrArg Call.requestKey (Table.eq_of_key hold hmem hid)

/-- The wait is over for a call that has its headers only where its key is the session's. -/
theorem ClientInv.resume {c t : Client} (h : ClientInv c) {call : Call} (hmem : call ∈ c.calls)
    (hkey : c.makesHeaders call → call.requestKey = cacheKeyFor c.workspaceSession call.url)
    (hresume : c.resume call = some t) : ClientInv t := by
  have hcall := h.calls call hmem
  have hsame := same_call hmem
  have hdone : CallRight { call with stage := .done } := ⟨hcall.stale, nofun, hcall.result, nofun⟩
  rw [Client.resume] at hresume
  split at hresume
  · rename_i quick hstage
    simp only [Client.makesHeaders, hstage] at hkey
    obtain rfl := Option.some_inj.mp hresume
    refine h.afterSavedCopy ⟨fun response heq => ?_, nofun, hcall.result, nofun⟩ hsame hkey
    cases quick with
    | none => exact h.caches.storedCopy heq
    | some copy => exact hcall.quick response (hstage.trans (congrArg Stage.savedCopy heq))
  · rename_i other hstage
    obtain ⟨response, hresponse, rfl⟩ := Option.map_eq_some_iff.mp hresume
    obtain ⟨shared, hshared, hresult⟩ := Option.bind_eq_some_iff.mp hresponse
    obtain ⟨found, hfound, hid, hfoundKey⟩ := h.joined call hmem other hstage
    obtain ⟨hsharedMem, hsharedId⟩ := Table.get?_eq_some.mp hshared
    obtain rfl : shared = found := Table.eq_of_key hsharedMem hfound (hsharedId.trans hid.symm)
    exact h.answer hdone hsame nofun (hfoundKey ▸ (h.calls shared hfound).result response hresult)
  · rename_i hstage
    simp only [Client.makesHeaders, hstage] at hkey
    split at hresume
    · rename_i response hcopy
      obtain rfl := Option.some_inj.mp hresume
      exact h.answer hdone hsame nofun (h.caches.offlineStale hcopy)
    · rename_i hcopy
      obtain rfl := Option.some_inj.mp hresume
      exact h.send hcall hsame (hkey (by rw [hcopy]; rfl))
  · rename_i hstage
    split at hresume
    · rename_i response hcopy
      obtain rfl := Option.some_inj.mp hresume
      exact h.answer hdone hsame nofun (h.caches.offlineStale hcopy)
    · obtain rfl := Option.some_inj.mp hresume
      have hsession : Right call.requestKey call.session := hcall.session (by rw [hstage]; rfl)
      exact h.run ⟨hcall.stale, nofun, hcall.result, fun _ => hsession⟩ hsame nofun
  all_goals cases hresume

/-- Another copy on its way to the disk that is right for its key. -/
theorem ClientInv.save {c : Client} (h : ClientInv c) (write : Write)
    (hwrite : Belongs write.requestKey write.response) :
    ClientInv { c with writes := write :: c.writes } := by
  refine ⟨h.caches, h.calls, h.joined, h.inflight, fun other hother => ?_, h.answers⟩
  cases List.mem_cons.mp hother with
  | inl heq => exact heq ▸ hwrite
  | inr hold => exact h.writes other hold

theorem ClientInv.keep {c : Client} (h : ClientInv c) {call : Call} {response : Response}
    (hresponse : Belongs call.requestKey response) : ClientInv (c.keep call response) := by
  unfold Client.keep
  extract_lets write
  split
  · exact h
  · split
    · exact h.save _ hresponse
    · split
      · exact (h.save (write call.cacheTtlMs) hresponse).withCaches
          (h.caches.cacheResponse hresponse)
      · split
        · refine (h.save (write 1) hresponse).withCaches
            ⟨fun entry hentry => ?_, h.caches.saved, h.caches.stored⟩
          exact h.caches.memory entry (Table.mem_erase.mp hentry).1
        · exact h

theorem keep_calls (c : Client) (call : Call) (response : Response) :
    (c.keep call response).calls = c.calls := by
  rw [Client.keep]
  split_ifs <;> rfl

theorem ClientInv.revoke {c : Client} (h : ClientInv c) (call : Call) (response : Response) :
    ClientInv (c.revoke call response) := by
  rw [Client.revoke]
  split
  · exact ⟨h.caches, h.calls, h.joined, h.inflight, h.writes, h.answers⟩
  · exact h

theorem revoke_calls (c : Client) (call : Call) (response : Response) :
    (c.revoke call response).calls = c.calls := by
  rw [Client.revoke]
  split_ifs <;> rfl

theorem ClientInv.unshare {c : Client} (h : ClientInv c) (call : Call) :
    ClientInv (c.unshare call) := by
  rw [Client.unshare]
  split
  · refine ⟨h.caches, h.calls, h.joined, fun p hp => ?_, h.writes, h.answers⟩
    exact h.inflight p (Table.mem_erase.mp hp).1
  · exact h

theorem unshare_calls (c : Client) (call : Call) : (c.unshare call).calls = c.calls := by
  rw [Client.unshare]
  split_ifs <;> rfl

theorem ClientInv.settle {c : Client} (h : ClientInv c) {call : Call} (hmem : call ∈ c.calls)
    {response : Response} (hresponse : Belongs call.requestKey response) :
    ClientInv (c.settle call response) := by
  have hcall := h.calls call hmem
  have hkept := ((h.revoke call response).keep hresponse).unshare call
  have hcalls : (((c.revoke call response).keep call response).unshare call).calls = c.calls := by
    rw [unshare_calls, keep_calls, revoke_calls]
  have hsettled : CallRight { call with settled := true, result := some response } :=
    ⟨hcall.stale, hcall.quick, fun other heq => Option.some_inj.mp heq ▸ hresponse, hcall.session⟩
  have hsame := same_call (hcalls ▸ hmem)
  unfold Client.settle
  extract_lets settled kept
  split
  · rename_i hanswers
    refine hkept.answer hsettled hsame (fun other hother => ?_) hresponse
    rw [show call.stage = .joined other from hother] at hanswers
    simp at hanswers
  · exact hkept.setCall hsettled hsame fun other hother =>
      hkept.joined call (hcalls ▸ hmem) other hother

theorem ClientInv.fail {c : Client} (h : ClientInv c) {call : Call} (hmem : call ∈ c.calls) :
    ClientInv (c.fail call) := by
  have hcall := h.calls call hmem
  have hmem' : call ∈ (c.unshare call).calls := by rw [unshare_calls]; exact hmem
  have hshared := h.unshare call
  refine hshared.setCall ⟨hcall.stale, hcall.quick, fun response heq => ?_, hcall.session⟩
    (fun old hold hid => same_call hmem' old hold hid)
    fun other hother => hshared.joined call hmem' other hother
  by_cases hbackground : call.stage = .background
  · exact hcall.stale response (by simpa [hbackground] using heq)
  · simp [hbackground] at heq

theorem ClientInv.fallback {c t : Client} (h : ClientInv c) {call : Call} (hmem : call ∈ c.calls)
    (hrunning : call.stage = .running) (hfallback : c.fallback call = some t) : ClientInv t := by
  have hcall := h.calls call hmem
  have hstage : ∀ other, call.stage ≠ .joined other := fun other => by simp [hrunning]
  rw [Client.fallback] at hfallback
  split at hfallback
  · rename_i response hcopy
    obtain rfl := Option.some_inj.mp hfallback
    exact h.answer hcall (same_call hmem) hstage (h.caches.offlineStale hcopy)
  · obtain ⟨response, hresult, rfl⟩ := Option.map_eq_some_iff.mp hfallback
    exact h.answer hcall (same_call hmem) hstage (hcall.result response hresult)

theorem ClientInv.seedGetCache {c : Client} (h : ClientInv c) (url : String) {response : Response}
    (ttlMs : Nat) (hworkspace : workspaceOf c.workspaceSession = workspaceOf response.fetchedWith) :
    ClientInv (c.seedGetCache url response ttlMs) := by
  have hresponse : Belongs (cacheKeyFor c.workspaceSession url) response := by
    rw [cacheKeyFor, hworkspace]
    exact right_cacheKeyFor response.fetchedWith url
  have hsaved := h.save {
    requestKey := cacheKeyFor c.workspaceSession url
    response := response
    freshTtlMs := ttlMs } hresponse
  exact hsaved.withCaches (h.caches.cacheResponse hresponse)

/-! ### Every run -/

theorem Call.sent_of_waits {call : Call} (h : call.waits) : call.stage.sent := by
  simp only [Call.waits, Bool.and_eq_true, Bool.or_eq_true, decide_eq_true_eq] at h
  cases h.1 with
  | inl hrunning => rw [hrunning]; rfl
  | inr hbackground => rw [hbackground]; rfl

/-- A call that the step finds. -/
theorem found_call {c : Client} {id : Nat} {p : Call → Bool} {call : Call}
    (h : (c.calls.get? id).filter p = some call) : call ∈ c.calls ∧ p call := by
  obtain ⟨hget, hp⟩ := Option.filter_eq_some_iff.mp h
  exact ⟨(Table.get?_eq_some.mp hget).1, hp⟩

theorem ClientInv.step {c t : Client} {a : ApiAction} (h : ClientInv c) (hok : ApiSafe c a)
    (hstep : apiStep c a = some t) : ClientInv t := by
  cases a with
  | tick ms | setOnline online | setWorkspaceSession session | clearWorkspaceSession
  | earlyFetch url =>
      obtain rfl := Option.some_inj.mp hstep
      exact ⟨h.caches, h.calls, h.joined, h.inflight, h.writes, h.answers⟩
  | apiFetch id url options =>
      simp only [apiStep, Option.ite_none_left_eq_some] at hstep
      obtain ⟨hnew, hstep⟩ := hstep
      obtain rfl := Option.some_inj.mp hstep
      exact h.apiFetch (by simpa using hnew)
  | resume id =>
      obtain ⟨call, hget, hresume⟩ := Option.bind_eq_some_iff.mp hstep
      exact h.resume (Table.get?_eq_some.mp hget).1 (hok call hget) hresume
  | respond id status body =>
      obtain ⟨call, hfilter, rfl⟩ := Option.map_eq_some_iff.mp hstep
      obtain ⟨hmem, hwaits⟩ := found_call hfilter
      exact h.settle hmem ((h.calls call hmem).session (Call.sent_of_waits hwaits))
  | respondEarly id body =>
      obtain ⟨call, hfilter, rfl⟩ := Option.map_eq_some_iff.mp hstep
      have hkey := hok call (Option.filter_eq_some_iff.mp hfilter).1
      exact h.settle (found_call hfilter).1 (hkey ▸ right_cacheKeyFor none call.url)
  | fail id =>
      obtain ⟨call, hfilter, rfl⟩ := Option.map_eq_some_iff.mp hstep
      exact h.fail (found_call hfilter).1
  | fallback id =>
      obtain ⟨call, hfilter, hfallback⟩ := Option.bind_eq_some_iff.mp hstep
      obtain ⟨hmem, hcall⟩ := found_call hfilter
      simp only [Bool.and_eq_true, decide_eq_true_eq] at hcall
      exact h.fallback hmem hcall.1.1 hfallback
  | land write toStore =>
      simp only [apiStep, Option.ite_none_right_eq_some] at hstep
      obtain ⟨hwrite, hstep⟩ := hstep
      obtain rfl := Option.some_inj.mp hstep
      have hlanded :=
        h.caches.writePersistent (h.writes write hwrite) write.freshTtlMs c.now toStore
      exact ⟨hlanded, h.calls, h.joined, h.inflight,
        fun other hother => h.writes other (List.mem_of_mem_erase hother), h.answers⟩
  | forget requestKey =>
      obtain rfl := Option.some_inj.mp hstep
      refine h.withCaches ⟨h.caches.memory, fun copy hcopy => ?_, h.caches.stored⟩
      exact h.caches.saved copy (Table.mem_erase.mp hcopy).1
  | forgetStored requestKey =>
      obtain rfl := Option.some_inj.mp hstep
      refine h.withCaches ⟨h.caches.memory, h.caches.saved, fun copy hcopy => ?_⟩
      exact h.caches.stored copy (Table.mem_erase.mp hcopy).1
  | seed source url body ttlMs =>
      simp only [apiStep, Option.ite_none_right_eq_some] at hstep
      obtain ⟨-, hstep⟩ := hstep
      obtain rfl := Option.some_inj.mp hstep
      exact h.seedGetCache url ttlMs hok
  | reload =>
      obtain rfl := Option.some_inj.mp hstep
      exact ⟨⟨fun _ => nofun, h.caches.saved, h.caches.stored⟩, fun _ => nofun, fun _ => nofun,
        fun _ => nofun, fun _ => nofun, h.answers⟩

theorem clientInv_start {c : Client} (h : apiSystem.start c) : ClientInv c := by
  have hstart : c = { now := c.now, online := c.online, session := c.session } := h
  rw [hstart]
  exact ⟨⟨fun _ => nofun, fun _ => nofun, fun _ => nofun⟩, fun _ => nofun, fun _ => nofun,
    fun _ => nofun, fun _ => nofun, fun _ => nofun⟩

/-- While no call makes its headers for another workspace than its key's, every saved or
served answer was fetched with the token of the workspace it is under. -/
theorem saved_answers_isolated {c : Client} (h : ReachableWhen apiSystem ApiSafe c) :
    Isolated c := by
  have hinv : ClientInv c := h.invariant (fun _ => clientInv_start) fun _ _ _ hc => hc.step
  exact ⟨hinv.caches, hinv.answers⟩

/-! Two teams on one device read their picklists. -/

theorem newClient_start : apiSystem.start {} :=
  rfl

def firstTeam : WorkspaceSession where
  token := "first"
  expiresAt := 100
  workspaceId := 1

def secondTeam : WorkspaceSession where
  token := "second"
  expiresAt := 100
  workspaceId := 2

def picklists (id : Nat) : ApiAction :=
  .apiFetch id "/api/picklists" { showSavedMaxAgeMs := 60000 }

/-- The user switches while the call waits for a saved copy. -/
def switchedRun : List ApiAction :=
  [.setWorkspaceSession firstTeam, picklists 0, .setWorkspaceSession secondTeam, .resume 0,
    .respond 0 200 "second team's"]

theorem switched_answer_saved : ∃ c, Reachable apiSystem c ∧ ¬ Isolated c := by
  refine ⟨_, reachable_of_run switchedRun newClient_start rfl, fun hisolated => ?_⟩
  have hbelongs := hisolated.caches.memory {
    requestKey := cacheKey 1 "/api/picklists"
    storedAtMs := 0
    expiresAtMs := 8000
    response := { body := "second team's", fetchedWith := some secondTeam } } (by decide +kernel)
  exact absurd (hbelongs 1 "/api/picklists" rfl) (by decide)

/-- The user switches after the answer. -/
def waitedRun : List ApiAction :=
  [.setWorkspaceSession firstTeam, picklists 0, .resume 0, .respond 0 200 "first team's",
    .setWorkspaceSession secondTeam, picklists 1, .resume 1, .respond 1 200 "second team's"]

theorem saved_answers_isolated_waited : ∃ c, apiSystem.run {} waitedRun = some c ∧ Isolated c :=
  ⟨_, rfl, saved_answers_isolated (reachableWhen_of_run waitedRun (.start newClient_start)
    (by decide +kernel) rfl)⟩

end Frcmob.Api
