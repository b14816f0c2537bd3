import Frcmob.Lib.Transition
import Frcmob.Api.Caches

/-!
`apiFetch` for a GET, cut at its awaits. The cache key is computed when the call starts;
the headers, with the workspace token, are made after the saved copies have been waited
for. The request, a stale answer's background refresh and the writes of saved copies go
on after the call has returned.
-/

namespace Frcmob.Api
open Transition

/-- `bypassCache` is the option or an open window of fresh reads, `audited` whether an
offline download counts the URL. -/
structure ReadOptions where
  bypassCache : Bool := false
  cacheTtlMs : Nat := 8000
  staleWhileRevalidateMs : Nat := 45000
  showSavedMaxAgeMs : Nat := 0
  liveOnly : Bool := false
  audited : Bool := false
deriving DecidableEq

/-- What a call waits for: a saved copy (with the one found at once), another call's request,
the last copy while offline before or after the headers are made, or its own request,
whose caller may already have a stale answer. -/
inductive Stage
  | savedCopy (quick : Option Response)
  | joined (other : Nat)
  | offlineFirst
  | offlineLive
  | running
  | background
  | done
deriving DecidableEq

/-- `session` is the one whose token the headers carry, `early` whether the request is the one
index.html started, and `result` what the request came to. -/
structure Call where
  id : Nat
  url : String
  options : ReadOptions
  requestKey : String
  stage : Stage := .done
  stale : Option Response := none
  session : Option WorkspaceSession := none
  early : Bool := false
  settled : Bool := false
  result : Option Response := none
  answered : Bool := false
deriving DecidableEq

/-- A saved copy on its way to the disk. -/
structure Write where
  requestKey : String
  response : Response
  freshTtlMs : Nat
deriving DecidableEq

/-- What a caller got for a key. -/
structure Answer where
  requestKey : String
  response : Response
deriving DecidableEq

/-- `early` are the requests of index.html that no call has taken. -/
structure Client where
  now : Nat := 0
  online : Bool := true
  session : Option WorkspaceSession := none
  caches : Caches := {}
  calls : Table Call.id := .empty
  inflight : Table (α := String × Nat) Prod.fst := .empty
  early : List String := []
  writes : List Write := []
  answers : List Answer := []

/-- `getWorkspaceSession`; an expired session is none. -/
def Client.workspaceSession (c : Client) : Option WorkspaceSession :=
  c.session.filter fun session => c.now < session.expiresAt * 1000

def shouldBypassCache (url : String) (options : ReadOptions) : Bool :=
  options.bypassCache || includes url "refresh=true" || includes url "onlyModifiedSince="

def Call.cacheTtlMs (call : Call) : Nat :=
  if shouldBypassCache call.url call.options then 0 else call.options.cacheTtlMs

def Call.shouldUseCache (call : Call) : Bool :=
  0 < call.cacheTtlMs && !call.options.audited

/-- A live read that never answers with a saved copy. -/
def Call.direct (call : Call) : Bool :=
  !call.shouldUseCache && call.options.liveOnly

def Client.setCall (c : Client) (call : Call) : Client :=
  { c with calls := c.calls.put call }

def Client.answer (c : Client) (call : Call) (response : Response) : Client :=
  { c.setCall { call with answered := true } with
    answers := { requestKey := call.requestKey, response := response } :: c.answers }

/-- `run` starts; only a request whose caller waits takes the early one. -/
def Client.run (c : Client) (call : Call) : Client :=
  let takes := call.stage = .running && c.early.contains call.url
  { c.setCall { call with early := takes } with
    early := if takes then c.early.erase call.url else c.early }

def Client.share (c : Client) (call : Call) : Client :=
  { c with inflight := c.inflight.put (call.requestKey, call.id) }

/-- From the headers on. -/
def Client.send (c : Client) (call : Call) : Client :=
  let call := { call with session := c.workspaceSession }
  if call.shouldUseCache then
    match call.stale with
    | none =>
        let sent := { call with stage := .running }
        (c.run sent).share sent
    | some stale =>
        let sent := { call with stage := .background, answered := true }
        { (c.run sent).share sent with
          answers := { requestKey := call.requestKey, response := stale } :: c.answers }
  else if call.options.liveOnly || c.online then c.run { call with stage := .running }
  else c.setCall { call with stage := .offlineLive }

/-- From the look at the requests under way on. -/
def Client.afterSavedCopy (c : Client) (call : Call) : Client :=
  if call.shouldUseCache then
    match c.inflight.get? call.requestKey, call.stale with
    | some _, some stale => c.answer { call with stage := .done } stale
    | some (_, other), none => c.setCall { call with stage := .joined other }
    | none, stale =>
        if stale = none && !c.online then c.setCall { call with stage := .offlineFirst }
        else c.send call
  else c.send call

def Client.apiFetch (c : Client) (id : Nat) (url : String) (options : ReadOptions) : Client :=
  let call : Call := {
    id := id
    url := url
    options := options
    requestKey := cacheKeyFor c.workspaceSession url }
  if call.shouldUseCache then
    let (caches, found) := c.caches.lookup call.requestKey c.now call.cacheTtlMs
      options.staleWhileRevalidateMs
    let c := { c with caches := caches }
    match found with
    | .inl response => c.answer call response
    | .inr (some stale) => c.afterSavedCopy { call with stale := some stale }
    | .inr none =>
        if 0 < options.showSavedMaxAgeMs then
          let quick := c.caches.quickCopyWithin call.requestKey c.now options.showSavedMaxAgeMs
          c.setCall { call with stage := .savedCopy quick }
        else c.afterSavedCopy call
  else c.send call

/-- What the call waits for is there. -/
def Client.resume (c : Client) (call : Call) : Option Client :=
  match call.stage with
  | .savedCopy quick =>
      let stored := c.caches.storedCopyWithin call.requestKey c.now call.options.showSavedMaxAgeMs
      some (c.afterSavedCopy { call with stage := .done, stale := quick <|> stored })
  | .joined other =>
      ((c.calls.get? other).bind (·.result)).map (c.answer { call with stage := .done })
  | .offlineFirst =>
      match c.caches.offlineStaleFallback call.requestKey c.now with
      | some response => some (c.answer { call with stage := .done } response)
      | none => some (c.send call)
  | .offlineLive =>
      match c.caches.offlineStaleFallback call.requestKey c.now with
      | some response => some (c.answer { call with stage := .done } response)
      | none => some (c.run { call with stage := .running })
  | .running | .background | .done => none

/-- What `run` saves of a response. -/
def Client.keep (c : Client) (call : Call) (response : Response) : Client :=
  let write := fun (freshTtlMs : Nat) =>
    { requestKey := call.requestKey, response := response, freshTtlMs := freshTtlMs : Write }
  if !response.ok then c
  else if call.options.audited then
    { c with writes := write (max 1 call.cacheTtlMs) :: c.writes }
  else if call.shouldUseCache then
    { c with
      caches := c.caches.cacheResponse c.now {
        requestKey := call.requestKey
        storedAtMs := c.now
        expiresAtMs := c.now + call.cacheTtlMs
        response := response }
      writes := write call.cacheTtlMs :: c.writes }
  else if !includes call.url "refresh=true" && !call.options.liveOnly then
    { c with
      caches := { c.caches with memory := c.caches.memory.erase call.requestKey }
      writes := write 1 :: c.writes }
  else c

/-- A 401 on the session's own token ends the session. -/
def Client.revoke (c : Client) (call : Call) (response : Response) : Client :=
  if response.status = 401 && call.session.isSome &&
      call.session.map (·.token) = c.workspaceSession.map (·.token) then
    { c with session := none }
  else c

/-- The request is no longer under way. -/
def Client.unshare (c : Client) (call : Call) : Client :=
  if call.shouldUseCache then { c with inflight := c.inflight.erase call.requestKey } else c

/-- The response is in; a waiting caller gets it unless the server has trouble and a saved
copy may do. -/
def Client.settle (c : Client) (call : Call) (response : Response) : Client :=
  let settled := { call with settled := true, result := some response }
  let c := ((c.revoke call response).keep call response).unshare call
  if call.stage = .running && !call.answered && (call.direct || !serverTrouble response) then
    c.answer settled response
  else c.setCall settled

/-- The request failed; a background refresh comes to the stale answer. -/
def Client.fail (c : Client) (call : Call) : Client :=
  let result := if call.stage = .background then call.stale else none
  (c.unshare call).setCall { call with settled := true, result := result }

/-- The last copy answers a request that is slow or has failed, or a server in trouble. -/
def Client.fallback (c : Client) (call : Call) : Option Client :=
  match c.caches.offlineStaleFallback call.requestKey c.now with
  | some response => some (c.answer call response)
  | none => call.result.map (c.answer call)

/-- `seedGetCache` -/
def Client.seedGetCache (c : Client) (url : String) (response : Response) (ttlMs : Nat) : Client :=
  let requestKey := cacheKeyFor c.workspaceSession url
  { c with
    caches := c.caches.cacheResponse c.now {
      requestKey := requestKey
      storedAtMs := c.now
      expiresAtMs := c.now + ttlMs
      response := response }
    writes := { requestKey := requestKey, response := response, freshTtlMs := ttlMs } :: c.writes }

inductive ApiAction
  | tick (ms : Nat)
  | setOnline (online : Bool)
  | setWorkspaceSession (session : WorkspaceSession)
  | clearWorkspaceSession
  | earlyFetch (url : String)
  | apiFetch (id : Nat) (url : String) (options : ReadOptions)
  | resume (id : Nat)
  | respond (id status : Nat) (body : String)
  | respondEarly (id : Nat) (body : String)
  | fail (id : Nat)
  | fallback (id : Nat)
  | land (write : Write) (toStore : Bool)
  | forget (requestKey : String)
  | forgetStored (requestKey : String)
  | seed (source : Answer) (url body : String) (ttlMs : Nat)
  | reload
deriving DecidableEq

/-- A request of this call is under way. -/
def Call.waits (call : Call) : Bool :=
  (call.stage = .running || call.stage = .background) && !call.settled

/-- The early fetch of index.html sends no token, and one that is not ok is not used. A
combined response seeds the caches with its parts. -/
def apiStep (c : Client) : ApiAction → Option Client
  | .tick ms => some { c with now := c.now + ms }
  | .setOnline online => some { c with online := online }
  | .setWorkspaceSession session => some { c with session := some session }
  | .clearWorkspaceSession => some { c with session := none }
  | .earlyFetch url => some { c with early := url :: c.early }
  | .apiFetch id url options =>
      if (c.calls.get? id).isSome then none else some (c.apiFetch id url options)
  | .resume id => (c.calls.get? id).bind c.resume
  | .respond id status body =>
      ((c.calls.get? id).filter (·.waits)).map fun call =>
        c.settle call { status := status, body := body, fetchedWith := call.session }
  | .respondEarly id body =>
      ((c.calls.get? id).filter fun call => call.waits && call.early).map fun call =>
        c.settle call { body := body }
  | .fail id => ((c.calls.get? id).filter (·.waits)).map c.fail
  | .fallback id =>
      ((c.calls.get? id).filter fun call =>
        call.stage = .running && !call.answered && !call.direct).bind c.fallback
  | .land write toStore =>
      if write ∈ c.writes then
        some { c with
          caches := c.caches.writePersistentGetCache write.requestKey write.response
            write.freshTtlMs c.now toStore
          writes := c.writes.erase write }
      else none
  | .forget requestKey =>
      some { c with caches := { c.caches with saved := c.caches.saved.erase requestKey } }
  | .forgetStored requestKey =>
      some { c with caches := { c.caches with stored := c.caches.stored.erase requestKey } }
  | .seed source url body ttlMs =>
      if source ∈ c.answers ∧ source.response.ok then
        some (c.seedGetCache url { body := body, fetchedWith := source.response.fetchedWith } ttlMs)
      else none
  | .reload =>
      some { c with
        caches := { c.caches with memory := .empty }
        calls := .empty
        inflight := .empty
        early := []
        writes := [] }

/-- From a device with no saved answers. -/
def apiSystem : System Client ApiAction where
  start c := c = { now := c.now, online := c.online, session := c.session }
  step := apiStep

end Frcmob.Api
