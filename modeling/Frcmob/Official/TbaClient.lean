import Frcmob.Lib.Recency
import Frcmob.Lib.Transition
import Mathlib.Algebra.Order.Ring.Rat
import Mathlib.Logic.Function.Basic

/-!
The client of The Blue Alliance (`tba/client.py`) as the route handlers' threads run it: a cache
in memory with a lifetime for each answer, a shorter memory of what does not exist, and at most two
requests a call. A call is taken step by step, so the threads interleave between the steps; what
holds the lock is one step, with the time that passes between its readings of the clock. `none`
for a payload is JSON's `null`.
-/

namespace Frcmob.TbaClient

open Transition

/-! ### What can be asked -/

/-- The requests of the client; a year is the text that stands in the URL. -/
inductive Endpoint where
  | events (year : String)
  | event (eventKey : String)
  | eventMatches (eventKey : String)
  | eventTeams (eventKey : String)
  | eventAlliances (eventKey : String)
  | eventOprs (eventKey : String)
  | eventCoprs (eventKey : String)
  | eventRankings (eventKey : String)
  | eventTeamStatuses (eventKey : String)
  | eventPredictions (eventKey : String)
  | eventAwards (eventKey : String)
  | teamEvents (teamKey year : String)
  | teamEventStatus (teamKey eventKey : String)
  | teamAwardsYear (teamKey year : String)
  | teamMedia (teamKey year : String)
  | match_ (matchKey : String)
deriving DecidableEq

namespace Endpoint

/-- The parts of the path under `BASE`. -/
def path : Endpoint → List String
  | events year => ["events", year]
  | event eventKey => ["event", eventKey]
  | eventMatches eventKey => ["event", eventKey, "matches"]
  | eventTeams eventKey => ["event", eventKey, "teams"]
  | eventAlliances eventKey => ["event", eventKey, "alliances"]
  | eventOprs eventKey => ["event", eventKey, "oprs"]
  | eventCoprs eventKey => ["event", eventKey, "coprs"]
  | eventRankings eventKey => ["event", eventKey, "rankings"]
  | eventTeamStatuses eventKey => ["event", eventKey, "teams", "statuses"]
  | eventPredictions eventKey => ["event", eventKey, "predictions"]
  | eventAwards eventKey => ["event", eventKey, "awards"]
  | teamEvents teamKey year => ["team", teamKey, "events", year]
  | teamEventStatus teamKey eventKey => ["team", teamKey, "event", eventKey, "status"]
  | teamAwardsYear teamKey year => ["team", teamKey, "awards", year]
  | teamMedia teamKey year => ["team", teamKey, "media", year]
  | match_ matchKey => ["match", matchKey]

/-- `TBA_CACHE_TTL_SEC`, or `TBA_LIVE_CACHE_TTL_SEC` for what changes during an event -/
def ttlSec : Endpoint → ℚ
  | eventMatches _ | eventAlliances _ | eventRankings _ | eventTeamStatuses _
  | teamEventStatus _ _ | match_ _ => 15
  | _ => 300

def base : String := "https://www.thebluealliance.com/api/v3"

def url (e : Endpoint) : String :=
  e.path.foldl (fun url part => url ++ "/" ++ part) base

def cacheKey (e : Endpoint) : String :=
  "GET:" ++ e.url

end Endpoint

/-! ### One attempt -/

def maxRetries : Nat := 2
def missingTtlSec : ℚ := 120
def cacheMaxEntries : Nat := 2048

/-- How many answers are kept, by `settings.tba_cache_max_entries`. -/
def maxEntries (configured : Int) : Nat :=
  (max 128 (if configured = 0 then (cacheMaxEntries : Int) else configured)).toNat

variable {α : Type}

inductive Reply (α : Type) where
  | timeout
  /-- The connection fails, or any other `RequestException` of the request. -/
  | failed
  /-- A body that is not JSON is `none`. -/
  | response (status : Nat) (json : Option (Option α))

structure ClientError where
  message : String
  statusCode : Option Nat
deriving DecidableEq

/-- What an attempt comes to. -/
inductive Settled (α : Type) where
  | retry
  | raised (error : ClientError)
  | missing
  | payload (payload : Option α)

def timeoutError : ClientError := ⟨s!"TBA timeout after {maxRetries} attempts", none⟩
def failedError : ClientError := ⟨s!"TBA request failed after {maxRetries} attempts", none⟩
def statusError (e : Endpoint) (status : Nat) : ClientError :=
  ⟨s!"TBA returned {status} for {e.url}", some status⟩

def again (attempt : Nat) (error : ClientError) : Settled α :=
  if attempt + 1 < maxRetries then .retry else .raised error

def settle (e : Endpoint) (attempt : Nat) : Reply α → Settled α
  | .timeout => again attempt timeoutError
  | .failed => again attempt failedError
  | .response status json =>
      if status ∈ [429, 500, 502, 503, 504] then again attempt failedError
      else if status = 404 then .missing
      else if 400 ≤ status ∧ status < 500 then .raised (statusError e status)
      else if 500 ≤ status ∧ status < 600 then again attempt failedError
      else
        match json with
        | none => again attempt failedError
        | some payload => .payload payload

/-! ### The caches -/

structure Cached (α : Type) where
  key : String
  expiresAt : ℚ
  payload : Option α

structure Missing where
  key : String
  expiresAt : ℚ

def pruneTbaCache (configured : Int) (now : ℚ) (cache : Table (Cached.key (α := α))) :
    Table (Cached.key (α := α)) :=
  (cache.filter fun row => ¬ row.expiresAt ≤ now).newest (maxEntries configured)

/-! ### The threads -/

inductive Phase (α : Type) where
  | idle
  | lookup (e : Endpoint)
  | check (e : Endpoint)
  | asking (e : Endpoint) (attempt : Nat)
  | storing (e : Endpoint) (attempt : Nat) (payload : Option α)
  | storingMissing (e : Endpoint) (attempt : Nat)

/-- An answer of TBA as it was put into the cache. -/
structure Stored (α : Type) where
  key : String
  payload : Option α
  at_ : ℚ
  ttlSec : ℚ

/-- How a call ended, how many requests it made, and when. -/
structure Ended (α : Type) where
  endpoint : Endpoint
  at_ : ℚ
  asked : Nat
  result : Except ClientError (Option α)

/-- The last four fields are a record of what happened, that no step reads. -/
structure State (α : Type) where
  now : ℚ
  cache : Table (Cached.key (α := α))
  missing : Table Missing.key
  threads : Nat → Phase α
  replied : List (String × Option α)
  notFound : List (String × ℚ)
  stored : List (Stored α)
  ended : List (Ended α)

inductive Action (α : Type) where
  | tick (elapsed : ℚ)
  | call (thread : Nat) (e : Endpoint)
  | lookup (thread : Nat) (elapsed : ℚ)
  | check (thread : Nat)
  | reply (thread : Nat) (reply : Reply α)
  | store (thread : Nat) (elapsed : ℚ)
  | storeMissing (thread : Nat)

namespace State
variable (s : State α)

def enter (thread : Nat) (phase : Phase α) : State α :=
  { s with threads := Function.update s.threads thread phase }

def finish (thread : Nat) (e : Endpoint) (asked : Nat) (result : Except ClientError (Option α)) :
    State α :=
  { s.enter thread .idle with ended := ⟨e, s.now, asked, result⟩ :: s.ended }

def wait (elapsed : ℚ) : State α :=
  { s with now := s.now + elapsed }

/-- `_cached_tba_payload`: the rows that have expired go, and the one read becomes the newest. -/
def readCache (configured : Int) (e : Endpoint) (elapsed : ℚ) : State α × Option α :=
  let cache := pruneTbaCache configured s.now s.cache
  let later := { s.wait elapsed with cache }
  match cache.get? e.cacheKey with
  | none => (later, none)
  | some row =>
      if later.now < row.expiresAt then
        ({ later with cache := cache.touch row }, row.payload)
      else ({ later with cache := cache.erase e.cacheKey }, none)

def rememberPayload (configured : Int) (e : Endpoint) (payload : Option α) (elapsed : ℚ) :
    State α :=
  let row : Cached α := ⟨e.cacheKey, s.now + e.ttlSec, payload⟩
  { s.wait elapsed with
    cache := pruneTbaCache configured (s.now + elapsed) (s.cache.touch row)
    stored := ⟨e.cacheKey, payload, s.now, e.ttlSec⟩ :: s.stored }

def rememberMissing (e : Endpoint) : State α :=
  { s with
    missing := (s.missing.touch ⟨e.cacheKey, s.now + missingTtlSec⟩).newest cacheMaxEntries
    notFound := (e.cacheKey, s.now) :: s.notFound }

/-- `_known_tba_missing` -/
def knownMissing (e : Endpoint) : State α × Bool :=
  match s.missing.get? e.cacheKey with
  | none => (s, false)
  | some row =>
      if s.now < row.expiresAt then (s, true)
      else ({ s with missing := s.missing.erase e.cacheKey }, false)

end State

def step (configured : Int) (s : State α) : Action α → Option (State α)
  | .tick elapsed => if 0 ≤ elapsed then some (s.wait elapsed) else none
  | .call thread e =>
      match s.threads thread with
      | .idle => some (s.enter thread (.lookup e))
      | _ => none
  | .lookup thread elapsed =>
      match s.threads thread with
      | .lookup e =>
          if 0 ≤ elapsed then
            match s.readCache configured e elapsed with
            | (later, some payload) => some (later.finish thread e 0 (.ok (some payload)))
            | (later, none) => some (later.enter thread (.check e))
          else none
      | _ => none
  | .check thread =>
      match s.threads thread with
      | .check e =>
          match s.knownMissing e with
          | (later, true) => some (later.finish thread e 0 (.error (statusError e 404)))
          | (later, false) => some (later.enter thread (.asking e 0))
      | _ => none
  | .reply thread reply =>
      match s.threads thread with
      | .asking e attempt =>
          match settle e attempt reply with
          | .retry => some (s.enter thread (.asking e (attempt + 1)))
          | .raised error => some (s.finish thread e (attempt + 1) (.error error))
          | .missing => some (s.enter thread (.storingMissing e attempt))
          | .payload payload =>
              some { s.enter thread (.storing e attempt payload) with
                replied := (e.cacheKey, payload) :: s.replied }
      | _ => none
  | .store thread elapsed =>
      match s.threads thread with
      | .storing e attempt payload =>
          if 0 ≤ elapsed then
            some ((s.rememberPayload configured e payload elapsed).finish thread e (attempt + 1)
              (.ok payload))
          else none
      | _ => none
  | .storeMissing thread =>
      match s.threads thread with
      | .storingMissing e attempt =>
          some ((s.rememberMissing e).finish thread e (attempt + 1) (.error (statusError e 404)))
      | _ => none

/-- A worker process that has just started. -/
structure Started (s : State α) : Prop where
  cache : s.cache = .empty
  missing : s.missing = .empty
  threads : ∀ thread, s.threads thread = .idle
  replied : s.replied = []
  notFound : s.notFound = []
  stored : s.stored = []
  ended : s.ended = []

def client (configured : Int) : System (State α) (Action α) :=
  ⟨Started, step configured⟩

end Frcmob.TbaClient
