import Frcmob.Lib.Transition
import Frcmob.LiveResults.FirstResults

/-!
The stored answer of an event's live results: `_cached_live_results_for_event` of
`api/routes_matches.py`, called by any number of workers. A fetch from TBA fails or brings matches
of which the completed ones keep their scores. The entry of the cache may expire at any time.
-/

namespace Frcmob.LiveAnswers

open FirstResults

/-! ### Snapshots -/

inductive Winner
  | red
  | blue
  | tie
deriving DecidableEq

/-- What a payload says of a result; scores are what `_as_int` reads. -/
structure MatchPayload where
  redScore : Option Int
  blueScore : Option Int
  winningAlliance : Option String
  predictedTime : Option Int
  actualTime : Option Int
deriving DecidableEq

structure Snapshot where
  redScore : Option Int
  blueScore : Option Int
  winnerAlliance : Option Winner
  isCompleted : Bool
  winningScore : Option Int
  losingScore : Option Int
  predictedTime : Option Int
  actualTime : Option Int
deriving DecidableEq

/-- `_match_score`: negative scores are unresolved. -/
def matchScore (score : Option Int) : Option Int :=
  score.filter (0 ≤ ·)

def winnerAlliance (p : MatchPayload) : Option Winner :=
  let winner := normalizeKey (p.winningAlliance.getD "")
  if winner = "red" then some .red
  else if winner = "blue" then some .blue
  else
    match matchScore p.redScore, matchScore p.blueScore with
    | some red, some blue =>
        if red = blue then some .tie else if red > blue then some .red else some .blue
    | _, _ => none

def isMatchCompleted (p : MatchPayload) : Bool :=
  winnerAlliance p = some .red || winnerAlliance p = some .blue ||
    (matchScore p.redScore).isSome && (matchScore p.blueScore).isSome

/-- `_unix` -/
def unix (value : Option Int) : Option Int :=
  value.filter (0 < ·)

def matchResultSnapshot (p : MatchPayload) : Snapshot :=
  let red := matchScore p.redScore
  let blue := matchScore p.blueScore
  let scores : Option Int × Option Int :=
    match winnerAlliance p, red, blue with
    | some .red, some red, some blue => (some red, some blue)
    | some .blue, some red, some blue => (some blue, some red)
    | _, _, _ => (none, none)
  { redScore := red
    blueScore := blue
    winnerAlliance := winnerAlliance p
    isCompleted := isMatchCompleted p
    winningScore := scores.1
    losingScore := scores.2
    predictedTime := unix p.predictedTime
    actualTime := unix p.actualTime }

/-- The scores of a completed match. -/
def Snapshot.scores (snapshot : Snapshot) : Option (Int × Int) :=
  if snapshot.isCompleted then
    snapshot.redScore.bind fun red => snapshot.blueScore.map fun blue => (red, blue)
  else none

/-! ### An answer -/

structure ResultRow where
  matchKey : String
  result : Snapshot
deriving DecidableEq

/-- `result_by_match_key` -/
abbrev Results := Table ResultRow.matchKey

def Results.scoresAt (results : Results) (matchKey : String) : Option (Int × Int) :=
  (results.get? matchKey).bind fun row => row.result.scores

/-- A match as TBA answers it. -/
structure TbaPayload where
  listed : TbaMatch
  redScore : Option Int
  blueScore : Option Int
  winningAlliance : Option String
deriving DecidableEq

def TbaPayload.payload (m : TbaPayload) : MatchPayload where
  redScore := m.redScore
  blueScore := m.blueScore
  winningAlliance := m.winningAlliance
  predictedTime := m.listed.predictedTime
  actualTime := m.listed.actualTime

def colorName : LiveResults.Color → String
  | .red => "red"
  | .blue => "blue"

/-- The payload made of a row of FRC Events. -/
def ofFirst (p : Payload) : MatchPayload where
  redScore := some p.redScore
  blueScore := some p.blueScore
  winningAlliance := some ((p.winningAlliance.map colorName).getD "")
  predictedTime := p.predictedTime
  actualTime := p.actualTime

def addPayload (results : Results) (m : TbaPayload) : Results :=
  match m.listed.key with
  | none => results
  | some key =>
      if strip key = "" then results
      else results.put ⟨normalizeKey key, matchResultSnapshot m.payload⟩

def tbaResults (matches' : List TbaPayload) : Results :=
  matches'.foldl addPayload Table.empty

/-- What the overlay is told of the results so far. -/
def shown (results : Results) (matchKey : String) : Option FirstResults.Snapshot :=
  (results.get? matchKey).map fun row => ⟨row.result.isCompleted⟩

/-- What the overlay asks outside and the time it asks at. -/
structure Asked where
  world : World
  now : Int

/-- A fetch from TBA that brought a list, with its place among all fetches. -/
structure Fetch where
  place : Nat
  tbaMatches : List TbaPayload
deriving DecidableEq

/-- What an answer is made of: the fetch, none where it failed, and what the overlay asked, none
where it raised. -/
structure Rebuild where
  fetch : Option Fetch
  asked : Option Asked

def Fetch.pairs (eventKey : String) (fetch : Fetch) (asked : Asked) : List Pair :=
  asked.world.pairs eventKey (fetch.tbaMatches.map (·.listed)) (shown (tbaResults fetch.tbaMatches))
    asked.now

def Fetch.waiting (eventKey : String) (fetch : Fetch) (asked : Asked) : FilledTable :=
  firstResultsForWaitingMatches asked.world eventKey (fetch.tbaMatches.map (·.listed))
    (shown (tbaResults fetch.tbaMatches)) asked.now

def overlay (results : Results) (waiting : List Filled) : Results :=
  results.putAll (waiting.map fun e => ⟨e.key, matchResultSnapshot (ofFirst e.payload)⟩)

def Rebuild.results (eventKey : String) (rebuild : Rebuild) : Results :=
  match rebuild.fetch with
  | none => .empty
  | some fetch =>
      match rebuild.asked with
      | none => tbaResults fetch.tbaMatches
      | some asked => overlay (tbaResults fetch.tbaMatches) (fetch.waiting eventKey asked).rows

/-! ### How long it is kept -/

def settledResultsCacheTtlSec : Int := 6 * 3600
def settledAfterSec : Int := 86400

def eventResultsSettled (results : Results) (now : Int) : Bool :=
  let latest := results.rows.foldl (fun latest row => max latest (row.result.actualTime.getD 0)) 0
  !results.rows.isEmpty && results.rows.all (fun row => row.result.isCompleted) &&
    decide (0 < latest) && decide (latest < now - settledAfterSec)

/-- `matches_live_results_cache_ttl_sec` of the settings. -/
def ttlSec (liveTtlSec : Option Int) (results : Results) (now : Int) : Int :=
  if eventResultsSettled results now then settledResultsCacheTtlSec
  else max 1 ((liveTtlSec.filter (· ≠ 0)).getD 5)

structure Stored where
  results : Results
  ttlSec : Int

/-! ### Calls -/

inductive Phase
  | begun
  | missed
  | fetched (fetch : Option Fetch)
  | rebuilt (rebuild : Rebuild)
  | answered (results : Results)

/-- `startedAfter` counts the calls that had returned when this one began. -/
structure Call where
  startedAfter : Nat
  phase : Phase

structure Return where
  startedAfter : Nat
  results : Results

/-- `fetched` has the lists that TBA has answered, `answers` what the stored answers were made
of, both in order; `returned` what calls returned. -/
structure State where
  cache : Option Stored
  calls : Nat → Option Call
  fetched : List (List TbaPayload)
  answers : List Rebuild
  returned : List Return

inductive Action
  | start (id : Nat)
  | readCache (id : Nat)
  | fetchTba (id : Nat) (answer : Option (List TbaPayload))
  | overlay (id : Nat) (asked : Option Asked)
  | store (id : Nat) (now : Int)
  | finish (id : Nat)
  | expire

/-- Completed matches stay completed with their scores. -/
def Keeps (before after : List TbaPayload) : Prop :=
  ∀ row ∈ (tbaResults before).rows, row.result.scores.isSome →
    (tbaResults after).scoresAt row.matchKey = row.result.scores

instance (before after : List TbaPayload) : Decidable (Keeps before after) :=
  inferInstanceAs (Decidable (∀ row ∈ (tbaResults before).rows, row.result.scores.isSome →
    (tbaResults after).scoresAt row.matchKey = row.result.scores))

def State.put (s : State) (id : Nat) (call : Call) (phase : Phase) : State :=
  { s with calls := Function.update s.calls id (some { call with phase }) }

/-- A call that finds an entry answers with it. -/
def readCache (s : State) (id : Nat) (call : Call) : Option State :=
  match call.phase with
  | .begun =>
      match s.cache with
      | some stored => some (s.put id call (.answered stored.results))
      | none => some (s.put id call .missed)
  | _ => none

def fetchTba (s : State) (id : Nat) (answer : Option (List TbaPayload)) (call : Call) :
    Option State :=
  match call.phase with
  | .missed =>
      match answer with
      | none => some (s.put id call (.fetched none))
      | some list =>
          if ∀ before ∈ s.fetched, Keeps before list then
            some { s.put id call (.fetched (some ⟨s.fetched.length, list⟩)) with
              fetched := s.fetched ++ [list] }
          else none
  | _ => none

def askFirst (s : State) (id : Nat) (asked : Option Asked) (call : Call) : Option State :=
  match call.phase with
  | .fetched fetch => some (s.put id call (.rebuilt ⟨fetch, asked⟩))
  | _ => none

def store (eventKey : String) (liveTtlSec : Option Int) (s : State) (id : Nat) (now : Int)
    (call : Call) : Option State :=
  match call.phase with
  | .rebuilt rebuild =>
      let results := rebuild.results eventKey
      some { s.put id call (.answered results) with
        cache := some ⟨results, ttlSec liveTtlSec results now⟩
        answers := s.answers ++ [rebuild] }
  | _ => none

def finish (s : State) (id : Nat) (call : Call) : Option State :=
  match call.phase with
  | .answered results =>
      some { s with
        calls := Function.update s.calls id none
        returned := s.returned ++ [⟨call.startedAfter, results⟩] }
  | _ => none

/-- `none` where the action does not come next. -/
def step (eventKey : String) (liveTtlSec : Option Int) (s : State) : Action → Option State
  | .start id =>
      match s.calls id with
      | none => some { s with calls := Function.update s.calls id (some ⟨s.returned.length, .begun⟩) }
      | some _ => none
  | .readCache id => (s.calls id).bind (readCache s id)
  | .fetchTba id answer => (s.calls id).bind (fetchTba s id answer)
  | .overlay id asked => (s.calls id).bind (askFirst s id asked)
  | .store id now => (s.calls id).bind (store eventKey liveTtlSec s id now)
  | .finish id => (s.calls id).bind (finish s id)
  | .expire => some { s with cache := none }

def State.empty : State where
  cache := none
  calls _ := none
  fetched := []
  answers := []
  returned := []

def system (eventKey : String) (liveTtlSec : Option Int) : Transition.System State Action where
  start s := s = .empty
  step := step eventKey liveTtlSec

end Frcmob.LiveAnswers
