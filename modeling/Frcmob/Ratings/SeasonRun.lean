import Frcmob.Ratings.TeamModel

/-!
The team model run over a season's results: `_compute` of `team_model_service.py`, which extends
the run it has cached by the results that follow it and else replays the season from the start.
-/

namespace Frcmob.Ratings

universe u

/-- What `season_baseline` sets for the model. -/
structure Baseline (K : Type u) where
  teamModelPriors : Component → Option K
  teamModelParams : TeamModelParams K
  weekMultipliers : List K
  priorBeta : K
  priorKnownVarMultiplier : K
  rookieMultiplier : K

/-- What `season_prior_multipliers` returns: the multipliers of the first belief's mean and of
its variance. -/
structure Setup (K : Type u) where
  multipliers : Dict K
  varMultipliers : Dict K
deriving DecidableEq

structure SeasonRun (K : Type u) where
  model : TeamModel K
  /-- Each played match's prediction, the fewest earlier matches there and its features. -/
  beforeMatch : String → Option (Prediction K × Nat × List K)
  playedTotal : String → Nat
  playedHere : String → String → Nat
  robotsHere : String → String → List (MatchPoints K)
  /-- Team and event to the matches that moved its rating, with its points before and after. -/
  changes : String → String → List (String × K × K)
  results : List (MatchResult K)
  setup : Setup K

section Features
variable {K : Type u} [Field K] [LinearOrder K] [Maths K]

def winScale (matchesSeen : Nat) (playoff : Bool) : K :=
  if playoff then 2244 / 1000
  else if matchesSeen = 0 then 1827 / 1000
  else if matchesSeen < 3 then 2238 / 1000
  else 2633 / 1000

def redWinProb (margin sd : K) (matchesSeen : Nat) (playoff : Bool) : K :=
  let z := max (-30) (min 30 (winScale matchesSeen playoff * margin / max (1 / 10 ^ 6) sd))
  1 / (1 + Maths.exp (-z))

/-- `side` in `features`: the strongest and the weakest robot, the rates of duds and the
largest spread. -/
def featuresSide (m : TeamModel K) (card : MatchCard) (teams : List String) : K × K × K × K :=
  let beliefs := teams.map fun team => m.belief team card.eventKey (some card.eventStart)
  let points := beliefs.map fun x => (x.map fun b => b.2.mean).sum
  let vars := beliefs.map fun x => (x.map fun b => b.2.var).sum
  let largest (xs : List K) := xs.tail.foldl max (xs.headD 0)
  (largest points, points.tail.foldl min (points.headD 0), (teams.map m.dudRate).sum,
    Maths.sqrt (largest vars))

/-- The inputs of the learned correction, in the order the network was trained on. -/
def features (m : TeamModel K) (card : MatchCard) (prediction : Prediction K) (baseProb : K)
    (matchesSeen : Nat) (matchesBefore : Int) (playoff : Bool) : List K :=
  let margin := (prediction.redMean + prediction.redFouls) -
    (prediction.blueMean + prediction.blueFouls)
  let sd := Maths.sqrt (max (1 / 10 ^ 6) (prediction.redVar + prediction.blueVar +
    prediction.redFoulsVar + prediction.blueFoulsVar))
  let base := min (1 - 1 / 10 ^ 6) (max (1 / 10 ^ 6) baseProb)
  let rs := featuresSide m card card.red
  let bs := featuresSide m card card.blue
  -- `or` of Python: a start at zero counts as none.
  let seasonStart := match m.seasonStart with
    | some start => if start = 0 then card.eventStart else start
    | none => card.eventStart
  let eventStart := if card.eventStart = 0 then seasonStart else card.eventStart
  [margin / sd, margin / 100, (prediction.redMean - prediction.blueMean) / 100,
    Maths.log (base / (1 - base)), (rs.1 - bs.1) / 100, (rs.2.1 - bs.2.1) / 100,
    rs.2.2.1 - bs.2.2.1, (rs.2.2.2 - bs.2.2.2) / 50, if playoff then 1 else 0,
    (min matchesSeen 10 : Nat) / 10, (min matchesBefore 40 : Int) / 40,
    ((eventStart - seasonStart : Int) : K) / (86400 * 120),
    (prediction.redTower.1 - prediction.blueTower.1) / 30,
    (prediction.redMean + prediction.blueMean) / 400]

def correctionFeatures (m : TeamModel K) (card : MatchCard) (prediction : Prediction K)
    (seen : Nat) (beforeEvents : Int) : List K :=
  let margin := (prediction.redMean + prediction.redFouls) -
    (prediction.blueMean + prediction.blueFouls)
  let sd := Maths.sqrt (prediction.redVar + prediction.blueVar + prediction.redFoulsVar +
    prediction.blueFoulsVar)
  let playoff := (if card.compLevel.isEmpty then "qm" else card.compLevel.toLower) ≠ "qm"
  let base := redWinProb margin (max sd (1 / 10 ^ 3)) seen playoff
  features m card prediction base seen beforeEvents playoff

end Features

namespace SeasonRun
variable {K : Type u}

/-- `d[team, event] = f(d[team, event])` -/
def modify {V : Type u} (d : String → String → V) (team event : String) (f : V → V) :
    String → String → V :=
  Function.update d team (Function.update (d team) event (f (d team event)))

/-- The counters of a team that has played the match. -/
def countTeam (eventKey : String) (run : SeasonRun K) (team : String) : SeasonRun K :=
  { run with
    playedHere := Function.update run.playedHere team
      (Function.update (run.playedHere team) eventKey (run.playedHere team eventKey + 1))
    playedTotal := Function.update run.playedTotal team (run.playedTotal team + 1) }

def withResults (run : SeasonRun K) (results : List (MatchResult K)) : SeasonRun K :=
  { run with results := results }

theorem foldl_countTeam_withResults (eventKey : String) (teams : List String) (run : SeasonRun K)
    (results : List (MatchResult K)) :
    teams.foldl (countTeam eventKey) (run.withResults results) =
      (teams.foldl (countTeam eventKey) run).withResults results := by
  induction teams generalizing run with
  | nil => rfl
  | cons team teams ih => exact ih (countTeam eventKey run team)

theorem foldl_countTeam_setup (eventKey : String) (teams : List String) (run : SeasonRun K) :
    (teams.foldl (countTeam eventKey) run).setup = run.setup := by
  induction teams generalizing run with
  | nil => rfl
  | cons team teams ih => exact ih (countTeam eventKey run team)

variable [Field K]

/-- `_fresh_run` -/
def fresh (baseline : Baseline K) (setup : Setup K) : SeasonRun K where
  model := TeamModel.fresh
    { priors := baseline.teamModelPriors
      params := baseline.teamModelParams
      hub := hubComponents
      totals := hubComponents_isTotal
      teamMultipliers := setup.multipliers
      weekMultipliers := baseline.weekMultipliers
      teamVarMultipliers := setup.varMultipliers }
  beforeMatch := fun _ => none
  playedTotal := fun _ => 0
  playedHere := fun _ _ => 0
  robotsHere := fun _ _ => []
  changes := fun _ _ => []
  results := []
  setup := setup

/-- `_fork`: what a run that is extended takes over. -/
def fork (run : SeasonRun K) : SeasonRun K where
  model := run.model
  beforeMatch := run.beforeMatch
  playedTotal := run.playedTotal
  playedHere := run.playedHere
  robotsHere := run.robotsHere
  changes := run.changes
  results := run.results
  setup := run.setup

variable [LinearOrder K] [Maths K]

/-- One round of the loop in `_compute`. -/
def replay (run : SeasonRun K) (result : MatchResult K) : SeasonRun K :=
  let card := result.card
  let eventKey := card.eventKey
  let (model, prediction) := run.model.predict card
  let seen := ((card.teams.map fun team => run.playedHere team eventKey).min?).getD 0
  let beforeEvents := ((card.teams.map fun team =>
    (run.playedTotal team : Int) - run.playedHere team eventKey).min?).getD 0
  let row := (prediction, seen, correctionFeatures model card prediction seen beforeEvents)
  let before := model.teamPoints
  let observed := model.observe result
  let changes := card.teams.foldl (fun changes team =>
    modify changes team eventKey
      (· ++ [(card.matchKey, before team eventKey, observed.teamPoints team eventKey)]))
    run.changes
  let counted := card.teams.foldl (countTeam eventKey) run
  let robotsHere (team event : String) :=
    run.robotsHere team event ++
      if event = eventKey then (result.robots.lookup team).toList else []
  { counted with
    model := observed
    beforeMatch := Function.update run.beforeMatch card.matchKey (some row)
    robotsHere := robotsHere
    changes := changes }

/-- The previous run replays a beginning of these results from the same starting beliefs. -/
def Extends (setup : Setup K) (results : List (MatchResult K)) (previous : SeasonRun K) : Prop :=
  previous.setup = setup ∧ previous.results.length ≤ results.length ∧
    results.take previous.results.length = previous.results

instance (setup : Setup K) (results : List (MatchResult K)) (previous : SeasonRun K) :
    Decidable (Extends setup results previous) :=
  inferInstanceAs (Decidable (_ ∧ _ ∧ _))

/-- `run` and `start` of `_compute`. -/
def starting (baseline : Baseline K) (cached : Option (SeasonRun K)) (setup : Setup K)
    (results : List (MatchResult K)) : SeasonRun K × Nat :=
  match cached with
  | some previous =>
      if Extends setup results previous then (previous.fork, previous.results.length)
      else (fresh baseline setup, 0)
  | none => (fresh baseline setup, 0)

/-- `_compute` -/
def compute (baseline : Baseline K) (cached : Option (SeasonRun K)) (setup : Setup K)
    (results : List (MatchResult K)) : SeasonRun K :=
  let (run, start) := starting baseline cached setup results
  { (results.drop start).foldl replay run with results := results }

/-! ### Extended runs are full replays -/

/-- The season replayed from the start. -/
def replayed (baseline : Baseline K) (setup : Setup K) (results : List (MatchResult K)) :
    SeasonRun K :=
  (results.foldl replay (fresh baseline setup)).withResults results

/-- A round reads nothing of the results replayed before it. -/
theorem replay_withResults (run : SeasonRun K) (results : List (MatchResult K))
    (result : MatchResult K) :
    replay (run.withResults results) result = (replay run result).withResults results := by
  simp only [replay, foldl_countTeam_withResults]
  rfl

theorem replay_setup (run : SeasonRun K) (result : MatchResult K) :
    (replay run result).setup = run.setup :=
  foldl_countTeam_setup result.card.eventKey result.card.teams run

theorem foldl_replay_withResults (rest : List (MatchResult K)) (run : SeasonRun K)
    (results : List (MatchResult K)) :
    rest.foldl replay (run.withResults results) =
      (rest.foldl replay run).withResults results := by
  induction rest generalizing run with
  | nil => rfl
  | cons result rest ih => rw [List.foldl_cons, replay_withResults, ih, List.foldl_cons]

theorem foldl_replay_setup (rest : List (MatchResult K)) (run : SeasonRun K) :
    (rest.foldl replay run).setup = run.setup := by
  induction rest generalizing run with
  | nil => rfl
  | cons result rest ih => rw [List.foldl_cons, ih, replay_setup]

@[simp] theorem replayed_setup (baseline : Baseline K) (setup : Setup K)
    (results : List (MatchResult K)) : (replayed baseline setup results).setup = setup :=
  foldl_replay_setup results (fresh baseline setup)

@[simp] theorem replayed_results (baseline : Baseline K) (setup : Setup K)
    (results : List (MatchResult K)) : (replayed baseline setup results).results = results := rfl

/-- Replaying the rest after a beginning is replaying all of it. -/
theorem replayed_append (baseline : Baseline K) (setup : Setup K)
    (before rest : List (MatchResult K)) :
    (rest.foldl replay (replayed baseline setup before)).withResults (before ++ rest) =
      replayed baseline setup (before ++ rest) := by
  rw [replayed, foldl_replay_withResults, replayed, List.foldl_append]
  rfl

/-- What is cached is the replay of some results, under some setup. -/
def IsReplay (baseline : Baseline K) (run : SeasonRun K) : Prop :=
  ∃ setup results, run = replayed baseline setup results

/-- Whatever replay is cached, the next run is the full replay of its own results. -/
theorem compute_eq_replayed {baseline : Baseline K} {cached : Option (SeasonRun K)}
    (hcached : ∀ previous ∈ cached, IsReplay baseline previous) (setup : Setup K)
    (results : List (MatchResult K)) :
    compute baseline cached setup results = replayed baseline setup results := by
  cases cached with
  | none => rfl
  | some previous =>
      by_cases hextends : Extends setup results previous
      · obtain ⟨setup', before, rfl⟩ := hcached previous rfl
        obtain ⟨hsetup, hlength, htake⟩ := hextends
        rw [replayed_setup] at hsetup
        rw [replayed_results] at hlength htake
        have hsplit : results = before ++ results.drop before.length := by
          rw [← congrArg (· ++ results.drop before.length) htake, List.take_append_drop]
        rw [compute, starting, if_pos ⟨by rw [replayed_setup, hsetup], hlength, htake⟩, hsetup]
        simp only [replayed_results]
        rw [hsplit, List.drop_left]
        exact replayed_append baseline setup before (results.drop before.length)
      · rw [compute, starting, if_neg hextends]
        rfl

theorem extended_run_eq_full (baseline : Baseline K) (setup : Setup K)
    (before rest : List (MatchResult K)) :
    compute baseline (some (compute baseline none setup before)) setup (before ++ rest) =
      compute baseline none setup (before ++ rest) := by
  apply compute_eq_replayed
  intro previous hprevious
  cases hprevious
  exact ⟨setup, before, rfl⟩

end SeasonRun
end Frcmob.Ratings
