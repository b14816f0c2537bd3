import Mathlib.Data.Rat.Defs
import Frcmob.Lib.Covariance
import Frcmob.Ratings.Results

/-!
`SeasonTeamModel` of `team_model.py`: every team's belief per component, with the full
covariance within an event. A vector or a matrix of an event is kept under the names of its
teams; a look-up that finds no team (a `KeyError` in Python) reads zero.
-/

open Finset

namespace Frcmob.Ratings

universe u

/-- The names of `TeamModelParams.of`. -/
inductive Component
  | teleop
  | auto
  | tower
  | total
  | fouls
  | defense
deriving DecidableEq

structure ComponentParams (K : Type u) where
  priorVar : K
  matchVar : K
  eventVar : K
  noiseVar : K
  entryVarFloor : K

structure TeamModelParams (K : Type u) where
  of : Component → ComponentParams K
  dudBaseRate : K
  dudPriorMatches : K
  dudPredict : Bool
  dudRobust : Bool
  modelFouls : Bool
  modelDefense : Bool
  eventOffsetVar : K

/-- The components of which an alliance has one total. -/
def Component.isTotal : Component → Bool
  | .teleop | .auto | .total => true
  | .tower | .fouls | .defense => false

/-- What a model is made with. `hub` are its alliance-total components with their keys. -/
structure Settings (K : Type u) where
  priors : Component → Option K
  params : TeamModelParams K
  hub : List (Component × String)
  totals : ∀ entry ∈ hub, entry.1.isTotal = true
  teamMultipliers : Dict K
  weekMultipliers : List K
  teamVarMultipliers : Dict K

/-- `HUB_COMPONENTS` -/
def hubComponents : List (Component × String) :=
  [(.teleop, "teleop_hub_points"), (.auto, "auto_hub_points")]

theorem hubComponents_isTotal : ∀ entry ∈ hubComponents, entry.1.isTotal = true := by
  decide

/-! ### Event blocks -/

/-- One event's beliefs for one component. -/
structure EventBlock (K : Type u) where
  index : Finset String
  mean : String → K
  cov : String → String → K

section Block
variable {K : Type u} [Field K]

def EventBlock.empty : EventBlock K :=
  ⟨∅, fun _ => 0, fun _ _ => 0⟩

def EventBlock.add (block : EventBlock K) (team : String) (mean var : K) : EventBlock K where
  index := insert team block.index
  mean := Function.update block.mean team mean
  cov := Covariance.inserted block.cov team var

def EventBlock.belief (block : EventBlock K) (team : String) : Belief K :=
  ⟨block.mean team, block.cov team team⟩

/-- `h`: one for each member. -/
def indicator (members : List String) (team : String) : K :=
  if team ∈ members then 1 else 0

/-- `_sum`: mean and variance of the members' sum. -/
def EventBlock.sum (block : EventBlock K) (members : List String) : K × K :=
  (∑ a ∈ block.index, indicator members a * block.mean a,
    Covariance.form block.index block.cov (indicator members) (indicator members))

/-- The divisor `s` of `_update_sum`. -/
def EventBlock.innovation (block : EventBlock K) (members : List String)
    (params : ComponentParams K) : K :=
  (block.sum members).2 + params.noiseVar

/-- `_update_sum` -/
def EventBlock.updateSum (block : EventBlock K) (members : List String) (observed : K)
    (params : ComponentParams K) : EventBlock K :=
  let ph := Covariance.apply block.index block.cov (indicator members)
  let s := block.innovation members params
  let cov := Covariance.corrected block.index block.cov (indicator members) s
  { block with
    mean := fun a => block.mean a + ph a / s * (observed - (block.sum members).1)
    cov := fun a c => (cov a c + cov c a) / 2 }

/-- `_update_one` -/
def Belief.updateOne (belief : Belief K) (observed : K) (params : ComponentParams K) : Belief K :=
  let s := belief.var + params.noiseVar
  let gain := belief.var / s
  ⟨belief.mean + gain * (observed - belief.mean), belief.var * (1 - gain)⟩

/-- The belief with which a team enters an event, from its latest at an earlier one. -/
def Belief.entering [LinearOrder K] (old : Belief K) (params : ComponentParams K) : Belief K :=
  ⟨old.mean, max old.var params.entryVarFloor + params.eventVar⟩

/-- `block.cov[i, i] += match_var` -/
def EventBlock.grow (block : EventBlock K) (team : String) (var : K) : EventBlock K :=
  { block with cov := Covariance.widened block.cov team var }

end Block

/-! ### The model's state -/

/-- What an update did and what it divided by; not in the source. -/
inductive Update (K : Type u)
  | sum (before after : EventBlock K) (divisor : K)
  | one (before after : Belief K) (divisor : K)
  | duds (divisors : List K)

structure TeamModel (K : Type u) where
  settings : Settings K
  seasonStart : Option Int
  blocks : String → Component → Option (EventBlock K)
  /-- Events each team entered, in order. -/
  history : String → List String
  towers : String → String → Option (Belief K)
  eventStart : String → Option Int
  dudEvidence : String → K
  dudMatches : String → Nat
  /-- Every update so far; nothing reads it. -/
  updates : List (Update K)

namespace TeamModel
variable {K : Type u} [Field K]

def fresh (settings : Settings K) : TeamModel K where
  settings := settings
  seasonStart := none
  blocks := fun _ _ => none
  history := fun _ => []
  towers := fun _ _ => none
  eventStart := fun _ => none
  dudEvidence := fun _ => 0
  dudMatches := fun _ => 0
  updates := []

def hubNames (m : TeamModel K) : List Component :=
  m.settings.hub.map Prod.fst

def sides (m : TeamModel K) : List Component :=
  (if m.settings.params.modelFouls then [.fouls] else []) ++
    (if m.settings.params.modelDefense then [.defense] else [])

def paramsOf (m : TeamModel K) (name : Component) : ComponentParams K :=
  m.settings.params.of name

def prior (m : TeamModel K) (name : Component) : K :=
  (m.settings.priors name).getD 0

def block (m : TeamModel K) (eventKey : String) (name : Component) : EventBlock K :=
  (m.blocks eventKey name).getD .empty

def setBlock (m : TeamModel K) (eventKey : String) (name : Component) (block : EventBlock K) :
    TeamModel K :=
  { m with
    blocks := Function.update m.blocks eventKey
      (Function.update (m.blocks eventKey) name (some block)) }

def tower (m : TeamModel K) (team eventKey : String) : Belief K :=
  (m.towers team eventKey).getD ⟨0, 0⟩

def setTower (m : TeamModel K) (team eventKey : String) (belief : Belief K) : TeamModel K :=
  { m with
    towers := Function.update m.towers team
      (Function.update (m.towers team) eventKey (some belief)) }

def multiplier (m : TeamModel K) (team : String) : K :=
  (m.settings.teamMultipliers.lookup team).getD 1

def varMultiplier (m : TeamModel K) (team : String) : K :=
  (m.settings.teamVarMultipliers.lookup team).getD 1

/-- `self.week_multipliers[min(week, len(self.week_multipliers) - 1)]` -/
def weekMultiplier (m : TeamModel K) (eventKey : String) : K :=
  match m.eventStart eventKey, m.seasonStart with
  | some start, some seasonStart =>
      let week := (max 0 ((start - seasonStart) / (7 * 86400))).toNat
      (m.settings.weekMultipliers[min week (m.settings.weekMultipliers.length - 1)]?).getD 1
  | _, _ => 1

def firstMultiplier (m : TeamModel K) (team eventKey : String) : K :=
  m.multiplier team * m.weekMultiplier eventKey

def addTo (team eventKey : String) (m : TeamModel K) (entry : Component × Belief K) :
    TeamModel K :=
  m.setBlock eventKey entry.1 ((m.block eventKey entry.1).add team entry.2.mean entry.2.var)

variable [LinearOrder K]

/-- A hub component's belief of a team that enters the event. -/
def entryBelief (m : TeamModel K) (team eventKey : String) (name : Component) : Belief K :=
  match (m.history team).getLast? with
  | none =>
      ⟨m.prior name * m.firstMultiplier team eventKey,
        (m.paramsOf name).priorVar * m.varMultiplier team⟩
  | some previous => ((m.block previous name).belief team).entering (m.paramsOf name)

/-- The same of a side component, which has no multipliers and no floor. -/
def entrySide (m : TeamModel K) (team : String) (name : Component) : Belief K :=
  match (m.history team).getLast? with
  | none => ⟨if name = .fouls then m.prior .fouls else 0, (m.paramsOf name).priorVar⟩
  | some previous =>
      let old := (m.block previous name).belief team
      ⟨old.mean, old.var + (m.paramsOf name).eventVar⟩

def entryTower (m : TeamModel K) (team eventKey : String) : Belief K :=
  match (m.history team).getLast? with
  | none => ⟨m.prior .tower * m.firstMultiplier team eventKey, (m.paramsOf .tower).priorVar⟩
  | some previous => (m.tower team previous).entering (m.paramsOf .tower)

/-- What a team adds to the blocks of an event it enters. -/
def entries (m : TeamModel K) (team eventKey : String) : List (Component × Belief K) :=
  m.hubNames.map (fun name => (name, m.entryBelief team eventKey name)) ++
    m.sides.map fun name => (name, m.entrySide team name)

/-- `_enter` -/
def enter (m : TeamModel K) (team eventKey : String) : TeamModel K :=
  if eventKey ∈ m.history team then m
  else
    let added := (m.entries team eventKey).foldl (addTo team eventKey) m
    let towered := added.setTower team eventKey (m.entryTower team eventKey)
    { towered with
      history := Function.update m.history team (m.history team ++ [eventKey]) }

/-! ### Beliefs -/

/-- The team's last event, of those that started before `start`. -/
def lastBefore (m : TeamModel K) (team : String) (start : Option Int) : Option String :=
  ((m.history team).filter fun e =>
    start.all fun start => decide ((m.eventStart e).getD 0 < start)).getLast?

/-- `source` and `widen` of `belief`. -/
def source (m : TeamModel K) (team eventKey : String) (eventStart : Option Int) :
    Option (String × Bool) :=
  if eventKey ∈ m.history team then some (eventKey, false)
  else (m.lastBefore team (eventStart.or (m.eventStart eventKey))).map fun e => (e, true)

def hubBelief (m : TeamModel K) (team eventKey : String) (eventStart : Option Int)
    (name : Component) : Belief K :=
  match m.source team eventKey eventStart with
  | none => ⟨m.prior name * m.multiplier team, (m.paramsOf name).priorVar⟩
  | some (e, true) => ((m.block e name).belief team).entering (m.paramsOf name)
  | some (e, false) => (m.block e name).belief team

def towerBelief (m : TeamModel K) (team eventKey : String) (eventStart : Option Int) :
    Belief K :=
  match m.source team eventKey eventStart with
  | none => ⟨m.prior .tower * m.multiplier team, (m.paramsOf .tower).priorVar⟩
  | some (e, true) => (m.tower team e).entering (m.paramsOf .tower)
  | some (e, false) => m.tower team e

/-- `belief` -/
def belief (m : TeamModel K) (team eventKey : String) (eventStart : Option Int) :
    List (Component × Belief K) :=
  m.hubNames.map (fun name => (name, m.hubBelief team eventKey eventStart name)) ++
    [(.tower, m.towerBelief team eventKey eventStart)]

/-- `side_belief` -/
def sideBelief (m : TeamModel K) (team : String) (name : Component) (eventKey : String)
    (eventStart : Option Int) : Belief K :=
  if eventKey ∈ m.history team ∧ (m.blocks eventKey name).isSome then
    (m.block eventKey name).belief team
  else
    let start := eventStart.or (m.eventStart eventKey)
    let earlier := (m.history team).filter fun e =>
      (start.all fun start => decide ((m.eventStart e).getD 0 < start)) &&
        (m.blocks e name).isSome
    match earlier.getLast? with
    | some e =>
        let old := (m.block e name).belief team
        ⟨old.mean, old.var + (m.paramsOf name).eventVar⟩
    | none => ⟨if name = .fouls then m.prior .fouls else 0, (m.paramsOf name).priorVar⟩

/-- `team_points` -/
def teamPoints (m : TeamModel K) (team eventKey : String) : K :=
  ((m.belief team eventKey none).map fun b => b.2.mean).sum

/-- `dud_rate` -/
def dudRate (m : TeamModel K) (team : String) : K :=
  let p := m.settings.params
  (p.dudPriorMatches * p.dudBaseRate + m.dudEvidence team) /
    (p.dudPriorMatches + m.dudMatches team)

/-- The event's shared teleop shift, a pseudo-team of its teleop block. -/
def offsetKey (eventKey : String) : String :=
  "__event__" ++ eventKey

/-- Expected points and variance when each robot may be a dud, `contribution` what it scores
when it is not. -/
def dudAdjust (m : TeamModel K) (teams : List String) (contribution : String → K)
    (sum : K × K) : K × K :=
  if m.settings.params.dudPredict ∧ 0 < m.settings.params.dudBaseRate then
    teams.foldl (fun (acc : K × K) team =>
      let p := m.dudRate team
      (acc.1 - p * contribution team,
        acc.2 + p * (1 - p) * contribution team * contribution team)) sum
  else sum

/-- `_side` of a forecast: whole, foul, hub and tower points of `teams` against `others`. -/
def side (m : TeamModel K) (eventKey : String) (teams others : List String)
    (eventStart : Option Int) : (K × K) × (K × K) × (K × K) × (K × K) :=
  let hubOf (team : String) := m.hubNames.map fun name => m.hubBelief team eventKey eventStart name
  let towerOf (team : String) := m.towerBelief team eventKey eventStart
  let mean := (teams.map fun team => ((hubOf team).map Belief.mean).sum).sum
  let var := (teams.map fun team => ((hubOf team).map Belief.var).sum).sum +
    (m.hubNames.map fun name => (m.paramsOf name).noiseVar).sum
  let tower := ((teams.map fun team => (towerOf team).mean).sum,
    (teams.map fun team => (towerOf team).var).sum + 3 * (m.paramsOf .tower).noiseVar)
  let teleop := m.block eventKey .teleop
  let shifted :=
    if m.settings.params.eventOffsetVar ≠ 0 ∧ offsetKey eventKey ∈ teleop.index then
      (mean + (teleop.belief (offsetKey eventKey)).mean,
        var + (teleop.belief (offsetKey eventKey)).var)
    else (mean, var)
  let hub := m.dudAdjust teams (fun team => max 0 ((hubOf team).map Belief.mean).sum) shifted
  let against (name : Component) :=
    if name ∈ m.sides then
      ((others.map fun team => (m.sideBelief team name eventKey eventStart).mean).sum,
        (others.map fun team => (m.sideBelief team name eventKey eventStart).var).sum)
    else (0, 0)
  let defense := against .defense
  let fouls := against .fouls
  ((hub.1 + tower.1 - defense.1, hub.2 + tower.2 + defense.2),
    (fouls.1, fouls.2 + if .fouls ∈ m.sides then (m.paramsOf .fouls).noiseVar else 0),
    hub, tower)

def predictionOf (red blue : (K × K) × (K × K) × (K × K) × (K × K)) : Prediction K where
  redMean := red.1.1
  blueMean := blue.1.1
  redVar := red.1.2
  blueVar := blue.1.2
  redFouls := red.2.1.1
  blueFouls := blue.2.1.1
  redFoulsVar := red.2.1.2
  blueFoulsVar := blue.2.1.2
  redHub := red.2.2.1
  blueHub := blue.2.2.1
  redTower := red.2.2.2
  blueTower := blue.2.2.2

/-- `forecast`: from current beliefs, without entering anyone into the event. -/
def forecast (m : TeamModel K) (eventKey : String) (red blue : List String)
    (eventStart : Option Int) : Prediction K :=
  predictionOf (m.side eventKey red blue eventStart) (m.side eventKey blue red eventStart)

/-! ### Replay -/

/-- The event's start and the season's, before a match of it. -/
def noteStart (m : TeamModel K) (card : MatchCard) : TeamModel K :=
  { m with
    eventStart := Function.update m.eventStart card.eventKey
      ((m.eventStart card.eventKey).or (some card.eventStart))
    seasonStart := some (m.seasonStart.elim card.eventStart (min card.eventStart)) }

/-- `_offset`, when the event offset is on. -/
def enterOffset (m : TeamModel K) (eventKey : String) : TeamModel K :=
  if m.settings.params.eventOffsetVar = 0 then m
  else
    let block := m.block eventKey .teleop
    m.setBlock eventKey .teleop
      (if offsetKey eventKey ∈ block.index then block
        else block.add (offsetKey eventKey) 0 m.settings.params.eventOffsetVar)

/-- What `predict` and `observe` do first: everyone on the card enters the event. -/
def enterAll (m : TeamModel K) (card : MatchCard) : TeamModel K :=
  (card.teams.foldl (fun m team => m.enter team card.eventKey) (m.noteStart card)).enterOffset
    card.eventKey

/-- The members of an alliance's sum of a component. -/
def members (m : TeamModel K) (eventKey : String) (name : Component) (teams : List String) :
    List String :=
  if m.settings.params.eventOffsetVar ≠ 0 ∧ name = .teleop then teams ++ [offsetKey eventKey]
  else teams

/-- `_hub_means`, summed over the hub components and cut at zero. -/
def contribution (m : TeamModel K) (eventKey team : String) : K :=
  max 0 (m.hubNames.map fun name => (m.block eventKey name).mean team).sum

/-- One alliance's half of `predict`. -/
def predictSide (m : TeamModel K) (card : MatchCard) (teams others : List String) :
    (K × K) × (K × K) × (K × K) × (K × K) :=
  let eventKey := card.eventKey
  let sums := m.hubNames.map fun name =>
    let sum := (m.block eventKey name).sum (m.members eventKey name teams)
    (sum.1, sum.2 + (m.paramsOf name).noiseVar)
  let hub := m.dudAdjust teams (m.contribution eventKey)
    ((sums.map Prod.fst).sum, (sums.map Prod.snd).sum)
  let tower := ((teams.map fun team => (m.tower team eventKey).mean).sum,
    (teams.map fun team => (m.tower team eventKey).var).sum + 3 * (m.paramsOf .tower).noiseVar)
  let against (name : Component) :=
    if name ∈ m.sides then (m.block eventKey name).sum others else (0, 0)
  let defense := against .defense
  let fouls := against .fouls
  ((hub.1 + tower.1 - defense.1, hub.2 + tower.2 + defense.2),
    (fouls.1, fouls.2 + if .fouls ∈ m.sides then (m.paramsOf .fouls).noiseVar else 0),
    hub, tower)

/-- `predict` -/
def predict (m : TeamModel K) (card : MatchCard) : TeamModel K × Prediction K :=
  let entered := m.enterAll card
  (entered, predictionOf (entered.predictSide card card.red card.blue)
    (entered.predictSide card card.blue card.red))

/-- `_update_sum` of a block of the event. -/
def updateSum (m : TeamModel K) (eventKey : String) (name : Component) (members : List String)
    (observed : K) : TeamModel K :=
  let block := m.block eventKey name
  let after := block.updateSum members observed (m.paramsOf name)
  { m.setBlock eventKey name after with
    updates := m.updates ++ [.sum block after (block.innovation members (m.paramsOf name))] }

/-- `_update_one` -/
def updateOne (m : TeamModel K) (team eventKey : String) (observed : K) : TeamModel K :=
  let belief := m.tower team eventKey
  let after := belief.updateOne observed (m.paramsOf .tower)
  { m.setTower team eventKey after with
    updates := m.updates ++ [.one belief after (belief.var + (m.paramsOf .tower).noiseVar)] }

/-- The defense the other alliance was expected to play, for each alliance's first robot. -/
def suppression (m : TeamModel K) (card : MatchCard) (first : String) : K :=
  if .defense ∈ m.sides then
    let defense := m.block card.eventKey .defense
    if first = card.blue.headD "" then (defense.sum card.red).1
    else if first = card.red.headD "" then (defense.sum card.blue).1
    else 0
  else 0

/-- The defense updates of a match, both from beliefs before it. -/
def observeDefense (m : TeamModel K) (result : MatchResult K) : TeamModel K :=
  if .defense ∈ m.sides then
    let card := result.card
    let teleop := m.block card.eventKey .teleop
    let pending := [(card.red, card.blue, result.redComponents),
        (card.blue, card.red, result.blueComponents)].filterMap fun (teams, others, components) =>
      (components.number? "teleop_hub_points").map fun observed =>
        (others, (teleop.sum (m.members card.eventKey .teleop teams)).1 - observed)
    pending.foldl (fun m entry => m.updateSum card.eventKey .defense entry.1 entry.2) m
  else m

/-- The foul updates of a match. -/
def observeFouls (m : TeamModel K) (result : MatchResult K) : TeamModel K :=
  if .fouls ∈ m.sides then
    let card := result.card
    [(card.blue, result.redComponents), (card.red, result.blueComponents)].foldl
      (fun m (others, components) =>
        match components.number? "foul_points_received" with
        | some received => m.updateSum card.eventKey .fouls others received
        | none => m) m
  else m

/-- `block.cov[i, i] += match_var` for the components, and the same for the tower. -/
def grow (m : TeamModel K) (eventKey team : String) : TeamModel K :=
  let grown := (m.hubNames ++ m.sides).foldl (fun m name =>
    m.setBlock eventKey name ((m.block eventKey name).grow team (m.paramsOf name).matchVar)) m
  let tower := grown.tower team eventKey
  grown.setTower team eventKey ⟨tower.mean, tower.var + (m.paramsOf .tower).matchVar⟩

/-- One more match of evidence about the robot's duds. -/
def countDud (m : TeamModel K) (entry : String × K) : TeamModel K :=
  { m with
    dudEvidence := Function.update m.dudEvidence entry.1 (m.dudEvidence entry.1 + entry.2)
    dudMatches := Function.update m.dudMatches entry.1 (m.dudMatches entry.1 + 1) }

variable [Maths K]

/-- The variance in `_dud_posteriors` by which it divides. -/
def dudVar (m : TeamModel K) (teams : List String) (eventKey : String) : K :=
  (m.hubNames.map fun name =>
    ((m.block eventKey name).sum teams).2 + (m.paramsOf name).noiseVar).sum

/-- The unscaled chances that no robot and that each robot was a dud. -/
def dudWeights (m : TeamModel K) (teams : List String) (eventKey : String) (observed : K) :
    K × List (String × K) :=
  let distinct := teams.dedup
  let contribution := m.contribution eventKey
  let mean := (distinct.map contribution).sum
  let logNormal (x : K) : K := -(1 / 2) * (x * x) / m.dudVar teams eventKey
  let least : K := 1 / 10 ^ 12
  let none := Maths.log (max least (1 - (distinct.map m.dudRate).sum)) +
    logNormal (observed - mean)
  let logs := distinct.map fun team =>
    (team, Maths.log (max least (m.dudRate team)) +
      logNormal (observed - (mean - contribution team)))
  let top := (logs.map Prod.snd).foldl max none
  (Maths.exp (none - top), logs.map fun log => (log.1, Maths.exp (log.2 - top)))

/-- The sum of the weights in `_dud_posteriors`, by which it divides. -/
def dudTotal (weights : K × List (String × K)) : K :=
  weights.1 + (weights.2.map Prod.snd).sum

/-- The alliance's hub total, when every component of it is known. -/
def hubTotal (m : TeamModel K) (components : Components K) : Option K :=
  (m.settings.hub.mapM fun entry => components.number? entry.2).map List.sum

/-- `_dud_posteriors`: each robot's chance to have been a dud. -/
def dudPosteriors (m : TeamModel K) (teams : List String) (eventKey : String)
    (components : Components K) : Option (List (String × K)) :=
  (m.hubTotal components).map fun observed =>
    let weights := m.dudWeights teams eventKey observed
    weights.2.map fun weight => (weight.1, weight.2 / dudTotal weights)

/-- What `_dud_posteriors` divides by: the variance, the sum, and the divisor of each rate. -/
def dudDivisors (m : TeamModel K) (teams : List String) (eventKey : String)
    (components : Components K) : List K :=
  match m.hubTotal components with
  | none => []
  | some observed =>
      m.dudVar teams eventKey :: dudTotal (m.dudWeights teams eventKey observed) ::
        teams.map fun team => m.settings.params.dudPriorMatches + m.dudMatches team

def noteDuds (m : TeamModel K) (teams : List String) (eventKey : String)
    (components : Components K) : TeamModel K :=
  { m with updates := m.updates ++ [.duds (m.dudDivisors teams eventKey components)] }

/-- One alliance's turn in `observe`. -/
def observeAlliance (suppression : String → K) (eventKey : String) (m : TeamModel K)
    (side : List String × Components K) : TeamModel K :=
  let (teams, components) := side
  let tracked := 0 < m.settings.params.dudBaseRate
  let duds := if tracked then m.dudPosteriors teams eventKey components else none
  let noted := if tracked then m.noteDuds teams eventKey components else m
  let filledIn (name : Component) :=
    match duds with
    | some duds =>
        if m.settings.params.dudRobust then
          (teams.map fun team =>
            (duds.lookup team).getD 0 * max 0 ((m.block eventKey name).mean team)).sum
        else 0
    | none => 0
  let updated := m.settings.hub.foldl (fun m (name, key) =>
    match components.number? key with
    | none => m
    | some value =>
        let suppressed := if name = .teleop then suppression (teams.headD "") else 0
        m.updateSum eventKey name (m.members eventKey name teams)
          (value + filledIn name + suppressed)) noted
  let counted := (duds.getD []).foldl countDud updated
  (teams.zip components.robotTowers).foldl (fun m (team, robot) =>
    match robot with
    | some robot => m.updateOne team eventKey robot
    | none => m) counted

/-- `observe` -/
def observe (m : TeamModel K) (result : MatchResult K) : TeamModel K :=
  let card := result.card
  let entered := m.enterAll card
  let sided := (entered.observeDefense result).observeFouls result
  let updated := [(card.red, result.redComponents), (card.blue, result.blueComponents)].foldl
    (observeAlliance (entered.suppression card) card.eventKey) sided
  card.teams.foldl (fun m team => m.grow card.eventKey team) updated

end TeamModel
end Frcmob.Ratings
