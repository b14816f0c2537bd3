import Frcmob.Lib.Places
import Mathlib.Data.Finset.Sort
import Mathlib.Data.List.Sort
import Mathlib.Data.Prod.Lex
import Mathlib.Data.String.Basic
import Mathlib.Algebra.Order.Ring.Unbundled.Rat

/-!
The draft simulation of `api/routes_alliances.py`: who is likely to be picked at alliance
selection. Nothing is assumed of the arithmetic of a double here but that negating twice gives the
number back, so results that are equal are bit-identical; `exp` is `math.exp`, and
`draws` are the numbers `random()` gives, in order. A dict is the function of its entries.
-/

namespace Frcmob.SelectionModel

open Places

section Arithmetic
variable {F : Type} [Add F] [Sub F] [Div F] [InvolutiveNeg F] [Zero F] [One F] [NatCast F]
  [OfScientific F] [LinearOrder F] (exp : F → F)

/-! ### One pick -/

/-- `desirability_by_team.get(team_key, 0.0)` -/
def desirabilityOf (desirabilityByTeam : String → Option F) (teamKey : String) : F :=
  (desirabilityByTeam teamKey).getD 0

/-- `max` of a list that is not empty -/
def top (values : List F) : F :=
  values.tail.foldl max (values.headD 0)

def total (weights : List F) : F :=
  weights.foldl (· + ·) 0

def safeScale (scale : F) : F :=
  max 1e-6 scale

structure Row (F : Type) where
  teamKey : String
  probability : F
  selectionDesirability : F

def softmaxProbabilities (desirabilityByTeam : String → Option F) (teamKeys : List String)
    (scale : F) : List (Row F) :=
  if teamKeys = [] then []
  else
    let value := desirabilityOf desirabilityByTeam
    let maxValue := top (teamKeys.map value)
    let weight := fun key => exp ((value key - maxValue) / safeScale scale)
    let expSum := total (teamKeys.map weight)
    if expSum ≤ 0 then
      teamKeys.map fun key => ⟨key, 1 / (teamKeys.length : F), value key⟩
    else
      sortBy (fun row => toLex (-row.probability, row.teamKey))
        (teamKeys.map fun key => ⟨key, weight key / expSum, value key⟩)

/-- The first team with a name at which the running sum reaches the threshold. -/
def reach (threshold : F) : (cumulative : F) → List (Row F) → Option String
  | _, [] => none
  | cumulative, row :: rest =>
      if threshold ≤ cumulative + row.probability ∧ row.teamKey ≠ "" then some row.teamKey
      else reach threshold (cumulative + row.probability) rest

def drawWeightedTeam (probabilities : List (Row F)) (threshold : F) : Option String :=
  match probabilities.getLast? with
  | none => none
  | some last =>
      (reach threshold 0 probabilities).or (if last.teamKey = "" then none else some last.teamKey)

/-! ### The draft, one softmax and one draw for each pick -/

inductive Round
  | first
  | second
deriving DecidableEq

/-- `first_round_counts`, `second_round_counts`, and how many numbers were drawn -/
structure Counts where
  first : String → Nat
  second : String → Nat
  drawn : Nat

namespace Counts

def zero : Counts where
  first _ := 0
  second _ := 0
  drawn := 0

def of (counts : Counts) : Round → String → Nat
  | .first => counts.first
  | .second => counts.second

def pick (counts : Counts) (round : Round) (teamKey : String) : Counts where
  first := if round = .first then
    Function.update counts.first teamKey (counts.first teamKey + 1) else counts.first
  second := if round = .second then
    Function.update counts.second teamKey (counts.second teamKey + 1) else counts.second
  drawn := counts.drawn + 1

end Counts

/-- Round 1 goes down the seeds and round 2 up; only the tally differs. -/
def tallies (captains : Nat) : List Round :=
  List.replicate captains .first ++ List.replicate captains .second

def plainDraft (desirabilityByTeam : String → Option F) (scale : F) (draws : Nat → F) :
    List Round → Finset String → Counts → Counts
  | [], _, counts => counts
  | round :: rest, available, counts =>
      if available = ∅ then counts
      else
        let probs := softmaxProbabilities exp desirabilityByTeam available.sort scale
        match drawWeightedTeam probs (draws counts.drawn) with
        | none => counts
        | some selected =>
            plainDraft desirabilityByTeam scale draws rest (available.erase selected)
              (counts.pick round selected)

/-! ### The draft as it runs, over places in the pool -/

/-- `(-probability, team_key, place)` -/
abbrev PoolRow (F : Type) : Type :=
  F × String × Nat

def fastRows (pool : List String) (desirability : List F) (scale : F) (available : List Nat) :
    List (PoolRow F) :=
  let value := fun i => desirability.getD i 0
  let weight := fun i => exp ((value i - top (available.map value)) / safeScale scale)
  let sum := total (available.map weight)
  let probability := fun i => if sum ≤ 0 then 1 / (available.length : F) else weight i / sum
  sortBy (fun row => toLex (row.1, toLex (row.2.1, row.2.2)))
    (available.map fun i => (-probability i, pool.getD i "", i))

def reachPlace (threshold : F) : (cumulative : F) → List (PoolRow F) → Option Nat
  | _, [] => none
  | cumulative, (negativeProbability, _, i) :: rest =>
      if threshold ≤ cumulative + -negativeProbability then some i
      else reachPlace threshold (cumulative + -negativeProbability) rest

def choose (rows : List (PoolRow F)) (threshold : F) : Nat :=
  (reachPlace threshold 0 rows).getD ((rows.getLast?.map (·.2.2)).getD 0)

def fastDraft (pool : List String) (desirability : List F) (scale : F) (draws : Nat → F) :
    List Round → List Nat → Counts → Counts
  | [], _, counts => counts
  | round :: rest, available, counts =>
      if available = [] then counts
      else
        let chosen := choose (fastRows exp pool desirability scale available) (draws counts.drawn)
        fastDraft pool desirability scale draws rest (available.erase chosen)
          (counts.pick round (pool.getD chosen ""))

/-! ### Many drafts -/

def poolOf (eventTeamKeys captainTeamKeys : List String) : List String :=
  sortBy id (eventTeamKeys.filter (· ∉ captainTeamKeys))

/-- `first_round_prob` and `second_round_prob` -/
structure Chances (F : Type) where
  first : String → Option F
  second : String → Option F

def Counts.chances (counts : Counts) (eventTeamKeys captainTeamKeys : List String)
    (simulations : Nat) : Chances F where
  first key := if key ∈ eventTeamKeys ∧ key ∉ captainTeamKeys then
    some ((counts.first key : F) / (simulations : F)) else none
  second key := if key ∈ eventTeamKeys ∧ key ∉ captainTeamKeys then
    some ((counts.second key : F) / (simulations : F)) else none

/-- `simulations` drafts, one after another on the same random numbers -/
def fastCounts (eventTeamKeys captainTeamKeys : List String)
    (desirabilityByTeam : String → Option F) (scale : F) (draws : Nat → F) : Nat → Counts
  | 0 => .zero
  | runs + 1 =>
      let pool := poolOf eventTeamKeys captainTeamKeys
      fastDraft exp pool (pool.map (desirabilityOf desirabilityByTeam)) scale draws
        (tallies captainTeamKeys.length) (List.range pool.length)
        (fastCounts eventTeamKeys captainTeamKeys desirabilityByTeam scale draws runs)

def simulateAllianceSelection (eventTeamKeys captainTeamKeys : List String)
    (desirabilityByTeam : String → Option F) (scale : F) (draws : Nat → F) (simulations : Nat) :
    Chances F :=
  if captainTeamKeys = [] ∨ poolOf eventTeamKeys captainTeamKeys = [] ∨ simulations = 0 then
    ⟨fun _ => none, fun _ => none⟩
  else
    (fastCounts exp eventTeamKeys captainTeamKeys desirabilityByTeam scale draws
      simulations).chances eventTeamKeys captainTeamKeys simulations

def plainCounts (eventTeamKeys captainTeamKeys : List String)
    (desirabilityByTeam : String → Option F) (scale : F) (draws : Nat → F) : Nat → Counts
  | 0 => .zero
  | runs + 1 =>
      plainDraft exp desirabilityByTeam scale draws (tallies captainTeamKeys.length)
        (eventTeamKeys.filter (· ∉ captainTeamKeys)).toFinset
        (plainCounts eventTeamKeys captainTeamKeys desirabilityByTeam scale draws runs)

/-- The simulation as it was before the places: one softmax and one weighted draw a pick. -/
def referenceSimulation (eventTeamKeys captainTeamKeys : List String)
    (desirabilityByTeam : String → Option F) (scale : F) (draws : Nat → F) (simulations : Nat) :
    Chances F :=
  (plainCounts exp eventTeamKeys captainTeamKeys desirabilityByTeam scale draws
    simulations).chances eventTeamKeys captainTeamKeys simulations

/-! ### The expected board -/

/-- One round of picks: each captain takes the first team of the softmax, if one is left. -/
def boardRound (desirabilityByTeam : String → Option F) (scale : F) :
    List String → Finset String × (String → List String) → Finset String × (String → List String)
  | [], state => state
  | captain :: rest, (available, board) =>
      if available = ∅ then (available, board)
      else
        let probs := softmaxProbabilities exp desirabilityByTeam available.sort scale
        let selected := (probs.head?.map (·.teamKey)).getD ""
        if selected = "" ∨ selected ∉ available then
          boardRound desirabilityByTeam scale rest (available, board)
        else
          boardRound desirabilityByTeam scale rest (available.erase selected,
            Function.update board captain (board captain ++ [selected]))

def buildExpectedAllianceBoard (eventTeamKeys captainTeamKeys : List String)
    (desirabilityByTeam : String → Option F) (scale : F) : String → List String :=
  let available := (eventTeamKeys.filter (· ∉ captainTeamKeys)).toFinset
  let board := fun key => if key ∈ captainTeamKeys then [key] else []
  (boardRound exp desirabilityByTeam scale captainTeamKeys.reverse
    (boardRound exp desirabilityByTeam scale captainTeamKeys (available, board))).2

end Arithmetic

end Frcmob.SelectionModel
