import Frcmob.Simulation.EventSim

/-!
"What do we need?": `what_if` of `services/simulation/forecast.py` from the event's inputs on.
Whether the season is rated, frozen or the event finished is asked before.
-/

namespace Frcmob.Simulation

open Rounding

variable {K : Type} [Field K] [LinearOrder K]

inductive Side
  | red
  | blue
deriving DecidableEq

/-- What `what_if` reads of `_SimInputs`. -/
structure SimInputs (K : Type) where
  teams : List String
  quals : List String
  standings : String → Option (Standing K)
  remaining : List (String × QualMatch K)
  playoffsStarted : Bool

def sideOf (team : String) (m : QualMatch K) : Option Side :=
  if team ∈ m.red then some .red else if team ∈ m.blue then some .blue else none

def QualMatch.teamsOf (m : QualMatch K) : Side → List String
  | .red => m.red
  | .blue => m.blue

def Side.other : Side → Side
  | .red => .blue
  | .blue => .red

/-- `choice` -/
def choiceOf (team : String) (forced : String → Option String) (card : String × QualMatch K) :
    Option String :=
  if (sideOf team card.2).isSome then forced card.1 else none

/-- A choice other than a win or a loss leaves the match to the model. -/
def adjust (team : String) (forced : String → Option String) (card : String × QualMatch K) :
    QualMatch K :=
  let choice := choiceOf team forced card
  if choice = some "win" ∨ choice = some "loss" then
    let teamWins : Bool := choice = some "win"
    { card.2 with redWin := if teamWins = (sideOf team card.2 = some .red) then 1 else 0 }
  else card.2

structure WhatIfRow (K : Type) where
  matchKey : String
  alliance : Side
  partners : List String
  opponents : List String
  modelWinProb : K
  forced : Option String

def rowOf [FloorRing K] (team : String) (forced : String → Option String)
    (card : String × QualMatch K) : Option (WhatIfRow K) := do
  let side ← sideOf team card.2
  return {
    matchKey := card.1
    alliance := side
    partners := (card.2.teamsOf side).filter (· ≠ team)
    opponents := card.2.teamsOf side.other
    modelWinProb := roundTo 4 (if side = .red then card.2.redWin else 1 - card.2.redWin)
    forced := choiceOf team forced card }

inductive WhatIf (K : Type)
  | unavailable (reason : String)
  | answer (rows : List (WhatIfRow K)) (fieldSize runs : Nat) (model whatIf : RankForecast K)

def whatIf [FloorRing K] (inputs : SimInputs K) (team : String) (forced : String → Option String)
    (runs : Nat) (r : Rng K) : Except String (WhatIf K) :=
  if team ∉ inputs.teams then .error "That team is not at this event."
  else if inputs.quals = [] ∨ inputs.playoffsStarted then .ok (.unavailable "quals_over")
  else
    let rows := inputs.remaining.filterMap (rowOf team forced)
    let adjusted := inputs.remaining.map (adjust team forced)
    if rows = [] then .ok (.unavailable "no_matches_left")
    else
      do
        let model ← simulateRank team inputs.teams inputs.standings (inputs.remaining.map (·.2)) runs r
        let whatIf ← simulateRank team inputs.teams inputs.standings adjusted runs r
        return .answer rows inputs.teams.length runs model whatIf

end Frcmob.Simulation
