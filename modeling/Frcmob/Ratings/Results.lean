import Frcmob.Lib.Numerals
import Mathlib.Data.Finmap
import Mathlib.Algebra.Order.Field.Basic

/-!
Match cards, results and predictions of a season's replay: the data classes of `replay.py` and
`strength.py`. `K` stands for Python's floats.
-/

namespace Frcmob.Ratings

universe u

/-- The functions of Python's `math` module that the ratings use. -/
class Maths (K : Type u) where
  exp : K → K
  log : K → K
  sqrt : K → K

structure MatchCard where
  matchKey : String
  eventKey : String
  time : Int
  compLevel : String
  eventStart : Int
  red : List String
  blue : List String
deriving DecidableEq

def MatchCard.teams (card : MatchCard) : List String :=
  card.red ++ card.blue

structure MatchPoints (K : Type u) where
  matchKey : String
  time : Int
  teleop : Option K
  auto : Option K
  climb : Option K
deriving DecidableEq

/-- A value under a key of an alliance's components. -/
inductive ComponentValue (K : Type u)
  | null
  | flag (value : Bool)
  | text (value : String)
  | number (value : K)
  | numbers (values : List (Option K))
  | teamKeys (values : List String)
deriving DecidableEq

/-- A dictionary with one value for each key. -/
abbrev Dict (V : Type u) := Finmap fun _ : String => V

abbrev Components (K : Type u) := Dict (ComponentValue K)

namespace Components
variable {K : Type u}

/-- `float(components[key])`, where there is a number. -/
def number? (components : Components K) (key : String) : Option K :=
  match components.lookup key with
  | some (.number value) => some value
  | _ => none

/-- `components.get(key) or [None, None, None]` -/
def numbersOr (components : Components K) (key : String) : List (Option K) :=
  match components.lookup key with
  | some (.numbers (value :: values)) => value :: values
  | _ => [none, none, none]

variable [Field K]

/-- `_robot_towers`: each robot's tower points, where either part is known. -/
def robotTowers (components : Components K) : List (Option K) :=
  List.zipWith
    (fun a e =>
      match a, e with
      | none, none => none
      | _, _ => some (a.getD 0 + e.getD 0))
    (components.numbersOr "robot_auto_tower_points")
    (components.numbersOr "robot_endgame_tower_points")

end Components

structure MatchResult (K : Type u) where
  card : MatchCard
  redScore : Int
  blueScore : Int
  redPoints : Option K
  bluePoints : Option K
  robots : Dict (MatchPoints K)
  redComponents : Components K
  blueComponents : Components K
deriving DecidableEq

structure Belief (K : Type u) where
  mean : K
  var : K
deriving DecidableEq

structure Prediction (K : Type u) where
  redMean : K
  blueMean : K
  redVar : K
  blueVar : K
  redFouls : K
  blueFouls : K
  redFoulsVar : K
  blueFoulsVar : K
  redHub : K × K
  blueHub : K × K
  redTower : K × K
  blueTower : K × K
deriving DecidableEq

end Frcmob.Ratings
