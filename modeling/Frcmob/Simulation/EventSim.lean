import Frcmob.Lib.Places
import Frcmob.Lib.Rounding
import Frcmob.Picklists.Selection
import Mathlib.Data.Prod.Lex

/-!
The rest of an event played many times: `services/simulation/event_sim.py` in exact arithmetic,
with the alliance selection of `Frcmob.Picklists`. A dict of standings or counts is the function
of its entries, a missing one being the one that `setdefault` makes. An error is its message, and
`none` stands for a slot that is missing.
-/

namespace Frcmob.Simulation

open Places Rounding

variable {K : Type} [Field K] [LinearOrder K]

/-- The numbers that `random()` still has to give, all from zero up to below one. -/
structure Rng (K : Type) [Field K] [LinearOrder K] where
  draws : Nat → K
  unit : ∀ n, 0 ≤ draws n ∧ draws n < 1

namespace Rng

def random (r : Rng K) : K :=
  r.draws 0

def next (r : Rng K) : Rng K where
  draws n := r.draws (n + 1)
  unit n := r.unit (n + 1)

end Rng

structure QualMatch (K : Type) where
  red : List String
  blue : List String
  redWin : K
  redBonus : List (String × K)
  blueBonus : List (String × K)
  redPoints : K
  bluePoints : K

structure Standing (K : Type) where
  rankingPoints : K
  matchCount : Nat
  points : K

/-! ### Quals -/

def Standing.new : Standing K where
  rankingPoints := 0
  matchCount := 0
  points := 0

def Standing.add (row : Standing K) (rp pts : K) : Standing K where
  rankingPoints := row.rankingPoints + rp
  matchCount := row.matchCount + 1
  points := row.points + pts

/-- The bonuses of a side that are earned, each with its own draw. -/
def countBonus : List K → Rng K → K × Rng K
  | [], r => (0, r)
  | p :: rest, r =>
      let (earned, r') := countBonus rest r.next
      ((if r.random < p then 1 else 0) + earned, r')

def playSide (table : String → Standing K) (side : List String) (rp pts : K) :
    String → Standing K :=
  side.foldl (fun table t => Function.update table t ((table t).add rp pts)) table

def playMatch (s : (String → Standing K) × Rng K) (m : QualMatch K) :
    (String → Standing K) × Rng K :=
  let (table, r) := s
  let redWon : Bool := r.random < m.redWin
  let (redBonus, r) := countBonus (m.redBonus.map (·.2)) r.next
  let table := playSide table m.red ((if redWon then 3 else 0) + redBonus) m.redPoints
  let (blueBonus, r) := countBonus (m.blueBonus.map (·.2)) r
  (playSide table m.blue ((if redWon then 0 else 3) + blueBonus) m.bluePoints, r)

/-- The last number of each team's sort key. -/
def drawTies : List String → Rng K → List (String × K) × Rng K
  | [], r => ([], r)
  | t :: rest, r =>
      let (tied, r') := drawTies rest r.next
      ((t, r.random) :: tied, r')

def rankKey (table : String → Standing K) (tied : String × K) : K ×ₗ K ×ₗ K :=
  let row := table tied.1
  toLex (-(if row.matchCount = 0 then 0 else row.rankingPoints / row.matchCount),
    toLex (-(if row.matchCount = 0 then 0 else row.points / row.matchCount), tied.2))

structure Quals (K : Type) where
  order : List String
  table : String → Standing K

def playQuals (r : Rng K) (teams : List String) (standings : String → Option (Standing K))
    (remaining : List (QualMatch K)) : Quals K × Rng K :=
  let (table, r) := remaining.foldl playMatch (fun t => (standings t).getD .new, r)
  let (tied, r) := drawTies teams r
  ({ order := (sortBy (rankKey table) tied).map (·.1), table }, r)

/-! ### One team's rank -/

/-- `counts` and `rank_sum` -/
structure RankCounts where
  counts : List Nat
  rankSum : Nat

def RankCounts.add (c : RankCounts) (rank : Nat) : RankCounts where
  counts := c.counts.modify (rank - 1) (· + 1)
  rankSum := c.rankSum + rank

def rankRuns (team : String) (teams : List String) (standings : String → Option (Standing K))
    (remaining : List (QualMatch K)) : (runs : Nat) → Rng K → RankCounts → Except String RankCounts
  | 0, _, c => .ok c
  | runs + 1, r, c =>
      let (quals, r) := playQuals r teams standings remaining
      if team ∈ quals.order then
        rankRuns team teams standings remaining runs r (c.add (quals.order.idxOf team + 1))
      else .error ("'" ++ team ++ "' is not in list")

structure RankForecast (K : Type) where
  expectedRank : K
  top8 : K
  top4 : K
  rankLikelyBest : Nat
  rankLikelyWorst : Nat
  rankCounts : List Nat

/-- The ranks of all runs in order. -/
def RankCounts.ranks (c : RankCounts) : List Nat :=
  (c.counts.zipIdx 1).flatMap fun (n, rank) => List.replicate n rank

def simulateRank [FloorRing K] (team : String) (teams : List String)
    (standings : String → Option (Standing K)) (remaining : List (QualMatch K)) (runs : Nat)
    (r : Rng K) : Except String (RankForecast K) :=
  match rankRuns team teams standings remaining runs r
    { counts := List.replicate teams.length 0, rankSum := 0 } with
  | .error e => .error e
  | .ok c =>
      if runs = 0 then .error "division by zero"
      else
        match c.ranks[(runs - 1) / 10]?, c.ranks[9 * (runs - 1) / 10]? with
        | some rankLikelyBest, some rankLikelyWorst => .ok {
            expectedRank := roundTo 2 (c.rankSum / runs)
            top8 := roundTo 4 ((c.counts.take 8).sum / runs)
            top4 := roundTo 4 ((c.counts.take 4).sum / runs)
            rankLikelyBest, rankLikelyWorst
            rankCounts := c.counts }
        | _, _ => .error "list index out of range"

/-! ### Playoffs -/

/-- A seed, or the winner or loser of an earlier match. -/
inductive Slot
  | seed (n : Nat)
  | winner (number : Nat)
  | loser (number : Nat)
deriving DecidableEq

/-- `BRACKET` -/
def bracket : List (Nat × Slot × Slot) :=
  [(1, .seed 1, .seed 8), (2, .seed 4, .seed 5), (3, .seed 2, .seed 7), (4, .seed 3, .seed 6),
    (5, .loser 1, .loser 2), (6, .loser 3, .loser 4), (7, .winner 1, .winner 2),
    (8, .winner 3, .winner 4), (9, .loser 7, .winner 6), (10, .loser 8, .winner 5),
    (11, .winner 7, .winner 8), (12, .winner 10, .winner 9), (13, .loser 11, .winner 12)]

abbrev Slots := Slot → Option (List String)

def seedSlots (seeds : List (List String)) : Slots
  | .seed n => if 1 ≤ n ∧ n ≤ 8 then seeds[n - 1]? else none
  | .winner _ | .loser _ => none

def setSlots (slots : Slots) (number : Nat) (winner loser : List String) : Slots :=
  Function.update (Function.update slots (.winner number) (some winner)) (.loser number)
    (some loser)

def playSlots (pWin : List String → List String → K) :
    List (Nat × Slot × Slot) → Slots → Rng K → Option (Slots × Rng K)
  | [], slots, r => some (slots, r)
  | (number, x, y) :: rest, slots, r => do
      let a ← slots x
      let b ← slots y
      playSlots pWin rest
        (if r.random < pWin a b then setSlots slots number a b else setSlots slots number b a) r.next

/-- The loop of the finals, with the games that it may still take. -/
def playFinals (pWin : List String → List String → K) (upper lower : List String) :
    (games : Nat) → (List String → Nat) → Rng K → Option ((List String → Nat) × Rng K)
  | games, wins, r =>
      if max (wins upper) (wins lower) < 2 then
        match games with
        | 0 => none
        | games + 1 =>
            let winner := if r.random < pWin upper lower then upper else lower
            playFinals pWin upper lower games
              (Function.update wins winner (wins winner + 1)) r.next
      else some (wins, r)

def playoffs (pWin : List String → List String → K) (seeds : List (List String)) (r : Rng K) :
    Option (List String × Rng K) := do
  let (slots, r) ← playSlots pWin bracket (seedSlots seeds) r
  let upper ← slots (.winner 11)
  let lower ← slots (.winner 13)
  let (wins, r) ← playFinals pWin upper lower 3 (fun _ => 0) r
  return (if wins upper = 2 then upper else lower, r)

/-! ### Whole events -/

/-- What one run ends with: no seeds where it stops before the selection, and no champion where
it stops before the playoffs. -/
structure Run (K : Type) where
  quals : Quals K
  seeds : List (List String) := []
  champion : Option (List String) := none

structure Event (K : Type) where
  teams : List String
  standings : String → Option (Standing K)
  remaining : List (QualMatch K)
  strength : String → Option K
  playoffWin : List String → List String → K

/-- `p_win` keeps what `playoff_win` has answered. -/
def Event.run (event : Event K) (r : Rng K) : Option (Run K × Rng K) :=
  let (quals, r) := playQuals r event.teams event.standings event.remaining
  if quals.order.length < 24 then some ({ quals }, r)
  else
    let seeds := Picklists.selectAlliances quals.order event.strength
    if seeds.length < 8 then some ({ quals, seeds }, r)
    else do
      let (champion, r) ← playoffs event.playoffWin seeds r
      return ({ quals, seeds, champion := some champion }, r)

structure TeamCounts (K : Type) where
  rankSum : Nat
  top8 : Nat
  rpSum : K
  captain : Nat
  alliance : Nat
  winEvent : Nat

def TeamCounts.zero : TeamCounts K where
  rankSum := 0
  top8 := 0
  rpSum := 0
  captain := 0
  alliance := 0
  winEvent := 0

abbrev Counts (K : Type) := String → TeamCounts K

def bump (f : TeamCounts K → TeamCounts K) (counts : Counts K) (ts : List String) : Counts K :=
  ts.foldl (fun counts t => Function.update counts t (f (counts t))) counts

def countRank (table : String → Standing K) (counts : Counts K) (placed : String × Nat) :
    Counts K :=
  let (t, rank) := placed
  let c := counts t
  Function.update counts t { c with
    rankSum := c.rankSum + rank
    top8 := if rank ≤ 8 then c.top8 + 1 else c.top8
    rpSum := c.rpSum + (table t).rankingPoints }

def countAlliance (counts : Counts K) (a : List String) : Counts K :=
  bump (fun c => { c with alliance := c.alliance + 1 })
    (bump (fun c => { c with captain := c.captain + 1 }) counts (a.take 1)) a

def countRun (counts : Counts K) (run : Run K) : Counts K :=
  let counts := (run.quals.order.zipIdx 1).foldl (countRank run.quals.table) counts
  let counts := run.seeds.foldl countAlliance counts
  bump (fun c => { c with winEvent := c.winEvent + 1 }) counts (run.champion.getD [])

def Event.runs (event : Event K) : (runs : Nat) → Rng K → Counts K → Option (Counts K)
  | 0, _, counts => some counts
  | runs + 1, r, counts => do
      let (run, r) ← event.run r
      event.runs runs r (countRun counts run)

structure TeamForecast (K : Type) where
  expectedRank : K
  top8 : K
  captain : K
  onAlliance : K
  winEvent : K
  expectedRp : K

def simulate [FloorRing K] (event : Event K) (runs : Nat) (r : Rng K) :
    Option (List (String × TeamForecast K)) := do
  let counts ← event.runs runs r fun _ => .zero
  if runs = 0 ∧ event.teams ≠ [] then none
  else return event.teams.map fun t =>
    let c := counts t
    (t, {
      expectedRank := roundTo 2 (c.rankSum / runs)
      top8 := roundTo 4 (c.top8 / runs)
      captain := roundTo 4 (c.captain / runs)
      onAlliance := roundTo 4 (c.alliance / runs)
      winEvent := roundTo 4 (c.winEvent / runs)
      expectedRp := roundTo 2 (c.rpSum / runs) })

end Frcmob.Simulation
