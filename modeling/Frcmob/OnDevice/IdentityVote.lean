import Frcmob.Lib.CommonRuns
import Frcmob.Lib.Js
import Frcmob.Lib.Numerals
import Frcmob.Lib.Places
import Frcmob.Lib.Transition
import Mathlib.Algebra.Order.Floor.Ring

/-!
Which team a track's read numbers stand for: `src/features/onDevice/identityVote.ts` in exact
arithmetic. A row of an array is a function of the index; an object is its keys in the order
JavaScript lists them, and a function.
-/

namespace Frcmob.OnDevice.Identity

open Js CommonRuns

/-! ### Similarity -/

def isDigit (u : UInt16) : Bool :=
  48 ≤ u && u ≤ 57

def digits (text : Str) : Str :=
  text.filter isDigit

/-- The body of the inner loop of `longestMatch`, on `curr` and `best`. -/
def matchCell (a b : Str) (prev : Nat → Nat) (i : Nat) (s : (Nat → Nat) × Block) (j : Nat) :
    (Nat → Nat) × Block :=
  let (curr, best) := s
  if a[i]? = b[j]? then
    let curr := Function.update curr (j + 1) (prev j + 1)
    if best.k < curr (j + 1) then
      (curr, ⟨i + 1 - curr (j + 1), j + 1 - curr (j + 1), curr (j + 1)⟩)
    else (curr, best)
  else (curr, best)

/-- The body of the outer loop, on `prev` and `best`. -/
def matchRow (a b : Str) (s : (Nat → Nat) × Block) (i : Nat) : (Nat → Nat) × Block :=
  (List.range' 0 b.length).foldl (matchCell a b s.1 i) (fun _ => 0, s.2)

def longestMatch (a b : Str) : Block :=
  ((List.range' 0 a.length).foldl (matchRow a b) (fun _ => 0, ⟨0, 0, 0⟩)).2

/-! #### What the loops find -/

structure RowsDone (a b : Str) (i : Nat) (s : (Nat → Nat) × Block) : Prop where
  prev : ∀ j ≤ b.length, s.1 j = run a b i j
  common : s.2.Common a b
  most : ∀ i' ≤ i, ∀ j ≤ b.length, run a b i' j ≤ s.2.k

structure CellsDone (a b : Str) (i j : Nat) (s : (Nat → Nat) × Block) : Prop where
  curr : ∀ j' ≤ j, s.1 j' = run a b (i + 1) j'
  fresh : ∀ j', j < j' → s.1 j' = 0
  common : s.2.Common a b
  above : ∀ i' ≤ i, ∀ j' ≤ b.length, run a b i' j' ≤ s.2.k
  most : ∀ j' ≤ j, run a b (i + 1) j' ≤ s.2.k

variable {a b : Str} {i j : Nat} {prev : Nat → Nat} {s : (Nat → Nat) × Block}

theorem matchCell_of_ne (h : a[i]? ≠ b[j]?) : matchCell a b prev i s j = s := by
  simp [matchCell, h]

theorem matchCell_fst (h : a[i]? = b[j]?) :
    (matchCell a b prev i s j).1 = Function.update s.1 (j + 1) (prev j + 1) := by
  simp only [matchCell, if_pos h]
  split <;> rfl

theorem matchCell_snd (h : a[i]? = b[j]?) :
    (matchCell a b prev i s j).2 =
      if s.2.k < prev j + 1 then endingAt (i + 1) (j + 1) (prev j + 1) else s.2 := by
  simp only [matchCell, if_pos h, Function.update_self, endingAt]
  split <;> rfl

theorem CellsDone.next (hi : i < a.length) (hj : j < b.length) (hprev : prev j = run a b i j)
    (h : CellsDone a b i j s) : CellsDone a b i (j + 1) (matchCell a b prev i s j) := by
  by_cases heq : a[i]? = b[j]?
  · have hrun : prev j + 1 = run a b (i + 1) (j + 1) := by
      rw [run_succ_of_eq heq, hprev]
    have hbest : (matchCell a b prev i s j).2.Common a b ∧
        s.2.k ≤ (matchCell a b prev i s j).2.k ∧
          run a b (i + 1) (j + 1) ≤ (matchCell a b prev i s j).2.k := by
      rw [matchCell_snd heq, hrun]
      by_cases hlonger : s.2.k < run a b (i + 1) (j + 1)
      · rw [if_pos hlonger]
        exact ⟨common_run hi hj, hlonger.le, le_rfl⟩
      · rw [if_neg hlonger]
        exact ⟨h.common, le_rfl, not_lt.mp hlonger⟩
    constructor
    case curr =>
      intro j' hj'
      rw [matchCell_fst heq]
      rcases eq_or_ne j' (j + 1) with rfl | hne
      · rw [Function.update_self, hrun]
      · rw [Function.update_of_ne hne]
        exact h.curr j' (by omega)
    case fresh =>
      intro j' hj'
      rw [matchCell_fst heq, Function.update_of_ne (by omega)]
      exact h.fresh j' (by omega)
    case common => exact hbest.1
    case above => exact fun i' hi' j' hj' => (h.above i' hi' j' hj').trans hbest.2.1
    case most =>
      intro j' hj'
      rcases Nat.le_succ_iff.mp hj' with hj' | rfl
      · exact (h.most j' hj').trans hbest.2.1
      · exact hbest.2.2
  · rw [matchCell_of_ne heq]
    have hrun : run a b (i + 1) (j + 1) = 0 := run_succ_of_ne heq
    constructor
    case curr =>
      intro j' hj'
      rcases Nat.le_succ_iff.mp hj' with hj' | rfl
      · exact h.curr j' hj'
      · rw [hrun]
        exact h.fresh (j + 1) j.lt_succ_self
    case fresh => exact fun j' hj' => h.fresh j' (by omega)
    case common => exact h.common
    case above => exact h.above
    case most =>
      intro j' hj'
      rcases Nat.le_succ_iff.mp hj' with hj' | rfl
      · exact h.most j' hj'
      · rw [hrun]
        exact Nat.zero_le _

theorem RowsDone.next (hi : i < a.length) (h : RowsDone a b i s) :
    RowsDone a b (i + 1) (matchRow a b s i) := by
  have hcells : CellsDone a b i b.length (matchRow a b s i) := by
    rw [matchRow]
    refine @Transition.foldl_range' _ _ (CellsDone a b i) 0 b.length _ ?_ ?_
    · constructor
      case curr =>
        intro j hj
        simp [Nat.le_zero.mp hj]
      case fresh => exact fun _ _ => rfl
      case common => exact h.common
      case above => exact h.most
      case most =>
        intro j hj
        simp [Nat.le_zero.mp hj]
    · intro j hj t ht
      rw [Nat.zero_add]
      exact ht.next hi hj (h.prev j hj.le)
  constructor
  case prev => exact hcells.curr
  case common => exact hcells.common
  case most =>
    intro i' hi' j hj
    rcases Nat.le_succ_iff.mp hi' with hi' | rfl
    · exact hcells.above i' hi' j hj
    · exact hcells.most j hj

theorem longest_longestMatch (a b : Str) : (longestMatch a b).Longest a b := by
  have hrows : RowsDone a b a.length
      ((List.range' 0 a.length).foldl (matchRow a b) (fun _ => 0, ⟨0, 0, 0⟩)) := by
    refine @Transition.foldl_range' _ _ (RowsDone a b) 0 a.length _ ?_ ?_
    · constructor
      case prev => simp
      case common => exact ⟨Nat.zero_le _, Nat.zero_le _, by simp⟩
      case most =>
        intro i hi j _
        simp [Nat.le_zero.mp hi]
    · intro i hi t ht
      rw [Nat.zero_add]
      exact ht.next hi
  exact ⟨hrows.common, hrows.most⟩

/-! #### The recursion -/

def matched (sa sb : Str) : Nat :=
  let m := longestMatch sa sb
  if m.k = 0 then 0
  else
    m.k + matched (sa.take m.i) (sb.take m.j) +
      matched (sa.drop (m.i + m.k)) (sb.drop (m.j + m.k))
termination_by sa.length
decreasing_by
  all_goals
    have hleft := (longest_longestMatch sa sb).left
    have hk : (longestMatch sa sb).k ≠ 0 := by assumption
    simp only [List.length_take, List.length_drop]
    omega

variable {K : Type} [Field K]

def similarityRatio (a b : Str) : K :=
  if a.length = 0 ∧ b.length = 0 then 1
  else
    let total := a.length + b.length
    if total = 0 then 0 else ((2 * matched a b : Nat) : K) / (total : Nat)

/-! ### The vote -/

structure OcrRead (K : Type) where
  text : Str
  confidence : Option K

structure IdentityVote (K : Type) where
  teamKey : Option Str
  confidence : K
  resolved : Bool
  scores : List (Str × K)

def decimal (s : Str) : Nat :=
  s.foldl (fun n u => 10 * n + (u.toNat - 48)) 0

/-- The index that a property name stands for, if it is one. -/
def arrayIndex (name : Str) : Option Nat :=
  if name ≠ [] ∧ name.all isDigit ∧ (name.head? ≠ some 48 ∨ name = [48]) ∧
      decimal name < 2 ^ 32 - 1 then
    some (decimal name)
  else none

/-- Each name once: array indices by size, then the others as they came. -/
def ownKeys (names : List Str) : List Str :=
  let distinct := names.foldl (fun keys name => if name ∈ keys then keys else keys ++ [name]) []
  let indices := distinct.filter fun name => (arrayIndex name).isSome
  Places.sortBy (fun name => (arrayIndex name).getD 0) indices ++
    distinct.filter fun name => (arrayIndex name).isNone

variable [LinearOrder K]

def MIN_READ_SIMILARITY : K := 1 / 2
def MIN_VOTE_SHARE : K := 45 / 100
def MIN_WINNER_MARGIN : K := 15 / 100

def candDigits (cand : Str) : Str :=
  if digits cand = [] then cand else digits cand

/-- The body of the loop over the candidates. -/
def addVote (rd : Str) (weight : K) (scores : Str → K) (cand : Str) : Str → K :=
  let sim := similarityRatio rd (candDigits cand)
  if MIN_READ_SIMILARITY ≤ sim then
    Function.update scores cand (scores cand + sim * weight)
  else scores

/-- The body of the loop over the reads. -/
def addRead (candidates : List Str) (scores : Str → K) (read : OcrRead K) : Str → K :=
  let rd := digits read.text
  if rd = [] then scores
  else
    let weight := max 0 (read.confidence.getD 1)
    if weight ≤ 0 then scores else candidates.foldl (addVote rd weight) scores

variable [FloorRing K]

/-- `Math.round(v * 1e4) / 1e4` -/
def round4 (v : K) : K :=
  ⌊v * 10000 + 1 / 2⌋ / 10000

def voteTrackIdentity (lower : Lowering) (reads : List (OcrRead K))
    (candidateTeamKeys : List Str) : IdentityVote K :=
  let candidates := (candidateTeamKeys.map lower.key).filter (· ≠ [])
  if candidates = [] then ⟨none, 0, false, []⟩
  else
    let record := reads.foldl (addRead candidates) fun _ => 0
    let scores := (ownKeys candidates).map fun c => (c, record c)
    let total := scores.foldl (fun s entry => s + entry.2) 0
    if total ≤ 0 then ⟨none, 0, false, scores⟩
    else
      let shares := scores.map fun entry => (entry.1, entry.2 / total)
      match shares.mergeSort fun x y => y.2 ≤ x.2 with
      -- A list of scores whose sum is positive is not empty.
      | [] => ⟨none, 0, false, scores⟩
      | (winner, winnerShare) :: others =>
          let runnerShare := (others.head?.map Prod.snd).getD 0
          let resolved := decide (MIN_VOTE_SHARE ≤ winnerShare) &&
            decide (MIN_WINNER_MARGIN ≤ winnerShare - runnerShare)
          { teamKey := if resolved then some winner else none
            confidence := round4 winnerShare
            resolved := resolved
            scores := shares.map fun entry => (entry.1, round4 entry.2) }

end Frcmob.OnDevice.Identity
