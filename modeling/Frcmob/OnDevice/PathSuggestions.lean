import Frcmob.Lib.Table
import Frcmob.OnDevice.TrackStitching

/-!
Suggested continuations of a path: `features/onDevice/pathSuggestions.ts` in exact arithmetic.
`hypot` is `Math.hypot`. A map is the function of its entries.
-/

namespace Frcmob.OnDevice.Suggestions

structure PathPoint (K : Type*) where
  timeSec : K
  fieldX : K
  fieldY : K
deriving DecidableEq

/-- The points of a path are time-ordered. -/
structure SuggestPath (ι K : Type) [LinearOrder K] where
  pathId : ι
  points : List (PathPoint K)
  alliance : Option Alliance
  ordered : points.Pairwise fun p q => p.timeSec ≤ q.timeSec

structure SuggestOptions (K : Type*) where
  maxGapSec : Option K := none
  maxSpeedMps : Option K := none
  positionToleranceM : Option K := none
  ambiguityMarginM : Option K := none

structure Limits (K : Type*) where
  maxGapSec : K
  maxSpeedMps : K
  positionToleranceM : K
  ambiguityMarginM : K

variable {ι K : Type} [LinearOrder ι] [Field K] [LinearOrder K]

local instance lawfulBEq_pathId : LawfulBEq ι := inferInstance

/-- Over `DEFAULTS`. -/
def SuggestOptions.limits (opts : SuggestOptions K) : Limits K where
  maxGapSec := opts.maxGapSec.getD 6
  maxSpeedMps := opts.maxSpeedMps.getD (9 / 2)
  positionToleranceM := opts.positionToleranceM.getD 1
  ambiguityMarginM := opts.ambiguityMarginM.getD 1

def cost (hypot : K → K → K) (a b : SuggestPath ι K) (o : Limits K) : Option K := do
  let last ← a.points.getLast?
  let start ← b.points.head?
  let gap := start.timeSec - last.timeSec
  if gap ≤ 0 ∨ o.maxGapSec < gap then none
  else if opposed a.alliance b.alliance then none
  else
    let d := hypot (start.fieldX - last.fieldX) (start.fieldY - last.fieldY)
    if o.positionToleranceM + o.maxSpeedMps * gap < d then none
    else some (d + 1 / 4 * gap)

structure Candidate (ι K : Type) where
  id : ι
  cost : K

def Candidate.before (x y : Candidate ι K) : Prop :=
  x.cost < y.cost ∨ x.cost = y.cost ∧ x.id ≤ y.id

instance : DecidableRel (Candidate.before : Candidate ι K → Candidate ι K → Prop) := fun _ _ =>
  inferInstanceAs (Decidable (_ ∨ _))

def clearBest (costs : List (Candidate ι K)) (margin : K) : Option ι :=
  match costs.insertionSort Candidate.before with
  | [] => none
  | [best] => some best.id
  | best :: rival :: _ => if rival.cost - best.cost < margin then none else some best.id

/-! ### Chains -/

abbrev SuggestPaths (ι K : Type) [LinearOrder K] :=
  Table (SuggestPath.pathId : SuggestPath ι K → ι)

/-- The loop that makes a chain longer, which adds each path at most once. -/
def grow (next : ι → Option ι) : Nat → List ι → Option ι → List ι
  | 0, chain, _ | _, chain, none => chain
  | n + 1, chain, some cur => if cur ∈ chain then chain else grow next n (chain ++ [cur]) (next cur)

namespace SuggestPaths

def usable (ps : SuggestPaths ι K) : SuggestPaths ι K :=
  ps.filter fun p => 0 < p.points.length

variable (hypot : K → K → K) (o : Limits K)

def succ (ps : SuggestPaths ι K) (a : SuggestPath ι K) : List (Candidate ι K) :=
  ps.usable.rows.filterMap fun b =>
    if a.pathId = b.pathId then none else (cost hypot a b o).map fun c => ⟨b.pathId, c⟩

def pred (ps : SuggestPaths ι K) (b : SuggestPath ι K) : List (Candidate ι K) :=
  ps.usable.rows.filterMap fun a =>
    if a.pathId = b.pathId then none else (cost hypot a b o).map fun c => ⟨a.pathId, c⟩

/-- The entry of `a` in `next`. -/
def link (ps : SuggestPaths ι K) (a : SuggestPath ι K) : Option ι := do
  let id ← clearBest (ps.succ hypot o a) o.ambiguityMarginM
  let b ← ps.usable.get? id
  if clearBest (ps.pred hypot o b) o.ambiguityMarginM = some a.pathId then return id else none

def next (ps : SuggestPaths ι K) (id : ι) : Option ι :=
  (ps.usable.get? id).bind (ps.link hypot o)

def hasPrev (ps : SuggestPaths ι K) (id : ι) : Bool :=
  ps.usable.rows.any fun a => ps.link hypot o a = some id

def suggestionGroups (ps : SuggestPaths ι K) (opts : SuggestOptions K) : List (List ι) :=
  let o := opts.limits
  (ps.usable.rows.filter fun p => !ps.hasPrev hypot o p.pathId).map fun p =>
    grow (ps.next hypot o) ps.usable.rows.length [p.pathId] (ps.next hypot o p.pathId)

end SuggestPaths

/-! ### The offer -/

/-- Paths with a team. -/
abbrev Identities (ι : Type) :=
  Table (Prod.fst : ι × String → ι)

/-- `identities[id]` is there and not empty. -/
def Identities.taken (identities : Identities ι) (id : ι) : Bool :=
  match identities.get? id with
  | none => false
  | some entry => entry.2 ≠ ""

namespace SuggestPaths

def span (ps : SuggestPaths ι K) (id : ι) : K × K :=
  let pts := ((ps.get? id).map (·.points)).getD []
  match pts.head?, pts.getLast? with
  | some first, some last => (first.timeSec, last.timeSec)
  | _, _ => (0, -1)

/-- `out` and `teamSpans` -/
structure Offer (ι K : Type) where
  out : List ι := []
  teamSpans : List (K × K)

def meets (p q : K × K) : Bool :=
  p.1 ≤ q.2 && q.1 ≤ p.2

def offer (ps : SuggestPaths ι K) (seedId : ι) (identities : Identities ι) (s : Offer ι K)
    (id : ι) : Offer ι K :=
  if id = seedId ∨ identities.taken id then s
  else if s.teamSpans.any (meets (ps.span id)) then s
  else { out := s.out ++ [id], teamSpans := s.teamSpans ++ [ps.span id] }

def teamSpans (ps : SuggestPaths ι K) (seedId : ι) (teamKey : String)
    (identities : Identities ι) : List (K × K) :=
  ((identities.rows.filter fun entry => entry.2 = teamKey ∧ entry.1 ≠ seedId).map
    fun entry => ps.span entry.1) ++ [ps.span seedId]

def suggestionsFor (ps : SuggestPaths ι K) (groups : List (List ι)) (seedId : ι)
    (teamKey : String) (identities : Identities ι) : List ι :=
  match groups.find? fun g => seedId ∈ g with
  | none => []
  | some group =>
      if teamKey = "" then []
      else
        (group.foldl (ps.offer seedId identities)
          { teamSpans := ps.teamSpans seedId teamKey identities }).out

end SuggestPaths

end Frcmob.OnDevice.Suggestions
