import Frcmob.Lib.Numerals
import Frcmob.Lib.Parents
import Mathlib.Algebra.Order.Field.Rat
import Mathlib.Data.List.Sort

/-!
Track fragments joined into robots: `features/onDevice/trackStitching.ts` in exact arithmetic.
`hypot` is `Math.hypot`. A map is the function of its entries, and `none` stands for a missing
entry and for a climb that does not end.
-/

namespace Frcmob.OnDevice

inductive Alliance
  | red
  | blue
deriving DecidableEq

structure BumperColour (K : Type*) where
  red : K
  blue : K
deriving DecidableEq

structure StitchOptions (K : Type*) where
  maxGapSec : Option K := none
  maxSpeedMps : Option K := none
  positionToleranceM : Option K := none
  minColourShare : Option K := none
  colourMargin : Option K := none

structure TrackletPoint (K : Type*) where
  timeSec : K
  x : K
  y : K
deriving DecidableEq

/-- The points of a fragment are time-ordered. -/
structure Tracklet (ι K : Type) [LinearOrder K] extends BumperColour K where
  id : ι
  points : List (TrackletPoint K)
  ordered : points.Pairwise fun p q => p.timeSec ≤ q.timeSec

variable {ι K : Type} [LinearOrder ι] [Field K] [LinearOrder K]

def trackletAlliance (t : BumperColour K) (opts : StitchOptions K) : Option Alliance :=
  let minShare := opts.minColourShare.getD (1 / 25)
  let margin := opts.colourMargin.getD 2
  if minShare ≤ t.red ∧ margin * t.blue ≤ t.red then some .red
  else if minShare ≤ t.blue ∧ margin * t.red ≤ t.blue then some .blue
  else none

/-- Both are clear and they differ. -/
def opposed : Option Alliance → Option Alliance → Bool
  | some a, some b => a ≠ b
  | _, _ => false

/-- The options `o` of the links, with their defaults. -/
structure Limits (K : Type*) where
  maxGapSec : K
  maxSpeedMps : K
  positionToleranceM : K

def StitchOptions.limits (opts : StitchOptions K) : Limits K where
  maxGapSec := opts.maxGapSec.getD 2
  maxSpeedMps := opts.maxSpeedMps.getD 2
  positionToleranceM := opts.positionToleranceM.getD (1 / 2)

def linkCost (hypot : K → K → K) (a b : Tracklet ι K) (o : Limits K) (colour : StitchOptions K) :
    Option K := do
  let last ← a.points.getLast?
  let start ← b.points.head?
  let gap := start.timeSec - last.timeSec
  if gap ≤ 0 ∨ o.maxGapSec < gap then none
  else
    let d := hypot (start.x - last.x) (start.y - last.y)
    if o.positionToleranceM + o.maxSpeedMps * gap < d then none
    else if opposed (trackletAlliance a.toBumperColour colour)
        (trackletAlliance b.toBumperColour colour) then none
    else some (d + 1 / 4 * gap)

/-! ### The fragments of a capture -/

structure Fragments (ι K : Type) [LinearOrder K] where
  tracklets : List (Tracklet ι K)
  distinct : (tracklets.map (·.id)).Nodup

structure Link (ι K : Type) where
  fromId : ι
  toId : ι
  cost : K

/-- By cost, then by the ids. -/
def Link.before (x y : Link ι K) : Prop :=
  x.cost < y.cost ∨ x.cost = y.cost ∧
    (x.fromId < y.fromId ∨ x.fromId = y.fromId ∧ x.toId ≤ y.toId)

instance : DecidableRel (Link.before : Link ι K → Link ι K → Prop) := fun _ _ =>
  inferInstanceAs (Decidable (_ ∨ _))

namespace Tracklet

def start (t : Tracklet ι K) : Option K :=
  t.points.head?.map (·.timeSec)

def finish (t : Tracklet ι K) : Option K :=
  t.points.getLast?.map (·.timeSec)

end Tracklet

namespace Fragments

def usable (fs : Fragments ι K) : List (Tracklet ι K) :=
  fs.tracklets.filter fun t => 0 < t.points.length

def byId (fs : Fragments ι K) (id : ι) : Option (Tracklet ι K) :=
  fs.usable.find? fun t => t.id = id

def links (hypot : K → K → K) (fs : Fragments ι K) (opts : StitchOptions K) : List (Link ι K) :=
  (fs.usable.flatMap fun a => fs.usable.filterMap fun b =>
    if a.id = b.id then none
    else (linkCost hypot a b opts.limits opts).map fun cost => ⟨a.id, b.id, cost⟩).insertionSort
      Link.before

end Fragments

/-! ### Union-find over chains -/

structure Evidence (K : Type*) where
  red : K
  blue : K
  n : Nat
deriving DecidableEq

structure Chains (ι K : Type) where
  parent : ι → Option ι
  chainStart : ι → Option K
  chainEnd : ι → Option K
  colour : ι → Option (Evidence K)
  hasNext : List ι := []
  hasPrev : List ι := []

def Tracklet.evidence (t : Tracklet ι K) : Evidence K :=
  ⟨t.red * t.points.length, t.blue * t.points.length, t.points.length⟩

def Evidence.add (ck cd : Evidence K) : Evidence K :=
  ⟨ck.red + cd.red, ck.blue + cd.blue, ck.n + cd.n⟩

namespace Chains

def initial (fs : Fragments ι K) : Chains ι K where
  parent id := (fs.byId id).map (·.id)
  chainStart id := (fs.byId id).bind (·.start)
  chainEnd id := (fs.byId id).bind (·.finish)
  colour id := (fs.byId id).map (·.evidence)

/-- The climb visits each fragment at most once. -/
def root (fs : Fragments ι K) (s : Chains ι K) (id : ι) : Option ι :=
  Parents.climb s.parent fs.usable.length id

def compress (s : Chains ι K) (id root : ι) : Chains ι K :=
  { s with parent := Function.update s.parent id (some root) }

def find (fs : Fragments ι K) (s : Chains ι K) (id : ι) : Option (ι × Chains ι K) := do
  let root ← s.root fs id
  return (root, s.compress id root)

def chainAlliance (opts : StitchOptions K) (s : Chains ι K) (root : ι) :
    Option (Option Alliance) := do
  let c ← s.colour root
  return trackletAlliance ⟨c.red / c.n, c.blue / c.n⟩ opts

def join (fs : Fragments ι K) (s : Chains ι K) (link : Link ι K) (ra rb : ι) :
    Option (Chains ι K) := do
  let startA ← (fs.byId ra).bind (·.start)
  let startB ← (fs.byId rb).bind (·.start)
  let keep := if startA ≤ startB then ra else rb
  let drop := if startA ≤ startB then rb else ra
  let ck ← s.colour keep
  let cd ← s.colour drop
  let chainStartA ← s.chainStart ra
  let chainStartB ← s.chainStart rb
  let chainEndA ← s.chainEnd ra
  let chainEndB ← s.chainEnd rb
  return {
    parent := Function.update s.parent drop (some keep)
    chainStart := Function.update s.chainStart keep (some (min chainStartA chainStartB))
    chainEnd := Function.update s.chainEnd keep (some (max chainEndA chainEndB))
    colour := Function.update s.colour keep (some (ck.add cd))
    hasNext := link.fromId :: s.hasNext
    hasPrev := link.toId :: s.hasPrev }

/-- A link between two chains that passed the checks of the times. -/
def joinUnlessOpposed (opts : StitchOptions K) (fs : Fragments ι K) (s : Chains ι K)
    (link : Link ι K) (ra rb : ι) : Option (Chains ι K) := do
  let ca ← s.chainAlliance opts ra
  let cb ← s.chainAlliance opts rb
  if opposed ca cb then return s else s.join fs link ra rb

def follow (opts : StitchOptions K) (fs : Fragments ι K) (s : Chains ι K) (link : Link ι K) :
    Option (Chains ι K) :=
  if link.fromId ∈ s.hasNext ∨ link.toId ∈ s.hasPrev then some s
  else do
    let (ra, s) ← s.find fs link.fromId
    let (rb, s) ← s.find fs link.toId
    if ra = rb then return s
    else if s.chainEnd ra ≠ (fs.byId link.fromId).bind (·.finish) then return s
    else if s.chainStart rb ≠ (fs.byId link.toId).bind (·.start) then return s
    else do
      let chainEnd ← s.chainEnd ra
      let chainStart ← s.chainStart rb
      if chainStart ≤ chainEnd then return s else s.joinUnlessOpposed opts fs link ra rb

def followAll (opts : StitchOptions K) (fs : Fragments ι K) (links : List (Link ι K)) :
    Option (Chains ι K) :=
  links.foldlM (follow opts fs) (initial fs)

end Chains

structure Placed (ι K : Type) where
  robotOf : ι → Option ι := fun _ => none
  chains : Chains ι K

def Placed.place (fs : Fragments ι K) (s : Placed ι K) (t : Tracklet ι K) :
    Option (Placed ι K) :=
  if (fs.byId t.id).isSome then do
    let (robot, chains) ← s.chains.find fs t.id
    return ⟨Function.update s.robotOf t.id (some robot), chains⟩
  else return ⟨Function.update s.robotOf t.id (some t.id), s.chains⟩

def stitchTracklets (hypot : K → K → K) (fs : Fragments ι K) (opts : StitchOptions K) :
    Option (ι → Option ι) := do
  let chains ← Chains.followAll opts fs (fs.links hypot opts)
  let placed ← fs.tracklets.foldlM (Placed.place fs) { chains }
  return placed.robotOf

end Frcmob.OnDevice
