import Frcmob.OnDevice.Homography
import Mathlib.Algebra.Order.Floor.Ring

/-!
The camera's motion between two frames: `findHomographyRansac` of
`features/onDevice/opticalFlowCore.ts` and what it calls, in exact arithmetic.
-/

namespace Frcmob.OnDevice

open Projective

variable {K : Type*} [Field K] [LinearOrder K]

/-! ### The linear solve -/

def clearColumnOrNull {n : Nat} (m : Augmented n K) (col : Fin n) : Option (Augmented n K) :=
  let pivot := pivotRow m col
  if |m pivot col.castSucc| < tiny then none
  else some (eliminate (fun r => m (Equiv.swap col pivot r)) col)

/-- A quotient is finite unless its denominator is zero. -/
def solveLinearOrNull {n : Nat} (a : Matrix (Fin n) (Fin n) K) (b : Fin n → K) :
    Option (Fin n → K) := do
  let m ← (List.finRange n).foldlM clearColumnOrNull fun r => Fin.snoc (a r) (b r)
  if ∀ i, m i i.castSucc ≠ 0 then
    return fun i => m i (Fin.last n) / m i i.castSucc
  else none

/-! ### The least-squares fit -/

/-- `ata` and `atb` -/
structure Normal (K : Type*) where
  ata : Matrix (Fin 8) (Fin 8) K
  atb : Fin 8 → K

def Normal.empty : Normal K where
  ata := 0
  atb := 0

def Normal.addRow (s : Normal K) (row : Fin 8 → K) (rhs : K) : Normal K where
  ata i j := s.ata i j + row i * row j
  atb i := s.atb i + row i * rhs

def Normal.addPoint (s : Normal K) (p q : Point K) : Normal K :=
  (s.addRow ![p.x, p.y, 1, 0, 0, 0, -q.x * p.x, -q.x * p.y] q.x).addRow
    ![0, 0, 0, p.x, p.y, 1, -q.y * p.x, -q.y * p.y] q.y

def homographyFromPoints (src dst : List (Point K)) : Option (Mat3 K) :=
  let n := min src.length dst.length
  if n < 4 then none
  else do
    let s : Normal K := (src.zip dst).foldl (fun s (p, q) => s.addPoint p q) .empty
    let h ← solveLinearOrNull s.ata s.atb
    return !![h 0, h 1, h 2; h 3, h 4, h 5; h 6, h 7, 1]

/-! ### The random numbers -/

section
variable [FloorRing K]

/-- `seed >>> 0 || 1` -/
def makeRng (seed : K) : UInt32 :=
  let s := UInt32.ofInt (if 0 ≤ seed then ⌊seed⌋ else ⌈seed⌉)
  if s = 0 then 1 else s

end

def nextState (s : UInt32) : UInt32 :=
  let s := s ^^^ (s <<< 13)
  let s := s ^^^ (s >>> 17)
  s ^^^ (s <<< 5)

/-- `Math.floor(rng() * n)`, once the state has moved on. -/
def draw (s : UInt32) {n : Nat} (hn : 0 < n) : Fin n where
  val := s.toNat * n / 2 ^ 32
  isLt := Nat.div_lt_of_lt_mul (Nat.mul_lt_mul_of_pos_right s.toNat_lt hn)

/-- The loop that draws until there are four, with `rounds` of its 64 rounds left. -/
def pickFour {n : Nat} (hn : 0 < n) :
    (rounds : Nat) → UInt32 → List (Fin n) → UInt32 × List (Fin n)
  | 0, s, idx => (s, idx)
  | rounds + 1, s, idx =>
      if idx.length < 4 then
        let s := nextState s
        let i := draw s hn
        pickFour hn rounds s (if i ∈ idx then idx else idx ++ [i])
      else (s, idx)

/-! ### The consensus -/

def projectOrNull (h : Mat3 K) (x y : K) : Option (Point K) :=
  let denom := h 2 0 * x + h 2 1 * y + h 2 2
  if |denom| < tiny then none
  else some ⟨(h 0 0 * x + h 0 1 * y + h 0 2) / denom, (h 1 0 * x + h 1 1 * y + h 1 2) / denom⟩

/-- The points of two lists that have both. -/
structure Matched (K : Type*) where
  src : List (Point K)
  dst : List (Point K)

namespace Matched

def n (m : Matched K) : Nat :=
  min m.src.length m.dst.length

def srcAt (m : Matched K) (i : Fin m.n) : Point K :=
  m.src.get ⟨i, lt_of_lt_of_le i.isLt (min_le_left ..)⟩

def dstAt (m : Matched K) (i : Fin m.n) : Point K :=
  m.dst.get ⟨i, lt_of_lt_of_le i.isLt (min_le_right ..)⟩

def inliersFor (m : Matched K) (thresholdSq : K) (h : Mat3 K) : List (Fin m.n) :=
  (List.finRange m.n).filter fun i =>
    match projectOrNull h (m.srcAt i).x (m.srcAt i).y with
    | none => false
    | some p =>
        let dx := p.x - (m.dstAt i).x
        let dy := p.y - (m.dstAt i).y
        dx * dx + dy * dy ≤ thresholdSq

/-- The fit to the points of `idx`. -/
def fit (m : Matched K) (idx : List (Fin m.n)) : Option (Mat3 K) :=
  homographyFromPoints (idx.map m.srcAt) (idx.map m.dstAt)

/-- The loop over `iterations` samples. -/
def bestInliers (m : Matched K) (hn : 0 < m.n) (thresholdSq : K) :
    (iterations : Nat) → UInt32 → List (Fin m.n) → List (Fin m.n)
  | 0, _, best => best
  | iterations + 1, s, best =>
      let (s, pick) := pickFour hn 64 s []
      if pick.length < 4 then m.bestInliers hn thresholdSq iterations s best
      else
        match m.fit pick with
        | none => m.bestInliers hn thresholdSq iterations s best
        | some h =>
            let inliers := m.inliersFor thresholdSq h
            if best.length < inliers.length then
              if inliers.length = m.n then inliers
              else m.bestInliers hn thresholdSq iterations s inliers
            else m.bestInliers hn thresholdSq iterations s best

end Matched

structure RansacOptions (K : Type*) where
  threshold : Option K := none
  iterations : Option K := none
  seed : Option K := none

/-- `iter < iterations` holds `⌈iterations⌉` times. -/
def findHomographyRansac [FloorRing K] (src dst : List (Point K)) (options : RansacOptions K) :
    Option (Mat3 K) :=
  let threshold := options.threshold.getD 3
  let iterations := options.iterations.getD 500
  let m : Matched K := { src, dst }
  if hn : m.n < 4 then none
  else
    let s := makeRng (options.seed.getD 0x5eed)
    let bestInliers := m.bestInliers (by omega) (threshold * threshold) ⌈iterations⌉.toNat s []
    if bestInliers.length < 4 then none
    else m.fit bestInliers

end Frcmob.OnDevice
