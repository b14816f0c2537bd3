import Frcmob.Lib.Elimination
import Frcmob.Lib.Projective
import Mathlib.Algebra.Order.Field.Basic
import Mathlib.Data.List.FinRange
import Mathlib.Order.WithBot

/-!
Field calibration on the device: `features/onDevice/homography.ts` in exact arithmetic. An error
is its message.
-/

namespace Frcmob.OnDevice

open Projective

variable {K : Type*} [Field K] [LinearOrder K]

/-- `1e-12` -/
def tiny : K :=
  1 / 10 ^ 12

abbrev Mat3 (K : Type*) := Matrix (Fin 3) (Fin 3) K

structure Calibration (K : Type*) where
  homography : Mat3 K
  inverse : Mat3 K
  rmseM : WithTop K
deriving DecidableEq

/-! ### The linear solve -/

abbrev Augmented (n : Nat) (K : Type*) := Matrix (Fin n) (Fin (n + 1)) K

/-- The row of the column's largest entry from the diagonal on, the first of them. -/
def pivotRow {n : Nat} (m : Augmented n K) (col : Fin n) : Fin n :=
  ((List.finRange n).filter fun r => col < r).foldl
    (fun pivot r => if |m pivot col.castSucc| < |m r col.castSucc| then r else pivot) col

/-- The loop over the other rows; entries left of the column are not touched. -/
def eliminate {n : Nat} (m : Augmented n K) (col : Fin n) : Augmented n K := fun r c =>
  if r = col ∨ c < col.castSucc then m r c
  else m r c - m r col.castSucc / m col col.castSucc * m col c

def clearColumn {n : Nat} (m : Augmented n K) (col : Fin n) : Except String (Augmented n K) :=
  let pivot := pivotRow m col
  if |m pivot col.castSucc| < tiny then .error "degenerate calibration (collinear taps?)"
  else .ok (eliminate (fun r => m (Equiv.swap col pivot r)) col)

def solveLinear {n : Nat} (a : Matrix (Fin n) (Fin n) K) (b : Fin n → K) :
    Except String (Fin n → K) := do
  let m ← (List.finRange n).foldlM clearColumn fun r => Fin.snoc (a r) (b r)
  return fun i => m i (Fin.last n) / m i i.castSucc

/-! ### Homographies -/

/-- The rows that the loop pushes, two for each correspondence. -/
def equations (src dst : Fin 4 → Point K) : Matrix (Fin 8) (Fin 8) K := fun r =>
  let i : Fin 4 := ⟨r.val / 2, by omega⟩
  if r.val % 2 = 0 then
    ![(src i).x, (src i).y, 1, 0, 0, 0, -(dst i).x * (src i).x, -(dst i).x * (src i).y]
  else ![0, 0, 0, (src i).x, (src i).y, 1, -(dst i).y * (src i).x, -(dst i).y * (src i).y]

def targets (dst : Fin 4 → Point K) : Fin 8 → K := fun r =>
  let i : Fin 4 := ⟨r.val / 2, by omega⟩
  if r.val % 2 = 0 then (dst i).x else (dst i).y

def homographyFrom4 (src dst : Fin 4 → Point K) : Except String (Mat3 K) := do
  let h ← solveLinear (equations src dst) (targets dst)
  return !![h 0, h 1, h 2; h 3, h 4, h 5; h 6, h 7, 1]

def projectPoint (h : Mat3 K) (x y : K) : Except String (Point K) :=
  let denom := h 2 0 * x + h 2 1 * y + h 2 2
  if |denom| < tiny then .error "point projects to infinity"
  else .ok ⟨(h 0 0 * x + h 0 1 * y + h 0 2) / denom, (h 1 0 * x + h 1 1 * y + h 1 2) / denom⟩

def invert3 (m : Mat3 K) : Except String (Mat3 K) :=
  let a := m 0 0
  let b := m 0 1
  let c := m 0 2
  let d := m 1 0
  let e := m 1 1
  let f := m 1 2
  let g := m 2 0
  let h := m 2 1
  let i := m 2 2
  let det := a * (e * i - f * h) - b * (d * i - f * g) + c * (d * h - e * g)
  if |det| < tiny then .error "singular homography"
  else
    let inv : Mat3 K :=
      !![e * i - f * h, c * h - b * i, b * f - c * e;
        f * g - d * i, a * i - c * g, c * d - a * f;
        d * h - e * g, b * g - a * h, a * e - b * d]
    .ok (inv.map (· / det))

/-- The sum of the squared distances to the corners. -/
def squaredErrors (h : Mat3 K) : List (Point K × Point K) → Except String K
  | pairs => pairs.foldlM (fun sum pair => do
      let p ← projectPoint h pair.1.x pair.1.y
      return sum + ((p.x - pair.2.x) ^ 2 + (p.y - pair.2.y) ^ 2)) 0

/-- `sqrt` is `Math.sqrt`. -/
def reprojectionRmse (sqrt : K → K) (h : Mat3 K) (src dst : List (Point K)) :
    Except String (WithTop K) :=
  if src.length = 0 then .ok ⊤
  else do
    let sum ← squaredErrors h (src.zip dst)
    return ↑(sqrt (sum / src.length))

def mat3mul (a b : Mat3 K) : Mat3 K := fun i j =>
  a i 0 * b 0 j + a i 1 * b 1 j + a i 2 * b 2 j

def carryPose (imageToField interframeMotion : Mat3 K) : Except String (Mat3 K) := do
  let inverse ← invert3 interframeMotion
  return mat3mul imageToField inverse

def fieldReferenceCorners (lengthM widthM : K) : List (Point K) :=
  [⟨0, 0⟩, ⟨lengthM, 0⟩, ⟨lengthM, widthM⟩, ⟨0, widthM⟩]

def calibrateFromTaps (sqrt : K → K) (imagePoints fieldPoints : List (Point K)) :
    Except String (Calibration K) :=
  if hlength : imagePoints.length ≠ fieldPoints.length then
    .error "imagePoints and fieldPoints must be the same length"
  else if hfour : imagePoints.length ≠ 4 then
    .error ("need exactly 4 taps, got " ++ toString imagePoints.length)
  else do
    let homography ← homographyFrom4 (fun i => imagePoints.get (i.cast (by omega)))
      (fun i => fieldPoints.get (i.cast (by omega)))
    let inverse ← invert3 homography
    let rmseM ← reprojectionRmse sqrt homography imagePoints fieldPoints
    return { homography, inverse, rmseM }

end Frcmob.OnDevice
