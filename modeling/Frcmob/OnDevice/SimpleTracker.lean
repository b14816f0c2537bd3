import Frcmob.OnDevice.Homography
import Frcmob.OnDevice.TrackStitching

/-!
Frame-to-frame association: `features/onDevice/simpleTracker.ts` in exact arithmetic. `hypot` is
`Math.hypot`, and a photo is any value.
-/

namespace Frcmob.OnDevice

open Projective

variable {K T : Type} [Field K] [LinearOrder K]

/-- `FIELD_LENGTH_M` -/
def fieldLengthM : K :=
  16541 / 1000

/-- `FIELD_WIDTH_M` -/
def fieldWidthM : K :=
  80693 / 10000

structure Bbox (K : Type) where
  x1 : K
  y1 : K
  x2 : K
  y2 : K
deriving DecidableEq

structure RawDetection (K T : Type) where
  bbox : Bbox K
  confidence : Option K := none
  colour : Option (BumperColour K) := none
  thumb : Option T := none

structure RawFrame (K T : Type) where
  timeSec : K
  homography : Option (Mat3 K)
  detections : List (RawDetection K T)

structure Detection (K T : Type) extends RawDetection K T where
  trackId : Nat

structure TrackedFrame (K T : Type) where
  timeSec : K
  detections : List (Detection K T)

structure TrackerOptions (K : Type) where
  maxSpeedMps : Option K := none
  positionToleranceM : Option K := none
  maxGapSec : Option K := none

namespace TrackerOptions

def maxSpeed (opts : TrackerOptions K) : K :=
  opts.maxSpeedMps.getD (9 / 2)

def positionTolerance (opts : TrackerOptions K) : K :=
  opts.positionToleranceM.getD (3 / 4)

def maxGap (opts : TrackerOptions K) : K :=
  opts.maxGapSec.getD 1

end TrackerOptions

def floorContact (bbox : Bbox K) : Point K :=
  ⟨(bbox.x1 + bbox.x2) / 2, bbox.y2⟩

def dist (hypot : K → K → K) (a b : Point K) : K :=
  hypot (a.x - b.x) (a.y - b.y)

/-- Where a box stands on the field; `none` off the field and without a calibration. -/
def contact (homography : Option (Mat3 K)) (bbox : Bbox K) : Option (Point K) :=
  match homography with
  | none => none
  | some h =>
      match projectPoint h (floorContact bbox).x (floorContact bbox).y with
      | .error _ => none
      | .ok field =>
          if field.x < -(1 / 2) ∨ fieldLengthM + 1 / 2 < field.x ∨
              field.y < -(1 / 2) ∨ fieldWidthM + 1 / 2 < field.y then none
          else some field

structure Active (K : Type) where
  id : Nat
  field : Point K
  lastTime : K
  red : K
  blue : K
  colourN : Nat

/-- The colour of the track so far. -/
def Active.prior (t : Active K) : Option Alliance :=
  trackletAlliance ⟨t.red / max 1 t.colourN, t.blue / max 1 t.colourN⟩ {}

def Active.seen (t : Active K) (field : Point K) (timeSec : K) :
    Option (BumperColour K) → Active K
  | none => { t with field, lastTime := timeSec }
  | some colour => { t with
      field, lastTime := timeSec
      red := t.red + colour.red
      blue := t.blue + colour.blue
      colourN := t.colourN + 1 }

/-! ### One frame

`n` detections meet `m` active tracks. -/

section Frame

variable {n m : Nat}

structure Pair (K : Type) (n m : Nat) where
  di : Fin n
  ti : Fin m
  d : K

/-- The pairs in order of their distance, as the loops push them. -/
def pairs (hypot : K → K → K) (opts : TrackerOptions K) (timeSec : K)
    (detections : Fin n → RawDetection K T) (contacts : Fin n → Option (Point K))
    (active : Fin m → Active K) : List (Pair K n m) :=
  ((List.finRange n).flatMap fun di =>
    match contacts di with
    | none => []
    | some c => (List.finRange m).filterMap fun ti =>
        let t := active ti
        let elapsed := timeSec - t.lastTime
        let d := dist hypot c t.field
        let current := (detections di).colour.bind fun colour => trackletAlliance colour {}
        if opposed t.prior current then none
        else if 0 < elapsed ∧ d ≤ opts.positionTolerance + opts.maxSpeed * elapsed then
          some ⟨di, ti, d⟩
        else none).insertionSort fun a b => a.d ≤ b.d

structure Claims (K : Type) (n m : Nat) where
  detTaken : List (Fin n) := []
  trackTaken : List (Fin m) := []
  assigned : Fin n → Option Nat := fun _ => none
  active : Fin m → Active K

local instance lawfulBEq_fin (n : Nat) : LawfulBEq (Fin n) := inferInstance

/-- A pair takes its detection and its track where both are free; it has a contact. -/
def Claims.claim (timeSec : K) (detections : Fin n → RawDetection K T)
    (contacts : Fin n → Option (Point K)) (s : Claims K n m) (p : Pair K n m) : Claims K n m :=
  if p.di ∈ s.detTaken ∨ p.ti ∈ s.trackTaken then s
  else
    match contacts p.di with
    | none => s
    | some field => {
        detTaken := p.di :: s.detTaken
        trackTaken := p.ti :: s.trackTaken
        assigned := Function.update s.assigned p.di (some (s.active p.ti).id)
        active := Function.update s.active p.ti
          ((s.active p.ti).seen field timeSec (detections p.di).colour) }

structure Emitted (K T : Type) where
  active : List (Active K)
  nextId : Nat
  detections : List (Detection K T) := []

/-- A detection with a contact goes out under its track's id, or under a new one. -/
def Emitted.emit (timeSec : K) (detections : Fin n → RawDetection K T)
    (contacts : Fin n → Option (Point K)) (assigned : Fin n → Option Nat) (s : Emitted K T)
    (di : Fin n) : Emitted K T :=
  let d := detections di
  match contacts di with
  | none => s
  | some field =>
      match assigned di with
      | some id => { s with detections := s.detections ++ [⟨d, id⟩] }
      | none => {
          active := s.active ++ [{
            id := s.nextId, field, lastTime := timeSec
            red := (d.colour.map (·.red)).getD 0
            blue := (d.colour.map (·.blue)).getD 0
            colourN := if d.colour.isSome then 1 else 0 }]
          nextId := s.nextId + 1
          detections := s.detections ++ [⟨d, s.nextId⟩] }

end Frame

structure Tracker (K T : Type) where
  active : List (Active K) := []
  nextId : Nat := 0
  out : List (TrackedFrame K T) := []

def Tracker.frame (hypot : K → K → K) (opts : TrackerOptions K) (s : Tracker K T)
    (frame : RawFrame K T) : Tracker K T :=
  let active := s.active.filter fun t => frame.timeSec - t.lastTime ≤ opts.maxGap
  let detections := frame.detections.get
  let contacts := fun di => contact frame.homography (detections di).bbox
  let claims := (pairs hypot opts frame.timeSec detections contacts active.get).foldl
    (Claims.claim frame.timeSec detections contacts) { active := active.get }
  let emitted := (List.finRange frame.detections.length).foldl
    (Emitted.emit frame.timeSec detections contacts claims.assigned)
    { active := List.ofFn claims.active, nextId := s.nextId }
  { active := emitted.active
    nextId := emitted.nextId
    out := s.out ++ [⟨frame.timeSec, emitted.detections⟩] }

def byTime (frames : List (RawFrame K T)) : List (RawFrame K T) :=
  frames.insertionSort fun a b => a.timeSec ≤ b.timeSec

def assignTrackIds (hypot : K → K → K) (frames : List (RawFrame K T)) (opts : TrackerOptions K) :
    List (TrackedFrame K T) :=
  ((byTime frames).foldl (Tracker.frame hypot opts) {}).out

end Frcmob.OnDevice
