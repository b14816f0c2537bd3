import Mathlib.Data.Finset.Sort
import Frcmob.OnDevice.SimpleTracker

/-!
Field positions from tracked detections: `features/onDevice/trackProduction.ts` and the zones of
`fieldZones.ts`, in exact arithmetic. `hypot` is `Math.hypot`.
-/

namespace Frcmob.OnDevice

open Projective

variable {K T : Type} [Field K] [LinearOrder K]

/-! ### Zones -/

structure Zone (K : Type) where
  key : String
  polygon : List (K × K)

def box (x₀ y₀ x₁ y₁ : K) : List (K × K) :=
  [(x₀, y₀), (x₁, y₀), (x₁, y₁), (x₀, y₁)]

instance numeralLength : Nat.AtLeastTwo 16541 := inferInstance
instance numeralWidth : Nat.AtLeastTwo 80693 := inferInstance

/-- `FIELD_ZONES` -/
def fieldZones : List (Zone K) := [
  ⟨"red_alliance_scoring_zone", box (106883 / 10000) (28082 / 10000) (131148 / 10000)
    (52344 / 10000)⟩,
  ⟨"red_loading_depot_zone", box (131374 / 10000) (62659 / 10000) (16541 / 1000)
    (80693 / 10000)⟩,
  ⟨"neutral_transition_zone", box (46632 / 10000) 0 (118781 / 10000) (80693 / 10000)⟩,
  ⟨"red_tower_endgame_zone", box (131374 / 10000) (33726 / 10000) (16541 / 1000)
    (48204 / 10000)⟩,
  ⟨"blue_alliance_scoring_zone", box (33983 / 10000) (28082 / 10000) (58247 / 10000)
    (52344 / 10000)⟩,
  ⟨"blue_loading_depot_zone", box 0 0 (34036 / 10000) (18034 / 10000)⟩,
  ⟨"blue_tower_endgame_zone", box 0 (32222 / 10000) (34036 / 10000) (467 / 100)⟩]

/-- A ray from the point crosses the side from `b` to `a`. -/
def intersects (x y : K) (a b : K × K) : Bool :=
  decide (y < a.2) != decide (y < b.2) &&
    decide (x < (b.1 - a.1) * (y - a.2) / (b.2 - a.2 + tiny) + a.1)

def pointInPolygon (x y : K) (polygon : List (K × K)) : Bool :=
  (polygon.zip (polygon.getLast?.toList ++ polygon.dropLast)).foldl
    (fun inside side => if intersects x y side.1 side.2 then !inside else inside) false

def classifyZone (x y : K) : Option String :=
  (fieldZones.find? fun zone => pointInPolygon x y zone.polygon).map (·.key)

/-! ### Positions -/

structure TrackPoint (K : Type) where
  timeSec : K
  fieldX : K
  fieldY : K
  zoneKey : Option String
  speedMps : Option K
deriving DecidableEq

structure Frame (K T : Type) where
  timeSec : K
  homography : Option (Mat3 K)
  detections : List (Detection K T)

/-- An option that may be `null` is `some none` then. -/
structure ProduceOptions (K : Type) where
  minDetectionConfidence : Option K := none
  maxPoseStalenessSec : Option (Option K) := none
  maxSpeedMps : Option (Option K) := none
  smoothWindow : Option Nat := none

namespace ProduceOptions

def minConf (opts : ProduceOptions K) : K :=
  opts.minDetectionConfidence.getD 0

def maxStale (opts : ProduceOptions K) : Option K :=
  opts.maxPoseStalenessSec.getD (some (1 / 2))

def maxSpeed (opts : ProduceOptions K) : Option K :=
  opts.maxSpeedMps.getD (some 6)

def window (opts : ProduceOptions K) : Nat :=
  opts.smoothWindow.getD 3

end ProduceOptions

/-- `MAX_SPEED_DT_SEC` -/
def maxSpeedDtSec : K :=
  1

def median (values : List K) : K :=
  let s := values.insertionSort (· ≤ ·)
  let m := s.length / 2
  if s.length % 2 = 1 then s.getD m 0 else (s.getD (m - 1) 0 + s.getD m 0) / 2

namespace TrackPoint

def dist (hypot : K → K → K) (a b : TrackPoint K) : K :=
  hypot (b.fieldX - a.fieldX) (b.fieldY - a.fieldY)

/-- `curr` is a glitch between `prev` and `next`. -/
def spike (hypot : K → K → K) (maxSpeedMps : K) (prev curr next : TrackPoint K) : Bool :=
  let dtIn := curr.timeSec - prev.timeSec
  let dtOut := next.timeSec - curr.timeSec
  let dtSpan := next.timeSec - prev.timeSec
  decide (0 < dtIn) && decide (0 < dtOut) && decide (0 < dtSpan) &&
    decide (maxSpeedMps < prev.dist hypot curr / dtIn) &&
    decide (maxSpeedMps < curr.dist hypot next / dtOut) &&
    decide (prev.dist hypot next / dtSpan ≤ maxSpeedMps)

def byTime (points : List (TrackPoint K)) : List (TrackPoint K) :=
  points.insertionSort fun a b => a.timeSec ≤ b.timeSec

end TrackPoint

/-- The points after `prev`, the last one kept. -/
def keptAfter (hypot : K → K → K) (maxSpeedMps : K) :
    (prev : TrackPoint K) → List (TrackPoint K) → List (TrackPoint K)
  | _, [] => []
  | _, [last] => [last]
  | prev, curr :: next :: rest =>
      if prev.spike hypot maxSpeedMps curr next then keptAfter hypot maxSpeedMps prev (next :: rest)
      else curr :: keptAfter hypot maxSpeedMps curr (next :: rest)

def rejectVelocitySpikes (hypot : K → K → K) (maxSpeedMps : K) :
    List (TrackPoint K) → List (TrackPoint K)
  | first :: second :: third :: rest =>
      first :: keptAfter hypot maxSpeedMps first (second :: third :: rest)
  | points => points

/-- Each position is the median of those around it. -/
def medianSmooth (window : Nat) (points : List (TrackPoint K)) : List (TrackPoint K) :=
  if window < 3 ∨ points.length < 3 then points
  else
    let half := window / 2
    points.mapIdx fun i p =>
      let around := (points.take (i + half + 1)).drop (i - half)
      let x := median (around.map (·.fieldX))
      let y := median (around.map (·.fieldY))
      { p with fieldX := x, fieldY := y, zoneKey := classifyZone x y }

def speedsAfter (hypot : K → K → K) :
    (prev : TrackPoint K) → List (TrackPoint K) → List (TrackPoint K)
  | _, [] => []
  | prev, p :: rest =>
      let dt := p.timeSec - prev.timeSec
      (if dt ≤ 0 ∨ maxSpeedDtSec < dt then p
        else { p with speedMps := some (prev.dist hypot p / dt) }) :: speedsAfter hypot p rest

def fillSpeeds (hypot : K → K → K) (points : List (TrackPoint K)) : List (TrackPoint K) :=
  match TrackPoint.byTime points with
  | [] => []
  | first :: rest => first :: speedsAfter hypot first rest

/-! ### Tracks -/

/-- A record of points by track; its keys are in ascending order. -/
structure ByTrack (K : Type) where
  ids : Finset Nat := ∅
  points : Nat → List (TrackPoint K) := fun _ => []

def ByTrack.push (b : ByTrack K) (id : Nat) (p : TrackPoint K) : ByTrack K where
  ids := insert id b.ids
  points := Function.update b.points id (b.points id ++ [p])

/-- The last homography with its time, and the points so far. -/
structure Produced (K : Type) where
  lastH : Option (Mat3 K × K) := none
  byTrack : ByTrack K := {}

def Produced.detect (opts : ProduceOptions K) (h : Mat3 K) (timeSec : K) (b : ByTrack K)
    (det : Detection K T) : ByTrack K :=
  if det.confidence.getD 1 < opts.minConf then b
  else
    match projectPoint h (floorContact det.bbox).x (floorContact det.bbox).y with
    | .error _ => b
    | .ok p => b.push det.trackId ⟨timeSec, p.x, p.y, classifyZone p.x p.y, none⟩

/-- The homography of a frame: its own, or the last one while that is not too old. -/
def Produced.pose (opts : ProduceOptions K) (s : Produced K) (frame : Frame K T) :
    Option (Mat3 K) :=
  match frame.homography, opts.maxStale, s.lastH with
  | some h, _, _ => some h
  | none, some maxStale, some (h, lastTime) =>
      if frame.timeSec - lastTime ≤ maxStale then some h else none
  | none, _, _ => none

def Produced.frame (opts : ProduceOptions K) (s : Produced K) (frame : Frame K T) : Produced K :=
  match s.pose opts frame with
  | none => s
  | some h => {
      lastH := (frame.homography.map fun own => (own, frame.timeSec)).or s.lastH
      byTrack := frame.detections.foldl (Produced.detect opts h frame.timeSec) s.byTrack }

/-- What becomes of the points of a track. -/
def finishTrack (hypot : K → K → K) (opts : ProduceOptions K) (points : List (TrackPoint K)) :
    List (TrackPoint K) :=
  let pts := TrackPoint.byTime points
  let pts := match opts.maxSpeed with
    | none => pts
    | some maxSpeed => rejectVelocitySpikes hypot maxSpeed pts
  fillSpeeds hypot (medianSmooth opts.window pts)

def produceTrackPoints (hypot : K → K → K) (frames : List (Frame K T)) (opts : ProduceOptions K) :
    ByTrack K :=
  let produced := ((frames.insertionSort fun a b => a.timeSec ≤ b.timeSec).foldl
    (Produced.frame opts) {}).byTrack
  { produced with points := fun id => finishTrack hypot opts (produced.points id) }

/-! ### The times of a track -/

variable (hypot : K → K → K) (opts : ProduceOptions K)

def times (points : List (TrackPoint K)) : List K :=
  points.map (·.timeSec)

omit [Field K] in
theorem byTime_of_pairwise {points : List (TrackPoint K)}
    (h : points.Pairwise fun a b => a.timeSec ≤ b.timeSec) : TrackPoint.byTime points = points :=
  h.insertionSort_eq

theorem keptAfter_sublist (maxSpeedMps : K) (prev : TrackPoint K) (points : List (TrackPoint K)) :
    (keptAfter hypot maxSpeedMps prev points).Sublist points := by
  fun_induction keptAfter hypot maxSpeedMps prev points with
  | case1 => exact List.Sublist.refl _
  | case2 => exact List.Sublist.refl _
  | case3 prev curr next rest _ ih => exact ih.cons curr
  | case4 prev curr next rest _ ih => exact ih.cons_cons curr

theorem rejectVelocitySpikes_sublist (maxSpeedMps : K) (points : List (TrackPoint K)) :
    (rejectVelocitySpikes hypot maxSpeedMps points).Sublist points := by
  rw [rejectVelocitySpikes.eq_def]
  split
  · exact (keptAfter_sublist hypot _ _ _).cons_cons _
  · exact List.Sublist.refl _

theorem times_medianSmooth (window : Nat) (points : List (TrackPoint K)) :
    times (medianSmooth window points) = times points := by
  rw [medianSmooth]
  split
  · rfl
  · refine List.ext_getElem (by simp [times]) fun i hi hi' => ?_
    simp [times]

theorem times_speedsAfter (prev : TrackPoint K) (points : List (TrackPoint K)) :
    times (speedsAfter hypot prev points) = times points := by
  induction points generalizing prev with
  | nil => rfl
  | cons p rest ih =>
      rw [speedsAfter, times, List.map_cons, ← times, ih]
      simp only [times, List.map_cons, List.cons.injEq, and_true]
      split <;> rfl

theorem times_fillSpeeds (points : List (TrackPoint K)) :
    times (fillSpeeds hypot points) = times (TrackPoint.byTime points) := by
  rw [fillSpeeds]
  split
  · rename_i hnil
    rw [hnil]
  · rename_i first rest hcons
    rw [hcons, times, List.map_cons, ← times, times_speedsAfter]
    rfl

/-- Smoothing and speeds leave the times of points in order. -/
theorem times_smoothed (window : Nat) {points : List (TrackPoint K)}
    (h : points.Pairwise fun a b => a.timeSec ≤ b.timeSec) :
    times (fillSpeeds hypot (medianSmooth window points)) = times points := by
  have hle : (times (medianSmooth window points)).Pairwise (· ≤ ·) := by
    rw [times_medianSmooth]
    exact List.pairwise_map.mpr h
  rw [times_fillSpeeds, byTime_of_pairwise (List.pairwise_map.mp hle), times_medianSmooth]

/-- Whatever came in, the points of a track go out in order. -/
theorem ordered_produceTrackPoints (frames : List (Frame K T)) (id : Nat) :
    ((produceTrackPoints hypot frames opts).points id).Pairwise
      fun a b => a.timeSec ≤ b.timeSec := by
  have hle : ∀ points : List (TrackPoint K),
      (times (fillSpeeds hypot points)).Pairwise (· ≤ ·) := by
    intro points
    rw [times_fillSpeeds]
    exact List.pairwise_map.mpr (List.pairwise_insertionSort _ points)
  exact List.pairwise_map.mp (hle _)

/-- A track whose points come in order keeps some of its times. -/
theorem times_finishTrack {points : List (TrackPoint K)}
    (h : points.Pairwise fun a b => a.timeSec ≤ b.timeSec) :
    (times (finishTrack hypot opts points)).Sublist (times points) := by
  rw [finishTrack, byTime_of_pairwise h]
  cases opts.maxSpeed with
  | none =>
      simp only
      rw [times_smoothed hypot _ h]
  | some maxSpeed =>
      have hkept := rejectVelocitySpikes_sublist hypot maxSpeed points
      simp only
      rw [times_smoothed hypot _ (h.sublist hkept)]
      exact hkept.map _

/-- When the detections of a track were made. -/
def detectionTimes (frames : List (Frame K T)) (id : Nat) : List K :=
  frames.flatMap fun frame => (frame.detections.filter (·.trackId = id)).map fun _ => frame.timeSec

theorem times_detect (h : Mat3 K) (timeSec : K) (detections : List (Detection K T))
    (b : ByTrack K) (id : Nat) : ∃ added,
    times ((detections.foldl (Produced.detect opts h timeSec) b).points id) =
      times (b.points id) ++ added ∧
    added.Sublist ((detections.filter (·.trackId = id)).map fun _ => timeSec) := by
  induction detections generalizing b with
  | nil => exact ⟨[], (List.append_nil _).symm, List.Sublist.refl _⟩
  | cons det rest ih =>
      obtain ⟨added, heq, hadded⟩ := ih (Produced.detect opts h timeSec b det)
      have hone : ∃ one, times ((Produced.detect opts h timeSec b det).points id) =
          times (b.points id) ++ one ∧
          one.Sublist (([det].filter (·.trackId = id)).map fun _ => timeSec) := by
        rw [Produced.detect]
        split
        · exact ⟨[], (List.append_nil _).symm, List.nil_sublist _⟩
        · split
          · exact ⟨[], (List.append_nil _).symm, List.nil_sublist _⟩
          · rename_i p _
            by_cases hid : det.trackId = id
            · refine ⟨[timeSec], ?_, by simp [hid]⟩
              simp [ByTrack.push, times, ← hid]
            · refine ⟨[], ?_, List.nil_sublist _⟩
              simp [ByTrack.push, times, Function.update_of_ne (Ne.symm hid)]
      obtain ⟨one, hone, hsub⟩ := hone
      refine ⟨one ++ added, ?_, ?_⟩
      · rw [List.foldl_cons, heq, hone, List.append_assoc]
      · rw [← List.singleton_append, List.filter_append, List.map_append]
        exact hsub.append hadded

theorem times_frames (frames : List (Frame K T)) (id : Nat) :
    (times ((frames.foldl (Produced.frame opts) {}).byTrack.points id)).Sublist
      (detectionTimes frames id) := by
  induction frames using List.reverseRecOn with
  | nil => exact List.Sublist.refl _
  | append_singleton frames frame ih =>
      rw [List.foldl_append, detectionTimes, List.flatMap_append, ← detectionTimes,
        List.foldl_cons, List.foldl_nil, Produced.frame]
      split
      · exact ih.trans (List.sublist_append_left _ _)
      · rename_i h _
        obtain ⟨added, heq, hadded⟩ := times_detect opts h frame.timeSec frame.detections
          (frames.foldl (Produced.frame opts) {}).byTrack id
        rw [heq, List.flatMap_singleton]
        exact ih.append hadded

/-- Of frames in order, a track detected at most once at a time has its points in order, each at
the time of one of its detections. -/
theorem times_produceTrackPoints {frames : List (Frame K T)} {id : Nat}
    (hframes : frames.Pairwise fun a b => a.timeSec ≤ b.timeSec)
    (h : (detectionTimes frames id).Pairwise (· < ·)) :
    (times ((produceTrackPoints hypot frames opts).points id)).Sublist
      (detectionTimes frames id) := by
  have hloop := times_frames opts frames id
  rw [produceTrackPoints, hframes.insertionSort_eq]
  have hordered : ((frames.foldl (Produced.frame opts) {}).byTrack.points id).Pairwise
      fun a b => a.timeSec ≤ b.timeSec :=
    List.pairwise_map.mp ((h.sublist hloop).imp fun hab => le_of_lt hab)
  exact (times_finishTrack hypot opts hordered).trans hloop

end Frcmob.OnDevice
