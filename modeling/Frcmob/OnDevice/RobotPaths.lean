import Frcmob.Lib.Grouping
import Frcmob.OnDevice.PossibleRobots
import Frcmob.OnDevice.Sightings
import Frcmob.OnDevice.TrackProduction

/-!
Captured frames to one path for each robot: `features/onDevice/robotPaths.ts`, which runs the
tracker, the field projection and the stitcher one after the other.
-/

namespace Frcmob.OnDevice

open Grouping (group)

variable {K T : Type} [Field K] [LinearOrder K]

/-- `stitch: false`, or the options of the stitcher. -/
inductive Stitching (K : Type) where
  | off
  | on (opts : StitchOptions K)

def Stitching.opts : Stitching K → StitchOptions K
  | off => {}
  | on opts => opts

structure RobotPathOptions (K : Type) where
  minPoints : Option Nat := none
  stitch : Stitching K := .on {}
  tracker : TrackerOptions K := {}

structure RobotPath (K T : Type) where
  pathId : Nat
  points : List (TrackPoint K)
  alliance : Option Alliance
  redShare : K
  blueShare : K
  fragments : Nat
  thumb : Option T

/-- `homographyAt`: of frames of one time the last one's. -/
def homographyAt (rawFrames : List (RawFrame K T)) (timeSec : K) : Option (Mat3 K) :=
  (rawFrames.reverse.find? fun f => f.timeSec = timeSec).bind (·.homography)

def toFrames (rawFrames : List (RawFrame K T)) (tracked : List (TrackedFrame K T)) :
    List (Frame K T) :=
  tracked.map fun tf => ⟨tf.timeSec, homographyAt rawFrames tf.timeSec, tf.detections⟩

/-- The mean bumper colour of a track. -/
def colourOf (tracked : List (TrackedFrame K T)) (id : Nat) : BumperColour K :=
  let seen := (tracked.flatMap (·.detections)).filterMap fun d =>
    if d.trackId = id then d.colour else none
  if seen.length = 0 then ⟨0, 0⟩
  else ⟨(seen.map (·.red)).foldl (· + ·) 0 / seen.length,
    (seen.map (·.blue)).foldl (· + ·) 0 / seen.length⟩

structure Thumb (K T : Type) where
  thumb : T
  score : K

def better (best : Option (Thumb K T)) (thumb : Thumb K T) : Option (Thumb K T) :=
  match best with
  | none => some thumb
  | some b => if b.score < thumb.score then some thumb else some b

/-- The biggest, most confident photo of a track. -/
def bestThumb (tracked : List (TrackedFrame K T)) (id : Nat) : Option (Thumb K T) :=
  ((tracked.flatMap (·.detections)).filterMap fun d =>
    if d.trackId = id then d.thumb.map fun thumb =>
      ⟨thumb, (d.bbox.x2 - d.bbox.x1) * (d.bbox.y2 - d.bbox.y1) * d.confidence.getD 1⟩
    else none).foldl better none

/-- A robot's fragments so far. -/
structure PathEntry (K T : Type) where
  points : List (TrackPoint K) := []
  red : K
  blue : K
  n : Nat := 0
  fragments : Nat := 0
  thumb : Option (Thumb K T) := none

def PathEntry.add (tracked : List (TrackedFrame K T)) (produced : ByTrack K)
    (entry : PathEntry K T) (id : Nat) : PathEntry K T :=
  let pts := produced.points id
  let c := colourOf tracked id
  { points := entry.points ++ pts
    red := entry.red + c.red * pts.length
    blue := entry.blue + c.blue * pts.length
    n := entry.n + pts.length
    fragments := entry.fragments + 1
    thumb := match bestThumb tracked id with
      | none => entry.thumb
      | some thumb => better entry.thumb thumb }

def PathEntry.path (opts : StitchOptions K) (pathId : Nat) (e : PathEntry K T) :
    RobotPath K T where
  pathId := pathId
  points := TrackPoint.byTime e.points
  alliance := if e.n = 0 then none else trackletAlliance ⟨e.red / e.n, e.blue / e.n⟩ opts
  redShare := if e.n = 0 then 0 else e.red / e.n
  blueShare := if e.n = 0 then 0 else e.blue / e.n
  fragments := e.fragments
  thumb := e.thumb.map (·.thumb)

section Build
variable (hypot : K → K → K) (rawFrames : List (RawFrame K T)) (opts : RobotPathOptions K)

def trackedFrames : List (TrackedFrame K T) :=
  assignTrackIds hypot rawFrames opts.tracker

def producedPoints : ByTrack K :=
  produceTrackPoints hypot (toFrames rawFrames (trackedFrames hypot rawFrames opts)) {}

/-- The tracks, in ascending order. -/
def trackIds : List Nat :=
  (producedPoints hypot rawFrames opts).ids.sort

/-- A track as the stitcher sees it. -/
def trackletOf (id : Nat) : Tracklet Nat K where
  toBumperColour := colourOf (trackedFrames hypot rawFrames opts) id
  id := id
  points := ((producedPoints hypot rawFrames opts).points id).map fun p =>
    ⟨p.timeSec, p.fieldX, p.fieldY⟩
  ordered := List.pairwise_map.mpr (ordered_produceTrackPoints ..)

def trackletsOf : Fragments Nat K where
  tracklets := (trackIds hypot rawFrames opts).map (trackletOf hypot rawFrames opts)
  distinct := by
    rw [List.map_map, show (fun t : Tracklet Nat K => t.id) ∘ trackletOf hypot rawFrames opts = id
      from rfl, List.map_id]
    exact Finset.sort_nodup _ _

/-- The robot of each track, where the stitcher ends. -/
def robotOf : Option (Nat → Nat) :=
  match opts.stitch with
  | .off => some id
  | .on stitch => (stitchTracklets hypot (trackletsOf hypot rawFrames opts) stitch).map
      fun robots id => (robots id).getD id

def pathEntries (robot : Nat → Nat) : List (Nat × PathEntry K T) :=
  (group robot id (trackIds hypot rawFrames opts)).map fun g =>
    (g.1, g.2.foldl (PathEntry.add (trackedFrames hypot rawFrames opts)
      (producedPoints hypot rawFrames opts)) { red := 0, blue := 0 })

def buildRobotPaths : Option (List (RobotPath K T)) :=
  (robotOf hypot rawFrames opts).map fun robot =>
    (((pathEntries hypot rawFrames opts robot).filter fun e =>
      opts.minPoints.getD 3 ≤ e.2.points.length).map fun e =>
        e.2.path opts.stitch.opts e.1).insertionSort
          fun a b => b.points.length ≤ a.points.length

end Build

/-! ### The detections of a track -/

section Times
variable {hypot : K → K → K} {frames : List (RawFrame K T)} {out : List (TrackedFrame K T)}

theorem times_sightingsIn {raw : RawFrame K T} {tracked : TrackedFrame K T}
    (h : FrameTracked raw tracked) (id : Nat) :
    (sightingsIn raw tracked id).map (·.timeSec) =
      (tracked.detections.filter (·.trackId = id)).map fun _ => tracked.timeSec := by
  have hfield : ∀ d ∈ tracked.detections, inField raw d.toRawDetection = true := by
    intro d hd
    have hmem : d.toRawDetection ∈ tracked.detections.map (·.toRawDetection) :=
      List.mem_map_of_mem hd
    rw [h.detections] at hmem
    exact (List.mem_filter.mp hmem).2
  rw [sightingsIn, List.map_filterMap]
  generalize tracked.detections = ds at hfield
  induction ds with
  | nil => rfl
  | cons d rest ih =>
      have hrest := ih fun e he => hfield e (List.mem_cons_of_mem _ he)
      obtain ⟨c, hc⟩ := Option.isSome_iff_exists.mp (hfield d List.mem_cons_self)
      by_cases hid : d.trackId = id
      · rw [List.filterMap_cons_some (b := tracked.timeSec) (by simp [hid, hc]), hrest,
          List.filter_cons_of_pos (by simp [hid]), List.map_cons]
      · rw [List.filterMap_cons_none (by simp [hid]), hrest,
          List.filter_cons_of_neg (by simp [hid])]

theorem detectionTimes_eq (rawFrames : List (RawFrame K T))
    (h : List.Forall₂ FrameTracked frames out) (id : Nat) : detectionTimes (toFrames rawFrames out) id =
      (sightings frames out id).map (·.timeSec) := by
  induction h with
  | nil => rfl
  | @cons raw tracked frames out hone _ ih =>
      have hsplit : sightings (raw :: frames) (tracked :: out) id =
          sightingsIn raw tracked id ++ sightings frames out id := rfl
      rw [hsplit, List.map_append, times_sightingsIn hone, ← ih]
      rfl

variable [IsStrictOrderedRing K] (rawFrames : List (RawFrame K T)) (opts : RobotPathOptions K)

theorem detectionTimes_lt (id : Nat) :
    (detectionTimes (toFrames rawFrames (trackedFrames hypot rawFrames opts)) id).Pairwise
      (· < ·) := by
  have hrun := Tracked.run hypot opts.tracker (byTime rawFrames)
  rw [trackedFrames, assignTrackIds, detectionTimes_eq rawFrames hrun.each,
    ← List.isChain_iff_pairwise, List.isChain_map]
  exact (hrun.moves id).imp fun a b hab => hab.later

theorem ordered_toFrames : (toFrames rawFrames (trackedFrames hypot rawFrames opts)).Pairwise
    fun a b => a.timeSec ≤ b.timeSec := by
  have hrun := Tracked.run hypot opts.tracker (byTime rawFrames)
  have hsorted : (byTime rawFrames).Pairwise fun a b => a.timeSec ≤ b.timeSec :=
    List.pairwise_insertionSort _ _
  have htimes : (trackedFrames hypot rawFrames opts).map (·.timeSec) =
      (byTime rawFrames).map (·.timeSec) := by
    have hsame : List.Forall₂ Eq ((byTime rawFrames).map (·.timeSec))
        ((trackedFrames hypot rawFrames opts).map (·.timeSec)) :=
      List.forall₂_map_left_iff.mpr (List.forall₂_map_right_iff.mpr
        (hrun.each.imp fun _ _ h => h.timeSec.symm))
    rw [List.forall₂_eq_eq_eq] at hsame
    exact hsame.symm
  rw [toFrames, List.pairwise_map]
  refine List.pairwise_map.mp (?_ : ((trackedFrames hypot rawFrames opts).map
    (·.timeSec)).Pairwise (· ≤ ·))
  rw [htimes]
  exact List.pairwise_map.mpr hsorted

/-- The times of a track are some of those it was detected at. -/
theorem times_producedPoints (id : Nat) :
    (times ((producedPoints hypot rawFrames opts).points id)).Sublist
      (detectionTimes (toFrames rawFrames (trackedFrames hypot rawFrames opts)) id) :=
  times_produceTrackPoints hypot _ (ordered_toFrames rawFrames opts)
    (detectionTimes_lt rawFrames opts id)

theorem producedPoints_lt (id : Nat) :
    ((producedPoints hypot rawFrames opts).points id).Pairwise
      fun a b => a.timeSec < b.timeSec :=
  List.pairwise_map.mp ((detectionTimes_lt rawFrames opts id).sublist
    (times_producedPoints rawFrames opts id))

/-! ### One robot -/

omit [IsStrictOrderedRing K] in
theorem points_foldl_add (tracked : List (TrackedFrame K T)) (produced : ByTrack K)
    (ids : List Nat) (entry : PathEntry K T) :
    (ids.foldl (PathEntry.add tracked produced) entry).points =
      entry.points ++ ids.flatMap produced.points := by
  induction ids generalizing entry with
  | nil => exact (List.append_nil _).symm
  | cons id rest ih =>
      rw [List.foldl_cons, ih, PathEntry.add, List.flatMap_cons, List.append_assoc]

omit [Field K] [IsStrictOrderedRing K] in
theorem Tracklet.start_le {t : Tracklet Nat K} {x : K} (hx : x ∈ t.start)
    {p : TrackletPoint K} (hp : p ∈ t.points) : x ≤ p.timeSec := by
  have hordered := t.ordered
  rw [Tracklet.start] at hx
  cases hpoints : t.points with
  | nil => simp [hpoints] at hp
  | cons first rest =>
      rw [hpoints] at hx hp hordered
      obtain rfl : first.timeSec = x := by simpa using hx
      rcases List.mem_cons.mp hp with rfl | hmem
      · exact le_rfl
      · exact List.rel_of_pairwise_cons hordered hmem

omit [Field K] [IsStrictOrderedRing K] in
theorem Tracklet.le_finish {t : Tracklet Nat K} {y : K} (hy : y ∈ t.finish)
    {p : TrackletPoint K} (hp : p ∈ t.points) : p.timeSec ≤ y := by
  have hordered := t.ordered
  rw [Tracklet.finish] at hy
  rcases List.eq_nil_or_concat t.points with hpoints | ⟨before, last, hpoints⟩
  · simp [hpoints] at hp
  · rw [hpoints, List.concat_eq_append] at hy hp hordered
    obtain rfl : last.timeSec = y := by simpa using hy
    rcases List.mem_append.mp hp with hmem | hmem
    · exact (List.pairwise_append.mp hordered).2.2 p hmem last (by simp)
    · obtain rfl := List.mem_singleton.mp hmem
      exact le_rfl

omit [IsStrictOrderedRing K] in
theorem before_points {a b : Nat} (h : (trackletOf hypot rawFrames opts a).Before
      (trackletOf hypot rawFrames opts b)) :
    ∀ p ∈ (producedPoints hypot rawFrames opts).points a,
      ∀ q ∈ (producedPoints hypot rawFrames opts).points b, p.timeSec < q.timeSec := by
  intro p hp q hq
  obtain ⟨x, hx, y, hy, hxy⟩ := h
  have hpx : p.timeSec ≤ x :=
    Tracklet.le_finish hx (p := ⟨p.timeSec, p.fieldX, p.fieldY⟩) (List.mem_map_of_mem hp)
  have hyq : y ≤ q.timeSec :=
    Tracklet.start_le hy (p := ⟨q.timeSec, q.fieldX, q.fieldY⟩) (List.mem_map_of_mem hq)
  exact hpx.trans_lt (hxy.trans_le hyq)

omit [Field K] [IsStrictOrderedRing K] in
/-- Points of one robot's tracks, whichever order they come in, have a strict order in time. -/
theorem byTime_lt {points ordered : List (TrackPoint K)} (hperm : points.Perm ordered)
    (h : ordered.Pairwise fun a b => a.timeSec < b.timeSec) :
    (TrackPoint.byTime points).Pairwise fun a b => a.timeSec < b.timeSec := by
  have hle : (times (TrackPoint.byTime points)).Pairwise (· ≤ ·) :=
    List.pairwise_map.mpr (List.pairwise_insertionSort _ points)
  have hnodup : (times (TrackPoint.byTime points)).Nodup := by
    have hsame : (TrackPoint.byTime points).Perm ordered :=
      (List.perm_insertionSort _ points).trans hperm
    refine ((hsame.map (·.timeSec)).nodup_iff).mpr ?_
    exact (List.pairwise_map.mpr h : (ordered.map (·.timeSec)).Pairwise (· < ·)).imp ne_of_lt
  exact List.pairwise_map.mp ((hle.and hnodup).imp fun ⟨hab, hne⟩ => lt_of_le_of_ne hab hne)

omit [IsStrictOrderedRing K] in
/-- The tracks of a robot follow one another. -/
theorem robotOf_spec : ∃ robot, robotOf hypot rawFrames opts = some robot ∧ ∀ r, ∃ ids : List Nat,
    ids.Perm ((trackIds hypot rawFrames opts).filter fun id => robot id = r) ∧
    ids.Pairwise fun a b => (trackletOf hypot rawFrames opts a).Before
      (trackletOf hypot rawFrames opts b) := by
  rw [robotOf]
  cases opts.stitch with
  | off =>
      refine ⟨id, rfl, fun r => ⟨_, .refl _, ?_⟩⟩
      have hnodup : (trackIds hypot rawFrames opts).Nodup := Finset.sort_nodup _ _
      refine (hnodup.filter _).imp_of_mem fun {a b} ha hb hne => absurd ?_ hne
      exact (of_decide_eq_true (List.mem_filter.mp ha).2).trans
        (of_decide_eq_true (List.mem_filter.mp hb).2).symm
  | on stitch =>
      obtain ⟨s, chains, hs, h⟩ : ∃ s chains, Chains.followAll stitch
          (trackletsOf hypot rawFrames opts) ((trackletsOf hypot rawFrames opts).links hypot
            stitch) = some s ∧
          Robots hypot stitch.limits (trackletsOf hypot rawFrames opts) s chains :=
        foldlM_follow (robots_initial _) fun link hlink => possible_of_mem hlink
      obtain ⟨robots, after, hout, hstitched⟩ := stitched_of_followAll h hs
      refine ⟨fun id => (robots id).getD id, by simp only [hout, Option.map_some],
        fun r => ?_⟩
      obtain ⟨c, hperm, hchain, -⟩ := hstitched.exists_chain r
      have hself : ∀ t ∈ c, t = trackletOf hypot rawFrames opts t.id := by
        intro t ht
        obtain ⟨i, -, rfl⟩ := List.mem_map.mp (List.mem_filter.mp (hperm.subset ht)).1
        rfl
      refine ⟨c.map (·.id), ?_, ?_⟩
      · have hids := hperm.map (·.id)
        rw [trackletsOf, List.filter_map, List.map_map] at hids
        refine hids.trans (.of_eq ((List.map_id _).trans (List.filter_congr fun id hid => ?_)))
        have hmem : trackletOf hypot rawFrames opts id ∈
            (trackletsOf hypot rawFrames opts).tracklets := List.mem_map_of_mem hid
        obtain ⟨robot, hrobot, -⟩ := hstitched.placed _ hmem
        have hid : robots id = some robot := hrobot
        simp [trackletOf, hid]
      · have hbefore := List.isChain_iff_pairwise.mp (hchain.imp fun _ _ hab => hab.2)
        refine List.pairwise_map.mpr (hbefore.imp_of_mem fun {a b} ha hb hab => ?_)
        rw [← hself a ha, ← hself b hb]
        exact hab

/-- The points of a robot are those of its tracks, each later than the one before. -/
theorem points_of_entry {ids ordered : List Nat}
    (hperm : ordered.Perm ids)
    (hordered : ordered.Pairwise fun a b => (trackletOf hypot rawFrames opts a).Before
      (trackletOf hypot rawFrames opts b)) :
    (TrackPoint.byTime (ids.flatMap (producedPoints hypot rawFrames opts).points)).Pairwise
      fun a b => a.timeSec < b.timeSec := by
  refine byTime_lt (hperm.symm.flatMap_right _) ?_
  rw [List.pairwise_flatMap]
  refine ⟨fun id _ => producedPoints_lt rawFrames opts id, hordered.imp fun hab => ?_⟩
  exact before_points rawFrames opts hab

/-! ### No more robots than boxes -/

omit [Field K] [LinearOrder K] [IsStrictOrderedRing K] in
theorem sum_ite_le {ids : List Nat} (hnodup : ids.Nodup) (k : Nat) :
    (ids.map fun id => if k = id then 1 else 0).sum ≤ 1 := by
  induction ids with
  | nil => exact Nat.zero_le 1
  | cons id rest ih =>
      rw [List.nodup_cons] at hnodup
      rw [List.map_cons, List.sum_cons]
      by_cases hk : k = id
      · have hzero : (rest.map fun id => if k = id then 1 else 0).sum = 0 := by
          refine List.sum_eq_zero fun n hn => ?_
          obtain ⟨i, hi, rfl⟩ := List.mem_map.mp hn
          exact if_neg fun heq => hnodup.1 (hk.symm.trans heq ▸ hi)
        rw [hzero, if_pos hk]
      · rw [if_neg hk, Nat.zero_add]
        exact ih hnodup.2

omit [Field K] [LinearOrder K] [IsStrictOrderedRing K] in
theorem sum_filter_le {ids : List Nat} (hnodup : ids.Nodup) (detections : List (Detection K T)) :
    (ids.map fun id => (detections.filter (·.trackId = id)).length).sum ≤ detections.length := by
  induction detections with
  | nil => simp
  | cons d rest ih =>
      have hsplit : (ids.map fun id => ((d :: rest).filter (·.trackId = id)).length) =
          ids.map fun id => (if d.trackId = id then 1 else 0) +
            (rest.filter (·.trackId = id)).length := by
        refine List.map_congr_left fun id _ => ?_
        by_cases hid : d.trackId = id
        · simp [hid, Nat.add_comm]
        · simp [hid]
      rw [hsplit, List.sum_map_add, List.length_cons]
      have hone := sum_ite_le hnodup d.trackId
      omega

omit [Field K] [IsStrictOrderedRing K] in
theorem sum_count_detectionTimes_le {ids : List Nat} (hnodup : ids.Nodup)
    (frames : List (Frame K T)) (t : K) :
    (ids.map fun id => (detectionTimes frames id).countP (· = t)).sum ≤
      ((frames.filter (·.timeSec = t)).map (·.detections.length)).sum := by
  induction frames with
  | nil => simp [detectionTimes]
  | cons frame rest ih =>
      have hsplit : (ids.map fun id => (detectionTimes (frame :: rest) id).countP (· = t)) =
          ids.map fun id => (if frame.timeSec = t then
            (frame.detections.filter (·.trackId = id)).length else 0) +
              (detectionTimes rest id).countP (· = t) := by
        refine List.map_congr_left fun id _ => ?_
        rw [detectionTimes, List.flatMap_cons, List.countP_append, ← detectionTimes]
        congr 1
        by_cases ht : frame.timeSec = t
        · simp [ht, List.countP_replicate]
        · rw [if_neg ht, List.countP_eq_zero]
          intro u hu
          obtain ⟨d, -, rfl⟩ := List.mem_map.mp hu
          simpa using ht
      rw [hsplit, List.sum_map_add]
      by_cases ht : frame.timeSec = t
      · rw [List.filter_cons_of_pos (by simpa using ht), List.map_cons, List.sum_cons]
        simp only [ht, if_true]
        exact Nat.add_le_add (sum_filter_le hnodup _) ih
      · rw [List.filter_cons_of_neg (by simpa using ht)]
        simpa only [ht, if_false, List.map_const', List.sum_replicate, smul_zero, Nat.zero_add]
          using ih

/-- At an instant the tracks have no more points than there are boxes on the field. -/
theorem sum_count_points_le (t : K) :
    ((trackIds hypot rawFrames opts).map fun id =>
      (times ((producedPoints hypot rawFrames opts).points id)).countP (· = t)).sum ≤
      ((rawFrames.filter (·.timeSec = t)).map fun f => f.detections.countP (inField f)).sum := by
  have hrun := Tracked.run hypot opts.tracker (byTime rawFrames)
  have hboxes : ∀ (frames : List (RawFrame K T)) (out : List (TrackedFrame K T)),
      List.Forall₂ FrameTracked frames out →
      (((toFrames rawFrames out).filter (·.timeSec = t)).map (·.detections.length)).sum =
        ((frames.filter (·.timeSec = t)).map fun f => f.detections.countP (inField f)).sum := by
    intro frames out h
    induction h with
    | nil => rfl
    | @cons raw tracked frames out hone _ ih =>
        have hlength : tracked.detections.length = raw.detections.countP (inField raw) := by
          rw [List.countP_eq_length_filter, ← hone.detections, List.length_map]
        rw [toFrames, List.map_cons, ← toFrames]
        by_cases ht : raw.timeSec = t
        · rw [List.filter_cons_of_pos (by simpa [hone.timeSec] using ht),
            List.filter_cons_of_pos (by simpa using ht), List.map_cons, List.sum_cons,
            List.map_cons, List.sum_cons, ih, hlength]
        · rw [List.filter_cons_of_neg (by simpa [hone.timeSec] using ht),
            List.filter_cons_of_neg (by simpa using ht), ih]
  calc ((trackIds hypot rawFrames opts).map fun id =>
        (times ((producedPoints hypot rawFrames opts).points id)).countP (· = t)).sum
      ≤ ((trackIds hypot rawFrames opts).map fun id => (detectionTimes (toFrames rawFrames
          (trackedFrames hypot rawFrames opts)) id).countP (· = t)).sum :=
        List.sum_le_sum fun id _ => (times_producedPoints rawFrames opts id).countP_le
    _ ≤ (((toFrames rawFrames (trackedFrames hypot rawFrames opts)).filter
          (·.timeSec = t)).map (·.detections.length)).sum :=
        sum_count_detectionTimes_le (Finset.sort_nodup _ _) _ t
    _ = (((byTime rawFrames).filter (·.timeSec = t)).map fun f =>
          f.detections.countP (inField f)).sum := hboxes _ _ hrun.each
    _ = ((rawFrames.filter (·.timeSec = t)).map fun f =>
          f.detections.countP (inField f)).sum :=
        (((List.perm_insertionSort _ rawFrames).filter _).map _).sum_eq

/-! ### The paths -/

omit [IsStrictOrderedRing K] in
theorem points_entry {robot : Nat → Nat} {e : Nat × PathEntry K T}
    (he : e ∈ pathEntries hypot rawFrames opts robot) :
    e.2.points = ((trackIds hypot rawFrames opts).filter fun id => robot id = e.1).flatMap
      (producedPoints hypot rawFrames opts).points := by
  obtain ⟨g, hg, rfl⟩ := List.mem_map.mp he
  rw [points_foldl_add, List.nil_append, Grouping.mem_group hg, List.map_id]

omit [IsStrictOrderedRing K] in
theorem nodup_pathEntries (robot : Nat → Nat) :
    ((pathEntries hypot rawFrames opts robot).map Prod.fst).Nodup := by
  rw [pathEntries, List.map_map]
  exact Grouping.nodup_keys_group _ _ _

omit [IsStrictOrderedRing K] in
/-- The robots share the points of the tracks. -/
theorem perm_points_pathEntries (robot : Nat → Nat) :
    ((pathEntries hypot rawFrames opts robot).flatMap (·.2.points)).Perm
      ((trackIds hypot rawFrames opts).flatMap (producedPoints hypot rawFrames opts).points) := by
  have hpoints : (pathEntries hypot rawFrames opts robot).flatMap (·.2.points) =
      ((group robot id (trackIds hypot rawFrames opts)).flatMap Prod.snd).flatMap
        (producedPoints hypot rawFrames opts).points := by
    rw [pathEntries, List.flatMap_map, List.flatMap_assoc]
    refine List.flatMap_congr fun g _ => ?_
    rw [points_foldl_add, List.nil_append]
  have hgroups := Grouping.perm_flatMap_group robot id (trackIds hypot rawFrames opts)
  rw [List.map_id] at hgroups
  rw [hpoints]
  exact hgroups.flatMap_right _

omit [IsStrictOrderedRing K] in
theorem perm_buildRobotPaths {robot : Nat → Nat}
    (hrobot : robotOf hypot rawFrames opts = some robot) {paths : List (RobotPath K T)}
    (hpaths : buildRobotPaths hypot rawFrames opts = some paths) :
    paths.Perm (((pathEntries hypot rawFrames opts robot).filter fun e =>
      opts.minPoints.getD 3 ≤ e.2.points.length).map fun e => e.2.path opts.stitch.opts e.1) := by
  rw [buildRobotPaths, hrobot, Option.map_some, Option.some_inj] at hpaths
  rw [← hpaths]
  exact List.perm_insertionSort _ _

/-- At an instant the paths have no more points than there are boxes on the field. -/
theorem countP_paths_le {robot : Nat → Nat}
    (hrobot : robotOf hypot rawFrames opts = some robot) {paths : List (RobotPath K T)}
    (hpaths : buildRobotPaths hypot rawFrames opts = some paths) (t : K) :
    (paths.flatMap (·.points)).countP (·.timeSec = t) ≤
      ((rawFrames.filter (·.timeSec = t)).map fun f => f.detections.countP (inField f)).sum := by
  have hone : ∀ e : Nat × PathEntry K T,
      (e.2.path opts.stitch.opts e.1).points.countP (·.timeSec = t) =
        e.2.points.countP (·.timeSec = t) :=
    fun e => (List.perm_insertionSort _ e.2.points).countP_eq _
  calc (paths.flatMap (·.points)).countP (·.timeSec = t)
      = ((((pathEntries hypot rawFrames opts robot).filter fun e =>
          opts.minPoints.getD 3 ≤ e.2.points.length).map fun e =>
            e.2.path opts.stitch.opts e.1).flatMap (·.points)).countP (·.timeSec = t) :=
        ((perm_buildRobotPaths rawFrames opts hrobot hpaths).flatMap_right _).countP_eq _
    _ = (((pathEntries hypot rawFrames opts robot).filter fun e =>
          opts.minPoints.getD 3 ≤ e.2.points.length).map fun e =>
            e.2.points.countP (·.timeSec = t)).sum := by
        rw [List.countP_flatMap, List.map_map]
        exact congrArg List.sum (List.map_congr_left fun e _ => hone e)
    _ ≤ ((pathEntries hypot rawFrames opts robot).map fun e =>
          e.2.points.countP (·.timeSec = t)).sum :=
        (List.filter_sublist.map _).sum_le_sum fun _ _ => Nat.zero_le _
    _ = ((pathEntries hypot rawFrames opts robot).flatMap (·.2.points)).countP
          (·.timeSec = t) := (List.countP_flatMap ..).symm
    _ = ((trackIds hypot rawFrames opts).flatMap
          (producedPoints hypot rawFrames opts).points).countP (·.timeSec = t) :=
        (perm_points_pathEntries rawFrames opts robot).countP_eq _
    _ = ((trackIds hypot rawFrames opts).map fun id =>
          (times ((producedPoints hypot rawFrames opts).points id)).countP (· = t)).sum := by
        rw [List.countP_flatMap]
        refine congrArg List.sum (List.map_congr_left fun id _ => ?_)
        rw [times, List.countP_map]
        rfl
    _ ≤ ((rawFrames.filter (·.timeSec = t)).map fun f =>
          f.detections.countP (inField f)).sum := sum_count_points_le rawFrames opts t

/-- Captured frames become paths of distinct robots, the longest first. A path has as many points
as asked for, each at a later instant than the one before, so no robot is in two places at once;
and at no instant are there more robots than boxes that the detector put on the field. -/
theorem buildRobotPaths_spec (hypot : K → K → K) (rawFrames : List (RawFrame K T))
    (opts : RobotPathOptions K) : ∃ paths, buildRobotPaths hypot rawFrames opts = some paths ∧
      (paths.map (·.pathId)).Nodup ∧
      paths.Pairwise (fun a b => b.points.length ≤ a.points.length) ∧
      (∀ path ∈ paths, opts.minPoints.getD 3 ≤ path.points.length ∧
        path.points.Pairwise fun a b => a.timeSec < b.timeSec) ∧
      ∀ t, (paths.flatMap (·.points)).countP (·.timeSec = t) ≤
        ((rawFrames.filter (·.timeSec = t)).map fun f => f.detections.countP (inField f)).sum := by
  obtain ⟨robot, hrobot, hchains⟩ : ∃ robot, robotOf hypot rawFrames opts = some robot ∧ _ :=
    robotOf_spec rawFrames opts
  obtain ⟨paths, hpaths⟩ : ∃ paths, buildRobotPaths hypot rawFrames opts = some paths :=
    ⟨_, congrArg _ hrobot⟩
  have hperm := perm_buildRobotPaths rawFrames opts hrobot hpaths
  refine ⟨paths, hpaths, ?_, ?_, ?_, countP_paths_le rawFrames opts hrobot hpaths⟩
  · refine ((hperm.map (·.pathId)).nodup_iff).mpr ?_
    rw [List.map_map]
    exact (nodup_pathEntries rawFrames opts robot).sublist (List.filter_sublist.map _)
  · rw [buildRobotPaths, hrobot, Option.map_some, Option.some_inj] at hpaths
    rw [← hpaths]
    exact List.pairwise_insertionSort _ _
  · intro path hpath
    obtain ⟨e, he, rfl⟩ := List.mem_map.mp (hperm.subset hpath)
    obtain ⟨hmem, hlength⟩ := List.mem_filter.mp he
    obtain ⟨ordered, hids, hordered⟩ := hchains e.1
    refine ⟨?_, ?_⟩
    · exact (of_decide_eq_true hlength).trans_eq (List.length_insertionSort _ _).symm
    · rw [PathEntry.path, points_entry rawFrames opts hmem]
      exact points_of_entry rawFrames opts hids hordered

end Times

theorem buildRobotPaths_spec_lineFrames : ∃ paths,
    buildRobotPaths (fun x y => |x| + |y|) lineFrames {} = some paths ∧
      (paths.map (·.pathId)).Nodup ∧
      paths.Pairwise (fun a b => b.points.length ≤ a.points.length) ∧
      (∀ path ∈ paths, 3 ≤ path.points.length ∧
        path.points.Pairwise fun a b => a.timeSec < b.timeSec) ∧
      ∀ t, (paths.flatMap (·.points)).countP (·.timeSec = t) ≤
        ((lineFrames.filter (·.timeSec = t)).map fun f => f.detections.countP (inField f)).sum :=
  buildRobotPaths_spec _ lineFrames {}

end Frcmob.OnDevice
