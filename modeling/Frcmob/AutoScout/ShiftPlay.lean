import Frcmob.Lib.Grouping
import Frcmob.Lib.Rounding
import Frcmob.Lib.Spans
import Mathlib.Data.List.MinMax
import Mathlib.Data.List.Sort

/-!
Offense and defense by shift: `services/auto_scout/shift_play.py`, as far as it sums up times.
Heat maps, the breakdown by shift and the levels computed from the sums are left out.
-/

open Rounding

namespace Frcmob.ShiftPlay

universe u

/-- `math.hypot` -/
class Hypot (K : Type u) where
  hypot : K → K → K

inductive Alliance
  | red
  | blue
deriving DecidableEq

/-- `_opponent` -/
def Alliance.opponent : Alliance → Alliance
  | .red => .blue
  | .blue => .red

/-! ### The schedule -/

/-- Whose hub is active in a window; the last two are resolved for each match. -/
inductive Active
  | alliance (alliance : Alliance)
  | both
  | shiftOne
  | oppositeShiftOne
deriving DecidableEq

structure ShiftWindow where
  key : String
  startSec : Int
  endSec : Int
  active : Active
  /-- `validate_window` -/
  ordered : startSec < endSec

structure ZonePair where
  red : String
  blue : String

def ZonePair.of (pair : ZonePair) : Alliance → String
  | .red => pair.red
  | .blue => pair.blue

structure ShiftRoleZones where
  attack : ZonePair
  gather : ZonePair
  defense : ZonePair
  climb : ZonePair

structure ShiftSchedule where
  windows : List ShiftWindow
  roleZones : ShiftRoleZones

/-- `_is_attack_eligible` -/
def isAttackEligible (active : Active) (alliance : Alliance) : Bool :=
  active = .alliance alliance ∨ active = .both

def Active.resolve (first : Alliance) : Active → Active
  | .shiftOne => .alliance first
  | .oppositeShiftOne => .alliance first.opponent
  | active => active

/-- `resolve_shift_schedule` -/
def resolveShiftSchedule (schedule : ShiftSchedule) (shift1ActiveAlliance : Option Alliance) :
    Except String ShiftSchedule :=
  if schedule.windows.all fun w => w.active ≠ .shiftOne ∧ w.active ≠ .oppositeShiftOne then
    .ok schedule
  else
    match shift1ActiveAlliance with
    | none => .error "shift1_active_alliance is required for a dynamic shift schedule"
    | some first => .ok { schedule with
        windows := schedule.windows.map fun w => { w with active := w.active.resolve first } }

section Times
variable {K : Type u} [Field K] [LinearOrder K]

/-- The window a time lies in. -/
def ShiftWindow.Contains (w : ShiftWindow) (time : K) : Prop :=
  (w.startSec : K) ≤ time ∧ time < w.endSec

instance (w : ShiftWindow) (time : K) : Decidable (w.Contains time) :=
  inferInstanceAs (Decidable (_ ∧ _))

/-- `_window_for` -/
def windowFor (windows : List ShiftWindow) (time : K) : Option ShiftWindow :=
  windows.find? fun w => w.Contains time

/-! ### Dwell -/

structure TrackPoint (K : Type u) where
  timeSec : K
  fieldX : Option K
  fieldY : Option K
  zoneKey : Option String
  speedMps : Option K

def maxDwellDtSec : K := 2

def sortedByTime (points : List (TrackPoint K)) : List (TrackPoint K) :=
  points.insertionSort fun p q => p.timeSec ≤ q.timeSec

/-- `_dwell_segments`: each point with the time until the next one, at most two seconds. -/
def dwellSegments (points : List (TrackPoint K)) : List (TrackPoint K × K) :=
  let ordered := sortedByTime points
  (ordered.zip ordered.tail).filterMap fun (point, next) =>
    let dt := next.timeSec - point.timeSec
    if dt ≤ 0 then none else some (point, min dt maxDwellDtSec)

/-- The start of the next window after the cursor, the end of the segment where there is none. -/
def nextBoundary (windows : List ShiftWindow) (segmentEnd cursor : K) : K :=
  ((windows.map fun w => (w.startSec : K)).filter (cursor < ·)).min?.getD segmentEnd

/-- Where the loop over a segment can stop. -/
def boundaries (windows : List ShiftWindow) (segmentEnd : K) : List K :=
  segmentEnd :: windows.flatMap fun w => [(w.startSec : K), (w.endSec : K)]

omit [Field K] in
theorem countP_lt_of_mem {xs : List K} {x y : K} (h : x < y) (hy : y ∈ xs) :
    xs.countP (y < ·) < xs.countP (x < ·) := by
  induction xs with
  | nil => exact absurd hy List.not_mem_nil
  | cons z xs ih =>
      have hmono : xs.countP (y < ·) ≤ xs.countP (x < ·) :=
        List.countP_mono_left fun w _ hw => decide_eq_true (h.trans (of_decide_eq_true hw))
      rw [List.countP_cons, List.countP_cons]
      rcases List.mem_cons.mp hy with rfl | hmem
      · simp [h]
        omega
      · have hrest := ih hmem
        by_cases hz : y < z
        · simp [hz, h.trans hz]
          omega
        · simp [hz]
          omega

theorem nextBoundary_mem (windows : List ShiftWindow) (segmentEnd cursor : K) :
    nextBoundary windows segmentEnd cursor ∈ boundaries windows segmentEnd := by
  unfold nextBoundary
  cases hmin : ((windows.map fun w => (w.startSec : K)).filter (cursor < ·)).min? with
  | none => exact List.mem_cons_self
  | some start =>
      obtain ⟨w, hw, rfl⟩ := List.mem_map.mp (List.mem_of_mem_filter (List.min?_mem hmin))
      exact List.mem_cons_of_mem _ (List.mem_flatMap.mpr ⟨w, hw, List.mem_cons_self⟩)

theorem lt_nextBoundary {windows : List ShiftWindow} {segmentEnd cursor : K}
    (h : cursor < segmentEnd) : cursor < nextBoundary windows segmentEnd cursor := by
  unfold nextBoundary
  cases hmin : ((windows.map fun w => (w.startSec : K)).filter (cursor < ·)).min? with
  | none => exact h
  | some start => exact of_decide_eq_true (List.mem_filter.mp (List.min?_mem hmin)).2

theorem windowFor_some {windows : List ShiftWindow} {time : K} {w : ShiftWindow}
    (h : windowFor windows time = some w) : w ∈ windows ∧ w.Contains time := by
  unfold windowFor at h
  exact ⟨List.mem_of_find?_eq_some h, by simpa using List.find?_some h⟩

/-- The place the loop goes on from is a boundary after the cursor. -/
theorem boundary_min {windows : List ShiftWindow} {segmentEnd x : K}
    (h : x ∈ boundaries windows segmentEnd) : min segmentEnd x ∈ boundaries windows segmentEnd := by
  rcases min_choice segmentEnd x with heq | heq <;> rw [heq]
  · exact List.mem_cons_self
  · exact h

/-- The loop of `_split_dwell_segments` over one segment: pieces as start and length. -/
def splitFrom (windows : List ShiftWindow) (segmentEnd cursor : K) : List (K × K) :=
  if _hcursor : cursor < segmentEnd then
    match _hwindow : windowFor windows cursor with
    | none => splitFrom windows segmentEnd (min segmentEnd (nextBoundary windows segmentEnd cursor))
    | some w =>
        let pieceEnd := min segmentEnd (w.endSec : K)
        (cursor, pieceEnd - cursor) :: splitFrom windows segmentEnd pieceEnd
  else []
termination_by (boundaries windows segmentEnd).countP (cursor < ·)
decreasing_by
  · exact countP_lt_of_mem (lt_min _hcursor (lt_nextBoundary _hcursor))
      (boundary_min (nextBoundary_mem ..))
  · obtain ⟨hmem, hcontains⟩ := windowFor_some _hwindow
    refine countP_lt_of_mem (lt_min _hcursor hcontains.2) (boundary_min ?_)
    exact List.mem_cons_of_mem _ (List.mem_flatMap.mpr ⟨w, hmem, by simp⟩)

/-- `_split_dwell_segments` -/
def splitDwellSegments (segments : List (TrackPoint K × K)) (windows : List ShiftWindow) :
    List (TrackPoint K × K × K) :=
  segments.flatMap fun (point, duration) =>
    (splitFrom windows (point.timeSec + duration) point.timeSec).map fun piece => (point, piece)

/-! ### Opponents -/

section Opponents
variable [Hypot K] [FloorRing K]

/-- The points with both coordinates, with them. -/
def located (points : List (TrackPoint K)) : List (TrackPoint K × K × K) :=
  points.filterMap fun point =>
    match point.fieldX, point.fieldY with
    | some x, some y => some (point, x, y)
    | _, _ => none

/-- The tracks of one alliance. -/
def tracksOf (pointsByTeam : List (String × List (TrackPoint K)))
    (allianceByTeam : String → Option Alliance) (alliance : Alliance) :
    List (List (TrackPoint K)) :=
  (pointsByTeam.filter fun track => allianceByTeam track.1 = some alliance).map Prod.snd

structure OpponentIndex (K : Type u) where
  /-- `_times` with `_coords` -/
  samples : List (K × List (K × K))
  coverageIntervals : List (K × K)

/-- The loop that merges the sorted intervals, with the last one it has. -/
def mergeInto (last : K × K) : List (K × K) → List (K × K)
  | [] => [last]
  | span :: rest =>
      if span.1 ≤ last.2 then mergeInto (last.1, max last.2 span.2) rest
      else last :: mergeInto span rest

def mergeSorted : List (K × K) → List (K × K)
  | [] => []
  | span :: rest => mergeInto span rest

/-- Order of pairs. -/
def spanLe (a b : K × K) : Prop :=
  a.1 < b.1 ∨ (a.1 = b.1 ∧ a.2 ≤ b.2)

instance : DecidableRel (@spanLe K _) := fun a b =>
  inferInstanceAs (Decidable (a.1 < b.1 ∨ (a.1 = b.1 ∧ a.2 ≤ b.2)))

/-- The presence of one opponent: the dwell of its located points. -/
def presence (points : List (TrackPoint K)) : List (K × K) :=
  (dwellSegments ((located points).map Prod.fst)).map fun (point, duration) =>
    (point.timeSec, point.timeSec + duration)

/-- `_OpponentIndex.__init__`, of the opponents' tracks. -/
def opponentIndex (tracks : List (List (TrackPoint K))) : OpponentIndex K where
  samples := (Grouping.group (fun sample : TrackPoint K × K × K => roundTo 3 sample.1.timeSec)
    (fun sample => sample.2) (tracks.flatMap located)).insertionSort fun a b => a.1 ≤ b.1
  coverageIntervals := mergeSorted ((tracks.flatMap presence).insertionSort spanLe)

/-- `overlap_duration` -/
def overlapDuration (startSec endSec : K) : List (K × K) → K
  | [] => 0
  | (s, e) :: rest =>
      if e ≤ startSec then overlapDuration startSec endSec rest
      else if endSec ≤ s then 0
      else max 0 (min e endSec - max s startSec) + overlapDuration startSec endSec rest

def shadowTimeTolSec : K := 6 / 10

def shadowDistanceM : K := 15 / 10

/-- `bisect.bisect_left` -/
def bisectLeft (times : List K) (time : K) : Nat :=
  (times.takeWhile (· < time)).length

/-- The entries that a lookup at `idx` looks at. -/
def candidates {α : Type u} (entries : List α) (idx : Nat) : List α :=
  ((if idx = 0 then [] else [idx - 1]) ++ [idx, idx + 1]).filterMap (entries[·]?)

/-- `min_distance` -/
def minDistance (index : OpponentIndex K) (time x y : K) : Option K :=
  let idx := bisectLeft (index.samples.map Prod.fst) time
  let near := (candidates index.samples idx).filter fun sample =>
    ¬ shadowTimeTolSec < |sample.1 - time|
  ((near.flatMap Prod.snd).map fun (ox, oy) => Hypot.hypot (ox - x) (oy - y)).min?

/-- `_ZonePresence` of a zone: the times at which an opponent is in it. -/
def zonePresence (tracks : List (List (TrackPoint K))) (zoneKey : String) : List K :=
  ((tracks.flatMap fun points => (points.filter fun p => p.zoneKey = some zoneKey).map
    fun p => roundTo 3 p.timeSec).dedup).insertionSort (· ≤ ·)

/-- `_ZonePresence.present` -/
def present (times : List K) (time : K) : Bool :=
  let idx := bisectLeft times time
  ((if idx = 0 then [] else [idx - 1]) ++ [idx]).any fun cand =>
    (times[cand]?).any fun t => |t - time| ≤ shadowTimeTolSec

/-! ### Summing up -/

/-- The sums of `analyze_robot_shift_play`. -/
structure Sums (K : Type u) where
  attackZoneSec : K
  gatherZoneSec : K
  trackedAttackSec : K
  attackSpeedWeighted : K
  attackSpeedTime : K
  cycles : Nat
  seenGatherSinceAttack : Bool
  inAttackPrev : Bool
  opponentZoneSec : K
  shadowSec : K
  trackedOppSec : K
  simultaneousOppSec : K
  engagedSec : K
  engagedOppScoringSec : K
  unengagedSec : K
  unengagedOppScoringSec : K

def Sums.start : Sums K where
  attackZoneSec := 0
  gatherZoneSec := 0
  trackedAttackSec := 0
  attackSpeedWeighted := 0
  attackSpeedTime := 0
  cycles := 0
  seenGatherSinceAttack := false
  inAttackPrev := false
  opponentZoneSec := 0
  shadowSec := 0
  trackedOppSec := 0
  simultaneousOppSec := 0
  engagedSec := 0
  engagedOppScoringSec := 0
  unengagedSec := 0
  unengagedOppScoringSec := 0

/-- The zones and opponents that one robot's pieces are compared with. -/
structure Surroundings (K : Type u) where
  alliance : Alliance
  attackZone : String
  gatherZone : String
  defenseZone : String
  oppIndex : OpponentIndex K
  oppScoring : List K

/-- The offense sums after a piece in a window in which the robot can score. -/
def Sums.addAttack (s : Sums K) (around : Surroundings K) (point : TrackPoint K) (dt : K) :
    Sums K :=
  let s := { s with
    trackedAttackSec := s.trackedAttackSec + dt
    attackSpeedWeighted := s.attackSpeedWeighted + (point.speedMps.map (· * dt)).getD 0
    attackSpeedTime := s.attackSpeedTime + if point.speedMps.isSome then dt else 0 }
  if point.zoneKey = some around.attackZone then
    let counts := !s.inAttackPrev && s.seenGatherSinceAttack
    { s with
      attackZoneSec := s.attackZoneSec + dt
      cycles := if counts then s.cycles + 1 else s.cycles
      seenGatherSinceAttack := if counts then false else s.seenGatherSinceAttack
      inAttackPrev := true }
  else if point.zoneKey = some around.gatherZone then
    { s with
      inAttackPrev := false
      gatherZoneSec := s.gatherZoneSec + dt
      seenGatherSinceAttack := true }
  else { s with inAttackPrev := false }

/-- The defense sums after a piece in a window of the opponents. -/
def Sums.addDefense (s : Sums K) (around : Surroundings K) (point : TrackPoint K)
    (start dt : K) : Sums K :=
  let inOppZone : Bool := point.zoneKey = some around.defenseZone
  let shadowing : Bool := match point.fieldX, point.fieldY with
    | some x, some y => (minDistance around.oppIndex start x y).any (· ≤ shadowDistanceM)
    | _, _ => false
  let oppScoring := present around.oppScoring start
  let engaged := inOppZone || shadowing
  let part (b : Bool) : K := if b then dt else 0
  { s with
    trackedOppSec := s.trackedOppSec + dt
    simultaneousOppSec := s.simultaneousOppSec +
      overlapDuration start (start + dt) around.oppIndex.coverageIntervals
    opponentZoneSec := s.opponentZoneSec + part inOppZone
    shadowSec := s.shadowSec + part shadowing
    engagedSec := s.engagedSec + part engaged
    engagedOppScoringSec := s.engagedOppScoringSec + part (engaged && oppScoring)
    unengagedSec := s.unengagedSec + part !engaged
    unengagedOppScoringSec := s.unengagedOppScoringSec + part (!engaged && oppScoring) }

/-- One round of the loop over the pieces. -/
def Sums.add (around : Surroundings K) (windows : List ShiftWindow) (s : Sums K)
    (piece : TrackPoint K × K × K) : Sums K :=
  match windowFor windows piece.2.1 with
  | none => s
  | some w =>
      let s := if isAttackEligible w.active around.alliance then
          s.addAttack around piece.1 piece.2.2
        else s
      if w.active = .alliance around.alliance.opponent then
        s.addDefense around piece.1 piece.2.1 piece.2.2
      else s

/-- The seconds of the windows that `p` accepts. -/
def windowSeconds (windows : List ShiftWindow) (p : Active → Bool) : Int :=
  ((windows.filter fun w => p w.active).map fun w => w.endSec - w.startSec).sum

/-- The times among the metrics and the coverage of a robot. -/
structure ShiftTimes (K : Type u) where
  attackZoneSec : K
  gatherZoneSec : K
  cycles : Nat
  opponentZoneSec : K
  shadowSec : K
  attackEligibleSec : Int
  opponentActiveSec : Int
  trackedAttackSec : K
  trackedOpponentSec : K
  simultaneousOpponentSec : K

/-- `analyze_robot_shift_play`, once the schedule is resolved. -/
def shiftTimes (teamKey : String) (alliance : Alliance)
    (pointsByTeam : List (String × List (TrackPoint K)))
    (allianceByTeam : String → Option Alliance) (schedule : ShiftSchedule) : ShiftTimes K :=
  let role := schedule.roleZones
  let opponents := tracksOf pointsByTeam allianceByTeam alliance.opponent
  let around : Surroundings K :=
    { alliance
      attackZone := role.attack.of alliance
      gatherZone := role.gather.of alliance
      defenseZone := role.defense.of alliance
      oppIndex := opponentIndex opponents
      oppScoring := zonePresence opponents (role.defense.of alliance) }
  let points := sortedByTime ((List.lookup teamKey pointsByTeam).getD [])
  let pieces := splitDwellSegments (dwellSegments points) schedule.windows
  let s := pieces.foldl (Sums.add around schedule.windows) Sums.start
  { attackZoneSec := roundTo 2 s.attackZoneSec
    gatherZoneSec := roundTo 2 s.gatherZoneSec
    cycles := s.cycles
    opponentZoneSec := roundTo 2 s.opponentZoneSec
    shadowSec := roundTo 2 s.shadowSec
    attackEligibleSec := windowSeconds schedule.windows (isAttackEligible · alliance)
    opponentActiveSec := windowSeconds schedule.windows (· = .alliance alliance.opponent)
    trackedAttackSec := roundTo 2 s.trackedAttackSec
    trackedOpponentSec := roundTo 2 s.trackedOppSec
    simultaneousOpponentSec := roundTo 2 s.simultaneousOppSec }

/-- `analyze_robot_shift_play` -/
def analyzeRobotShiftPlay (teamKey : String) (alliance : Alliance)
    (pointsByTeam : List (String × List (TrackPoint K)))
    (allianceByTeam : String → Option Alliance) (schedule : ShiftSchedule)
    (shift1ActiveAlliance : Option Alliance) : Except String (ShiftTimes K) :=
  (resolveShiftSchedule schedule shift1ActiveAlliance).map
    (shiftTimes teamKey alliance pointsByTeam allianceByTeam)

end Opponents
end Times

end Frcmob.ShiftPlay
