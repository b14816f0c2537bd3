import Frcmob.Official.Truth
import Mathlib.Algebra.BigOperators.Ring.List
import Mathlib.Algebra.Order.BigOperators.Group.List
import Mathlib.Tactic.FieldSimp
import Mathlib.Tactic.Linarith
import Mathlib.Tactic.Ring

/-!
What the parsers hand out to the robots of an alliance, and the alliance's totals.
-/

namespace Frcmob.Official

universe u

/-! ### Splitting a total -/

section Lists
variable {α : Type*} {β : Type*}

/-- Reading a list at the positions of another of its length goes through all of it. -/
theorem map_zipIdx_getD {γ : Type*} {xs : List α} {ys : List β} (h : xs.length = ys.length)
    (f : β → γ) (default : β) :
    (xs.zipIdx.map fun x => f (ys.getD x.2 default)) = ys.map f := by
  refine List.ext_getElem (by simp [h]) fun i hi hi' => ?_
  have hys : i < ys.length := by simpa using hi'
  simp [List.getD_eq_getElem?_getD, hys]

theorem map_zipIdx_snd {γ : Type*} (xs : List α) (f : Nat → γ) :
    (xs.zipIdx.map fun x => f x.2) = (List.range xs.length).map f := by
  rw [List.range_eq_range', ← List.zipIdx_map_snd, List.map_map]
  rfl

theorem map_zipIdx_getElem? {xs : List α} {ys : List β} (h : xs.length = ys.length) :
    (xs.zipIdx.map fun x => ys[x.2]?) = ys.map some := by
  refine List.ext_getElem (by simp [h]) fun i hi hi' => ?_
  have hys : i < ys.length := by simpa using hi'
  simp [hys]

end Lists

section Shares
variable {K : Type u} [Field K] [LinearOrder K] [IsStrictOrderedRing K]

theorem sum_split {weights : List K} (h : weights.sum ≠ 0) (total : K) :
    (weights.map fun weight => total * (weight / weights.sum)).sum = total := by
  have hmul : (weights.map fun weight => total * (weight / weights.sum)).sum =
      (weights.map fun weight => total / weights.sum * weight).sum :=
    congrArg List.sum (List.map_congr_left fun weight _ => by ring)
  rw [hmul, List.sum_map_mul_left, List.map_id', div_mul_cancel₀ _ h]

theorem weightOf_pos (teamWeightByKey : TeamNumbers K) (key : String) :
    0 < weightOf teamWeightByKey key := by
  unfold weightOf
  split
  · split
    · exact lt_max_of_lt_left (by norm_num)
    · exact one_pos
  · exact one_pos

theorem sum_weights_pos {keys : List String} (hkeys : keys ≠ []) (weights : TeamNumbers K) :
    0 < (keys.map (weightOf weights)).sum := by
  refine List.sum_pos _ (fun weight hweight => ?_) (by simpa using hkeys)
  obtain ⟨key, -, rfl⟩ := List.mem_map.mp hweight
  exact weightOf_pos weights key

theorem shareWeighted_some {keys : List String} (hkeys : keys ≠ []) (total : K)
    (weights : TeamNumbers K) :
    shareWeighted (some total) keys weights = (keys.map (weightOf weights)).map fun weight =>
      total * (weight / (keys.map (weightOf weights)).sum) :=
  if_neg (not_le.mpr (sum_weights_pos hkeys weights))

omit [IsStrictOrderedRing K] in
@[simp] theorem length_shareWeighted (value : Option K) (keys : List String)
    (weights : TeamNumbers K) : (shareWeighted value keys weights).length = keys.length := by
  unfold shareWeighted shareEvenly
  cases value with
  | none => simp
  | some total => dsimp only; split <;> simp

/-- The shares of a total sum to it. -/
theorem sum_shareWeighted {keys : List String} (hkeys : keys ≠ []) (total : K)
    (weights : TeamNumbers K) : (shareWeighted (some total) keys weights).sum = total := by
  rw [shareWeighted_some hkeys, sum_split (sum_weights_pos hkeys weights).ne']

theorem shareWeighted_nonneg {keys : List String} (hkeys : keys ≠ []) {total : K} (h : 0 ≤ total)
    (weights : TeamNumbers K) : ∀ share ∈ shareWeighted (some total) keys weights, 0 ≤ share := by
  intro share hshare
  rw [shareWeighted_some hkeys, List.map_map] at hshare
  obtain ⟨key, -, rfl⟩ := List.mem_map.mp hshare
  exact mul_nonneg h (div_nonneg (weightOf_pos weights key).le (sum_weights_pos hkeys weights).le)

theorem shareWeighted_nonpos {keys : List String} (hkeys : keys ≠ []) {total : K} (h : total ≤ 0)
    (weights : TeamNumbers K) : ∀ share ∈ shareWeighted (some total) keys weights, share ≤ 0 := by
  intro share hshare
  rw [shareWeighted_some hkeys, List.map_map] at hshare
  obtain ⟨key, -, rfl⟩ := List.mem_map.mp hshare
  exact mul_nonpos_of_nonpos_of_nonneg h
    (div_nonneg (weightOf_pos weights key).le (sum_weights_pos hkeys weights).le)

/-- The robots' shares, none below zero, sum to the total unless that is below zero. -/
theorem sum_max_shareWeighted {keys : List String} (hkeys : keys ≠ []) (value : Option K)
    (weights : TeamNumbers K) :
    ((shareWeighted value keys weights).map (max 0)).sum = max 0 (value.getD 0) := by
  cases value with
  | none => simp [shareWeighted]
  | some total =>
      rcases le_total 0 total with h | h
      · rw [List.map_congr_left fun share hshare =>
          max_eq_right (shareWeighted_nonneg hkeys h weights share hshare), List.map_id',
          sum_shareWeighted hkeys, Option.getD_some, max_eq_right h]
      · rw [List.map_congr_left fun share hshare =>
          max_eq_left (shareWeighted_nonpos hkeys h weights share hshare),
          Option.getD_some, max_eq_left h]
        simp

end Shares

/-! ### What the rows hand out -/

section Rows
variable {K : Type u} [Field K] [LinearOrder K]

/-- The rows of an alliance hand out its totals: its teleop points, its teleop count where it has
one, and its auto points where they are handed out at all. -/
structure Conserved (rows : List (TruthRow K)) (teleop count : Option K) (auto : K) : Prop where
  teleop_nonneg : ∀ row ∈ rows, 0 ≤ row.teleopPoints
  teleop_sum : (rows.map TruthRow.teleopPoints).sum = max 0 (teleop.getD 0)
  count_nonneg : ∀ row ∈ rows, ∀ c, row.teleopScoreCount = some c → 0 ≤ c
  count_sum : ∀ total, count = some total → ∃ counts : List K,
    rows.map TruthRow.teleopScoreCount = counts.map some ∧ counts.sum = total
  auto_sum : (∀ row ∈ rows, row.autoPoints = none) ∨ ∃ points : List K,
    rows.map TruthRow.autoPoints = points.map some ∧ points.sum = auto

structure ScoringPoints.Nonneg (points : ScoringPoints K) : Prop where
  autoLevel1Climb : 0 ≤ points.autoLevel1Climb
  lowClimb : 0 ≤ points.lowClimb
  midClimb : 0 ≤ points.midClimb
  highClimb : 0 ≤ points.highClimb

variable [Floats K]

/-- The totals of a 2026 breakdown are not negative. -/
structure TotalsNonneg2026 (breakdown : Obj K) : Prop where
  hubAuto : ∀ x ∈ asFloat ((hubScore breakdown).get "autoPoints"), 0 ≤ x
  totalAuto : ∀ x ∈ asFloat (breakdown.get "totalAutoPoints"), 0 ≤ x
  autoTower : ∀ x ∈ asFloat (breakdown.get "totalAutoPoints"),
    ∀ y ∈ asFloat (breakdown.get "autoTowerPoints"), y ≤ x
  teleopCount : ∀ x ∈ asFloat ((hubScore breakdown).get "teleopCount"), 0 ≤ x
  shiftCounts : ∀ x ∈ hubShiftCounts breakdown, 0 ≤ x
  totalCount : ∀ x ∈ asFloat ((hubScore breakdown).get "totalCount"), 0 ≤ x

/-- The totals of a 2025 breakdown are not negative. -/
structure TotalsNonneg2025 (breakdown : Obj K) : Prop where
  autoCoral : ∀ x ∈ asFloat (breakdown.get "autoCoralPoints"), 0 ≤ x
  autoMobility : ∀ x ∈ asFloat (breakdown.get "autoMobilityPoints"), 0 ≤ x
  counts : ∀ x ∈ sumOptional [asFloat (breakdown.get "teleopCoralCount"),
    asFloat (breakdown.get "netAlgaeCount"), asFloat (breakdown.get "wallAlgaeCount")], 0 ≤ x

/-- The tower points of each robot in auto. -/
def autoTowerPoints2026 (context : Context K) (breakdown : Obj K) (idx : Nat) : K :=
  towerPointsFromStatus (firstNonNull breakdown
    (["autoTowerRobot", "autoRobot", "autoLineRobot", "autoMobilityRobot"].map (robotField · idx)))
    true context.scoringPoints

/-- The auto points of a 2026 alliance: its hub's and its robots' tower points. -/
def autoTotal2026 (context : Context K) (breakdown : Obj K) (robots : Nat) : K :=
  (hubAutoPoints breakdown).getD 0 +
    ((List.range robots).map (autoTowerPoints2026 context breakdown)).sum

/-- Which robots of a 2025 alliance left the line. -/
def lineFlags2025 (breakdown : Obj K) (robots : Nat) : List Bool :=
  (List.range robots).map fun idx => isYes (breakdown.get (robotField "autoLineRobot" idx))

/-- The auto points of a 2025 alliance, of which the mobility points go to the robots that left
the line. -/
def autoTotal2025 (breakdown : Obj K) (robots : Nat) : K :=
  (asFloat (breakdown.get "autoCoralPoints")).getD 0 +
    if true ∈ lineFlags2025 breakdown robots then
      (asFloat (breakdown.get "autoMobilityPoints")).getD 0
    else 0

/-- What a robot of a 2025 alliance gets in auto. -/
def autoPoints2025 (breakdown : Obj K) (robots : Nat) (line : Bool) : K :=
  max 0 ((asFloat (breakdown.get "autoCoralPoints")).getD 0 / robots +
    if line then (asFloat (breakdown.get "autoMobilityPoints")).getD 0 /
      (max 1 ((lineFlags2025 breakdown robots).count true) : Nat) else 0)

end Rows

section Parsers
variable {K : Type u} [Field K] [LinearOrder K] [IsStrictOrderedRing K] [Floats K]

theorem hubAutoPoints_nonneg {breakdown : Obj K} (h : TotalsNonneg2026 breakdown) :
    ∀ x ∈ hubAutoPoints breakdown, 0 ≤ x := by
  intro x hx
  unfold hubAutoPoints coalesceFloat at hx
  cases hhub : asFloat ((hubScore breakdown).get "autoPoints") with
  | some hub =>
      rw [hhub] at hx
      cases hx
      exact h.hubAuto _ hhub
  | none =>
      rw [hhub] at hx
      cases htotal : asFloat (breakdown.get "totalAutoPoints") with
      | none => simp [htotal, lessPart] at hx
      | some total =>
          cases htower : asFloat (breakdown.get "autoTowerPoints") with
          | none =>
              simp [htotal, htower, lessPart] at hx
              exact hx ▸ h.totalAuto _ htotal
          | some tower =>
              simp [htotal, htower, lessPart] at hx
              exact hx ▸ sub_nonneg.mpr (h.autoTower _ htotal _ htower)

omit [IsStrictOrderedRing K] in
theorem teleopCount2026_nonneg {breakdown : Obj K} (h : TotalsNonneg2026 breakdown) :
    ∀ x ∈ (teleopCount2026 breakdown).1, 0 ≤ x := by
  have hcount : ∀ x ∈ coalesceFloat [asFloat ((hubScore breakdown).get "teleopCount"),
      hubShiftCounts breakdown, asFloat ((hubScore breakdown).get "totalCount")], 0 ≤ x := by
    intro x hx
    obtain ⟨value, hvalue, rfl⟩ := List.exists_of_findSome?_eq_some hx
    simp only [List.mem_cons, List.not_mem_nil, or_false] at hvalue
    rcases hvalue with hvalue | hvalue | hvalue
    · exact h.teleopCount x hvalue.symm
    · exact h.shiftCounts x hvalue.symm
    · exact h.totalCount x hvalue.symm
  unfold teleopCount2026
  dsimp only
  split
  · rename_i c points hc hpoints
    split
    · rename_i hcapped
      exact fun x hx => Option.some.inj hx ▸ hcapped.1.le
    · exact fun x hx => Option.some.inj hx ▸ hcount c hc
  · exact hcount

theorem towerPointsFromStatus_nonneg {points : ScoringPoints K} (h : points.Nonneg)
    (status : Json K) (autoPhase : Bool) : 0 ≤ towerPointsFromStatus status autoPhase points := by
  unfold towerPointsFromStatus
  dsimp only
  split_ifs
  · exact le_rfl
  · exact h.highClimb
  · exact h.midClimb
  · exact h.autoLevel1Climb
  · exact h.lowClimb
  · exact mul_nonneg h.lowClimb (by norm_num)
  · exact le_rfl

omit [Floats K] in
/-- The points of rows that read them off the shares. -/
theorem teleop_conserved {α : Type*} {keys : List α} {teamKeys : List String}
    (hkeys : teamKeys ≠ []) (hlength : keys.length = teamKeys.length) (teleop : Option K)
    (weights : TeamNumbers K) :
    (keys.zipIdx.map fun x => max 0 ((shareWeighted teleop teamKeys weights).getD x.2 0)).sum =
      max 0 (teleop.getD 0) := by
  rw [map_zipIdx_getD (by simp [hlength]) (max 0) 0, sum_max_shareWeighted hkeys]

omit [Floats K] in
theorem count_of_shares {teamKeys : List String} (hkeys : teamKeys ≠ []) {count : Option K}
    (hcount : ∀ x ∈ count, 0 ≤ x) (weights : TeamNumbers K) {i : Nat} {c : K}
    (h : (if count.isSome then shareWeighted count teamKeys weights else [])[i]? = some c) :
    0 ≤ c := by
  cases count with
  | none => simp at h
  | some total =>
      exact shareWeighted_nonneg hkeys (hcount total rfl) weights c (List.mem_of_getElem? h)

omit [Floats K] in
/-- The auto shares of the hub's points. -/
theorem autoPointsByTeam_some {teamKeys : List String} {hubAuto : Option K}
    {coprs : Option (TeamNumbers K)} {byTeam : List K}
    (h : autoPointsByTeam teamKeys hubAuto coprs = some byTeam) (hauto : ∀ x ∈ hubAuto, 0 ≤ x) :
    byTeam.length = teamKeys.length ∧ (∀ share ∈ byTeam, 0 ≤ share) ∧
      byTeam.sum = hubAuto.getD 0 := by
  unfold autoPointsByTeam at h
  split at h
  · rename_i hub estimates
    dsimp only at h
    split at h
    · rename_i hpos
      cases h
      refine ⟨by simp, ?_, ?_⟩
      · intro share hshare
        rw [List.map_map] at hshare
        obtain ⟨key, -, rfl⟩ := List.mem_map.mp hshare
        exact div_nonneg (mul_nonneg (hauto hub rfl) (le_max_left _ _)) hpos.2.le
      · simp only [mul_div_assoc]
        exact sum_split hpos.2.ne' hub
    · cases h
  · cases h

theorem conserved_parse2026 {teamKeys : List String} (hkeys : teamKeys ≠ []) (alliance : String)
    {breakdown : Obj K} (htotals : TotalsNonneg2026 breakdown) {context : Context K}
    (hpoints : context.scoringPoints.Nonneg) (weights : TeamNumbers K)
    (coprs : Option (TeamNumbers K)) :
    Conserved (parse2026AllianceTruth teamKeys alliance breakdown context weights coprs)
      (teleopPoints2026 breakdown) (teleopCount2026 breakdown).1
      (autoTotal2026 context breakdown teamKeys.length) := by
  have hcount := teleopCount2026_nonneg htotals
  have hhub := hubAutoPoints_nonneg htotals
  have htower (idx : Nat) : 0 ≤ autoTowerPoints2026 context breakdown idx :=
    towerPointsFromStatus_nonneg hpoints _ _
  unfold parse2026AllianceTruth
  generalize teleopCount2026 breakdown = count at hcount ⊢
  obtain ⟨count, capped⟩ := count
  dsimp only at hcount ⊢
  refine ⟨?_, ?_, ?_, ?_, ?_⟩
  · intro row hrow
    obtain ⟨_, -, rfl⟩ := List.mem_map.mp hrow
    exact le_max_left _ _
  · rw [List.map_map]
    exact teleop_conserved hkeys rfl _ weights
  · intro row hrow c hc
    obtain ⟨_, -, rfl⟩ := List.mem_map.mp hrow
    exact count_of_shares hkeys hcount weights hc
  · rintro total rfl
    refine ⟨shareWeighted (some total) teamKeys weights, ?_, sum_shareWeighted hkeys total weights⟩
    rw [List.map_map]
    exact map_zipIdx_getElem? (by simp)
  · cases hbyTeam : autoPointsByTeam teamKeys (hubAutoPoints breakdown) coprs with
    | some byTeam =>
        obtain ⟨hlength, hnonneg, hsum⟩ := autoPointsByTeam_some hbyTeam hhub
        refine .inr ⟨teamKeys.zipIdx.map fun x =>
          max 0 (byTeam.getD x.2 0 + autoTowerPoints2026 context breakdown x.2), ?_, ?_⟩
        · rw [List.map_map, List.map_map]
          rfl
        · have hshare (i : Nat) : 0 ≤ byTeam.getD i 0 := by
            rw [List.getD_eq_getElem?_getD]
            cases hi : byTeam[i]? with
            | none => exact le_rfl
            | some share => exact hnonneg share (List.mem_of_getElem? hi)
          have hshares : (teamKeys.zipIdx.map fun x => byTeam.getD x.2 0) = byTeam :=
            (map_zipIdx_getD hlength.symm id 0).trans (List.map_id _)
          rw [List.map_congr_left fun x _ => max_eq_right (add_nonneg (hshare x.2) (htower x.2)),
            List.sum_map_add, map_zipIdx_snd teamKeys (autoTowerPoints2026 context breakdown),
            hshares, hsum]
          rfl
    | none =>
        by_cases hzero : hubAutoPoints breakdown = some 0
        · refine .inr ⟨(List.range teamKeys.length).map (autoTowerPoints2026 context breakdown),
            ?_, ?_⟩
          · rw [List.map_map, ← map_zipIdx_snd, List.map_map]
            exact List.map_congr_left fun _ _ => if_pos hzero
          · rw [autoTotal2026, hzero, Option.getD_some, zero_add]
        · refine .inl fun row hrow => ?_
          obtain ⟨_, -, rfl⟩ := List.mem_map.mp hrow
          exact if_neg hzero

omit [LinearOrder K] [IsStrictOrderedRing K] [Floats K] in
theorem sum_flagged (flags : List Bool) (c : K) :
    (flags.map fun line => if line then c else 0).sum = flags.count true * c := by
  induction flags with
  | nil => simp
  | cons line flags ih =>
      cases line
      · simp [ih]
      · simp [ih]
        ring

omit [Floats K] in
/-- The mobility points go to the robots that left the line, if any did. -/
theorem sum_mobility (flags : List Bool) (mobility : K) :
    (flags.map fun line => if line then mobility / (max 1 (flags.count true) : Nat) else 0).sum =
      if true ∈ flags then mobility else 0 := by
  rw [sum_flagged]
  split
  · rename_i hline
    have hpos : 0 < flags.count true := List.count_pos_iff.mpr hline
    rw [Nat.max_eq_right hpos, mul_div_cancel₀ _ (Nat.cast_pos.mpr hpos).ne']
  · rename_i hnone
    rw [List.count_eq_zero.mpr hnone, Nat.cast_zero, zero_mul]

theorem conserved_parse2025 {teamKeys : List String} (hkeys : teamKeys ≠ []) (alliance : String)
    {breakdown : Obj K} (htotals : TotalsNonneg2025 breakdown) (weights : TeamNumbers K) :
    Conserved (parse2025AllianceTruth teamKeys alliance breakdown weights)
      (some ((asFloat (breakdown.get "teleopPoints")).getD 0))
      (sumOptional [asFloat (breakdown.get "teleopCoralCount"),
        asFloat (breakdown.get "netAlgaeCount"), asFloat (breakdown.get "wallAlgaeCount")])
      (autoTotal2025 breakdown teamKeys.length) := by
  have hcoral : 0 ≤ (asFloat (breakdown.get "autoCoralPoints")).getD 0 := by
    cases hvalue : asFloat (breakdown.get "autoCoralPoints") with
    | none => exact le_rfl
    | some value => exact htotals.autoCoral value hvalue
  have hmobility : 0 ≤ (asFloat (breakdown.get "autoMobilityPoints")).getD 0 := by
    cases hvalue : asFloat (breakdown.get "autoMobilityPoints") with
    | none => exact le_rfl
    | some value => exact htotals.autoMobility value hvalue
  unfold parse2025AllianceTruth
  refine ⟨?_, ?_, ?_, ?_, .inr ⟨(lineFlags2025 breakdown teamKeys.length).map
    (autoPoints2025 breakdown teamKeys.length), ?_, ?_⟩⟩
  · intro row hrow
    obtain ⟨_, -, rfl⟩ := List.mem_map.mp hrow
    exact le_max_left _ _
  · rw [List.map_map]
    exact teleop_conserved hkeys rfl _ weights
  · intro row hrow c hc
    obtain ⟨_, -, rfl⟩ := List.mem_map.mp hrow
    exact count_of_shares hkeys htotals.counts weights hc
  · intro total htotal
    refine ⟨shareWeighted (some total) teamKeys weights, ?_, sum_shareWeighted hkeys total weights⟩
    rw [List.map_map, htotal]
    exact map_zipIdx_getElem? (by simp)
  · rw [List.map_map, List.map_map]
    have hflags : teamKeys.length = (lineFlags2025 breakdown teamKeys.length).length := by
      rw [lineFlags2025, List.length_map, List.length_range]
    exact map_zipIdx_getD hflags (fun line => some (autoPoints2025 breakdown teamKeys.length line))
      false
  · have hshare (line : Bool) : 0 ≤ (asFloat (breakdown.get "autoCoralPoints")).getD 0 /
        teamKeys.length + if line then (asFloat (breakdown.get "autoMobilityPoints")).getD 0 /
          (max 1 ((lineFlags2025 breakdown teamKeys.length).count true) : Nat) else 0 := by
      refine add_nonneg (div_nonneg hcoral (Nat.cast_nonneg _)) ?_
      split
      · exact div_nonneg hmobility (Nat.cast_nonneg _)
      · exact le_rfl
    have hrobots : (teamKeys.length : K) ≠ 0 :=
      Nat.cast_ne_zero.mpr (List.length_pos_of_ne_nil hkeys).ne'
    have hpoints : autoPoints2025 breakdown teamKeys.length = fun line =>
        (asFloat (breakdown.get "autoCoralPoints")).getD 0 / teamKeys.length +
          if line then (asFloat (breakdown.get "autoMobilityPoints")).getD 0 /
            (max 1 ((lineFlags2025 breakdown teamKeys.length).count true) : Nat) else 0 := by
      funext line
      exact max_eq_right (hshare line)
    rw [hpoints, List.sum_map_add,
      sum_mobility, autoTotal2025]
    congr 1
    simp only [List.map_const', List.sum_replicate, lineFlags2025, List.length_map,
      List.length_range, nsmul_eq_mul]
    exact mul_div_cancel₀ _ hrobots

/-- The rows of an alliance of 2025 and of 2026 hand out its totals. -/
theorem alliance_truth_conserved {teamKeys : List String} (hkeys : teamKeys ≠ [])
    (alliance : String) (breakdown : Obj K) {context : Context K}
    (hpoints : context.scoringPoints.Nonneg) (weights : TeamNumbers K)
    (coprs : Option (TeamNumbers K)) :
    (TotalsNonneg2026 breakdown →
      Conserved (parseAllianceTruth 2026 teamKeys alliance breakdown context weights coprs)
        (teleopPoints2026 breakdown) (teleopCount2026 breakdown).1
        (autoTotal2026 context breakdown teamKeys.length)) ∧
    (TotalsNonneg2025 breakdown →
      Conserved (parseAllianceTruth 2025 teamKeys alliance breakdown context weights coprs)
        (some ((asFloat (breakdown.get "teleopPoints")).getD 0))
        (sumOptional [asFloat (breakdown.get "teleopCoralCount"),
          asFloat (breakdown.get "netAlgaeCount"), asFloat (breakdown.get "wallAlgaeCount")])
        (autoTotal2025 breakdown teamKeys.length)) :=
  ⟨fun h => conserved_parse2026 hkeys alliance h hpoints weights coprs,
    fun h => conserved_parse2025 hkeys alliance h weights⟩

end Parsers

/-- What `season_template.json` says about scoring. -/
def shippedConfig : GameConfig ℚ where
  totalSec := 160
  autoSec := 20
  teleopSec := 140
  endgameSec := 30
  scoringActions := [("auto_fuel_score", some 1), ("teleop_fuel_score", some 1),
    ("low_climb", some 10), ("mid_climb", some 20), ("high_climb", some 30),
    ("auto_level1_climb", some 15)]

theorem nonneg_shippedConfig : (truthContext (some shippedConfig)).scoringPoints.Nonneg := by
  constructor <;> decide +kernel

/-- Two robots, one of which left the line, with 6 coral and 3 mobility points. -/
def oneLeft : Obj ℚ :=
  [("autoCoralPoints", .int 6), ("autoMobilityPoints", .int 3), ("autoLineRobot1", .str "Yes"),
    ("teleopPoints", .int 20), ("teleopCoralCount", .int 4)]

/-- The same without a flag. -/
def noneLeft : Obj ℚ := [("autoCoralPoints", .int 6), ("autoMobilityPoints", .int 3)]

theorem alliance_truth_conserved_oneLeft :
    Conserved (parseAllianceTruth 2025 ["frc1", "frc2"] "red" oneLeft
      (truthContext (some shippedConfig)) (fun _ => none) none) (some 20) (some 4) 9 := by
  have hteams : ["frc1", "frc2"] ≠ [] := List.cons_ne_nil _ _
  have htotals : TotalsNonneg2025 oneLeft := by
    constructor <;> decide +kernel
  have h := (alliance_truth_conserved hteams "red" oneLeft nonneg_shippedConfig (fun _ => none)
    none).2 htotals
  have hteleop : (asFloat (oneLeft.get "teleopPoints")).getD 0 = 20 := by decide +kernel
  have hcount : sumOptional [asFloat (oneLeft.get "teleopCoralCount"),
      asFloat (oneLeft.get "netAlgaeCount"), asFloat (oneLeft.get "wallAlgaeCount")] = some 4 := by
    decide +kernel
  have hauto : autoTotal2025 oneLeft ["frc1", "frc2"].length = 9 := by decide +kernel
  rwa [hteleop, hcount, hauto] at h

/-- Without a flag the mobility points go to no robot. -/
theorem mobility_points_dropped :
    ¬ ∀ breakdown : Obj ℚ, TotalsNonneg2025 breakdown →
      ((parseAllianceTruth 2025 ["frc1", "frc2", "frc3"] "red" breakdown
        (truthContext (some shippedConfig)) (fun _ => none) none).map
          fun row => row.autoPoints.getD 0).sum =
        (asFloat (breakdown.get "autoCoralPoints")).getD 0 +
          (asFloat (breakdown.get "autoMobilityPoints")).getD 0 := by
  intro h
  have htotals : TotalsNonneg2025 noneLeft := by
    constructor <;> decide +kernel
  exact absurd (h noneLeft htotals) (by decide +kernel)

end Frcmob.Official
