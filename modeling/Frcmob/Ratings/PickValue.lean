import Frcmob.Lib.Double
import Frcmob.Text
import Mathlib.Data.List.Sort

/-!
The line-ups of `services/ratings/pick_value.py`: which teams it compares, not what the team
model says of them. Teams are chosen by percentile from the event's pool, best first.
-/

namespace Frcmob.Ratings

universe u

/-! ### Reference teams -/

def referencePercentiles : List ℚ := [95 / 100, 80 / 100, 65 / 100]

def typicalPercentiles : List ℚ := [60 / 100, 50 / 100, 40 / 100]

/-- `int((1.0 - q) * len(pool))` -/
def percentileIndex (q : ℚ) (size : Nat) : Nat :=
  ⌊Double.round (Double.round (1 - Double.round q) * Double.round size)⌋.toNat

/-- The walk along the pool to the first team not chosen yet, at most to the last one. -/
def walk (chosen : List String) : List String → Option String
  | [] => none
  | [team] => some team
  | team :: next :: rest => if team ∈ chosen then walk chosen (next :: rest) else some team

/-- The loop of `_reference_teams` for the indices where it starts. -/
def chooseFrom (pool : List String) : List Nat → List String → Option (List String)
  | [], chosen => some chosen
  | index :: indices, chosen => do
      let team ← walk chosen (pool.drop index)
      chooseFrom pool indices (chosen ++ [team])

def poolOf (ranked exclude : List String) : List String :=
  ranked.filter (· ∉ exclude)

def startIndices (percentiles : List ℚ) (size : Nat) : List Nat :=
  percentiles.map fun q => min (size - 1) (percentileIndex q size)

/-- `_reference_teams`; none where it raises, on an empty pool. -/
def referenceTeams (ranked exclude : List String) (percentiles : List ℚ) : Option (List String) :=
  let pool := poolOf ranked exclude
  chooseFrom pool (startIndices percentiles pool.length) []

/-! ### Line-ups -/

/-- The distinct teams of the event. -/
def teamsOf (eventTeams : List String) : List String :=
  (eventTeams.map lower).dedup.insertionSort (· ≤ ·)

/-- `partners` -/
def partnersOf (teams partnerKeys : List String) : List String :=
  ((partnerKeys.filter (lower · ∈ teams)).map lower).take 2

/-- `ranked` -/
def rankedBy {K : Type u} [LinearOrder K] (points : String → K) (teams : List String) :
    List String :=
  teams.insertionSort fun s t => points t ≤ points s

/-- `alliance` of a candidate. -/
def lineUp (ranked partners : List String) (candidate : String) : Option (List String) :=
  let alliance := partners ++ [candidate]
  if alliance.length < 3 then do
    let filler ← ranked[ranked.length / 2]?
    let third ← if filler ∉ alliance then some filler else ranked[ranked.length / 2 + 1]?
    some (alliance ++ [third])
  else some alliance

structure PickValues where
  partners : List String
  assumedThird : Option String
  reference : List String
  /-- The candidates with the alliances evaluated for them. -/
  lineUps : List (String × List String)
  unavailable : Option String
deriving DecidableEq

/-- `pick_values`; none where it raises. -/
def pickValues {K : Type u} [LinearOrder K] (isRated isFrozen : Bool) (eventTeams : List String)
    (points : String → K) (partnerKeys : List String) : Option PickValues :=
  if !isRated || isFrozen then
    some ⟨[], none, [], [], some (if isRated then "season_frozen" else "season_not_rated")⟩
  else do
    let teams := teamsOf eventTeams
    let partners := partnersOf teams partnerKeys
    let ranked := rankedBy points teams
    if ranked.length < 6 then some ⟨partners, none, [], [], none⟩
    else
      let reference ← referenceTeams ranked partners referencePercentiles
      let filler ← ranked[ranked.length / 2]?
      let lineUps ← (teams.filter (· ∉ partners)).mapM fun candidate => do
        some (candidate, ← lineUp ranked partners candidate)
      some ⟨partners, if partners.length < 2 then some filler else none, reference, lineUps, none⟩

/-! ### Different reference teams -/

theorem walk_free {chosen teams : List String} (h : ∃ team ∈ teams, team ∉ chosen) :
    ∃ team, walk chosen teams = some team ∧ team ∉ chosen := by
  fun_induction walk chosen teams with
  | case1 => exact absurd h.choose_spec.1 List.not_mem_nil
  | case2 team =>
      obtain ⟨free, hmem, hfree⟩ := h
      exact ⟨team, rfl, List.mem_singleton.mp hmem ▸ hfree⟩
  | case3 team next rest htaken ih =>
      obtain ⟨free, hmem, hfree⟩ := h
      rcases List.mem_cons.mp hmem with rfl | hmem
      · exact absurd htaken hfree
      · exact ih ⟨free, hmem, hfree⟩
  | case4 team next rest hfree => exact ⟨team, rfl, hfree⟩

theorem exists_free {chosen teams : List String} (hteams : teams.Nodup)
    (h : chosen.length < teams.length) : ∃ team ∈ teams, team ∉ chosen := by
  by_contra hnone
  have hsubset : teams ⊆ chosen := fun team hteam =>
    by_contra fun hfree => hnone ⟨team, hteam, hfree⟩
  exact absurd (List.subperm_of_subset hteams hsubset).length_le (not_le.mpr h)

/-- Walks that start far enough from the end of the pool choose different teams. -/
theorem chooseFrom_distinct {pool : List String} (hpool : pool.Nodup) {indices : List Nat}
    {chosen : List String} (hchosen : chosen.Nodup)
    (hroom : ∀ index ∈ indices, index + (chosen.length + indices.length) ≤ pool.length) :
    ∃ teams, chooseFrom pool indices chosen = some teams ∧ teams.Nodup := by
  induction indices generalizing chosen with
  | nil => exact ⟨chosen, rfl, hchosen⟩
  | cons index indices ih =>
      have hlen := hroom index List.mem_cons_self
      rw [List.length_cons] at hlen
      have hroomy : chosen.length < (pool.drop index).length := by
        rw [List.length_drop]
        omega
      obtain ⟨team, hwalk, hfree⟩ :=
        walk_free (exists_free (hpool.sublist (List.drop_sublist index pool)) hroomy)
      have hnext : (chosen ++ [team]).Nodup := by
        rw [List.nodup_append]
        refine ⟨hchosen, List.nodup_singleton team, fun t ht t' ht' heq => ?_⟩
        exact hfree (List.mem_singleton.mp ht' ▸ heq ▸ ht)
      obtain ⟨teams, hteams, hdistinct⟩ := ih hnext fun index' hindex' => by
        have hlen' := hroom index' (List.mem_cons_of_mem _ hindex')
        simp only [List.length_cons, List.length_append, List.length_nil] at hlen' ⊢
        omega
      refine ⟨teams, ?_, hdistinct⟩
      rw [chooseFrom, hwalk]
      exact hteams

/-- The starts stay away from the end of a pool of six teams or more. -/
theorem percentileIndex_le {q : ℚ} (hzero : 0 ≤ Double.round (1 - Double.round q))
    (hcut : Double.round (1 - Double.round q) ≤ 61 / 100) {size : Nat} (h : 6 ≤ size) :
    percentileIndex q size + 3 ≤ size := by
  have hsize : (6 : ℚ) ≤ size := by exact_mod_cast h
  have hround := Double.round_le (Nat.cast_nonneg (α := ℚ) size)
  have hproduct : Double.round (1 - Double.round q) * Double.round size ≤
      61 / 100 * (size * (1 + 1 / 2 ^ 53)) :=
    mul_le_mul hcut hround (Double.round_nonneg (Nat.cast_nonneg _)) (by norm_num)
  have hvalue := Double.round_le (mul_nonneg hzero (Double.round_nonneg (Nat.cast_nonneg size)))
  have hbound : Double.round (Double.round (1 - Double.round q) * Double.round size) <
      ((size - 2 : Int) : ℚ) := by
    push_cast
    calc _ ≤ _ := hvalue
      _ ≤ 61 / 100 * (size * (1 + 1 / 2 ^ 53)) * (1 + 1 / 2 ^ 53) :=
          mul_le_mul_of_nonneg_right hproduct (by norm_num)
      _ < size - 2 := by linarith
  have hfloor := Int.floor_lt.mpr hbound
  unfold percentileIndex
  omega

theorem startIndices_le {percentiles : List ℚ}
    (h : percentiles = referencePercentiles ∨ percentiles = typicalPercentiles) {size : Nat}
    (hsize : 6 ≤ size) : ∀ index ∈ startIndices percentiles size, index + 3 ≤ size := by
  have hcuts : ∀ q ∈ referencePercentiles ++ typicalPercentiles,
      0 ≤ Double.round (1 - Double.round q) ∧ Double.round (1 - Double.round q) ≤ 61 / 100 := by
    decide +kernel
  intro index hindex
  obtain ⟨q, hq, rfl⟩ := List.mem_map.mp hindex
  have hmem : q ∈ referencePercentiles ++ typicalPercentiles := by
    rcases h with rfl | rfl
    · exact List.mem_append_left _ hq
    · exact List.mem_append_right _ hq
  have hle := percentileIndex_le (hcuts q hmem).1 (hcuts q hmem).2 hsize
  omega

/-- Where the walks start in a pool of less than six teams. -/
theorem startIndices_small :
    startIndices referencePercentiles 3 = [0, 0, 1] ∧
      startIndices typicalPercentiles 3 = [1, 1, 1] ∧
      startIndices typicalPercentiles 4 = [1, 2, 2] ∧
      startIndices typicalPercentiles 5 = [2, 2, 3] ∧
      (∀ index ∈ startIndices referencePercentiles 4, index + 3 ≤ 4) ∧
      ∀ index ∈ startIndices referencePercentiles 5, index + 3 ≤ 5 := by
  decide +kernel

theorem reference_ne_typical : referencePercentiles ≠ typicalPercentiles := by
  obtain ⟨hreference, htypical, -⟩ := startIndices_small
  intro h
  rw [h, htypical] at hreference
  cases hreference

theorem pool_of_three {a b c : String} (h : [a, b, c].Nodup) :
    chooseFrom [a, b, c] (startIndices referencePercentiles 3) [] = some [a, b, c] ∧
      chooseFrom [a, b, c] (startIndices typicalPercentiles 3) [] = some [b, c, c] := by
  obtain ⟨hreference, htypical, -⟩ := startIndices_small
  have hba : b ≠ a := by rintro rfl; simp at h
  rw [hreference, htypical]
  simp [chooseFrom, walk, hba]

theorem pool_of_four {a b c d : String} (h : [a, b, c, d].Nodup) :
    chooseFrom [a, b, c, d] (startIndices typicalPercentiles 4) [] = some [b, c, d] := by
  obtain ⟨-, -, htypical, -⟩ := startIndices_small
  have hcb : c ≠ b := by rintro rfl; simp at h
  rw [htypical]
  simp [chooseFrom, walk, hcb]

theorem pool_of_five {a b c d e : String} (h : [a, b, c, d, e].Nodup) :
    chooseFrom [a, b, c, d, e] (startIndices typicalPercentiles 5) [] = some [c, d, e] := by
  obtain ⟨-, -, -, htypical, -⟩ := startIndices_small
  have hdc : d ≠ c := by rintro rfl; simp at h
  rw [htypical]
  simp [chooseFrom, walk, hdc]

theorem referenceTeams_distinct_iff {ranked exclude : List String} (hranked : ranked.Nodup)
    {percentiles : List ℚ}
    (h : percentiles = referencePercentiles ∨ percentiles = typicalPercentiles)
    (hsize : 3 ≤ (poolOf ranked exclude).length) :
    (∃ teams, referenceTeams ranked exclude percentiles = some teams ∧ teams.Nodup) ↔
      ¬ (percentiles = typicalPercentiles ∧ (poolOf ranked exclude).length = 3) := by
  have hpool : (poolOf ranked exclude).Nodup := hranked.filter _
  unfold referenceTeams
  dsimp only
  generalize poolOf ranked exclude = pool at hpool hsize
  have hthree : percentiles.length = 3 := by rcases h with rfl | rfl <;> rfl
  have hfar : (∀ index ∈ startIndices percentiles pool.length, index + 3 ≤ pool.length) →
      ∃ teams, chooseFrom pool (startIndices percentiles pool.length) [] = some teams ∧
        teams.Nodup := fun hroom => chooseFrom_distinct hpool List.nodup_nil fun index hindex => by
    have hlen := hroom index hindex
    rw [startIndices, List.length_map, hthree, List.length_nil]
    omega
  obtain ⟨-, -, -, -, hfour, hfive⟩ := startIndices_small
  rcases lt_or_ge pool.length 6 with hsmall | hlarge
  · rcases pool with _ | ⟨a, _ | ⟨b, _ | ⟨c, _ | ⟨d, _ | ⟨e, rest⟩⟩⟩⟩⟩
    · simp at hsize
    · simp at hsize
    · simp at hsize
    · obtain ⟨hreference, htypical⟩ := pool_of_three hpool
      rcases h with rfl | rfl
      · exact iff_of_true ⟨_, hreference, hpool⟩ fun h => reference_ne_typical h.1
      · refine iff_of_false ?_ fun hnot => hnot ⟨rfl, rfl⟩
        rintro ⟨teams, hteams, hdistinct⟩
        obtain rfl := Option.some.inj (htypical.symm.trans hteams)
        simp at hdistinct
    · rcases h with rfl | rfl
      · exact iff_of_true (hfar hfour) fun h => absurd h.2 (by simp)
      · refine iff_of_true ⟨_, pool_of_four hpool, ?_⟩ fun h => absurd h.2 (by simp)
        exact (List.nodup_cons.mp hpool).2
    · have hrest : rest.length = 0 := by
        simp only [List.length_cons] at hsmall
        omega
      obtain rfl := List.length_eq_zero_iff.mp hrest
      rcases h with rfl | rfl
      · exact iff_of_true (hfar hfive) fun h => absurd h.2 (by simp)
      · refine iff_of_true ⟨_, pool_of_five hpool, ?_⟩ fun h => absurd h.2 (by simp)
        exact (List.nodup_cons.mp (List.nodup_cons.mp hpool).2).2
  · exact iff_of_true (hfar (startIndices_le h hlarge)) fun h => by omega

/-! ### Different robots -/

/-- The partners differ, and one partner alone is neither of the two teams that can come third. -/
structure SafePartners (ranked partners : List String) : Prop where
  distinct : partners.Nodup
  notThird : ∀ partner, partners = [partner] →
    ranked[ranked.length / 2]? ≠ some partner ∧ ranked[ranked.length / 2 + 1]? ≠ some partner

/-- The two teams that can come third. -/
theorem thirds {ranked : List String} (hranked : ranked.Nodup) (hsize : 6 ≤ ranked.length) :
    ∃ filler next, ranked[ranked.length / 2]? = some filler ∧
      ranked[ranked.length / 2 + 1]? = some next ∧ filler ≠ next ∧
      filler ∈ ranked ∧ next ∈ ranked := by
  have hfiller : ranked.length / 2 < ranked.length := by omega
  have hnext : ranked.length / 2 + 1 < ranked.length := by omega
  refine ⟨_, _, List.getElem?_eq_getElem hfiller, List.getElem?_eq_getElem hnext, fun heq => ?_,
    List.getElem_mem hfiller, List.getElem_mem hnext⟩
  have hindex := (hranked.getElem_inj_iff).mp heq
  omega

theorem mapM_some_iff {α : Type u} {β : Type u} {f : α → Option β} {xs : List α} {P : β → Prop} :
    (∃ ys, xs.mapM f = some ys ∧ ∀ y ∈ ys, P y) ↔ ∀ x ∈ xs, ∃ y, f x = some y ∧ P y := by
  induction xs with
  | nil => simp
  | cons x xs ih =>
      rw [List.forall_mem_cons, ← ih, List.mapM_cons]
      cases hx : f x with
      | none => simp
      | some y =>
          cases hxs : xs.mapM f with
          | none => simp
          | some ys => simp

/-- The line-up of one candidate. -/
theorem lineUp_distinct_iff {ranked partners : List String} {candidate filler next : String}
    (hfiller : ranked[ranked.length / 2]? = some filler)
    (hnext : ranked[ranked.length / 2 + 1]? = some next) (hne : filler ≠ next)
    (hpartners : partners.length ≤ 2) (hcandidate : candidate ∉ partners) :
    (∃ alliance, lineUp ranked partners candidate = some alliance ∧ alliance.Nodup) ↔
      partners.Nodup ∧ ∀ partner, partners = [partner] →
        ¬ (partner = filler ∧ candidate = next) ∧ ¬ (partner = next ∧ candidate = filler) := by
  rcases partners with _ | ⟨a, _ | ⟨b, _ | ⟨c, rest⟩⟩⟩
  · by_cases hmedian : filler = candidate
    · simp [lineUp, hfiller, hnext, hmedian, hmedian ▸ hne]
    · simp [lineUp, hfiller, hmedian, Ne.symm hmedian]
  · have hac : a ≠ candidate := fun heq => hcandidate (heq ▸ List.mem_cons_self)
    by_cases hmedian : filler = a ∨ filler = candidate
    · rcases hmedian with rfl | rfl
      · simp [lineUp, hfiller, hnext, hac, hne, eq_comm]
      · simp [lineUp, hfiller, hnext, hac, hne, eq_comm]
    · rw [not_or] at hmedian
      simp [lineUp, hfiller, hac, hmedian.1, hmedian.2, Ne.symm hmedian.1, Ne.symm hmedian.2]
  · have hac : a ≠ candidate := fun heq => hcandidate (heq ▸ List.mem_cons_self)
    have hbc : b ≠ candidate := fun heq => hcandidate (by simp [heq])
    simp [lineUp, hac, hbc]
  · simp at hpartners

theorem lineUps_distinct_iff {teams ranked partners : List String} (hranked : ranked.Nodup)
    (hmem : ∀ team, team ∈ ranked ↔ team ∈ teams) (hsize : 6 ≤ ranked.length)
    (hpartners : partners.length ≤ 2) :
    (∃ lineUps, (teams.filter (· ∉ partners)).mapM (fun candidate =>
        (lineUp ranked partners candidate).bind fun alliance => some (candidate, alliance)) =
          some lineUps ∧ ∀ entry ∈ lineUps, entry.2.Nodup) ↔ SafePartners ranked partners := by
  obtain ⟨filler, next, hfiller, hnext, hne, hinFiller, hinNext⟩ := thirds hranked hsize
  rw [mapM_some_iff]
  have hone : ∀ candidate ∈ teams.filter (· ∉ partners),
      (∃ entry, ((lineUp ranked partners candidate).bind fun alliance =>
          some (candidate, alliance)) = some entry ∧ entry.2.Nodup) ↔
        partners.Nodup ∧ ∀ partner, partners = [partner] →
          ¬ (partner = filler ∧ candidate = next) ∧ ¬ (partner = next ∧ candidate = filler) := by
    intro candidate hcandidate
    rw [← lineUp_distinct_iff hfiller hnext hne hpartners (by simpa using
      (List.mem_filter.mp hcandidate).2)]
    cases lineUp ranked partners candidate <;> simp
  have hcandidates : ∀ team ∈ ranked, team ∉ partners → team ∈ teams.filter (· ∉ partners) :=
    fun team hteam hfree => List.mem_filter.mpr ⟨(hmem team).mp hteam, decide_eq_true hfree⟩
  constructor
  · intro h
    obtain ⟨free, hinRanked, hfree⟩ := exists_free hranked (hpartners.trans_lt (by omega))
    have hin := hcandidates free hinRanked hfree
    refine ⟨((hone free hin).mp (h free hin)).1, ?_⟩
    rintro partner rfl
    rw [hfiller, hnext]
    refine ⟨fun heq => ?_, fun heq => ?_⟩
    · obtain rfl := Option.some.inj heq
      have hin := hcandidates next hinNext (by simpa using hne.symm)
      exact (((hone next hin).mp (h next hin)).2 filler rfl).1 ⟨rfl, rfl⟩
    · obtain rfl := Option.some.inj heq
      have hin := hcandidates filler hinFiller (by simpa using hne)
      exact (((hone filler hin).mp (h filler hin)).2 next rfl).2 ⟨rfl, rfl⟩
  · intro hsafe candidate hcandidate
    refine (hone candidate hcandidate).mpr ⟨hsafe.distinct, fun partner hpartner => ?_⟩
    obtain ⟨hnotFiller, hnotNext⟩ := hsafe.notThird partner hpartner
    rw [hfiller] at hnotFiller
    rw [hnext] at hnotNext
    exact ⟨fun h => hnotFiller (h.1 ▸ rfl), fun h => hnotNext (h.1 ▸ rfl)⟩

theorem length_le_poolOf {ranked : List String} (hranked : ranked.Nodup) (exclude : List String) :
    ranked.length ≤ (poolOf ranked exclude).length + exclude.length := by
  have hsplit := List.length_eq_length_filter_add (l := ranked) (· ∉ exclude)
  have hsubset : ranked.filter (fun team => !decide (team ∉ exclude)) ⊆ exclude :=
    fun team hteam => by simpa using (List.mem_filter.mp hteam).2
  have hle := (List.subperm_of_subset (hranked.filter _) hsubset).length_le
  unfold poolOf
  omega

theorem nodup_teamsOf (eventTeams : List String) : (teamsOf eventTeams).Nodup :=
  (List.perm_insertionSort _ _).nodup_iff.mpr (List.nodup_dedup _)

section Alliances
variable {K : Type u} [LinearOrder K]

theorem perm_rankedBy (points : String → K) (teams : List String) :
    (rankedBy points teams).Perm teams :=
  List.perm_insertionSort _ _

theorem pickValues_distinct_iff (isRated isFrozen : Bool) (eventTeams : List String)
    (points : String → K) (partnerKeys : List String) :
    (∃ values, pickValues isRated isFrozen eventTeams points partnerKeys = some values ∧
        ∀ entry ∈ values.lineUps, entry.2.Nodup) ↔
      (isRated = true → isFrozen = false → 6 ≤ (teamsOf eventTeams).length →
        SafePartners (rankedBy points (teamsOf eventTeams))
            (partnersOf (teamsOf eventTeams) partnerKeys)) := by
  have hperm := perm_rankedBy points (teamsOf eventTeams)
  have hranked := hperm.nodup_iff.mpr (nodup_teamsOf eventTeams)
  have hpartners : (partnersOf (teamsOf eventTeams) partnerKeys).length ≤ 2 :=
    List.length_take_le ..
  rw [← hperm.length_eq, pickValues]
  dsimp only
  generalize teamsOf eventTeams = teams at *
  generalize rankedBy points teams = ranked at *
  generalize partnersOf teams partnerKeys = partners at *
  by_cases hmodel : (!isRated || isFrozen) = true
  · rw [if_pos hmodel]
    refine iff_of_true ⟨_, rfl, fun entry h => absurd h List.not_mem_nil⟩ fun hrated hfrozen => ?_
    rw [hrated, hfrozen] at hmodel
    exact absurd hmodel (by decide)
  by_cases hfew : ranked.length < 6
  · rw [if_neg hmodel, if_pos hfew]
    refine iff_of_true ⟨_, rfl, fun entry h => absurd h List.not_mem_nil⟩ fun _ _ hmany => ?_
    exact absurd hfew (not_lt.mpr hmany)
  · have hsize := not_lt.mp hfew
    have hthree : 3 ≤ (poolOf ranked partners).length := by
      have hle := length_le_poolOf hranked partners
      omega
    obtain ⟨reference, hreference, -⟩ :=
      (referenceTeams_distinct_iff hranked (.inl rfl) hthree).mpr fun h =>
        reference_ne_typical h.1
    obtain ⟨filler, -, hfiller, -⟩ := thirds hranked hsize
    have hlineUps := lineUps_distinct_iff hranked (fun _ => hperm.mem_iff) hsize hpartners
    rw [if_neg hmodel, if_neg hfew, hreference, hfiller]
    simp only [Option.bind_eq_bind, Option.bind_some]
    refine ⟨fun h _ _ _ => hlineUps.mp ?_, fun h => ?_⟩
    · obtain ⟨values, hvalues, hdistinct⟩ := h
      obtain ⟨lineUps, hmap, heq⟩ := Option.bind_eq_some_iff.mp hvalues
      obtain rfl := Option.some.inj heq
      exact ⟨lineUps, hmap, hdistinct⟩
    · rw [Bool.or_eq_true, not_or, Bool.not_eq_true', Bool.not_eq_false] at hmodel
      obtain ⟨lineUps, hmap, hdistinct⟩ :=
        hlineUps.mpr (h hmodel.1 (Bool.eq_false_of_not_eq_true hmodel.2) hsize)
      rw [hmap]
      exact ⟨_, rfl, hdistinct⟩

/-- When the line-ups of a pick, and the teams they are compared with, are different robots. -/
theorem alliances_distinct_iff :
    (∀ (isRated isFrozen : Bool) (eventTeams : List String) (points : String → K)
      (partnerKeys : List String),
      (∃ values, pickValues isRated isFrozen eventTeams points partnerKeys = some values ∧
          ∀ entry ∈ values.lineUps, entry.2.Nodup) ↔
        (isRated = true → isFrozen = false → 6 ≤ (teamsOf eventTeams).length →
          SafePartners (rankedBy points (teamsOf eventTeams))
            (partnersOf (teamsOf eventTeams) partnerKeys))) ∧
    ∀ (ranked exclude : List String) (percentiles : List ℚ), ranked.Nodup →
      percentiles = referencePercentiles ∨ percentiles = typicalPercentiles →
      3 ≤ (poolOf ranked exclude).length →
      ((∃ teams, referenceTeams ranked exclude percentiles = some teams ∧ teams.Nodup) ↔
        ¬ (percentiles = typicalPercentiles ∧ (poolOf ranked exclude).length = 3)) :=
  ⟨pickValues_distinct_iff, fun _ _ _ hranked h hsize =>
    referenceTeams_distinct_iff hranked h hsize⟩

theorem alliances_distinct_iff_sixTeams :
    ¬ ∃ teams, referenceTeams ["frc1", "frc2", "frc3", "frc4", "frc5", "frc6"]
      ["frc1", "frc2", "frc3"] typicalPercentiles = some teams ∧ teams.Nodup := by
  have hiff := (alliances_distinct_iff (K := ℚ)).2
    ["frc1", "frc2", "frc3", "frc4", "frc5", "frc6"] ["frc1", "frc2", "frc3"] typicalPercentiles
    (by decide) (.inr rfl) (by decide)
  exact fun h => hiff.mp h ⟨rfl, by decide⟩

/-- The median team with the team after it makes a line-up that holds the latter twice, and the
typical alliance against three of six teams holds the last team twice. -/
theorem same_robot_twice :
    ((pickValues true false ["frc1", "frc2", "frc3", "frc4", "frc5", "frc6"] (fun _ => (0 : ℚ))
        ["frc4"]).any fun values => ("frc5", ["frc4", "frc5", "frc5"]) ∈ values.lineUps) = true ∧
      referenceTeams ["frc1", "frc2", "frc3", "frc4", "frc5", "frc6"] ["frc1", "frc2", "frc3"]
        typicalPercentiles = some ["frc5", "frc6", "frc6"] := by
  decide +kernel

end Alliances

end Frcmob.Ratings
