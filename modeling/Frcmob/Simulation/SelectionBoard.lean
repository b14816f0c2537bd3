import Frcmob.Simulation.SelectionDraws
import Mathlib.Algebra.BigOperators.Group.Finset.Basic
import Mathlib.Algebra.BigOperators.Field
import Mathlib.Analysis.Complex.Exponential
import Mathlib.Algebra.Order.Field.Basic
import Mathlib.Algebra.Order.BigOperators.Group.List
import Mathlib.Data.Nat.Cast.Order.Field
import Mathlib.Tactic.NormNum
import Mathlib.Tactic.Positivity

/-!
What the simulated drafts and the expected board add up to, in exact arithmetic: nobody is
drafted twice, every place that can be filled is, and the expected board is the serpentine draft
of the teams in order of desirability.
-/

namespace Frcmob.SelectionModel

open Places

/-! ### How often teams are picked -/

section Counting
variable {F : Type} [Add F] [Sub F] [Div F] [InvolutiveNeg F] [Zero F] [One F] [NatCast F]
  [OfScientific F] [LinearOrder F] {exp : F → F} {pool : List String}

theorem sum_pick {names : Finset String} {key : String} (hkey : key ∈ names) (counts : Counts)
    (round r : Round) :
    ∑ k ∈ names, (counts.pick round key).of r k =
      ∑ k ∈ names, counts.of r k + if round = r then 1 else 0 := by
  have hupdate : ∀ f : String → Nat,
      ∑ k ∈ names, Function.update f key (f key + 1) k = ∑ k ∈ names, f k + 1 := by
    intro f
    rw [Finset.sum_update_of_mem hkey, ← Finset.add_sum_erase names f hkey,
      Finset.sdiff_singleton_eq_erase]
    omega
  cases round <;> cases r <;> simp [Counts.pick, Counts.of, hupdate]

theorem pick_once (counts : Counts) (round : Round) (key k : String) :
    (counts.pick round key).first k + (counts.pick round key).second k =
      counts.first k + counts.second k + if k = key then 1 else 0 := by
  by_cases hk : k = key
  · cases round <;> simp only [Counts.pick, hk, if_true, reduceCtorEq, if_false,
      Function.update_self] <;> omega
  · cases round <;> simp [Counts.pick, hk]

theorem nameAt_mem {i : Nat} (hi : i < pool.length) : nameAt pool i ∈ pool := by
  rw [nameAt, List.getD_eq_getElem _ _ hi]
  exact List.getElem_mem hi

/-- A draft fills a place in each of its rounds while teams are left. -/
theorem fastDraft_total (hpool : pool.SortedLT) (desirabilityByTeam : String → Option F)
    (scale : F) (draws : Nat → F) (rounds : List Round) {available : List Nat}
    (hfree : Free pool available) (counts : Counts) (r : Round) :
    ∑ k ∈ pool.toFinset, (fastDraft exp pool (pool.map (desirabilityOf desirabilityByTeam)) scale
        draws rounds available counts).of r k =
      ∑ k ∈ pool.toFinset, counts.of r k + (rounds.take available.length).count r := by
  induction rounds generalizing available counts with
  | nil => simp [fastDraft]
  | cons round rest ih =>
      by_cases hsome : available = []
      · simp [fastDraft, hsome]
      · have hchosen := choose_mem_available exp hfree hpool hsome desirabilityByTeam
          scale (draws counts.drawn)
        obtain ⟨n, hlength⟩ : ∃ n, available.length = n + 1 :=
          Nat.exists_eq_succ_of_ne_zero (by simpa using hsome)
        have hname := nameAt_mem (hfree.inPool _ hchosen)
        simp only [fastDraft, hsome, if_false]
        rw [ih (hfree.erase _), ← nameAt, sum_pick (List.mem_toFinset.mpr hname),
          List.length_erase_of_mem hchosen, hlength, Nat.add_sub_cancel, List.take_succ_cons,
          List.count_cons]
        simp only [beq_iff_eq]
        omega

variable (exp) in
/-- In one draft a team is picked at most once, and only if it was free. -/
theorem fastDraft_once (hpool : pool.SortedLT) (desirabilityByTeam : String → Option F)
    (scale : F) (draws : Nat → F) (rounds : List Round) {available : List Nat}
    (hfree : Free pool available) (counts : Counts) (k : String) :
    let after := fastDraft exp pool (pool.map (desirabilityOf desirabilityByTeam)) scale draws
      rounds available counts
    after.first k + after.second k ≤ counts.first k + counts.second k +
      if k ∈ available.map (nameAt pool) then 1 else 0 := by
  induction rounds generalizing available counts with
  | nil => simp [fastDraft]
  | cons round rest ih =>
      by_cases hsome : available = []
      · simp [fastDraft, hsome]
      · have hchosen := choose_mem_available exp hfree hpool hsome desirabilityByTeam
          scale (draws counts.drawn)
        simp only [fastDraft, hsome, if_false]
        refine (ih (hfree.erase _) _).trans ?_
        rw [pick_once, ← nameAt, Nat.add_assoc]
        refine Nat.add_le_add_left ?_ _
        generalize choose (fastRows exp pool (pool.map (desirabilityOf desirabilityByTeam)) scale
          available) (draws counts.drawn) = chosen at hchosen ⊢
        by_cases hk : k = nameAt pool chosen
        · have hgone : k ∉ (available.erase chosen).map (nameAt pool) := by
            rintro hmem
            obtain ⟨i, hi, hik⟩ := List.mem_map.mp hmem
            have hnodup : available.Nodup := hfree.ascending.imp Nat.ne_of_lt
            obtain ⟨hne, hmem⟩ := hnodup.mem_erase_iff.mp hi
            exact hne (hfree.nameAt_inj hpool hmem hchosen (hik.trans hk))
          rw [if_pos hk, if_neg hgone, if_pos (hk ▸ List.mem_map_of_mem hchosen)]
        · rw [if_neg hk, Nat.zero_add]
          split
          · next hmem =>
              have hstill : k ∈ available.map (nameAt pool) :=
                (List.erase_sublist.map _).subset hmem
              rw [if_pos hstill]
          · exact Nat.zero_le _

theorem count_tallies (captains places : Nat) :
    ((tallies captains).take places).count .first = min captains places ∧
      ((tallies captains).take places).count .second = min captains (places - captains) := by
  simp [tallies, List.take_append, List.count_append, List.take_replicate, List.count_replicate]
  omega

variable {eventTeamKeys : List String}

variable (exp) in
theorem fastCounts_total (hkeys : eventTeamKeys.Nodup) (captainTeamKeys : List String)
    (desirabilityByTeam : String → Option F) (scale : F) (draws : Nat → F) (runs : Nat)
    (r : Round) :
    ∑ k ∈ (poolOf eventTeamKeys captainTeamKeys).toFinset,
        (fastCounts exp eventTeamKeys captainTeamKeys desirabilityByTeam scale draws runs).of r k =
      runs * ((tallies captainTeamKeys.length).take
        (poolOf eventTeamKeys captainTeamKeys).length).count r := by
  induction runs with
  | zero => cases r <;> simp [fastCounts, Counts.zero, Counts.of]
  | succ runs ih =>
      rw [fastCounts, fastDraft_total (sortedLT_poolOf hkeys captainTeamKeys) desirabilityByTeam
        scale draws _ .range, ih, List.length_range, Nat.succ_mul]

variable (exp) in
theorem fastCounts_once (hkeys : eventTeamKeys.Nodup) (captainTeamKeys : List String)
    (desirabilityByTeam : String → Option F) (scale : F) (draws : Nat → F) (runs : Nat)
    (k : String) :
    let counts := fastCounts exp eventTeamKeys captainTeamKeys desirabilityByTeam scale draws runs
    counts.first k + counts.second k ≤ runs := by
  induction runs with
  | zero => simp [fastCounts, Counts.zero]
  | succ runs ih =>
      refine (fastDraft_once exp (sortedLT_poolOf hkeys captainTeamKeys)
        desirabilityByTeam scale draws _ .range _ k).trans ?_
      refine Nat.add_le_add ih ?_
      split
      · exact Nat.le_refl 1
      · exact Nat.zero_le 1

end Counting

section Exact
variable {K : Type} [Field K] [LinearOrder K] [IsStrictOrderedRing K] {exp : K → K}
  {eventTeamKeys : List String}

theorem toFinset_poolOf (captainTeamKeys : List String) :
    (eventTeamKeys.filter (· ∉ captainTeamKeys)).toFinset =
      (poolOf eventTeamKeys captainTeamKeys).toFinset :=
  Finset.ext fun key => by
    rw [List.mem_toFinset, List.mem_toFinset, mem_poolOf, List.mem_filter, decide_eq_true_eq]

theorem card_pool (hkeys : eventTeamKeys.Nodup) (captainTeamKeys : List String) :
    (eventTeamKeys.filter (· ∉ captainTeamKeys)).toFinset.card =
      (poolOf eventTeamKeys captainTeamKeys).length := by
  rw [toFinset_poolOf, List.toFinset_card_of_nodup (sortedLT_poolOf hkeys _).nodup]

/-- Counts that add up to so many a simulation, as chances. -/
theorem sum_chances {pool : Finset String} {count : String → Nat} {chance : String → Option K}
    {simulations each : Nat} (hruns : simulations ≠ 0)
    (hchance : ∀ key ∈ pool, chance key = some ((count key : K) / simulations))
    (hsum : ∑ key ∈ pool, count key = simulations * each) :
    ∑ key ∈ pool, (chance key).getD 0 = (each : K) := by
  calc ∑ key ∈ pool, (chance key).getD 0
      = ∑ key ∈ pool, (count key : K) / simulations :=
        Finset.sum_congr rfl fun key hkey => by rw [hchance key hkey, Option.getD_some]
    _ = ((∑ key ∈ pool, count key : Nat) : K) / simulations := by
        rw [← Finset.sum_div, Nat.cast_sum]
    _ = each := by
        rw [hsum, Nat.cast_mul]
        exact mul_div_cancel_left₀ _ (Nat.cast_ne_zero.mpr hruns)

/-- The chances of a round add up to the picks it makes, and no team is drafted twice: its
chances of the two rounds together are at most one. -/
theorem chances_add_up (hkeys : eventTeamKeys.Nodup) (captainTeamKeys : List String)
    (desirabilityByTeam : String → Option K) (scale : K) (draws : Nat → K) {simulations : Nat}
    (hruns : simulations ≠ 0) :
    let chances := simulateAllianceSelection exp eventTeamKeys captainTeamKeys desirabilityByTeam
      scale draws simulations
    let pool := (eventTeamKeys.filter (· ∉ captainTeamKeys)).toFinset
    ∑ key ∈ pool, (chances.first key).getD 0 = (min captainTeamKeys.length pool.card : Nat) ∧
      ∑ key ∈ pool, (chances.second key).getD 0 =
        (min captainTeamKeys.length (pool.card - captainTeamKeys.length) : Nat) ∧
      ∀ key, 0 ≤ (chances.first key).getD 0 ∧ 0 ≤ (chances.second key).getD 0 ∧
        (chances.first key).getD 0 + (chances.second key).getD 0 ≤ 1 := by
  intro chances pool
  by_cases hopen : captainTeamKeys = [] ∨ poolOf eventTeamKeys captainTeamKeys = []
  · have hnone : chances = ⟨fun _ => none, fun _ => none⟩ :=
      if_pos (hopen.imp_right .inl)
    have hmin : min captainTeamKeys.length pool.card = 0 ∧
        min captainTeamKeys.length (pool.card - captainTeamKeys.length) = 0 := by
      rw [show pool.card = _ from card_pool hkeys captainTeamKeys]
      rcases hopen with hempty | hempty <;> simp [hempty]
    rw [hnone, hmin.1, hmin.2]
    simp
  · obtain ⟨hcaptains, hsome⟩ := not_or.mp hopen
    let counts := fastCounts exp eventTeamKeys captainTeamKeys desirabilityByTeam scale draws
      simulations
    have hchances : chances = counts.chances eventTeamKeys captainTeamKeys simulations :=
      if_neg (by simp [hcaptains, hsome, hruns])
    have hmem : ∀ key, key ∈ pool ↔ key ∈ eventTeamKeys ∧ key ∉ captainTeamKeys := fun key => by
      rw [← mem_poolOf, ← List.mem_toFinset, ← toFinset_poolOf]
    have htotal := fastCounts_total exp hkeys captainTeamKeys desirabilityByTeam scale
      draws simulations
    rw [← toFinset_poolOf, ← card_pool hkeys] at htotal
    have htallies := count_tallies captainTeamKeys.length pool.card
    refine ⟨?_, ?_, fun key => ?_⟩
    · rw [← htallies.1]
      exact sum_chances hruns (fun key hkey => by rw [hchances]; exact if_pos ((hmem key).mp hkey))
        (htotal .first)
    · rw [← htallies.2]
      exact sum_chances hruns (fun key hkey => by rw [hchances]; exact if_pos ((hmem key).mp hkey))
        (htotal .second)
    · rw [hchances]
      by_cases hkey : key ∈ eventTeamKeys ∧ key ∉ captainTeamKeys
      · have honce := fastCounts_once exp hkeys captainTeamKeys desirabilityByTeam scale
          draws simulations key
        have hpos : (0 : K) < simulations := Nat.cast_pos.mpr (Nat.pos_of_ne_zero hruns)
        simp only [Counts.chances, hkey, not_false_eq_true, and_self, if_true, Option.getD_some]
        refine ⟨by positivity, by positivity, ?_⟩
        rw [← add_div, div_le_one hpos]
        exact_mod_cast honce
      · simp [Counts.chances, hkey]

end Exact

/-- Fifty drafts of two teams by one captain. -/
theorem chances_add_up_three :
    let chances := simulateAllianceSelection (fun x : ℚ => max 0 (1 + x)) ["frc1", "frc2", "frc3"]
      ["frc1"] (fun _ => none) 35 (fun _ => 1 / 2) 50
    let pool := (["frc1", "frc2", "frc3"].filter (· ∉ ["frc1"])).toFinset
    ∑ key ∈ pool, (chances.first key).getD 0 = (min 1 pool.card : Nat) :=
  (chances_add_up (by decide) _ _ _ _ (by decide)).1

/-! ### The expected board -/

theorem head?_sortBy {α κ : Type} [LinearOrder κ] {key : α → κ} {l : List α} {x : α}
    (hinj : ∀ y ∈ l, key y = key x → y = x) (hx : x ∈ l) (hmin : ∀ y ∈ l, key x ≤ key y) :
    (sortBy key l).head? = some x := by
  have hsorted := pairwise_sortBy key l
  have hperm := perm_sortBy key l
  cases hlist : sortBy key l with
  | nil =>
      rw [hlist] at hperm
      exact absurd hperm.symm.eq_nil (List.ne_nil_of_mem hx)
  | cons y ys =>
      rw [hlist] at hsorted hperm
      have hy : y ∈ l := hperm.subset List.mem_cons_self
      have hle : key y ≤ key x := by
        rcases List.mem_cons.mp (hperm.symm.subset hx) with rfl | hmem
        · exact le_rfl
        · exact List.rel_of_pairwise_cons hsorted hmem
      exact congrArg some (hinj y hy (hle.antisymm (hmin y hy)))

section Ranking
variable {K : Type} [Field K] [LinearOrder K]

/-- The order of the teams a captain would pick: the most desirable, then the smallest key. -/
def desire (desirabilityByTeam : String → Option K) (key : String) : K ×ₗ String :=
  toLex (-desirabilityOf desirabilityByTeam key, key)

/-- Teams in the order a captain would pick them. -/
structure Ranked (desirabilityByTeam : String → Option K) (teams : List String) : Prop where
  sorted : teams.Pairwise fun a b => desire desirabilityByTeam a ≤ desire desirabilityByTeam b
  nodup : teams.Nodup
  named : "" ∉ teams

theorem Ranked.tail {desirabilityByTeam : String → Option K} {team : String} {rest : List String}
    (h : Ranked desirabilityByTeam (team :: rest)) : Ranked desirabilityByTeam rest :=
  ⟨h.sorted.of_cons, h.nodup.of_cons, fun hmem => h.named (List.mem_cons_of_mem _ hmem)⟩

theorem ranked_sortBy (desirabilityByTeam : String → Option K) {teams : List String}
    (hnodup : teams.Nodup) (hnamed : "" ∉ teams) :
    Ranked desirabilityByTeam (sortBy (desire desirabilityByTeam) teams) where
  sorted := pairwise_sortBy _ _
  nodup := (perm_sortBy _ _).nodup_iff.mpr hnodup
  named hmem := hnamed ((perm_sortBy _ _).subset hmem)

theorem Ranked.drop {desirabilityByTeam : String → Option K} {teams : List String}
    (h : Ranked desirabilityByTeam teams) (n : Nat) : Ranked desirabilityByTeam (teams.drop n) :=
  ⟨h.sorted.sublist (List.drop_sublist n teams), h.nodup.sublist (List.drop_sublist n teams),
    fun hmem => h.named (List.mem_of_mem_drop hmem)⟩

end Ranking

section Exact
variable {K : Type} [Field K] [LinearOrder K] [IsStrictOrderedRing K] {exp : K → K}
  {eventTeamKeys : List String}

/-- The most likely team is the most desirable one. -/
theorem head?_softmax (hmono : StrictMono exp) (hpos : ∀ x, 0 < exp x)
    {desirabilityByTeam : String → Option K} {team : String} {rest : List String}
    (h : Ranked desirabilityByTeam (team :: rest)) (scale : K) :
    (softmaxProbabilities exp desirabilityByTeam (team :: rest).toFinset.sort scale).head?.map
      (·.teamKey) = some team := by
  let names := (team :: rest).toFinset.sort
  let value := desirabilityOf desirabilityByTeam
  let weight := fun key => exp ((value key - top (names.map value)) / safeScale scale)
  have hmem : ∀ {key}, key ∈ names ↔ key ∈ team :: rest := by
    intro key
    rw [Finset.mem_sort, List.mem_toFinset]
  have hteam : team ∈ names := hmem.mpr List.mem_cons_self
  have hsome : names ≠ [] := List.ne_nil_of_mem hteam
  have hsum : 0 < total (names.map weight) := by
    rw [total, ← List.sum_eq_foldl]
    refine List.sum_pos _ (fun x hx => ?_) (by simpa using hsome)
    obtain ⟨key, -, rfl⟩ := List.mem_map.mp hx
    exact hpos _
  have hscale : 0 < safeScale scale := lt_max_of_lt_left (by norm_num)
  have hrows : softmaxProbabilities exp desirabilityByTeam names scale =
      (sortBy (fun key => toLex (-(weight key / total (names.map weight)), key)) names).map
        fun key => ⟨key, weight key / total (names.map weight), value key⟩ := by
    rw [softmaxProbabilities, if_neg hsome, ← map_sortBy_rows]
    exact if_neg (not_le.mpr hsum)
  let chance := fun key => toLex (-(weight key / total (names.map weight)), key)
  have hhead : (sortBy chance names).head? = some team := head?_sortBy
    (fun y _ heq => congrArg (fun x => (ofLex x).2) heq) hteam fun y hy => by
      have hle : desire desirabilityByTeam team ≤ desire desirabilityByTeam y := by
        rcases List.mem_cons.mp (hmem.mp hy) with rfl | hrest
        · exact le_rfl
        · exact List.rel_of_pairwise_cons h.sorted hrest
      rw [desire, desire, Prod.Lex.toLex_le_toLex, neg_lt_neg_iff, neg_inj] at hle
      rw [Prod.Lex.toLex_le_toLex, neg_lt_neg_iff, neg_inj]
      rcases hle with hlt | ⟨heq, hkey⟩
      · refine .inl ((div_lt_div_iff_of_pos_right hsum).mpr (hmono ?_))
        exact (div_lt_div_iff_of_pos_right hscale).mpr (sub_lt_sub_right hlt _)
      · exact .inr ⟨by simp only [weight, value, heq], hkey⟩
  change (softmaxProbabilities exp desirabilityByTeam names scale).head?.map (·.teamKey) = _
  rw [hrows, List.head?_map, hhead]
  rfl

/-- A round gives the captains the best teams in their order. -/
theorem boardRound_eq (hmono : StrictMono exp) (hpos : ∀ x, 0 < exp x)
    {desirabilityByTeam : String → Option K} (scale : K) {captains teams : List String}
    (hcaptains : captains.Nodup) (hteams : Ranked desirabilityByTeam teams)
    (board : String → List String) :
    boardRound exp desirabilityByTeam scale captains (teams.toFinset, board) =
      ((teams.drop captains.length).toFinset, fun key => board key ++
        if key ∈ captains then (teams[captains.idxOf key]?).toList else []) := by
  induction captains generalizing teams board with
  | nil => simp [boardRound]
  | cons captain rest ih =>
      cases teams with
      | nil => simp [boardRound]
      | cons team others =>
          have hhead := head?_softmax hmono hpos hteams scale
          have hteam : team ≠ "" := fun h => hteams.named (h ▸ List.mem_cons_self)
          have herase : (team :: others).toFinset.erase team = others.toFinset := by
            rw [List.toFinset_cons, Finset.erase_insert]
            exact fun hmem => (List.nodup_cons.mp hteams.nodup).1 (List.mem_toFinset.mp hmem)
          have hnot : captain ∉ rest := (List.nodup_cons.mp hcaptains).1
          have hfree : (team :: others).toFinset ≠ ∅ := by simp
          simp only [boardRound, hfree, if_false, hhead, Option.getD_some, hteam,
            List.mem_toFinset, List.mem_cons_self, not_true_eq_false, or_self, herase]
          rw [ih hcaptains.of_cons hteams.tail, Prod.mk.injEq]
          refine ⟨rfl, funext fun key => ?_⟩
          by_cases hkey : key = captain
          · subst hkey
            simp [hnot]
          · have hidx : (captain :: rest).idxOf key = rest.idxOf key + 1 :=
              List.idxOf_cons_ne _ (Ne.symm hkey)
            simp [hkey, hidx]

/-- The expected board is the serpentine draft of the teams in order of desirability: captain `i`
of `n` has the team in place `i`, and on the way back the one in place `2 n - 1 - i`. -/
theorem expectedBoard_serpentine (hmono : StrictMono exp) (hpos : ∀ x, 0 < exp x)
    {captainTeamKeys : List String} (hkeys : eventTeamKeys.Nodup) (hnames : "" ∉ eventTeamKeys)
    (hcaptains : captainTeamKeys.Nodup) (desirabilityByTeam : String → Option K) (scale : K)
    {i : Nat} (hi : i < captainTeamKeys.length) :
    let ranked := sortBy (desire desirabilityByTeam)
      (eventTeamKeys.filter (· ∉ captainTeamKeys))
    buildExpectedAllianceBoard exp eventTeamKeys captainTeamKeys desirabilityByTeam scale
        captainTeamKeys[i] =
      captainTeamKeys[i] :: ((ranked[i]?).toList ++
        (ranked[2 * captainTeamKeys.length - 1 - i]?).toList) := by
  intro ranked
  have hranked : Ranked desirabilityByTeam ranked :=
    ranked_sortBy desirabilityByTeam (hkeys.filter _)
      fun hmem => hnames (List.mem_of_mem_filter hmem)
  have hfree : (eventTeamKeys.filter (· ∉ captainTeamKeys)).toFinset = ranked.toFinset :=
    List.toFinset_eq_of_perm _ _ (perm_sortBy _ _).symm
  have hmem : captainTeamKeys[i] ∈ captainTeamKeys := List.getElem_mem hi
  have hfirst : captainTeamKeys.idxOf captainTeamKeys[i] = i := hcaptains.idxOf_getElem i hi
  have hsecond : captainTeamKeys.reverse.idxOf captainTeamKeys[i] =
      captainTeamKeys.length - 1 - i := by
    have hlt : captainTeamKeys.length - 1 - i < captainTeamKeys.reverse.length := by
      rw [List.length_reverse]
      omega
    have hget : captainTeamKeys.reverse[captainTeamKeys.length - 1 - i] = captainTeamKeys[i] := by
      rw [List.getElem_reverse]
      congr 1
      omega
    rw [← hget]
    exact (List.nodup_reverse.mpr hcaptains).idxOf_getElem _ hlt
  have hplace : captainTeamKeys.length + (captainTeamKeys.length - 1 - i) =
      2 * captainTeamKeys.length - 1 - i := by omega
  rw [buildExpectedAllianceBoard, hfree, boardRound_eq hmono hpos scale hcaptains hranked,
    boardRound_eq hmono hpos scale (List.nodup_reverse.mpr hcaptains) (hranked.drop _)]
  simp [hfirst, hsecond, hplace, hmem]

end Exact

/-- One captain and three teams, none of them rated. -/
theorem expectedBoard_serpentine_four :
    let ranked := sortBy (desire (K := ℝ) fun _ => none)
      (["frc1", "frc2", "frc3", "frc4"].filter (· ∉ ["frc1"]))
    buildExpectedAllianceBoard Real.exp ["frc1", "frc2", "frc3", "frc4"] ["frc1"] (fun _ => none)
      35 "frc1" = "frc1" :: ((ranked[0]?).toList ++ (ranked[1]?).toList) :=
  expectedBoard_serpentine Real.exp_strictMono Real.exp_pos (by decide) (by decide) (by decide)
    _ _ (i := 0) (by decide)

end Frcmob.SelectionModel
