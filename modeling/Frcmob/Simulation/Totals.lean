import Frcmob.Simulation.Bracket
import Mathlib.Algebra.Order.Field.Rat

/-!
Each simulated run of an event of at least 24 distinct teams ranks every team once, seats eight
alliances of three and ends with one champion, so the counts over all runs add up.
-/

namespace Frcmob.Simulation

open Places Picklists

variable {K : Type} [Field K] [LinearOrder K]

/-! ### Ranks -/

theorem drawTies_teams (teams : List String) (r : Rng K) :
    (drawTies teams r).1.map (·.1) = teams := by
  induction teams generalizing r with
  | nil => rfl
  | cons t rest ih => exact congrArg (t :: ·) (ih r.next)

theorem playQuals_order (r : Rng K) (teams : List String)
    (standings : String → Option (Standing K)) (remaining : List (QualMatch K)) :
    (playQuals r teams standings remaining).1.order.Perm teams := by
  unfold playQuals
  have hperm := (perm_sortBy (rankKey (remaining.foldl playMatch
    (fun t => (standings t).getD .new, r)).1) (drawTies teams (remaining.foldl playMatch
    (fun t => (standings t).getD .new, r)).2).1).map (·.1)
  rwa [drawTies_teams] at hperm

theorem ranks_perm {order teams : List String} (hperm : order.Perm teams) (hnodup : teams.Nodup) :
    (teams.map fun t => order.idxOf t + 1).Perm (List.range' 1 teams.length) := by
  have hranks : order.map (fun t => order.idxOf t + 1) = List.range' 1 order.length := by
    apply List.ext_getElem
    · simp
    · intro i hi _
      rw [List.length_map] at hi
      rw [List.getElem_map, (hperm.nodup_iff.mpr hnodup).idxOf_getElem i hi, List.getElem_range']
      omega
  rw [← hperm.length_eq, ← hranks]
  exact (hperm.map _).symm

/-! ### Alliances -/

namespace Drafted
variable {order : List String} {d : Seating}

theorem count_pickOrder : ∀ i < 8, pickOrder.count (i + 1) = 2 := by
  decide

theorem length_team (h : d.Underway order) (hmade : d.made.length = 16) {i : Nat} (hi : i < 8) :
    (d.team i).length = 3 := by
  have hcaptain : i < d.captains.length := h.good.length ▸ hi
  have hpicks : (d.made.filter (·.2 = i + 1)).length = 2 := by
    have hcount := count_pickOrder i hi
    have horder : d.made.map (·.2) = pickOrder := by
      rw [h.order, hmade]
      rfl
    rw [← horder, List.count, List.countP_map, List.countP_eq_length_filter] at hcount
    rw [← hcount]
    congr 2
  rw [Seating.team, List.getElem?_eq_getElem hcaptain, List.length_append, List.length_map, hpicks]
  rfl

theorem mem_team {i : Nat} {t : String} :
    t ∈ d.team i ↔ d.captains[i]? = some t ∨ (t, i + 1) ∈ d.made := by
  simp [Seating.team, Option.mem_toList, eq_comm]

theorem nodup_team (h : d.Underway order) (i : Nat) : (d.team i).Nodup := by
  rw [Seating.team, List.nodup_append]
  refine ⟨?_, (List.filter_sublist.map _).nodup h.good.made_nodup, ?_⟩
  · cases d.captains[i]? with
    | none => exact List.nodup_nil
    | some captain => exact List.nodup_singleton captain
  · rintro t ht u hu rfl
    have hcaptain : t ∈ d.captains := List.mem_of_getElem? (Option.mem_toList.mp ht)
    exact h.good.notMem_made hcaptain ((List.filter_sublist.map _).subset hu)

theorem team_inj (h : d.Underway order) {i j : Nat} {t : String} (hi : t ∈ d.team i)
    (hj : t ∈ d.team j) : i = j := by
  rw [mem_team] at hi hj
  rcases hi with hi | hi
  · rcases hj with hj | hj
    · have hlt := (List.getElem?_eq_some_iff.mp hi).1
      exact (List.getElem?_inj hlt h.good.captains_nodup).mp (hi.trans hj.symm)
    · exact absurd (List.mem_map_of_mem hj) (h.good.notMem_made (List.mem_of_getElem? hi))
  · rcases hj with hj | hj
    · exact absurd (List.mem_map_of_mem hi) (h.good.notMem_made (List.mem_of_getElem? hj))
    · have hpair := List.inj_on_of_nodup_map h.good.made_nodup hi hj rfl
      exact Nat.succ_inj.mp (congrArg Prod.snd hpair)

theorem mem_order (h : d.Underway order) {i : Nat} {t : String} (ht : t ∈ d.team i) :
    t ∈ order := by
  apply h.ranked
  rw [Seating.taken, List.mem_append]
  exact (mem_team.mp ht).imp List.mem_of_getElem? List.mem_map_of_mem

end Drafted

/-- Eight alliances of three of the teams, none of which is in two places. -/
structure Alliances (teams : List String) (seeds : List (List String)) : Prop where
  length : seeds.length = 8
  three : ∀ a ∈ seeds, a.length = 3
  once : seeds.flatten.Nodup
  member : ∀ a ∈ seeds, ∀ t ∈ a, t ∈ teams

theorem alliances_selectAlliances {order : List String} (hnodup : order.Nodup)
    (hlength : 24 ≤ order.length) (strength : String → Option K) :
    Alliances order (selectAlliances order strength) := by
  rw [selectAlliances_eq hnodup hlength]
  obtain ⟨h, hmade⟩ := @Seating.Underway.iterate_pickFirst _ _ _ (underway_start hnodup hlength)
    (perm_byStrength order strength) hnodup hlength 16 (Nat.le_of_ble_eq_true rfl)
  rw [List.length_nil, Nat.zero_add] at hmade
  constructor
  · simp
  · intro a ha
    obtain ⟨i, hi, rfl⟩ := List.mem_map.mp ha
    exact Drafted.length_team h hmade (List.mem_range.mp hi)
  · rw [List.nodup_flatten, List.pairwise_map]
    constructor
    · intro a ha
      obtain ⟨i, -, rfl⟩ := List.mem_map.mp ha
      exact Drafted.nodup_team h i
    · apply List.nodup_range.imp
      intro i j hne t hi hj
      exact hne (Drafted.team_inj h hi hj)
  · intro a ha t ht
    obtain ⟨i, -, rfl⟩ := List.mem_map.mp ha
    exact Drafted.mem_order h ht

theorem Alliances.nodup {teams : List String} {seeds : List (List String)}
    (h : Alliances teams seeds) : seeds.Nodup := by
  apply (List.nodup_flatten.mp h.once).2.imp_of_mem
  rintro a b ha - hdisjoint rfl
  have hlength := h.three a ha
  cases a with
  | nil => cases hlength
  | cons t rest => exact hdisjoint List.mem_cons_self List.mem_cons_self

/-! ### Counts -/

section
variable {φ : TeamCounts K → Nat} {teams : List String} {counts : Counts K}

/-- What the teams have together of one count. -/
def total (φ : TeamCounts K → Nat) (teams : List String) (counts : Counts K) : Nat :=
  (teams.map fun t => φ (counts t)).sum

omit [Field K] [LinearOrder K] in
theorem total_update (hnodup : teams.Nodup) {t : String} (ht : t ∈ teams) {c : TeamCounts K}
    {k : Nat} (hc : φ c = φ (counts t) + k) :
    total φ teams (Function.update counts t c) = total φ teams counts + k := by
  induction teams with
  | nil => exact absurd ht List.not_mem_nil
  | cons u rest ih =>
      rw [List.nodup_cons] at hnodup
      rw [total, total, List.map_cons, List.map_cons, List.sum_cons, List.sum_cons]
      by_cases hu : t = u
      · have hrest : (rest.map fun v => φ (Function.update counts t c v)) =
            rest.map fun v => φ (counts v) := by
          apply List.map_congr_left
          intro v hv
          have hne : v ≠ t := fun heq => hnodup.1 (hu ▸ heq ▸ hv)
          rw [Function.update_of_ne hne]
        rw [hrest, ← hu, Function.update_self, hc]
        omega
      · have hmem := (List.mem_cons.mp ht).resolve_left hu
        have htail := ih hnodup.2 hmem
        rw [total, total] at htail
        rw [Function.update_of_ne (Ne.symm hu), htail, Nat.add_assoc]

omit [Field K] [LinearOrder K] in
theorem total_bump (hnodup : teams.Nodup) {f : TeamCounts K → TeamCounts K} {k : Nat}
    (hf : ∀ c, φ (f c) = φ c + k) {ts : List String} (hts : ∀ t ∈ ts, t ∈ teams) :
    total φ teams (bump f counts ts) = total φ teams counts + k * ts.length := by
  induction ts generalizing counts with
  | nil => rfl
  | cons t rest ih =>
      have hrest := @ih (Function.update counts t (f (counts t)))
        fun u hu => hts u (List.mem_cons_of_mem _ hu)
      rw [total_update hnodup (hts t List.mem_cons_self) (hf _)] at hrest
      rw [List.length_cons, Nat.mul_add, Nat.mul_one, Nat.add_comm (k * rest.length), ← Nat.add_assoc]
      exact hrest

omit [LinearOrder K] in
theorem total_countRanks {table : String → Standing K} {gain : Nat → Nat} (hnodup : teams.Nodup)
    (hgain : ∀ (counts : Counts K) t rank,
      φ (countRank table counts (t, rank) t) = φ (counts t) + gain rank)
    {placed : List (String × Nat)} (hplaced : ∀ p ∈ placed, p.1 ∈ teams) :
    total φ teams (placed.foldl (countRank table) counts) =
      total φ teams counts + (placed.map fun p => gain p.2).sum := by
  induction placed generalizing counts with
  | nil => rfl
  | cons p rest ih =>
      obtain ⟨t, rank⟩ := p
      have hone : total φ teams (countRank table counts (t, rank)) =
          total φ teams counts + gain rank := by
        apply total_update hnodup (hplaced _ List.mem_cons_self)
        have ht := hgain counts t rank
        rwa [countRank, Function.update_self] at ht
      rw [List.foldl_cons, ih fun q hq => hplaced q (List.mem_cons_of_mem _ hq), hone,
        List.map_cons, List.sum_cons, Nat.add_assoc]

omit [Field K] [LinearOrder K] in
theorem total_countAlliances (hnodup : teams.Nodup) {k : Nat}
    (hcaptain : ∀ c : TeamCounts K, φ { c with captain := c.captain + 1 } = φ c + 0)
    (halliance : ∀ c : TeamCounts K, φ { c with alliance := c.alliance + 1 } = φ c + k)
    {seeds : List (List String)} (hseeds : ∀ a ∈ seeds, ∀ t ∈ a, t ∈ teams) :
    total φ teams (seeds.foldl countAlliance counts) =
      total φ teams counts + k * (seeds.map List.length).sum := by
  induction seeds generalizing counts with
  | nil => rfl
  | cons a rest ih =>
      have ha := hseeds a List.mem_cons_self
      have hone : total φ teams (countAlliance counts a) = total φ teams counts + k * a.length := by
        rw [countAlliance, total_bump hnodup halliance ha, total_bump hnodup hcaptain
          fun t ht => ha t (List.mem_of_mem_take ht), Nat.zero_mul, Nat.add_zero]
      rw [List.foldl_cons, ih fun b hb => hseeds b (List.mem_cons_of_mem _ hb), hone,
        List.map_cons, List.sum_cons, Nat.mul_add, Nat.add_assoc]

end

/-! ### Runs -/

/-- Every team has its own rank, and one of the eight alliances wins the event. -/
structure Run.Complete (teams : List String) (run : Run K) : Prop where
  order : run.quals.order.Perm teams
  ranks : (teams.map fun t => run.quals.order.idxOf t + 1).Perm (List.range' 1 teams.length)
  alliances : Alliances teams run.seeds
  champion : ∃ champion ∈ run.seeds, run.champion = some champion

theorem Event.run_complete (event : Event K) (hnodup : event.teams.Nodup)
    (hlength : 24 ≤ event.teams.length) (r : Rng K) :
    ∃ run r', event.run r = some (run, r') ∧ run.Complete event.teams := by
  have horder := playQuals_order r event.teams event.standings event.remaining
  unfold Event.run
  generalize playQuals r event.teams event.standings event.remaining = played at horder ⊢
  obtain ⟨quals, r₁⟩ := played
  have hnodup' : quals.order.Nodup := horder.nodup_iff.mpr hnodup
  have hlength' : 24 ≤ quals.order.length := horder.length_eq ▸ hlength
  have halliances := alliances_selectAlliances hnodup' hlength' event.strength
  obtain ⟨champion, r₂, hplayoffs, hchampion⟩ :=
    @playoffs_champion K _ _ event.playoffWin _ halliances.length halliances.nodup r₁
  have hmany : ¬ quals.order.length < 24 := Nat.not_lt.mpr hlength'
  have height : ¬ (selectAlliances quals.order event.strength).length < 8 := by
    rw [halliances.length]
    exact Nat.lt_irrefl 8
  simp only [if_neg hmany, if_neg height, hplayoffs, Option.bind_eq_bind, Option.bind_some]
  refine ⟨_, r₂, rfl, horder, ranks_perm horder hnodup, ?_, champion, hchampion, rfl⟩
  exact { halliances with
    member := fun a ha t ht => horder.mem_iff.mp (halliances.member a ha t ht) }

section
variable {teams : List String} {run : Run K}

omit [LinearOrder K] in
/-- What one run adds to a count, from the ranks, the alliances and the champion. -/
theorem Run.Complete.total_countRun (h : run.Complete teams) (hnodup : teams.Nodup)
    (counts : Counts K) (φ : TeamCounts K → Nat) (gain : Nat → Nat) (k w : Nat)
    (hgain : ∀ (counts : Counts K) t rank,
      φ (countRank run.quals.table counts (t, rank) t) = φ (counts t) + gain rank)
    (hcaptain : ∀ c : TeamCounts K, φ { c with captain := c.captain + 1 } = φ c + 0)
    (halliance : ∀ c : TeamCounts K, φ { c with alliance := c.alliance + 1 } = φ c + k)
    (hwin : ∀ c : TeamCounts K, φ { c with winEvent := c.winEvent + 1 } = φ c + w) :
    total φ teams (countRun counts run) = total φ teams counts +
      ((List.range' 1 teams.length).map gain).sum + k * 24 + w * 3 := by
  obtain ⟨champion, hmem, hchampion⟩ := h.champion
  have hseeds : (run.seeds.map List.length).sum = 24 := by
    have hthree : run.seeds.map List.length = List.replicate 8 3 := by
      rw [List.eq_replicate_iff, List.length_map, h.alliances.length]
      refine ⟨rfl, fun n hn => ?_⟩
      obtain ⟨a, ha, rfl⟩ := List.mem_map.mp hn
      exact h.alliances.three a ha
    rw [hthree]
    rfl
  have hranks : ((run.quals.order.zipIdx 1).map fun p => gain p.2) =
      (List.range' 1 teams.length).map gain := by
    rw [← h.order.length_eq, ← List.zipIdx_map_snd 1 run.quals.order, List.map_map]
    rfl
  unfold countRun
  rw [hchampion, Option.getD_some, total_bump hnodup hwin (h.alliances.member champion hmem),
    total_countAlliances hnodup hcaptain halliance h.alliances.member,
    total_countRanks hnodup hgain, hranks, hseeds, h.alliances.three champion hmem]
  intro p hp
  exact h.order.mem_iff.mp (List.fst_mem_of_mem_zipIdx hp)

end

theorem top8_ranks {n : Nat} (hn : 8 ≤ n) :
    ((List.range' 1 n).map fun rank => if rank ≤ 8 then 1 else 0).sum = 8 := by
  obtain ⟨m, rfl⟩ := Nat.exists_eq_add_of_le hn
  rw [List.range'_append_1.symm, List.map_append, List.sum_append]
  have hrest : ((List.range' (1 + 8) m).map fun rank => if rank ≤ 8 then 1 else 0).sum = 0 := by
    rw [List.sum_eq_zero_iff]
    intro x hx
    obtain ⟨rank, hrank, rfl⟩ := List.mem_map.mp hx
    have hlow := (List.mem_range'_1.mp hrank).1
    rw [if_neg (by omega)]
  rw [hrest]
  rfl

/-- The counts after some runs. -/
structure Added (teams : List String) (runs : Nat) (counts : Counts K) : Prop where
  top8 : total TeamCounts.top8 teams counts = 8 * runs
  alliance : total TeamCounts.alliance teams counts = 24 * runs
  winEvent : total TeamCounts.winEvent teams counts = 3 * runs

omit [LinearOrder K] in
theorem Added.countRun {teams : List String} {runs : Nat} {counts : Counts K} {run : Run K}
    (h : Added teams runs counts) (hrun : run.Complete teams) (hnodup : teams.Nodup)
    (hlength : 24 ≤ teams.length) : Added teams (runs + 1) (countRun counts run) := by
  have hnone : ((List.range' 1 teams.length).map fun _ => 0).sum = 0 := by
    simp
  constructor
  · rw [hrun.total_countRun hnodup counts TeamCounts.top8
      (fun rank => if rank ≤ 8 then 1 else 0) 0 0, top8_ranks (by omega), h.top8]
    · omega
    · intro counts t rank
      rw [countRank, Function.update_self]
      split
      · rfl
      · rfl
    · exact fun _ => rfl
    · exact fun _ => rfl
    · exact fun _ => rfl
  · rw [hrun.total_countRun hnodup counts TeamCounts.alliance (fun _ => 0) 1 0, hnone, h.alliance]
    · omega
    · intro counts t rank
      rw [countRank, Function.update_self]
      rfl
    · exact fun _ => rfl
    · exact fun _ => rfl
    · exact fun _ => rfl
  · rw [hrun.total_countRun hnodup counts TeamCounts.winEvent (fun _ => 0) 0 1, hnone, h.winEvent]
    · omega
    · intro counts t rank
      rw [countRank, Function.update_self]
      rfl
    · exact fun _ => rfl
    · exact fun _ => rfl
    · exact fun _ => rfl

theorem Event.runs_added (event : Event K) (hnodup : event.teams.Nodup)
    (hlength : 24 ≤ event.teams.length) {done : Nat} {counts : Counts K}
    (h : Added event.teams done counts) (runs : Nat) (r : Rng K) :
    ∃ counts', event.runs runs r counts = some counts' ∧ Added event.teams (done + runs) counts' := by
  induction runs generalizing done counts r with
  | zero => exact ⟨counts, rfl, h⟩
  | succ runs ih =>
      obtain ⟨run, r', hrun, hcomplete⟩ := event.run_complete hnodup hlength r
      obtain ⟨counts', hruns, hadded⟩ := ih (h.countRun hcomplete hnodup hlength) r'
      rw [Event.runs, hrun]
      refine ⟨counts', hruns, ?_⟩
      rwa [Nat.add_assoc, Nat.add_comm 1] at hadded

theorem places_conserved (event : Event K) (hnodup : event.teams.Nodup)
    (hlength : 24 ≤ event.teams.length) :
    (∀ r : Rng K, ∃ run r', event.run r = some (run, r') ∧ run.Complete event.teams) ∧
    ∀ (runs : Nat) (r : Rng K), ∃ counts, event.runs runs r (fun _ => .zero) = some counts ∧
      Added event.teams runs counts := by
  refine ⟨event.run_complete hnodup hlength, fun runs r => ?_⟩
  have hzero : ∀ φ : TeamCounts K → Nat, φ .zero = 0 →
      total φ event.teams (fun _ => .zero) = 0 := by
    intro φ hφ
    simp [total, hφ]
  have hstart : Added event.teams 0 fun _ => (.zero : TeamCounts K) :=
    ⟨hzero _ rfl, hzero _ rfl, hzero _ rfl⟩
  obtain ⟨counts, hruns, hadded⟩ := event.runs_added hnodup hlength hstart runs r
  exact ⟨counts, hruns, Nat.zero_add runs ▸ hadded⟩

/-! An event of 24 teams without a match left, where every chance is even. -/

def evenRng : Rng ℚ where
  draws _ := 1 / 2
  unit _ := by decide +kernel

def evenEvent : Event ℚ where
  teams := fullRanked
  standings _ := none
  remaining := []
  strength _ := none
  playoffWin _ _ := 1 / 2

theorem places_conserved_even :
    (∃ run r', evenEvent.run evenRng = some (run, r') ∧ run.Complete fullRanked) ∧
    ∃ counts, evenEvent.runs 2 evenRng (fun _ => .zero) = some counts ∧
      Added fullRanked 2 counts :=
  ⟨(places_conserved evenEvent (by decide) (by decide)).1 evenRng,
    (places_conserved evenEvent (by decide) (by decide)).2 2 evenRng⟩

end Frcmob.Simulation
