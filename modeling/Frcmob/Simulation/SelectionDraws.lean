import Frcmob.Simulation.SelectionModel
import Mathlib.Algebra.BigOperators.Field
import Mathlib.Data.List.GetD

/-!
The draft over places in the pool makes the picks of the draft that calls the softmax and the
weighted draw for each of them.
-/

namespace Frcmob.SelectionModel

open Places

variable {F : Type} {pool : List String}

/-! ### Names and places -/

def nameAt (pool : List String) (i : Nat) : String :=
  pool.getD i ""

/-- Places of the pool that are still free, in ascending order. -/
structure Free (pool : List String) (available : List Nat) : Prop where
  ascending : available.Pairwise (· < ·)
  inPool : ∀ i ∈ available, i < pool.length

theorem nameAt_lt (hpool : pool.SortedLT) {i j : Nat} (hij : i < j) (hj : j < pool.length) :
    nameAt pool i < nameAt pool j := by
  have hi : i < pool.length := hij.trans hj
  rw [nameAt, nameAt, List.getD_eq_getElem _ _ hi, List.getD_eq_getElem _ _ hj]
  exact hpool.getElem_lt_getElem_of_lt hij

namespace Free
variable {available : List Nat}

theorem erase (h : Free pool available) (i : Nat) : Free pool (available.erase i) :=
  ⟨h.ascending.sublist List.erase_sublist, fun j hj => h.inPool j (List.mem_of_mem_erase hj)⟩

theorem names_lt (h : Free pool available) (hpool : pool.SortedLT) :
    (available.map (nameAt pool)).Pairwise (· < ·) := by
  rw [List.pairwise_map]
  exact h.ascending.imp_of_mem fun _ hj hij => nameAt_lt hpool hij (h.inPool _ hj)

theorem nameAt_inj (h : Free pool available) (hpool : pool.SortedLT) {i j : Nat}
    (hi : i ∈ available) (hj : j ∈ available) (heq : nameAt pool i = nameAt pool j) : i = j := by
  rcases Nat.lt_trichotomy i j with hij | hij | hij
  · exact absurd heq (nameAt_lt hpool hij (h.inPool j hj)).ne
  · exact hij
  · exact absurd heq (nameAt_lt hpool hij (h.inPool i hi)).ne'

theorem range : Free pool (List.range pool.length) :=
  ⟨List.pairwise_lt_range, fun _ => List.mem_range.mp⟩

/-- Erasing a place is erasing its name from the set of names. -/
theorem sort_erase (h : Free pool available) (hpool : pool.SortedLT) {names : Finset String}
    (hnames : names.sort = available.map (nameAt pool)) {i : Nat} (hi : i ∈ available) :
    (names.erase (nameAt pool i)).sort = (available.erase i).map (nameAt pool) := by
  refine (Finset.sortedLT_sort _).eq_of_mem_iff ((h.erase i).names_lt hpool).sortedLT ?_
  intro name
  have hmem : name ∈ names ↔ ∃ j ∈ available, nameAt pool j = name := by
    rw [← Finset.mem_sort (r := (· ≤ ·)), hnames, List.mem_map]
  have hnodup : available.Nodup := h.ascending.imp Nat.ne_of_lt
  simp only [Finset.mem_sort, Finset.mem_erase, hmem, List.mem_map, hnodup.mem_erase_iff]
  constructor
  · rintro ⟨hne, j, hj, rfl⟩
    exact ⟨j, ⟨fun hji => hne (by rw [hji]), hj⟩, rfl⟩
  · rintro ⟨j, ⟨hji, hj⟩, rfl⟩
    exact ⟨fun heq => hji (h.nameAt_inj hpool hj hi heq), j, hj, rfl⟩

end Free

/-! ### One pick -/

theorem map_getD (value : String → F) (default : F) {i : Nat} (hi : i < pool.length) :
    (pool.map value).getD i default = value (nameAt pool i) := by
  rw [nameAt, List.getD_eq_getElem _ _ hi, List.getD_eq_getElem _ _ (by simpa using hi),
    List.getElem_map]

section Sorting
variable [Neg F] [LinearOrder F]

/-- The row of the softmax for a place, and the row of the pool. -/
def rowAt (pool : List String) (probability value : String → F) (i : Nat) : Row F :=
  ⟨nameAt pool i, probability (nameAt pool i), value (nameAt pool i)⟩

def poolRowAt (pool : List String) (probability : String → F) (i : Nat) : PoolRow F :=
  (-probability (nameAt pool i), nameAt pool i, i)

/-- Sorting the triples by their third part too changes nothing, as no name comes twice. -/
theorem map_sortBy_places {available : List Nat} (h : Free pool available)
    (hpool : pool.SortedLT) (probability : Nat → F) :
    (sortBy (fun row => toLex (row.1, toLex (row.2.1, row.2.2)))
      (available.map fun i => (-probability i, nameAt pool i, i))) =
    (sortBy (fun i => toLex (-probability i, nameAt pool i)) available).map
      fun i => (-probability i, nameAt pool i, i) := by
  rw [sortBy, sortBy, List.map_mergeSort]
  intro i hi j hj
  rw [decide_eq_decide]
  simp only [Prod.Lex.toLex_le_toLex]
  refine or_congr Iff.rfl (and_congr Iff.rfl ?_)
  constructor
  · intro hle
    rcases hle.lt_or_eq with hlt | heq
    · exact .inl hlt
    · exact .inr ⟨heq, (h.nameAt_inj hpool hi hj heq).le⟩
  · rintro (hlt | ⟨heq, -⟩)
    · exact hlt.le
    · exact heq.le

theorem map_sortBy_rows {names : List String} (probability value : String → F) :
    sortBy (fun row : Row F => toLex (-row.probability, row.teamKey))
      (names.map fun key => ⟨key, probability key, value key⟩) =
    (sortBy (fun key => toLex (-probability key, key)) names).map
      fun key => ⟨key, probability key, value key⟩ := by
  rw [sortBy, sortBy, List.map_mergeSort]
  exact fun _ _ _ _ => rfl

theorem sortBy_map_places (available : List Nat) (probability : String → F) :
    sortBy (fun key => toLex (-probability key, key)) (available.map (nameAt pool)) =
    (sortBy (fun i => toLex (-probability (nameAt pool i), nameAt pool i)) available).map
      (nameAt pool) := by
  rw [sortBy, sortBy, List.map_mergeSort]
  exact fun _ _ _ _ => rfl

end Sorting

section Rows
variable [Add F] [InvolutiveNeg F] [LinearOrder F] {probability value : String → F}
  {places : List Nat}

theorem reach_places (hnames : ∀ i ∈ places, nameAt pool i ≠ "") (threshold cumulative : F) :
    reach threshold cumulative (places.map (rowAt pool probability value)) =
      (reachPlace threshold cumulative (places.map (poolRowAt pool probability))).map
        (nameAt pool) := by
  induction places generalizing cumulative with
  | nil => rfl
  | cons i rest ih =>
      have hname := hnames i List.mem_cons_self
      have hrest := ih (fun j hj => hnames j (List.mem_cons_of_mem _ hj))
        (cumulative + probability (nameAt pool i))
      simp only [List.map_cons, reach, reachPlace, rowAt, poolRowAt, neg_neg, hname, ne_eq,
        not_false_eq_true, and_true]
      split
      · rfl
      · exact hrest

theorem mem_of_reachPlace {threshold cumulative : F} {i : Nat}
    (h : reachPlace threshold cumulative (places.map (poolRowAt pool probability)) = some i) :
    i ∈ places := by
  induction places generalizing cumulative with
  | nil => cases h
  | cons j rest ih =>
      simp only [List.map_cons, reachPlace, poolRowAt] at h
      split at h
      · cases h
        exact List.mem_cons_self
      · exact List.mem_cons_of_mem _ (ih h)

variable [Zero F]

theorem choose_eq (hsome : places ≠ []) (threshold : F) :
    choose (places.map (poolRowAt pool probability)) threshold =
      (reachPlace threshold 0 (places.map (poolRowAt pool probability))).getD
        (places.getLast hsome) := by
  rw [choose, List.getLast?_map, List.getLast?_eq_getLast_of_ne_nil hsome]
  rfl

theorem choose_mem (hsome : places ≠ []) (threshold : F) :
    choose (places.map (poolRowAt pool probability)) threshold ∈ places := by
  rw [choose_eq hsome]
  cases hreach : reachPlace threshold 0 (places.map (poolRowAt pool probability)) with
  | none => exact List.getLast_mem hsome
  | some i => exact mem_of_reachPlace hreach

theorem draw_places (hsome : places ≠ []) (hnames : ∀ i ∈ places, nameAt pool i ≠ "")
    (threshold : F) :
    drawWeightedTeam (places.map (rowAt pool probability value)) threshold =
      some (nameAt pool (choose (places.map (poolRowAt pool probability)) threshold)) := by
  have hlast : nameAt pool (places.getLast hsome) ≠ "" := hnames _ (List.getLast_mem hsome)
  rw [choose_eq hsome, drawWeightedTeam, List.getLast?_map,
    List.getLast?_eq_getLast_of_ne_nil hsome, reach_places hnames]
  simp only [Option.map_some, rowAt, hlast, if_false]
  cases reachPlace threshold 0 (places.map (poolRowAt pool probability)) <;> rfl

end Rows

section Arithmetic
variable [Add F] [Sub F] [Div F] [InvolutiveNeg F] [Zero F] [One F] [NatCast F]
  [OfScientific F] [LinearOrder F] {exp : F → F}

variable (exp) in
/-- The rows of a pick are those of the softmax on the names of the places. -/
theorem fastRows_same {available : List Nat} (h : Free pool available)
    (hpool : pool.SortedLT) (hsome : available ≠ []) (desirabilityByTeam : String → Option F)
    (scale : F) :
    ∃ (places : List Nat) (probability value : String → F), places.Perm available ∧
      softmaxProbabilities exp desirabilityByTeam (available.map (nameAt pool)) scale =
        places.map (rowAt pool probability value) ∧
      fastRows exp pool (pool.map (desirabilityOf desirabilityByTeam)) scale available =
        places.map (poolRowAt pool probability) := by
  let value := desirabilityOf desirabilityByTeam
  have hvalue : ∀ i ∈ available, (pool.map value).getD i 0 = value (nameAt pool i) :=
    fun i hi => map_getD value 0 (h.inPool i hi)
  have htop : available.map (fun i => (pool.map value).getD i 0) =
      (available.map (nameAt pool)).map value := by
    rw [List.map_map]
    exact List.map_congr_left fun i hi => hvalue i hi
  let weight := fun key : String =>
    exp ((value key - top ((available.map (nameAt pool)).map value)) / safeScale scale)
  have hweights : available.map (fun i => exp (((pool.map value).getD i 0 -
      top (available.map fun i => (pool.map value).getD i 0)) / safeScale scale)) =
      (available.map (nameAt pool)).map weight := by
    rw [htop]
    refine Eq.trans ?_ List.map_map.symm
    exact List.map_congr_left fun i hi => by rw [hvalue i hi]; rfl
  let sum := total ((available.map (nameAt pool)).map weight)
  let probability := fun key : String =>
    if sum ≤ 0 then 1 / (available.length : F) else weight key / sum
  have hfast : fastRows exp pool (pool.map value) scale available =
      sortBy (fun row => toLex (row.1, toLex (row.2.1, row.2.2)))
        (available.map fun i => (-probability (nameAt pool i), nameAt pool i, i)) := by
    simp only [fastRows, hweights]
    refine congrArg _ (List.map_congr_left fun i hi => ?_)
    rw [htop, hvalue i hi]
    rfl
  have hplain : softmaxProbabilities exp desirabilityByTeam (available.map (nameAt pool)) scale =
      (sortBy (fun key => toLex (-probability key, key)) (available.map (nameAt pool))).map
        fun key => ⟨key, probability key, value key⟩ := by
    have hnames : available.map (nameAt pool) ≠ [] := by simpa using hsome
    rw [softmaxProbabilities, if_neg hnames]
    by_cases hsum : sum ≤ 0
    · -- the uniform rows are in the order of the names, which is the order of equal chances
      have hprob : ∀ key, probability key = 1 / (available.length : F) := fun _ => if_pos hsum
      have hsorted : sortBy (fun key => toLex (-probability key, key))
          (available.map (nameAt pool)) = available.map (nameAt pool) := by
        refine List.mergeSort_of_pairwise ((h.names_lt hpool).imp fun {a b} hab => ?_)
        simp only [decide_eq_true_eq, Prod.Lex.toLex_le_toLex, hprob]
        exact .inr ⟨True.intro, hab.le⟩
      rw [hsorted]
      simp only [hprob]
      refine (if_pos hsum).trans (List.map_congr_left fun key _ => ?_)
      rw [List.length_map]
    · have hprob : ∀ key, probability key = weight key / sum := fun _ => if_neg hsum
      refine (if_neg hsum).trans ?_
      rw [← map_sortBy_rows]
      exact congrArg _ (List.map_congr_left fun key _ => by rw [hprob])
  refine ⟨sortBy (fun i => toLex (-probability (nameAt pool i), nameAt pool i)) available,
    probability, value, perm_sortBy _ _, ?_, ?_⟩
  · rw [hplain, sortBy_map_places, List.map_map]
    rfl
  · rw [hfast, map_sortBy_places h hpool fun i => probability (nameAt pool i)]
    rfl

variable (exp) in
theorem choose_mem_available {available : List Nat} (h : Free pool available)
    (hpool : pool.SortedLT) (hsome : available ≠ []) (desirabilityByTeam : String → Option F)
    (scale threshold : F) :
    choose (fastRows exp pool (pool.map (desirabilityOf desirabilityByTeam)) scale available)
      threshold ∈ available := by
  obtain ⟨places, probability, value, hperm, -, hrows⟩ :=
    fastRows_same exp h hpool hsome desirabilityByTeam scale
  have hplaces : places ≠ [] := fun hnil => hsome (hnil ▸ hperm).symm.eq_nil
  rw [hrows]
  exact hperm.subset (choose_mem hplaces threshold)

/-! ### The drafts -/

/-- The two drafts agree pick by pick: the set of names is that of the free places. -/
theorem fastDraft_eq (hpool : pool.SortedLT) (hnames : "" ∉ pool)
    (desirabilityByTeam : String → Option F) (scale : F) (draws : Nat → F) (rounds : List Round)
    {available : List Nat} {names : Finset String} (hfree : Free pool available)
    (hsort : names.sort = available.map (nameAt pool)) (counts : Counts) :
    fastDraft exp pool (pool.map (desirabilityOf desirabilityByTeam)) scale draws rounds available
      counts = plainDraft exp desirabilityByTeam scale draws rounds names counts := by
  induction rounds generalizing available names counts with
  | nil => rfl
  | cons round rest ih =>
      by_cases hsome : available = []
      · have hnone : names = ∅ := by
          rw [hsome, List.map_nil] at hsort
          rw [← Finset.sort_toFinset names (· ≤ ·), hsort, List.toFinset_nil]
        simp only [fastDraft, plainDraft, hsome, hnone, if_true]
      · have hnonempty : names ≠ ∅ := by
          rintro rfl
          rw [Finset.sort_empty] at hsort
          exact hsome (List.map_eq_nil_iff.mp hsort.symm)
        obtain ⟨places, probability, value, hperm, hrows, hpoolRows⟩ :=
          fastRows_same exp hfree hpool hsome desirabilityByTeam scale
        have hplaces : places ≠ [] := fun hnil => hsome (hnil ▸ hperm).symm.eq_nil
        have hname : ∀ i ∈ places, nameAt pool i ≠ "" := by
          intro i hi hempty
          have hlt := hfree.inPool i (hperm.subset hi)
          rw [nameAt, List.getD_eq_getElem _ _ hlt] at hempty
          exact hnames (hempty ▸ List.getElem_mem hlt)
        have hdraw : drawWeightedTeam (places.map (rowAt pool probability value))
            (draws counts.drawn) = some (nameAt pool
              (choose (places.map (poolRowAt pool probability)) (draws counts.drawn))) :=
          draw_places hplaces hname _
        have hchosen : choose (places.map (poolRowAt pool probability)) (draws counts.drawn) ∈
            available := hperm.subset (choose_mem hplaces _)
        simp only [fastDraft, plainDraft, hsome, hnonempty, if_false, hsort, hrows, hdraw,
          hpoolRows]
        exact ih (hfree.erase _) (hfree.sort_erase hpool hsort hchosen) _

theorem sortedLT_poolOf {eventTeamKeys : List String} (h : eventTeamKeys.Nodup)
    (captainTeamKeys : List String) : (poolOf eventTeamKeys captainTeamKeys).SortedLT := by
  have hsorted : (poolOf eventTeamKeys captainTeamKeys).Pairwise (· ≤ ·) :=
    pairwise_sortBy id _
  have hnodup : (poolOf eventTeamKeys captainTeamKeys).Nodup :=
    (perm_sortBy id _).nodup_iff.mpr (h.filter _)
  exact hsorted.sortedLE.sortedLT_of_nodup hnodup

theorem mem_poolOf {eventTeamKeys captainTeamKeys : List String} {key : String} :
    key ∈ poolOf eventTeamKeys captainTeamKeys ↔ key ∈ eventTeamKeys ∧ key ∉ captainTeamKeys := by
  rw [poolOf, (perm_sortBy id _).mem_iff, List.mem_filter, decide_eq_true_eq]

theorem map_nameAt_range : (List.range pool.length).map (nameAt pool) = pool := by
  refine List.ext_getElem (by simp) fun i hi hi' => ?_
  simp only [List.getElem_map, List.getElem_range, nameAt]
  exact List.getD_eq_getElem _ _ hi'

theorem fastCounts_eq {eventTeamKeys : List String} (hkeys : eventTeamKeys.Nodup)
    (hnames : "" ∉ eventTeamKeys) (captainTeamKeys : List String)
    (desirabilityByTeam : String → Option F) (scale : F) (draws : Nat → F) (runs : Nat) :
    fastCounts exp eventTeamKeys captainTeamKeys desirabilityByTeam scale draws runs =
      plainCounts exp eventTeamKeys captainTeamKeys desirabilityByTeam scale draws runs := by
  have hpool := sortedLT_poolOf hkeys captainTeamKeys
  have hsort : (eventTeamKeys.filter (· ∉ captainTeamKeys)).toFinset.sort =
      (List.range (poolOf eventTeamKeys captainTeamKeys).length).map
        (nameAt (poolOf eventTeamKeys captainTeamKeys)) := by
    rw [map_nameAt_range]
    refine (Finset.sortedLT_sort _).eq_of_mem_iff hpool fun key => ?_
    rw [Finset.mem_sort, List.mem_toFinset, mem_poolOf, List.mem_filter, decide_eq_true_eq]
  induction runs with
  | zero => rfl
  | succ runs ih =>
      rw [fastCounts, plainCounts, ih]
      exact fastDraft_eq hpool (fun hmem => hnames (mem_poolOf.mp hmem).1) desirabilityByTeam scale
        draws _ .range hsort _

/-- However a double rounds and whatever the random numbers are, the simulation over places gives
the very chances that one softmax and one weighted draw for each pick give. -/
theorem simulateAllianceSelection_eq_reference {eventTeamKeys captainTeamKeys : List String}
    (hkeys : eventTeamKeys.Nodup) (hnames : "" ∉ eventTeamKeys) (hcaptains : captainTeamKeys ≠ [])
    (hpool : ∃ key ∈ eventTeamKeys, key ∉ captainTeamKeys) (desirabilityByTeam : String → Option F)
    (scale : F) (draws : Nat → F) {simulations : Nat} (hruns : simulations ≠ 0) :
    simulateAllianceSelection exp eventTeamKeys captainTeamKeys desirabilityByTeam scale draws
      simulations =
    referenceSimulation exp eventTeamKeys captainTeamKeys desirabilityByTeam scale draws
      simulations := by
  obtain ⟨key, hkey, hnot⟩ := hpool
  have hsome : poolOf eventTeamKeys captainTeamKeys ≠ [] :=
    List.ne_nil_of_mem (mem_poolOf.mpr ⟨hkey, hnot⟩)
  rw [simulateAllianceSelection, if_neg (by simp [hcaptains, hsome, hruns]), referenceSimulation,
    fastCounts_eq hkeys hnames]

end Arithmetic

/-- Three teams, one of them a captain, drafted fifty times. -/
theorem simulateAllianceSelection_eq_reference_three :
    simulateAllianceSelection (fun x : ℚ => max 0 (1 + x)) ["frc1", "frc2", "frc3"] ["frc1"]
      (fun _ => none) 35 (fun _ => 1 / 2) 50 =
    referenceSimulation (fun x : ℚ => max 0 (1 + x)) ["frc1", "frc2", "frc3"] ["frc1"]
      (fun _ => none) 35 (fun _ => 1 / 2) 50 :=
  simulateAllianceSelection_eq_reference (by decide) (by decide) (by decide)
    ⟨"frc2", by decide, by decide⟩ _ _ _ (by decide)

end Frcmob.SelectionModel
