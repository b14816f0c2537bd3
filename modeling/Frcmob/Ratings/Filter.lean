import Frcmob.Ratings.Replays

/-!
The rating filter stays well formed, in exact arithmetic: every block's covariance is one, every
divisor of an update is positive and no update makes a team more unsure.
-/

namespace Frcmob.Ratings
open Covariance Transition

universe u

/-- The variances of a component: noise there always is. -/
structure ComponentParams.Variances {K : Type u} [Field K] [LinearOrder K]
    (params : ComponentParams K) : Prop where
  prior : 0 ≤ params.priorVar
  grown : 0 ≤ params.matchVar
  event : 0 ≤ params.eventVar
  noise : 0 < params.noiseVar

structure Settings.Variances {K : Type u} [Field K] [LinearOrder K] (settings : Settings K) :
    Prop where
  of : ∀ name, (settings.params.of name).Variances
  offset : 0 ≤ settings.params.eventOffsetVar
  multipliers : ∀ team v, settings.teamVarMultipliers.lookup team = some v → 0 ≤ v
  evidence : 0 < settings.params.dudPriorMatches
  hub : settings.hub ≠ []

section Blocks
variable {K : Type u} [Field K] [LinearOrder K]

def EventBlock.Sound (block : EventBlock K) : Prop :=
  IsCovariance block.index block.cov

/-- The update left a covariance, or a variance, divided by positive numbers and made nobody more
unsure. -/
def Update.Sound : Update K → Prop
  | .sum before after divisor =>
      after.Sound ∧ 0 < divisor ∧ ∀ team, after.cov team team ≤ before.cov team team
  | .one before after divisor => 0 ≤ after.var ∧ 0 < divisor ∧ after.var ≤ before.var
  | .duds divisors => ∀ divisor ∈ divisors, 0 < divisor

namespace EventBlock

theorem Sound.empty : (EventBlock.empty : EventBlock K).Sound :=
  IsCovariance.empty _

theorem Sound.sum_nonneg {block : EventBlock K} (h : block.Sound) (members : List String) :
    0 ≤ (block.sum members).2 :=
  h.nonneg _

variable [IsStrictOrderedRing K]

theorem Sound.add {block : EventBlock K} (h : block.Sound) (team : String) (mean : K) {var : K}
    (hvar : 0 ≤ var) : (block.add team mean var).Sound :=
  IsCovariance.insert h team hvar

theorem Sound.grow {block : EventBlock K} (h : block.Sound) (team : String) {var : K}
    (hvar : 0 ≤ var) : (block.grow team var).Sound :=
  IsCovariance.widen h team hvar

theorem Sound.innovation_pos {block : EventBlock K} (h : block.Sound) (members : List String)
    {params : ComponentParams K} (hparams : params.Variances) :
    0 < block.innovation members params :=
  add_pos_of_nonneg_of_pos (h.sum_nonneg members) hparams.noise

theorem updateSum_cov {block : EventBlock K} (h : block.Sound) (members : List String)
    (observed : K) (params : ComponentParams K) {a c : String} (ha : a ∈ block.index)
    (hc : c ∈ block.index) :
    (block.updateSum members observed params).cov a c =
      corrected block.index block.cov (indicator members) (block.innovation members params) a c := by
  simp only [updateSum]
  rw [corrected_symm h.symm _ _ hc ha, add_self_div_two]

theorem Sound.updateSum {block : EventBlock K} (h : block.Sound) (members : List String)
    (observed : K) {params : ComponentParams K} (hparams : params.Variances) :
    (block.updateSum members observed params).Sound := by
  have hcorrect := h.correct (indicator members) (h.innovation_pos members hparams)
    (le_add_of_nonneg_right hparams.noise.le)
  exact hcorrect.congr fun a ha c hc => updateSum_cov h members observed params ha hc

/-- The update itself never increases a team's variance. -/
theorem updateSum_var_le {block : EventBlock K} (h : block.Sound) (members : List String)
    (observed : K) {params : ComponentParams K} (hparams : params.Variances) (team : String) :
    (block.updateSum members observed params).cov team team ≤ block.cov team team := by
  simp only [EventBlock.updateSum]
  rw [add_self_div_two]
  exact corrected_diag_le _ (h.innovation_pos members hparams) team

end EventBlock

variable [IsStrictOrderedRing K]

theorem updateOne_var_nonneg {belief : Belief K} (h : 0 ≤ belief.var) (observed : K)
    {params : ComponentParams K} (hparams : params.Variances) :
    0 ≤ (belief.updateOne observed params).var := by
  have hs : 0 < belief.var + params.noiseVar := add_pos_of_nonneg_of_pos h hparams.noise
  apply mul_nonneg h
  rw [sub_nonneg, div_le_one hs]
  exact le_add_of_nonneg_right hparams.noise.le

theorem updateOne_var_le {belief : Belief K} (h : 0 ≤ belief.var) (observed : K)
    {params : ComponentParams K} (hparams : params.Variances) :
    (belief.updateOne observed params).var ≤ belief.var := by
  have hs : 0 < belief.var + params.noiseVar := add_pos_of_nonneg_of_pos h hparams.noise
  apply mul_le_of_le_one_right h
  rw [sub_le_self_iff]
  exact div_nonneg h hs.le

theorem entering_var_nonneg {belief : Belief K} (h : 0 ≤ belief.var)
    {params : ComponentParams K} (hparams : params.Variances) :
    0 ≤ (belief.entering params).var :=
  add_nonneg (h.trans (le_max_left _ _)) hparams.event

end Blocks
/-! ### The whole model -/

namespace TeamModel
variable {K : Type u} [Field K] [LinearOrder K]

/-- Teams stand in the blocks of the events they entered, and all that is stored is sound. -/
structure Sound (settings : Settings K) (m : TeamModel K) : Prop where
  settings : m.settings = settings
  entered : ∀ team, ∀ e ∈ m.history team, ∀ name ∈ m.hubNames ++ m.sides,
    team ∈ (m.block e name).index
  blocks : ∀ e name, (m.block e name).Sound
  towers : ∀ team e, 0 ≤ (m.tower team e).var
  updates : ∀ update ∈ m.updates, update.Sound

variable {settings : Settings K} {m : TeamModel K}

theorem Sound.fresh (settings : Settings K) : (TeamModel.fresh settings).Sound settings where
  settings := rfl
  entered := fun _ _ h => absurd h List.not_mem_nil
  blocks := fun _ _ => EventBlock.Sound.empty
  towers := fun _ _ => le_refl 0
  updates := fun _ h => absurd h List.not_mem_nil

theorem Sound.setBlock (h : m.Sound settings) {eventKey : String} {name : Component}
    {block : EventBlock K} (hblock : block.Sound)
    (hindex : (m.block eventKey name).index ⊆ block.index) :
    (m.setBlock eventKey name block).Sound settings := by
  have hcases : ∀ e n, (m.setBlock eventKey name block).block e n = m.block e n ∨
      (e = eventKey ∧ n = name) ∧ (m.setBlock eventKey name block).block e n = block := by
    intro e n
    by_cases hkey : e = eventKey ∧ n = name
    · right
      refine ⟨hkey, ?_⟩
      rw [hkey.1, hkey.2, block_setBlock]
    · exact .inl (block_setBlock_of_ne m block hkey)
  constructor
  case settings => exact h.settings
  case entered =>
    intro team e he n hn
    have hold := h.entered team e he n hn
    rcases hcases e n with heq | ⟨⟨rfl, rfl⟩, heq⟩
    · rw [heq]
      exact hold
    · rw [heq]
      exact hindex hold
  case blocks =>
    intro e n
    rcases hcases e n with heq | ⟨-, heq⟩
    · rw [heq]
      exact h.blocks e n
    · rw [heq]
      exact hblock
  case towers => exact h.towers
  case updates => exact h.updates

theorem Sound.setTower (h : m.Sound settings) {team eventKey : String} {belief : Belief K}
    (hbelief : 0 ≤ belief.var) : (m.setTower team eventKey belief).Sound settings := by
  refine ⟨h.settings, h.entered, h.blocks, ?_, h.updates⟩
  intro t e
  by_cases hkey : t = team ∧ e = eventKey
  · rw [hkey.1, hkey.2, tower_setTower]
    exact hbelief
  · rw [tower_setTower_of_ne m belief hkey]
    exact h.towers t e

theorem Sound.note (h : m.Sound settings) {update : Update K} (hupdate : update.Sound) :
    Sound settings { m with updates := m.updates ++ [update] } := by
  refine ⟨h.settings, h.entered, h.blocks, h.towers, ?_⟩
  intro u hu
  rcases List.mem_append.mp hu with hu | hu
  · exact h.updates u hu
  · rw [List.mem_singleton.mp hu]
    exact hupdate

theorem Sound.var_nonneg (h : m.Sound settings) {team e : String} {name : Component}
    (he : e ∈ m.history team) (hname : name ∈ m.hubNames ++ m.sides) :
    0 ≤ ((m.block e name).belief team).var :=
  (h.blocks e name).diag_nonneg (h.entered team e he name hname)

section Steps
variable [IsStrictOrderedRing K]

theorem Sound.addTo (h : m.Sound settings) (team eventKey : String)
    {entry : Component × Belief K} (hentry : 0 ≤ entry.2.var) :
    (addTo team eventKey m entry).Sound settings :=
  h.setBlock ((h.blocks eventKey entry.1).add team entry.2.mean hentry)
    (Finset.subset_insert _ _)

theorem entries_var_nonneg (hs : settings.Variances) (h : m.Sound settings)
    (team eventKey : String) : ∀ entry ∈ m.entries team eventKey, 0 ≤ entry.2.var := by
  have hparams : ∀ name, (m.paramsOf name).Variances := fun name => by
    rw [paramsOf, h.settings]
    exact hs.of name
  intro entry hentry
  rcases List.mem_append.mp hentry with hentry | hentry
  · obtain ⟨name, hname, rfl⟩ := List.mem_map.mp hentry
    simp only [entryBelief]
    split
    · apply mul_nonneg (hparams name).prior
      rw [varMultiplier, h.settings]
      cases hv : settings.teamVarMultipliers.lookup team with
      | none => exact zero_le_one
      | some v => exact hs.multipliers team v hv
    · rename_i previous hprevious
      exact entering_var_nonneg (h.var_nonneg (List.mem_of_getLast? hprevious)
        (List.mem_append_left _ hname)) (hparams name)
  · obtain ⟨name, hname, rfl⟩ := List.mem_map.mp hentry
    simp only [entrySide]
    split
    · exact (hparams name).prior
    · rename_i previous hprevious
      exact add_nonneg (h.var_nonneg (List.mem_of_getLast? hprevious)
        (List.mem_append_right _ hname)) (hparams name).event

theorem entryTower_var_nonneg (hs : settings.Variances) (h : m.Sound settings)
    (team eventKey : String) : 0 ≤ (m.entryTower team eventKey).var := by
  have hparams : (m.paramsOf .tower).Variances := by
    rw [paramsOf, h.settings]
    exact hs.of .tower
  simp only [entryTower]
  split
  · exact hparams.prior
  · exact entering_var_nonneg (h.towers team _) hparams

omit [LinearOrder K] [IsStrictOrderedRing K] in
theorem mem_index_addTo {team : String} (t eventKey : String) (entry : Component × Belief K)
    {e : String} {name : Component}
    (h : team ∈ (m.block e name).index) : team ∈ ((addTo t eventKey m entry).block e name).index := by
  by_cases hkey : e = eventKey ∧ name = entry.1
  · obtain ⟨rfl, rfl⟩ := hkey
    rw [TeamModel.addTo, block_setBlock]
    exact Finset.mem_insert_of_mem h
  · rw [TeamModel.addTo, block_setBlock_of_ne _ _ hkey]
    exact h

omit [LinearOrder K] [IsStrictOrderedRing K] in
/-- A team stands in every block it is added to. -/
theorem mem_index_foldl_addTo {team eventKey : String} {name : Component}
    {entries : List (Component × Belief K)} (m : TeamModel K)
    (h : name ∈ entries.map Prod.fst ∨ team ∈ (m.block eventKey name).index) :
    team ∈ ((entries.foldl (TeamModel.addTo team eventKey) m).block eventKey name).index := by
  induction entries generalizing m with
  | nil => exact h.resolve_left List.not_mem_nil
  | cons entry entries ih =>
      apply ih
      rcases h with h | h
      · rcases List.mem_cons.mp h with rfl | h
        · right
          rw [TeamModel.addTo, block_setBlock]
          exact Finset.mem_insert_self _ _
        · exact .inl h
      · exact .inr (mem_index_addTo team eventKey entry h)

theorem Sound.enter (hs : settings.Variances) (h : m.Sound settings) (team eventKey : String) :
    (m.enter team eventKey).Sound settings := by
  by_cases hmem : eventKey ∈ m.history team
  · rw [enter_of_mem hmem]
    exact h
  · have hadded : ((m.entries team eventKey).foldl (TeamModel.addTo team eventKey) m).Sound
        settings := by
      exact @foldl_invariant _ _ _ (fun _ entry => 0 ≤ entry.2.var) (Sound settings)
        (fun m entry hm hentry => hm.addTo team eventKey hentry) _ _ h
        (foldMeets_of_forall (entries_var_nonneg hs h team eventKey) m)
    have htowered := @Sound.setTower _ _ _ _ _ hadded team eventKey _
      (entryTower_var_nonneg hs h team eventKey)
    have hframe := foldl_addTo team eventKey (m.entries team eventKey) m
    have hblock : ∀ e name, (m.enter team eventKey).block e name =
        ((m.entries team eventKey).foldl (TeamModel.addTo team eventKey) m).block e name := by
      intro e name
      rw [TeamModel.enter, if_neg hmem]
      rfl
    constructor
    case settings =>
      rw [enter_settings]
      exact h.settings
    case entered =>
      intro t e he name hname
      rw [hubNames, sides, enter_settings] at hname
      change name ∈ m.hubNames ++ m.sides at hname
      rw [hblock]
      have hold : e ∈ m.history t →
          t ∈ (((m.entries team eventKey).foldl (TeamModel.addTo team eventKey) m).block e
            name).index := by
        intro he
        apply hadded.entered t e <;> rw [hframe]
        · exact he
        · exact hname
      by_cases ht : t = team
      · subst ht
        simp only [enter_of_notMem hmem, Function.update_self, List.mem_append,
          List.mem_singleton] at he
        rcases he with he | rfl
        · exact hold he
        · apply mem_index_foldl_addTo
          left
          simpa [entries] using hname
      · rw [enter_history_of_ne m ht] at he
        exact hold he
    case blocks =>
      intro e name
      rw [hblock]
      exact hadded.blocks e name
    case towers =>
      rw [TeamModel.enter, if_neg hmem]
      exact htowered.towers
    case updates =>
      rw [TeamModel.enter, if_neg hmem]
      exact htowered.updates

theorem Sound.enterOffset (hs : settings.Variances) (h : m.Sound settings) (eventKey : String) :
    (m.enterOffset eventKey).Sound settings := by
  simp only [TeamModel.enterOffset]
  split
  · exact h
  · split
    · exact h.setBlock (h.blocks eventKey .teleop) (Finset.Subset.refl _)
    · apply h.setBlock _ (Finset.subset_insert _ _)
      apply (h.blocks eventKey .teleop).add
      rw [h.settings]
      exact hs.offset

theorem Sound.enterAll (hs : settings.Variances) (h : m.Sound settings) (card : MatchCard) :
    (m.enterAll card).Sound settings := by
  apply enterAll_keeps _ _ _ m card h
  · exact fun m card hm => ⟨hm.settings, hm.entered, hm.blocks, hm.towers, hm.updates⟩
  · exact fun m team eventKey _ hm => hm.enter hs team eventKey
  · exact fun m eventKey hm => hm.enterOffset hs eventKey

theorem Sound.updateSum (hs : settings.Variances) (h : m.Sound settings) (eventKey : String)
    (name : Component) (members : List String) (observed : K) :
    (m.updateSum eventKey name members observed).Sound settings := by
  have hparams : (m.paramsOf name).Variances := by
    rw [paramsOf, h.settings]
    exact hs.of name
  have hblock := h.blocks eventKey name
  have hafter := hblock.updateSum members observed hparams
  have hupdate : Update.Sound (.sum (m.block eventKey name) _ _) :=
    ⟨hafter, hblock.innovation_pos members hparams,
      EventBlock.updateSum_var_le hblock members observed hparams⟩
  exact (h.setBlock hafter (Finset.Subset.refl _)).note hupdate

theorem Sound.updateOne (hs : settings.Variances) (h : m.Sound settings) (team eventKey : String)
    (observed : K) : (m.updateOne team eventKey observed).Sound settings := by
  have hparams : (m.paramsOf .tower).Variances := by
    rw [paramsOf, h.settings]
    exact hs.of .tower
  have htower := h.towers team eventKey
  have hafter := updateOne_var_nonneg htower observed hparams
  have hupdate : Update.Sound (.one (m.tower team eventKey) _ _) :=
    ⟨hafter, add_pos_of_nonneg_of_pos htower hparams.noise,
      updateOne_var_le htower observed hparams⟩
  exact (h.setTower hafter).note hupdate

theorem Sound.grow (hs : settings.Variances) (h : m.Sound settings) (eventKey team : String) :
    (m.grow eventKey team).Sound settings := by
  have hgrown : ((m.hubNames ++ m.sides).foldl (fun m name =>
      m.setBlock eventKey name ((m.block eventKey name).grow team (m.paramsOf name).matchVar))
      m).Sound settings := by
    apply foldl_keeps _ _ h
    intro m name hm
    have hvar : 0 ≤ (m.paramsOf name).matchVar := by
      rw [paramsOf, hm.settings]
      exact (hs.of name).grown
    exact hm.setBlock ((hm.blocks eventKey name).grow team hvar) (Finset.Subset.refl _)
  apply hgrown.setTower
  apply add_nonneg (hgrown.towers team eventKey)
  rw [paramsOf, h.settings]
  exact (hs.of .tower).grown

theorem dudVar_pos (hs : settings.Variances) (h : m.Sound settings) (teams : List String)
    (eventKey : String) : 0 < m.dudVar teams eventKey := by
  apply List.sum_pos
  · intro x hx
    obtain ⟨name, -, rfl⟩ := List.mem_map.mp hx
    apply add_pos_of_nonneg_of_pos ((h.blocks eventKey name).sum_nonneg teams)
    rw [paramsOf, h.settings]
    exact (hs.of name).noise
  · rw [hubNames, h.settings]
    simpa using hs.hub

end Steps

section Duds
variable [IsStrictOrderedRing K] [Maths K]

theorem dudTotal_pos (hexp : ∀ x : K, 0 < Maths.exp x) (teams : List String)
    (eventKey : String) (observed : K) : 0 < dudTotal (m.dudWeights teams eventKey observed) := by
  apply add_pos_of_pos_of_nonneg (hexp _)
  apply List.sum_nonneg
  intro x hx
  simp only [dudWeights, List.map_map, List.mem_map] at hx
  obtain ⟨team, -, rfl⟩ := hx
  exact (hexp _).le

theorem dudDivisors_pos (hexp : ∀ x : K, 0 < Maths.exp x) (hs : settings.Variances)
    (h : m.Sound settings) (teams : List String) (eventKey : String) (components : Components K) :
    ∀ divisor ∈ m.dudDivisors teams eventKey components, 0 < divisor := by
  intro divisor hdivisor
  rw [dudDivisors] at hdivisor
  split at hdivisor
  · cases hdivisor
  · rcases List.mem_cons.mp hdivisor with rfl | hdivisor
    · exact dudVar_pos hs h teams eventKey
    · rcases List.mem_cons.mp hdivisor with rfl | hdivisor
      · exact dudTotal_pos hexp teams eventKey _
      · obtain ⟨team, -, rfl⟩ := List.mem_map.mp hdivisor
        rw [h.settings]
        exact add_pos_of_pos_of_nonneg hs.evidence (Nat.cast_nonneg _)

theorem Sound.observe (hexp : ∀ x : K, 0 < Maths.exp x) (hs : settings.Variances)
    (h : m.Sound settings) (result : MatchResult K) : (m.observe result).Sound settings := by
  apply observe_keeps _ _ _ _ _ m result (h.enterAll hs result.card)
  · exact fun m eventKey name members observed hm => hm.updateSum hs eventKey name members observed
  · exact fun m team eventKey observed hm => hm.updateOne hs team eventKey observed
  · intro m teams eventKey components hm
    have hupdate : Update.Sound (.duds (m.dudDivisors teams eventKey components)) :=
      dudDivisors_pos hexp hs hm teams eventKey components
    exact hm.note hupdate
  · exact fun m entry hm => ⟨hm.settings, hm.entered, hm.blocks, hm.towers, hm.updates⟩
  · exact fun m eventKey team hm => hm.grow hs eventKey team

theorem filter_well_formed (hexp : ∀ x : K, 0 < Maths.exp x) (hs : settings.Variances)
    (hm : Reachable settings m) :
    (∀ e name, IsCovariance (m.block e name).index (m.block e name).cov) ∧
      ∀ update ∈ m.updates, update.Sound := by
  have hsound : m.Sound settings := by
    apply hm.invariant
    · exact Sound.fresh settings
    · exact fun m card hm => hm.enterAll hs card
    · exact fun m result hm => hm.observe hexp hs result
  exact ⟨hsound.blocks, hsound.updates⟩

end Duds

theorem variances_knownTeam : (knownTeam 1).Variances where
  of := fun _ => by constructor <;> norm_num [knownTeam]
  offset := by norm_num [knownTeam]
  multipliers := by
    intro team v hv
    have hteam : team = "frc254" := by
      by_contra hne
      rw [knownTeam, Finmap.lookup_eq_none.mpr] at hv
      · cases hv
      · rwa [Finmap.mem_singleton]
    subst hteam
    rw [knownTeam, Finmap.lookup_singleton_eq] at hv
    cases hv
    exact zero_le_one
  evidence := by norm_num [knownTeam]
  hub := by decide

def openingResult : MatchResult ℝ where
  card := openingCard
  redScore := 120
  blueScore := 90
  redPoints := some 120
  bluePoints := some 90
  robots := ∅
  redComponents := Finmap.singleton "teleop_hub_points" (.number 100)
  blueComponents := Finmap.singleton "teleop_hub_points" (.number 70)

theorem filter_well_formed_opening :
    (∀ e name,
      IsCovariance (((fresh (knownTeam 1)).observe openingResult).block e name).index
        (((fresh (knownTeam 1)).observe openingResult).block e name).cov) ∧
      ∀ update ∈ ((fresh (knownTeam 1)).observe openingResult).updates, update.Sound :=
  filter_well_formed Real.exp_pos variances_knownTeam
    (.next (a := .observe openingResult) (.start rfl) True.intro rfl)

end TeamModel
end Frcmob.Ratings
