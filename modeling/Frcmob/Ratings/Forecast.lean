import Frcmob.Ratings.Replays

/-!
The belief that `belief` reports for an event the model has not entered, beside the one with
which `_enter` starts the event when its first match is played.
-/

namespace Frcmob.Ratings
open Transition

universe u

namespace TeamModel
variable {K : Type u}

theorem sides_isTotal {m : TeamModel K} {name : Component} (h : name ∈ m.sides) :
    name.isTotal = false := by
  simp only [sides, List.mem_append] at h
  rcases h with h | h <;> split at h <;> simp_all [Component.isTotal]

theorem hubNames_isTotal {m : TeamModel K} {name : Component} (h : name ∈ m.hubNames) :
    name.isTotal = true := by
  obtain ⟨entry, hentry, rfl⟩ := List.mem_map.mp h
  exact m.settings.totals entry hentry

theorem beliefs_inj {names : List Component} {f g : Component → Belief K} {x y : Belief K} :
    names.map (fun name => (name, f name)) ++ [(Component.tower, x)] =
        names.map (fun name => (name, g name)) ++ [(Component.tower, y)] ↔
      (∀ name ∈ names, f name = g name) ∧ x = y := by
  constructor
  · intro h
    have hparts := List.append_inj h (by simp)
    exact ⟨fun name hname => congrArg Prod.snd (List.map_inj_left.mp hparts.1 name hname),
      by simpa using hparts.2⟩
  · rintro ⟨h, rfl⟩
    rw [List.map_inj_left.mpr fun name hname => by rw [h name hname]]

theorem source_of_new {m : TeamModel K} {team eventKey : String} (eventStart : Option Int)
    (hstarted : m.eventStart eventKey = none) (hnew : eventKey ∉ m.history team) :
    m.source team eventKey eventStart = (m.lastBefore team eventStart).map fun e => (e, true) := by
  rw [source, if_neg hnew, hstarted, Option.or_none]

variable [Field K]

theorem entering_first_inj {p t w v u : K} :
    (⟨p * t, v⟩ : Belief K) = ⟨p * (t * w), v * u⟩ ↔
      (w = 1 ∨ p * t = 0) ∧ (u = 1 ∨ v = 0) := by
  rw [Belief.mk.injEq, ← mul_assoc, eq_comm (a := p * t), mul_right_eq_self₀, eq_comm (a := v),
    mul_right_eq_self₀]

/-- The team stands in the event's block of the component, with this belief. -/
def Holds (m : TeamModel K) (team eventKey : String) (name : Component) (belief : Belief K) :
    Prop :=
  team ∈ (m.block eventKey name).index ∧ (m.block eventKey name).belief team = belief

theorem belief_add_of_ne (block : EventBlock K) {team other : String} (mean var : K)
    (h : other ≠ team) : (block.add team mean var).belief other = block.belief other := by
  simp [EventBlock.belief, EventBlock.add, Covariance.inserted, h]

theorem belief_add_self (block : EventBlock K) (team : String) (mean var : K) :
    (block.add team mean var).belief team = ⟨mean, var⟩ := by
  simp [EventBlock.belief, EventBlock.add, Covariance.inserted]

theorem addTo_belief_of_ne (m : TeamModel K) {team other : String} (eventKey e : String)
    (entry : Component × Belief K) (name : Component) (h : other ≠ team) :
    ((addTo team eventKey m entry).block e name).belief other =
      (m.block e name).belief other := by
  by_cases hkey : e = eventKey ∧ name = entry.1
  · obtain ⟨rfl, rfl⟩ := hkey
    rw [addTo, block_setBlock, belief_add_of_ne _ _ _ h]
  · rw [addTo, block_setBlock_of_ne _ _ hkey]

theorem foldl_addTo_belief_of_ne {team other : String} (h : other ≠ team) (eventKey e : String)
    (entries : List (Component × Belief K)) (m : TeamModel K) (name : Component) :
    ((entries.foldl (addTo team eventKey) m).block e name).belief other =
      (m.block e name).belief other := by
  induction entries generalizing m with
  | nil => rfl
  | cons entry entries ih =>
      rw [List.foldl_cons, ih, addTo_belief_of_ne m eventKey e entry name h]

theorem holds_addTo_of_ne {m : TeamModel K} {team other : String} {e : String}
    {name : Component} {belief : Belief K} (eventKey : String) (entry : Component × Belief K)
    (h : other ≠ team) (hm : m.Holds other e name belief) :
    (addTo team eventKey m entry).Holds other e name belief := by
  refine ⟨?_, (addTo_belief_of_ne m eventKey e entry name h).trans hm.2⟩
  by_cases hkey : e = eventKey ∧ name = entry.1
  · obtain ⟨rfl, rfl⟩ := hkey
    rw [addTo, block_setBlock]
    exact Finset.mem_insert_of_mem hm.1
  · rw [addTo, block_setBlock_of_ne _ _ hkey]
    exact hm.1

/-- The last entry of a component counts. -/
theorem holds_foldl_addTo {team eventKey : String} {name : Component} {belief : Belief K}
    {entries : List (Component × Belief K)} (hsame : ∀ b, (name, b) ∈ entries → b = belief)
    (m : TeamModel K) (h : name ∈ entries.map Prod.fst ∨ m.Holds team eventKey name belief) :
    (entries.foldl (addTo team eventKey) m).Holds team eventKey name belief := by
  induction entries generalizing m with
  | nil => exact h.resolve_left List.not_mem_nil
  | cons entry entries ih =>
      apply ih fun b hb => hsame b (List.mem_cons_of_mem _ hb)
      by_cases hname : name = entry.1
      · right
        subst hname
        have hb := hsame entry.2 List.mem_cons_self
        rw [Holds, addTo, block_setBlock, belief_add_self]
        exact ⟨Finset.mem_insert_self _ _, hb⟩
      · rcases h with h | h
        · left
          exact (List.mem_cons.mp h).resolve_left hname
        · right
          rw [Holds, addTo, block_setBlock_of_ne _ _ fun hkey => hname hkey.2]
          exact h

variable [LinearOrder K]

/-- A team enters an event with its entry belief. -/
theorem holds_enter {m : TeamModel K} {team eventKey : String} {name : Component}
    (hnew : eventKey ∉ m.history team) (hname : name ∈ m.hubNames) :
    (m.enter team eventKey).Holds team eventKey name (m.entryBelief team eventKey name) := by
  rw [enter_of_notMem hnew]
  apply holds_foldl_addTo
  · intro b hb
    rcases List.mem_append.mp hb with hb | hb
    · obtain ⟨n, -, heq⟩ := List.mem_map.mp hb
      cases heq
      rfl
    · obtain ⟨n, hn, heq⟩ := List.mem_map.mp hb
      cases heq
      exact absurd (hubNames_isTotal hname) (by rw [sides_isTotal hn]; decide)
  · left
    simp only [entries, List.map_append, List.mem_append, List.map_map]
    left
    exact List.mem_map.mpr ⟨name, hname, rfl⟩

theorem tower_enter {m : TeamModel K} {team eventKey : String}
    (hnew : eventKey ∉ m.history team) :
    (m.enter team eventKey).tower team eventKey = m.entryTower team eventKey := by
  rw [enter_of_notMem hnew]
  exact tower_setTower m team eventKey _

section Other
variable {m : TeamModel K} {team other eventKey : String} (h : other ≠ team)
include h

theorem enter_belief_of_ne (e : String) (name : Component) :
    ((m.enter team eventKey).block e name).belief other = (m.block e name).belief other := by
  by_cases hmem : eventKey ∈ m.history team
  · rw [enter_of_mem hmem]
  · rw [enter_of_notMem hmem]
    exact foldl_addTo_belief_of_ne h eventKey e _ m name

theorem holds_enter_of_ne {e : String} {name : Component} {belief : Belief K}
    (hm : m.Holds other e name belief) : (m.enter team eventKey).Holds other e name belief := by
  by_cases hmem : eventKey ∈ m.history team
  · rw [enter_of_mem hmem]
    exact hm
  · rw [enter_of_notMem hmem]
    exact @foldl_keeps _ _ _ (fun m : TeamModel K => m.Holds other e name belief)
      (fun m entry hm => holds_addTo_of_ne eventKey entry h hm) _ _ hm

theorem tower_enter_of_ne (e : String) :
    (m.enter team eventKey).tower other e = m.tower other e := by
  by_cases hmem : eventKey ∈ m.history team
  · rw [enter_of_mem hmem]
  · rw [enter_of_notMem hmem]
    exact tower_setTower_of_ne m _ fun hkey => h hkey.1

/-- Another team's entry does not change a team's entry belief. -/
theorem entryBelief_enter_of_ne (e : String) (name : Component) :
    (m.enter team eventKey).entryBelief other e name = m.entryBelief other e name := by
  simp only [entryBelief, enter_history_of_ne m h, enter_belief_of_ne h, prior, paramsOf,
    firstMultiplier, multiplier, varMultiplier, weekMultiplier, enter_settings,
    enter_eventStart, enter_seasonStart]

theorem entryTower_enter_of_ne (e : String) :
    (m.enter team eventKey).entryTower other e = m.entryTower other e := by
  simp only [entryTower, enter_history_of_ne m h, tower_enter_of_ne h, prior, paramsOf,
    firstMultiplier, multiplier, weekMultiplier, enter_settings, enter_eventStart,
    enter_seasonStart]

end Other

/-! ### Everyone enters -/

/-- In `m'` the team has entered the event with the beliefs it would enter it with in `m`. -/
structure HasEntered (m m' : TeamModel K) (team eventKey : String) : Prop where
  entered : eventKey ∈ m'.history team
  hub : ∀ name ∈ m.hubNames, m'.Holds team eventKey name (m.entryBelief team eventKey name)
  tower : m'.tower team eventKey = m.entryTower team eventKey

variable {team eventKey : String}

theorem hasEntered_enter {m : TeamModel K} (hnew : eventKey ∉ m.history team) :
    HasEntered m (m.enter team eventKey) team eventKey where
  entered := by
    rw [enter_of_notMem hnew]
    simp
  hub := fun _ hname => holds_enter hnew hname
  tower := tower_enter hnew

/-- Later entries, its own or another's, leave it so. -/
theorem HasEntered.enter {m m' : TeamModel K} (h : HasEntered m m' team eventKey) (t : String) :
    HasEntered m (m'.enter t eventKey) team eventKey := by
  by_cases ht : team = t
  · subst ht
    rw [enter_of_mem h.entered]
    exact h
  · constructor
    case entered =>
      rw [enter_history_of_ne m' ht]
      exact h.entered
    case hub =>
      intro name hname
      exact holds_enter_of_ne ht (h.hub name hname)
    case tower =>
      rw [tower_enter_of_ne ht]
      exact h.tower

/-- Whoever enters before and after it, a team enters with the beliefs it would enter with. -/
theorem hasEntered_foldl {teams : List String} {m : TeamModel K} (hteam : team ∈ teams)
    (hnew : eventKey ∉ m.history team) :
    HasEntered m (teams.foldl (fun m t => m.enter t eventKey) m) team eventKey := by
  induction teams generalizing m with
  | nil => cases hteam
  | cons t teams ih =>
      rw [List.foldl_cons]
      by_cases ht : team = t
      · subst ht
        exact @foldl_keeps _ _ _ (fun m' : TeamModel K => HasEntered m m' team eventKey)
          (fun _ t hm' => hm'.enter t) teams _ (hasEntered_enter hnew)
      · have hlater : eventKey ∉ (m.enter t eventKey).history team := by
          rw [enter_history_of_ne m ht]
          exact hnew
        have hrest := ih ((List.mem_cons.mp hteam).resolve_left ht) hlater
        constructor
        case entered => exact hrest.entered
        case hub =>
          intro name hname
          rw [← @entryBelief_enter_of_ne _ _ _ m _ _ eventKey ht]
          apply hrest.hub
          rw [hubNames, enter_settings]
          exact hname
        case tower =>
          rw [hrest.tower, entryTower_enter_of_ne ht]

theorem HasEntered.enterOffset {m m' : TeamModel K} (h : HasEntered m m' team eventKey)
    (e : String) : HasEntered m (m'.enterOffset e) team eventKey := by
  simp only [TeamModel.enterOffset]
  split
  · exact h
  · refine ⟨h.entered, ?_, h.tower⟩
    intro name hname
    have hold := h.hub name hname
    by_cases hkey : eventKey = e ∧ name = .teleop
    · obtain ⟨rfl, rfl⟩ := hkey
      rw [Holds, block_setBlock]
      split
      · exact hold
      · rename_i hout
        have hne : team ≠ offsetKey eventKey := fun heq => hout (heq ▸ hold.1)
        rw [belief_add_of_ne _ _ _ hne]
        exact ⟨Finset.mem_insert_of_mem hold.1, hold.2⟩
    · rw [Holds, block_setBlock_of_ne _ _ hkey]
      exact hold

theorem hasEntered_enterAll {m : TeamModel K} {card : MatchCard} (hteam : team ∈ card.teams)
    (hnew : card.eventKey ∉ m.history team) :
    HasEntered (m.noteStart card) (m.enterAll card) team card.eventKey :=
  (hasEntered_foldl (m := m.noteStart card) hteam hnew).enterOffset card.eventKey

/-! ### The events of a history have started -/

def HistoryStarted (m : TeamModel K) : Prop :=
  ∀ team, ∀ e ∈ m.history team, (m.eventStart e).isSome

theorem HistoryStarted.enterAll {m : TeamModel K} (h : m.HistoryStarted) (card : MatchCard) :
    (m.enterAll card).HistoryStarted := by
  apply enterAll_keeps _ _ _ m card h
  · intro m card hm team e he
    have hstarted := hm team e he
    by_cases hkey : e = card.eventKey
    · subst hkey
      simp [noteStart]
    · simpa [noteStart, hkey] using hstarted
  · intro m team eventKey hstarted hm other e he
    rw [enter_eventStart]
    by_cases hother : other = team
    · subst hother
      by_cases hmem : eventKey ∈ m.history other
      · rw [enter_of_mem hmem] at he
        exact hm other e he
      · simp only [enter_of_notMem hmem, Function.update_self, List.mem_append,
          List.mem_singleton] at he
        rcases he with he | rfl
        · exact hm other e he
        · exact hstarted
    · rw [enter_history_of_ne m hother] at he
      exact hm other e he
  · intro m eventKey hm
    simp only [TeamModel.enterOffset]
    split
    · exact hm
    · exact hm

variable [Maths K]

theorem HistoryStarted.observe {m : TeamModel K} (h : m.HistoryStarted) (result : MatchResult K) :
    (m.observe result).HistoryStarted := by
  apply observe_keeps _ _ _ _ _ m result (h.enterAll result.card)
  · exact fun _ _ _ _ _ hm => hm
  · exact fun _ _ _ _ hm => hm
  · exact fun _ _ _ _ hm => hm
  · exact fun _ _ hm => hm
  · intro m eventKey team hm
    rw [grow, foldl_setBlock_eq]
    exact hm

theorem Reachable.historyStarted {settings : Settings K} {m : TeamModel K}
    (h : Reachable settings m) : m.HistoryStarted := by
  apply h.invariant
  · intro team e he
    cases he
  · exact fun m card hm => hm.enterAll card
  · exact fun m result hm => hm.observe result

omit [Maths K]

/-! ### A forecast starts where play starts -/

/-- The beliefs with which the team starts the event of its first match. -/
def enteredBelief (m : TeamModel K) (team : String) (card : MatchCard) :
    List (Component × Belief K) :=
  m.hubNames.map (fun name => (name, ((m.enterAll card).block card.eventKey name).belief team)) ++
    [(.tower, (m.enterAll card).tower team card.eventKey)]

/-- The two beliefs start an event alike: the variances may differ below the entry floor. -/
def SameAbove (a b : Belief K) (floor : K) : Prop :=
  a.mean = b.mean ∧ max a.var floor = max b.var floor

/-- When `belief` starts the event as `_enter` does. A team without events: no week multiplier
moves a mean and no variance multiplier a variance. Else: it stands at the last event that
started before `eventStart` as at the last it entered, or, when none started before, as the
season's prior. -/
def StartsAlike (m : TeamModel K) (team : String) (card : MatchCard) (eventStart : Option Int) :
    Prop :=
  match (m.history team).getLast?, m.lastBefore team eventStart with
  | none, _ =>
      let unmoved (name : Component) :=
        (m.noteStart card).weekMultiplier card.eventKey = 1 ∨ m.prior name * m.multiplier team = 0
      (∀ name ∈ m.hubNames,
        unmoved name ∧ (m.varMultiplier team = 1 ∨ (m.paramsOf name).priorVar = 0)) ∧
        unmoved .tower
  | some last, some e =>
      (∀ name ∈ m.hubNames,
        SameAbove ((m.block e name).belief team) ((m.block last name).belief team)
          (m.paramsOf name).entryVarFloor) ∧
        SameAbove (m.tower team e) (m.tower team last) (m.paramsOf .tower).entryVarFloor
  | some last, none =>
      let asPrior (name : Component) (old : Belief K) :=
        m.prior name * m.multiplier team = old.mean ∧
          (m.paramsOf name).priorVar =
            max old.var (m.paramsOf name).entryVarFloor + (m.paramsOf name).eventVar
      (∀ name ∈ m.hubNames, asPrior name ((m.block last name).belief team)) ∧
        asPrior .tower (m.tower team last)

theorem enteredBelief_eq {m : TeamModel K} {team : String} {card : MatchCard}
    (hteam : team ∈ card.teams) (hnew : card.eventKey ∉ m.history team) :
    m.enteredBelief team card =
      m.hubNames.map (fun name =>
        (name, (m.noteStart card).entryBelief team card.eventKey name)) ++
        [(.tower, (m.noteStart card).entryTower team card.eventKey)] := by
  have hentered := hasEntered_enterAll hteam hnew
  rw [enteredBelief, beliefs_inj]
  exact ⟨fun name hname => (hentered.hub name hname).2, hentered.tower⟩

theorem entering_inj {a b : Belief K} {params : ComponentParams K} :
    a.entering params = b.entering params ↔ SameAbove a b params.entryVarFloor := by
  simp [Belief.entering, SameAbove]

/-- In a reachable model, for an event of which no match has been seen: a forecast starts where
play starts exactly when the two start alike. -/
theorem forecast_starts_where_play_starts {settings : Settings K} [Maths K] {m : TeamModel K}
    (hm : Reachable settings m) {team : String} {card : MatchCard} (hteam : team ∈ card.teams)
    (hunseen : m.eventStart card.eventKey = none) (eventStart : Option Int) :
    m.belief team card.eventKey eventStart = m.enteredBelief team card ↔
      m.StartsAlike team card eventStart := by
  have hnew : card.eventKey ∉ m.history team := by
    intro hin
    have hstarted := hm.historyStarted team card.eventKey hin
    rw [hunseen] at hstarted
    cases hstarted
  rw [belief, enteredBelief_eq hteam hnew, beliefs_inj, StartsAlike]
  have hentry : (m.noteStart card).history = m.history := rfl
  cases hlast : (m.history team).getLast? with
  | none =>
      have hnone : m.lastBefore team eventStart = none := by
        rw [List.getLast?_eq_none_iff] at hlast
        simp [lastBefore, hlast]
      simp only [hubBelief, towerBelief, source_of_new eventStart hunseen hnew, entryBelief,
        entryTower, hentry, hlast, hnone, Option.map_none]
      apply and_congr
      · apply forall₂_congr
        intro name _
        exact entering_first_inj
      · have htower := entering_first_inj (p := m.prior .tower) (t := m.multiplier team)
          (w := (m.noteStart card).weekMultiplier card.eventKey) (v := (m.paramsOf .tower).priorVar)
          (u := 1)
        rw [mul_one] at htower
        exact htower.trans (and_iff_left (.inl rfl))
  | some last =>
      cases hbefore : m.lastBefore team eventStart with
      | some e =>
          simp only [hubBelief, towerBelief, source_of_new eventStart hunseen hnew, entryBelief,
            entryTower, hentry, hlast, hbefore, Option.map_some]
          exact and_congr (forall₂_congr fun name _ => entering_inj) entering_inj
      | none =>
          simp only [hubBelief, towerBelief, source_of_new eventStart hunseen hnew, entryBelief,
            entryTower, hentry, hlast, hbefore, Option.map_none]
          simp only [Belief.entering, Belief.mk.injEq]
          rfl

theorem weekMultiplier_knownTeam (varMultiplier : ℝ) :
    ((fresh (knownTeam varMultiplier)).noteStart openingCard).weekMultiplier
      openingCard.eventKey = 1 := by
  simp [fresh, noteStart, weekMultiplier, knownTeam]

theorem varMultiplier_knownTeam (varMultiplier : ℝ) :
    (fresh (knownTeam varMultiplier)).varMultiplier "frc254" = varMultiplier := by
  simp [fresh, TeamModel.varMultiplier, knownTeam]

theorem forecast_starts_where_play_starts_known :
    (fresh (knownTeam 1)).belief "frc254" "2026casj" none =
      (fresh (knownTeam 1)).enteredBelief "frc254" openingCard := by
  have hteam : "frc254" ∈ openingCard.teams := by decide
  have hreachable : Reachable (knownTeam 1) (fresh (knownTeam 1)) := .start rfl
  apply (forecast_starts_where_play_starts hreachable hteam rfl none).mpr
  refine ⟨fun name _ => ⟨.inl (weekMultiplier_knownTeam 1), .inl (varMultiplier_knownTeam 1)⟩, ?_⟩
  exact .inl (weekMultiplier_knownTeam 1)

/-- It is forecast as unsure as a stranger and enters half as unsure. -/
theorem forecast_ignores_known_team :
    ¬ ∀ m, Reachable (knownTeam (1 / 2)) m → m.eventStart "2026casj" = none →
      m.belief "frc254" "2026casj" none = m.enteredBelief "frc254" openingCard := by
  intro h
  have heq := h (fresh (knownTeam (1 / 2))) (.start rfl) rfl
  rw [belief, enteredBelief_eq (by decide) (by simp [fresh]), beliefs_inj] at heq
  have hteleop := congrArg Belief.var (heq.1 .teleop (by decide))
  simp [hubBelief, entryBelief, source, lastBefore, fresh, noteStart, paramsOf, knownTeam,
    TeamModel.varMultiplier] at hteleop

end TeamModel
end Frcmob.Ratings
