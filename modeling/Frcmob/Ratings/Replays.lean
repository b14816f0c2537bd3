import Mathlib.Analysis.Real.Sqrt
import Mathlib.Analysis.SpecialFunctions.Log.Basic
import Frcmob.Lib.Transition
import Frcmob.Ratings.TeamModel

/-!
Runs of the team model: matches predicted and observed in any order from a fresh model. What the
steps of `predict` and `observe` keep, the model keeps.
-/

namespace Frcmob.Ratings
open Transition

universe u

inductive Action (K : Type u)
  | predict (card : MatchCard)
  | observe (result : MatchResult K)

noncomputable instance : Maths ℝ where
  exp := Real.exp
  log := Real.log
  sqrt := Real.sqrt

namespace TeamModel
variable {K : Type u}

theorem foldl_setBlock_eq {α : Type*} (f : TeamModel K → α → EventBlock K) (eventKey : String)
    (name : α → Component) (xs : List α) (m : TeamModel K) :
    xs.foldl (fun m x => m.setBlock eventKey (name x) (f m x)) m =
      { m with
        blocks := (xs.foldl (fun m x => m.setBlock eventKey (name x) (f m x)) m).blocks } := by
  induction xs generalizing m with
  | nil => rfl
  | cons x xs ih =>
      rw [List.foldl_cons, ih]
      rfl

variable [Field K]

@[simp] theorem block_setBlock (m : TeamModel K) (eventKey : String) (name : Component)
    (block : EventBlock K) : (m.setBlock eventKey name block).block eventKey name = block := by
  simp [setBlock, TeamModel.block]

theorem block_setBlock_of_ne (m : TeamModel K) {e eventKey : String} {n name : Component}
    (block : EventBlock K) (h : ¬ (e = eventKey ∧ n = name)) :
    (m.setBlock eventKey name block).block e n = m.block e n := by
  by_cases he : e = eventKey
  · subst he
    have hn : n ≠ name := fun hn => h ⟨rfl, hn⟩
    simp [setBlock, TeamModel.block, hn]
  · simp [setBlock, TeamModel.block, he]

@[simp] theorem tower_setTower (m : TeamModel K) (team eventKey : String) (belief : Belief K) :
    (m.setTower team eventKey belief).tower team eventKey = belief := by
  simp [setTower, tower]

theorem tower_setTower_of_ne (m : TeamModel K) {t team e eventKey : String} (belief : Belief K)
    (h : ¬ (t = team ∧ e = eventKey)) :
    (m.setTower team eventKey belief).tower t e = m.tower t e := by
  by_cases ht : t = team
  · subst ht
    have he : e ≠ eventKey := fun he => h ⟨rfl, he⟩
    simp [setTower, tower, he]
  · simp [setTower, tower, ht]

/-- Entries into an event change its blocks and nothing else. -/
theorem foldl_addTo (team eventKey : String) (entries : List (Component × Belief K))
    (m : TeamModel K) :
    entries.foldl (addTo team eventKey) m =
      { m with blocks := (entries.foldl (addTo team eventKey) m).blocks } := by
  induction entries generalizing m with
  | nil => rfl
  | cons entry entries ih =>
      rw [List.foldl_cons, ih]
      rfl

variable [LinearOrder K]

theorem enter_of_mem {m : TeamModel K} {team eventKey : String} (h : eventKey ∈ m.history team) :
    m.enter team eventKey = m :=
  if_pos h

theorem enter_of_notMem {m : TeamModel K} {team eventKey : String}
    (h : eventKey ∉ m.history team) :
    m.enter team eventKey =
      { m with
        blocks := ((m.entries team eventKey).foldl (addTo team eventKey) m).blocks
        towers := (m.setTower team eventKey (m.entryTower team eventKey)).towers
        history := Function.update m.history team (m.history team ++ [eventKey]) } := by
  simp only [enter, if_neg h]
  rw [foldl_addTo]
  rfl

@[simp] theorem enter_settings (m : TeamModel K) (team eventKey : String) :
    (m.enter team eventKey).settings = m.settings := by
  by_cases h : eventKey ∈ m.history team
  · rw [enter_of_mem h]
  · rw [enter_of_notMem h]

@[simp] theorem enter_eventStart (m : TeamModel K) (team eventKey : String) :
    (m.enter team eventKey).eventStart = m.eventStart := by
  by_cases h : eventKey ∈ m.history team
  · rw [enter_of_mem h]
  · rw [enter_of_notMem h]

@[simp] theorem enter_seasonStart (m : TeamModel K) (team eventKey : String) :
    (m.enter team eventKey).seasonStart = m.seasonStart := by
  by_cases h : eventKey ∈ m.history team
  · rw [enter_of_mem h]
  · rw [enter_of_notMem h]

theorem enter_history_of_ne (m : TeamModel K) {team other eventKey : String} (h : other ≠ team) :
    (m.enter team eventKey).history other = m.history other := by
  by_cases hmem : eventKey ∈ m.history team
  · rw [enter_of_mem hmem]
  · rw [enter_of_notMem hmem]
    exact Function.update_of_ne h _ _

/-- The first half of a step: a property that each entry and the offset keep. -/
theorem enterAll_keeps {P : TeamModel K → Prop}
    (hstart : ∀ (m : TeamModel K) card, P m → P (m.noteStart card))
    (henter : ∀ (m : TeamModel K) team eventKey, (m.eventStart eventKey).isSome → P m →
      P (m.enter team eventKey))
    (hoffset : ∀ (m : TeamModel K) eventKey, P m → P (m.enterOffset eventKey))
    (m : TeamModel K) (card : MatchCard) (h : P m) : P (m.enterAll card) := by
  apply hoffset
  have hboth : P (card.teams.foldl (fun m team => m.enter team card.eventKey) (m.noteStart card)) ∧
      ((card.teams.foldl (fun m team => m.enter team card.eventKey)
        (m.noteStart card)).eventStart card.eventKey).isSome := by
    apply @foldl_keeps _ _ _ fun m => P m ∧ (m.eventStart card.eventKey).isSome
    · intro m team hm
      refine ⟨henter m team card.eventKey hm.2 hm.1, ?_⟩
      rw [enter_eventStart]
      exact hm.2
    · refine ⟨hstart m card h, ?_⟩
      cases he : m.eventStart card.eventKey <;> simp [noteStart, he]
  exact hboth.1

variable [Maths K]

/-- The second half: a property that each update, count and growth keeps. -/
theorem observe_keeps {P : TeamModel K → Prop}
    (hsum : ∀ (m : TeamModel K) eventKey name members observed, P m →
      P (m.updateSum eventKey name members observed))
    (hone : ∀ (m : TeamModel K) team eventKey observed, P m →
      P (m.updateOne team eventKey observed))
    (hnote : ∀ (m : TeamModel K) teams eventKey components, P m →
      P (m.noteDuds teams eventKey components))
    (hcount : ∀ (m : TeamModel K) entry, P m → P (m.countDud entry))
    (hgrow : ∀ (m : TeamModel K) eventKey team, P m → P (m.grow eventKey team))
    (m : TeamModel K) (result : MatchResult K) (h : P (m.enterAll result.card)) :
    P (m.observe result) := by
  have hdefense : P ((m.enterAll result.card).observeDefense result) := by
    rw [observeDefense]
    split
    · exact foldl_keeps (fun m entry hm => hsum m _ _ _ _ hm) _ h
    · exact h
  have hfouls : P (((m.enterAll result.card).observeDefense result).observeFouls result) := by
    rw [observeFouls]
    split
    · apply foldl_keeps _ _ hdefense
      intro m entry hm
      dsimp only
      split
      · exact hsum m _ _ _ _ hm
      · exact hm
    · exact hdefense
  have halliance : ∀ suppression (m : TeamModel K) side, P m →
      P (observeAlliance suppression result.card.eventKey m side) := by
    intro suppression m side hm
    simp only [observeAlliance]
    apply foldl_keeps
    · intro m entry hm
      split
      · exact hone m _ _ _ hm
      · exact hm
    · apply foldl_keeps (fun m entry hm => hcount m entry hm)
      apply foldl_keeps
      · intro m entry hm
        split
        · exact hm
        · exact hsum m _ _ _ _ hm
      · split
        · exact hnote m _ _ _ hm
        · exact hm
  rw [observe]
  apply foldl_keeps (fun m team hm => hgrow m _ team hm)
  exact foldl_keeps (fun m side hm => halliance _ m side hm) _ hfouls

/-- A season's model, fed with matches in any order. -/
def replays (settings : Settings K) : System (TeamModel K) (Action K) where
  start m := m = fresh settings
  step m
    | .predict card => some (m.predict card).1
    | .observe result => some (m.observe result)

def Reachable (settings : Settings K) (m : TeamModel K) : Prop :=
  Transition.Reachable (replays settings) m

/-- What a fresh model has and both steps keep holds in every model reached. -/
theorem Reachable.invariant {settings : Settings K} {P : TeamModel K → Prop}
    (hfresh : P (fresh settings)) (hpredict : ∀ m card, P m → P (m.predict card).1)
    (hobserve : ∀ m result, P m → P (m.observe result)) {m : TeamModel K}
    (h : Reachable settings m) : P m := by
  apply ReachableWhen.invariant _ _ h
  · rintro _ rfl
    exact hfresh
  · intro m action next hm _ hstep
    cases action with
    | predict card =>
        cases hstep
        exact hpredict m card hm
    | observe result =>
        cases hstep
        exact hobserve m result hm

/-- A team known from last season, which starts less unsure than a stranger. -/
def knownTeam (varMultiplier : ℝ) : Settings ℝ where
  priors := fun name => if name = .teleop then some 50 else none
  params :=
    { of := fun _ => ⟨4000, 10, 300, 4000, 0⟩
      dudBaseRate := 0
      dudPriorMatches := 10
      dudPredict := false
      dudRobust := false
      modelFouls := false
      modelDefense := false
      eventOffsetVar := 0 }
  hub := hubComponents
  totals := hubComponents_isTotal
  teamMultipliers := ∅
  weekMultipliers := []
  teamVarMultipliers := Finmap.singleton "frc254" varMultiplier

def openingCard : MatchCard where
  matchKey := "2026casj_qm1"
  eventKey := "2026casj"
  time := 1772000000
  compLevel := "qm"
  eventStart := 1772000000
  red := ["frc254", "frc1678", "frc971"]
  blue := ["frc604", "frc649", "frc846"]

end TeamModel
end Frcmob.Ratings
