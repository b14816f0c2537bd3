import Frcmob.Lib.Transition
import Frcmob.Lib.Window
import Mathlib.Algebra.Group.Nat.Defs
import Mathlib.Data.List.Perm.Basic
import Mathlib.Order.Basic

/-!
The hourly budget for new workspaces: `take_workspace_creation_slot` and the hours that
`creation_budget_status` shows, in `services/workspace_limits.py`. A call counts itself in Redis
and may need another command before it answers, so calls of all workers interleave between the
two, and Redis may fail at each, before or after it did what it was asked.
-/

namespace Frcmob.CreationBudget

open Transition

structure Service where
  productionLike : Bool
  maxPerHour : Int

def limit (service : Service) : Nat :=
  (max 1 (if service.maxPerHour = 0 then 30 else service.maxPerHour)).toNat

def keyTtlSec : Int := 2 * 86400

inductive Command
  | expire
  | hit
deriving DecidableEq

/-- A call between two commands; `_hour_key` is a time's hour since the epoch. -/
structure Call where
  hour : Int
  count : Nat
  command : Command
deriving DecidableEq

/-- How a command ends: `lost` says that Redis did it, and the call does not know. -/
inductive Redis
  | answers
  | lost
  | fails
deriving DecidableEq

/-- `hits` are the times at which the marks of spent hours expire. Of the run: what the calls
answered, and of every hour the calls that were counted and those within the limit. -/
structure State where
  now : Int
  counters : Window.Counters Int := fun _ => none
  hits : Int → Option Int := fun _ => none
  calls : List Call := []
  answered : List (Int × Bool) := []
  draws : Int → Nat := fun _ => 0
  granted : Int → Nat := fun _ => 0

def State.answer (s : State) (hour : Int) (slot : Bool) : State :=
  { s with answered := (hour, slot) :: s.answered }

/-- Redis raised. In production the call answers with a 503, else it lets the team in. -/
def State.unavailable (service : Service) (s : State) (hour : Int) : State :=
  if service.productionLike then s else s.answer hour true

def State.decide (service : Service) (s : State) (call : Call) : State :=
  if call.count ≤ limit service then s.answer call.hour true
  else { s with calls := { call with command := .hit } :: s.calls }

/-- `INCR` -/
def State.incr (service : Service) (s : State) (hour : Int) : State :=
  { s with
    counters := Window.incr s.counters s.now hour
    draws := Function.update s.draws hour (s.draws hour + 1)
    granted := if Window.count s.counters s.now hour < limit service then
        Function.update s.granted hour (s.granted hour + 1)
      else s.granted }

def State.call (service : Service) (s : State) : Redis → State
  | .answers =>
      let hour := s.now / 3600
      let call : Call := ⟨hour, Window.count s.counters s.now hour + 1, .expire⟩
      if call.count = 1 then
        { s.incr service hour with calls := call :: s.calls }
      else (s.incr service hour).decide service call
  | .lost => (s.incr service (s.now / 3600)).unavailable service (s.now / 3600)
  | .fails => s.unavailable service (s.now / 3600)

def State.perform (s : State) (call : Call) : State :=
  match call.command with
  | .expire => { s with counters := Window.expire s.counters call.hour (s.now + keyTtlSec) }
  | .hit => { s with hits := Function.update s.hits call.hour (some (s.now + keyTtlSec)) }

def State.finish (service : Service) (s : State) (call : Call) : Redis → State
  | .answers =>
      match call.command with
      | .expire => (s.perform call).decide service call
      | .hit => (s.perform call).answer call.hour false
  | .lost => (s.perform call).unavailable service call.hour
  | .fails => s.unavailable service call.hour

/-- `budget_hit_hours_24h`: the hours, this one first, whose mark is there. -/
def State.budgetHitHours (s : State) : List Int :=
  ((List.range 24).map fun offset : Nat => s.now / 3600 - (offset : Int)).filter fun hour =>
    (s.hits hour).any (s.now < ·)

inductive Action
  | clock (seconds : Nat)
  | call (redis : Redis)
  | finish (i : Nat) (redis : Redis)
  | crash (i : Nat)
deriving DecidableEq

def step (service : Service) (s : State) : Action → Option State
  | .clock seconds => some { s with now := s.now + seconds }
  | .call redis => some (s.call service redis)
  | .finish i redis =>
      s.calls[i]?.map fun call => { s with calls := s.calls.eraseIdx i }.finish service call redis
  | .crash i => if i < s.calls.length then some { s with calls := s.calls.eraseIdx i } else none

def system (service : Service) : System State Action where
  start s := ∃ now, s = { now := now }
  step := step service

/-- Neither Redis nor a worker fails. -/
def Healthy (_ : State) : Action → Prop
  | .clock _ => True
  | .call redis => redis = .answers
  | .finish _ redis => redis = .answers
  | .crash _ => False

instance decidableHealthy (s : State) : ∀ a, Decidable (Healthy s a)
  | .clock _ => inferInstanceAs (Decidable True)
  | .call redis => inferInstanceAs (Decidable (redis = .answers))
  | .finish _ redis => inferInstanceAs (Decidable (redis = .answers))
  | .crash _ => inferInstanceAs (Decidable False)

/-! ### What every run keeps -/

/-- The counter of an hour stays for two days. -/
def windowEnds (hour : Int) : Int :=
  hour * 3600 + keyTtlSec

structure Inv (service : Service) (s : State) : Prop where
  kept : Window.Kept windowEnds (fun _ => limit service) s.granted s.counters
  drawn : Window.Drawn s.draws s.counters
  first : ∀ call ∈ s.calls, call.command = .expire → call.count = 1
  passed : ∀ call ∈ s.calls, call.command = .hit → limit service < s.draws call.hour
  begun : ∀ call ∈ s.calls, call.hour * 3600 ≤ s.now
  marked : ∀ hour, (hour, false) ∈ s.answered →
    hour * 3600 ≤ s.now ∧ ∃ t, s.hits hour = some t ∧ windowEnds hour ≤ t
  spent : ∀ hour t, s.hits hour = some t → limit service < s.draws hour

section Inv
variable {service : Service} {s s' : State} {call : Call}

theorem limit_pos (service : Service) : 0 < limit service := by
  rw [limit]
  omega

theorem now_lt_windowEnds (now : Int) : now < windowEnds (now / 3600) := by
  rw [windowEnds, keyTtlSec]
  omega

theorem draws_le_incr (s : State) (hour h : Int) : s.draws h ≤ (s.incr service hour).draws h := by
  rw [State.incr]
  by_cases hh : h = hour
  · subst hh
    simp
  · simp [Function.update_of_ne hh]

theorem Inv.incr (h : Inv service s) : Inv service (s.incr service (s.now / 3600)) where
  kept := by
    rw [State.incr]
    dsimp only
    split
    next hcount => exact h.kept.grant (now_lt_windowEnds _) hcount
    · exact h.kept.incr (now_lt_windowEnds _)
  drawn := h.drawn.incr _ _
  first := h.first
  passed call hcall hhit := Nat.lt_of_lt_of_le (h.passed call hcall hhit) (draws_le_incr _ _ _)
  begun := h.begun
  marked := h.marked
  spent hour t ht := Nat.lt_of_lt_of_le (h.spent hour t ht) (draws_le_incr _ _ _)

theorem Inv.place (h : Inv service s) (hfirst : call.command = .expire → call.count = 1)
    (hover : call.command = .hit → limit service < s.draws call.hour)
    (hbegun : call.hour * 3600 ≤ s.now) : Inv service { s with calls := call :: s.calls } where
  kept := h.kept
  drawn := h.drawn
  first := List.forall_mem_cons.mpr ⟨hfirst, h.first⟩
  passed := List.forall_mem_cons.mpr ⟨hover, h.passed⟩
  begun := List.forall_mem_cons.mpr ⟨hbegun, h.begun⟩
  marked := h.marked
  spent := h.spent

theorem Inv.drop (h : Inv service s) (i : Nat) :
    Inv service { s with calls := s.calls.eraseIdx i } where
  kept := h.kept
  drawn := h.drawn
  first call hcall := h.first call ((List.eraseIdx_sublist _ _).subset hcall)
  passed call hcall := h.passed call ((List.eraseIdx_sublist _ _).subset hcall)
  begun call hcall := h.begun call ((List.eraseIdx_sublist _ _).subset hcall)
  marked := h.marked
  spent := h.spent

theorem Inv.answerSlot (h : Inv service s) (hour : Int) : Inv service (s.answer hour true) where
  kept := h.kept
  drawn := h.drawn
  first := h.first
  passed := h.passed
  begun := h.begun
  marked hour' hin := h.marked hour' (by simpa [State.answer] using hin)
  spent := h.spent

theorem Inv.unavailable (h : Inv service s) (hour : Int) :
    Inv service (s.unavailable service hour) := by
  rw [State.unavailable]
  split
  · exact h
  · exact h.answerSlot hour

theorem Inv.decide (h : Inv service s) (hover : call.count ≤ s.draws call.hour)
    (hbegun : call.hour * 3600 ≤ s.now) : Inv service (s.decide service call) := by
  rw [State.decide]
  split
  · exact h.answerSlot _
  next hcount =>
    exact h.place (fun hexpire => by cases hexpire)
      (fun _ => Nat.lt_of_lt_of_le (Nat.lt_of_not_le hcount) hover) hbegun

theorem Inv.expire (h : Inv service s) (hour t : Int) (ht : windowEnds hour ≤ t) :
    Inv service { s with counters := Window.expire s.counters hour t } :=
  { h with kept := h.kept.expire ht, drawn := h.drawn.expire _ _ }

/-- The mark of a spent hour outlasts it. -/
theorem Inv.mark (h : Inv service s) {hour t : Int} (ht : windowEnds hour ≤ t)
    (hover : limit service < s.draws hour) :
    Inv service { s with hits := Function.update s.hits hour (some t) } := by
  refine { h with marked := fun other hin => ?_, spent := fun other t' ht' => ?_ }
  · obtain ⟨hnow, t', ht', hle⟩ := h.marked other hin
    refine ⟨hnow, ?_⟩
    by_cases hother : other = hour
    · subst hother
      exact ⟨t, Function.update_self .., ht⟩
    · exact ⟨t', (Function.update_of_ne hother ..).trans ht', hle⟩
  · by_cases hother : other = hour
    · exact hother ▸ hover
    · exact h.spent other t' ((Function.update_of_ne hother ..).symm.trans ht')

theorem Inv.answerSpent (h : Inv service s) {hour t : Int} (hnow : hour * 3600 ≤ s.now)
    (ht : s.hits hour = some t) (hends : windowEnds hour ≤ t) :
    Inv service (s.answer hour false) where
  kept := h.kept
  drawn := h.drawn
  first := h.first
  passed := h.passed
  begun := h.begun
  marked other hin := by
    rcases List.mem_cons.mp hin with heq | hold
    · obtain ⟨rfl, -⟩ := Prod.mk.inj heq
      exact ⟨hnow, t, ht, hends⟩
    · exact h.marked other hold
  spent := h.spent

theorem Inv.taking (h : Inv service s) (redis : Redis) : Inv service (s.call service redis) := by
  have hbegun : s.now / 3600 * 3600 ≤ s.now := by omega
  cases redis with
  | answers =>
      have hcount : Window.count s.counters s.now (s.now / 3600) + 1 ≤
          (s.incr service (s.now / 3600)).draws (s.now / 3600) := by
        rw [State.incr]
        dsimp only
        rw [Function.update_self]
        exact Nat.succ_le_succ (h.drawn.count_le _ _)
      rw [State.call]
      dsimp only
      split
      next hfirst => exact h.incr.place (fun _ => hfirst) (fun hhit => by cases hhit) hbegun
      · exact h.incr.decide hcount hbegun
  | lost => exact h.incr.unavailable _
  | fails => exact h.unavailable _

theorem Inv.finish (h : Inv service s) (hfirst : call.command = .expire → call.count = 1)
    (hover : call.command = .hit → limit service < s.draws call.hour)
    (hbegun : call.hour * 3600 ≤ s.now) (redis : Redis) :
    Inv service (s.finish service call redis) := by
  have hends : windowEnds call.hour ≤ s.now + keyTtlSec := Int.add_le_add_right hbegun _
  cases redis with
  | fails => exact h.unavailable _
  | lost =>
      rw [State.finish, State.perform]
      cases hcommand : call.command with
      | expire => exact (h.expire _ _ hends).unavailable _
      | hit => exact (h.mark hends (hover hcommand)).unavailable _
  | answers =>
      rw [State.finish, State.perform]
      cases hcommand : call.command with
      | expire =>
          have hslot : call.count ≤ limit service :=
            (hfirst hcommand).trans_le (limit_pos service)
          dsimp only
          rw [State.decide, if_pos hslot]
          exact (h.expire _ _ hends).answerSlot _
      | hit =>
          exact (h.mark hends (hover hcommand)).answerSpent hbegun (Function.update_self ..) hends

theorem Inv.step (h : Inv service s) {a : Action} (hstep : step service s a = some s') :
    Inv service s' := by
  cases a with
  | clock seconds =>
      cases hstep
      have hlater : s.now ≤ s.now + seconds := by omega
      exact {
        h with
        begun := fun call hcall => Int.le_trans (h.begun call hcall) hlater
        marked := fun hour hin =>
          ⟨Int.le_trans (h.marked hour hin).1 hlater, (h.marked hour hin).2⟩ }
  | call redis =>
      cases hstep
      exact h.taking redis
  | finish i redis =>
      obtain ⟨call, hcall, rfl⟩ := Option.map_eq_some_iff.mp hstep
      have hmem := List.mem_of_getElem? hcall
      exact (h.drop i).finish (h.first call hmem) (h.passed call hmem) (h.begun call hmem) redis
  | crash i =>
      simp only [CreationBudget.step, Option.ite_none_right_eq_some, Option.some_inj] at hstep
      obtain ⟨-, rfl⟩ := hstep
      exact h.drop i

theorem inv_of_reachable (ok : State → Action → Prop) (h : ReachableWhen (system service) ok s) :
    Inv service s := by
  refine ReachableWhen.invariant (fun s hs => ?_) (fun s a s' hs _ hstep => hs.step hstep) h
  obtain ⟨now, rfl⟩ := hs
  exact {
    kept := .initial
    drawn := fun _ _ hc => by cases hc
    first := fun _ hcall => absurd hcall List.not_mem_nil
    passed := fun _ hcall => absurd hcall List.not_mem_nil
    begun := fun _ hcall => absurd hcall List.not_mem_nil
    marked := fun _ hin => absurd hin List.not_mem_nil
    spent := fun _ _ ht => by cases ht }

end Inv

/-! ### Every call has one answer -/

/-- The slot that the call will answer with, if nothing fails. -/
def Command.slot : Command → Bool
  | .expire => true
  | .hit => false

/-- The calls of an hour that answered so, or will. -/
def taken (s : State) (slot : Bool) (hour : Int) : Nat :=
  s.answered.countP (fun answer => answer = (hour, slot)) +
    s.calls.countP fun call => (call.hour, call.command.slot) = (hour, slot)

section Taken
variable {service : Service} {s s' : State} {call : Call} {slot : Bool} {hour : Int}

theorem taken_answer (h : Int) (b : Bool) : taken (s.answer h b) slot hour =
    taken s slot hour + if (h, b) = (hour, slot) then 1 else 0 := by
  rw [taken, State.answer, List.countP_cons, taken]
  simp only [decide_eq_true_eq]
  omega

theorem taken_place : taken { s with calls := call :: s.calls } slot hour =
    taken s slot hour + if (call.hour, call.command.slot) = (hour, slot) then 1 else 0 := by
  rw [taken, List.countP_cons, taken]
  simp only [decide_eq_true_eq]
  omega

theorem taken_erase (slot : Bool) (hour : Int) {i : Nat} (hcall : s.calls[i]? = some call) :
    taken s slot hour =
    taken { s with calls := s.calls.eraseIdx i } slot hour +
      if (call.hour, call.command.slot) = (hour, slot) then 1 else 0 := by
  obtain ⟨hi, rfl⟩ := List.getElem?_eq_some_iff.mp hcall
  have hperm := (List.getElem_cons_eraseIdx_perm hi).countP_eq fun call : Call =>
    decide ((call.hour, call.command.slot) = (hour, slot))
  rw [List.countP_cons] at hperm
  simp only [decide_eq_true_eq] at hperm
  rw [taken, taken]
  dsimp only
  omega

theorem taken_decide : taken (s.decide service call) slot hour = taken s slot hour +
    if (call.hour, decide (call.count ≤ limit service)) = (hour, slot) then 1 else 0 := by
  rw [State.decide]
  split
  next hcount => rw [taken_answer, decide_eq_true hcount]
  next hcount =>
    rw [taken_place, decide_eq_false hcount]
    rfl

theorem taken_call : taken (s.call service .answers) slot hour = taken s slot hour +
    if (s.now / 3600, decide (Window.count s.counters s.now (s.now / 3600) < limit service)) =
      (hour, slot) then 1 else 0 := by
  rw [State.call]
  dsimp only
  split
  next hfirst =>
    have hlimit : Window.count s.counters s.now (s.now / 3600) < limit service := by
      have hpos := limit_pos service
      omega
    rw [decide_eq_true hlimit]
    exact taken_place (s := s.incr service (s.now / 3600))
  · rw [taken_decide]
    rfl

theorem taken_finish {i : Nat} (hinv : Inv service s) (hcall : s.calls[i]? = some call) :
    taken ({ s with calls := s.calls.eraseIdx i }.finish service call .answers) slot hour =
      taken s slot hour := by
  rw [taken_erase slot hour hcall, State.finish, State.perform]
  cases hcommand : call.command with
  | expire =>
      have hslot : call.count ≤ limit service :=
        (hinv.first call (List.mem_of_getElem? hcall) hcommand).trans_le (limit_pos service)
      dsimp only
      rw [taken_decide, decide_eq_true hslot]
      rfl
  | hit =>
      dsimp only
      rw [taken_answer]
      rfl

theorem taken_perform : taken (s.perform call) slot hour = taken s slot hour := by
  rw [State.perform]
  cases call.command with
  | expire | hit => rfl

theorem unavailable_eq (hproduction : service.productionLike = true) (h : Int) :
    s.unavailable service h = s :=
  if_pos hproduction

theorem granted_incr (s : State) (h : Int) : (s.incr service h).granted hour = s.granted hour +
    if h = hour ∧ Window.count s.counters s.now h < limit service then 1 else 0 := by
  rw [State.incr]
  dsimp only
  by_cases hcount : Window.count s.counters s.now h < limit service
  · rw [if_pos hcount]
    by_cases hhour : hour = h
    · subst hhour
      simp [hcount]
    · simp [Function.update_of_ne hhour, Ne.symm hhour]
  · simp [hcount]

theorem draws_incr (s : State) (h : Int) : (s.incr service h).draws hour = s.draws hour +
    if h = hour then 1 else 0 := by
  rw [State.incr]
  dsimp only
  by_cases hhour : hour = h
  · subst hhour
    simp
  · simp [Function.update_of_ne hhour, Ne.symm hhour]

theorem decide_counts : (s.decide service call).granted = s.granted ∧
    (s.decide service call).draws = s.draws ∧ (s.decide service call).counters = s.counters := by
  rw [State.decide]
  split
  · exact ⟨rfl, rfl, rfl⟩
  · exact ⟨rfl, rfl, rfl⟩

theorem call_counts : (s.call service .answers).granted = (s.incr service (s.now / 3600)).granted ∧
    (s.call service .answers).draws = (s.incr service (s.now / 3600)).draws ∧
    (s.call service .answers).counters = (s.incr service (s.now / 3600)).counters := by
  rw [State.call]
  dsimp only
  split
  · exact ⟨rfl, rfl, rfl⟩
  · exact decide_counts

/-! ### Slots -/

/-- No hour has more slots, answered or to be answered, than were granted. -/
def Fair (s : State) : Prop :=
  ∀ hour, taken s true hour ≤ s.granted hour

theorem Fair.taking (hproduction : service.productionLike = true) (h : Fair s) (redis : Redis) :
    Fair (s.call service redis) := by
  intro hour
  have hfair := h hour
  cases redis with
  | answers =>
      rw [taken_call, call_counts.1, granted_incr]
      simp only [Prod.mk.injEq, decide_eq_true_eq]
      exact Nat.add_le_add_right hfair _
  | lost =>
      rw [State.call, unavailable_eq hproduction, granted_incr]
      exact Nat.le_trans hfair (Nat.le_add_right _ _)
  | fails =>
      rw [State.call, unavailable_eq hproduction]
      exact hfair

theorem perform_counts : (s.perform call).granted = s.granted ∧
    (s.perform call).draws = s.draws := by
  rw [State.perform]
  cases call.command with
  | expire | hit => exact ⟨rfl, rfl⟩

theorem finish_counts : (s.finish service call .answers).granted = s.granted ∧
    (s.finish service call .answers).draws = s.draws := by
  rw [State.finish]
  cases call.command with
  | expire =>
      exact ⟨decide_counts.1.trans perform_counts.1, decide_counts.2.1.trans perform_counts.2⟩
  | hit => exact perform_counts

theorem Fair.finish (hproduction : service.productionLike = true) (hinv : Inv service s)
    (h : Fair s) {i : Nat} (hcall : s.calls[i]? = some call) (redis : Redis) :
    Fair ({ s with calls := s.calls.eraseIdx i }.finish service call redis) := by
  intro hour
  have hfair := h hour
  have hdrop := taken_erase true hour hcall
  cases redis with
  | answers =>
      rw [finish_counts.1, taken_finish hinv hcall]
      exact hfair
  | lost =>
      rw [State.finish, unavailable_eq hproduction, taken_perform, perform_counts.1]
      dsimp only at hdrop ⊢
      omega
  | fails =>
      rw [State.finish, unavailable_eq hproduction]
      dsimp only at hdrop ⊢
      omega

theorem fair_of_reachable (hproduction : service.productionLike = true)
    (h : Reachable (system service) s) : Inv service s ∧ Fair s := by
  refine ReachableWhen.invariant (P := fun s => Inv service s ∧ Fair s) (fun s hs => ?_)
    (fun s a s' hs _ hstep => ?_) h
  · exact ⟨inv_of_reachable (fun _ _ => True) (.start hs), by
      obtain ⟨now, rfl⟩ := hs
      exact fun _ => Nat.le_refl 0⟩
  · refine ⟨hs.1.step hstep, ?_⟩
    cases a with
    | clock seconds =>
        cases hstep
        exact hs.2
    | call redis =>
        cases hstep
        exact hs.2.taking hproduction redis
    | finish i redis =>
        obtain ⟨call, hcall, rfl⟩ := Option.map_eq_some_iff.mp hstep
        exact hs.2.finish hproduction hs.1 hcall redis
    | crash i =>
        simp only [system, step, Option.ite_none_right_eq_some, Option.some_inj] at hstep
        obtain ⟨hi, rfl⟩ := hstep
        intro hour
        have hdrop := taken_erase true hour (List.getElem?_eq_getElem hi)
        have hfair := hs.2 hour
        dsimp only at hdrop ⊢
        omega

theorem slots_le_taken : s.answered.countP (· = (hour, slot)) ≤ taken s slot hour :=
  Nat.le_add_right _ _

/-- In production no hour gives more slots than its limit, however the calls of the workers
interleave and wherever Redis or a worker fails. For the rest of the day the status shows each
hour in which a team was turned away, and no hour whose limit was not passed. -/
theorem slots_within_limit (hproduction : service.productionLike = true)
    (h : Reachable (system service) s) :
    (∀ hour, s.answered.countP (· = (hour, true)) ≤ limit service) ∧
      (∀ hour, (hour, false) ∈ s.answered → s.now / 3600 - 23 ≤ hour →
        hour ∈ s.budgetHitHours) ∧
      ∀ hour ∈ s.budgetHitHours, limit service < s.draws hour := by
  obtain ⟨hinv, hfair⟩ := fair_of_reachable hproduction h
  refine ⟨fun hour => ?_, fun hour hin hday => ?_, fun hour hin => ?_⟩
  · exact Nat.le_trans slots_le_taken (Nat.le_trans (hfair hour) (hinv.kept.bounded hour))
  · obtain ⟨hnow, t, ht, hends⟩ := hinv.marked hour hin
    rw [windowEnds, keyTtlSec] at hends
    refine List.mem_filter.mpr ⟨List.mem_map.mpr ⟨(s.now / 3600 - hour).toNat, ?_, ?_⟩, ?_⟩
    · rw [List.mem_range]
      omega
    · omega
    · rw [ht, Option.any_some]
      exact decide_eq_true (by omega)
  · obtain ⟨-, hmark⟩ := List.mem_filter.mp hin
    cases ht : s.hits hour with
    | none =>
        rw [ht] at hmark
        cases hmark
    | some t => exact hinv.spent hour t ht

/-! ### While nothing fails -/

/-- Every call that was counted has its answer or will have it, and the first ones the slots. -/
structure Even (service : Service) (s : State) : Prop where
  exact : Window.Exact (fun _ => limit service) s.granted s.draws s.counters
  slots : ∀ hour, taken s true hour = s.granted hour
  each : ∀ hour, taken s true hour + taken s false hour = s.draws hour

theorem Even.taking (hinv : Inv service s) (h : Even service s) :
    Even service (s.call service .answers) := by
  refine ⟨?_, fun hour => ?_, fun hour => ?_⟩
  · rw [call_counts.1, call_counts.2.1, call_counts.2.2, State.incr]
    dsimp only
    split
    next hcount => exact h.exact.grant hinv.kept (now_lt_windowEnds _) hcount
    next hcount => exact h.exact.incr hinv.kept (now_lt_windowEnds _) (Nat.le_of_not_lt hcount)
  · rw [taken_call, call_counts.1, granted_incr, h.slots]
    simp only [Prod.mk.injEq, decide_eq_true_eq]
  · have heach := h.each hour
    rw [taken_call, taken_call, call_counts.2.1, draws_incr]
    by_cases hhour : s.now / 3600 = hour
    · by_cases hcount : Window.count s.counters s.now (s.now / 3600) < limit service
      · simp only [hhour, Prod.mk.injEq, true_and, decide_eq_true_eq, if_true] at hcount ⊢
        simp [hcount]
        omega
      · simp only [hhour, Prod.mk.injEq, true_and, decide_eq_true_eq, if_true] at hcount ⊢
        simp [hcount]
        omega
    · simp [hhour]
      omega

theorem Even.finish (hinv : Inv service s) (h : Even service s) {i : Nat}
    (hcall : s.calls[i]? = some call) :
    Even service ({ s with calls := s.calls.eraseIdx i }.finish service call .answers) := by
  refine ⟨?_, fun hour => ?_, fun hour => ?_⟩
  · rw [finish_counts.1, finish_counts.2, State.finish, State.perform]
    cases call.command with
    | expire =>
        dsimp only
        rw [decide_counts.2.2]
        exact h.exact.expire _
    | hit => exact h.exact
  · rw [taken_finish hinv hcall, finish_counts.1]
    exact h.slots hour
  · rw [taken_finish hinv hcall, taken_finish hinv hcall, finish_counts.2]
    exact h.each hour

theorem even_of_reachable (h : ReachableWhen (system service) Healthy s) :
    Inv service s ∧ Even service s := by
  refine ReachableWhen.invariant (P := fun s => Inv service s ∧ Even service s) (fun s hs => ?_)
    (fun s a s' hs hok hstep => ?_) h
  · refine ⟨inv_of_reachable Healthy (.start hs), ?_⟩
    obtain ⟨now, rfl⟩ := hs
    exact ⟨.initial, fun _ => rfl, fun _ => rfl⟩
  · refine ⟨hs.1.step hstep, ?_⟩
    cases a with
    | clock seconds =>
        cases hstep
        exact ⟨hs.2.exact, hs.2.slots, hs.2.each⟩
    | call redis =>
        cases hok
        cases hstep
        exact hs.2.taking hs.1
    | finish i redis =>
        cases hok
        obtain ⟨call, hcall, rfl⟩ := Option.map_eq_some_iff.mp hstep
        exact hs.2.finish hs.1 hcall
    | crash i => cases hok

end Taken

/-! ### Two workers -/

def oneAnHour : Service := ⟨true, 1⟩

theorem slots_within_limit_oneAnHour : ∃ s, (system oneAnHour).run { now := 1790000000 }
      [.call .answers, .call .answers, .finish 0 .lost, .call .lost, .call .answers,
        .finish 0 .answers, .finish 0 .answers] = some s ∧
    (∀ hour, s.answered.countP (· = (hour, true)) ≤ limit oneAnHour) ∧
      (∀ hour, (hour, false) ∈ s.answered → s.now / 3600 - 23 ≤ hour →
        hour ∈ s.budgetHitHours) ∧
      ∀ hour ∈ s.budgetHitHours, limit oneAnHour < s.draws hour := by
  have hruns : ((system oneAnHour).run { now := 1790000000 }
      [.call .answers, .call .answers, .finish 0 .lost, .call .lost, .call .answers,
        .finish 0 .answers, .finish 0 .answers]).isSome = true := by decide +kernel
  obtain ⟨s, hrun⟩ := Option.isSome_iff_exists.mp hruns
  exact ⟨s, hrun, slots_within_limit rfl (reachable_of_run _ ⟨_, rfl⟩ hrun)⟩

end Frcmob.CreationBudget
