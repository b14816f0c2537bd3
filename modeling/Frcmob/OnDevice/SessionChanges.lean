import Frcmob.Lib.Transition

/-!
`coalesceRefresh` of `features/onDevice/sessionChanges.ts`: a refresh that is asked for runs once
the timer fires, or once more after the one that is in flight.
-/

namespace Frcmob.OnDevice.SessionChanges

open Transition

/-- The variables, the timers of the window that have not fired, the refreshes that have not
settled, and the schedule calls that no refresh has followed and no cancel has undone. -/
structure Coalescer where
  timer : Option Nat := none
  inFlight : Option Nat := none
  pending : Bool := false
  disposed : Bool := false
  armed : List Nat := []
  timeouts : Nat := 0
  running : List Nat := []
  started : Nat := 0
  unserved : Nat := 0
deriving DecidableEq

def Coalescer.clearTimeout (c : Coalescer) : Coalescer :=
  { c with armed := c.armed.filter fun handle => c.timer ≠ some handle }

/-- The refresh of the promise that is awaited begins before any other task. -/
def Coalescer.flush (c : Coalescer) : Coalescer :=
  if c.disposed then c
  else
    let c := { c.clearTimeout with timer := none }
    if c.inFlight.isSome then { c with pending := true }
    else
      { c with
        pending := false
        inFlight := some c.started
        running := c.started :: c.running
        started := c.started + 1
        unserved := 0 }

def Coalescer.schedule (c : Coalescer) : Coalescer :=
  if c.disposed then c
  else
    let c := { c with pending := true }
    if c.inFlight.isSome || c.timer.isSome then c
    else
      { c with
        timer := some c.timeouts
        armed := c.timeouts :: c.armed
        timeouts := c.timeouts + 1 }

/-- A call from outside, which waits unless it is made after the cancel. -/
def Coalescer.scheduleCall (c : Coalescer) : Coalescer :=
  { c.schedule with unserved := if c.disposed then c.unserved else c.unserved + 1 }

/-- The `finally` of the flush that awaits the refresh, which has succeeded or failed. -/
def Coalescer.settle (c : Coalescer) (refresh : Nat) : Coalescer :=
  let c := { c with inFlight := none, running := c.running.erase refresh }
  if c.pending then c.schedule else c

def Coalescer.cancel (c : Coalescer) : Coalescer :=
  { c.clearTimeout with disposed := true, unserved := 0 }

inductive Action
  | schedule
  | flush
  | timerFires (handle : Nat)
  | refreshEnds (refresh : Nat) (succeeds : Bool)
  | cancel
deriving DecidableEq

def coalesceRefresh : System Coalescer Action where
  start c := c = {}
  step c
    | .schedule => some c.scheduleCall
    | .flush => some c.flush
    | .timerFires handle =>
        if handle ∈ c.armed then some { c with armed := c.armed.erase handle }.flush else none
    | .refreshEnds refresh _ => if refresh ∈ c.running then some (c.settle refresh) else none
    | .cancel => some c.cancel

variable {c : Coalescer}

theorem flush_of_disposed (h : c.disposed = true) : c.flush = c :=
  if_pos h

theorem flush_of_inFlight (h : c.disposed = false) (hflight : c.inFlight.isSome) :
    c.flush = { c.clearTimeout with timer := none, pending := true } := by
  simp [Coalescer.flush, Coalescer.clearTimeout, h, hflight]

theorem flush_of_idle (h : c.disposed = false) (hflight : c.inFlight = none) :
    c.flush = { c.clearTimeout with
      timer := none
      pending := false
      inFlight := some c.started
      running := c.started :: c.running
      started := c.started + 1
      unserved := 0 } := by
  simp [Coalescer.flush, Coalescer.clearTimeout, h, hflight]

theorem schedule_of_disposed (h : c.disposed = true) : c.schedule = c :=
  if_pos h

theorem schedule_of_waiting (h : c.disposed = false)
    (hwaits : c.inFlight.isSome || c.timer.isSome) : c.schedule = { c with pending := true } := by
  simp only [Coalescer.schedule, h, hwaits, if_true]
  rfl

theorem schedule_of_idle (h : c.disposed = false)
    (hidle : (c.inFlight.isSome || c.timer.isSome) = false) : c.schedule = { c with
      pending := true
      timer := some c.timeouts
      armed := c.timeouts :: c.armed
      timeouts := c.timeouts + 1 } := by
  simp only [Coalescer.schedule, h, hidle]
  rfl

/-! ### What holds in every state -/

/-- The variables say what there is, and a pending refresh has something to wait for. -/
structure Coherent (c : Coalescer) : Prop where
  running : c.running = c.inFlight.toList
  armed : c.armed = if c.disposed then [] else c.timer.toList
  apart : c.inFlight.isSome → c.disposed = false → c.timer = none
  pending : c.pending → c.disposed = false → c.timer.isSome ∨ c.inFlight.isSome
  unserved : 0 < c.unserved → c.disposed = false ∧ c.pending

theorem Coherent.handle (h : Coherent c) {handle : Nat} (hmem : handle ∈ c.armed) :
    c.disposed = false ∧ c.timer = some handle := by
  rw [h.armed] at hmem
  cases hdisposed : c.disposed with
  | true => simp [hdisposed] at hmem
  | false => simpa [hdisposed] using hmem

theorem Coherent.clearTimeout (h : Coherent c) : c.clearTimeout.armed = [] := by
  refine List.filter_eq_nil_iff.mpr fun handle hmem => ?_
  simp [(h.handle hmem).2]

/-- Also when the timer it clears has just fired. -/
theorem coherent_flush (hover : c.disposed = true → Coherent c)
    (hrunning : c.running = c.inFlight.toList) (harmed : c.clearTimeout.armed = []) :
    Coherent c.flush := by
  cases hdisposed : c.disposed with
  | true =>
      rw [flush_of_disposed hdisposed]
      exact hover hdisposed
  | false =>
      cases hflight : c.inFlight with
      | some refresh =>
          have hsome : c.inFlight.isSome := by rw [hflight]; rfl
          rw [flush_of_inFlight hdisposed hsome]
          constructor
          · exact hrunning
          · exact harmed.trans (by simp)
          · exact fun _ _ => rfl
          · exact fun _ _ => .inr hsome
          · exact fun _ => ⟨hdisposed, rfl⟩
      | none =>
          rw [flush_of_idle hdisposed hflight]
          constructor
          · exact congrArg (c.started :: ·) (hrunning.trans (by rw [hflight]; rfl))
          · exact harmed.trans (by simp)
          · exact fun _ _ => rfl
          · exact fun _ _ => .inr rfl
          · exact fun hunserved => absurd hunserved (Nat.lt_irrefl 0)

/-- What is pending afterwards has something to wait for, whatever it had before. -/
theorem coherent_schedule (hdisposed : c.disposed = false)
    (hrunning : c.running = c.inFlight.toList) (harmed : c.armed = c.timer.toList)
    (hapart : c.inFlight.isSome → c.timer = none) : Coherent c.schedule := by
  cases hidle : c.inFlight.isSome || c.timer.isSome with
  | true =>
      rw [schedule_of_waiting hdisposed hidle]
      constructor
      · exact hrunning
      · simpa [hdisposed] using harmed
      · exact fun hflight _ => hapart hflight
      · exact fun _ _ => (Bool.or_eq_true_iff.mp hidle).symm
      · exact fun _ => ⟨hdisposed, rfl⟩
  | false =>
      obtain ⟨hflight, htimer⟩ := Bool.or_eq_false_iff.mp hidle
      have hnone : c.timer = none := by simpa using htimer
      rw [schedule_of_idle hdisposed hidle]
      constructor
      · exact hrunning
      · simp [hdisposed, harmed, hnone]
      · exact fun hsome _ => by simp [hflight] at hsome
      · exact fun _ _ => .inl rfl
      · exact fun _ => ⟨hdisposed, rfl⟩

theorem scheduleCall_of_live (h : c.disposed = false) :
    c.scheduleCall = { c with unserved := c.unserved + 1 }.schedule := by
  rw [Coalescer.scheduleCall]
  cases hidle : c.inFlight.isSome || c.timer.isSome with
  | true =>
      have hother := schedule_of_waiting (c := { c with unserved := c.unserved + 1 }) h hidle
      rw [schedule_of_waiting h hidle, hother]
      simp [h]
  | false =>
      have hother := schedule_of_idle (c := { c with unserved := c.unserved + 1 }) h hidle
      rw [schedule_of_idle h hidle, hother]
      simp [h]

theorem Coherent.scheduleCall (h : Coherent c) : Coherent c.scheduleCall := by
  cases hdisposed : c.disposed with
  | true =>
      rw [Coalescer.scheduleCall, schedule_of_disposed hdisposed, if_pos hdisposed]
      exact h
  | false =>
      rw [scheduleCall_of_live hdisposed]
      refine coherent_schedule hdisposed h.running ?_ fun hflight => h.apart hflight hdisposed
      simpa [hdisposed] using h.armed

theorem Coherent.settle (h : Coherent c) {refresh : Nat} (hmem : refresh ∈ c.running) :
    Coherent (c.settle refresh) := by
  have hnone : c.running.erase refresh = [] := by
    rw [h.running] at hmem ⊢
    rw [Option.mem_toList.mp hmem]
    simp
  have hsettled : ∀ hquiet : c.pending = true → c.disposed = true,
      Coherent { c with inFlight := none, running := c.running.erase refresh } := by
    intro hquiet
    constructor
    · exact hnone
    · exact h.armed
    · exact fun hflight => by cases hflight
    · exact fun hpending hlive => by simp [hquiet hpending] at hlive
    · exact h.unserved
  unfold Coalescer.settle
  simp only
  split
  · rename_i hpending
    rcases Bool.eq_false_or_eq_true c.disposed with hdisposed | hdisposed
    · have hsame := schedule_of_disposed
        (c := { c with inFlight := none, running := c.running.erase refresh }) hdisposed
      rw [hsame]
      exact hsettled fun _ => hdisposed
    · refine coherent_schedule hdisposed hnone ?_ fun hflight => by cases hflight
      simpa [hdisposed] using h.armed
  · rename_i hpending
    exact hsettled fun h => absurd h hpending

theorem Coherent.cancel (h : Coherent c) : Coherent c.cancel := by
  constructor
  · exact h.running
  · exact h.clearTimeout
  · exact fun _ hlive => by cases hlive
  · exact fun _ hlive => by cases hlive
  · exact fun hunserved => absurd hunserved (Nat.lt_irrefl 0)

theorem coherent (h : Reachable coalesceRefresh c) : Coherent c := by
  refine h.invariant ?_ ?_
  · rintro c rfl
    constructor
    · rfl
    · rfl
    · exact fun hflight => by cases hflight
    · exact fun hpending => by cases hpending
    · exact fun hunserved => absurd hunserved (Nat.lt_irrefl 0)
  · intro c a d hc _ hstep
    cases a with
    | schedule =>
        cases hstep
        exact hc.scheduleCall
    | flush =>
        cases hstep
        exact coherent_flush (fun _ => hc) hc.running hc.clearTimeout
    | timerFires handle =>
        obtain ⟨hmem, hd⟩ := Option.ite_none_right_eq_some.mp hstep
        cases hd
        refine coherent_flush (fun hover => ?_) hc.running ?_
        · exact absurd hover (by simp [(hc.handle hmem).1])
        · refine List.filter_eq_nil_iff.mpr fun k hk => ?_
          simp [(hc.handle (List.mem_of_mem_erase hk)).2]
    | refreshEnds refresh succeeds =>
        obtain ⟨hmem, hd⟩ := Option.ite_none_right_eq_some.mp hstep
        cases hd
        exact hc.settle hmem
    | cancel =>
        cases hstep
        exact hc.cancel

theorem scheduled_served (h : Reachable coalesceRefresh c) :
    (0 < c.unserved → (∃ handle, c.timer = some handle ∧ handle ∈ c.armed) ∨
      (∃ refresh, c.inFlight = some refresh ∧ refresh ∈ c.running) ∧ c.pending = true) ∧
    c.running.length ≤ 1 := by
  have hc := coherent h
  constructor
  · intro hunserved
    obtain ⟨hlive, hpending⟩ := hc.unserved hunserved
    rcases hc.pending hpending hlive with htimer | hflight
    · obtain ⟨handle, hhandle⟩ := Option.isSome_iff_exists.mp htimer
      refine .inl ⟨handle, hhandle, ?_⟩
      rw [hc.armed, hlive, hhandle]
      exact List.mem_singleton_self handle
    · obtain ⟨refresh, hrefresh⟩ := Option.isSome_iff_exists.mp hflight
      refine .inr ⟨⟨refresh, hrefresh, ?_⟩, hpending⟩
      rw [hc.running, hrefresh]
      exact List.mem_singleton_self refresh
  · rw [hc.running]
    cases c.inFlight with
    | none => exact Nat.zero_le 1
    | some refresh => exact Nat.le_refl 1

/-- A call while the first refresh runs. -/
def scheduledTwice : Coalescer where
  inFlight := some 0
  pending := true
  timeouts := 1
  running := [0]
  started := 1
  unserved := 1

theorem scheduled_served_twice :
    (∃ handle, scheduledTwice.timer = some handle ∧ handle ∈ scheduledTwice.armed) ∨
      (∃ refresh, scheduledTwice.inFlight = some refresh ∧ refresh ∈ scheduledTwice.running) ∧
        scheduledTwice.pending = true :=
  (scheduled_served (reachable_of_run (S := coalesceRefresh) (s := {})
    [.schedule, .timerFires 0, .schedule] rfl (by decide))).1 (by decide)

end Frcmob.OnDevice.SessionChanges
