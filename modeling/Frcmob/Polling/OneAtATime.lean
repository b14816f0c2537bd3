import Frcmob.Polling.SingleFlight

/-!
One run at a time. The flag for a run in flight is the effect's own, so the next effect starts a
run beside it; requests are not lost by that, for the run that starts comes after them.
-/

namespace Frcmob.Polling
open Transition

/-- A run will follow the request: the one that is queued, the one of its refresh, or the one
that starts when the page is seen again. -/
def Hook.Waiting (h : Hook) (asked : Asked) : Prop :=
  h.mounted ∧ h.options.enabled ∧ (h.options.visible → ∃ e, h.effect = some e ∧
    (e.requestInFlightFlag = true ∧ e.pendingReason.isSome ∨ asked = .refresh ∧ 0 < e.refreshes))

/-- No request is lost; the end of the run that has one queued starts the next, and so does the
page when it polls again. -/
structure Hook.NoneLost (h : Hook) : Prop where
  waiting : ∀ asked ∈ h.unserved, h.Waiting asked
  queued : ∀ e, h.effect = some e → e.pendingReason.isSome → ∀ successful t,
    hookStep h (.complete successful) = some t →
      t.started.length = h.started.length + 1 ∧ t.unserved = []
  shown : h.options.polls = false → ∀ options t, options.polls = true →
    hookStep h (.setOptions options) = some t →
      t.started.length = h.started.length + 1 ∧ t.unserved = []

structure Hook.OneAtATime (h : Hook) : Prop where
  single : h.executing ≤ 1
  noneLost : h.NoneLost

/-- No run is executing when an effect begins to poll. -/
def Kept (h : Hook) : HookAction → Prop
  | .setOptions options =>
      options.sameEffect h.options = false → options.polls = true → h.executing = 0
  | _ => True

instance (h : Hook) : ∀ a, Decidable (Kept h a)
  | .setOptions _ => inferInstanceAs (Decidable (_ → _))
  | .triggerNow _ | .timer | .updated | .updateTimer | .refreshNow | .refreshGoesOn _
  | .complete _ | .completeOrphan | .unmount => isTrue True.intro

/-! ### Requests -/

/-- An effect is there when the options say so, queues only behind its run, and no request is
lost. -/
structure Inv (h : Hook) : Prop where
  mounted : ∀ e, h.effect = some e → h.mounted = true
  polls : ∀ e, h.effect = some e → h.options.polls = true
  effect : h.mounted = true → h.options.polls = true → h.effect.isSome
  pending : ∀ e, h.effect = some e → e.pendingReason.isSome → e.requestInFlightFlag = true
  waiting : ∀ asked ∈ h.unserved, h.Waiting asked

section Steps
variable {h : Hook} {e : Effect}

theorem polls_iff {options : Options} :
    options.polls = true ↔ options.enabled = true ∧ options.visible = true := by
  rw [Options.polls, Bool.and_eq_true]

theorem inv_idle (hnone : h.effect = none) (hpolls : h.mounted = true → h.options.polls = false)
    (hwaiting : ∀ asked ∈ h.unserved, h.Waiting asked) : Inv h := by
  have hno : ∀ e, h.effect ≠ some e := fun e he => by
    rw [hnone] at he
    cases he
  refine ⟨fun e he => absurd he (hno e), fun e he => absurd he (hno e), fun hm hp => ?_,
    fun e he => absurd he (hno e), hwaiting⟩
  rw [hpolls hm] at hp
  cases hp

theorem inv_setEffect (hmounted : h.mounted = true) (hpolls : h.options.polls = true)
    (hqueued : e.pendingReason.isSome → e.requestInFlightFlag = true)
    (hwaits : ∀ asked ∈ h.unserved, e.requestInFlightFlag = true ∧ e.pendingReason.isSome ∨
      asked = .refresh ∧ 0 < e.refreshes) : Inv (h.setEffect e) := by
  refine ⟨fun _ _ => hmounted, fun _ _ => hpolls, fun _ _ => rfl, fun other hother hsome => ?_,
    fun asked hasked => ⟨hmounted, (polls_iff.mp hpolls).1, fun _ => ⟨e, rfl, hwaits asked hasked⟩⟩⟩
  obtain rfl : e = other := Option.some_inj.mp hother
  exact hqueued hsome

/-- A run starts, or what asks for it is queued behind the run in flight. -/
theorem inv_execute (hmounted : h.mounted = true) (hpolls : h.options.polls = true)
    (hqueued : e.pendingReason.isSome → e.requestInFlightFlag = true)
    {reason : SingleFlightPollReason} (hwaits : reason = .poll → e.requestInFlightFlag = true →
      ∀ asked ∈ h.unserved, e.requestInFlightFlag = true ∧ e.pendingReason.isSome ∨
        asked = .refresh ∧ 0 < e.refreshes) : Inv (h.execute e reason) := by
  rw [Hook.execute]
  split
  · rename_i hflag
    split
    · exact inv_setEffect hmounted hpolls (fun _ => hflag) fun _ _ => .inl ⟨hflag, rfl⟩
    · rename_i hpoll
      exact inv_setEffect hmounted hpolls hqueued (hwaits (not_not.mp hpoll) hflag)
  · have hstarts := @inv_setEffect { h with unserved := [] } { e with requestInFlightFlag := true }
      hmounted hpolls (fun _ => rfl) nofun
    exact ⟨hstarts.mounted, hstarts.polls, hstarts.effect, hstarts.pending, nofun⟩

/-- What waits in a state with an effect. -/
theorem Inv.waits (hi : Inv h) (he : h.effect = some e) {asked : Asked} (hasked : asked ∈ h.unserved) :
    e.requestInFlightFlag = true ∧ e.pendingReason.isSome ∨ asked = .refresh ∧ 0 < e.refreshes := by
  obtain ⟨-, -, hwaits⟩ := hi.waiting asked hasked
  obtain ⟨old, hold, hcase⟩ := hwaits (polls_iff.mp (hi.polls e he)).2
  obtain rfl : old = e := Option.some_inj.mp (hold.symm.trans he)
  exact hcase

theorem mem_ask {asked other : Asked} (hmem : other ∈ (h.ask asked).unserved) :
    other ∈ h.unserved ∨ other = asked ∧ h.mounted = true ∧ h.options.enabled = true := by
  rw [Hook.ask] at hmem
  split at hmem
  · rename_i hcounts
    cases List.mem_cons.mp hmem with
    | inl heq => exact .inr ⟨heq, hcounts.2⟩
    | inr hold => exact .inl hold
  · exact .inl hmem

theorem ask_same (h : Hook) (asked : Asked) : (h.ask asked).mounted = h.mounted ∧
    (h.ask asked).options = h.options ∧ (h.ask asked).effect = h.effect ∧
    (h.ask asked).orphans = h.orphans := by
  rw [Hook.ask]
  split <;> exact ⟨rfl, rfl, rfl, rfl⟩

/-- A request that is made while no effect polls waits for the page to be seen again. -/
theorem Inv.askIdle (hi : Inv h) (he : h.effect = none) (asked : Asked) : Inv (h.ask asked) := by
  obtain ⟨hmounted, hoptions, heffect, -⟩ := ask_same h asked
  have hidle : h.mounted = true → h.options.polls = false := by
    intro hm
    cases hp : h.options.polls with
    | false => rfl
    | true =>
        have hsome := hi.effect hm hp
        rw [he] at hsome
        cases hsome
  refine inv_idle (heffect.trans he) (fun hm => ?_) fun other hmem => ?_
  · rw [hoptions]
    exact hidle (hmounted.symm.trans hm)
  · rw [Hook.Waiting, hmounted, hoptions, heffect]
    cases mem_ask hmem with
    | inl hold => exact hi.waiting other hold
    | inr hnew =>
        refine ⟨hnew.2.1, hnew.2.2, fun hvisible => ?_⟩
        have hpolls := hidle hnew.2.1
        rw [polls_iff.mpr ⟨hnew.2.2, hvisible⟩] at hpolls
        cases hpolls

theorem Inv.triggerNow (hi : Inv h) (reason : SingleFlightPollReason) :
    Inv (h.triggerNow reason) := by
  unfold Hook.triggerNow
  extract_lets h'
  have hsame : h'.mounted = h.mounted ∧ h'.options = h.options ∧ h'.effect = h.effect := by
    simp only [h']
    split
    · obtain ⟨hmounted, hoptions, heffect, -⟩ := ask_same h .trigger
      exact ⟨hmounted, hoptions, heffect⟩
    · exact ⟨rfl, rfl, rfl⟩
  obtain ⟨hmounted, hoptions, heffect⟩ := hsame
  rw [heffect]
  cases he : h.effect with
  | none =>
      simp only [h']
      split
      · exact hi.askIdle he .trigger
      · exact hi
  | some e =>
      have hqueued : e.clearTimer.pendingReason.isSome → e.clearTimer.requestInFlightFlag = true :=
        hi.pending e he
      dsimp only
      refine inv_execute (hmounted.trans (hi.mounted e he)) ?_ hqueued fun hpoll _ asked hasked => ?_
      · rw [hoptions]
        exact hi.polls e he
      · -- a poll is no request
        have hunasked : h'.unserved = h.unserved := by simp [h', hpoll]
        rw [hunasked] at hasked
        exact hi.waits he hasked

theorem Inv.refreshNow (hi : Inv h) (he : h.effect = some e) : Inv (h.refreshNow e) := by
  obtain ⟨hmounted, hoptions, -, -⟩ := ask_same h .refresh
  have hpolls : (h.ask .refresh).options.polls = true := by
    rw [hoptions]
    exact hi.polls e he
  unfold Hook.refreshNow
  extract_lets h'
  split
  · refine inv_setEffect (hmounted.trans (hi.mounted e he)) hpolls (hi.pending e he)
      fun asked hasked => ?_
    cases mem_ask hasked with
    | inl hold => exact (hi.waits he hold).imp_right fun hrefresh => ⟨hrefresh.1, Nat.succ_pos _⟩
    | inr hnew => exact .inr ⟨hnew.1, Nat.succ_pos _⟩
  · have hqueued : e.clearTimer.pendingReason.isSome → e.clearTimer.requestInFlightFlag = true :=
      hi.pending e he
    exact inv_execute (hmounted.trans (hi.mounted e he)) hpolls hqueued fun hpoll => nomatch hpoll

/-- With a reason queued the next run starts, else only refreshes can be waiting. -/
theorem Inv.settle (hi : Inv h) (he : h.effect = some e) (successful : Bool) :
    Inv (h.settle e successful) := by
  have hmounted := hi.mounted e he
  have hpolls := hi.polls e he
  unfold Hook.settle
  extract_lets h' e'
  split
  · exact @inv_execute h' { e' with pendingReason := none } hmounted hpolls nofun _
      fun _ hflag => absurd hflag Bool.false_ne_true
  · rename_i hnone
    have hpending : e.pendingReason = none := hnone
    refine inv_setEffect hmounted hpolls (fun hsome => ?_) fun asked hasked => .inr ?_
    · have hsome' : e.pendingReason.isSome := hsome
      rw [hpending] at hsome'
      cases hsome'
    · refine (hi.waits he hasked).resolve_left fun hrun => ?_
      rw [hpending] at hrun
      exact Bool.false_ne_true hrun.2

theorem Inv.begin (hnone : h.effect = none) (hmounted : h.mounted = true) {options : Options}
    (hwaits : ∀ asked ∈ h.unserved, options.polls = false → options.enabled = true) :
    Inv (h.begin options) := by
  unfold Hook.begin
  extract_lets h'
  split
  · rename_i hpolls
    exact @inv_execute h' { options := options, nextDelayMs := options.safeIntervalMs } hmounted hpolls
      nofun _ nofun
  · rename_i hpolls
    refine inv_idle hnone (fun _ => Bool.eq_false_iff.mpr hpolls) fun asked hasked => ?_
    have henabled := hwaits asked hasked (Bool.eq_false_iff.mpr hpolls)
    refine ⟨hmounted, henabled, fun hvisible => ?_⟩
    exact absurd (polls_iff.mpr ⟨henabled, hvisible⟩) hpolls

/-- The options have changed, if not those of the effect. -/
theorem sameEffect_iff {options options' : Options} (hsame : options.sameEffect options' = true) :
    options.enabled = options'.enabled ∧ options.visible = options'.visible := by
  simp only [Options.sameEffect, Bool.and_eq_true, decide_eq_true_eq] at hsame
  exact ⟨hsame.1.1.1.1.2, hsame.2⟩

theorem Inv.setOptions (hi : Inv h) (hmounted : h.mounted = true) {options : Options} {t : Hook}
    (hstep : hookStep h (.setOptions options) = some t) : Inv t := by
  rw [hookStep, if_pos hmounted] at hstep
  split at hstep
  · rename_i hsame
    obtain ⟨henabled, hvisible⟩ := sameEffect_iff hsame
    have hpolls : options.polls = h.options.polls := by
      rw [Options.polls, Options.polls, henabled, hvisible]
    obtain rfl := Option.some_inj.mp hstep
    refine ⟨hi.mounted, fun e he => hpolls.trans (hi.polls e he), fun hm hp => ?_, hi.pending,
      fun asked hasked => ?_⟩
    · exact hi.effect hm (hpolls.symm.trans hp)
    · obtain ⟨hm, he, hwaits⟩ := hi.waiting asked hasked
      exact ⟨hm, henabled.trans he, fun hv => hwaits (hvisible.symm.trans hv)⟩
  · obtain rfl := Option.some_inj.mp hstep
    have hnone : h.dispose.effect = none := rfl
    split
    · rename_i henabled
      exact Inv.begin hnone hmounted fun _ _ _ => henabled
    · rename_i hdisabled
      have hpolls : options.polls = false := by
        rw [Options.polls, Bool.eq_false_iff.mpr hdisabled, Bool.false_and]
      have hbegun : h.dispose.begin options =
          { h.dispose with options := options, requestInFlight := false } := by
        rw [Hook.begin, hpolls]
        rfl
      rw [hbegun]
      exact inv_idle hnone (fun _ => hpolls) nofun

end Steps

theorem inv_step (h : Hook) (a : HookAction) (t : Hook) (hi : Inv h)
    (hstep : hookStep h a = some t) : Inv t := by
  cases a with
  | triggerNow reason =>
      obtain rfl := Option.some_inj.mp hstep
      exact hi.triggerNow reason
  | timer =>
      obtain ⟨e, hfound, rfl⟩ := Option.map_eq_some_iff.mp hstep
      obtain ⟨he, -⟩ := Option.filter_eq_some_iff.mp hfound
      exact @inv_execute h e.clearTimer (hi.mounted e he) (hi.polls e he) (hi.pending e he) _
        fun _ _ asked hasked => hi.waits he hasked
  | updated =>
      obtain ⟨e, he, rfl⟩ := Option.map_eq_some_iff.mp hstep
      exact @inv_setEffect h { e with updateTimer := true } (hi.mounted e he) (hi.polls e he)
        (hi.pending e he) fun asked hasked => hi.waits he hasked
  | updateTimer =>
      obtain ⟨e, hfound, rfl⟩ := Option.map_eq_some_iff.mp hstep
      obtain ⟨he, -⟩ := Option.filter_eq_some_iff.mp hfound
      exact @inv_execute h { e with updateTimer := false } (hi.mounted e he) (hi.polls e he)
        (hi.pending e he) _ fun hpoll => nomatch hpoll
  | refreshNow =>
      obtain ⟨e, he, rfl⟩ := Option.map_eq_some_iff.mp hstep
      exact hi.refreshNow he
  | refreshGoesOn timedOut =>
      obtain ⟨e, hfound, rfl⟩ := Option.map_eq_some_iff.mp hstep
      obtain ⟨he, -⟩ := Option.filter_eq_some_iff.mp hfound
      exact @inv_execute h { e with refreshes := e.refreshes - 1 }.clearTimer (hi.mounted e he)
        (hi.polls e he) (hi.pending e he) .manual fun hpoll => nomatch hpoll
  | complete successful =>
      obtain ⟨e, hfound, rfl⟩ := Option.map_eq_some_iff.mp hstep
      exact hi.settle (Option.filter_eq_some_iff.mp hfound).1 successful
  | completeOrphan =>
      rw [hookStep, Option.ite_none_right_eq_some] at hstep
      obtain rfl := Option.some_inj.mp hstep.2
      exact ⟨hi.mounted, hi.polls, hi.effect, hi.pending, hi.waiting⟩
  | setOptions options =>
      cases hmounted : h.mounted with
      | true => exact hi.setOptions hmounted hstep
      | false =>
          rw [hookStep, if_neg (by rw [hmounted]; decide)] at hstep
          cases hstep
  | unmount =>
      rw [hookStep, Option.ite_none_right_eq_some] at hstep
      obtain rfl := Option.some_inj.mp hstep.2
      have hnone : h.dispose.effect = none := rfl
      exact inv_idle hnone (fun hm => absurd hm Bool.false_ne_true) nofun

theorem inv_start {h : Hook} (hstart : hookSystem.start h) : Inv h := by
  rw [show h = _ from hstart]
  exact Inv.begin rfl rfl nofun

/-- A run that is not kept from starting. -/
theorem execute_starts {h : Hook} {e : Effect} (hflag : e.requestInFlightFlag = false)
    (reason : SingleFlightPollReason) :
    (h.execute e reason).started = reason :: h.started ∧ (h.execute e reason).unserved = [] := by
  rw [Hook.execute, if_neg (Bool.eq_false_iff.mp hflag)]
  exact ⟨rfl, rfl⟩

/-- Whatever the options do, no request is lost. -/
theorem none_lost {h : Hook} (hreach : Reachable hookSystem h) : h.NoneLost := by
  have hi : Inv h := hreach.invariant (fun _ => inv_start) fun s a t hs _ => inv_step s a t hs
  refine ⟨hi.waiting, fun e he hsome successful t hstep => ?_,
    fun hhidden options t hpolls hstep => ?_⟩
  · obtain ⟨e', hfound, rfl⟩ := Option.map_eq_some_iff.mp hstep
    obtain rfl : e = e' := Option.some_inj.mp
      (he.symm.trans (Option.filter_eq_some_iff.mp hfound).1)
    obtain ⟨queued, hqueued⟩ := Option.isSome_iff_exists.mp hsome
    rw [Hook.settle]
    simp only [hqueued]
    obtain ⟨hstarted, hserved⟩ := @execute_starts { h with requestInFlight := false }
      { e with requestInFlightFlag := false, nextDelayMs := e.delayAfter successful
               pendingReason := none } rfl queued
    exact ⟨congrArg List.length hstarted, hserved⟩
  · rw [hookStep, Option.ite_none_right_eq_some] at hstep
    obtain ⟨-, hstep⟩ := hstep
    split at hstep
    · rename_i hsame
      obtain ⟨henabled, hvisible⟩ := sameEffect_iff hsame
      rw [Options.polls, henabled, hvisible, ← Options.polls, hhidden] at hpolls
      cases hpolls
    · obtain rfl := Option.some_inj.mp hstep
      rw [if_pos (polls_iff.mp hpolls).1, Hook.begin]
      simp only [hpolls, if_true]
      obtain ⟨hstarted, hserved⟩ := @execute_starts { h.dispose with options := options }
        { options := options, nextDelayMs := options.safeIntervalMs } rfl .initial
      exact ⟨congrArg List.length hstarted, hserved⟩

/-! ### Runs -/

/-- At most one run is left of effects that are over, and none beside an effect that polls. -/
structure Alone (h : Hook) : Prop where
  orphans : h.orphans ≤ 1
  effect : h.effect.isSome → h.orphans = 0

section Alone
variable {h : Hook} {e : Effect}

theorem Alone.executing (ha : Alone h) : h.executing ≤ 1 := by
  rw [Hook.executing]
  cases he : h.effect with
  | none => exact ha.orphans
  | some e =>
      rw [ha.effect (by rw [he]; rfl), Nat.zero_add]
      split <;> decide

theorem alone_setEffect (horphans : h.orphans = 0) : Alone (h.setEffect e) :=
  ⟨horphans.trans_le (Nat.zero_le 1), fun _ => horphans⟩

theorem alone_execute (horphans : h.orphans = 0) (reason : SingleFlightPollReason) :
    Alone (h.execute e reason) := by
  rw [Hook.execute]
  split
  · split <;> exact alone_setEffect horphans
  · exact ⟨horphans.trans_le (Nat.zero_le 1), fun _ => horphans⟩

theorem Alone.of_some (ha : Alone h) (he : h.effect = some e) : h.orphans = 0 :=
  ha.effect (by rw [he]; rfl)

theorem Alone.ask (ha : Alone h) (asked : Asked) : Alone (h.ask asked) := by
  obtain ⟨-, -, heffect, horphans⟩ := ask_same h asked
  refine ⟨horphans.trans_le ha.orphans, fun hsome => horphans.trans (ha.effect ?_)⟩
  rwa [heffect] at hsome

theorem Alone.triggerNow (ha : Alone h) (reason : SingleFlightPollReason) :
    Alone (h.triggerNow reason) := by
  unfold Hook.triggerNow
  extract_lets h'
  have hasked : Alone h' := by
    simp only [h']
    split
    · exact ha.ask .trigger
    · exact ha
  split
  · exact hasked
  · rename_i e he
    exact alone_execute (hasked.of_some he) reason

theorem Alone.settle (ha : Alone h) (he : h.effect = some e) (successful : Bool) :
    Alone (h.settle e successful) := by
  have horphans : ({ h with requestInFlight := false } : Hook).orphans = 0 := ha.of_some he
  unfold Hook.settle
  extract_lets h' e'
  split
  · exact alone_execute horphans _
  · exact alone_setEffect horphans

theorem Alone.begin (ha : Alone h) {options : Options}
    (hnone : options.polls = true → h.executing = 0) : Alone (h.dispose.begin options) := by
  unfold Hook.begin
  extract_lets h'
  split
  · rename_i hpolls
    exact alone_execute (hnone hpolls) .initial
  · exact ⟨ha.executing, fun hsome => absurd hsome Bool.false_ne_true⟩

end Alone

theorem alone_step (h : Hook) (a : HookAction) (t : Hook) (ha : Alone h) (hkept : Kept h a)
    (hstep : hookStep h a = some t) : Alone t := by
  cases a with
  | triggerNow reason =>
      obtain rfl := Option.some_inj.mp hstep
      exact ha.triggerNow reason
  | timer | updateTimer | refreshGoesOn timedOut =>
      obtain ⟨e, hfound, rfl⟩ := Option.map_eq_some_iff.mp hstep
      exact alone_execute (ha.of_some (Option.filter_eq_some_iff.mp hfound).1) _
  | updated =>
      obtain ⟨e, he, rfl⟩ := Option.map_eq_some_iff.mp hstep
      exact alone_setEffect (ha.of_some he)
  | refreshNow =>
      obtain ⟨e, he, rfl⟩ := Option.map_eq_some_iff.mp hstep
      have horphans : (h.ask .refresh).orphans = 0 := (ask_same h .refresh).2.2.2.trans (ha.of_some he)
      rw [Hook.refreshNow]
      split
      · exact alone_setEffect horphans
      · exact alone_execute horphans .manual
  | complete successful =>
      obtain ⟨e, hfound, rfl⟩ := Option.map_eq_some_iff.mp hstep
      exact ha.settle (Option.filter_eq_some_iff.mp hfound).1 successful
  | completeOrphan =>
      rw [hookStep, Option.ite_none_right_eq_some] at hstep
      obtain rfl := Option.some_inj.mp hstep.2
      refine ⟨(Nat.sub_le _ _).trans ha.orphans, fun hsome => ?_⟩
      have hzero : h.orphans = 0 := ha.effect hsome
      exact congrArg (· - 1) hzero
  | setOptions options =>
      rw [hookStep, Option.ite_none_right_eq_some] at hstep
      obtain ⟨-, hstep⟩ := hstep
      split at hstep
      · obtain rfl := Option.some_inj.mp hstep
        exact ⟨ha.orphans, ha.effect⟩
      · rename_i hchanged
        have hbegun : Alone (h.dispose.begin options) :=
          ha.begin (hkept (Bool.eq_false_iff.mpr hchanged))
        obtain rfl := Option.some_inj.mp hstep
        split
        · exact hbegun
        · exact ⟨hbegun.orphans, hbegun.effect⟩
  | unmount =>
      rw [hookStep, Option.ite_none_right_eq_some] at hstep
      obtain rfl := Option.some_inj.mp hstep.2
      exact ⟨ha.executing, fun hsome => absurd hsome Bool.false_ne_true⟩

theorem alone_start {h : Hook} (hstart : hookSystem.start h) : Alone h := by
  rw [show h = _ from hstart]
  exact @Alone.begin { options := h.options } ⟨Nat.zero_le 1, fun _ => rfl⟩ _ fun _ => rfl

theorem one_at_a_time {h : Hook} (hreach : ReachableWhen hookSystem Kept h) : h.OneAtATime := by
  have ha : Alone h := hreach.invariant (fun _ => alone_start) alone_step
  exact ⟨ha.executing, none_lost hreach.reachable⟩

/-! A page that polls every minute, and every five while there is no network. -/

def everyMinute : Options where
  intervalMs := some 60000

def everyFive : Options where
  intervalMs := some 300000

def polling : Hook :=
  ({ options := everyMinute } : Hook).begin everyMinute

theorem polling_start : hookSystem.start polling :=
  rfl

/-- A scout asks for a refresh during the first run, and the interval changes after the next. -/
def refreshedRun : List HookAction :=
  [.triggerNow .manual, .complete true, .complete false, .setOptions everyFive]

theorem one_at_a_time_refreshed : ∃ h, hookSystem.run polling refreshedRun = some h ∧
    h.started = [.initial, .manual, .initial] ∧ h.OneAtATime := by
  have hstarted : (hookSystem.run polling refreshedRun).map Hook.started =
      some [.initial, .manual, .initial] := by decide +kernel
  obtain ⟨h, hrun, heq⟩ := Option.map_eq_some_iff.mp hstarted
  exact ⟨h, hrun, heq, one_at_a_time (reachableWhen_of_run refreshedRun (.start polling_start)
    (by decide +kernel) hrun)⟩

/-- The interval changes during the first run. -/
theorem two_at_once : ∃ h, Reachable hookSystem h ∧ h.executing = 2 ∧ ¬ h.OneAtATime := by
  have htwo : (hookSystem.run polling [.setOptions everyFive]).map Hook.executing = some 2 := by
    decide +kernel
  obtain ⟨h, hrun, heq⟩ := Option.map_eq_some_iff.mp htwo
  refine ⟨h, reachable_of_run _ polling_start hrun, heq, fun hone => ?_⟩
  have hsingle := hone.single
  rw [heq] at hsingle
  exact absurd hsingle (by decide)

end Frcmob.Polling
