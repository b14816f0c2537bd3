import Frcmob.Toasts.Toast

/-!
The work that a toast holds back. Calls that were made and, from the top of the stack down, those
that its frames still have to make are one history, which going on with a frame does not change.
`showToast` looks at the toast that is up before its `close` only, and puts its own over any that
a listener or `onClose` left.
-/

namespace Frcmob.Toasts
open Transition

def Call.closes (id : Nat) : Call → Bool
  | .closed toast _ => toast.id = id
  | .acted _ => false

def Call.acts (id : Nat) : Call → Bool
  | .closed _ _ => false
  | .acted toast => toast.id = id

@[simp] theorem Call.closes_closed (toast : ToastRecord) (reason : ToastCloseReason) (id : Nat) :
    (Call.closed toast reason).closes id = decide (toast.id = id) := rfl

@[simp] theorem Call.closes_acted (toast : ToastRecord) (id : Nat) :
    (Call.acted toast).closes id = false := rfl

@[simp] theorem Call.acts_closed (toast : ToastRecord) (reason : ToastCloseReason) (id : Nat) :
    (Call.closed toast reason).acts id = false := rfl

@[simp] theorem Call.acts_acted (toast : ToastRecord) (id : Nat) :
    (Call.acted toast).acts id = decide (toast.id = id) := rfl

/-- The call that a frame still has to make. -/
def Frame.call? : Frame → Option Call
  | .closing toast reason => some (.closed toast reason)
  | .acting toast => some (.acted toast)
  | _ => none

def State.planned (s : State) : List Call :=
  s.stack.filterMap Frame.call?

def State.history (s : State) : List Call :=
  s.calls ++ s.planned

/-- Ids are given out in order. -/
def State.Shown (s : State) (id : Nat) : Prop :=
  0 < id ∧ id < s.nextId

instance (s : State) (id : Nat) : Decidable (s.Shown id) :=
  inferInstanceAs (Decidable (_ ∧ _))

/-- How often the toast's `onClose` was called. -/
def State.closes (s : State) (id : Nat) : Nat :=
  s.calls.countP (·.closes id)

def State.acts (s : State) (id : Nat) : Nat :=
  s.calls.countP (·.acts id)

def State.IsUp (s : State) (id : Nat) : Prop :=
  s.current.map (·.id) = some id

instance (s : State) (id : Nat) : Decidable (s.IsUp id) :=
  inferInstanceAs (Decidable (_ = _))

/-- The toast was taken down and its `onClose` is still to be called. -/
def State.IsClosing (s : State) (id : Nat) : Prop :=
  ∃ toast reason, .closing toast reason ∈ s.stack ∧ toast.id = id

/-- `onClose` of a toast that was shown is called once when it is no longer up, `onAction` at
most once and after `onClose('action')`, and the timer is that of the toast that is up. -/
structure Released (s : State) : Prop where
  once : ∀ id, s.Shown id →
    s.IsUp id ∧ s.closes id = 0 ∨ s.IsClosing id ∧ s.closes id = 0 ∨ ¬ s.IsUp id ∧ s.closes id = 1
  atMostOnce : ∀ id, s.acts id ≤ 1
  afterClose : ∀ before toast after, s.calls = before ++ .acted toast :: after →
    .closed toast .action ∈ before
  armed : ∀ toast, s.current = some toast → s.paused = false → s.timer = some toast.id

def Frame.isClosing : Frame → Bool
  | .closing _ _ => true
  | _ => false

def Frame.isShowing : Frame → Bool
  | .showing _ => true
  | _ => false

/-- The frames that an error leaves without going on with them. -/
def State.left (s : State) : List Frame :=
  match s.stack with
  | [] => []
  | .onClose _ :: _ => []
  | _ :: rest => rest.takeWhile (!·.isCaller)

/-- No toast is up when `showToast` goes on after its `close`, and no error leaves a `close`. -/
def Kept (s : State) : ToastAction → Prop
  | .run _ => s.stack.head?.any Frame.isShowing = true → s.current = none
  | .throw => s.left.all (!·.isClosing) = true
  | _ => True

instance (s : State) : ∀ a, Decidable (Kept s a)
  | .run _ => inferInstanceAs (Decidable (_ → _))
  | .throw => inferInstanceAs (Decidable (_ = _))
  | .showToast _ _ | .closeToast _ _ | .runToastAction _ | .pauseToast _ _ | .resumeToast _ _
  | .subscribe _ | .unsubscribe _ | .fire | .done => isTrue True.intro

section Order

/-- Each `onAction` comes after its `onClose('action')`, of which those of `seen` were made. -/
def Ordered : List Call → List Call → Prop
  | _, [] => True
  | seen, call :: calls =>
      (∀ toast, call = .acted toast → .closed toast .action ∈ seen) ∧
        Ordered (call :: seen) calls

theorem Ordered.mono {calls seen seen' : List Call} (h : Ordered seen calls)
    (hseen : ∀ toast, .closed toast .action ∈ seen → .closed toast .action ∈ seen') :
    Ordered seen' calls := by
  induction calls generalizing seen seen' with
  | nil => exact True.intro
  | cons call calls ih =>
      refine ⟨fun toast heq => hseen toast (h.1 toast heq), ih h.2 fun toast hmem => ?_⟩
      cases List.mem_cons.mp hmem with
      | inl heq => exact heq ▸ List.mem_cons_self
      | inr hin => exact List.mem_cons_of_mem _ (hseen toast hin)

theorem Ordered.append {calls more seen : List Call} (h : Ordered seen calls)
    (hmore : Ordered seen more) : Ordered seen (calls ++ more) := by
  induction calls generalizing seen with
  | nil => exact hmore
  | cons call calls ih =>
      exact ⟨h.1, ih h.2 (hmore.mono fun _ => List.mem_cons_of_mem _)⟩

theorem Ordered.insert {before inserted after seen : List Call}
    (h : Ordered seen (before ++ after)) (hins : ∀ seen, Ordered seen inserted) :
    Ordered seen (before ++ (inserted ++ after)) := by
  induction before generalizing seen with
  | nil => exact (hins seen).append h
  | cons call before ih => exact ⟨h.1, ih h.2⟩

theorem Ordered.tail {removed after seen : List Call} (h : Ordered seen (removed ++ after))
    (hrem : ∀ toast, .closed toast .action ∉ removed) : Ordered seen after := by
  induction removed generalizing seen with
  | nil => exact h
  | cons call removed ih =>
      refine (ih h.2 fun toast hmem => hrem toast (List.mem_cons_of_mem _ hmem)).mono
        fun toast hmem => ?_
      cases List.mem_cons.mp hmem with
      | inl heq => exact absurd (heq ▸ List.mem_cons_self) (hrem toast)
      | inr hin => exact hin

theorem Ordered.remove {before removed after seen : List Call}
    (h : Ordered seen (before ++ (removed ++ after)))
    (hrem : ∀ toast, .closed toast .action ∉ removed) : Ordered seen (before ++ after) := by
  induction before generalizing seen with
  | nil =>
      have hrest : Ordered seen (removed ++ after) := h
      exact hrest.tail hrem
  | cons call before ih => exact ⟨h.1, ih h.2⟩

theorem Ordered.mem {before after seen : List Call} {toast : ToastRecord}
    (h : Ordered seen (before ++ .acted toast :: after)) :
    .closed toast .action ∈ before ∨ .closed toast .action ∈ seen := by
  induction before generalizing seen with
  | nil => exact .inr (h.1 toast rfl)
  | cons call before ih =>
      cases ih h.2 with
      | inl hin => exact .inl (List.mem_cons_of_mem _ hin)
      | inr hin =>
          cases List.mem_cons.mp hin with
          | inl heq => exact .inl (heq ▸ List.mem_cons_self)
          | inr hseen => exact .inr hseen

end Order

/-- Of the toasts that were shown each is up or once closed in the history. -/
structure Inv (s : State) : Prop where
  counts : ∀ id, s.current.toList.countP (·.id = id) + s.history.countP (·.closes id) =
    if 0 < id ∧ id < s.nextId then 1 else 0
  acting : ∀ id, s.history.countP (·.acts id) ≤ s.history.countP (·.closes id)
  order : Ordered [] s.history
  timer : s.timer = if s.paused then none else s.current.map (·.id)
  started : 0 < s.nextId

theorem inv_start : Inv {} where
  counts id := by
    have hnot : ¬ (0 < id ∧ id < 1) := by omega
    exact (if_neg hnot).symm
  acting _ := Nat.le_refl _
  order := True.intro
  timer := rfl
  started := Nat.one_pos

/-- Only the listeners, the countdown and frames that have nothing to call. -/
theorem Inv.frame {s t : State} (h : Inv s) (hcurrent : t.current = s.current)
    (hnext : t.nextId = s.nextId) (hhist : t.history = s.history)
    (htimer : t.timer = if t.paused then none else t.current.map (·.id)) : Inv t where
  counts id := by
    rw [hcurrent, hhist, hnext]
    exact h.counts id
  acting := by
    rw [hhist]
    exact h.acting
  order := by
    rw [hhist]
    exact h.order
  timer := htimer
  started := by
    rw [hnext]
    exact h.started

/-- Calls leave the plan, none of them an `onClose`. -/
theorem Inv.remove {s t : State} (h : Inv s) (before removed after : List Call)
    (hs : s.history = before ++ (removed ++ after)) (ht : t.history = before ++ after)
    (hrem : ∀ call ∈ removed, ∀ toast reason, call ≠ .closed toast reason)
    (hcurrent : t.current = s.current) (hnext : t.nextId = s.nextId)
    (htimer : t.timer = if t.paused then none else t.current.map (·.id)) : Inv t := by
  have hcloses : ∀ id, t.history.countP (·.closes id) = s.history.countP (·.closes id) := by
    intro id
    have hzero : removed.countP (·.closes id) = 0 := by
      refine List.countP_eq_zero.mpr fun call hmem hcall => ?_
      cases call with
      | closed toast reason => exact hrem _ hmem toast reason rfl
      | acted _ => exact Bool.noConfusion hcall
    simp only [hs, ht, List.countP_append, hzero, Nat.zero_add]
  refine ⟨fun id => ?_, fun id => ?_, ?_, htimer, ?_⟩
  · rw [hcloses, hcurrent, hnext]
    exact h.counts id
  · have := h.acting id
    rw [hcloses]
    simp only [hs, ht, List.countP_append] at this ⊢
    omega
  · rw [ht]
    exact (hs ▸ h.order).remove fun toast hmem => hrem _ hmem toast .action rfl
  · rw [hnext]
    exact h.started

/-- What a caller has left to do when the toast that is up is closed for it. -/
inductive Below (toast : ToastRecord) : ToastCloseReason → List Frame → Prop
  | nothing (reason : ToastCloseReason) : Below toast reason []
  | showing (options : ToastOptions) : Below toast .replaced [.showing options]
  | acting : Below toast .action [.acting toast]

theorem Inv.close {s : State} (h : Inv s) {toast : ToastRecord} {reason : ToastCloseReason}
    {below : List Frame} (hup : s.current = some toast) (hbelow : Below toast reason below) :
    Inv ({ s with stack := below ++ s.stack }.close reason) := by
  have hclose : { s with stack := below ++ s.stack }.close reason = { s with
      timer := none
      paused := false
      current := none
      stack := .emitting 0 :: .closing toast reason :: (below ++ s.stack) } := by
    simp only [State.close, hup]
  have hhist : ({ s with stack := below ++ s.stack }.close reason).history =
      s.calls ++ ((.closed toast reason :: below.filterMap Frame.call?) ++ s.planned) := by
    rw [hclose]
    simp [State.history, State.planned, List.filterMap_cons, Frame.call?]
  have hone : ∀ id, ([toast].countP (·.id = id)) = if toast.id = id then 1 else 0 := by
    intro id
    by_cases heq : toast.id = id <;> simp [heq]
  have hcounts := h.counts
  simp only [hup, Option.toList_some, hone, State.history, List.countP_append] at hcounts
  have hacts := h.acting
  simp only [State.history, List.countP_append] at hacts
  refine ⟨fun id => ?_, fun id => ?_, ?_, ?_, ?_⟩
  · have := hcounts id
    rw [hhist, hclose]
    cases hbelow <;>
      simp [List.filterMap_cons, Frame.call?, List.countP_cons] at this ⊢ <;> omega
  · have := hacts id
    rw [hhist]
    cases hbelow <;>
      simp [List.filterMap_cons, Frame.call?, List.countP_cons] at this ⊢ <;> omega
  · rw [hhist]
    refine h.order.insert fun seen => ?_
    cases hbelow with
    | nothing _ => exact ⟨fun _ heq => Call.noConfusion heq, True.intro⟩
    | showing _ => exact ⟨fun _ heq => Call.noConfusion heq, True.intro⟩
    | acting =>
        refine ⟨fun _ heq => Call.noConfusion heq, fun other heq => ?_, True.intro⟩
        cases heq
        exact List.mem_cons_self
  · rw [hclose]
    rfl
  · rw [hclose]
    exact h.started

theorem Inv.put {s : State} (h : Inv s) (hnone : s.current = none) (options : ToastOptions)
    (now : Int) : Inv (s.put options now) := by
  have hhist : (s.put options now).history = s.history := by
    simp [State.put, State.history, State.planned, List.filterMap_cons, Frame.call?]
  refine ⟨fun id => ?_, ?_, ?_, rfl, Nat.succ_pos _⟩
  · have hs := h.counts id
    have hpos := h.started
    rw [hhist]
    rw [hnone] at hs
    by_cases heq : s.nextId = id
    · rw [if_neg (by omega)] at hs
      have hshown : 0 < id ∧ id < s.nextId + 1 := by omega
      rw [State.put, if_pos hshown]
      simp only [ToastOptions.record, Option.toList_some, List.countP_singleton, heq,
        decide_true, if_true]
      simp only [Option.toList_none, List.countP_nil] at hs
      omega
    · have hsame : (0 < id ∧ id < s.nextId + 1) ↔ (0 < id ∧ id < s.nextId) := by omega
      simp only [State.put, ToastOptions.record, Option.toList_some, List.countP_singleton, heq,
        decide_false, hsame]
      exact hs
  · rw [hhist]
    exact h.acting
  · rw [hhist]
    exact h.order

theorem Inv.showToast {s : State} (h : Inv s) (options : ToastOptions) (now : Int) :
    Inv (s.showToast options now) := by
  cases hup : s.current with
  | none =>
      have hput : s.showToast options now = s.put options now := by
        simp [State.showToast, hup]
      rw [hput]
      exact h.put hup options now
  | some toast =>
      have hsome : s.current.isSome = true := by
        rw [hup]
        rfl
      rw [State.showToast, if_pos hsome]
      exact h.close hup (.showing options)

theorem Inv.closeNow {s : State} (h : Inv s) (reason : ToastCloseReason) :
    Inv (s.close reason) := by
  cases hup : s.current with
  | none =>
      have hsame : s.close reason = s := by
        simp only [State.close, hup]
      rwa [hsame]
  | some toast => exact h.close hup (.nothing reason)

theorem Inv.closeToast {s : State} (h : Inv s) (id : Nat) (reason : ToastCloseReason) :
    Inv (s.closeToast id reason) := by
  rw [State.closeToast]
  split
  · exact h.closeNow reason
  · exact h

theorem Inv.runToastAction {s : State} (h : Inv s) (id : Nat) : Inv (s.runToastAction id) := by
  cases hup : s.current with
  | none =>
      have hsame : s.runToastAction id = s := by
        simp only [State.runToastAction, hup]
      rwa [hsame]
  | some toast =>
      by_cases hid : toast.id = id
      · have hclose : s.runToastAction id =
            { s with stack := .acting toast :: s.stack }.close .action := by
          simp only [State.runToastAction, hup, if_pos hid]
        rw [hclose]
        exact h.close hup .acting
      · have hsame : s.runToastAction id = s := by
          simp only [State.runToastAction, hup, if_neg hid]
        rwa [hsame]

theorem Inv.pauseToast {s : State} (h : Inv s) (id : Nat) (now : Int) :
    Inv (s.pauseToast id now) := by
  rw [State.pauseToast]
  split
  · exact h.frame rfl rfl rfl rfl
  · exact h

theorem Inv.resumeToast {s : State} (h : Inv s) (id : Nat) (now : Int) :
    Inv (s.resumeToast id now) := by
  rw [State.resumeToast]
  split
  · exact h.frame rfl rfl rfl rfl
  · exact h

theorem Inv.subscribe {s : State} (h : Inv s) (listener : Nat) : Inv (s.subscribe listener) := by
  rw [State.subscribe]
  split
  · exact h
  · exact h.frame rfl rfl rfl h.timer

theorem Inv.call {s t : State} {a : ToastAction} (h : Inv s) (ht : s.call a = some t) : Inv t := by
  cases a with
  | showToast options now =>
      cases ht
      exact h.showToast options now
  | closeToast id reason =>
      cases ht
      exact h.closeToast id reason
  | runToastAction id =>
      cases ht
      exact h.runToastAction id
  | pauseToast id now =>
      cases ht
      exact h.pauseToast id now
  | resumeToast id now =>
      cases ht
      exact h.resumeToast id now
  | subscribe listener =>
      cases ht
      exact h.subscribe listener
  | unsubscribe listener =>
      cases ht
      exact h.frame rfl rfl rfl h.timer
  | fire | run _ | done | throw => cases ht

/-- The timer is that of the toast that is up, which it closes. -/
theorem Inv.fire {s : State} (h : Inv s) {id : Nat} (htimer : s.timer = some id) :
    Inv ({ s with timer := none }.closeToast id .timeout) := by
  have harmed := h.timer
  rw [htimer] at harmed
  have hid : s.current.map (·.id) = some id := by
    cases hpaused : s.paused with
    | true =>
        rw [hpaused] at harmed
        cases harmed
    | false =>
        rw [hpaused] at harmed
        exact harmed.symm
  rw [State.closeToast, if_pos hid]
  obtain ⟨toast, hup, -⟩ := Option.map_eq_some_iff.mp hid
  have hclose : { s with timer := none }.close .timeout = s.close .timeout := by
    simp only [State.close, hup]
  rw [hclose]
  exact h.closeNow .timeout

theorem history_of_stack {s : State} {frame : Frame} {rest : List Frame}
    (hstack : s.stack = frame :: rest) :
    s.history = s.calls ++ (frame.call?.toList ++ rest.filterMap Frame.call?) := by
  cases hcall : frame.call? <;>
    simp [State.history, State.planned, hstack, hcall]

/-- A frame that has nothing to call goes, and others of that kind may stand in its place. -/
theorem Inv.replace {s : State} (h : Inv s) (frames : List Frame) {frame : Frame}
    {rest : List Frame} (hstack : s.stack = frame :: rest)
    (hcall : frame.call? = none) (hframes : frames.filterMap Frame.call? = []) :
    Inv { s with stack := frames ++ rest } := by
  refine h.frame rfl rfl ?_ h.timer
  rw [history_of_stack hstack, hcall]
  simp [State.history, State.planned, hframes]

theorem Inv.runFrame {s t : State} (h : Inv s) {now : Int} {frame : Frame} {rest : List Frame}
    (hstack : s.stack = frame :: rest) (hkept : Kept s (.run now))
    (ht : s.runFrame now rest frame = some t) : Inv t := by
  cases frame with
  | emitting cursor =>
      rw [State.runFrame] at ht
      cases hfind : s.listeners.find? (cursor ≤ ·.1) with
      | none =>
          simp only [hfind, Option.some.injEq] at ht
          subst ht
          exact h.replace [] hstack rfl rfl
      | some listener =>
          simp only [hfind, Option.some.injEq] at ht
          subst ht
          exact h.replace [_, _] hstack rfl rfl
  | closing toast reason =>
      cases ht
      refine h.frame rfl rfl ?_ h.timer
      rw [history_of_stack hstack]
      cases honClose : toast.onClose <;>
        simp [State.history, State.planned, List.filterMap_cons, Frame.call?]
  | showing options =>
      cases ht
      have hnone : s.current = none := hkept (by rw [hstack]; rfl)
      exact (h.replace [] hstack rfl rfl).put hnone options now
  | shown =>
      cases ht
      exact h.replace [] hstack rfl rfl
  | acting toast =>
      cases ht
      cases honAction : toast.onAction with
      | true =>
          refine h.frame rfl rfl ?_ h.timer
          rw [history_of_stack hstack]
          simp [State.history, State.planned, List.filterMap_cons, Frame.call?]
      | false =>
          refine h.remove _ _ _ (history_of_stack hstack) ?_ (fun call hmem toast reason heq => ?_)
            rfl rfl h.timer
          · simp [State.history, State.planned]
          · rw [heq] at hmem
            simp [Frame.call?] at hmem
  | listener _ | onClose _ | onAction _ => cases ht

theorem Inv.throw {s t : State} (h : Inv s) (hkept : Kept s .throw) (ht : s.throw = some t) :
    Inv t := by
  cases hstack : s.stack with
  | nil =>
      rw [State.throw, hstack] at ht
      cases ht
  | cons frame rest =>
      have hleave : frame.call? = none → s.left = rest.takeWhile (!·.isCaller) →
          t = { s with stack := rest.dropWhile (!·.isCaller) } → Inv t := by
        intro hcall hleft heq
        subst heq
        refine h.remove s.calls ((rest.takeWhile (!·.isCaller)).filterMap Frame.call?)
          ((rest.dropWhile (!·.isCaller)).filterMap Frame.call?)
          ?_ rfl (fun call hmem toast reason heq => ?_) rfl rfl h.timer
        · rw [history_of_stack hstack, hcall, ← List.filterMap_append,
            List.takeWhile_append_dropWhile]
          rfl
        · subst heq
          have hall := List.all_eq_true.mp hkept
          rw [hleft] at hall
          obtain ⟨frame, hframe, hcalls⟩ := List.mem_filterMap.mp hmem
          have := hall frame hframe
          cases frame <;> simp [Frame.call?, Frame.isClosing] at hcalls this
      rw [State.throw, hstack] at ht
      cases frame with
      | onClose toast =>
          cases ht
          exact h.replace [] hstack rfl rfl
      | listener _ =>
          cases ht
          exact hleave rfl (by rw [State.left, hstack]) rfl
      | onAction _ =>
          cases ht
          exact hleave rfl (by rw [State.left, hstack]) rfl
      | emitting _ | closing _ _ | showing _ | shown | acting _ => cases ht

theorem inv_step (s : State) (a : ToastAction) (t : State) (h : Inv s) (hkept : Kept s a)
    (hstep : toastStep s a = some t) : Inv t := by
  cases a with
  | fire =>
      rw [toastStep] at hstep
      split at hstep
      · rename_i htimer
        cases hstep
        exact h.fire htimer
      · cases hstep
  | run now =>
      rw [toastStep] at hstep
      cases hstack : s.stack with
      | nil =>
          rw [hstack] at hstep
          cases hstep
      | cons frame rest =>
          rw [hstack] at hstep
          exact h.runFrame hstack hkept hstep
  | done =>
      rw [toastStep] at hstep
      cases hstack : s.stack with
      | nil =>
          rw [hstack] at hstep
          cases hstep
      | cons frame rest =>
          simp only [hstack] at hstep
          split at hstep
          · rename_i hcaller
            cases hstep
            have hcall : frame.call? = none := by
              cases frame <;> simp [Frame.isCaller, Frame.call?] at hcaller ⊢
            exact h.replace [] hstack hcall rfl
          · cases hstep
  | throw => exact h.throw hkept hstep
  | showToast _ _ | closeToast _ _ | runToastAction _ | pauseToast _ _ | resumeToast _ _
  | subscribe _ | unsubscribe _ =>
      change (if s.atCaller = true then s.call _ else none) = some t at hstep
      split at hstep
      · exact h.call hstep
      · cases hstep

theorem inv_reachable {s : State} (h : ReachableWhen toastSystem Kept s) : Inv s :=
  h.invariant (fun _ hs => hs ▸ inv_start) inv_step

theorem isClosing_of_planned {s : State} {id : Nat} (h : 0 < s.planned.countP (·.closes id)) :
    s.IsClosing id := by
  obtain ⟨call, hmem, hcall⟩ := List.countP_pos_iff.mp h
  obtain ⟨frame, hframe, hcalls⟩ := List.mem_filterMap.mp hmem
  cases frame with
  | closing toast reason =>
      cases hcalls
      exact ⟨toast, reason, hframe, of_decide_eq_true hcall⟩
  | acting _ =>
      cases hcalls
      cases hcall
  | emitting _ | showing _ | shown | listener _ | onClose _ | onAction _ => cases hcalls

theorem countP_current (s : State) (id : Nat) :
    s.current.toList.countP (·.id = id) = if s.IsUp id then 1 else 0 := by
  cases hup : s.current <;> simp [State.IsUp, hup, List.countP_singleton]

theorem Inv.once {s : State} (h : Inv s) {id : Nat} (hshown : s.Shown id) :
    s.IsUp id ∧ s.closes id = 0 ∨ s.IsClosing id ∧ s.closes id = 0 ∨
      ¬ s.IsUp id ∧ s.closes id = 1 := by
  have hids : 0 < id ∧ id < s.nextId := hshown
  have hcount := h.counts id
  rw [if_pos hids, State.history, List.countP_append] at hcount
  have hcloses : s.closes id = s.calls.countP (·.closes id) := rfl
  by_cases hup : s.IsUp id
  · rw [countP_current, if_pos hup] at hcount
    exact .inl ⟨hup, by omega⟩
  · rw [countP_current, if_neg hup] at hcount
    by_cases hplanned : 0 < s.planned.countP (·.closes id)
    · exact .inr (.inl ⟨isClosing_of_planned hplanned, by omega⟩)
    · exact .inr (.inr ⟨hup, by omega⟩)

theorem Inv.atMostOnce {s : State} (h : Inv s) (id : Nat) : s.acts id ≤ 1 := by
  have hcount := h.counts id
  have hacting := h.acting id
  simp only [State.history, List.countP_append] at hcount hacting
  have hacts : s.acts id = s.calls.countP (·.acts id) := rfl
  split at hcount <;> omega

theorem released_once {s : State} (h : ReachableWhen toastSystem Kept s) : Released s := by
  have hinv := inv_reachable h
  refine ⟨fun id => hinv.once, hinv.atMostOnce, fun before toast after heq => ?_, ?_⟩
  · have horder := hinv.order
    rw [State.history, heq, List.append_assoc] at horder
    exact horder.mem.resolve_right List.not_mem_nil
  · intro toast hup hpaused
    rw [hinv.timer, hpaused, hup]
    rfl

def savedToast : ToastOptions where
  message := "Saved"
  actionLabel := some "Undo"
  onAction := true
  onClose := true

/-- Undo is taken and a second toast is replaced by a third. -/
def undone : List ToastAction :=
  [.showToast savedToast 0, .run 0, .run 0, .runToastAction 1, .run 9, .run 9, .done, .run 9, .done,
    .showToast savedToast 20, .run 20, .run 20, .showToast savedToast 30, .run 30, .run 30, .done,
    .run 30, .run 30, .run 30]

theorem released_once_undone : ∃ s, toastSystem.run {} undone = some s ∧ s.Shown 3 ∧ s.IsUp 3 ∧
    s.closes 1 = 1 ∧ s.acts 1 = 1 ∧ s.closes 2 = 1 ∧ Released s :=
  ⟨_, rfl, by decide, rfl, rfl, rfl, rfl,
    released_once (reachableWhen_of_run undone (.start rfl) (by decide) rfl)⟩

/-- The second toast is shown by the `onClose` of the first, which the third replaces. -/
def shownInside : List ToastAction :=
  [.showToast savedToast 0, .run 0, .run 0, .showToast savedToast 10, .run 10, .run 10,
    .showToast savedToast 10, .run 10, .run 10, .done, .run 10, .run 10, .run 10]

/-- It is neither up nor does anything that is left to do call its `onClose`. -/
theorem second_lost : ∃ s, Reachable toastSystem s ∧ s.stack = [] ∧ s.Shown 2 ∧ ¬ s.IsUp 2 ∧
    s.closes 2 = 0 ∧ ¬ Released s := by
  have hreach : ∃ s, toastSystem.run {} shownInside = some s ∧ s.stack = [] ∧ s.nextId = 4 ∧
      s.current.map (·.id) = some 3 ∧ s.closes 2 = 0 := ⟨_, rfl, rfl, rfl, rfl, rfl⟩
  obtain ⟨s, hrun, hstack, hnext, hup, hcloses⟩ := hreach
  have hshown : s.Shown 2 := ⟨Nat.two_pos, by omega⟩
  have hdown : ¬ s.IsUp 2 := fun h => by
    rw [State.IsUp, hup] at h
    cases h
  refine ⟨s, reachable_of_run shownInside rfl hrun, hstack, hshown, hdown, hcloses, fun h => ?_⟩
  rcases h.once 2 hshown with ⟨hIsUp, -⟩ | ⟨⟨toast, reason, hmem, -⟩, -⟩ | ⟨-, hone⟩
  · exact hdown hIsUp
  · rw [hstack] at hmem
    exact absurd hmem List.not_mem_nil
  · omega

end Frcmob.Toasts
