import Frcmob.Lib.Transition

/-!
The one toast of `components/ui/toast.ts`. Listeners and the callbacks of a toast may call
everything again before the call that called them goes on, so what is left of such a call is a
frame of a stack; `run` goes on with the top frame, and code of a caller may do anything when it
is on top. A timer may fire when nothing is running.
-/

namespace Frcmob.Toasts
open Transition

inductive ToastCloseReason
  | timeout
  | action
  | dismiss
  | replaced
deriving DecidableEq

inductive ToastTone
  | success
  | info
  | warning
deriving DecidableEq

/-- Of a callback, whether there is one. -/
structure ToastOptions where
  message : String
  tone : Option ToastTone := none
  actionLabel : Option String := none
  onAction : Bool := false
  onClose : Bool := false
  durationMs : Option Int := none
deriving DecidableEq

structure ToastRecord where
  id : Nat
  message : String
  tone : ToastTone
  durationMs : Int
  actionLabel : Option String
  onAction : Bool
  onClose : Bool
deriving DecidableEq

def defaultToastMs : Int := 5000

def ToastOptions.record (options : ToastOptions) (id : Nat) : ToastRecord where
  id := id
  message := options.message
  tone := options.tone.getD .success
  durationMs := options.durationMs.getD defaultToastMs
  actionLabel := options.actionLabel
  onAction := options.onAction
  onClose := options.onClose

/-- What is left of a call: the loop of `emit` from a listener on, the rest of `close`, of
`showToast` after its `close` and after its `emit`, and of `runToastAction`. The last three are
code of a caller. -/
inductive Frame
  | emitting (cursor : Nat)
  | closing (toast : ToastRecord) (reason : ToastCloseReason)
  | showing (options : ToastOptions)
  | shown
  | acting (toast : ToastRecord)
  | listener (listener : Nat)
  | onClose (toast : ToastRecord)
  | onAction (toast : ToastRecord)
deriving DecidableEq

def Frame.isCaller : Frame → Bool
  | .listener _ => true
  | .onClose _ => true
  | .onAction _ => true
  | _ => false

/-- `closing.onClose?.(reason)` and `onAction()`. -/
inductive Call
  | closed (toast : ToastRecord) (reason : ToastCloseReason)
  | acted (toast : ToastRecord)
deriving DecidableEq

/-- `timer` is the id that the armed timer closes. A listener stands at its place in the set:
one that is added again stands last. -/
structure State where
  current : Option ToastRecord := none
  nextId : Nat := 1
  listeners : List (Nat × Nat) := []
  nextPlace : Nat := 0
  timer : Option Nat := none
  remainingMs : Int := 0
  startedAtMs : Int := 0
  paused : Bool := false
  stack : List Frame := []
  calls : List Call := []
deriving DecidableEq

def State.startTimer (s : State) (now : Int) : State :=
  { s with timer := s.current.map (·.id), startedAtMs := now }

def State.close (s : State) (reason : ToastCloseReason) : State :=
  match s.current with
  | none => s
  | some closing => { s with
      timer := none
      paused := false
      current := none
      stack := .emitting 0 :: .closing closing reason :: s.stack }

/-- `showToast` with no toast up. -/
def State.put (s : State) (options : ToastOptions) (now : Int) : State :=
  let toast := options.record s.nextId
  { s with
      current := some toast
      nextId := s.nextId + 1
      remainingMs := toast.durationMs
      paused := false
      timer := some toast.id
      startedAtMs := now
      stack := .emitting 0 :: .shown :: s.stack }

def State.showToast (s : State) (options : ToastOptions) (now : Int) : State :=
  if s.current.isSome then { s with stack := .showing options :: s.stack }.close .replaced
  else s.put options now

def State.closeToast (s : State) (id : Nat) (reason : ToastCloseReason) : State :=
  if s.current.map (·.id) = some id then s.close reason else s

def State.runToastAction (s : State) (id : Nat) : State :=
  match s.current with
  | none => s
  | some toast =>
      if toast.id = id then { s with stack := .acting toast :: s.stack }.close .action else s

def State.pauseToast (s : State) (id : Nat) (now : Int) : State :=
  if s.current.map (·.id) = some id ∧ s.paused = false then
    { s with
        paused := true
        timer := none
        remainingMs := max 0 (s.remainingMs - (now - s.startedAtMs)) }
  else s

def State.resumeToast (s : State) (id : Nat) (now : Int) : State :=
  if s.current.map (·.id) = some id ∧ s.paused = true then
    { s with paused := false }.startTimer now
  else s

def State.subscribe (s : State) (listener : Nat) : State :=
  if listener ∈ s.listeners.map (·.2) then s
  else { s with
    listeners := s.listeners ++ [(s.nextPlace, listener)]
    nextPlace := s.nextPlace + 1 }

def State.unsubscribe (s : State) (listener : Nat) : State :=
  { s with listeners := s.listeners.filter (·.2 ≠ listener) }

/-- Go on with a frame that was on top of `rest`. -/
def State.runFrame (s : State) (now : Int) (rest : List Frame) : Frame → Option State
  | .emitting cursor =>
      match s.listeners.find? (cursor ≤ ·.1) with
      | none => some { s with stack := rest }
      | some (place, listener) =>
          some { s with stack := .listener listener :: .emitting (place + 1) :: rest }
  | .closing toast reason => some { s with
      calls := s.calls ++ [.closed toast reason]
      stack := if toast.onClose then .onClose toast :: rest else rest }
  | .showing options => some ({ s with stack := rest }.put options now)
  | .shown => some { s with stack := rest }
  | .acting toast => some { s with
      calls := if toast.onAction then s.calls ++ [.acted toast] else s.calls
      stack := if toast.onAction then .onAction toast :: rest else rest }
  | _ => none

/-- An error of `onClose` is caught; another one leaves the calls that it came from. -/
def State.throw (s : State) : Option State :=
  match s.stack with
  | .onClose _ :: rest => some { s with stack := rest }
  | .listener _ :: rest => some { s with stack := rest.dropWhile (!·.isCaller) }
  | .onAction _ :: rest => some { s with stack := rest.dropWhile (!·.isCaller) }
  | _ => none

inductive ToastAction
  | showToast (options : ToastOptions) (now : Int)
  | closeToast (id : Nat) (reason : ToastCloseReason)
  | runToastAction (id : Nat)
  | pauseToast (id : Nat) (now : Int)
  | resumeToast (id : Nat) (now : Int)
  | subscribe (listener : Nat)
  | unsubscribe (listener : Nat)
  | fire
  | run (now : Int)
  | done
  | throw
deriving DecidableEq

/-- Code of a caller is on top. -/
def State.atCaller (s : State) : Bool :=
  s.stack.head?.all Frame.isCaller

/-- What code of a caller may call. -/
def State.call (s : State) : ToastAction → Option State
  | .showToast options now => some (s.showToast options now)
  | .closeToast id reason => some (s.closeToast id reason)
  | .runToastAction id => some (s.runToastAction id)
  | .pauseToast id now => some (s.pauseToast id now)
  | .resumeToast id now => some (s.resumeToast id now)
  | .subscribe listener => some (s.subscribe listener)
  | .unsubscribe listener => some (s.unsubscribe listener)
  | _ => none

def toastStep (s : State) : ToastAction → Option State
  | .fire =>
      match s.stack, s.timer with
      | [], some id => some ({ s with timer := none }.closeToast id .timeout)
      | _, _ => none
  | .run now =>
      match s.stack with
      | [] => none
      | frame :: rest => s.runFrame now rest frame
  | .done =>
      match s.stack with
      | [] => none
      | frame :: rest => if frame.isCaller then some { s with stack := rest } else none
  | .throw => s.throw
  | a => if s.atCaller then s.call a else none

def toastSystem : System State ToastAction where
  start s := s = {}
  step := toastStep

end Frcmob.Toasts
