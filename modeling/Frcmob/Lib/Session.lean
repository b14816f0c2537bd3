import Mathlib.Logic.Basic

/-!
Requests to a database, each in a session of its own. A request reads and writes the rows of
its session and commits them when it says so; one that is refused, or ends without a commit,
leaves what was committed. Postconditions are computed backwards through a request, one rule
for each operation.
-/

namespace Sessions

universe u v w
variable {ε : Type u} {ρ : Type u} {α β : Type u}

structure Session (ρ : Type u) where
  committed : ρ
  rows : ρ

abbrev Request (ε ρ : Type u) := EStateM ε (Session ρ)

namespace Request

def current : Request ε ρ ρ := fun s => .ok s.rows s

def change (f : ρ → ρ) : Request ε ρ PUnit := fun s => .ok .unit { s with rows := f s.rows }

def commit : Request ε ρ PUnit := fun s => .ok .unit { s with committed := s.rows }

def refuseIf (c : Prop) [Decidable c] (e : ε) : Request ε ρ PUnit := fun s =>
  if c then .error e s else .ok .unit s

/-- The value of a check that reads no rows, or its refusal. -/
def checked (x : Except ε α) : Request ε ρ α := fun s =>
  match x with
  | .ok a => .ok a s
  | .error e => .error e s

/-- A request in a new session. Closing the session rolls back what it has not committed. -/
def perform (x : Request ε ρ α) (rows : ρ) : ρ × Except ε α :=
  match x ⟨rows, rows⟩ with
  | .ok a s => (s.committed, .ok a)
  | .error e s => (s.committed, .error e)

/-- From `s`, the request ends with `granted` or is refused with `refused`. -/
def Ensures (x : Request ε ρ α) (s : Session ρ) (granted : α → Session ρ → Prop)
    (refused : ε → Session ρ → Prop) : Prop :=
  match x s with
  | .ok a t => granted a t
  | .error e t => refused e t

section Rules
variable {s : Session ρ} {refused : ε → Session ρ → Prop}

theorem ensures_bind {granted : β → Session ρ → Prop} {x : Request ε ρ α}
    {f : α → Request ε ρ β} :
    Ensures (x >>= f) s granted refused ↔
      Ensures x s (fun a t => Ensures (f a) t granted refused) refused := by
  simp only [Ensures, bind, EStateM.bind]
  cases x s with
  | ok => rfl
  | error => rfl

theorem ensures_current {granted : ρ → Session ρ → Prop} :
    Ensures current s granted refused ↔ granted s.rows s :=
  Iff.rfl

theorem ensures_change {granted : PUnit → Session ρ → Prop} {f : ρ → ρ} :
    Ensures (change f) s granted refused ↔ granted .unit { s with rows := f s.rows } :=
  Iff.rfl

theorem ensures_commit {granted : PUnit → Session ρ → Prop} :
    Ensures commit s granted refused ↔ granted .unit { s with committed := s.rows } :=
  Iff.rfl

theorem ensures_refuseIf {granted : PUnit → Session ρ → Prop} {c : Prop} [Decidable c] {e : ε} :
    Ensures (refuseIf c e) s granted refused ↔ (c → refused e s) ∧ (¬ c → granted .unit s) := by
  by_cases hc : c
  · simp [Ensures, refuseIf, hc]
  · simp [Ensures, refuseIf, hc]

theorem ensures_checked {granted : α → Session ρ → Prop} {x : Except ε α} :
    Ensures (checked x) s granted refused ↔
      (∀ e, x = .error e → refused e s) ∧ ∀ a, x = .ok a → granted a s := by
  cases x with
  | ok a => simp [Ensures, checked]
  | error e => simp [Ensures, checked]

theorem ensures_ite {granted : α → Session ρ → Prop} {c : Prop} [Decidable c]
    {x y : Request ε ρ α} :
    Ensures (if c then x else y) s granted refused ↔
      (c → Ensures x s granted refused) ∧ (¬ c → Ensures y s granted refused) := by
  by_cases hc : c
  · simp [hc]
  · simp [hc]

theorem Ensures.mono {granted granted' : α → Session ρ → Prop} {refused' : ε → Session ρ → Prop}
    {x : Request ε ρ α} (h : Ensures x s granted refused)
    (hgranted : ∀ a t, granted a t → granted' a t) (hrefused : ∀ e t, refused e t → refused' e t) :
    Ensures x s granted' refused' := by
  revert h
  simp only [Ensures]
  cases x s with
  | ok a t => exact hgranted a t
  | error e t => exact hrefused e t

end Rules

/-- The rows after a request, from what it ensures. -/
theorem perform_of_ensures {x : Request ε ρ α} {rows : ρ} {P : ρ → Except ε α → Prop}
    (h : Ensures x ⟨rows, rows⟩ (fun a t => P t.committed (.ok a))
      fun e t => P t.committed (.error e)) :
    P (perform x rows).1 (perform x rows).2 := by
  revert h
  simp only [Ensures, perform]
  cases x ⟨rows, rows⟩ with
  | ok a t => exact id
  | error e t => exact id

end Request
end Sessions
