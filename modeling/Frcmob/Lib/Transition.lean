import Mathlib.Data.List.Basic

/-!
Labelled transition systems, the states their runs reach, and runs all of whose
steps meet a condition. Nothing here depends on a particular system: a program
is modelled by its start states and its partial step function, and safety is
proved once per step.
-/

namespace Transition

universe u v
variable {σ : Type u} {α : Type v}

/-- A system: `step s a = none` says that `a` cannot happen in `s`. -/
structure System (σ : Type u) (α : Type v) where
  start : σ → Prop
  step : σ → α → Option σ

/-- States reached by runs whose every step meets `ok`. -/
inductive ReachableWhen (S : System σ α) (ok : σ → α → Prop) : σ → Prop where
  | start {s : σ} : S.start s → ReachableWhen S ok s
  | next {s t : σ} {a : α} :
      ReachableWhen S ok s → ok s a → S.step s a = some t → ReachableWhen S ok t

def Reachable (S : System σ α) : σ → Prop :=
  ReachableWhen S fun _ _ => True

/-- The step rule: what the start states have and every allowed step keeps holds
in every state reached. -/
theorem ReachableWhen.invariant {S : System σ α} {ok : σ → α → Prop} {P : σ → Prop}
    (hstart : ∀ s, S.start s → P s)
    (hstep : ∀ s a t, P s → ok s a → S.step s a = some t → P t)
    {s : σ} (h : ReachableWhen S ok s) : P s := by
  induction h with
  | start h0 => exact hstart _ h0
  | next _ hok hs ih => exact hstep _ _ _ ih hok hs

theorem ReachableWhen.mono {S : System σ α} {ok ok' : σ → α → Prop}
    (himp : ∀ s a, ok s a → ok' s a) {s : σ} (h : ReachableWhen S ok s) :
    ReachableWhen S ok' s := by
  induction h with
  | start h0 => exact .start h0
  | next _ hok hs ih => exact .next ih (himp _ _ hok) hs

theorem ReachableWhen.reachable {S : System σ α} {ok : σ → α → Prop} {s : σ}
    (h : ReachableWhen S ok s) : Reachable S s :=
  h.mono fun _ _ _ => True.intro

/-- `t` is reached from `s` by steps that all meet `ok`. -/
inductive Steps (S : System σ α) (ok : σ → α → Prop) (s : σ) : σ → Prop where
  | refl : Steps S ok s s
  | tail {t u : σ} {a : α} :
      Steps S ok s t → ok t a → S.step t a = some u → Steps S ok s u

/-- What holds now and survives every allowed step holds ever after. -/
theorem Steps.keeps {S : System σ α} {ok : σ → α → Prop} {P : σ → Prop}
    (hstep : ∀ t a u, P t → ok t a → S.step t a = some u → P u)
    {s t : σ} (h : Steps S ok s t) (hs : P s) : P t := by
  induction h with
  | refl => exact hs
  | tail _ hok hst ih => exact hstep _ _ _ ih hok hst

/-- Run a list of actions; `none` as soon as one of them cannot happen. -/
def System.run (S : System σ α) : σ → List α → Option σ
  | s, [] => some s
  | s, a :: as => (S.step s a).bind fun t => S.run t as

/-- Every step of the run meets `ok` in the state it is taken in. -/
def System.RunMeets (S : System σ α) (ok : σ → α → Prop) : σ → List α → Prop
  | _, [] => True
  | s, a :: as => ok s a ∧ ∀ t, S.step s a = some t → S.RunMeets ok t as

instance System.decidableRunMeets (S : System σ α) (ok : σ → α → Prop)
    [∀ s a, Decidable (ok s a)] : ∀ s as, Decidable (S.RunMeets ok s as)
  | _, [] => isTrue True.intro
  | s, a :: as =>
      have ih := fun t => System.decidableRunMeets S ok t as
      match h : S.step s a with
      | none => decidable_of_iff (ok s a) (by simp [System.RunMeets, h])
      | some t => have := ih t
          decidable_of_iff (ok s a ∧ S.RunMeets ok t as) (by simp [System.RunMeets, h])

theorem reachableWhen_of_run {S : System σ α} {ok : σ → α → Prop} {s t : σ}
    (as : List α) (h : ReachableWhen S ok s) (meets : S.RunMeets ok s as)
    (hrun : S.run s as = some t) : ReachableWhen S ok t := by
  induction as generalizing s with
  | nil =>
      simp only [System.run, Option.some.injEq] at hrun
      exact hrun ▸ h
  | cons a as ih =>
      simp only [System.run, Option.bind_eq_some_iff] at hrun
      obtain ⟨u, hu, hrest⟩ := hrun
      exact ih (.next h meets.1 hu) (meets.2 u hu) hrest

theorem System.runMeets_true (S : System σ α) (s : σ) (as : List α) :
    S.RunMeets (fun _ _ => True) s as := by
  induction as generalizing s with
  | nil => exact True.intro
  | cons a as ih => exact ⟨True.intro, fun t _ => ih t⟩

theorem reachable_of_run {S : System σ α} {s t : σ} (as : List α)
    (h : S.start s) (hrun : S.run s as = some t) : Reachable S t :=
  reachableWhen_of_run as (.start h) (S.runMeets_true s as) hrun

/-- A loop as a left fold, each of whose rounds meets `ok` in the state it starts in. -/
def FoldMeets (f : σ → α → σ) (ok : σ → α → Prop) : σ → List α → Prop
  | _, [] => True
  | s, a :: as => ok s a ∧ FoldMeets f ok (f s a) as

instance decidableFoldMeets (f : σ → α → σ) (ok : σ → α → Prop)
    [∀ s a, Decidable (ok s a)] : ∀ s as, Decidable (FoldMeets f ok s as)
  | _, [] => isTrue True.intro
  | s, a :: as =>
      have := decidableFoldMeets f ok (f s a) as
      inferInstanceAs (Decidable (ok s a ∧ FoldMeets f ok (f s a) as))

/-- The loop rule: an invariant that every allowed round keeps holds after the loop. -/
theorem foldl_invariant {f : σ → α → σ} {ok : σ → α → Prop} {Inv : σ → Prop}
    (hstep : ∀ s a, Inv s → ok s a → Inv (f s a)) {as : List α} {s : σ}
    (hs : Inv s) (hok : FoldMeets f ok s as) : Inv (as.foldl f s) := by
  induction as generalizing s with
  | nil => exact hs
  | cons a as ih => exact ih (hstep s a hs hok.1) hok.2

theorem foldMeets_of_forall {f : σ → α → σ} {p : α → Prop} {as : List α}
    (h : ∀ a ∈ as, p a) (s : σ) : FoldMeets f (fun _ a => p a) s as := by
  induction as generalizing s with
  | nil => exact True.intro
  | cons a as ih =>
      exact ⟨h a List.mem_cons_self, ih (fun b hb => h b (List.mem_cons_of_mem _ hb)) (f s a)⟩

theorem foldMeets_true (f : σ → α → σ) (s : σ) (as : List α) :
    FoldMeets f (fun _ _ => True) s as := by
  induction as generalizing s with
  | nil => exact True.intro
  | cons a as ih => exact ⟨True.intro, ih (f s a)⟩

theorem foldl_keeps {f : σ → α → σ} {Inv : σ → Prop}
    (hstep : ∀ s a, Inv s → Inv (f s a)) (as : List α) {s : σ} (hs : Inv s) :
    Inv (as.foldl f s) :=
  foldl_invariant (fun s a h _ => hstep s a h) hs (foldMeets_true f s as)

/-- The loop rule with the elements of the rounds so far. -/
theorem foldl_rounds {f : σ → α → σ} {Inv : List α → σ → Prop} {as : List α} {s : σ}
    (hs : Inv [] s)
    (hstep : ∀ before a after s, as = before ++ a :: after → Inv before s →
      Inv (before ++ [a]) (f s a)) : Inv as (as.foldl f s) := by
  have hrest : ∀ rest before s, as = before ++ rest → Inv before s → Inv as (rest.foldl f s) := by
    intro rest
    induction rest with
    | nil =>
        intro before s heq hinv
        rw [heq, List.append_nil]
        exact hinv
    | cons a rest ih =>
        intro before s heq hinv
        apply ih (before ++ [a])
        · rw [heq, List.append_assoc]
          rfl
        · exact hstep before a rest s heq hinv
  exact hrest as [] s rfl hs

/-- The rule of a loop that counts up from `start`. -/
theorem foldl_range' {f : σ → Nat → σ} {Inv : Nat → σ → Prop} {start n : Nat} {s : σ}
    (hstart : Inv 0 s) (hstep : ∀ k < n, ∀ t, Inv k t → Inv (k + 1) (f t (start + k))) :
    Inv n ((List.range' start n).foldl f s) := by
  induction n with
  | zero => exact hstart
  | succ n ih =>
      rw [List.range'_1_concat, List.foldl_append]
      exact hstep n n.lt_succ_self _ (ih fun k hk => hstep k (Nat.lt_succ_of_lt hk))

end Transition
