import Mathlib.Data.Option.Basic
import Mathlib.Logic.Function.Basic

/-!
A limit on what is granted in a window of time, kept as a counter that expires: the caller counts
itself first, and is granted what it asks for if the count has not passed the limit. A counter
belongs to one window; it may expire once the window is over, or stay for good.
-/

namespace Window

universe u
variable {κ : Type u} [DecidableEq κ]

structure Counter where
  count : Nat
  expiresAt : Option Int := none
deriving DecidableEq

/-- The counters that were ever made; one that has expired is made anew at its next use. -/
abbrev Counters (κ : Type u) := κ → Option Counter

def Counter.expired (c : Counter) (now : Int) : Bool :=
  c.expiresAt.any (· ≤ now)

/-- The counter that the next use at `now` counts on. -/
def live (counters : Counters κ) (now : Int) (k : κ) : Counter :=
  match counters k with
  | some c => if c.expired now then ⟨0, none⟩ else c
  | none => ⟨0, none⟩

def count (counters : Counters κ) (now : Int) (k : κ) : Nat :=
  (live counters now k).count

/-- `INCR`; the new count is what `count` then says. -/
def incr (counters : Counters κ) (now : Int) (k : κ) : Counters κ :=
  let c := live counters now k
  Function.update counters k (some { c with count := c.count + 1 })

/-- `EXPIRE`, which does nothing without the key. -/
def expire (counters : Counters κ) (k : κ) (time : Int) : Counters κ :=
  Function.update counters k ((counters k).map fun c => { c with expiresAt := some time })

variable {counters : Counters κ} {now t : Int} {k : κ} {ends : κ → Int} {limit : κ → Nat}
  {granted : κ → Nat}

/-- The counters of windows that end at `ends`, of each of which so many uses were granted. -/
structure Kept (ends : κ → Int) (limit granted : κ → Nat) (counters : Counters κ) : Prop where
  bounded : ∀ k, granted k ≤ limit k
  counted : ∀ k, granted k ≤ ((counters k).getD ⟨0, none⟩).count
  outlasts : ∀ k c, counters k = some c → ∀ t ∈ c.expiresAt, ends k ≤ t

omit [DecidableEq κ] in
theorem Kept.initial : Kept ends limit (fun _ => 0) (fun _ => none) :=
  ⟨fun _ => Nat.zero_le _, fun _ => Nat.zero_le _, fun _ _ h => by cases h⟩

omit [DecidableEq κ] in
/-- Within its window a counter has not expired. -/
theorem Kept.live_eq (h : Kept ends limit granted counters) (hnow : now < ends k) :
    live counters now k = (counters k).getD ⟨0, none⟩ := by
  rw [live]
  cases hk : counters k with
  | none => rfl
  | some c =>
      have hexpired : c.expired now = false := by
        rw [Counter.expired, Option.any_eq_false]
        intro t ht
        have hends := h.outlasts k c hk t ht
        exact decide_eq_false (by omega)
      simp [hexpired]

omit [DecidableEq κ] in
theorem Kept.granted_le_count (h : Kept ends limit granted counters) (hnow : now < ends k) :
    granted k ≤ count counters now k := by
  rw [count, h.live_eq hnow]
  exact h.counted k

/-- The counter after its use in the window. -/
theorem Kept.incr_self (h : Kept ends limit granted counters) (hnow : now < ends k) :
    incr counters now k k = some { (counters k).getD ⟨0, none⟩ with
      count := count counters now k + 1 } := by
  rw [incr, Function.update_self, count, h.live_eq hnow]

theorem incr_of_ne {j : κ} (hne : j ≠ k) : incr counters now k j = counters j :=
  Function.update_of_ne hne _ _

theorem Kept.outlasts_incr (h : Kept ends limit granted counters) (hnow : now < ends k) :
    ∀ j c, incr counters now k j = some c → ∀ t ∈ c.expiresAt, ends j ≤ t := by
  intro j c hc t ht
  by_cases hj : j = k
  · subst hj
    rw [h.incr_self hnow, Option.some_inj] at hc
    subst hc
    cases hk : counters j with
    | none => simp [hk] at ht
    | some c => exact h.outlasts j c hk t (by simpa [hk] using ht)
  · rw [incr_of_ne hj] at hc
    exact h.outlasts j c hc t ht

/-- A use that is counted and refused. -/
theorem Kept.incr (h : Kept ends limit granted counters) (hnow : now < ends k) :
    Kept ends limit granted (incr counters now k) := by
  refine ⟨h.bounded, fun j => ?_, h.outlasts_incr hnow⟩
  by_cases hj : j = k
  · subst hj
    rw [h.incr_self hnow]
    exact Nat.le_succ_of_le (h.granted_le_count hnow)
  · rw [incr_of_ne hj]
    exact h.counted j

/-- A use that is granted, as with it the count does not pass the limit. -/
theorem Kept.grant (h : Kept ends limit granted counters) (hnow : now < ends k)
    (hlimit : count counters now k < limit k) :
    Kept ends limit (Function.update granted k (granted k + 1)) (Window.incr counters now k) := by
  have hcount := h.granted_le_count hnow
  refine ⟨fun j => ?_, fun j => ?_, h.outlasts_incr hnow⟩
  · by_cases hj : j = k
    · subst hj
      rw [Function.update_self]
      exact Nat.succ_le_of_lt (Nat.lt_of_le_of_lt hcount hlimit)
    · rw [Function.update_of_ne hj]
      exact h.bounded j
  · by_cases hj : j = k
    · subst hj
      rw [Function.update_self, h.incr_self hnow]
      exact Nat.succ_le_succ hcount
    · rw [Function.update_of_ne hj, incr_of_ne hj]
      exact h.counted j

theorem Kept.expire (h : Kept ends limit granted counters) (ht : ends k ≤ t) :
    Kept ends limit granted (Window.expire counters k t) := by
  have hself : Window.expire counters k t k =
      (counters k).map fun c => { c with expiresAt := some t } := Function.update_self ..
  have hother : ∀ j, j ≠ k → Window.expire counters k t j = counters j := fun j hj =>
    Function.update_of_ne hj _ _
  refine ⟨h.bounded, fun j => ?_, fun j c hc t' ht' => ?_⟩
  · have hcounted := h.counted j
    by_cases hj : j = k
    · subst hj
      rw [hself]
      cases hk : counters j with
      | none => simpa [hk] using hcounted
      | some c => simpa [hk] using hcounted
    · rw [hother j hj]
      exact hcounted
  · by_cases hj : j = k
    · subst hj
      rw [hself] at hc
      obtain ⟨old, -, rfl⟩ := Option.map_eq_some_iff.mp hc
      obtain rfl : t = t' := by simpa using ht'
      exact ht
    · rw [hother j hj] at hc
      exact h.outlasts j c hc t' ht'

/-! ### Uses -/

/-- No counter is ahead of the uses of its window. -/
def Drawn (drawn : κ → Nat) (counters : Counters κ) : Prop :=
  ∀ k c, counters k = some c → c.count ≤ drawn k

variable {drawn : κ → Nat}

omit [DecidableEq κ] in
theorem Drawn.count_le (h : Drawn drawn counters) (now : Int) (k : κ) :
    count counters now k ≤ drawn k := by
  rw [count, live]
  cases hk : counters k with
  | none => exact Nat.zero_le _
  | some c =>
      dsimp only
      split
      · exact Nat.zero_le _
      · exact h k c hk

theorem Drawn.incr (h : Drawn drawn counters) (now : Int) (k : κ) :
    Drawn (Function.update drawn k (drawn k + 1)) (Window.incr counters now k) := by
  intro j c hc
  by_cases hj : j = k
  · subst hj
    rw [Window.incr, Function.update_self, Option.some_inj] at hc
    subst hc
    rw [Function.update_self]
    exact Nat.succ_le_succ (h.count_le now j)
  · rw [incr_of_ne hj] at hc
    rw [Function.update_of_ne hj]
    exact h j c hc

theorem Drawn.expire (h : Drawn drawn counters) (k : κ) (t : Int) :
    Drawn drawn (Window.expire counters k t) := by
  intro j c hc
  by_cases hj : j = k
  · subst hj
    rw [Window.expire, Function.update_self] at hc
    obtain ⟨old, hold, rfl⟩ := Option.map_eq_some_iff.mp hc
    exact h j old hold
  · rw [Window.expire, Function.update_of_ne hj] at hc
    exact h j c hc

/-! ### Without a failure -/

/-- Every use of a window was counted, and granted as long as the limit lasted. -/
structure Exact (limit granted drawn : κ → Nat) (counters : Counters κ) : Prop where
  counted : ∀ k, ((counters k).getD ⟨0, none⟩).count = drawn k
  granted_eq : ∀ k, granted k = min (limit k) (drawn k)

omit [DecidableEq κ] in
theorem Exact.initial : Exact limit (fun _ => 0) (fun _ => 0) (fun _ => none) :=
  ⟨fun _ => rfl, fun _ => (Nat.min_zero _).symm⟩

theorem Exact.counted_incr (h : Exact limit granted drawn counters)
    (hkept : Kept ends limit granted counters) (hnow : now < ends k) (j : κ) :
    ((Window.incr counters now k j).getD ⟨0, none⟩).count =
      Function.update drawn k (drawn k + 1) j := by
  by_cases hj : j = k
  · subst hj
    rw [hkept.incr_self hnow, Function.update_self, count, hkept.live_eq hnow, ← h.counted j]
    rfl
  · rw [incr_of_ne hj, Function.update_of_ne hj]
    exact h.counted j

omit [DecidableEq κ] in
theorem Exact.count_eq (h : Exact limit granted drawn counters)
    (hkept : Kept ends limit granted counters) (hnow : now < ends k) :
    count counters now k = drawn k := by
  rw [count, hkept.live_eq hnow]
  exact h.counted k

theorem Exact.incr (h : Exact limit granted drawn counters)
    (hkept : Kept ends limit granted counters) (hnow : now < ends k)
    (hlimit : limit k ≤ count counters now k) :
    Exact limit granted (Function.update drawn k (drawn k + 1)) (Window.incr counters now k) := by
  rw [h.count_eq hkept hnow] at hlimit
  refine ⟨h.counted_incr hkept hnow, fun j => ?_⟩
  by_cases hj : j = k
  · subst hj
    rw [Function.update_self, h.granted_eq, Nat.min_eq_left hlimit,
      Nat.min_eq_left (Nat.le_succ_of_le hlimit)]
  · rw [Function.update_of_ne hj]
    exact h.granted_eq j

theorem Exact.grant (h : Exact limit granted drawn counters)
    (hkept : Kept ends limit granted counters) (hnow : now < ends k)
    (hlimit : count counters now k < limit k) :
    Exact limit (Function.update granted k (granted k + 1))
      (Function.update drawn k (drawn k + 1)) (Window.incr counters now k) := by
  rw [h.count_eq hkept hnow] at hlimit
  refine ⟨h.counted_incr hkept hnow, fun j => ?_⟩
  by_cases hj : j = k
  · subst hj
    rw [Function.update_self, Function.update_self, h.granted_eq,
      Nat.min_eq_right (Nat.le_of_lt hlimit), Nat.min_eq_right hlimit]
  · rw [Function.update_of_ne hj, Function.update_of_ne hj]
    exact h.granted_eq j

theorem Exact.expire (h : Exact limit granted drawn counters) (t : Int) :
    Exact limit granted drawn (Window.expire counters k t) := by
  refine ⟨fun j => ?_, h.granted_eq⟩
  have hcounted := h.counted j
  by_cases hj : j = k
  · subst hj
    rw [Window.expire, Function.update_self]
    cases hk : counters j with
    | none => simpa [hk] using hcounted
    | some c => simpa [hk] using hcounted
  · rw [Window.expire, Function.update_of_ne hj]
    exact hcounted

end Window
