import Mathlib.Data.List.Nodup
import Mathlib.Data.List.Perm.Basic

/-!
Chains of successors. Where each element has at most one predecessor and successors only go
forward in a strict order, the chains from the elements without a predecessor split them all.
-/

namespace Successors

universe u
variable {ι : Type u} {next : ι → Option ι} {ids : List ι} {lt : ι → ι → Prop} {a b x y : ι}

structure Forward (ids : List ι) (next : ι → Option ι) (lt : ι → ι → Prop) : Prop where
  nodup : ids.Nodup
  trans : ∀ {a b c}, lt a b → lt b c → lt a c
  irrefl : ∀ a, ¬ lt a a
  step : ∀ {a b}, next a = some b → lt a b
  mem : ∀ {a b}, next a = some b → a ∈ ids ∧ b ∈ ids
  injective : ∀ {a b c}, next a = some c → next b = some c → a = b

/-- `n` successors on. -/
def steps (next : ι → Option ι) : Nat → ι → Option ι
  | 0, a => some a
  | n + 1, a => (next a).bind (steps next n)

/-- The chain from here on, cut after `n` elements. -/
def follow (next : ι → Option ι) : Nat → Option ι → List ι
  | 0, _ | _, none => []
  | n + 1, some x => x :: follow next n (next x)

theorem steps_concat (n : Nat) (a : ι) : steps next (n + 1) a = (steps next n a).bind next := by
  induction n generalizing a with
  | zero => simp [steps]
  | succ n ih =>
      rw [steps]
      cases hb : next a with
      | none => simp [steps, hb]
      | some b => simp only [steps, hb, Option.bind_some] at ih ⊢; exact ih b

theorem mem_follow {n : Nat} {cur : Option ι} :
    x ∈ follow next n cur ↔ ∃ k, k < n ∧ cur.bind (steps next k) = some x := by
  induction n generalizing cur with
  | zero => simp [follow]
  | succ n ih =>
      cases cur with
      | none => simp [follow]
      | some a =>
          rw [follow, List.mem_cons, ih]
          constructor
          · rintro (rfl | ⟨k, hk, hsteps⟩)
            · exact ⟨0, Nat.succ_pos n, rfl⟩
            · exact ⟨k + 1, Nat.succ_lt_succ hk, hsteps⟩
          · rintro ⟨k, hk, hsteps⟩
            cases k with
            | zero => exact .inl (Option.some_inj.mp hsteps).symm
            | succ k => exact .inr ⟨k, Nat.lt_of_succ_lt_succ hk, hsteps⟩

namespace Forward

theorem lt_of_steps (h : Forward ids next lt) {n : Nat} (hsteps : steps next (n + 1) a = some x) :
    lt a x := by
  induction n generalizing x with
  | zero =>
      obtain ⟨b, hb, hx⟩ := Option.bind_eq_some_iff.mp hsteps
      rw [← Option.some_inj.mp hx]
      exact h.step hb
  | succ n ih =>
      rw [steps_concat] at hsteps
      obtain ⟨b, hb, hx⟩ := Option.bind_eq_some_iff.mp hsteps
      exact h.trans (ih hb) (h.step hx)

theorem pairwise_follow (h : Forward ids next lt) (n : Nat) (cur : Option ι) :
    (follow next n cur).Pairwise lt := by
  induction n generalizing cur with
  | zero => exact .nil
  | succ n ih =>
      cases cur with
      | none => exact .nil
      | some a =>
          refine List.pairwise_cons.mpr ⟨?_, ih (next a)⟩
          intro x hx
          obtain ⟨k, -, hsteps⟩ := mem_follow.mp hx
          exact h.lt_of_steps hsteps

theorem nodup_follow (h : Forward ids next lt) (n : Nat) (cur : Option ι) :
    (follow next n cur).Nodup := by
  apply (h.pairwise_follow n cur).imp
  rintro a _ hlt rfl
  exact h.irrefl a hlt

theorem steps_mem (h : Forward ids next lt) {n : Nat} (ha : a ∈ ids)
    (hsteps : steps next n a = some x) : x ∈ ids := by
  cases n with
  | zero =>
      rw [← Option.some_inj.mp hsteps]
      exact ha
  | succ n =>
      rw [steps_concat] at hsteps
      obtain ⟨b, -, hx⟩ := Option.bind_eq_some_iff.mp hsteps
      exact (h.mem hx).2

theorem follow_subset (h : Forward ids next lt) (n : Nat) (ha : a ∈ ids) :
    follow next n (some a) ⊆ ids := by
  intro x hx
  obtain ⟨k, -, hsteps⟩ := mem_follow.mp hx
  exact h.steps_mem ha hsteps

/-- What is `n` steps on stands behind a chain of `n` others. -/
theorem lt_length (h : Forward ids next lt) {n : Nat} (ha : a ∈ ids)
    (hsteps : steps next n a = some x) : n < ids.length := by
  have hlength : ∀ (n : Nat) (a : ι), steps next n a = some x →
      (follow next (n + 1) (some a)).length = n + 1 := by
    intro n
    induction n with
    | zero => exact fun _ _ => rfl
    | succ n ih =>
        intro a hsteps
        obtain ⟨b, hb, hrest⟩ := Option.bind_eq_some_iff.mp hsteps
        rw [follow, List.length_cons, hb, ih b hrest]
  have hle := (List.subperm_of_subset (h.nodup_follow (n + 1) (some a))
    (h.follow_subset (n + 1) ha)).length_le
  rw [hlength n a hsteps] at hle
  exact hle

/-- Going back from an element ends at one without a predecessor. -/
theorem exists_root (h : Forward ids next lt) (hx : x ∈ ids) :
    ∃ r ∈ ids, (∀ b, next b ≠ some r) ∧ ∃ n, steps next n r = some x := by
  by_contra hnone
  have hback : ∀ n, ∃ a ∈ ids, steps next n a = some x := by
    intro n
    induction n with
    | zero => exact ⟨x, hx, rfl⟩
    | succ n ih =>
        obtain ⟨a, ha, hsteps⟩ := ih
        have hpred : ∃ b, next b = some a := by
          by_contra hroot
          exact hnone ⟨a, ha, fun b hb => hroot ⟨b, hb⟩, n, hsteps⟩
        obtain ⟨b, hb⟩ := hpred
        refine ⟨b, (h.mem hb).1, ?_⟩
        rw [steps, hb]
        exact hsteps
  obtain ⟨a, ha, hsteps⟩ := hback ids.length
  exact Nat.lt_irrefl _ (h.lt_length ha hsteps)

theorem root_unique (h : Forward ids next lt) {n m : Nat} (ha : ∀ c, next c ≠ some a)
    (hb : ∀ c, next c ≠ some b) (han : steps next n a = some x) (hbm : steps next m b = some x) :
    a = b := by
  induction n generalizing m x with
  | zero =>
      obtain rfl := Option.some_inj.mp han
      cases m with
      | zero => exact (Option.some_inj.mp hbm).symm
      | succ m =>
          rw [steps_concat] at hbm
          obtain ⟨c, -, hc⟩ := Option.bind_eq_some_iff.mp hbm
          exact absurd hc (ha c)
  | succ n ih =>
      rw [steps_concat] at han
      obtain ⟨c, hc, hx⟩ := Option.bind_eq_some_iff.mp han
      cases m with
      | zero =>
          obtain rfl := Option.some_inj.mp hbm
          exact absurd hx (hb c)
      | succ m =>
          rw [steps_concat] at hbm
          obtain ⟨d, hd, hx'⟩ := Option.bind_eq_some_iff.mp hbm
          rw [h.injective hx' hx] at hd
          exact ih hc hd

/-- The chains from the elements without a predecessor hold every element once. -/
theorem flatten_perm (h : Forward ids next lt) {p : ι → Bool}
    (hp : ∀ a, p a = true ↔ ∀ b, next b ≠ some a) {n : Nat} (hn : ids.length ≤ n) :
    ((ids.filter p).map fun a => follow next n (some a)).flatten.Perm ids := by
  refine (List.perm_ext_iff_of_nodup ?_ h.nodup).mpr fun x => ?_
  · rw [List.nodup_flatten, List.pairwise_map]
    constructor
    · intro l hl
      obtain ⟨a, -, rfl⟩ := List.mem_map.mp hl
      exact h.nodup_follow _ _
    · apply (h.nodup.filter p).imp_of_mem
      intro a b ha hb hne x hxa hxb
      obtain ⟨k, -, hk⟩ := mem_follow.mp hxa
      obtain ⟨l, -, hl⟩ := mem_follow.mp hxb
      exact hne (h.root_unique ((hp a).mp (List.mem_filter.mp ha).2)
        ((hp b).mp (List.mem_filter.mp hb).2) hk hl)
  · rw [List.mem_flatten]
    constructor
    · rintro ⟨l, hl, hx⟩
      obtain ⟨a, ha, rfl⟩ := List.mem_map.mp hl
      exact h.follow_subset _ (List.mem_filter.mp ha).1 hx
    · intro hx
      obtain ⟨r, hr, hroot, k, hsteps⟩ := h.exists_root hx
      exact ⟨_, List.mem_map_of_mem (List.mem_filter.mpr ⟨hr, (hp r).mpr hroot⟩),
        mem_follow.mpr ⟨k, Nat.lt_of_lt_of_le (h.lt_length hr hsteps) hn, hsteps⟩⟩

end Forward

end Successors
