import Mathlib.Data.List.TakeDrop

/-!
Runs of equal elements in two lists. The longest run that ends at a pair of places grows by one
from the pair before, where the elements agree; the longest of all is the longest block the
lists have in common, and a list has all of itself in common with itself.
-/

namespace CommonRuns

universe u

structure Block where
  i : Nat
  j : Nat
  k : Nat
  deriving DecidableEq

variable {α : Type u} {a b : List α} {m : Block} {i j : Nat}

/-- The `k` elements of `a` from `i` on are those of `b` from `j` on. -/
structure Block.Common (m : Block) (a b : List α) : Prop where
  left : m.i + m.k ≤ a.length
  right : m.j + m.k ≤ b.length
  same : (a.drop m.i).take m.k = (b.drop m.j).take m.k

theorem split_block (a : List α) (i k : Nat) :
    a = a.take i ++ (a.drop i).take k ++ a.drop (i + k) := by
  rw [← List.drop_drop, List.append_assoc, List.take_append_drop, List.take_append_drop]

/-- A block between what is found before it and what is found after it. -/
theorem sublist_of_parts {before after : List α} (k : Nat) (hbefore : before.Sublist (a.take i))
    (hafter : after.Sublist (a.drop (i + k))) :
    (before ++ (a.drop i).take k ++ after).Sublist a := by
  have hblock := List.Sublist.refl ((a.drop i).take k)
  have hparts := (hbefore.append hblock).append hafter
  rwa [← split_block] at hparts

section
variable [DecidableEq α]

/-- The length of the longest run that ends before `i` in `a` and before `j` in `b`. -/
def run (a b : List α) : Nat → Nat → Nat
  | i + 1, j + 1 => if a[i]? = b[j]? then run a b i j + 1 else 0
  | _, _ => 0

@[simp] theorem run_zero_left (a b : List α) (j : Nat) : run a b 0 j = 0 := by
  rw [run]
  simp

@[simp] theorem run_zero_right (a b : List α) (i : Nat) : run a b i 0 = 0 := by
  rw [run]
  simp

theorem run_succ_of_eq (h : a[i]? = b[j]?) : run a b (i + 1) (j + 1) = run a b i j + 1 := by
  rw [run, if_pos h]

theorem run_succ_of_ne (h : a[i]? ≠ b[j]?) : run a b (i + 1) (j + 1) = 0 := by
  rw [run, if_neg h]

theorem run_le (a b : List α) (i j : Nat) : run a b i j ≤ i ∧ run a b i j ≤ j := by
  induction i generalizing j with
  | zero => simp
  | succ i ih =>
      cases j with
      | zero => simp
      | succ j =>
          by_cases h : a[i]? = b[j]?
          · rw [run_succ_of_eq h]
            exact ⟨Nat.succ_le_succ (ih j).1, Nat.succ_le_succ (ih j).2⟩
          · rw [run_succ_of_ne h]
            omega

theorem run_self (a : List α) (i : Nat) : run a a i i = i := by
  induction i with
  | zero => rfl
  | succ i ih => rw [run_succ_of_eq rfl, ih]

def endingAt (i j k : Nat) : Block :=
  ⟨i - k, j - k, k⟩

theorem take_run (a b : List α) (i j : Nat) :
    (a.drop (i - run a b i j)).take (run a b i j) =
      (b.drop (j - run a b i j)).take (run a b i j) := by
  induction i generalizing j with
  | zero => simp
  | succ i ih =>
      cases j with
      | zero => simp
      | succ j =>
          by_cases h : a[i]? = b[j]?
          · obtain ⟨hi, hj⟩ := run_le a b i j
            rw [run_succ_of_eq h, Nat.add_sub_add_right, Nat.add_sub_add_right, List.take_add_one,
              List.take_add_one, ih j, List.getElem?_drop, List.getElem?_drop,
              Nat.sub_add_cancel hi, Nat.sub_add_cancel hj, h]
          · rw [run_succ_of_ne h]
            simp

theorem common_run (hi : i ≤ a.length) (hj : j ≤ b.length) :
    (endingAt i j (run a b i j)).Common a b := by
  obtain ⟨hrun, hrun'⟩ := run_le a b i j
  refine ⟨?_, ?_, take_run a b i j⟩
  · simp only [endingAt]
    omega
  · simp only [endingAt]
    omega

/-- No run is longer. -/
structure Block.Longest (m : Block) (a b : List α) : Prop extends m.Common a b where
  most : ∀ i ≤ a.length, ∀ j ≤ b.length, run a b i j ≤ m.k

theorem Block.Longest.self (h : m.Longest a a) : m = ⟨0, 0, a.length⟩ := by
  have hlong := h.most a.length a.length.le_refl a.length a.length.le_refl
  rw [run_self] at hlong
  have hleft := h.left
  have hright := h.right
  cases m
  simp only [Block.mk.injEq] at hlong hleft hright ⊢
  omega

end

end CommonRuns
