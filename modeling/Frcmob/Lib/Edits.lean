import Mathlib.Data.List.Basic
import Mathlib.Order.Bounds.Basic
import Mathlib.Order.MinMax

/-!
Insertions, deletions and substitutions in a list, and the least number of them that turns one
list into another. The recursion on both lists finds that number: one edit changes what it gives
by at most one.
-/

namespace EditDistance

universe u
variable {α : Type u} {a b c : List α} {n : Nat}

inductive Edit : List α → List α → Prop
  | insert (l r : List α) (x : α) : Edit (l ++ r) (l ++ x :: r)
  | delete (l r : List α) (x : α) : Edit (l ++ x :: r) (l ++ r)
  | substitute (l r : List α) (x y : α) : Edit (l ++ x :: r) (l ++ y :: r)

/-- `n` edits one after another. -/
inductive Edits : Nat → List α → List α → Prop
  | refl (a : List α) : Edits 0 a a
  | step {n : Nat} {a b c : List α} : Edit a b → Edits n b c → Edits (n + 1) a c

theorem Edit.cons (h : Edit a b) (x : α) : Edit (x :: a) (x :: b) := by
  cases h with
  | insert l r y => exact .insert (x :: l) r y
  | delete l r y => exact .delete (x :: l) r y
  | substitute l r y z => exact .substitute (x :: l) r y z

theorem Edit.reverse (h : Edit a b) : Edit a.reverse b.reverse := by
  cases h with
  | insert l r x =>
      have hedit := Edit.insert r.reverse l.reverse x
      simpa using hedit
  | delete l r x =>
      have hedit := Edit.delete r.reverse l.reverse x
      simpa using hedit
  | substitute l r x y =>
      have hedit := Edit.substitute r.reverse l.reverse x y
      simpa using hedit

theorem Edits.cons (h : Edits n a b) (x : α) : Edits n (x :: a) (x :: b) := by
  induction h with
  | refl a => exact .refl _
  | step hedit _ ih => exact .step (hedit.cons x) ih

theorem Edits.reverse (h : Edits n a b) : Edits n a.reverse b.reverse := by
  induction h with
  | refl a => exact .refl _
  | step hedit _ ih => exact .step hedit.reverse ih

theorem Edits.length_le (h : Edits n a b) : a.length ≤ b.length + n ∧ b.length ≤ a.length + n := by
  induction h with
  | refl a => exact ⟨le_rfl, le_rfl⟩
  | step hedit _ ih =>
      cases hedit <;> simp only [List.length_append, List.length_cons] at ih ⊢ <;> omega

section
variable [DecidableEq α]

/-- Whether the last characters have to be edited. -/
def mismatch (x y : α) : Nat :=
  if x = y then 0 else 1

def distance : List α → List α → Nat
  | [], b => b.length
  | a, [] => a.length
  | x :: a, y :: b =>
      min (min (distance a (y :: b) + 1) (distance (x :: a) b + 1)) (distance a b + mismatch x y)

@[simp] theorem distance_nil_left (b : List α) : distance [] b = b.length := by
  rw [distance]

@[simp] theorem distance_nil_right (a : List α) : distance a [] = a.length := by
  cases a with
  | nil => rw [distance]
  | cons x a =>
      rw [distance]
      exact List.cons_ne_nil x a

theorem distance_cons_cons (x y : α) (a b : List α) : distance (x :: a) (y :: b) =
    min (min (distance a (y :: b) + 1) (distance (x :: a) b + 1)) (distance a b + mismatch x y) := by
  rw [distance]

theorem mismatch_le (x y : α) : mismatch x y ≤ 1 := by
  rw [mismatch]
  split <;> omega

theorem distance_self (a : List α) : distance a a = 0 := by
  induction a with
  | nil => simp
  | cons x a ih => simp [distance_cons_cons, ih, mismatch]

/-! ### As many edits are enough -/

omit [DecidableEq α] in
theorem edits_from_nil (b : List α) : Edits b.length [] b := by
  induction b with
  | nil => exact .refl []
  | cons y b ih => exact .step (.insert [] [] y) (ih.cons y)

omit [DecidableEq α] in
theorem edits_to_nil (a : List α) : Edits a.length a [] := by
  induction a with
  | nil => exact .refl []
  | cons x a ih => exact .step (.delete [] a x) ih

theorem edits_cons_cons {n : Nat} (x y : α) (h : Edits n a b) :
    Edits (n + mismatch x y) (x :: a) (y :: b) := by
  by_cases hxy : x = y
  · rw [mismatch, if_pos hxy, hxy]
    exact h.cons y
  · rw [mismatch, if_neg hxy]
    exact .step (.substitute [] a x y) (h.cons y)

theorem edits_distance (a b : List α) : Edits (distance a b) a b := by
  fun_induction distance a b with
  | case1 b => exact edits_from_nil b
  | case2 a => exact edits_to_nil a
  | case3 x a y b hdelete hinsert hboth =>
      rcases min_choice (min (distance a (y :: b) + 1) (distance (x :: a) b + 1))
        (distance a b + mismatch x y) with hmin | hmin
      · rw [hmin]
        rcases min_choice (distance a (y :: b) + 1) (distance (x :: a) b + 1) with hmin | hmin
        · rw [hmin]
          exact .step (.delete [] a x) hdelete
        · rw [hmin]
          exact .step (.insert [] (x :: a) y) (hinsert.cons y)
      · rw [hmin]
        exact edits_cons_cons x y hboth

/-! ### No fewer are -/

theorem distance_cons_le_left (x : α) (a c : List α) : distance (x :: a) c ≤ distance a c + 1 := by
  cases c with
  | nil => simp
  | cons y c =>
      rw [distance_cons_cons]
      omega

theorem distance_cons_le_right (y : α) (a c : List α) : distance a (y :: c) ≤ distance a c + 1 := by
  cases a with
  | nil => simp
  | cons x a =>
      rw [distance_cons_cons]
      omega

theorem distance_le_cons (x : α) (a c : List α) : distance a c ≤ distance (x :: a) c + 1 := by
  induction c with
  | nil =>
      simp
      omega
  | cons y c ih =>
      have hright := distance_cons_le_right y a c
      rw [distance_cons_cons]
      omega

theorem distance_substitute_le (x y : α) (a c : List α) :
    distance (x :: a) c ≤ distance (y :: a) c + 1 := by
  induction c with
  | nil => simp
  | cons z c ih =>
      have hleft := distance_cons_le_left x a (z :: c)
      have hright := distance_cons_le_right z (x :: a) c
      have hboth := distance_cons_le_left x a c
      rw [distance_cons_cons y]
      have hx := distance_cons_cons x z a c
      have hmismatch := mismatch_le x z
      omega

theorem distance_cons_cons_le (z : α) (h : ∀ c, distance a c ≤ distance b c + 1) (c : List α) :
    distance (z :: a) c ≤ distance (z :: b) c + 1 := by
  induction c with
  | nil =>
      have hnil := h []
      simp only [distance_nil_right, List.length_cons] at hnil ⊢
      omega
  | cons y c ih =>
      have hboth := h c
      have hleft := h (y :: c)
      rw [distance_cons_cons, distance_cons_cons]
      omega

theorem Edit.distance_le (h : Edit a b) (c : List α) : distance a c ≤ distance b c + 1 := by
  have hprefix : ∀ (l a b : List α), (∀ c, distance a c ≤ distance b c + 1) →
      ∀ c, distance (l ++ a) c ≤ distance (l ++ b) c + 1 := by
    intro l a b hab
    induction l with
    | nil => exact hab
    | cons z l ih => exact distance_cons_cons_le z ih
  cases h with
  | insert l r x => exact hprefix l _ _ (distance_le_cons x r) c
  | delete l r x => exact hprefix l _ _ (distance_cons_le_left x r) c
  | substitute l r x y => exact hprefix l _ _ (distance_substitute_le x y r) c

theorem Edits.distance_le (h : Edits n a b) : distance a b ≤ n := by
  induction h with
  | refl a => exact (distance_self a).le
  | step hedit _ ih => exact (hedit.distance_le _).trans (Nat.succ_le_succ ih)

theorem isLeast_distance (a b : List α) : IsLeast {n | Edits n a b} (distance a b) :=
  ⟨edits_distance a b, fun _ h => h.distance_le⟩

/-- The recursion may as well take the lists from their ends. -/
theorem distance_reverse (a b : List α) : distance a.reverse b.reverse = distance a b := by
  have hle : ∀ a b : List α, distance a.reverse b.reverse ≤ distance a b :=
    fun a b => (edits_distance a b).reverse.distance_le
  refine le_antisymm (hle a b) ?_
  have hback := hle a.reverse b.reverse
  rwa [List.reverse_reverse, List.reverse_reverse] at hback

end

end EditDistance
