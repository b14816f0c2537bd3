import Mathlib.Data.List.Induction
import Mathlib.Data.List.Perm.Basic

/-!
Greedy selection from a list: an element is kept where it fits all that are kept so far.
-/

namespace Greedy

universe u
variable {α : Type u} {ok : α → α → Bool}

/-- `ok x k` says that `x` fits the kept `k`. -/
def select (ok : α → α → Bool) (xs : List α) : List α :=
  xs.foldl (fun kept x => if kept.all (ok x) then kept ++ [x] else kept) []

theorem select_concat (ok : α → α → Bool) (xs : List α) (x : α) :
    select ok (xs ++ [x]) =
      if (select ok xs).all (ok x) then select ok xs ++ [x] else select ok xs := by
  rw [select, List.foldl_append]
  rfl

theorem select_sublist (ok : α → α → Bool) (xs : List α) : (select ok xs).Sublist xs := by
  induction xs using List.reverseRecOn with
  | nil => exact .slnil
  | append_singleton xs x ih =>
      rw [select_concat]
      split
      · exact ih.append (.refl [x])
      · exact ih.trans (List.sublist_append_left xs [x])

/-- Every element fits those kept before it. -/
theorem pairwise_select (ok : α → α → Bool) (xs : List α) :
    (select ok xs).Pairwise fun k x => ok x k = true := by
  induction xs using List.reverseRecOn with
  | nil => exact .nil
  | append_singleton xs x ih =>
      rw [select_concat]
      split
      · rename_i hall
        rw [List.pairwise_append]
        refine ⟨ih, List.pairwise_singleton _ _, ?_⟩
        intro k hk y hy
        rw [List.mem_singleton.mp hy]
        exact List.all_eq_true.mp hall k hk
      · exact ih

/-- What is not kept does not fit an element that is kept and stands before it. -/
theorem exists_dropped {R : α → α → Prop} {xs : List α} (hR : xs.Pairwise R) :
    ∃ dropped, (select ok xs ++ dropped).Perm xs ∧
      ∀ x ∈ dropped, ∃ k ∈ select ok xs, R k x ∧ ok x k = false := by
  induction xs using List.reverseRecOn with
  | nil => exact ⟨[], .refl _, fun x hx => absurd hx List.not_mem_nil⟩
  | append_singleton xs x ih =>
      rw [List.pairwise_append] at hR
      obtain ⟨dropped, hperm, hdropped⟩ := ih hR.1
      rw [select_concat]
      split
      · refine ⟨dropped, ?_, fun y hy => ?_⟩
        · have hswap : (select ok xs ++ [x] ++ dropped).Perm (select ok xs ++ dropped ++ [x]) := by
            rw [List.append_assoc, List.append_assoc]
            exact List.perm_append_comm.append_left _
          exact hswap.trans (hperm.append_right [x])
        · obtain ⟨k, hk, hky⟩ := hdropped y hy
          exact ⟨k, List.mem_append_left _ hk, hky⟩
      · rename_i hall
        refine ⟨dropped ++ [x], ?_, fun y hy => ?_⟩
        · rw [← List.append_assoc]
          exact hperm.append_right [x]
        · rcases List.mem_append.mp hy with hy | hy
          · exact hdropped y hy
          · rw [List.mem_singleton.mp hy]
            obtain ⟨k, hk, hx⟩ : ∃ k ∈ select ok xs, ok x k = false := by
              simpa using hall
            have hbefore := (select_sublist ok xs).mem hk
            exact ⟨k, hk, hR.2.2 k hbefore x List.mem_cons_self, hx⟩

/-- A list whose elements fit each other is kept whole. -/
theorem select_eq_self {xs : List α} (h : xs.Pairwise fun k x => ok x k = true) :
    select ok xs = xs := by
  induction xs using List.reverseRecOn with
  | nil => rfl
  | append_singleton xs x ih =>
      rw [List.pairwise_append] at h
      rw [select_concat, ih h.1, if_pos]
      rw [List.all_eq_true]
      exact fun k hk => h.2.2 k hk x List.mem_cons_self

end Greedy
