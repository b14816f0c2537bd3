import Mathlib.Data.List.Basic

/-!
A register that keeps the newer of two values, and beside it the first value it ever got.
Nothing here depends on what the values are: `newer x y` says that `y` replaces `x`.
-/

namespace Register

universe u
variable {α : Type u} (newer : α → α → Prop) [DecidableRel newer]

def keepNewer (last x : α) : α :=
  if newer last x then x else last

/-- The first value received and the one kept. -/
def receive : Option (α × α) → α → Option (α × α)
  | none, x => some (x, x)
  | some (first, last), x => some (first, keepNewer newer last x)

theorem keepNewer_eq (last x : α) :
    keepNewer newer last x = x ∨ keepNewer newer last x = last := by
  rw [keepNewer]
  split
  · exact .inl rfl
  · exact .inr rfl

variable {newer}

theorem foldl_receive (first last : α) (xs : List α) :
    xs.foldl (receive newer) (some (first, last)) =
      some (first, xs.foldl (keepNewer newer) last) := by
  induction xs generalizing last with
  | nil => rfl
  | cons x xs ih => exact ih (keepNewer newer last x)

theorem foldl_keepNewer_mem (last : α) (xs : List α) :
    xs.foldl (keepNewer newer) last ∈ last :: xs := by
  induction xs generalizing last with
  | nil => exact List.mem_singleton_self last
  | cons x xs ih =>
      rw [List.foldl_cons]
      cases List.mem_cons.mp (ih (keepNewer newer last x)) with
      | inr hrest => exact List.mem_cons_of_mem _ (List.mem_cons_of_mem _ hrest)
      | inl heq =>
          rw [heq]
          cases keepNewer_eq newer last x with
          | inl h => simp [h]
          | inr h => simp [h]

/-- What is newer than all the others is kept, whenever it comes. -/
theorem foldl_keepNewer_newest {newest : α} {last : α} {xs : List α}
    (hmem : newest ∈ last :: xs) (hnewer : ∀ x ∈ last :: xs, x ≠ newest → newer x newest)
    (hkept : ∀ x ∈ xs, ¬ newer newest x) : xs.foldl (keepNewer newer) last = newest := by
  induction xs generalizing last with
  | nil => exact (List.mem_singleton.mp hmem).symm
  | cons x xs ih =>
      rw [List.foldl_cons]
      have hnext : newest ∈ keepNewer newer last x :: xs := by
        cases List.mem_cons.mp hmem with
        | inl hlast =>
            have hold : keepNewer newer last x = last :=
              if_neg (hlast ▸ hkept x List.mem_cons_self)
            rw [hold, hlast]
            exact List.mem_cons_self
        | inr hrest =>
            cases List.mem_cons.mp hrest with
            | inr hlater => exact List.mem_cons_of_mem _ hlater
            | inl hnow =>
                by_cases heq : last = newest
                · have hold : keepNewer newer last x = newest := by
                    cases keepNewer_eq newer last x with
                    | inl h => exact h.trans hnow.symm
                    | inr h => exact h.trans heq
                  exact hold ▸ List.mem_cons_self
                · have hnew : keepNewer newer last x = newest :=
                    (if_pos (hnow ▸ hnewer last List.mem_cons_self heq)).trans hnow.symm
                  exact hnew ▸ List.mem_cons_self
      refine ih hnext (fun y hy => ?_) fun y hy => hkept y (List.mem_cons_of_mem _ hy)
      cases List.mem_cons.mp hy with
      | inr hrest => exact hnewer y (List.mem_cons_of_mem _ (List.mem_cons_of_mem _ hrest))
      | inl heq =>
          cases keepNewer_eq newer last x with
          | inl h => exact hnewer y (by simp [heq, h])
          | inr h => exact hnewer y (by simp [heq, h])

/-- What does not replace the first value is lost if it comes second and never again. -/
theorem foldl_keepNewer_ne {newest : α} {last : α} {xs : List α} (hne : last ≠ newest)
    (hnot : ¬ newer last newest) (hout : newest ∉ xs) :
    (newest :: xs).foldl (keepNewer newer) last ≠ newest := by
  intro heq
  rw [List.foldl_cons, keepNewer, if_neg hnot] at heq
  cases List.mem_cons.mp (heq ▸ foldl_keepNewer_mem last xs) with
  | inl h => exact hne h.symm
  | inr h => exact hout h

end Register
