import Mathlib.Data.List.Basic
import Mathlib.Logic.Function.Basic

/-!
Parent pointers: the root of an element is reached by climbing until an element is its own
parent. The classes are kept as lists: the root first, each other element's parent before it.
-/

namespace Parents

universe u
variable {ι : Type u} [DecidableEq ι] {parent : ι → Option ι} {root x y r : ι} {c d : List ι}

/-- `none` where the pointers lead nowhere or the fuel ends. -/
def climb (parent : ι → Option ι) : Nat → ι → Option ι
  | 0, _ => none
  | fuel + 1, x =>
      match parent x with
      | none => none
      | some y => if y = x then some x else climb parent fuel y

theorem climb_mono {n m : Nat} (h : climb parent n x = some r) (hle : n ≤ m) :
    climb parent m x = some r := by
  induction n generalizing x m with
  | zero => exact absurd h (by simp [climb])
  | succ n ih =>
      obtain ⟨k, rfl⟩ : ∃ k, m = k + 1 := ⟨m - 1, by omega⟩
      rw [climb] at h ⊢
      cases hp : parent x with
      | none => simp only [hp] at h; exact absurd h (by simp)
      | some y =>
          simp only [hp] at h ⊢
          split
          · rename_i hy
            rwa [if_pos hy] at h
          · rename_i hy
            rw [if_neg hy] at h
            exact ih h (by omega)

inductive Rooted (parent : ι → Option ι) (root : ι) : List ι → Prop
  | root (h : parent root = some root) : Rooted parent root [root]
  | concat {c : List ι} {x y : ι} (hc : Rooted parent root c) (hx : x ∉ c) (hy : y ∈ c)
      (h : parent x = some y) : Rooted parent root (c ++ [x])

namespace Rooted

omit [DecidableEq ι] in
theorem head?_eq (h : Rooted parent root c) : c.head? = some root := by
  induction h with
  | root => rfl
  | concat hc _ _ _ ih => simp [ih]

omit [DecidableEq ι] in
theorem root_mem (h : Rooted parent root c) : root ∈ c :=
  List.mem_of_mem_head? h.head?_eq

omit [DecidableEq ι] in
theorem congr {parent' : ι → Option ι} (h : Rooted parent root c)
    (heq : ∀ x ∈ c, parent' x = parent x) : Rooted parent' root c := by
  induction h with
  | root h => exact .root ((heq _ List.mem_cons_self).trans h)
  | concat _ hx hy h ih =>
      refine .concat (ih fun x hx => heq x (List.mem_append_left _ hx)) hx hy ?_
      exact (heq _ (List.mem_append_right _ List.mem_cons_self)).trans h

/-- The climb from an element takes at most as many steps as elements stand up to it. -/
theorem climb_eq (h : Rooted parent root c) (hx : x ∈ c) :
    climb parent c.length x = some root := by
  induction h generalizing x with
  | root h =>
      rw [List.mem_singleton.mp hx, List.length_singleton, climb]
      simp [h]
  | @concat c a b hc hnot hb h ih =>
      rw [List.length_append, List.length_singleton]
      rcases List.mem_append.mp hx with hx | hx
      · exact climb_mono (ih hx) (Nat.le_succ _)
      · rw [List.mem_singleton.mp hx, climb]
        have hne : b ≠ a := fun heq => hnot (heq ▸ hb)
        simp only [h, if_neg hne]
        exact ih hb

theorem update (h : Rooted parent root c) (x : ι) (hx : x ∈ c → y = root) :
    Rooted (Function.update parent x (some y)) root c := by
  induction h with
  | root h =>
      refine .root ?_
      by_cases hr : root = x
      · rw [← hr, Function.update_self, hx (hr ▸ List.mem_cons_self)]
      · rw [Function.update_of_ne hr, h]
  | @concat c a b hc hnot hb h ih =>
      have hc' := ih fun hmem => hx (List.mem_append_left _ hmem)
      by_cases ha : a = x
      · refine .concat hc' hnot hc.root_mem ?_
        rw [← ha, Function.update_self, hx (by rw [← ha]; simp)]
      · exact .concat hc' hnot hb ((Function.update_of_ne ha _ _).trans h)

/-- The second class is hung under the root of the first. -/
theorem append (hc : Rooted parent root c) (hd : Rooted parent r d) (hdisj : c.Disjoint d) :
    Rooted (Function.update parent r (some root)) root (c ++ d) := by
  have hnot : r ∉ c := fun hr => hdisj hr hd.root_mem
  have hc' : Rooted (Function.update parent r (some root)) root c :=
    hc.update r fun hr => absurd hr hnot
  induction hd with
  | root h => exact .concat hc' hnot hc.root_mem (Function.update_self _ _ _)
  | @concat d a b hd hnot' hb h ih =>
      have hleft : c.Disjoint d := fun e he hd' => hdisj he (List.mem_append_left _ hd')
      have ha : a ∉ c := fun ha => hdisj ha (List.mem_append_right _ List.mem_cons_self)
      have hne : a ≠ r := fun har => hnot' (har ▸ hd.root_mem)
      rw [← List.append_assoc]
      refine .concat (ih hleft) ?_ (List.mem_append_right _ hb) ?_
      · exact fun hmem => (List.mem_append.mp hmem).elim ha hnot'
      · rw [Function.update_of_ne hne, h]

end Rooted

end Parents
