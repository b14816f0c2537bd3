import Mathlib.Data.List.Induction
import Mathlib.Data.List.Nodup

/-!
Grouping by a key. `group` collects the values of a list under their keys, in the order in
which the keys first occur: a loop of `groups.setdefault(key, []).append(value)`.
-/

namespace Grouping

universe u v w
variable {α : Type u} {κ : Type v} {ν : Type w} [DecidableEq κ]

/-- Append `v` to the group of `k`, or open one. -/
def append (k : κ) (v : ν) : List (κ × List ν) → List (κ × List ν)
  | [] => [(k, [v])]
  | g :: gs => if g.1 = k then (g.1, g.2 ++ [v]) :: gs else g :: append k v gs

def group (key : α → κ) (value : α → ν) (xs : List α) : List (κ × List ν) :=
  xs.foldl (fun gs x => append (key x) (value x) gs) []

/-- What is collected under `k`. -/
def valuesAt (k : κ) : List (κ × List ν) → List ν
  | [] => []
  | g :: gs => if g.1 = k then g.2 else valuesAt k gs

theorem valuesAt_append_self (k : κ) (v : ν) (gs : List (κ × List ν)) :
    valuesAt k (append k v gs) = valuesAt k gs ++ [v] := by
  induction gs with
  | nil => simp [append, valuesAt]
  | cons g gs ih =>
      by_cases hk : g.1 = k
      · simp [append, valuesAt, hk]
      · simp [append, valuesAt, hk, ih]

theorem valuesAt_append_of_ne {k k' : κ} (h : k' ≠ k) (v : ν) (gs : List (κ × List ν)) :
    valuesAt k' (append k v gs) = valuesAt k' gs := by
  induction gs with
  | nil => simp [append, valuesAt, h.symm]
  | cons g gs ih =>
      by_cases hk : g.1 = k
      · simp [append, valuesAt, hk, h.symm]
      · simp [append, valuesAt, hk, ih]

theorem mem_keys_append {k k' : κ} {v : ν} {gs : List (κ × List ν)} :
    k' ∈ (append k v gs).map Prod.fst ↔ k' = k ∨ k' ∈ gs.map Prod.fst := by
  induction gs with
  | nil => simp [append]
  | cons g gs ih =>
      by_cases hk : g.1 = k
      · simp [append, hk]
      · simp only [append, if_neg hk, List.map_cons, List.mem_cons, ih]
        exact or_left_comm

theorem nodup_keys_append {k : κ} {v : ν} {gs : List (κ × List ν)}
    (h : (gs.map Prod.fst).Nodup) : ((append k v gs).map Prod.fst).Nodup := by
  induction gs with
  | nil => simp [append]
  | cons g gs ih =>
      rw [List.map_cons, List.nodup_cons] at h
      by_cases hk : g.1 = k
      · simp only [append, if_pos hk, List.map_cons, List.nodup_cons]
        exact h
      · simp only [append, if_neg hk, List.map_cons, List.nodup_cons, mem_keys_append, not_or]
        exact ⟨⟨hk, h.1⟩, ih h.2⟩

theorem group_concat (key : α → κ) (value : α → ν) (xs : List α) (x : α) :
    group key value (xs ++ [x]) = append (key x) (value x) (group key value xs) := by
  simp [group]

theorem nodup_keys_group (key : α → κ) (value : α → ν) (xs : List α) :
    ((group key value xs).map Prod.fst).Nodup := by
  induction xs using List.reverseRecOn with
  | nil => exact List.nodup_nil
  | append_singleton xs x ih =>
      rw [group_concat]
      exact nodup_keys_append ih

theorem mem_keys_group {key : α → κ} {value : α → ν} {xs : List α} {k : κ} :
    k ∈ (group key value xs).map Prod.fst ↔ k ∈ xs.map key := by
  induction xs using List.reverseRecOn with
  | nil => rfl
  | append_singleton xs x ih =>
      rw [group_concat, mem_keys_append, ih, List.map_append, List.mem_append, or_comm]
      rw [List.map_singleton, List.mem_singleton]

/-- A group holds the values of its key, in order. -/
theorem valuesAt_group (key : α → κ) (value : α → ν) (xs : List α) (k : κ) :
    valuesAt k (group key value xs) = (xs.filter fun x => key x = k).map value := by
  induction xs using List.reverseRecOn with
  | nil => rfl
  | append_singleton xs x ih =>
      rw [group_concat, List.filter_append, List.map_append]
      by_cases hk : k = key x
      · subst hk
        rw [valuesAt_append_self, ih]
        simp
      · rw [valuesAt_append_of_ne hk, ih]
        simp [Ne.symm hk]

theorem filter_append_self (k : κ) (v : ν) (gs : List (κ × List ν)) :
    (append k v gs).filter (fun g => g.1 = k) = append k v (gs.filter fun g => g.1 = k) := by
  induction gs with
  | nil => simp [append]
  | cons g gs ih =>
      by_cases hk : g.1 = k
      · simp [append, hk]
      · simp [append, hk, ih]

theorem filter_append_of_ne {k k' : κ} (h : k' ≠ k) (v : ν) (gs : List (κ × List ν)) :
    (append k' v gs).filter (fun g => g.1 = k) = gs.filter fun g => g.1 = k := by
  induction gs with
  | nil => simp [append, h]
  | cons g gs ih =>
      by_cases hk : g.1 = k'
      · simp [append, hk, h]
      · simp only [append, if_neg hk, List.filter_cons, ih]

/-- A key's group is what is grouped of its values. -/
theorem filter_group (key : α → κ) (value : α → ν) (xs : List α) (k : κ) :
    (group key value xs).filter (fun g => g.1 = k) =
      group key value (xs.filter fun x => key x = k) := by
  induction xs using List.reverseRecOn with
  | nil => rfl
  | append_singleton xs x ih =>
      rw [group_concat, List.filter_append]
      by_cases hk : key x = k
      · subst hk
        rw [filter_append_self, ih, List.filter_singleton, decide_eq_true rfl, cond_true,
          group_concat]
      · rw [filter_append_of_ne hk, ih, List.filter_singleton, decide_eq_false hk, cond_false,
          List.append_nil]

theorem perm_flatMap_append (k : κ) (v : ν) (gs : List (κ × List ν)) :
    ((append k v gs).flatMap Prod.snd).Perm (gs.flatMap Prod.snd ++ [v]) := by
  induction gs with
  | nil => exact .refl _
  | cons g gs ih =>
      rw [append]
      split
      · rw [List.flatMap_cons, List.flatMap_cons, List.append_assoc, List.append_assoc]
        exact List.perm_append_comm.append_left g.2
      · rw [List.flatMap_cons, List.flatMap_cons, List.append_assoc]
        exact ih.append_left g.2

/-- The groups hold every value once. -/
theorem perm_flatMap_group (key : α → κ) (value : α → ν) (xs : List α) :
    ((group key value xs).flatMap Prod.snd).Perm (xs.map value) := by
  induction xs using List.reverseRecOn with
  | nil => exact .refl _
  | append_singleton xs x ih =>
      rw [group_concat, List.map_append]
      exact (perm_flatMap_append _ _ _).trans (ih.append_right _)

theorem valuesAt_eq {gs : List (κ × List ν)} (h : (gs.map Prod.fst).Nodup) {g : κ × List ν}
    (hg : g ∈ gs) : valuesAt g.1 gs = g.2 := by
  induction gs with
  | nil => cases hg
  | cons g' gs ih =>
      rw [List.map_cons, List.nodup_cons] at h
      cases hg with
      | head => exact if_pos rfl
      | tail _ hin =>
          have hne : g'.1 ≠ g.1 := fun he => h.1 (he ▸ List.mem_map_of_mem hin)
          rw [valuesAt, if_neg hne]
          exact ih h.2 hin

theorem mem_of_valuesAt {gs : List (κ × List ν)} {k : κ} (h : valuesAt k gs ≠ []) :
    (k, valuesAt k gs) ∈ gs := by
  induction gs with
  | nil => exact absurd rfl h
  | cons g gs ih =>
      by_cases hk : g.1 = k
      · subst hk
        rw [valuesAt, if_pos rfl]
        exact List.mem_cons_self
      · rw [valuesAt, if_neg hk] at h ⊢
        exact List.mem_cons_of_mem _ (ih h)

theorem mem_group {key : α → κ} {value : α → ν} {xs : List α} {g : κ × List ν}
    (h : g ∈ group key value xs) : g.2 = (xs.filter fun x => key x = g.1).map value := by
  rw [← valuesAt_group, valuesAt_eq (nodup_keys_group key value xs) h]

theorem group_eq_singleton {key : α → κ} {value : α → ν} {xs : List α} {k : κ} (hne : xs ≠ [])
    (hkey : ∀ x ∈ xs, key x = k) : group key value xs = [(k, xs.map value)] := by
  induction xs using List.reverseRecOn with
  | nil => exact absurd rfl hne
  | append_singleton xs x ih =>
      have hx : key x = k := hkey x (List.mem_append_right _ List.mem_cons_self)
      rw [group_concat, List.map_append, hx]
      by_cases hxs : xs = []
      · rw [hxs]
        rfl
      · rw [ih hxs fun y hy => hkey y (List.mem_append_left _ hy), append, if_pos rfl]
        rfl

theorem group_of_mem {key : α → κ} {value : α → ν} {xs : List α} {x : α} (h : x ∈ xs) :
    (key x, (xs.filter fun y => key y = key x).map value) ∈ group key value xs := by
  have hvalues := valuesAt_group key value xs (key x)
  rw [← hvalues]
  apply mem_of_valuesAt
  rw [hvalues]
  intro hnil
  have hin : x ∈ xs.filter fun y => key y = key x := List.mem_filter.mpr ⟨h, by simp⟩
  rw [List.map_eq_nil_iff.mp hnil] at hin
  exact List.not_mem_nil hin

end Grouping
