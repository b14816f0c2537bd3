import Mathlib.Data.List.Nodup
import Mathlib.Data.List.Perm.Subperm
import Mathlib.Order.Lattice

/-!
Places in a list that is sorted by a key, where equal elements stay as they came. An element's
place is the number of those ahead of it, so it does not fall when fewer are ahead.
-/

namespace Places

universe u v
variable {α : Type u} {κ : Type v} [LinearOrder κ] {l l' : List α} {x y : α}

def sortBy (key : α → κ) (l : List α) : List α :=
  l.mergeSort fun a b => key a ≤ key b

theorem perm_sortBy (key : α → κ) (l : List α) : (sortBy key l).Perm l :=
  List.mergeSort_perm l _

theorem pairwise_sortBy (key : α → κ) (l : List α) :
    (sortBy key l).Pairwise fun a b => key a ≤ key b := by
  have hle := @List.pairwise_mergeSort _ (fun a b => decide (key a ≤ key b))
    (fun a b c hab hbc => decide_eq_true ((of_decide_eq_true hab).trans (of_decide_eq_true hbc)))
    (fun a b => by simpa using le_total (key a) (key b)) l
  exact hle.imp fun h => of_decide_eq_true h

theorem sortBy_pair (key : α → κ) (x y : α) :
    sortBy key [x, y] = if key x ≤ key y then [x, y] else [y, x] := by
  simp [sortBy, List.mergeSort, List.MergeSort.Internal.splitInTwo, List.merge]

def Ahead (l : List α) (x y : α) : Prop :=
  [x, y].Sublist l

theorem ahead_or_ahead (hx : x ∈ l) (hy : y ∈ l) (hne : x ≠ y) : Ahead l x y ∨ Ahead l y x := by
  induction l with
  | nil => exact absurd hx List.not_mem_nil
  | cons a l ih =>
      rcases List.mem_cons.mp hx with rfl | hxl
      · have hyl := (List.mem_cons.mp hy).resolve_left hne.symm
        exact .inl (.cons_cons _ (List.singleton_sublist.mpr hyl))
      · rcases List.mem_cons.mp hy with rfl | hyl
        · exact .inr (.cons_cons _ (List.singleton_sublist.mpr hxl))
        · exact (ih hxl hyl).imp (.cons _) (.cons _)

theorem not_ahead_of_ahead (hnodup : l.Nodup) (h : Ahead l x y) : ¬ Ahead l y x := by
  induction l with
  | nil => cases h
  | cons a l ih =>
      rw [List.nodup_cons] at hnodup
      intro h'
      cases h with
      | cons _ h =>
          cases h' with
          | cons _ h' => exact ih hnodup.2 h h'
          | cons_cons _ h' => exact hnodup.1 (h.subset (by simp))
      | cons_cons _ h =>
          cases h' with
          | cons _ h' => exact hnodup.1 (h'.subset (by simp))
          | cons_cons _ h' => exact hnodup.1 (h.subset (by simp))

theorem ahead_sortBy (hnodup : l.Nodup) (hx : x ∈ l) (hy : y ∈ l) (key : α → κ) (hne : x ≠ y) :
    Ahead (sortBy key l) x y ↔ key x < key y ∨ key x = key y ∧ Ahead l x y := by
  have hperm := perm_sortBy key l
  have hnodup' : (sortBy key l).Nodup := hperm.nodup_iff.mpr hnodup
  have hle : ∀ {a b}, Ahead (sortBy key l) a b → key a ≤ key b := by
    intro a b hab
    exact (List.pairwise_cons.mp ((pairwise_sortBy key l).sublist hab)).1 b List.mem_cons_self
  have hkept : ∀ {a b}, Ahead l a b → key a ≤ key b → Ahead (sortBy key l) a b := by
    intro a b hab hkey
    exact List.pair_sublist_mergeSort
      (fun a b c hab hbc => decide_eq_true ((of_decide_eq_true hab).trans (of_decide_eq_true hbc)))
      (fun a b => by simpa using le_total (key a) (key b)) (decide_eq_true hkey) hab
  constructor
  · intro h
    rcases (hle h).lt_or_eq with hlt | heq
    · exact .inl hlt
    · refine .inr ⟨heq, (ahead_or_ahead hx hy hne).resolve_right fun hback => ?_⟩
      exact not_ahead_of_ahead hnodup' h (hkept hback heq.ge)
  · rintro (hlt | ⟨heq, h⟩)
    · refine (ahead_or_ahead (hperm.mem_iff.mpr hx) (hperm.mem_iff.mpr hy) hne).resolve_right ?_
      exact fun hback => hlt.not_ge (hle hback)
    · exact hkept h heq.le

section
variable [BEq α] [LawfulBEq α]

theorem mem_take_idxOf (hnodup : l.Nodup) (hy : y ∈ l) :
    x ∈ l.take (l.idxOf y) ↔ Ahead l x y := by
  induction l with
  | nil => exact absurd hy List.not_mem_nil
  | cons a l ih =>
      rw [List.nodup_cons] at hnodup
      by_cases ha : a = y
      · rw [ha, List.idxOf_cons_self, List.take_zero]
        refine iff_of_false List.not_mem_nil fun h => ?_
        cases h with
        | cons _ h => exact hnodup.1 (ha ▸ h.subset (by simp))
        | cons_cons _ h => exact hnodup.1 (ha ▸ h.subset (by simp))
      · have hrest := (List.mem_cons.mp hy).resolve_left (Ne.symm ha)
        rw [List.idxOf_cons_ne _ ha, List.take_succ_cons, List.mem_cons, ih hnodup.2 hrest]
        constructor
        · rintro (rfl | h)
          · exact .cons_cons _ (List.singleton_sublist.mpr hrest)
          · exact .cons _ h
        · intro h
          cases h with
          | cons _ h => exact .inr h
          | cons_cons _ h => exact .inl rfl

theorem idxOf_le (hnodup : l.Nodup) (hperm : l.Perm l') (hy : y ∈ l)
    (h : ∀ x, Ahead l x y → Ahead l' x y) : l.idxOf y ≤ l'.idxOf y := by
  have hnodup' : l'.Nodup := hperm.nodup_iff.mp hnodup
  have hsub : l.take (l.idxOf y) ⊆ l'.take (l'.idxOf y) := by
    intro x hx
    rw [mem_take_idxOf hnodup' (hperm.mem_iff.mp hy)]
    exact h x ((mem_take_idxOf hnodup hy).mp hx)
  have hle := (List.subperm_of_subset (hnodup.sublist (List.take_sublist ..)) hsub).length_le
  rw [List.length_take, List.length_take, Nat.min_eq_left List.idxOf_le_length] at hle
  exact hle.trans (Nat.min_le_left ..)

/-- Who was not ahead by the first key is not ahead by the second. -/
theorem idxOf_sortBy_le (hnodup : l.Nodup) (hy : y ∈ l) {key key' : α → κ}
    (hlt : ∀ x ∈ l, key x < key y → key' x < key' y)
    (heq : ∀ x ∈ l, key x = key y → key' x ≤ key' y) :
    (sortBy key l).idxOf y ≤ (sortBy key' l).idxOf y := by
  have hperm := perm_sortBy key l
  have hnodup' : (sortBy key l).Nodup := hperm.nodup_iff.mpr hnodup
  apply idxOf_le hnodup' (hperm.trans (perm_sortBy key' l).symm) (hperm.mem_iff.mpr hy)
  intro x h
  have hx : x ∈ l := hperm.mem_iff.mp (h.subset List.mem_cons_self)
  have hne : x ≠ y := by
    rintro rfl
    exact not_ahead_of_ahead hnodup' h h
  rw [ahead_sortBy hnodup hx hy _ hne] at h ⊢
  rcases h with h | ⟨hkey, h⟩
  · exact .inl (hlt x hx h)
  · exact (heq x hx hkey).lt_or_eq.imp_right fun hkey' => ⟨hkey', h⟩

theorem idxOf_map {τ : Type*} [BEq τ] [LawfulBEq τ] {name : α → τ} (hnodup : (l.map name).Nodup)
    (hy : y ∈ l) : (l.map name).idxOf (name y) = l.idxOf y := by
  induction l with
  | nil => exact absurd hy List.not_mem_nil
  | cons a l ih =>
      rw [List.map_cons, List.nodup_cons] at hnodup
      by_cases ha : a = y
      · rw [ha, List.map_cons, List.idxOf_cons_self, List.idxOf_cons_self]
      · have hy := (List.mem_cons.mp hy).resolve_left (Ne.symm ha)
        have hname : name a ≠ name y := fun heq => hnodup.1 (heq ▸ List.mem_map_of_mem hy)
        rw [List.map_cons, List.idxOf_cons_ne _ hname, List.idxOf_cons_ne _ ha, ih hnodup.2 hy]

end

end Places
