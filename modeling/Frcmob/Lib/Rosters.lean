import Mathlib.Data.List.Nodup
import Mathlib.Data.Set.Card

/-!
Sets by key, of which none is empty: `setdefault(key, set()).add(x)` opens a set with its first
member, and a set that `discard(x)` empties is dropped together with its key.
-/

namespace Rosters

universe u v
variable {κ : Type u} {α : Type v} [DecidableEq κ] [DecidableEq α]

/-- The members under a key; none where the key has no set. -/
def at? (k : κ) : List (κ × Finset α) → Finset α
  | [] => ∅
  | r :: rs => if r.1 = k then r.2 else at? k rs

def add (k : κ) (x : α) : List (κ × Finset α) → List (κ × Finset α)
  | [] => [(k, {x})]
  | r :: rs => if r.1 = k then (r.1, insert x r.2) :: rs else r :: add k x rs

def discard (k : κ) (x : α) : List (κ × Finset α) → List (κ × Finset α)
  | [] => []
  | r :: rs =>
    if r.1 = k then
      if r.2.erase x = ∅ then rs else (r.1, r.2.erase x) :: rs
    else
      r :: discard k x rs

/-- How many members all sets have together. -/
def total (rs : List (κ × Finset α)) : Nat :=
  (rs.map fun r => r.2.card).sum

/-- One set for each key, and none of them empty. -/
structure Kept (rs : List (κ × Finset α)) : Prop where
  keys : (rs.map Prod.fst).Nodup
  nonempty : ∀ r ∈ rs, r.2.Nonempty

omit [DecidableEq κ] [DecidableEq α] in
theorem kept_nil : Kept ([] : List (κ × Finset α)) :=
  ⟨List.nodup_nil, fun _ h => absurd h List.not_mem_nil⟩

omit [DecidableEq κ] [DecidableEq α] in
theorem Kept.tail {r : κ × Finset α} {rs : List (κ × Finset α)} (h : Kept (r :: rs)) :
    Kept rs :=
  ⟨(List.nodup_cons.mp h.keys).2, fun s hs => h.nonempty s (List.mem_cons_of_mem _ hs)⟩

omit [DecidableEq α] in
theorem at?_of_notMem {k : κ} {rs : List (κ × Finset α)} (h : k ∉ rs.map Prod.fst) :
    at? k rs = ∅ := by
  induction rs with
  | nil => rfl
  | cons r rs ih =>
      rw [List.map_cons, List.mem_cons, not_or] at h
      rw [at?, if_neg (Ne.symm h.1), ih h.2]

omit [DecidableEq α] in
theorem mem_keys_of_mem_at? {k : κ} {x : α} {rs : List (κ × Finset α)} (h : x ∈ at? k rs) :
    k ∈ rs.map Prod.fst := by
  by_contra hk
  rw [at?_of_notMem hk] at h
  exact Finset.notMem_empty x h

/-! ### Adding -/

theorem at?_add_self (k : κ) (x : α) (rs : List (κ × Finset α)) :
    at? k (add k x rs) = insert x (at? k rs) := by
  induction rs with
  | nil => simp [add, at?]
  | cons r rs ih =>
      by_cases hk : r.1 = k
      · simp [add, at?, hk]
      · simp [add, at?, hk, ih]

theorem at?_add_of_ne {k k' : κ} (h : k' ≠ k) (x : α) (rs : List (κ × Finset α)) :
    at? k' (add k x rs) = at? k' rs := by
  induction rs with
  | nil => simp [add, at?, h.symm]
  | cons r rs ih =>
      by_cases hk : r.1 = k
      · simp [add, at?, hk, h.symm]
      · simp [add, at?, hk, ih]

theorem mem_keys_add {k k' : κ} {x : α} {rs : List (κ × Finset α)} :
    k' ∈ (add k x rs).map Prod.fst ↔ k' = k ∨ k' ∈ rs.map Prod.fst := by
  induction rs with
  | nil => simp [add]
  | cons r rs ih =>
      by_cases hk : r.1 = k
      · simp [add, hk]
      · simp only [add, if_neg hk, List.map_cons, List.mem_cons, ih]
        exact or_left_comm

theorem Kept.add {rs : List (κ × Finset α)} (h : Kept rs) (k : κ) (x : α) :
    Kept (add k x rs) := by
  induction rs with
  | nil =>
      refine ⟨List.nodup_singleton _, fun r hr => ?_⟩
      rw [List.mem_singleton.mp hr]
      exact Finset.singleton_nonempty x
  | cons r rs ih =>
      have hkeys := List.nodup_cons.mp h.keys
      by_cases hk : r.1 = k
      · simp only [Rosters.add, if_pos hk]
        refine ⟨h.keys, fun s hs => ?_⟩
        cases hs with
        | head => exact Finset.insert_nonempty x r.2
        | tail _ hs => exact h.nonempty s (List.mem_cons_of_mem _ hs)
      · simp only [Rosters.add, if_neg hk]
        constructor
        · rw [List.map_cons, List.nodup_cons, mem_keys_add, not_or]
          exact ⟨⟨hk, hkeys.1⟩, (ih h.tail).keys⟩
        · intro s hs
          cases hs with
          | head => exact h.nonempty r List.mem_cons_self
          | tail _ hs => exact (ih h.tail).nonempty s hs

theorem total_add_le (k : κ) (x : α) (rs : List (κ × Finset α)) :
    total (add k x rs) ≤ total rs + 1 := by
  induction rs with
  | nil => simp [add, total]
  | cons r rs ih =>
      have hinsert := Finset.card_insert_le x r.2
      simp only [total] at ih
      unfold add
      split <;> simp only [total, List.map_cons, List.sum_cons] <;> omega

/-! ### Discarding -/

theorem mem_keys_of_mem_discard {k k' : κ} {x : α} {rs : List (κ × Finset α)}
    (h : k' ∈ (discard k x rs).map Prod.fst) : k' ∈ rs.map Prod.fst := by
  induction rs with
  | nil => exact h
  | cons r rs ih =>
      unfold discard at h
      split at h
      · split at h
        · exact List.mem_cons_of_mem _ h
        · exact h
      · cases List.mem_cons.mp h with
        | inl hhead => exact List.mem_cons.mpr (.inl hhead)
        | inr htail => exact List.mem_cons_of_mem _ (ih htail)

theorem Kept.discard {rs : List (κ × Finset α)} (h : Kept rs) (k : κ) (x : α) :
    Kept (discard k x rs) := by
  induction rs with
  | nil => exact h
  | cons r rs ih =>
      have hkeys := List.nodup_cons.mp h.keys
      unfold Rosters.discard
      split
      · split
        · exact h.tail
        · rename_i hleft
          refine ⟨h.keys, fun s hs => ?_⟩
          cases hs with
          | head => exact Finset.nonempty_iff_ne_empty.mpr hleft
          | tail _ hs => exact h.nonempty s (List.mem_cons_of_mem _ hs)
      · constructor
        · rw [List.map_cons, List.nodup_cons]
          exact ⟨fun hin => hkeys.1 (mem_keys_of_mem_discard hin), (ih h.tail).keys⟩
        · intro s hs
          cases hs with
          | head => exact h.nonempty r List.mem_cons_self
          | tail _ hs => exact (ih h.tail).nonempty s hs

theorem at?_discard_self {rs : List (κ × Finset α)} (h : Kept rs) (k : κ) (x : α) :
    at? k (discard k x rs) = (at? k rs).erase x := by
  induction rs with
  | nil => simp [discard, at?]
  | cons r rs ih =>
      by_cases hk : r.1 = k
      · simp only [discard, if_pos hk, at?]
        split
        · rename_i hempty
          rw [hempty]
          apply at?_of_notMem
          rw [← hk]
          exact (List.nodup_cons.mp h.keys).1
        · rw [at?, if_pos hk]
      · simp only [discard, if_neg hk, at?]
        exact ih h.tail

theorem at?_discard_of_ne {k k' : κ} (h : k' ≠ k) (x : α) (rs : List (κ × Finset α)) :
    at? k' (discard k x rs) = at? k' rs := by
  induction rs with
  | nil => rfl
  | cons r rs ih =>
      by_cases hk : r.1 = k
      · have hne : ¬ r.1 = k' := fun he => h (he.symm.trans hk)
        simp only [discard, if_pos hk]
        split
        · rw [at?, if_neg hne]
        · rw [at?, if_neg hne, at?, if_neg hne]
      · simp only [discard, if_neg hk, at?, ih]

theorem total_discard_le (k : κ) (x : α) (rs : List (κ × Finset α)) :
    total (discard k x rs) ≤ total rs := by
  induction rs with
  | nil => exact Nat.le_refl _
  | cons r rs ih =>
      have herase := Finset.card_erase_le (s := r.2) (a := x)
      simp only [total] at ih
      unfold discard
      split
      · split <;> simp only [total, List.map_cons, List.sum_cons] <;> omega
      · simp only [total, List.map_cons, List.sum_cons]
        omega

/-! ### Whose set a member is in -/

/-- Each member is in the set of its key and in no other. -/
structure Lists (rs : List (κ × Finset α)) (member : α → Option κ) : Prop where
  kept : Kept rs
  mem : ∀ k x, x ∈ at? k rs ↔ member x = some k

theorem Lists.add {rs : List (κ × Finset α)} {member : α → Option κ} (h : Lists rs member)
    {x : α} (hx : member x = none) (k : κ) :
    Lists (add k x rs) (Function.update member x (some k)) := by
  refine ⟨h.kept.add k x, fun k' y => ?_⟩
  by_cases hy : y = x
  · subst hy
    rw [Function.update_self, Option.some_inj]
    by_cases hk : k' = k
    · subst hk
      rw [at?_add_self]
      exact iff_of_true (Finset.mem_insert_self y _) rfl
    · rw [at?_add_of_ne hk, h.mem, hx]
      exact iff_of_false (by simp) (Ne.symm hk)
  · rw [Function.update_of_ne hy]
    by_cases hk : k' = k
    · subst hk
      rw [at?_add_self, Finset.mem_insert, h.mem]
      exact or_iff_right hy
    · rw [at?_add_of_ne hk, h.mem]

theorem Lists.discard {rs : List (κ × Finset α)} {member : α → Option κ} (h : Lists rs member)
    {x : α} {k : κ} (hx : member x = some k) :
    Lists (discard k x rs) (Function.update member x none) := by
  refine ⟨h.kept.discard k x, fun k' y => ?_⟩
  by_cases hy : y = x
  · subst hy
    rw [Function.update_self]
    refine iff_of_false ?_ (by simp)
    by_cases hk : k' = k
    · subst hk
      rw [at?_discard_self h.kept]
      exact Finset.notMem_erase y _
    · rw [at?_discard_of_ne hk, h.mem, hx, Option.some_inj]
      exact Ne.symm hk
  · rw [Function.update_of_ne hy]
    by_cases hk : k' = k
    · subst hk
      rw [at?_discard_self h.kept, Finset.mem_erase, h.mem]
      exact and_iff_right hy
    · rw [at?_discard_of_ne hk, h.mem]

omit [DecidableEq α] in
theorem Kept.at?_eq {rs : List (κ × Finset α)} (h : Kept rs) {r : κ × Finset α}
    (hr : r ∈ rs) : at? r.1 rs = r.2 := by
  induction rs with
  | nil => cases hr
  | cons s rs ih =>
      have hkeys := List.nodup_cons.mp h.keys
      cases hr with
      | head => exact if_pos rfl
      | tail _ hin =>
          have hne : s.1 ≠ r.1 := fun he => hkeys.1 (he ▸ List.mem_map_of_mem hin)
          rw [at?, if_neg hne]
          exact ih h.tail hin

omit [DecidableEq α] in
theorem Lists.member_of_mem {rs : List (κ × Finset α)} {member : α → Option κ}
    (h : Lists rs member) {r : κ × Finset α} (hr : r ∈ rs) {x : α} (hx : x ∈ r.2) :
    member x = some r.1 := by
  rw [← h.mem, h.kept.at?_eq hr]
  exact hx

def members (rs : List (κ × Finset α)) : Finset α :=
  rs.foldr (fun r xs => r.2 ∪ xs) ∅

omit [DecidableEq κ] in
theorem mem_members {rs : List (κ × Finset α)} {x : α} :
    x ∈ members rs ↔ ∃ r ∈ rs, x ∈ r.2 := by
  induction rs with
  | nil => simp [members]
  | cons r rs ih =>
      have hcons : members (r :: rs) = r.2 ∪ members rs := rfl
      rw [hcons, Finset.mem_union, ih]
      simp

omit [DecidableEq κ] in
theorem card_members {rs : List (κ × Finset α)}
    (h : rs.Pairwise fun r s => Disjoint r.2 s.2) : (members rs).card = total rs := by
  induction rs with
  | nil => rfl
  | cons r rs ih =>
      have hpair := List.pairwise_cons.mp h
      have hdisjoint : Disjoint r.2 (members rs) := by
        rw [Finset.disjoint_left]
        intro x hx hin
        obtain ⟨s, hs, hxs⟩ := mem_members.mp hin
        exact Finset.disjoint_left.mp (hpair.1 s hs) hx hxs
      have hcons : members (r :: rs) = r.2 ∪ members rs := rfl
      rw [hcons, Finset.card_union_of_disjoint hdisjoint, ih hpair.2]
      rfl

/-- The sizes of the sets add up to the number of members. -/
theorem Lists.total_eq {rs : List (κ × Finset α)} {member : α → Option κ}
    (h : Lists rs member) : total rs = {x | member x ≠ none}.ncard := by
  have hdisjoint : rs.Pairwise fun r s => Disjoint r.2 s.2 := by
    refine (List.pairwise_map.mp h.kept.keys).imp_of_mem fun {r s} hr hs hne => ?_
    rw [Finset.disjoint_left]
    intro x hxr hxs
    have hsame := h.member_of_mem hr hxr
    rw [h.member_of_mem hs hxs, Option.some_inj] at hsame
    exact hne hsame.symm
  have hset : {x | member x ≠ none} = ↑(members rs) := by
    ext x
    rw [Finset.mem_coe, mem_members]
    constructor
    · intro hx
      obtain ⟨k, hk⟩ := Option.ne_none_iff_exists'.mp hx
      have hin := (h.mem k x).mpr hk
      obtain ⟨r, hr, rfl⟩ := List.mem_map.mp (mem_keys_of_mem_at? hin)
      rw [h.kept.at?_eq hr] at hin
      exact ⟨r, hr, hin⟩
    · rintro ⟨r, hr, hx⟩
      change member x ≠ none
      rw [h.member_of_mem hr hx]
      exact Option.some_ne_none _
  rw [hset, Set.ncard_coe_finset, card_members hdisjoint]

omit [DecidableEq α] in
/-- A set that is gone has no members. -/
theorem Lists.ne_of_empty {rs : List (κ × Finset α)} {member : α → Option κ}
    (h : Lists rs member) {k : κ} (hk : at? k rs = ∅) (x : α) : member x ≠ some k := by
  rw [Ne, ← h.mem, hk]
  exact Finset.notMem_empty x

/-! ### Counters -/

variable {γ : Type*} [DecidableEq γ]

/-- A counter that says how many have which value. -/
structure Tally (count : γ → Nat) (value : α → Option γ) : Prop where
  finite : ∀ c, {x | value x = some c}.Finite
  count : ∀ c, count c = {x | value x = some c}.ncard

theorem values_update (value : α → Option γ) (x : α) (v : Option γ) (c : γ) :
    {y | Function.update value x v y = some c} =
      if v = some c then insert x {y | value y = some c} else {y | value y = some c} \ {x} := by
  ext y
  by_cases hy : y = x
  · subst hy
    split <;> simp_all
  · split <;> simp [hy]

theorem Tally.add {count : γ → Nat} {value : α → Option γ} (h : Tally count value) {x : α}
    (hx : value x = none) (c : γ) :
    Tally (Function.update count c (count c + 1)) (Function.update value x (some c)) := by
  have hnot : ∀ c', x ∉ {y | value y = some c'} := by
    intro c' hin
    change value x = some c' at hin
    rw [hx] at hin
    cases hin
  constructor
  · intro c'
    rw [values_update]
    split
    · exact (h.finite c').insert x
    · exact (h.finite c').sdiff
  · intro c'
    rw [values_update]
    by_cases hc : c = c'
    · subst hc
      rw [Function.update_self, if_pos rfl, Set.ncard_insert_of_notMem (hnot c) (h.finite c),
        h.count]
    · rw [Function.update_of_ne (Ne.symm hc), if_neg (by simpa using hc),
        Set.sdiff_singleton_eq_self (hnot c'), h.count]

theorem Tally.remove {count : γ → Nat} {value : α → Option γ} (h : Tally count value) {x : α}
    {c : γ} (hx : value x = some c) :
    Tally (Function.update count c (count c - 1)) (Function.update value x none) := by
  constructor
  · intro c'
    rw [values_update, if_neg (by simp)]
    exact (h.finite c').sdiff
  · intro c'
    rw [values_update, if_neg (by simp)]
    by_cases hc : c' = c
    · subst hc
      have hin : x ∈ {y | value y = some c'} := hx
      rw [Function.update_self, h.count, Set.ncard_sdiff_singleton_of_mem hin]
    · have hnot : x ∉ {y | value y = some c'} := by
        change ¬ value x = some c'
        rw [hx, Option.some_inj]
        exact Ne.symm hc
      rw [Function.update_of_ne hc, Set.sdiff_singleton_eq_self hnot, h.count]

end Rosters
