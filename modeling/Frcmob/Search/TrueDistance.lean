import Frcmob.Lib.Edits
import Frcmob.Lib.Transition
import Frcmob.Search.EventSearch

/-!
The table of `editDistance` holds the edit distance of every two prefixes, and a candidate whose
length differs by more than two is further away than two edits.
-/

namespace Frcmob.Search

open EditDistance Js Transition

/-! ### The table -/

/-- The edit distance of two prefixes, which grow at their ends. -/
def prefixDistance (a b : Str) (i j : Nat) : Nat :=
  distance (a.take i).reverse (b.take j).reverse

variable {a b : Str} {dp : Matrix} {i j : Nat}

theorem prefixDistance_zero_left (hj : j ≤ b.length) : prefixDistance a b 0 j = j := by
  simp [prefixDistance, hj]

theorem prefixDistance_zero_right (hi : i ≤ a.length) : prefixDistance a b i 0 = i := by
  simp [prefixDistance, hi]

theorem prefixDistance_succ (hi : i < a.length) (hj : j < b.length) :
    prefixDistance a b (i + 1) (j + 1) =
      min (min (prefixDistance a b i (j + 1) + 1) (prefixDistance a b (i + 1) j + 1))
        (prefixDistance a b i j + if a[i]? = b[j]? then 0 else 1) := by
  have ha : (a.take (i + 1)).reverse = a[i] :: (a.take i).reverse := by
    rw [List.take_succ_eq_append_getElem hi, List.reverse_append]
    rfl
  have hb : (b.take (j + 1)).reverse = b[j] :: (b.take j).reverse := by
    rw [List.take_succ_eq_append_getElem hj, List.reverse_append]
    rfl
  simp only [prefixDistance, ha, hb, distance_cons_cons, mismatch, List.getElem?_eq_getElem hi,
    List.getElem?_eq_getElem hj, Option.some.injEq]

/-- The first rows are done, and the first column is there. -/
structure RowsDone (a b : Str) (k : Nat) (dp : Matrix) : Prop where
  cells : ∀ i ≤ k, ∀ j ≤ b.length, dp i j = prefixDistance a b i j
  column : ∀ i ≤ a.length, dp i 0 = i

theorem firstDp_done (a b : Str) : RowsDone a b 0 firstDp := by
  constructor
  · intro i hi j hj
    obtain rfl : i = 0 := Nat.le_zero.mp hi
    rw [prefixDistance_zero_left hj]
    rfl
  · intro i _
    cases i with
    | zero => rfl
    | succ i => rfl

theorem Matrix.set_self (dp : Matrix) (i j value : Nat) : dp.set i j value i j = value := by
  simp [Matrix.set]

theorem Matrix.set_of_ne {value i' j' : Nat} (h : i' ≠ i ∨ j' ≠ j) :
    dp.set i j value i' j' = dp i' j' := by
  by_cases hi : i' = i
  · subst hi
    have hj : j' ≠ j := h.resolve_left fun hi => hi rfl
    simp [Matrix.set, hj]
  · simp [Matrix.set, hi]

theorem fillCell_done {k : Nat} (hi : i < a.length) (hk : k < b.length)
    (hrows : RowsDone a b i dp) (hcells : ∀ j ≤ k, dp (i + 1) j = prefixDistance a b (i + 1) j) :
    RowsDone a b i (fillCell a b (i + 1) dp (k + 1)) ∧
      ∀ j ≤ k + 1, fillCell a b (i + 1) dp (k + 1) (i + 1) j = prefixDistance a b (i + 1) j := by
  unfold fillCell
  simp only [Nat.add_sub_cancel]
  refine ⟨⟨?_, ?_⟩, ?_⟩
  · intro i' hi' j hj
    rw [Matrix.set_of_ne (.inl (by omega))]
    exact hrows.cells i' hi' j hj
  · intro i' hi'
    rw [Matrix.set_of_ne (.inr (by omega))]
    exact hrows.column i' hi'
  · intro j hj
    rcases Nat.lt_or_ge k j with hlt | hge
    · obtain rfl : j = k + 1 := by omega
      rw [Matrix.set_self, prefixDistance_succ hi hk, hrows.cells i le_rfl _ hk,
        hrows.cells i le_rfl k hk.le, hcells k le_rfl]
    · rw [Matrix.set_of_ne (.inr (by omega))]
      exact hcells j hge

theorem fillRow_done (hi : i < a.length) (hrows : RowsDone a b i dp) :
    RowsDone a b (i + 1) (fillRow a b dp (i + 1)) := by
  have hdone : RowsDone a b i (fillRow a b dp (i + 1)) ∧
      ∀ j ≤ b.length, fillRow a b dp (i + 1) (i + 1) j = prefixDistance a b (i + 1) j := by
    refine @foldl_range' _ (fillCell a b (i + 1)) (fun k dp => RowsDone a b i dp ∧
      ∀ j ≤ k, dp (i + 1) j = prefixDistance a b (i + 1) j) 1 b.length dp ⟨hrows, ?_⟩ ?_
    · intro j hj
      rw [Nat.le_zero.mp hj, prefixDistance_zero_right hi]
      exact hrows.column (i + 1) hi
    · intro k hk dp hdp
      rw [Nat.add_comm 1 k]
      exact fillCell_done hi hk hdp.1 hdp.2
  refine ⟨fun i' hi' j hj => ?_, hdone.1.column⟩
  rcases Nat.lt_or_ge i i' with hlt | hge
  · obtain rfl : i' = i + 1 := by omega
    exact hdone.2 j hj
  · exact hdone.1.cells i' hge j hj

theorem editDistance_eq (a b : Str) : editDistance a b = distance a b := by
  unfold editDistance
  split
  · rename_i heq
    rw [heq, distance_self]
  · split
    · rename_i hnil
      rw [hnil, distance_nil_left]
    · split
      · rename_i hnil
        rw [hnil, distance_nil_right]
      · have hrows : RowsDone a b a.length
            ((List.range' 1 a.length).foldl (fillRow a b) firstDp) := by
          refine @foldl_range' _ _ (RowsDone a b) 1 a.length firstDp (firstDp_done a b) ?_
          intro k hk dp hdp
          rw [Nat.add_comm 1 k]
          exact fillRow_done hk hdp
        rw [hrows.cells a.length le_rfl b.length le_rfl, prefixDistance, List.take_length,
          List.take_length, distance_reverse]

/-! ### The scan -/

theorem length_le_distance (a b : Str) :
    ((b.length : Int) - a.length).natAbs ≤ distance a b := by
  have hlength := (edits_distance a b).length_le
  omega

theorem scanCandidates_le_iff (token : Str) {k : Nat} (hk : k = 1 ∨ k = 2) (best : WithTop Nat)
    (candidates : List Str) : scanCandidates token best candidates ≤ k ↔
      best ≤ k ∨ ∃ candidate ∈ candidates, distance token candidate ≤ k := by
  induction candidates generalizing best with
  | nil => simp [scanCandidates]
  | cons candidate rest ih =>
      rw [List.exists_mem_cons_iff, scanCandidates]
      extract_lets d best'
      split
      · rename_i hdelta
        have hfar : ¬ distance token candidate ≤ k := by
          have hlength := length_le_distance token candidate
          omega
        rw [ih best, or_iff_right hfar]
      · have hd : d ≤ (k : WithTop Nat) ↔ distance token candidate ≤ k := by
          rw [← editDistance_eq]
          exact Nat.cast_le
        have hbest : best' ≤ (k : WithTop Nat) ↔ best ≤ k ∨ distance token candidate ≤ k := by
          rw [← hd]
          unfold best'
          split
          · rename_i hlt
            exact ⟨.inr, fun h => h.elim hlt.le.trans id⟩
          · rename_i hge
            exact ⟨.inl, fun h => h.elim id (not_lt.mp hge).trans⟩
        split
        · rename_i hsmall
          have hle : best' ≤ (k : WithTop Nat) := by
            refine hsmall.trans ?_
            exact_mod_cast (show 1 ≤ k by omega)
          rw [iff_true_left hle]
          exact (hbest.mp hle).imp_right .inl
        · rw [ih best', hbest, or_assoc]

theorem distance_le_iff (a b : Str) (k : Nat) : distance a b ≤ k ↔ ∃ n ≤ k, Edits n a b :=
  ⟨fun h => ⟨_, h, edits_distance a b⟩, fun ⟨_, hn, h⟩ => h.distance_le.trans hn⟩

theorem search_measures_distance :
    (∀ a b : Str, IsLeast {n | Edits n a b} (editDistance a b)) ∧
      ∀ (token : Str) (candidates : List Str) (k : Nat), k = 1 ∨ k = 2 →
        (minEditDistanceWithin token candidates ≤ k ↔
          ∃ candidate ∈ candidates, ∃ n ≤ k, Edits n token candidate) := by
  constructor
  · intro a b
    rw [editDistance_eq]
    exact isLeast_distance a b
  · intro token candidates k hk
    simp only [minEditDistanceWithin, scanCandidates_le_iff token hk, distance_le_iff]
    exact or_iff_right (WithTop.not_top_le_coe k)

theorem search_measures_distance_typo :
    minEditDistanceWithin (units "houstn") [units "district", units "houston"] ≤ (2 : Nat) ↔
      ∃ candidate ∈ [units "district", units "houston"], ∃ n ≤ 2, Edits n (units "houstn") candidate :=
  search_measures_distance.2 _ _ 2 (.inr rfl)

end Frcmob.Search
