import Mathlib.Data.Finset.Card
import Mathlib.Data.Finset.Filter

/-!
Turns over a set that pick its oldest elements and leave them younger than the rest. An element
that is passed over has `cap` fewer older ones after the turn, so it is picked before the turns
have had room for the whole set.
-/

namespace Rotation

universe u v
variable {α : Type u} {κ : Type v} [DecidableEq α] [LinearOrder κ] {cap : Nat} {S : Finset α}

structure Turn (cap : Nat) (S : Finset α) (before after : α → κ) (picked : Finset α) : Prop where
  subset : picked ⊆ S
  full : picked.card < cap → S ⊆ picked
  oldest : ∀ x ∈ picked, ∀ y ∈ S, y ∉ picked → before x ≤ before y
  kept : ∀ y ∈ S, y ∉ picked → after y = before y
  younger : ∀ x ∈ picked, ∀ y ∈ S, y ∉ picked → before y < after x

/-- All others that are no younger. -/
def older (S : Finset α) (mark : α → κ) (y : α) : Finset α :=
  S.filter fun x => x ≠ y ∧ mark x ≤ mark y

variable {before after : α → κ} {picked : Finset α} {y : α}

theorem Turn.picked_older (h : Turn cap S before after picked) (hy : y ∈ S) (hout : y ∉ picked) :
    picked ⊆ older S before y := by
  intro x hx
  rw [older, Finset.mem_filter]
  refine ⟨h.subset hx, ?_, h.oldest x hx y hy hout⟩
  rintro rfl
  exact hout hx

theorem Turn.older_after (h : Turn cap S before after picked) (hy : y ∈ S) (hout : y ∉ picked) :
    older S after y ⊆ older S before y \ picked := by
  intro x hx
  obtain ⟨hxS, hne, hle⟩ := Finset.mem_filter.mp hx
  rw [h.kept y hy hout] at hle
  have hpassed : x ∉ picked := fun hx => (h.younger x hx y hy hout).not_ge hle
  rw [h.kept x hxS hpassed] at hle
  exact Finset.mem_sdiff.mpr ⟨Finset.mem_filter.mpr ⟨hxS, hne, hle⟩, hpassed⟩

theorem Turn.card_older (h : Turn cap S before after picked) (hy : y ∈ S) (hout : y ∉ picked) :
    (older S after y).card + cap ≤ (older S before y).card := by
  have hcap : cap ≤ picked.card := by
    by_contra hlt
    exact hout (h.full (not_le.mp hlt) hy)
  have hafter := Finset.card_le_card (h.older_after hy hout)
  have hbefore := Finset.card_le_card (h.picked_older hy hout)
  rw [Finset.card_sdiff_of_subset (h.picked_older hy hout)] at hafter
  omega

theorem exists_picked {marks : Nat → α → κ} {picked : Nat → Finset α} {turns : Nat}
    (hturn : ∀ k < turns, Turn cap S (marks k) (marks (k + 1)) (picked k))
    (hturns : S.card ≤ turns * cap) (hy : y ∈ S) : ∃ k < turns, y ∈ picked k := by
  by_contra hnone
  push Not at hnone
  have hleft : ∀ k ≤ turns, (older S (marks k) y).card + k * cap < S.card := by
    intro k
    induction k with
    | zero =>
        intro _
        rw [Nat.zero_mul, Nat.add_zero]
        refine Finset.card_lt_card ⟨Finset.filter_subset _ _, fun hall => ?_⟩
        exact (Finset.mem_filter.mp (hall hy)).2.1 rfl
    | succ k ih =>
        intro hk
        have hcard := (hturn k hk).card_older hy (hnone k hk)
        have hbefore := ih (Nat.le_of_succ_le hk)
        rw [Nat.succ_mul]
        omega
  have hlast := hleft turns le_rfl
  omega

end Rotation
