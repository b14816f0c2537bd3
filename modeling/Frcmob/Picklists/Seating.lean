import Mathlib.Data.List.Dedup
import Mathlib.Data.List.Perm.Subperm
import Mathlib.Tactic.IntervalCases
import Frcmob.Picklists.Draft

/-!
What a draft is, apart from the list it is kept in: the captains in the order of their
alliances, and the picks made with the alliance of each. The slots of a picklist show a
draft when each team's slot says which seat of it the team has.
-/

namespace Frcmob.Picklists

structure Seating where
  captains : List String
  made : List (String × Nat)

namespace Seating

def taken (d : Seating) : List String :=
  d.captains ++ d.made.map (·.1)

/-- How many picks an alliance has made. -/
def count (d : Seating) (number : Nat) : Nat :=
  (d.made.map (·.2)).count number

/-- The best-ranked team not on an alliance. -/
def next (d : Seating) (ranked : List String) : Option String :=
  ranked.find? fun team => team ∉ d.taken

/-- A captain who is picked leaves the captains, and the next ranked team joins them. -/
def pick (d : Seating) (ranked : List String) (team : String) (number : Nat) : Seating where
  captains :=
    if team ∈ d.captains then d.captains.erase team ++ (d.next ranked).toList else d.captains
  made := d.made ++ [(team, number)]

def decline (d : Seating) (team : String) : Seating :=
  { d with made := d.made.filter (·.1 ≠ team) }

structure Good (d : Seating) : Prop where
  length : d.captains.length = allianceCount
  nodup : d.taken.Nodup
  numbers : ∀ p ∈ d.made, 1 ≤ p.2 ∧ p.2 ≤ allianceCount
  counts : ∀ number, d.count number ≤ 2

end Seating

/-! ### The seat on the clock -/

theorem seats_decided : ∀ p ∈ pickOrder.zipIdx, 1 ≤ p.1 ∧ p.1 ≤ allianceCount ∧
    (pickOrder.take (p.2 + 1)).count p.1 ≤ 2 ∧
      (p.2 < allianceCount → (pickOrder.take (p.2 + 1)).count p.1 = 1) := by
  decide

theorem openSeat_eq_some {picks : Nat → Nat} {number i : Nat}
    (h : openSeat picks = some (number, i)) : 1 ≤ number ∧ number ≤ allianceCount ∧
      picks number < 2 ∧ (i < allianceCount → picks number = 0) := by
  obtain ⟨hlow, hhigh, htwo, hone⟩ := seats_decided _ (List.mem_of_find?_eq_some h)
  have hopen : picks number < (pickOrder.take (i + 1)).count number := by
    simpa using List.find?_some h
  refine ⟨hlow, hhigh, hopen.trans_le htwo, fun hi => ?_⟩
  exact Nat.lt_one_iff.mp (hopen.trans_eq (hone hi))

/-- In round one the alliances pick in their order. -/
theorem first_seats : ∀ p ∈ pickOrder.zipIdx, p.2 < allianceCount → p.1 = p.2 + 1 := by
  decide

theorem second_seats : ∀ number < allianceCount + 1, 0 < number →
    (number, 16 - number) ∈ pickOrder.zipIdx ∧
      (pickOrder.take (16 - number + 1)).count number = 2 := by
  decide

theorem openSeat_eq_none {picks : Nat → Nat} :
    openSeat picks = none ↔ ∀ number, 1 ≤ number → number ≤ allianceCount → 2 ≤ picks number := by
  simp only [openSeat, List.find?_eq_none, decide_eq_true_eq, Nat.not_lt, Prod.forall]
  constructor
  · intro h number hlow hhigh
    obtain ⟨hmem, hcount⟩ := second_seats number (by omega) hlow
    exact hcount ▸ h number (16 - number) hmem
  · intro h number i hmem
    obtain ⟨hlow, hhigh, htwo, -⟩ := seats_decided _ hmem
    exact htwo.trans (h number hlow hhigh)

/-- In pick order the seat on the clock is the next one. -/
theorem openSeat_take : ∀ j < 17,
    openSeat (fun number => (pickOrder.take j).count number) = pickOrder.zipIdx[j]? := by
  decide +kernel

/-! ### Drafts that stay good -/

namespace Seating
variable {d : Seating} {ranked : List String} {team : String} {number : Nat}

theorem mem_next {promoted : String} (h : d.next ranked = some promoted) :
    promoted ∈ ranked ∧ promoted ∉ d.taken :=
  ⟨List.mem_of_find?_eq_some h, by simpa using List.find?_some h⟩

/-- With more ranked teams than seats taken, someone is next. -/
theorem exists_next (h : d.taken.length < ranked.dedup.length) :
    ∃ promoted, d.next ranked = some promoted := by
  cases hnext : d.next ranked with
  | some promoted => exact ⟨promoted, rfl⟩
  | none =>
      have hsub : ranked.dedup ⊆ d.taken := by
        intro t ht
        simpa using List.find?_eq_none.mp hnext t (List.mem_dedup.mp ht)
      have hle := (List.Nodup.subperm (List.nodup_dedup ranked) hsub).length_le
      omega

theorem count_pick (d : Seating) (ranked : List String) (team : String) (number n : Nat) :
    (d.pick ranked team number).count n = d.count n + if n = number then 1 else 0 := by
  by_cases h : n = number
  · simp [count, pick, h]
  · simp [count, pick, h, Ne.symm h]

theorem taken_pick (hmem : team ∉ d.captains) :
    (d.pick ranked team number).taken = d.taken ++ [team] := by
  simp [taken, pick, hmem]

theorem Good.captains_nodup (h : d.Good) : d.captains.Nodup :=
  (List.nodup_append.mp h.nodup).1

theorem Good.made_nodup (h : d.Good) : (d.made.map (·.1)).Nodup :=
  (List.nodup_append.mp h.nodup).2.1

theorem Good.notMem_made (h : d.Good) (hcaptain : team ∈ d.captains) :
    team ∉ d.made.map (·.1) :=
  fun hmade => (List.nodup_append.mp h.nodup).2.2 team hcaptain team hmade rfl

/-- A team that is on no alliance, or a captain whose seat is filled again, is picked. -/
theorem Good.pick (h : d.Good) (hteam : team ∉ d.made.map (·.1))
    (hnext : team ∈ d.captains → ∃ promoted, d.next ranked = some promoted)
    (hnumber : 1 ≤ number ∧ number ≤ allianceCount) (hcount : d.count number < 2) :
    (d.pick ranked team number).Good := by
  have hnumbers : ∀ p ∈ d.made ++ [(team, number)], 1 ≤ p.2 ∧ p.2 ≤ allianceCount := by
    intro p hp
    cases List.mem_append.mp hp with
    | inl hold => exact h.numbers p hold
    | inr hlast => rwa [List.mem_singleton.mp hlast]
  have hcounts : ∀ n, (d.pick ranked team number).count n ≤ 2 := by
    intro n
    rw [count_pick]
    by_cases hn : n = number
    · rw [if_pos hn, hn]
      omega
    · rw [if_neg hn]
      exact h.counts n
  by_cases hcaptain : team ∈ d.captains
  · obtain ⟨promoted, hpromoted⟩ := hnext hcaptain
    have hfresh := (mem_next hpromoted).2
    have hpos := List.length_pos_of_mem hcaptain
    refine ⟨?_, ?_, hnumbers, hcounts⟩
    · simp [Seating.pick, hcaptain, hpromoted, List.length_erase_of_mem, h.length]
      rfl
    · have hperm : (d.pick ranked team number).taken.Perm (promoted :: d.taken) := by
        simp only [taken, Seating.pick, hcaptain, hpromoted, if_true, Option.toList_some,
          List.map_append, List.map_cons, List.map_nil, List.append_assoc, List.singleton_append]
        refine List.perm_middle.trans (.cons _ ?_)
        refine (List.Perm.append_left _ (List.perm_append_singleton ..)).trans ?_
        refine List.perm_middle.trans ?_
        exact ((List.perm_cons_erase hcaptain).symm).append_right _
      exact hperm.nodup_iff.mpr (List.nodup_cons.mpr ⟨hfresh, h.nodup⟩)
  · refine ⟨?_, ?_, hnumbers, hcounts⟩
    · simpa [Seating.pick, hcaptain] using h.length
    · rw [taken_pick hcaptain]
      have hfresh : team ∉ d.taken := by
        simp only [taken, List.mem_append, not_or]
        exact ⟨hcaptain, hteam⟩
      exact (List.perm_append_singleton ..).nodup_iff.mpr (List.nodup_cons.mpr ⟨hfresh, h.nodup⟩)

theorem Good.decline (h : d.Good) (team : String) : (d.decline team).Good := by
  have hsub : (d.decline team).made.Sublist d.made := List.filter_sublist
  refine ⟨h.length, ?_, fun p hp => h.numbers p (hsub.subset hp), fun n => ?_⟩
  · exact List.Nodup.sublist ((List.Sublist.refl _).append (hsub.map _)) h.nodup
  · exact ((hsub.map _).count_le n).trans (h.counts n)

/-- Each alliance has at most two picks, and each pick an alliance. -/
theorem length_eq_counts {numbers : List Nat} (h : ∀ n ∈ numbers, 1 ≤ n ∧ n ≤ 8) :
    numbers.length = numbers.count 1 + numbers.count 2 + numbers.count 3 + numbers.count 4 +
      numbers.count 5 + numbers.count 6 + numbers.count 7 + numbers.count 8 := by
  induction numbers with
  | nil => rfl
  | cons n rest ih =>
      have hrest := ih fun m hm => h m (List.mem_cons_of_mem _ hm)
      obtain ⟨hlow, hhigh⟩ := h n List.mem_cons_self
      simp only [List.length_cons, List.count_cons, hrest]
      interval_cases n <;> simp <;> omega

/-- An alliance without a pick leaves room for fourteen. -/
theorem Good.length_made (h : d.Good) (hnumber : 1 ≤ number ∧ number ≤ allianceCount)
    (hcount : d.count number = 0) : d.made.length ≤ 14 := by
  have hlength := @length_eq_counts (d.made.map (·.2)) fun n hn => by
    obtain ⟨p, hp, rfl⟩ := List.mem_map.mp hn
    exact h.numbers p hp
  rw [List.length_map] at hlength
  have hcounts : ∀ n, (d.made.map (·.2)).count n ≤ 2 := h.counts
  rw [count] at hcount
  have h1 := hcounts 1
  have h2 := hcounts 2
  have h3 := hcounts 3
  have h4 := hcounts 4
  have h5 := hcounts 5
  have h6 := hcounts 6
  have h7 := hcounts 7
  have h8 := hcounts 8
  obtain ⟨hlow, hhigh⟩ := hnumber
  simp only [allianceCount] at hhigh
  interval_cases number <;> omega

theorem Good.length_taken (h : d.Good) : d.taken.length = 8 + d.made.length := by
  rw [taken, List.length_append, h.length, List.length_map]
  rfl

end Seating

end Frcmob.Picklists
