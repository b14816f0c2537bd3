import Frcmob.Picklists.Seating

/-!
The slots of a picklist show a draft, and the operations of `draft.ts` on the slots are the
operations on the draft: eight captains, no team on two alliances, at most two picks each,
and the picks in pick order as long as none is taken back.
-/

namespace Frcmob.Picklists
open Transition

/-- What a team's slot says. -/
def seatOf (slots : List PicklistSlot) (t : String) : Option (PicklistSlotStatus × Option Nat) :=
  (slotOf slots t).map fun slot => (slot.status, slot.pickedByAlliance)

structure Shows (slots : List PicklistSlot) (d : Seating) : Prop where
  oneStatus : OneStatus slots
  captain : ∀ t n, seatOf slots t = some (.captain, n) ↔
    ∃ i, d.captains[i]? = some t ∧ n = some (i + 1)
  picked : ∀ t n, seatOf slots t = some (.picked, n) ↔
    ∃ number, (t, number) ∈ d.made ∧ n = some number

theorem seatOf_eq_some {slots : List PicklistSlot} {t : String} {status : PicklistSlotStatus}
    {n : Option Nat} : seatOf slots t = some (status, n) ↔
      ∃ slot, slotOf slots t = some slot ∧ slot.status = status ∧ slot.pickedByAlliance = n := by
  simp [seatOf, Option.map_eq_some_iff]

namespace Shows
variable {slots : List PicklistSlot} {d : Seating}

theorem captainOf (h : Shows slots d) (i : Nat) :
    captainOf slots (i + 1) = d.captains[i]? := by
  cases hcaptain : Picklists.captainOf slots (i + 1) with
  | some t =>
      obtain ⟨j, hj, heq⟩ := (h.captain t _).mp
        (seatOf_eq_some.mpr (captainOf_eq_some h.oneStatus hcaptain))
      obtain rfl : i = j := by simpa using heq
      exact hj.symm
  | none =>
      cases hseat : d.captains[i]? with
      | none => rfl
      | some t =>
          obtain ⟨slot, hslot, hstatus, hnumber⟩ :=
            seatOf_eq_some.mp ((h.captain t _).mpr ⟨i, hseat, rfl⟩)
          have hnone := List.find?_eq_none.mp (Option.map_eq_none_iff.mp hcaptain) slot
            (mem_of_slotOf hslot)
          simp [hstatus, hnumber] at hnone

theorem mem_picksOf (h : Shows slots d) {t : String} {number : Nat} :
    t ∈ picksOf slots number ↔ (t, number) ∈ d.made := by
  rw [Picklists.mem_picksOf h.oneStatus, ← seatOf_eq_some, h.picked]
  simp

theorem nodup_picksOf (hone : OneStatus slots) (number : Nat) : (picksOf slots number).Nodup := by
  refine List.pairwise_map.mpr ?_
  refine (hone.sublist List.filter_sublist).imp_of_mem fun {a b} _ hb hab heq => ?_
  have hstatus : b.status = .picked := (by simpa using (List.mem_filter.mp hb).2 : _ ∧ _).1
  rw [hab heq] at hstatus
  cases hstatus

/-- An alliance's picks in the list, in whatever order the slots have. -/
theorem perm_picksOf (h : Shows slots d) (hgood : d.Good) (number : Nat) :
    (picksOf slots number).Perm ((d.made.filter (·.2 = number)).map (·.1)) := by
  refine (List.perm_ext_iff_of_nodup (nodup_picksOf h.oneStatus number) ?_).mpr fun t => ?_
  · exact hgood.made_nodup.sublist (List.filter_sublist.map _)
  · rw [h.mem_picksOf]
    simp

theorem length_picksOf (h : Shows slots d) (hgood : d.Good) (number : Nat) :
    (picksOf slots number).length = d.count number := by
  rw [(h.perm_picksOf hgood number).length_eq, List.length_map, Seating.count, List.count,
    List.countP_map, List.countP_eq_length_filter]
  rfl

theorem alliance (h : Shows slots d) {alliance : Alliance} (ha : alliance ∈ alliancesOf slots) :
    ∃ i, i < allianceCount ∧ alliance.number = i + 1 ∧ alliance.captain = d.captains[i]? ∧
      alliance.picks = picksOf slots (i + 1) := by
  obtain ⟨i, hi, rfl⟩ := List.mem_map.mp ha
  exact ⟨i, List.mem_range.mp hi, rfl, h.captainOf i, rfl⟩

theorem mem_taken (h : Shows slots d) (hgood : d.Good) {t : String} :
    t ∈ (draftFromSlots slots).taken ↔ t ∈ d.taken := by
  simp only [draftFromSlots, takenTeams, List.mem_flatMap, List.mem_append, Option.mem_toList,
    Seating.taken, List.mem_map]
  constructor
  · intro ht
    obtain ⟨alliance, ha, hteam⟩ := ht
    obtain ⟨i, -, -, hcaptain, hpicks⟩ := h.alliance ha
    cases hteam with
    | inl hc => exact .inl (List.mem_of_getElem? (hcaptain.symm.trans hc))
    | inr hp => exact .inr ⟨(t, i + 1), h.mem_picksOf.mp (hpicks ▸ hp), rfl⟩
  · intro ht
    cases ht with
    | inl hc =>
        obtain ⟨i, hi⟩ := List.mem_iff_getElem?.mp hc
        have hlt : i < allianceCount := hgood.length ▸ (List.getElem?_eq_some_iff.mp hi).1
        exact ⟨_, mem_alliancesOf hlt slots, .inl ((h.captainOf i).trans hi)⟩
    | inr hp =>
        obtain ⟨p, hp, rfl⟩ := hp
        obtain ⟨hlow, hhigh⟩ := hgood.numbers p hp
        refine ⟨_, mem_alliancesOf (i := p.2 - 1) (by omega) slots, .inr ?_⟩
        simpa [allianceAt, Nat.sub_add_cancel hlow] using h.mem_picksOf.mpr hp

theorem hasCaptains (h : Shows slots d) (hgood : d.Good) :
    (draftFromSlots slots).hasCaptains = true := by
  refine List.all_eq_true.mpr fun alliance ha => ?_
  obtain ⟨i, hi, -, hcaptain, -⟩ := h.alliance ha
  rw [hcaptain, List.getElem?_eq_getElem (hgood.length.symm ▸ hi)]
  rfl

theorem onClock (h : Shows slots d) (hgood : d.Good) :
    (draftFromSlots slots).onClock = (openSeat d.count).map fun (number, i) =>
      { alliance := number, round := if i < allianceCount then 1 else 2 } := by
  have hcaptains := h.hasCaptains hgood
  have hcounts : (fun number => (picksOf slots number).length) = d.count :=
    funext (h.length_picksOf hgood)
  simp only [draftFromSlots] at hcaptains ⊢
  rw [if_pos hcaptains, hcounts]

end Shows

/-! ### Seats given and taken -/

theorem idxOf_of_getElem? {l : List String} (h : l.Nodup) {i : Nat} {u : String}
    (hi : l[i]? = some u) : l.idxOf u = i := by
  obtain ⟨hlt, rfl⟩ := List.getElem?_eq_some_iff.mp hi
  exact h.idxOf_getElem i hlt

theorem mem_drop_of_getElem? {l : List String} (h : l.Nodup) {i k : Nat} {u : String}
    (hi : l[i]? = some u) : u ∈ l.drop k ↔ k ≤ i := by
  rw [List.mem_iff_getElem?]
  constructor
  · intro hdrop
    obtain ⟨m, hm⟩ := hdrop
    rw [List.getElem?_drop] at hm
    have hsame := (idxOf_of_getElem? h hi).symm.trans (idxOf_of_getElem? h hm)
    omega
  · intro hle
    exact ⟨i - k, by rw [List.getElem?_drop, Nat.add_sub_cancel' hle, hi]⟩

/-- One leaves the list and another joins it at its end. -/
theorem getElem?_eraseIdx_append {l : List String} {j : Nat} (hj : j < l.length) (x : String)
    (i : Nat) (u : String) : (l.eraseIdx j ++ [x])[i]? = some u ↔
      (i < j ∧ l[i]? = some u) ∨ (j ≤ i ∧ l[i + 1]? = some u) ∨ (i + 1 = l.length ∧ u = x) := by
  have hlength : (l.eraseIdx j).length = l.length - 1 := List.length_eraseIdx_of_lt hj
  rw [List.getElem?_append, List.getElem?_eraseIdx, hlength]
  by_cases hi : i < l.length - 1
  · have hne : i + 1 ≠ l.length := by omega
    by_cases hij : i < j
    · simp [hi, hij, hne, Nat.not_le.mpr hij]
    · simp [hi, hij, hne, Nat.not_lt.mp hij]
  · have hnone : l[i + 1]? = none := List.getElem?_eq_none (by omega)
    have hji : ¬ i < j := by omega
    by_cases hlast : i + 1 = l.length
    · have hzero : i - (l.length - 1) = 0 := by omega
      simp [hi, hji, hlast, hzero, eq_comm]
    · have hend : [x][i - (l.length - 1)]? = none := List.getElem?_eq_none (by simp; omega)
      simp [hi, hji, hnone, hlast, hend]

/-- A team is given a seat. -/
theorem seatOf_place {f : PicklistSlot → PicklistSlot} (hf : ∀ s, (f s).teamKey = s.teamKey)
    (seat : PicklistSlotStatus × Option Nat)
    (hseat : ∀ s, ((f s).status, (f s).pickedByAlliance) = seat) (slots : List PicklistSlot)
    (t u : String) : seatOf (setSlot (withTeams slots [t]) t f) u =
      if u = t then some seat else seatOf slots u := by
  rw [seatOf, slotOf_setSlot hf]
  by_cases hu : u = t
  · have hslot : ∃ slot, slotOf (withTeams slots [t]) t = some slot := by
      rw [slotOf_withTeams]
      cases slotOf slots t with
      | none => exact ⟨blankSlot t, by simp⟩
      | some slot => exact ⟨slot, rfl⟩
    obtain ⟨slot, hslot⟩ := hslot
    simp only [hu, if_true, hslot, Option.map_some, hseat]
  · simp [hu, slotOf_withTeams, seatOf]

namespace Shows
variable {slots : List PicklistSlot} {d : Seating}

theorem not_captain_of_made (h : Shows slots d) {t : String} (hmade : t ∈ d.made.map (·.1)) :
    t ∉ d.captains := by
  intro hcaptain
  obtain ⟨p, hp, rfl⟩ := List.mem_map.mp hmade
  obtain ⟨i, hi⟩ := List.mem_iff_getElem?.mp hcaptain
  have hseat := ((h.picked p.1 _).mpr ⟨p.2, hp, rfl⟩).symm.trans
    ((h.captain p.1 _).mpr ⟨i, hi, rfl⟩)
  cases hseat

theorem distinct_captains (hgood : d.Good) (h : Shows slots d) :
    (alliancesOf slots).Pairwise fun a b => a.captain = b.captain → a.captain = none := by
  refine List.pairwise_map.mpr (List.nodup_range.imp_of_mem fun {i j} hi hj hne heq => ?_)
  simp only [allianceAt, h.captainOf] at heq ⊢
  have hlt : i < d.captains.length := hgood.length.symm ▸ List.mem_range.mp hi
  exact absurd ((List.getElem?_inj hlt hgood.captains_nodup).mp heq) hne

/-- The alliance that a captain leaves. -/
theorem find_leaving (h : Shows slots d) (hgood : d.Good) {t : String} {j : Nat}
    (hj : d.captains[j]? = some t) :
    ∃ leaving, ((alliancesOf slots).find? fun alliance => alliance.captain = some t) =
      some leaving ∧ leaving.number = j + 1 := by
  have hlt : j < d.captains.length := (List.getElem?_eq_some_iff.mp hj).1
  cases hfind : (alliancesOf slots).find? fun alliance => alliance.captain = some t with
  | none =>
      have hne := List.find?_eq_none.mp hfind _ (mem_alliancesOf (hgood.length ▸ hlt) slots)
      simp [allianceAt, h.captainOf, hj] at hne
  | some leaving =>
      obtain ⟨i, -, hnumber, hcaptain, -⟩ := h.alliance (List.mem_of_find?_eq_some hfind)
      have hi : d.captains[i]? = some t := by
        rw [← hcaptain]
        simpa using List.find?_some hfind
      obtain rfl : j = i := (List.getElem?_inj hlt hgood.captains_nodup).mp (hj.trans hi.symm)
      exact ⟨leaving, rfl, hnumber⟩

theorem find_leaving_none (h : Shows slots d) {t : String} (ht : t ∉ d.captains) :
    ((alliancesOf slots).find? fun alliance => alliance.captain = some t) = none := by
  refine List.find?_eq_none.mpr fun alliance ha => ?_
  obtain ⟨i, -, -, hcaptain, -⟩ := h.alliance ha
  rw [hcaptain]
  simpa using fun hi => ht (List.mem_of_getElem? hi)

/-- The seats of the captains after one of them has left. -/
theorem seatOf_moveUp (h : Shows slots d) (hgood : d.Good) {j : Nat} (next : List PicklistSlot)
    (u : String) : seatOf (moveUp (alliancesOf slots) (j + 1) next) u =
      (seatOf next u).map fun seat =>
        if u ∈ d.captains.drop (j + 1) then (seat.1, some (d.captains.idxOf u)) else seat := by
  by_cases hbelow : u ∈ d.captains.drop (j + 1)
  · obtain ⟨k, hk⟩ := List.mem_iff_getElem?.mp hbelow
    rw [List.getElem?_drop] at hk
    have hlt := (List.getElem?_eq_some_iff.mp hk).1
    have hindex : d.captains.idxOf u = j + 1 + k := by
      rw [(List.getElem?_eq_some_iff.mp hk).2.symm]
      exact hgood.captains_nodup.idxOf_getElem _ hlt
    have hbelow' : j + 1 < (allianceAt slots (j + 1 + k + 1)).number := by
      simp only [allianceAt]
      omega
    have hmoved := slotOf_moveUp (h.distinct_captains hgood)
      (mem_alliancesOf (hgood.length ▸ hlt) slots) ((h.captainOf _).trans hk) hbelow' next
    simp [seatOf, allianceAt, hmoved, hbelow, hindex, PicklistSlot.moveTo, Function.comp_def]
  · have hstays : ∀ alliance ∈ alliancesOf slots, alliance.captain = some u →
        alliance.number ≤ j + 1 := by
      intro alliance ha hcaptain
      obtain ⟨i, -, hnumber, hseat, -⟩ := h.alliance ha
      rw [hnumber]
      by_contra hlt
      have hi : i = j + 1 + (i - (j + 1)) := by omega
      refine hbelow (List.mem_iff_getElem?.mpr ⟨i - (j + 1), ?_⟩)
      rw [List.getElem?_drop, ← hi, ← hseat, hcaptain]
    simp [seatOf, slotOf_moveUp_of_le hstays, hbelow, Function.comp_def]

theorem seatOf_pick (slots : List PicklistSlot) (t : String) (number : Nat) (u : String) :
    seatOf (setSlot (withTeams slots [t]) t (·.pick number)) u =
      if u = t then some (.picked, some number) else seatOf slots u :=
  seatOf_place (PicklistSlot.teamKey_pick number) _ (fun _ => rfl) slots t u

/-- A pick of a team that is not a captain. -/
theorem pickOther (h : Shows slots d) {t : String} {number : Nat} (hcaptain : t ∉ d.captains)
    (hmade : t ∉ d.made.map (·.1)) (ranked : List String) :
    Shows (setSlot (withTeams slots [t]) t (·.pick number)) (d.pick ranked t number) := by
  refine ⟨(h.oneStatus.withTeams [t]).setSlot t (PicklistSlot.teamKey_pick number),
    fun u n => ?_, fun u n => ?_⟩
  · rw [seatOf_pick, Seating.pick, if_neg hcaptain]
    by_cases hu : u = t
    · simpa [hu] using fun i hi => absurd (List.mem_of_getElem? hi) hcaptain
    · rw [if_neg hu, h.captain]
  · rw [seatOf_pick, Seating.pick]
    by_cases hu : u = t
    · have hnone : ∀ m, (t, m) ∉ d.made := fun m hm => hmade (List.mem_map_of_mem hm)
      simp [hu, hnone, eq_comm]
    · simp [h.picked, hu]

/-- The slots after a captain is picked and the next ranked team promoted. -/
def promoteSlots (slots : List PicklistSlot) (t : String) (number leaving : Nat)
    (promoted : String) : List PicklistSlot :=
  setSlot (withTeams (moveUp (alliancesOf slots) leaving
    (setSlot (withTeams slots [t]) t (·.pick number))) [promoted]) promoted
    (·.makeCaptain allianceCount)

theorem seatOf_promoteSlots (h : Shows slots d) (hgood : d.Good) (t : String) (number j : Nat)
    (promoted u : String) : seatOf (promoteSlots slots t number (j + 1) promoted) u =
      if u = promoted then some (.captain, some allianceCount)
      else (if u = t then some (.picked, some number) else seatOf slots u).map fun seat =>
        if u ∈ d.captains.drop (j + 1) then (seat.1, some (d.captains.idxOf u)) else seat := by
  rw [promoteSlots, seatOf_place (PicklistSlot.teamKey_makeCaptain allianceCount)
    (.captain, some allianceCount) (fun _ => rfl), h.seatOf_moveUp hgood, seatOf_pick]

/-- The captains below move up into the seat. -/
theorem captain_promoteSlots (h : Shows slots d) (hgood : d.Good) {t promoted : String}
    {number j : Nat} (hj : d.captains[j]? = some t) (hcaptain : promoted ∉ d.captains)
    (u : String) (n : Option Nat) :
    seatOf (promoteSlots slots t number (j + 1) promoted) u = some (.captain, n) ↔
      ∃ i, (d.captains.eraseIdx j ++ [promoted])[i]? = some u ∧ n = some (i + 1) := by
  have hlt : j < d.captains.length := (List.getElem?_eq_some_iff.mp hj).1
  have hnodup := hgood.captains_nodup
  rw [h.seatOf_promoteSlots hgood]
  simp only [getElem?_eraseIdx_append hlt]
  by_cases hpromoted : u = promoted
  · have hnot : ∀ i : Nat, d.captains[i]? ≠ some promoted :=
      fun i hi => hcaptain (List.mem_of_getElem? hi)
    simp [hpromoted, hnot, hgood.length, allianceCount, eq_comm]
  simp only [hpromoted, and_false, or_false, if_false]
  by_cases hu : u = t
  · have hindex : d.captains.idxOf u = j := hu ▸ idxOf_of_getElem? hnodup hj
    have hdrop : u ∉ d.captains.drop (j + 1) := by
      rw [hu, mem_drop_of_getElem? hnodup hj]
      omega
    simp only [if_pos hu, Option.map_some, if_neg hdrop]
    constructor
    · intro heq
      cases heq
    · intro hplace
      obtain ⟨i, hi, -⟩ := hplace
      cases hi with
      | inl hi => exact absurd ((idxOf_of_getElem? hnodup hi.2).symm.trans hindex) (by omega)
      | inr hi => exact absurd ((idxOf_of_getElem? hnodup hi.2).symm.trans hindex) (by omega)
  rw [if_neg hu]
  constructor
  · intro hsome
    obtain ⟨⟨status, m⟩, hold, heq⟩ := Option.map_eq_some_iff.mp hsome
    obtain rfl : status = .captain := by
      split at heq <;> exact (Prod.mk.inj heq).1
    obtain ⟨i, hi, rfl⟩ := (h.captain u m).mp hold
    have hij : i ≠ j := fun heq => hu (Option.some_inj.mp ((heq ▸ hi).symm.trans hj))
    by_cases hdrop : j + 1 ≤ i
    · rw [if_pos ((mem_drop_of_getElem? hnodup hi).mpr hdrop)] at heq
      refine ⟨i - 1, .inr ⟨by omega, by rwa [Nat.sub_add_cancel (by omega)]⟩, ?_⟩
      rw [← (Prod.mk.inj heq).2, idxOf_of_getElem? hnodup hi, Nat.sub_add_cancel (by omega)]
    · rw [if_neg (fun hd => hdrop ((mem_drop_of_getElem? hnodup hi).mp hd))] at heq
      exact ⟨i, .inl ⟨by omega, hi⟩, (Prod.mk.inj heq).2.symm⟩
  · intro hplace
    obtain ⟨i, hi, rfl⟩ := hplace
    cases hi with
    | inl hi =>
        have hdrop : u ∉ d.captains.drop (j + 1) := by
          rw [mem_drop_of_getElem? hnodup hi.2]
          omega
        rw [(h.captain u _).mpr ⟨i, hi.2, rfl⟩, Option.map_some, if_neg hdrop]
    | inr hi =>
        have hdrop : u ∈ d.captains.drop (j + 1) := by
          rw [mem_drop_of_getElem? hnodup hi.2]
          omega
        rw [(h.captain u _).mpr ⟨i + 1, hi.2, rfl⟩, Option.map_some, if_pos hdrop,
          idxOf_of_getElem? hnodup hi.2]

theorem picked_promoteSlots (h : Shows slots d) (hgood : d.Good) {t promoted : String}
    {number j : Nat} (hj : d.captains[j]? = some t) (hpromoted : promoted ∉ d.taken)
    (u : String) (n : Option Nat) :
    seatOf (promoteSlots slots t number (j + 1) promoted) u = some (.picked, n) ↔
      ∃ m, (u, m) ∈ d.made ++ [(t, number)] ∧ n = some m := by
  have hnodup := hgood.captains_nodup
  have hmem : t ∈ d.captains := List.mem_of_getElem? hj
  have hne : promoted ≠ t := fun heq => hpromoted (heq ▸ List.mem_append_left _ hmem)
  rw [h.seatOf_promoteSlots hgood]
  simp only [List.mem_append, List.mem_singleton, Prod.mk.injEq]
  by_cases hu : u = promoted
  · have hnone : ∀ m, (promoted, m) ∉ d.made :=
      fun m hm => hpromoted (List.mem_append_right _ (List.mem_map_of_mem hm))
    simp [hu, hnone, hne]
  rw [if_neg hu]
  by_cases ht : u = t
  · have hnone : ∀ m, (t, m) ∉ d.made :=
      fun m hm => hgood.notMem_made hmem (List.mem_map_of_mem hm)
    have hdrop : t ∉ d.captains.drop (j + 1) := by
      rw [mem_drop_of_getElem? hnodup hj]
      omega
    simp [ht, hdrop, hnone, eq_comm]
  simp only [ht, if_false, false_and, or_false]
  rw [← h.picked]
  by_cases hdrop : u ∈ d.captains.drop (j + 1)
  · obtain ⟨i, hi⟩ := List.mem_iff_getElem?.mp (List.mem_of_mem_drop hdrop)
    rw [(h.captain u _).mpr ⟨i, hi, rfl⟩, Option.map_some, if_pos hdrop]
    simp
  · simp [hdrop]

/-- A pick of a captain, whose seat the captains below and the next ranked team fill. -/
theorem pickCaptain (h : Shows slots d) (hgood : d.Good) {t promoted : String} {number j : Nat}
    (hj : d.captains[j]? = some t) {ranked : List String}
    (hnext : d.next ranked = some promoted) :
    Shows (promoteSlots slots t number (j + 1) promoted) (d.pick ranked t number) := by
  have hfresh := (Seating.mem_next hnext).2
  have hcaptain : promoted ∉ d.captains := fun hc => hfresh (List.mem_append_left _ hc)
  have hcaptains : (d.pick ranked t number).captains = d.captains.eraseIdx j ++ [promoted] := by
    simp only [Seating.pick, if_pos (List.mem_of_getElem? hj), hnext, Option.toList_some]
    rw [List.erase_eq_eraseIdx_of_idxOf (idxOf_of_getElem? hgood.captains_nodup hj)]
  refine ⟨?_, fun u n => ?_, h.picked_promoteSlots hgood hj hfresh⟩
  · exact ((((h.oneStatus.withTeams [t]).setSlot t (PicklistSlot.teamKey_pick number)).moveUp
      (alliancesOf slots) (j + 1)).withTeams [promoted]).setSlot promoted
        (PicklistSlot.teamKey_makeCaptain allianceCount)
  · rw [hcaptains]
    exact h.captain_promoteSlots hgood hj hcaptain u n

/-! ### The operations -/

/-- Who may be picked, and by which alliance. -/
theorem acceptedBy_iff (h : Shows slots d) (hgood : d.Good) {t : String} {number : Nat} :
    acceptedBy slots t = some number ↔ ∃ i, openSeat d.count = some (number, i) ∧
      t ∉ (draftFromSlots slots).refused ∧
        (t ∉ d.taken ∨ i < allianceCount ∧ ∃ j, d.captains[j]? = some t ∧ number < j + 1) := by
  have hclock := h.onClock hgood
  have hbelow : ∀ clock : OnClock, isCaptainBelow (draftFromSlots slots) t clock = true ↔
      clock.round = 1 ∧ ∃ j, d.captains[j]? = some t ∧ clock.alliance < j + 1 := by
    intro clock
    by_cases hcaptain : t ∈ d.captains
    · obtain ⟨j, hj⟩ := List.mem_iff_getElem?.mp hcaptain
      obtain ⟨leaving, hleaving, hnumber⟩ := h.find_leaving hgood hj
      have hfind : (draftFromSlots slots).alliances.find?
          (fun alliance => alliance.captain = some t) = some leaving := hleaving
      simp only [isCaptainBelow, hfind, hnumber, Bool.and_eq_true, decide_eq_true_eq]
      constructor
      · exact fun hlt => ⟨hlt.2, j, hj, hlt.1⟩
      · intro hlt
        obtain ⟨hround, k, hk, hlt⟩ := hlt
        have hsame : j = k := (idxOf_of_getElem? hgood.captains_nodup hj).symm.trans
          (idxOf_of_getElem? hgood.captains_nodup hk)
        exact ⟨hsame ▸ hlt, hround⟩
    · have hfind : (draftFromSlots slots).alliances.find?
          (fun alliance => alliance.captain = some t) = none := h.find_leaving_none hcaptain
      simp only [isCaptainBelow, hfind]
      constructor
      · exact nofun
      · exact fun ⟨_, j, hj, _⟩ => absurd (List.mem_of_getElem? hj) hcaptain
  have htaken : t ∈ (draftFromSlots slots).taken ↔ t ∈ d.taken := h.mem_taken hgood
  cases hseat : openSeat d.count with
  | none =>
      rw [hseat, Option.map_none] at hclock
      simp [acceptedBy, canBePicked, hclock]
  | some seat =>
      obtain ⟨n, i⟩ := seat
      rw [hseat, Option.map_some] at hclock
      have hround : (if i < allianceCount then 1 else 2) = 1 ↔ i < allianceCount := by
        split <;> simp_all
      have hpick : canBePicked (draftFromSlots slots) t = true ↔
          t ∉ (draftFromSlots slots).refused ∧
            (t ∉ d.taken ∨ i < allianceCount ∧ ∃ j, d.captains[j]? = some t ∧ n < j + 1) := by
        rw [canBePicked, hclock]
        simp only [Bool.and_eq_true, Bool.or_eq_true, hbelow, hround, Bool.not_eq_true',
          List.contains_eq_mem, decide_eq_false_iff_not, htaken]
      by_cases hcan : canBePicked (draftFromSlots slots) t = true
      · have hallowed := hpick.mp hcan
        simp only [acceptedBy, if_pos hcan, hclock, Option.map_some, Option.some.injEq,
          Prod.mk.injEq]
        constructor
        · intro heq
          exact ⟨i, ⟨heq, rfl⟩, heq ▸ hallowed⟩
        · exact fun ⟨_, heq, _⟩ => heq.1
      · simp only [acceptedBy, if_neg hcan, Option.some.injEq, Prod.mk.injEq]
        constructor
        · exact nofun
        · intro hseat
          obtain ⟨_, ⟨rfl, rfl⟩, hallowed⟩ := hseat
          exact absurd (hpick.mpr hallowed) hcan

theorem pickTeam (h : Shows slots d) (hgood : d.Good) {t : String} {number : Nat}
    {ranked : List String} (haccepted : acceptedBy slots t = some number)
    (hnext : t ∈ d.captains → ∃ promoted, d.next ranked = some promoted) :
    Shows (pickTeam slots t ranked) (d.pick ranked t number) := by
  obtain ⟨i, hseat, -, hteam⟩ := (h.acceptedBy_iff hgood).mp haccepted
  have hclock := h.onClock hgood
  rw [hseat, Option.map_some] at hclock
  have hcan : canBePicked (draftFromSlots slots) t = true := by
    by_contra hcan
    simp [acceptedBy, hcan] at haccepted
  have htaken : (fun team => decide (team ∉ (draftFromSlots slots).taken)) =
      fun team => decide (team ∉ d.taken) :=
    funext fun team => by simp only [h.mem_taken hgood]
  by_cases hcaptain : t ∈ d.captains
  · obtain ⟨j, hj⟩ := List.mem_iff_getElem?.mp hcaptain
    obtain ⟨promoted, hpromoted⟩ := hnext hcaptain
    obtain ⟨leaving, hleaving, hnumber⟩ := h.find_leaving hgood hj
    have hfind : (draftFromSlots slots).alliances.find?
        (fun alliance => alliance.captain = some t) = some leaving := hleaving
    have hranked : ranked.find? (fun team => decide (team ∉ d.taken)) = some promoted := hpromoted
    simp only [Picklists.pickTeam, hclock, if_pos hcan, hfind, htaken, hranked, hnumber]
    exact h.pickCaptain hgood hj hpromoted
  · have hmade : t ∉ d.made.map (·.1) := by
      cases hteam with
      | inl hfree => exact fun hm => hfree (List.mem_append_right _ hm)
      | inr hbelow =>
          obtain ⟨-, j, hj, -⟩ := hbelow
          exact absurd (List.mem_of_getElem? hj) hcaptain
    have hfind : (draftFromSlots slots).alliances.find?
        (fun alliance => alliance.captain = some t) = none := h.find_leaving_none hcaptain
    simp only [Picklists.pickTeam, hclock, if_pos hcan, hfind]
    exact h.pickOther hcaptain hmade ranked

end Shows

theorem pickTeam_of_refused {slots : List PicklistSlot} {t : String} (ranked : List String)
    (h : acceptedBy slots t = none) : pickTeam slots t ranked = slots := by
  rw [pickTeam]
  cases hclock : (draftFromSlots slots).onClock with
  | none => rfl
  | some clock =>
      have hcan : ¬ canBePicked (draftFromSlots slots) t = true := by
        intro hcan
        simp [acceptedBy, hcan, hclock] at h
      simp only [if_neg hcan]

namespace Shows
variable {slots : List PicklistSlot} {d : Seating}

theorem isCaptain (h : Shows slots d) (t : String) : isCaptain slots t = true ↔ t ∈ d.captains := by
  simp only [Picklists.isCaptain, List.any_eq_true, Bool.and_eq_true, decide_eq_true_eq]
  constructor
  · intro hslot
    obtain ⟨slot, hmem, rfl, hstatus⟩ := hslot
    have hseat := seatOf_eq_some.mpr
      ⟨slot, h.oneStatus.slotOf_of_mem hmem (by simp [hstatus]), hstatus, rfl⟩
    obtain ⟨i, hi, -⟩ := (h.captain _ _).mp hseat
    exact List.mem_of_getElem? hi
  · intro hcaptain
    obtain ⟨i, hi⟩ := List.mem_iff_getElem?.mp hcaptain
    obtain ⟨slot, hslot, hstatus, -⟩ := seatOf_eq_some.mp ((h.captain t _).mpr ⟨i, hi, rfl⟩)
    exact ⟨slot, mem_of_slotOf hslot, slotOf_teamKey hslot, hstatus⟩

/-- A team that declines gives back the seat it had as a pick. -/
theorem declineTeam (h : Shows slots d) (t : String) :
    Shows (declineTeam slots t) (d.decline t) := by
  have hone := h.oneStatus.declineTeam t
  by_cases hcaptain : t ∈ d.captains
  · have hmade : d.decline t = d := by
      have hfilter : d.made.filter (·.1 ≠ t) = d.made := by
        refine List.filter_eq_self.mpr fun p hp => ?_
        have hne : p.1 ≠ t :=
          fun heq => h.not_captain_of_made (heq ▸ List.mem_map_of_mem hp) hcaptain
        simpa using hne
      rw [Seating.decline, hfilter]
    rw [hmade, Picklists.declineTeam, if_pos ((h.isCaptain t).mpr hcaptain)]
    exact h
  · have hnot : ¬ Picklists.isCaptain slots t = true := fun hc => hcaptain ((h.isCaptain t).mp hc)
    rw [Picklists.declineTeam, if_neg hnot] at hone ⊢
    have hseat := seatOf_place PicklistSlot.teamKey_decline (.declined, none) (fun _ => rfl) slots t
    refine ⟨hone, fun u n => ?_, fun u n => ?_⟩
    · rw [hseat]
      by_cases hu : u = t
      · simpa [hu, Seating.decline] using fun i hi => absurd (List.mem_of_getElem? hi) hcaptain
      · rw [if_neg hu, h.captain]
        rfl
    · rw [hseat]
      by_cases hu : u = t
      · simp [hu, Seating.decline]
      · simp [hu, h.picked, Seating.decline]

end Shows

theorem slotOf_makeCaptains (teams : List String) (k : Nat) (slots : List PicklistSlot) {t : String}
    (ht : t ∉ teams) : slotOf ((teams.zipIdx k).foldl
      (fun next (team, i) => setSlot next team (·.makeCaptain (i + 1))) slots) t =
        slotOf slots t := by
  induction teams generalizing k slots with
  | nil => rfl
  | cons team rest ih =>
      rw [List.zipIdx_cons, List.foldl_cons, ih _ _ fun hin => ht (List.mem_cons_of_mem _ hin)]
      exact slotOf_setSlot_of_ne (PicklistSlot.teamKey_makeCaptain _) slots
        fun heq => ht (heq ▸ List.mem_cons_self)

theorem slotOf_makeCaptains_of_getElem? {teams : List String} (hnodup : teams.Nodup) (k : Nat)
    (slots : List PicklistSlot) {t : String} {i : Nat} (ht : teams[i]? = some t) :
    slotOf ((teams.zipIdx k).foldl
      (fun next (team, i) => setSlot next team (·.makeCaptain (i + 1))) slots) t =
        (slotOf slots t).map (·.makeCaptain (k + i + 1)) := by
  induction teams generalizing k slots i with
  | nil => simp at ht
  | cons team rest ih =>
      obtain ⟨hteam, hrest⟩ := List.nodup_cons.mp hnodup
      rw [List.zipIdx_cons, List.foldl_cons]
      cases i with
      | zero =>
          obtain rfl : team = t := Option.some_inj.mp ht
          rw [slotOf_makeCaptains rest _ _ hteam,
            slotOf_setSlot (PicklistSlot.teamKey_makeCaptain _), if_pos rfl, Nat.add_zero]
      | succ i =>
          rw [List.getElem?_cons_succ] at ht
          have hne : t ≠ team := fun heq => hteam (heq ▸ List.mem_of_getElem? ht)
          have hindex : k + (i + 1) + 1 = k + 1 + i + 1 := by omega
          rw [ih hrest _ _ ht, slotOf_setSlot_of_ne (PicklistSlot.teamKey_makeCaptain _) slots hne,
            hindex]

/-- Seeding starts selection over. -/
theorem shows_seedCaptains {slots : List PicklistSlot} (hone : OneStatus slots)
    {ranked : List String} (htop : (ranked.take allianceCount).Nodup) :
    Shows (seedCaptains slots ranked) { captains := ranked.take allianceCount, made := [] } := by
  have hcleared : ∀ slot : PicklistSlot, slot.cleared.status ≠ .captain ∧
      slot.cleared.status ≠ .picked := by
    intro slot
    rw [PicklistSlot.cleared]
    split
    · simp
    · rename_i hstatus
      exact not_or.mp hstatus
  have hseat : ∀ t, t ∉ ranked.take allianceCount → ∀ status n,
      seatOf (seedCaptains slots ranked) t = some (status, n) →
        status ≠ .captain ∧ status ≠ .picked := by
    intro t ht status n heq
    rw [seatOf, seedCaptains, slotOf_makeCaptains _ _ _ ht,
      slotOf_map PicklistSlot.teamKey_cleared] at heq
    obtain ⟨slot, hslot, hsome⟩ := Option.map_eq_some_iff.mp heq
    obtain ⟨old, -, rfl⟩ := Option.map_eq_some_iff.mp hslot
    exact (Prod.mk.inj hsome).1 ▸ hcleared old
  have hcaptain : ∀ t i, (ranked.take allianceCount)[i]? = some t →
      seatOf (seedCaptains slots ranked) t = some (.captain, some (i + 1)) := by
    intro t i hi
    have hslot : ∃ slot, slotOf (withTeams slots (ranked.take allianceCount)) t = some slot := by
      rw [slotOf_withTeams]
      cases slotOf slots t with
      | none => exact ⟨blankSlot t, by simp [List.mem_of_getElem? hi]⟩
      | some slot => exact ⟨slot, rfl⟩
    obtain ⟨slot, hslot⟩ := hslot
    rw [seatOf, seedCaptains, slotOf_makeCaptains_of_getElem? htop _ _ hi,
      slotOf_map PicklistSlot.teamKey_cleared, hslot]
    simp [PicklistSlot.makeCaptain]
  refine ⟨hone.seedCaptains ranked, fun t n => ?_, fun t n => ?_⟩
  · constructor
    · intro heq
      by_cases ht : t ∈ ranked.take allianceCount
      · obtain ⟨i, hi⟩ := List.mem_iff_getElem?.mp ht
        rw [hcaptain t i hi] at heq
        exact ⟨i, hi, (Prod.mk.inj (Option.some_inj.mp heq)).2.symm⟩
      · exact absurd rfl (hseat t ht _ _ heq).1
    · intro hplace
      obtain ⟨i, hi, rfl⟩ := hplace
      exact hcaptain t i hi
  · constructor
    · intro heq
      by_cases ht : t ∈ ranked.take allianceCount
      · obtain ⟨i, hi⟩ := List.mem_iff_getElem?.mp ht
        rw [hcaptain t i hi] at heq
        cases heq
      · exact absurd rfl (hseat t ht _ _ heq).2
    · intro hmade
      obtain ⟨_, hm, -⟩ := hmade
      exact absurd hm List.not_mem_nil

end Frcmob.Picklists
