import Frcmob.Picklists.Seats

/-!
The draft board over whole runs: eight captains on eight alliances, no team on two, at most
two picks each, and the picks in pick order unless one of them is taken back.
-/

namespace Frcmob.Picklists
open Transition

structure Seated (slots : List PicklistSlot) : Prop where
  captains : ((slots.filter (·.status = .captain)).map (·.pickedByAlliance)).Perm
    ((List.range allianceCount).map fun i => some (i + 1))
  teams : (draftFromSlots slots).taken.Nodup
  picks : ∀ alliance ∈ (draftFromSlots slots).alliances, alliance.picks.length ≤ 2
  ended : (draftFromSlots slots).onClock = none ↔ (draftFromSlots slots).picksMade = 16

/-- The accepted picks are those on the board, in pick order. -/
structure InOrder (b : Board) : Prop where
  order : b.accepted.map (·.2) = pickOrder.take b.accepted.length
  kept : ∀ p ∈ b.accepted, p.1 ∈ picksOf b.slots p.2
  ended : (draftFromSlots b.slots).onClock = none ↔ b.accepted.length = 16

/-- No team declines that is a pick already. -/
def KeepsPicks (b : Board) : DraftAction → Prop
  | .declineTeam teamKey =>
      ∀ slot ∈ b.slots, slot.teamKey = teamKey → slot.status ≠ .picked
  | .seedCaptains | .pickTeam _ => True

instance (b : Board) : ∀ a, Decidable (KeepsPicks b a)
  | .declineTeam _ => inferInstanceAs (Decidable (∀ slot ∈ b.slots, _))
  | .seedCaptains | .pickTeam _ => isTrue True.intro

/-- A picklist of distinct teams whose captains have been seeded. -/
def Seeded (ranked : List String) (slots : List PicklistSlot) : Prop :=
  ∃ list : List PicklistSlot, (list.map (·.teamKey)).Nodup ∧ slots = seedCaptains list ranked

/-! ### What a shown draft says of the list -/

namespace Shows
variable {slots : List PicklistSlot} {d : Seating}

theorem mem_alliance (h : Shows slots d) {i : Nat} {t : String}
    (ht : t ∈ (allianceAt slots (i + 1)).captain.toList ++ (allianceAt slots (i + 1)).picks) :
    ∃ status, seatOf slots t = some (status, some (i + 1)) := by
  simp only [allianceAt, List.mem_append, Option.mem_toList, h.captainOf] at ht
  cases ht with
  | inl hc => exact ⟨_, (h.captain t _).mpr ⟨i, hc, rfl⟩⟩
  | inr hp => exact ⟨_, (h.picked t _).mpr ⟨i + 1, h.mem_picksOf.mp hp, rfl⟩⟩

theorem nodup_taken (h : Shows slots d) : (draftFromSlots slots).taken.Nodup := by
  refine List.nodup_flatMap.mpr ⟨fun alliance ha => ?_, List.pairwise_map.mpr ?_⟩
  · obtain ⟨i, -, -, hcaptain, hpicks⟩ := h.alliance ha
    rw [hcaptain, hpicks]
    refine List.nodup_append.mpr ⟨?_, nodup_picksOf h.oneStatus _, fun t ht u hu heq => ?_⟩
    · cases d.captains[i]? with
      | none => exact List.nodup_nil
      | some t => exact List.nodup_singleton t
    · have hmade := List.mem_map_of_mem (f := Prod.fst) (h.mem_picksOf.mp hu)
      exact h.not_captain_of_made hmade (heq ▸ List.mem_of_getElem? (Option.mem_toList.mp ht))
  · refine List.nodup_range.imp fun {i j} hne t hi hj => hne ?_
    obtain ⟨_, hi⟩ := h.mem_alliance hi
    obtain ⟨_, hj⟩ := h.mem_alliance hj
    have hnumber := (Prod.mk.inj (Option.some_inj.mp (hi.symm.trans hj))).2
    simpa using hnumber

theorem perm_captains (h : Shows slots d) (hgood : d.Good) :
    ((slots.filter (·.status = .captain)).map (·.pickedByAlliance)).Perm
      ((List.range allianceCount).map fun i => some (i + 1)) := by
  have hseat : ∀ slot ∈ slots.filter (·.status = .captain), ∃ i,
      d.captains[i]? = some slot.teamKey ∧ slot.pickedByAlliance = some (i + 1) := by
    intro slot hslot
    obtain ⟨hmem, hstatus⟩ := List.mem_filter.mp hslot
    have hcaptain : slot.status = .captain := by simpa using hstatus
    exact (h.captain _ _).mp (seatOf_eq_some.mpr
      ⟨slot, h.oneStatus.slotOf_of_mem hmem (by simp [hcaptain]), hcaptain, rfl⟩)
  refine (List.perm_ext_iff_of_nodup ?_ ?_).mpr fun n => ?_
  · refine List.pairwise_map.mpr ?_
    refine (h.oneStatus.sublist List.filter_sublist).imp_of_mem fun {a b} ha hb hab heq => ?_
    obtain ⟨i, hi, hanumber⟩ := hseat a ha
    obtain ⟨j, hj, hbnumber⟩ := hseat b hb
    obtain rfl : i = j := by simpa [hanumber, hbnumber] using heq
    have hstatus : b.status = .captain := by simpa using (List.mem_filter.mp hb).2
    rw [hab (Option.some_inj.mp (hi.symm.trans hj))] at hstatus
    cases hstatus
  · exact List.nodup_range.map fun i j heq => by simpa using heq
  · simp only [List.mem_map, List.mem_range]
    constructor
    · intro hn
      obtain ⟨slot, hslot, rfl⟩ := hn
      obtain ⟨i, hi, hnumber⟩ := hseat slot hslot
      exact ⟨i, hgood.length ▸ (List.getElem?_eq_some_iff.mp hi).1, hnumber.symm⟩
    · intro hn
      obtain ⟨i, hi, rfl⟩ := hn
      have hlt : i < d.captains.length := hgood.length ▸ hi
      obtain ⟨slot, hslot, hstatus, hnumber⟩ := seatOf_eq_some.mp
        ((h.captain _ _).mpr ⟨i, List.getElem?_eq_getElem hlt, rfl⟩)
      exact ⟨slot, List.mem_filter.mpr ⟨mem_of_slotOf hslot, by simpa using hstatus⟩, hnumber⟩

theorem onClock_eq_none (h : Shows slots d) (hgood : d.Good) :
    (draftFromSlots slots).onClock = none ↔
      ∀ number, 1 ≤ number → number ≤ allianceCount → 2 ≤ d.count number := by
  rw [h.onClock hgood, Option.map_eq_none_iff, openSeat_eq_none]

theorem picksMade (h : Shows slots d) (hgood : d.Good) : (draftFromSlots slots).picksMade =
    d.count 1 + d.count 2 + d.count 3 + d.count 4 + d.count 5 + d.count 6 + d.count 7 +
      d.count 8 := by
  simp [draftFromSlots, alliancesOf, allianceCount, allianceAt, List.range_succ,
    h.length_picksOf hgood]
  omega

theorem seated (h : Shows slots d) (hgood : d.Good) : Seated slots := by
  refine ⟨h.perm_captains hgood, h.nodup_taken, fun alliance ha => ?_, ?_⟩
  · obtain ⟨i, -, -, -, hpicks⟩ := h.alliance ha
    rw [hpicks, h.length_picksOf hgood]
    exact hgood.counts _
  · rw [h.onClock_eq_none hgood, h.picksMade hgood]
    have h1 := hgood.counts 1
    have h2 := hgood.counts 2
    have h3 := hgood.counts 3
    have h4 := hgood.counts 4
    have h5 := hgood.counts 5
    have h6 := hgood.counts 6
    have h7 := hgood.counts 7
    have h8 := hgood.counts 8
    constructor
    · intro hall
      have hfull := fun n (hn : 1 ≤ n ∧ n ≤ 8) => hall n hn.1 hn.2
      have hf1 := hfull 1 (by decide)
      have hf2 := hfull 2 (by decide)
      have hf3 := hfull 3 (by decide)
      have hf4 := hfull 4 (by decide)
      have hf5 := hfull 5 (by decide)
      have hf6 := hfull 6 (by decide)
      have hf7 := hfull 7 (by decide)
      have hf8 := hfull 8 (by decide)
      omega
    · intro hsum number hlow hhigh
      simp only [allianceCount] at hhigh
      interval_cases number <;> omega

end Shows

/-! ### Every run -/

/-- A captain is picked in round one, by an alliance with no pick yet. -/
theorem Shows.captain_accepted {slots : List PicklistSlot} {d : Seating} (h : Shows slots d)
    (hgood : d.Good) {t : String} {number : Nat} (haccepted : acceptedBy slots t = some number)
    (hcaptain : t ∈ d.captains) :
    ∃ i, i < allianceCount ∧ openSeat d.count = some (number, i) ∧ number < allianceCount := by
  obtain ⟨i, hseat, -, hteam⟩ := (h.acceptedBy_iff hgood).mp haccepted
  cases hteam with
  | inl hfree => exact absurd (List.mem_append_left _ hcaptain) hfree
  | inr hbelow =>
      obtain ⟨hi, j, hj, hlt⟩ := hbelow
      have hj := (List.getElem?_eq_some_iff.mp hj).1
      rw [hgood.length] at hj
      exact ⟨i, hi, hseat, by omega⟩

/-- What a pick does to a draft that is shown. -/
theorem Shows.pick {slots : List PicklistSlot} {d : Seating} (h : Shows slots d)
    (hgood : d.Good) {ranked : List String} {t : String} {number : Nat}
    (haccepted : acceptedBy slots t = some number)
    (hnext : t ∈ d.captains → ∃ promoted, d.next ranked = some promoted) :
    Shows (Picklists.pickTeam slots t ranked) (d.pick ranked t number) ∧
      (d.pick ranked t number).Good := by
  obtain ⟨i, hseat, -, hteam⟩ := (h.acceptedBy_iff hgood).mp haccepted
  obtain ⟨hlow, hhigh, hcount, -⟩ := openSeat_eq_some hseat
  refine ⟨h.pickTeam hgood haccepted hnext, hgood.pick ?_ hnext ⟨hlow, hhigh⟩ hcount⟩
  cases hteam with
  | inl hfree => exact fun hm => hfree (List.mem_append_right _ hm)
  | inr hbelow =>
      obtain ⟨-, j, hj, -⟩ := hbelow
      exact hgood.notMem_made (List.mem_of_getElem? hj)

theorem good_seeded {ranked : List String} (htop : (ranked.take allianceCount).Nodup)
    (hlength : allianceCount ≤ ranked.length) :
    ({ captains := ranked.take allianceCount, made := [] } : Seating).Good := by
  refine ⟨List.length_take_of_le hlength, ?_, fun _ => nofun, fun _ => Nat.zero_le _⟩
  simpa [Seating.taken] using htop

section Runs
variable {ranked : List String}

/-- The list shows a draft. -/
def Drafted (b : Board) : Prop :=
  ∃ d, Shows b.slots d ∧ d.Good

/-- The accepted picks are all on the board. -/
def DraftedInOrder (b : Board) : Prop :=
  ∃ d, Shows b.slots d ∧ d.Good ∧ d.made = b.accepted ∧
    b.accepted.map (·.2) = pickOrder.take b.accepted.length

theorem le_length_of_dedup {n : Nat} (h : n ≤ ranked.dedup.length) : n ≤ ranked.length :=
  h.trans (List.dedup_sublist ranked).length_le

theorem drafted_step (htop : (ranked.take allianceCount).Nodup)
    (henough : 23 ≤ ranked.dedup.length) {b b' : Board} {a : DraftAction} (h : Drafted b)
    (hstep : draftStep ranked b a = some b') : Drafted b' := by
  obtain ⟨d, hshows, hgood⟩ := h
  cases a with
  | seedCaptains =>
      obtain rfl := Option.some_inj.mp hstep
      have hlength := le_length_of_dedup ((by decide : allianceCount ≤ 23).trans henough)
      exact ⟨_, shows_seedCaptains hshows.oneStatus htop, good_seeded htop hlength⟩
  | pickTeam t =>
      obtain rfl := Option.some_inj.mp hstep
      cases haccepted : acceptedBy b.slots t with
      | none => exact ⟨d, (pickTeam_of_refused ranked haccepted).symm ▸ hshows, hgood⟩
      | some number =>
          refine ⟨_, hshows.pick hgood haccepted fun hcaptain => ?_⟩
          obtain ⟨i, hi, hseat, -⟩ := hshows.captain_accepted hgood haccepted hcaptain
          obtain ⟨hlow, hhigh, -, hzero⟩ := openSeat_eq_some hseat
          have hmade := hgood.length_made ⟨hlow, hhigh⟩ (hzero hi)
          have htaken := hgood.length_taken
          exact Seating.exists_next (by omega)
  | declineTeam t =>
      obtain rfl := Option.some_inj.mp hstep
      exact ⟨d.decline t, hshows.declineTeam t, hgood.decline t⟩

/-- In order, the seat on the clock is the next of the pick order. -/
theorem openSeat_inOrder {d : Seating} (horder : d.made.map (·.2) = pickOrder.take d.made.length)
    (hlength : d.made.length ≤ 16) : openSeat d.count = pickOrder.zipIdx[d.made.length]? := by
  have hcount : d.count = fun number => (pickOrder.take d.made.length).count number :=
    funext fun number => by rw [Seating.count, horder]
  rw [hcount]
  exact openSeat_take _ (by omega)

theorem length_le_of_inOrder {made : List (String × Nat)}
    (horder : made.map (·.2) = pickOrder.take made.length) : made.length ≤ 16 := by
  have hlength := congrArg List.length horder
  rw [List.length_map, List.length_take] at hlength
  exact hlength ▸ Nat.min_le_right _ _

theorem draftedInOrder_step (htop : (ranked.take allianceCount).Nodup)
    (henough : 15 ≤ ranked.dedup.length) {b b' : Board} {a : DraftAction} (h : DraftedInOrder b)
    (keeps : KeepsPicks b a) (hstep : draftStep ranked b a = some b') : DraftedInOrder b' := by
  obtain ⟨d, hshows, hgood, hmade, horder⟩ := h
  cases a with
  | seedCaptains =>
      obtain rfl := Option.some_inj.mp hstep
      have hlength := le_length_of_dedup ((by decide : allianceCount ≤ 15).trans henough)
      exact ⟨_, shows_seedCaptains hshows.oneStatus htop, good_seeded htop hlength, rfl, rfl⟩
  | pickTeam t =>
      obtain rfl := Option.some_inj.mp hstep
      cases haccepted : acceptedBy b.slots t with
      | none =>
          refine ⟨d, (pickTeam_of_refused ranked haccepted).symm ▸ hshows, hgood, ?_, ?_⟩
          · simpa using hmade
          · simpa using horder
      | some number =>
          rw [← hmade] at horder
          have hlength := length_le_of_inOrder horder
          obtain ⟨i, hseat, -, -⟩ := (hshows.acceptedBy_iff hgood).mp haccepted
          have hplace := (openSeat_inOrder horder hlength).symm.trans hseat
          obtain ⟨hlt, hpair⟩ := List.getElem?_eq_some_iff.mp hplace
          have hindex : d.made.length = i := by
            simpa using congrArg Prod.snd hpair
          have hpick : Shows (Picklists.pickTeam b.slots t ranked) (d.pick ranked t number) ∧
              (d.pick ranked t number).Good := hshows.pick hgood haccepted fun hcaptain => by
            obtain ⟨k, hk, hsame, hnumber⟩ := hshows.captain_accepted hgood haccepted hcaptain
            have hround := first_seats _ (List.mem_of_find?_eq_some hsame) hk
            have htaken := hgood.length_taken
            have hki : k = i := (Prod.mk.inj (Option.some_inj.mp (hsame.symm.trans hseat))).2
            simp only [allianceCount] at hround hnumber
            exact Seating.exists_next (by omega)
          refine ⟨_, hpick.1, hpick.2, ?_, ?_⟩
          · simp [Seating.pick, hmade]
          · rw [← hmade]
            have hnumber : pickOrder[d.made.length]? = some number := by
              have hfirst := congrArg (Option.map Prod.fst) hplace
              simpa [List.getElem?_zipIdx] using hfirst
            simp [horder, List.take_add_one, hnumber]
  | declineTeam t =>
      obtain rfl := Option.some_inj.mp hstep
      have hfilter : d.made.filter (·.1 ≠ t) = d.made := by
        refine List.filter_eq_self.mpr fun p hp => ?_
        obtain ⟨slot, hslot, hstatus, -⟩ :=
          seatOf_eq_some.mp ((hshows.picked p.1 _).mpr ⟨p.2, hp, rfl⟩)
        have hne : p.1 ≠ t := fun heq =>
          keeps slot (mem_of_slotOf hslot) ((slotOf_teamKey hslot).trans heq) hstatus
        simpa using hne
      exact ⟨d.decline t, hshows.declineTeam t, hgood.decline t, hfilter.trans hmade, horder⟩

theorem DraftedInOrder.inOrder {b : Board} (h : DraftedInOrder b) : InOrder b := by
  obtain ⟨d, hshows, hgood, hmade, horder⟩ := h
  refine ⟨horder, fun p hp => hshows.mem_picksOf.mpr (hmade ▸ hp), ?_⟩
  have hlength := length_le_of_inOrder horder
  have hlast : pickOrder.zipIdx.length = 16 := rfl
  rw [hshows.onClock hgood, Option.map_eq_none_iff,
    openSeat_inOrder (by rwa [hmade]) (by rwa [hmade]), hmade, List.getElem?_eq_none_iff, hlast]
  omega

/-- After seeding, over every sequence of picks (legal or not) and declines: eight captains on
eight alliances, no team on two, at most two picks each. As long as no team declines that is
a pick already, the picks are in pick order and end after sixteen. -/
theorem draft_board_kept (htop : (ranked.take allianceCount).Nodup) :
    (∀ b, 23 ≤ ranked.dedup.length → Reachable (draftSystem ranked (Seeded ranked)) b →
      Seated b.slots) ∧
    ∀ b, 15 ≤ ranked.dedup.length →
      ReachableWhen (draftSystem ranked (Seeded ranked)) KeepsPicks b →
        Seated b.slots ∧ InOrder b := by
  have hstart : ∀ {n}, allianceCount ≤ n → n ≤ ranked.dedup.length →
      ∀ b, (draftSystem ranked (Seeded ranked)).start b → DraftedInOrder b := by
    intro n hn henough b hb
    obtain ⟨⟨list, hdistinct, hslots⟩, haccepted, -⟩ := hb
    refine ⟨{ captains := ranked.take allianceCount, made := [] }, ?_,
      good_seeded htop (le_length_of_dedup (hn.trans henough)), haccepted.symm, ?_⟩
    · rw [hslots]
      exact shows_seedCaptains (oneStatus_of_distinct hdistinct) htop
    · rw [haccepted]
      rfl
  refine ⟨fun b henough h => ?_, fun b henough h => ?_⟩
  · have hdrafted : Drafted b := by
      refine h.invariant (P := Drafted) (fun b hb => ?_)
        fun _ _ _ hb _ hstep => drafted_step htop henough hb hstep
      obtain ⟨d, hshows, hgood, -⟩ := hstart (by decide) henough b hb
      exact ⟨d, hshows, hgood⟩
    obtain ⟨d, hshows, hgood⟩ := hdrafted
    exact hshows.seated hgood
  · have hdrafted : DraftedInOrder b :=
      h.invariant (P := DraftedInOrder) (hstart (by decide) henough)
        fun _ _ _ hb keeps hstep => draftedInOrder_step htop henough hb keeps hstep
    obtain ⟨d, hshows, hgood, -⟩ := id hdrafted
    exact ⟨hshows.seated hgood, hdrafted.inOrder⟩

end Runs

/-! Three and twenty ranked teams. -/

def longRanked : List String :=
  ["frc1", "frc2", "frc3", "frc4", "frc5", "frc6", "frc7", "frc8", "frc9", "frc10", "frc11",
    "frc12", "frc13", "frc14", "frc15", "frc16", "frc17", "frc18", "frc19", "frc20", "frc21",
    "frc22", "frc23"]

def seededBoard : Board where
  slots := seedCaptains [] longRanked

theorem seededBoard_start : (draftSystem longRanked (Seeded longRanked)).start seededBoard :=
  ⟨⟨[], List.nodup_nil, rfl⟩, rfl, rfl⟩

/-- The first pick declines after it was picked, so alliance 1 picks again. -/
def takenBackRun : List DraftAction :=
  [.pickTeam "frc9", .declineTeam "frc9", .pickTeam "frc10"]

theorem pick_order_broken : (longRanked.take allianceCount).Nodup ∧
    23 ≤ longRanked.dedup.length ∧
      ∃ b, Reachable (draftSystem longRanked (Seeded longRanked)) b ∧ ¬ InOrder b := by
  refine ⟨by decide, by decide, _, reachable_of_run takenBackRun seededBoard_start rfl, ?_⟩
  exact fun hinOrder => absurd hinOrder.order (by decide +kernel)

/-- Alliance 1 picks the captain of alliance 2, is asked for a captain above, and so on. -/
def legalRun : List DraftAction :=
  [.pickTeam "frc2", .pickTeam "frc1", .declineTeam "frc12", .pickTeam "frc9", .pickTeam "frc12"]

theorem draft_board_kept_legal :
    ∃ b, (draftSystem longRanked (Seeded longRanked)).run seededBoard legalRun = some b ∧
      Seated b.slots ∧ Seated b.slots ∧ InOrder b :=
  ⟨_, rfl, (draft_board_kept (by decide)).1 _ (by decide)
      (reachable_of_run legalRun seededBoard_start rfl),
    (draft_board_kept (by decide)).2 _ (by decide)
      (reachableWhen_of_run legalRun (.start seededBoard_start) (by decide +kernel) rfl)⟩

end Frcmob.Picklists
