import Frcmob.Picklists.Draft

/-!
Teams that declined. A declined team is known by the status of its slot, which stays until a
captain's seat goes to the team.
-/

namespace Frcmob.Picklists
open Transition

/-- No team that declined is a pick of an alliance. -/
def Honoured (b : Board) : Prop :=
  ∀ t ∈ b.declined, ∀ alliance ∈ (draftFromSlots b.slots).alliances, t ∉ alliance.picks

instance (b : Board) : Decidable (Honoured b) :=
  inferInstanceAs (Decidable (∀ t ∈ b.declined,
    ∀ alliance ∈ (draftFromSlots b.slots).alliances, t ∉ alliance.picks))

/-- A captain does not decline, and no captain's seat goes to a team that declined. -/
def DeclineSafe (ranked : List String) (b : Board) : DraftAction → Prop
  | .seedCaptains => ∀ t ∈ b.declined, t ∉ ranked.take allianceCount
  | .pickTeam teamKey =>
      canBePicked (draftFromSlots b.slots) teamKey → isCaptain b.slots teamKey →
        ∀ promoted ∈ ranked.find? fun team => team ∉ (draftFromSlots b.slots).taken,
          promoted ∉ b.declined
  | .declineTeam teamKey => ¬ isCaptain b.slots teamKey

instance (ranked : List String) (b : Board) (a : DraftAction) :
    Decidable (DeclineSafe ranked b a) := by
  cases a <;> unfold DeclineSafe <;> infer_instance

/-- The status is there. -/
def Refuses (slots : List PicklistSlot) (t : String) : Prop :=
  ∃ slot, slotOf slots t = some slot ∧ slot.status = .declined

structure DeclinedInv (b : Board) : Prop where
  oneStatus : OneStatus b.slots
  refuses : ∀ t ∈ b.declined, Refuses b.slots t

theorem Refuses.not_captain {slots : List PicklistSlot} {t : String} (h : Refuses slots t)
    (hone : OneStatus slots) (number : Nat) : captainOf slots number ≠ some t := by
  intro hcaptain
  obtain ⟨slot, hslot, hdeclined⟩ := h
  obtain ⟨other, hother, hstatus, -⟩ := captainOf_eq_some hone hcaptain
  obtain rfl : slot = other := Option.some_inj.mp (hslot.symm.trans hother)
  rw [hdeclined] at hstatus
  cases hstatus

theorem Refuses.not_picked {slots : List PicklistSlot} {t : String} (h : Refuses slots t)
    (hone : OneStatus slots) (number : Nat) : t ∉ picksOf slots number := by
  intro hpicked
  obtain ⟨slot, hslot, hdeclined⟩ := h
  obtain ⟨other, hother, hstatus, -⟩ := (mem_picksOf hone).mp hpicked
  obtain rfl : slot = other := Option.some_inj.mp (hslot.symm.trans hother)
  rw [hdeclined] at hstatus
  cases hstatus

theorem Refuses.refused {slots : List PicklistSlot} {t : String} (h : Refuses slots t) :
    t ∈ (draftFromSlots slots).refused := by
  obtain ⟨slot, hslot, hdeclined⟩ := h
  refine List.mem_map.mpr ⟨slot, List.mem_filter.mpr ⟨mem_of_slotOf hslot, ?_⟩,
    slotOf_teamKey hslot⟩
  simpa using hdeclined

theorem not_canBePicked {state : DraftState} {t : String} (h : t ∈ state.refused) :
    canBePicked state t = false := by
  rw [canBePicked]
  split
  · rfl
  · simp [h]

/-- A change of another team's slot. -/
theorem Refuses.of_slotOf {slots next : List PicklistSlot} {t : String} (h : Refuses slots t)
    (heq : slotOf next t = slotOf slots t) : Refuses next t := by
  obtain ⟨slot, hslot, hdeclined⟩ := h
  exact ⟨slot, heq.trans hslot, hdeclined⟩

theorem Refuses.withTeams {slots : List PicklistSlot} {t : String} (h : Refuses slots t)
    (teamKeys : List String) : Refuses (withTeams slots teamKeys) t := by
  obtain ⟨slot, hslot, hdeclined⟩ := h
  exact ⟨slot, by rw [slotOf_withTeams, hslot]; rfl, hdeclined⟩

theorem Refuses.setSlot {slots : List PicklistSlot} {t u : String} (h : Refuses slots t)
    (hne : t ≠ u) {f : PicklistSlot → PicklistSlot} (hf : ∀ s, (f s).teamKey = s.teamKey) :
    Refuses (setSlot slots u f) t :=
  h.of_slotOf (slotOf_setSlot_of_ne hf slots hne)

theorem Refuses.seedCaptains {slots : List PicklistSlot} {t : String} (h : Refuses slots t)
    {ranked : List String} (hranked : t ∉ ranked.take allianceCount) :
    Refuses (seedCaptains slots ranked) t := by
  have hcleared : Refuses ((Picklists.withTeams slots (ranked.take allianceCount)).map
      (·.cleared)) t := by
    obtain ⟨slot, hslot, hdeclined⟩ := h.withTeams (ranked.take allianceCount)
    refine ⟨slot.cleared, ?_, by simp [PicklistSlot.cleared, hdeclined]⟩
    rw [slotOf_map (fun _ => PicklistSlot.teamKey_cleared _), hslot]
    rfl
  have hset : ∀ next (p : String × Nat), Refuses next t → t ≠ p.1 →
      Refuses (Picklists.setSlot next p.1 (·.makeCaptain (p.2 + 1))) t :=
    fun next p hnext hne => hnext.setSlot hne (PicklistSlot.teamKey_makeCaptain _)
  refine foldl_invariant hset hcleared (foldMeets_of_forall (fun p hp heq => ?_) _)
  exact hranked (heq ▸ List.fst_mem_of_mem_zipIdx hp)

/-- Only a promotion to captain takes the status away. -/
theorem Refuses.pickTeam {slots : List PicklistSlot} {t : String} (h : Refuses slots t)
    (hone : OneStatus slots) {u : String} {ranked : List String}
    (hpromoted : canBePicked (draftFromSlots slots) u → isCaptain slots u →
      ∀ promoted ∈ ranked.find? fun team => team ∉ (draftFromSlots slots).taken, promoted ≠ t) :
    Refuses (pickTeam slots u ranked) t := by
  rw [Picklists.pickTeam]
  split
  · exact h
  · split
    · rename_i clock _ hpick
      have hne : t ≠ u := by
        intro heq
        rw [not_canBePicked (heq ▸ h.refused)] at hpick
        cases hpick
      have hnext := (h.withTeams [u]).setSlot hne (PicklistSlot.teamKey_pick clock.alliance)
      split
      · exact hnext
      · rename_i leaving hleaving
        have hstays : ∀ alliance ∈ (draftFromSlots slots).alliances,
            alliance.captain = some t → alliance.number ≤ leaving.number :=
          fun alliance ha heq => absurd ((alliance_mem ha).1.symm.trans heq)
            (h.not_captain hone alliance.number)
        have hmoved := hnext.of_slotOf (slotOf_moveUp_of_le hstays _)
        split
        · exact hmoved
        · rename_i promoted hfind
          have hcaptain : isCaptain slots u := by
            have hmem := List.mem_of_find?_eq_some hleaving
            have hcap : leaving.captain = some u := by simpa using List.find?_some hleaving
            obtain ⟨slot, hslot, hstatus, -⟩ :=
              captainOf_eq_some hone ((alliance_mem hmem).1.symm.trans hcap)
            simpa [isCaptain] using ⟨slot, mem_of_slotOf hslot, slotOf_teamKey hslot, hstatus⟩
          have hother := hpromoted hpick hcaptain promoted hfind
          exact (hmoved.withTeams [promoted]).setSlot hother.symm
            (PicklistSlot.teamKey_makeCaptain _)
    · exact h

theorem refuses_declineTeam {slots : List PicklistSlot} {u : String} (h : ¬ isCaptain slots u) :
    Refuses (declineTeam slots u) u := by
  rw [declineTeam, if_neg h]
  have hslot : ∃ slot, slotOf (withTeams slots [u]) u = some slot := by
    rw [slotOf_withTeams]
    cases slotOf slots u with
    | none => exact ⟨blankSlot u, by simp⟩
    | some slot => exact ⟨slot, rfl⟩
  obtain ⟨slot, hslot⟩ := hslot
  refine ⟨slot.decline, ?_, rfl⟩
  rw [slotOf_setSlot PicklistSlot.teamKey_decline, if_pos rfl, hslot]
  rfl

theorem Refuses.declineTeam {slots : List PicklistSlot} {t : String} (h : Refuses slots t)
    {u : String} (hu : ¬ isCaptain slots u) : Refuses (declineTeam slots u) t := by
  by_cases heq : t = u
  · rw [heq]
    exact refuses_declineTeam hu
  · rw [Picklists.declineTeam, if_neg hu]
    exact (h.withTeams [u]).setSlot heq PicklistSlot.teamKey_decline

theorem DeclinedInv.step {ranked : List String} {b b' : Board} {a : DraftAction}
    (h : DeclinedInv b) (safe : DeclineSafe ranked b a) (hstep : draftStep ranked b a = some b') :
    DeclinedInv b' := by
  cases a with
  | seedCaptains =>
      obtain rfl := Option.some_inj.mp hstep
      exact ⟨h.oneStatus.seedCaptains ranked,
        fun t ht => (h.refuses t ht).seedCaptains (safe t ht)⟩
  | pickTeam teamKey =>
      obtain rfl := Option.some_inj.mp hstep
      refine ⟨h.oneStatus.pickTeam teamKey ranked, fun t ht => ?_⟩
      refine (h.refuses t ht).pickTeam h.oneStatus fun hpick hcaptain promoted hfind heq => ?_
      exact safe hpick hcaptain promoted hfind (heq ▸ ht)
  | declineTeam teamKey =>
      obtain rfl := Option.some_inj.mp hstep
      refine ⟨h.oneStatus.declineTeam teamKey, fun t ht => ?_⟩
      cases List.mem_cons.mp ht with
      | inl heq =>
          rw [heq]
          exact refuses_declineTeam safe
      | inr hold => exact (h.refuses t hold).declineTeam safe

/-- A list without statuses. -/
def NoStatuses (slots : List PicklistSlot) : Prop :=
  ∀ slot ∈ slots, slot.status = .available

/-- While no captain declines and no captain's seat goes to a team that declined, no team that
declined is picked later. -/
theorem declined_never_picked {ranked : List String} {b : Board}
    (h : ReachableWhen (draftSystem ranked NoStatuses) (DeclineSafe ranked) b) : Honoured b := by
  have hinv : DeclinedInv b := by
    refine h.invariant (fun b hb => ?_) fun _ _ _ hb => hb.step
    exact ⟨oneStatus_of_available hb.1, by rw [hb.2.2]; exact fun _ => nofun⟩
  intro t ht alliance ha
  rw [(alliance_mem ha).2]
  exact (hinv.refuses t ht).not_picked hinv.oneStatus alliance.number

/-! Team 9 declines. -/

def twelveRanked : List String :=
  ["frc1", "frc2", "frc3", "frc4", "frc5", "frc6", "frc7", "frc8", "frc9", "frc10", "frc11",
    "frc12"]

/-- The captain of alliance 2 is picked, so team 9 becomes the eighth captain, and alliance 2
picks it. -/
def promotedRun : List DraftAction :=
  [.seedCaptains, .declineTeam "frc9", .pickTeam "frc2", .pickTeam "frc9"]

theorem declined_team_picked :
    ∃ b, Reachable (draftSystem twelveRanked NoStatuses) b ∧ ¬ Honoured b := by
  have hstart : (draftSystem twelveRanked NoStatuses).start { slots := [] } :=
    ⟨fun _ => nofun, rfl, rfl⟩
  refine ⟨_, reachable_of_run promotedRun hstart rfl, ?_⟩
  decide +kernel

/-- Team 9 declines, is asked again, and no captain is picked. -/
def refusedRun : List DraftAction :=
  [.seedCaptains, .declineTeam "frc9", .pickTeam "frc10", .pickTeam "frc9", .pickTeam "frc11"]

theorem declined_never_picked_refused :
    ∃ b, (draftSystem twelveRanked NoStatuses).run { slots := [] } refusedRun = some b ∧
      Honoured b := by
  have hstart : (draftSystem twelveRanked NoStatuses).start { slots := [] } :=
    ⟨fun _ => nofun, rfl, rfl⟩
  exact ⟨_, rfl, declined_never_picked (reachableWhen_of_run refusedRun (.start hstart)
    (by decide +kernel) rfl)⟩

end Frcmob.Picklists
