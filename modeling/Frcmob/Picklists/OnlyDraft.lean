import Frcmob.Picklists.Draft
import Frcmob.Lib.Transition
import Mathlib.Data.List.Forall2

/-!
The draft's operations change nothing else on a picklist: every slot stays where it is, with its
team, tier, reason and notes, and new slots stand after all others.
-/

namespace Frcmob.Picklists
open Transition

/-- The same slot but for `status` and `picked_by_alliance`. -/
structure SameEntry (slot slot' : PicklistSlot) : Prop where
  teamKey : slot'.teamKey = slot.teamKey
  tier : slot'.tier = slot.tier
  dnpReason : slot'.dnpReason = slot.dnpReason
  notes : slot'.notes = slot.notes

theorem SameEntry.refl (slot : PicklistSlot) : SameEntry slot slot :=
  ⟨rfl, rfl, rfl, rfl⟩

theorem SameEntry.trans {a b c : PicklistSlot} (hab : SameEntry a b) (hbc : SameEntry b c) :
    SameEntry a c :=
  ⟨hbc.teamKey.trans hab.teamKey, hbc.tier.trans hab.tier, hbc.dnpReason.trans hab.dnpReason,
    hbc.notes.trans hab.notes⟩

theorem sameEntry_makeCaptain (number : Nat) (slot : PicklistSlot) :
    SameEntry slot (slot.makeCaptain number) :=
  ⟨rfl, rfl, rfl, rfl⟩

theorem sameEntry_pick (number : Nat) (slot : PicklistSlot) : SameEntry slot (slot.pick number) :=
  ⟨rfl, rfl, rfl, rfl⟩

theorem sameEntry_moveTo (number : Nat) (slot : PicklistSlot) :
    SameEntry slot (slot.moveTo number) :=
  ⟨rfl, rfl, rfl, rfl⟩

theorem sameEntry_decline (slot : PicklistSlot) : SameEntry slot slot.decline :=
  ⟨rfl, rfl, rfl, rfl⟩

theorem sameEntry_cleared (slot : PicklistSlot) : SameEntry slot slot.cleared := by
  unfold PicklistSlot.cleared
  split
  · exact ⟨rfl, rfl, rfl, rfl⟩
  · exact .refl slot

/-- Slots are changed where they stand, others follow them. -/
def OnlyDraft (slots slots' : List PicklistSlot) : Prop :=
  ∃ changed appended, slots' = changed ++ appended ∧ List.Forall₂ SameEntry slots changed

theorem forall₂_setSlot {patch : PicklistSlot → PicklistSlot}
    (hpatch : ∀ slot, SameEntry slot (patch slot)) (slots : List PicklistSlot) (teamKey : String) :
    List.Forall₂ SameEntry slots (setSlot slots teamKey patch) := by
  induction slots with
  | nil => exact .nil
  | cons slot rest ih =>
      rw [setSlot]
      split
      · exact .cons (hpatch slot) (List.forall₂_same.mpr fun s _ => .refl s)
      · exact .cons (.refl slot) ih

namespace OnlyDraft

theorem refl (slots : List PicklistSlot) : OnlyDraft slots slots :=
  ⟨slots, [], (List.append_nil slots).symm, List.forall₂_same.mpr fun slot _ => .refl slot⟩

/-- Where slots are changed where they stand, so are those changed before. -/
theorem change {slots next next' : List PicklistSlot} (h : OnlyDraft slots next)
    (hnext : List.Forall₂ SameEntry next next') : OnlyDraft slots next' := by
  obtain ⟨changed, appended, rfl, hchanged⟩ := h
  induction hchanged generalizing next' with
  | nil => exact ⟨[], next', rfl, .nil⟩
  | cons hfirst _ ih =>
      cases hnext with
      | cons hfirst' hrest =>
          obtain ⟨changed', appended', rfl, hchanged'⟩ := ih hrest
          exact ⟨_ :: changed', appended', rfl, .cons (hfirst.trans hfirst') hchanged'⟩

theorem setSlot {slots next : List PicklistSlot} (h : OnlyDraft slots next)
    {patch : PicklistSlot → PicklistSlot} (hpatch : ∀ slot, SameEntry slot (patch slot))
    (teamKey : String) : OnlyDraft slots (setSlot next teamKey patch) :=
  h.change (forall₂_setSlot hpatch next teamKey)

theorem withTeams {slots next : List PicklistSlot} (h : OnlyDraft slots next)
    (teamKeys : List String) : OnlyDraft slots (withTeams next teamKeys) := by
  induction teamKeys generalizing next with
  | nil => exact h
  | cons teamKey rest ih =>
      rw [Picklists.withTeams, List.foldl_cons]
      refine ih ?_
      split
      · exact h
      · obtain ⟨changed, appended, rfl, hchanged⟩ := h
        exact ⟨changed, appended ++ [blankSlot teamKey], List.append_assoc .., hchanged⟩

theorem moveUp {slots next : List PicklistSlot} (h : OnlyDraft slots next)
    (alliances : List Alliance) (leaving : Nat) : OnlyDraft slots (moveUp alliances leaving next) := by
  induction alliances generalizing next with
  | nil => exact h
  | cons alliance rest ih =>
      rw [Picklists.moveUp, List.foldl_cons]
      refine ih ?_
      split
      · split
        · exact h
        · exact h.setSlot (sameEntry_moveTo _) _
      · exact h

end OnlyDraft

theorem onlyDraft_seedCaptains (slots : List PicklistSlot) (ranked : List String) :
    OnlyDraft slots (seedCaptains slots ranked) := by
  have hset : ∀ next (p : String × Nat), OnlyDraft slots next →
      OnlyDraft slots (setSlot next p.1 (·.makeCaptain (p.2 + 1))) :=
    fun next p hnext => hnext.setSlot (sameEntry_makeCaptain _) p.1
  have hteams := (OnlyDraft.refl slots).withTeams (ranked.take allianceCount)
  refine foldl_keeps hset _ (hteams.change ?_)
  exact List.forall₂_map_right_iff.mpr (List.forall₂_same.mpr fun slot _ => sameEntry_cleared slot)

theorem onlyDraft_pickTeam (slots : List PicklistSlot) (t : String) (ranked : List String) :
    OnlyDraft slots (pickTeam slots t ranked) := by
  have hpick : ∀ number, OnlyDraft slots (setSlot (withTeams slots [t]) t (·.pick number)) :=
    fun number => ((OnlyDraft.refl slots).withTeams [t]).setSlot (sameEntry_pick number) t
  rw [pickTeam]
  split
  · exact .refl slots
  · split
    · split
      · exact hpick _
      · split
        · exact (hpick _).moveUp ..
        · exact (((hpick _).moveUp ..).withTeams _).setSlot (sameEntry_makeCaptain _) _
    · exact .refl slots

theorem onlyDraft_declineTeam (slots : List PicklistSlot) (t : String) :
    OnlyDraft slots (declineTeam slots t) := by
  rw [declineTeam]
  split
  · exact .refl slots
  · exact ((OnlyDraft.refl slots).withTeams [t]).setSlot sameEntry_decline t

/-- A pick that is refused changes nothing. -/
theorem pickTeam_refused {slots : List PicklistSlot} {t : String} (ranked : List String)
    (h : canBePicked (draftFromSlots slots) t = false) : pickTeam slots t ranked = slots := by
  rw [pickTeam]
  cases hclock : (draftFromSlots slots).onClock with
  | none => rfl
  | some onClock => simp [h]

/-- What the operations of a draft do to the other parts of a picklist: nothing. -/
theorem draft_changes_only_draft (slots : List PicklistSlot) :
    (∀ ranked, OnlyDraft slots (seedCaptains slots ranked)) ∧
    (∀ t ranked, OnlyDraft slots (pickTeam slots t ranked)) ∧
    (∀ t, OnlyDraft slots (declineTeam slots t)) ∧
    ∀ t ranked, canBePicked (draftFromSlots slots) t = false → pickTeam slots t ranked = slots :=
  ⟨onlyDraft_seedCaptains slots, onlyDraft_pickTeam slots, onlyDraft_declineTeam slots,
    fun _ ranked h => pickTeam_refused ranked h⟩

theorem draft_changes_only_draft_noCaptains :
    pickTeam [blankSlot "frc1"] "frc1" ["frc2"] = [blankSlot "frc1"] :=
  (draft_changes_only_draft [blankSlot "frc1"]).2.2.2 "frc1" ["frc2"] (by decide)

end Frcmob.Picklists
