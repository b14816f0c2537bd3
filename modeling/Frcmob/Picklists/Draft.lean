import Mathlib.Algebra.GroupWithZero.Nat
import Mathlib.Data.List.Perm.Basic
import Mathlib.Data.List.Nodup
import Frcmob.Lib.Transition

/-!
Alliance selection on a picklist (`draft.ts`): eight alliances, a captain each, then picks
in serpentine order. Everything is in the slots of the picklist: a captain or a picked team
has the number of its alliance in its slot.
-/

namespace Frcmob.Picklists
open Transition

inductive PicklistSlotTier
  | first
  | second
  | dnp
deriving DecidableEq

inductive PicklistSlotStatus
  | available
  | picked
  | declined
  | captain
deriving DecidableEq

structure PicklistSlot where
  teamKey : String
  tier : PicklistSlotTier
  status : PicklistSlotStatus
  pickedByAlliance : Option Nat
  dnpReason : String
  notes : String
deriving DecidableEq

def allianceCount : Nat := 8

/-- Round one 1→8, round two 8→1. -/
def pickOrder : List Nat :=
  (List.range allianceCount).map (· + 1) ++ (List.range allianceCount).map (allianceCount - ·)

structure Alliance where
  number : Nat
  captain : Option String
  picks : List String
deriving DecidableEq

structure OnClock where
  alliance : Nat
  round : Nat
deriving DecidableEq

/-- `taken` are the teams on an alliance, `refused` those who turned down an invitation. -/
structure DraftState where
  alliances : List Alliance
  picksMade : Nat
  onClock : Option OnClock
  taken : List String
  refused : List String
  hasCaptains : Bool
deriving DecidableEq

/-! ### The state of the draft -/

/-- The first captain's slot that names the alliance. -/
def captainOf (slots : List PicklistSlot) (number : Nat) : Option String :=
  (slots.find? fun slot => slot.status = .captain ∧ slot.pickedByAlliance = some number).map
    (·.teamKey)

def picksOf (slots : List PicklistSlot) (number : Nat) : List String :=
  (slots.filter fun slot => slot.status = .picked ∧ slot.pickedByAlliance = some number).map
    (·.teamKey)

def allianceAt (slots : List PicklistSlot) (number : Nat) : Alliance where
  number := number
  captain := captainOf slots number
  picks := picksOf slots number

def alliancesOf (slots : List PicklistSlot) : List Alliance :=
  (List.range allianceCount).map fun i => allianceAt slots (i + 1)

/-- The first seat in pick order that its alliance has not filled. -/
def openSeat (picks : Nat → Nat) : Option (Nat × Nat) :=
  pickOrder.zipIdx.find? fun (number, i) => picks number < (pickOrder.take (i + 1)).count number

def takenTeams (alliances : List Alliance) : List String :=
  alliances.flatMap fun alliance => alliance.captain.toList ++ alliance.picks

/-- `refusedCaptains` are captains who declined. -/
def draftFromSlots (slots : List PicklistSlot) (refusedCaptains : List String := []) :
    DraftState :=
  let alliances := alliancesOf slots
  let hasCaptains := alliances.all (·.captain.isSome)
  { alliances := alliances
    picksMade := (alliances.map (·.picks.length)).sum
    onClock :=
      if hasCaptains then
        (openSeat fun number => (picksOf slots number).length).map fun (number, i) =>
          { alliance := number, round := if i < allianceCount then 1 else 2 }
      else none
    taken := takenTeams alliances
    refused := refusedCaptains ++ (slots.filter (·.status = .declined)).map (·.teamKey)
    hasCaptains := hasCaptains }

/-- Only in round one: by round two every captain has an alliance of their own to finish. -/
def isCaptainBelow (state : DraftState) (teamKey : String) (onClock : OnClock) : Bool :=
  match state.alliances.find? fun alliance => alliance.captain = some teamKey with
  | some alliance => onClock.alliance < alliance.number && onClock.round = 1
  | none => false

def canBePicked (state : DraftState) (teamKey : String) : Bool :=
  match state.onClock with
  | none => false
  | some onClock =>
      !state.refused.contains teamKey &&
        (!state.taken.contains teamKey || isCaptainBelow state teamKey onClock)

/-! ### Changing the slots -/

def blankSlot (teamKey : String) : PicklistSlot where
  teamKey := teamKey
  tier := .second
  status := .available
  pickedByAlliance := none
  dnpReason := ""
  notes := ""

/-- Add a slot at the bottom for each team that has none. -/
def withTeams (slots : List PicklistSlot) (teamKeys : List String) : List PicklistSlot :=
  teamKeys.foldl (fun next key =>
    if next.any (·.teamKey = key) then next else next ++ [blankSlot key]) slots

/-- Change the team's first slot. -/
def setSlot : List PicklistSlot → String → (PicklistSlot → PicklistSlot) → List PicklistSlot
  | [], _, _ => []
  | slot :: rest, teamKey, patch =>
      if slot.teamKey = teamKey then patch slot :: rest
      else slot :: setSlot rest teamKey patch

def PicklistSlot.makeCaptain (number : Nat) (slot : PicklistSlot) : PicklistSlot :=
  { slot with status := .captain, pickedByAlliance := some number }

def PicklistSlot.pick (number : Nat) (slot : PicklistSlot) : PicklistSlot :=
  { slot with status := .picked, pickedByAlliance := some number }

def PicklistSlot.moveTo (number : Nat) (slot : PicklistSlot) : PicklistSlot :=
  { slot with pickedByAlliance := some number }

def PicklistSlot.decline (slot : PicklistSlot) : PicklistSlot :=
  { slot with status := .declined, pickedByAlliance := none }

/-- A captain or a pick is cleared. -/
def PicklistSlot.cleared (slot : PicklistSlot) : PicklistSlot :=
  if slot.status = .captain ∨ slot.status = .picked then
    { slot with status := .available, pickedByAlliance := none }
  else slot

/-- The top eight become captains of alliances 1-8. -/
def seedCaptains (slots : List PicklistSlot) (ranked : List String) : List PicklistSlot :=
  let captains := ranked.take allianceCount
  captains.zipIdx.foldl (fun next (team, i) => setSlot next team (·.makeCaptain (i + 1)))
    ((withTeams slots captains).map (·.cleared))

/-- The captains of the alliances below the one that is left move up one. -/
def moveUp (alliances : List Alliance) (leaving : Nat) (slots : List PicklistSlot) :
    List PicklistSlot :=
  alliances.foldl (fun next alliance =>
    match alliance.captain with
    | some captain =>
        if alliance.number ≤ leaving then next
        else setSlot next captain (·.moveTo (alliance.number - 1))
    | none => next) slots

/-- The on-the-clock alliance picks the team. The alliances below a captain who accepts move
up one and the best-ranked team not yet on an alliance becomes the new eighth captain. -/
def pickTeam (slots : List PicklistSlot) (teamKey : String) (ranked : List String) :
    List PicklistSlot :=
  let state := draftFromSlots slots
  match state.onClock with
  | none => slots
  | some onClock =>
      if canBePicked state teamKey then
        let next := setSlot (withTeams slots [teamKey]) teamKey (·.pick onClock.alliance)
        match state.alliances.find? fun alliance => alliance.captain = some teamKey with
        | none => next
        | some leaving =>
            let moved := moveUp state.alliances leaving.number next
            match ranked.find? fun team => team ∉ state.taken with
            | none => moved
            | some promoted =>
                setSlot (withTeams moved [promoted]) promoted (·.makeCaptain allianceCount)
      else slots

def isCaptain (slots : List PicklistSlot) (teamKey : String) : Bool :=
  slots.any fun slot => slot.teamKey = teamKey && slot.status = .captain

/-- A captain who declines stays captain of their own alliance. -/
def declineTeam (slots : List PicklistSlot) (teamKey : String) : List PicklistSlot :=
  if isCaptain slots teamKey then slots
  else setSlot (withTeams slots [teamKey]) teamKey (·.decline)

/-! ### Runs -/

/-- The slots with, for the record, the picks accepted since the captains were seeded (team
and alliance, oldest first) and the teams that declined. -/
structure Board where
  slots : List PicklistSlot
  accepted : List (String × Nat) := []
  declined : List String := []
deriving DecidableEq

inductive DraftAction
  | seedCaptains
  | pickTeam (teamKey : String)
  | declineTeam (teamKey : String)
deriving DecidableEq

/-- The alliance that gets the team if `pickTeam` accepts it. -/
def acceptedBy (slots : List PicklistSlot) (teamKey : String) : Option Nat :=
  let state := draftFromSlots slots
  if canBePicked state teamKey then state.onClock.map (·.alliance) else none

def draftStep (ranked : List String) (b : Board) : DraftAction → Option Board
  | .seedCaptains => some { b with slots := seedCaptains b.slots ranked, accepted := [] }
  | .pickTeam teamKey =>
      some { b with
        slots := pickTeam b.slots teamKey ranked
        accepted := b.accepted ++ ((acceptedBy b.slots teamKey).map (teamKey, ·)).toList }
  | .declineTeam teamKey =>
      some { b with
        slots := declineTeam b.slots teamKey
        declined := teamKey :: b.declined }

def draftSystem (ranked : List String) (start : List PicklistSlot → Prop) :
    System Board DraftAction where
  start b := start b.slots ∧ b.accepted = [] ∧ b.declined = []
  step := draftStep ranked

/-! ### A team's slot -/

/-- The slot that counts for a team: its first. -/
def slotOf (slots : List PicklistSlot) (teamKey : String) : Option PicklistSlot :=
  slots.find? (·.teamKey = teamKey)

theorem slotOf_teamKey {slots : List PicklistSlot} {t : String} {slot : PicklistSlot}
    (h : slotOf slots t = some slot) : slot.teamKey = t := by
  simpa using List.find?_some h

theorem slotOf_eq_none {slots : List PicklistSlot} {t : String} :
    slotOf slots t = none ↔ ∀ slot ∈ slots, slot.teamKey ≠ t := by
  simp [slotOf]

theorem slotOf_setSlot {f : PicklistSlot → PicklistSlot} (hf : ∀ s, (f s).teamKey = s.teamKey)
    (slots : List PicklistSlot) (t u : String) :
    slotOf (setSlot slots t f) u = if u = t then (slotOf slots t).map f else slotOf slots u := by
  induction slots with
  | nil => simp [setSlot, slotOf]
  | cons slot rest ih =>
      by_cases hslot : slot.teamKey = t
      · by_cases hu : u = t
        · simp [setSlot, slotOf, hslot, hf, hu]
        · simp [setSlot, slotOf, hslot, hf, hu, Ne.symm hu]
      · by_cases hu : slot.teamKey = u
        · have hne : u ≠ t := fun heq => hslot (hu.trans heq)
          simp [setSlot, slotOf, hu, hne]
        · simpa [setSlot, slotOf, hslot, hu] using ih

theorem slotOf_setSlot_of_ne {f : PicklistSlot → PicklistSlot}
    (hf : ∀ s, (f s).teamKey = s.teamKey) (slots : List PicklistSlot) {t u : String}
    (h : u ≠ t) : slotOf (setSlot slots t f) u = slotOf slots u := by
  rw [slotOf_setSlot hf, if_neg h]

theorem slotOf_withTeams (slots : List PicklistSlot) (teamKeys : List String) (u : String) :
    slotOf (withTeams slots teamKeys) u =
      (slotOf slots u).or (if u ∈ teamKeys then some (blankSlot u) else none) := by
  induction teamKeys generalizing slots with
  | nil => simp [withTeams]
  | cons key rest ih =>
      have hrest := ih (if slots.any (·.teamKey = key) then slots else slots ++ [blankSlot key])
      rw [withTeams, List.foldl_cons]
      rw [withTeams] at hrest
      rw [hrest]
      by_cases hany : slots.any (·.teamKey = key)
      · by_cases hu : u = key
        · have hsome : slotOf slots u ≠ none := by
            simp only [ne_eq, slotOf_eq_none, hu]
            simpa using hany
          obtain ⟨slot, hslot⟩ := Option.ne_none_iff_exists'.mp hsome
          simp [hany, hslot]
        · simp [hany, hu]
      · by_cases hu : u = key
        · simp [hany, hu, slotOf, blankSlot]
        · simp [hany, hu, slotOf, blankSlot, Ne.symm hu]

theorem slotOf_map {f : PicklistSlot → PicklistSlot} (hf : ∀ s, (f s).teamKey = s.teamKey)
    (slots : List PicklistSlot) (t : String) :
    slotOf (slots.map f) t = (slotOf slots t).map f := by
  simp [slotOf, List.find?_map, Function.comp_def, hf]

theorem PicklistSlot.teamKey_makeCaptain (number : Nat) (slot : PicklistSlot) :
    (slot.makeCaptain number).teamKey = slot.teamKey :=
  rfl

theorem PicklistSlot.teamKey_pick (number : Nat) (slot : PicklistSlot) :
    (slot.pick number).teamKey = slot.teamKey :=
  rfl

theorem PicklistSlot.teamKey_moveTo (number : Nat) (slot : PicklistSlot) :
    (slot.moveTo number).teamKey = slot.teamKey :=
  rfl

theorem PicklistSlot.teamKey_decline (slot : PicklistSlot) : slot.decline.teamKey = slot.teamKey :=
  rfl

@[simp] theorem PicklistSlot.teamKey_cleared (slot : PicklistSlot) :
    slot.cleared.teamKey = slot.teamKey := by
  rw [PicklistSlot.cleared]
  split <;> rfl

/-! ### One status for each team -/

/-- Only the first slot of a team has a status. -/
def OneStatus (slots : List PicklistSlot) : Prop :=
  slots.Pairwise fun a b => a.teamKey = b.teamKey → b.status = .available

theorem oneStatus_of_distinct {slots : List PicklistSlot} (h : (slots.map (·.teamKey)).Nodup) :
    OneStatus slots :=
  (List.pairwise_map.mp h).imp fun hne heq => absurd heq hne

theorem oneStatus_of_available {slots : List PicklistSlot}
    (h : ∀ slot ∈ slots, slot.status = .available) : OneStatus slots :=
  List.pairwise_of_forall_mem_list fun _ _ b hb _ => h b hb

theorem OneStatus.slotOf_of_mem {slots : List PicklistSlot} (h : OneStatus slots)
    {slot : PicklistSlot} (hmem : slot ∈ slots) (hstatus : slot.status ≠ .available) :
    slotOf slots slot.teamKey = some slot := by
  induction slots with
  | nil => cases hmem
  | cons first rest ih =>
      obtain ⟨hfirst, hrest⟩ := List.pairwise_cons.mp h
      cases List.mem_cons.mp hmem with
      | inl heq => simp [slotOf, heq]
      | inr hin =>
          have hne : first.teamKey ≠ slot.teamKey :=
            fun heq => hstatus (hfirst slot hin heq)
          simpa [slotOf, hne] using ih hrest hin

theorem mem_of_slotOf {slots : List PicklistSlot} {t : String} {slot : PicklistSlot}
    (h : slotOf slots t = some slot) : slot ∈ slots :=
  List.mem_of_find?_eq_some h

theorem mem_setSlot {slots : List PicklistSlot} {t : String} {f : PicklistSlot → PicklistSlot}
    {slot : PicklistSlot} (h : slot ∈ setSlot slots t f) :
    slot ∈ slots ∨ ∃ old ∈ slots, old.teamKey = t ∧ slot = f old := by
  induction slots with
  | nil => cases h
  | cons first rest ih =>
      by_cases hfirst : first.teamKey = t
      · rw [setSlot, if_pos hfirst] at h
        cases List.mem_cons.mp h with
        | inl heq => exact .inr ⟨first, List.mem_cons_self, hfirst, heq⟩
        | inr hin => exact .inl (List.mem_cons_of_mem _ hin)
      · rw [setSlot, if_neg hfirst] at h
        cases List.mem_cons.mp h with
        | inl heq => exact .inl (heq ▸ List.mem_cons_self)
        | inr hin =>
            cases ih hin with
            | inl hold => exact .inl (List.mem_cons_of_mem _ hold)
            | inr hnew =>
                obtain ⟨old, hold, hkey, heq⟩ := hnew
                exact .inr ⟨old, List.mem_cons_of_mem _ hold, hkey, heq⟩

theorem OneStatus.setSlot {slots : List PicklistSlot} (h : OneStatus slots) (t : String)
    {f : PicklistSlot → PicklistSlot} (hf : ∀ s, (f s).teamKey = s.teamKey) :
    OneStatus (setSlot slots t f) := by
  induction slots with
  | nil => exact List.Pairwise.nil
  | cons first rest ih =>
      obtain ⟨hfirst, hrest⟩ := List.pairwise_cons.mp h
      by_cases hkey : first.teamKey = t
      · rw [Picklists.setSlot, if_pos hkey]
        refine List.pairwise_cons.mpr ⟨fun b hb heq => ?_, hrest⟩
        exact hfirst b hb ((hf first).symm.trans heq)
      · rw [Picklists.setSlot, if_neg hkey]
        refine List.pairwise_cons.mpr ⟨fun b hb heq => ?_, ih hrest⟩
        cases mem_setSlot hb with
        | inl hold => exact hfirst b hold heq
        | inr hnew =>
            obtain ⟨old, -, hold, rfl⟩ := hnew
            exact absurd (heq.trans ((hf old).trans hold)) hkey

theorem OneStatus.withTeams {slots : List PicklistSlot} (h : OneStatus slots)
    (teamKeys : List String) : OneStatus (withTeams slots teamKeys) := by
  induction teamKeys generalizing slots with
  | nil => exact h
  | cons key rest ih =>
      rw [Picklists.withTeams, List.foldl_cons]
      refine ih ?_
      split
      · exact h
      · refine List.pairwise_append.mpr ⟨h, List.pairwise_singleton .., fun a _ b hb _ => ?_⟩
        rw [List.mem_singleton.mp hb]
        rfl

theorem OneStatus.cleared {slots : List PicklistSlot} (h : OneStatus slots) :
    OneStatus (slots.map (·.cleared)) := by
  refine List.pairwise_map.mpr (h.imp fun {a b} hab heq => ?_)
  have hb : b.status = .available := hab (by simpa using heq)
  simp [PicklistSlot.cleared, hb]

theorem OneStatus.moveUp {slots : List PicklistSlot} (h : OneStatus slots)
    (alliances : List Alliance) (leaving : Nat) : OneStatus (moveUp alliances leaving slots) := by
  induction alliances generalizing slots with
  | nil => exact h
  | cons alliance rest ih =>
      rw [Picklists.moveUp, List.foldl_cons]
      refine ih ?_
      split
      · split
        · exact h
        · exact h.setSlot _ (PicklistSlot.teamKey_moveTo _)
      · exact h

theorem OneStatus.seedCaptains {slots : List PicklistSlot} (h : OneStatus slots)
    (ranked : List String) : OneStatus (seedCaptains slots ranked) := by
  have hset : ∀ next (p : String × Nat), OneStatus next →
      OneStatus (Picklists.setSlot next p.1 (·.makeCaptain (p.2 + 1))) :=
    fun next p hnext => hnext.setSlot p.1 (PicklistSlot.teamKey_makeCaptain _)
  exact foldl_keeps hset _ (h.withTeams _).cleared

theorem OneStatus.pickTeam {slots : List PicklistSlot} (h : OneStatus slots) (t : String)
    (ranked : List String) : OneStatus (pickTeam slots t ranked) := by
  rw [Picklists.pickTeam]
  split
  · exact h
  · split
    · rename_i clock _ _
      have hnext := (h.withTeams [t]).setSlot t (PicklistSlot.teamKey_pick clock.alliance)
      split
      · exact hnext
      · split
        · exact hnext.moveUp ..
        · exact ((hnext.moveUp ..).withTeams _).setSlot _ (PicklistSlot.teamKey_makeCaptain _)
    · exact h

theorem OneStatus.declineTeam {slots : List PicklistSlot} (h : OneStatus slots) (t : String) :
    OneStatus (declineTeam slots t) := by
  rw [Picklists.declineTeam]
  split
  · exact h
  · exact (h.withTeams [t]).setSlot t PicklistSlot.teamKey_decline

/-! ### Captains and picks -/

theorem captainOf_eq_some {slots : List PicklistSlot} {number : Nat} {t : String}
    (hone : OneStatus slots) (h : captainOf slots number = some t) :
    ∃ slot, slotOf slots t = some slot ∧ slot.status = .captain ∧
      slot.pickedByAlliance = some number := by
  obtain ⟨slot, hfind, rfl⟩ := Option.map_eq_some_iff.mp h
  have hslot : slot.status = .captain ∧ slot.pickedByAlliance = some number := by
    simpa using List.find?_some hfind
  refine ⟨slot, hone.slotOf_of_mem (List.mem_of_find?_eq_some hfind) ?_, hslot⟩
  simp [hslot.1]

theorem mem_picksOf {slots : List PicklistSlot} {number : Nat} {t : String}
    (hone : OneStatus slots) :
    t ∈ picksOf slots number ↔ ∃ slot, slotOf slots t = some slot ∧ slot.status = .picked ∧
      slot.pickedByAlliance = some number := by
  simp only [picksOf, List.mem_map, List.mem_filter, decide_eq_true_eq]
  constructor
  · intro h
    obtain ⟨slot, ⟨hmem, hslot⟩, rfl⟩ := h
    exact ⟨slot, hone.slotOf_of_mem hmem (by simp [hslot.1]), hslot⟩
  · intro h
    obtain ⟨slot, hslot, hpicked⟩ := h
    exact ⟨slot, ⟨mem_of_slotOf hslot, hpicked⟩, slotOf_teamKey hslot⟩

theorem mem_alliancesOf {i : Nat} (h : i < allianceCount) (slots : List PicklistSlot) :
    allianceAt slots (i + 1) ∈ alliancesOf slots :=
  List.mem_map.mpr ⟨i, List.mem_range.mpr h, rfl⟩

theorem alliance_mem {slots : List PicklistSlot} {alliance : Alliance}
    (h : alliance ∈ alliancesOf slots) :
    alliance.captain = captainOf slots alliance.number ∧
      alliance.picks = picksOf slots alliance.number := by
  obtain ⟨i, -, rfl⟩ := List.mem_map.mp h
  exact ⟨rfl, rfl⟩

/-- Nobody moves up but the captains below. -/
theorem slotOf_moveUp_of_le {alliances : List Alliance} {t : String} {leaving : Nat}
    (h : ∀ alliance ∈ alliances, alliance.captain = some t → alliance.number ≤ leaving)
    (slots : List PicklistSlot) : slotOf (moveUp alliances leaving slots) t = slotOf slots t := by
  induction alliances generalizing slots with
  | nil => rfl
  | cons alliance rest ih =>
      have hrest := ih fun a ha => h a (List.mem_cons_of_mem _ ha)
      rw [moveUp, List.foldl_cons]
      refine (hrest _).trans ?_
      split
      · rename_i captain hcaptain
        split
        · rfl
        · rename_i hbelow
          have hne : t ≠ captain := fun heq =>
            hbelow (h alliance List.mem_cons_self (hcaptain.trans (congrArg some heq.symm)))
          exact slotOf_setSlot_of_ne (PicklistSlot.teamKey_moveTo _) slots hne
      · rfl

theorem slotOf_moveUp {alliances : List Alliance} {leaving : Nat}
    (hdistinct : alliances.Pairwise fun a b => a.captain = b.captain → a.captain = none)
    {alliance : Alliance} (hmem : alliance ∈ alliances) {t : String}
    (hcaptain : alliance.captain = some t) (hbelow : leaving < alliance.number)
    (slots : List PicklistSlot) :
    slotOf (moveUp alliances leaving slots) t =
      (slotOf slots t).map (·.moveTo (alliance.number - 1)) := by
  induction alliances generalizing slots with
  | nil => cases hmem
  | cons first rest ih =>
      obtain ⟨hfirst, hrest⟩ := List.pairwise_cons.mp hdistinct
      rw [moveUp, List.foldl_cons]
      cases List.mem_cons.mp hmem with
      | inl heq =>
          have hnone : ∀ a ∈ rest, a.captain = some t → a.number ≤ leaving := by
            intro a ha hcap
            have hsame : first.captain = a.captain := by rw [← heq, hcaptain, hcap]
            rw [← heq, hcaptain] at hfirst
            exact absurd (hfirst a ha hcap.symm) nofun
          refine (slotOf_moveUp_of_le hnone _).trans ?_
          simp only [← heq, hcaptain, Nat.not_le.mpr hbelow, if_false]
          rw [slotOf_setSlot (PicklistSlot.teamKey_moveTo _), if_pos rfl]
      | inr hin =>
          refine (ih hrest hin _).trans (congrArg _ ?_)
          split
          · rename_i captain hcap
            split
            · rfl
            · have hne : t ≠ captain := by
                intro heq
                have hsame : first.captain = alliance.captain := by rw [hcap, hcaptain, heq]
                rw [hfirst alliance hin hsame] at hcap
                cases hcap
              exact slotOf_setSlot_of_ne (PicklistSlot.teamKey_moveTo _) slots hne
          · rfl

end Frcmob.Picklists
