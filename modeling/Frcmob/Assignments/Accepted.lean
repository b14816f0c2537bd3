import Frcmob.Assignments.Slots
import Frcmob.Lib.Transition

/-!
Whether the server takes the plans that the assignment page computes from its snapshot. A stored
row may name a team that has left its match's lineup since: the page's clearing names it, and its
automatic plan does not see that the row's member is booked.
-/

namespace Frcmob.Assignments
open Sessions Request Transition Workspaces

/-! ### One more change -/

theorem lastChange_concat (changes : List TeamAssignmentChange) (change : TeamAssignmentChange)
    (slot : SlotRef) :
    lastChange (changes ++ [change]) slot =
      if change.slot = slot then some change else lastChange changes slot := by
  rw [lastChange, List.reverse_append, List.reverse_singleton, List.singleton_append]
  by_cases h : change.slot = slot
  · rw [if_pos h, List.find?_cons_of_pos (by simpa using h)]
  · rw [if_neg h, List.find?_cons_of_neg (by simpa using h), lastChange]

theorem holderAfter_concat_self {db : TeamRoomDb} {roomKey : String}
    {changes : List TeamAssignmentChange} {change : TeamAssignmentChange} :
    holderAfter db roomKey (changes ++ [change]) change.slot = change.assignedMemberId := by
  rw [holderAfter, lastChange_concat, if_pos rfl]
  rfl

theorem holderAfter_concat_of_ne {db : TeamRoomDb} {roomKey : String}
    {changes : List TeamAssignmentChange} {change : TeamAssignmentChange} {slot : SlotRef}
    (h : slot ≠ change.slot) :
    holderAfter db roomKey (changes ++ [change]) slot = holderAfter db roomKey changes slot := by
  rw [holderAfter, lastChange_concat, if_neg (Ne.symm h), holderAfter]

theorem holderAfter_of_unnamed {db : TeamRoomDb} {roomKey : String}
    {changes : List TeamAssignmentChange} {slot : SlotRef}
    (h : ∀ change ∈ changes, change.slot ≠ slot) :
    holderAfter db roomKey changes slot = holder db roomKey slot := by
  rw [holderAfter, lastChange_eq_none.mpr h]
  rfl

/-- Who is picked is a free scout of the list. -/
theorem pickScout_free {members busy : List Nat} {work : Workload} {id : Nat}
    (h : pickScout members busy work = some id) : id ∈ members ∧ id ∉ busy := by
  have hinv : ∀ id, pickScout members busy work = some id → id ∈ members ∧ id ∉ busy := by
    rw [pickScout]
    refine @foldl_rounds _ _ _ (fun _ pick => ∀ id, pick = some id → id ∈ members ∧ id ∉ busy)
      members none (by simp) ?_
    intro before a after pick heq hinv id hid
    have ha : a ∈ members := heq ▸ List.mem_append_right _ List.mem_cons_self
    split at hid
    · exact hinv id hid
    · rename_i hfree
      cases pick with
      | none =>
          cases hid
          exact ⟨ha, hfree⟩
      | some p =>
          dsimp only at hid
          split at hid
          · cases hid
            exact ⟨ha, hfree⟩
          · exact hinv id hid
  exact hinv id h

namespace EventRoom
variable {R : EventRoom} {server : Server} {completed : String → Bool} {mode : AutoAssignMode}
  {members : List Nat} {item : EventScheduleItem}

/-- The index of the stored rows. -/
def index (R : EventRoom) (server : Server) : AssignmentIndex :=
  assignmentIndex (R.snapshot server).assignments

/-- The active member that the plan leaves on a slot. -/
def kept (R : EventRoom) (mode : AutoAssignMode) (slot : SlotRef) : Option Nat :=
  match mode with
  | .fill => R.working slot
  | .redo => none

theorem keep_row {slot : SlotRef} (hslot : IsSlot slot) :
    keep mode ((R.index server).row slot) = R.kept mode slot := by
  cases mode with
  | fill => exact currentOf_row hslot
  | redo => rfl

/-! ### One slot -/

section Slot
variable {slot : MatchSlot} {st : PlanState} {k : Nat}

theorem planSlot_of_kept (hslot : IsSlot slot.toSlotRef) (h : R.kept mode slot.toSlotRef ≠ none) :
    planSlot mode members (R.index server) k st slot = st := by
  rw [planSlot, if_pos]
  rw [keep_row hslot]
  exact Option.isSome_iff_ne_none.mpr h

theorem planSlot_busy (hslot : IsSlot slot.toSlotRef) (h : R.kept mode slot.toSlotRef = none) :
    (planSlot mode members (R.index server) k st slot).busy =
      (pickScout members st.busy st.work).toList ++ st.busy := by
  simp only [planSlot, keep_row hslot, h, Option.isSome_none, Bool.false_eq_true, if_false]
  cases pickScout members st.busy st.work with
  | none => rfl
  | some id => rfl

theorem planSlot_changes (hslot : IsSlot slot.toSlotRef) (h : R.kept mode slot.toSlotRef = none) :
    (planSlot mode members (R.index server) k st slot).changes =
      if R.working slot.toSlotRef = pickScout members st.busy st.work then st.changes
      else st.changes ++
        [⟨slot.matchKey, slot.teamKey, pickScout members st.busy st.work⟩] := by
  have hcurrent : currentOf ((assignmentIndex (R.snapshot server).assignments).row
      slot.toSlotRef) = R.working slot.toSlotRef := currentOf_row hslot
  simp only [planSlot, keep_row hslot, h, Option.isSome_none, Bool.false_eq_true, if_false]
  rw [index, hcurrent]
  cases hnext : pickScout members st.busy st.work with
  | none =>
      by_cases hworking : R.working slot.toSlotRef = none
      · simp [hworking]
      · simp [hworking]
  | some id =>
      by_cases hworking : R.working slot.toSlotRef = some id
      · simp [hworking]
      · simp [hworking]

theorem mem_planSlot_changes (hslot : IsSlot slot.toSlotRef)
    (h : R.kept mode slot.toSlotRef = none) {c : TeamAssignmentChange}
    (hc : c ∈ (planSlot mode members (R.index server) k st slot).changes) :
    c ∈ st.changes ∨
      c.slot = slot.toSlotRef ∧ c.assignedMemberId = pickScout members st.busy st.work := by
  rw [planSlot_changes hslot h] at hc
  split at hc
  · exact .inl hc
  · cases List.mem_append.mp hc with
    | inl hin => exact .inl hin
    | inr hin =>
        rw [List.mem_singleton] at hin
        subst hin
        exact .inr ⟨rfl, rfl⟩

theorem workingAfter_of_unnamed {changes : List TeamAssignmentChange} {s : SlotRef}
    (h : ∀ c ∈ changes, c.slot ≠ s) : R.workingAfter changes s = R.working s := by
  rw [workingAfter, holderAfter_of_unnamed h]
  rfl

/-- Whether or not it takes a change, a slot that is planned ends with the scout picked. -/
theorem workingAfter_planSlot_self (hmembers : ∀ id ∈ members, id ∈ R.activeIds)
    (hslot : IsSlot slot.toSlotRef) (h : R.kept mode slot.toSlotRef = none)
    (hfree : ∀ c ∈ st.changes, c.slot ≠ slot.toSlotRef) :
    R.workingAfter (planSlot mode members (R.index server) k st slot).changes slot.toSlotRef =
      pickScout members st.busy st.work := by
  rw [planSlot_changes hslot h]
  split
  · rename_i hworking
    rw [workingAfter_of_unnamed hfree, hworking]
  · have hlast : holderAfter R.db R.room.roomKey (st.changes ++
        [⟨slot.matchKey, slot.teamKey, pickScout members st.busy st.work⟩]) slot.toSlotRef =
          pickScout members st.busy st.work := by
      apply holderAfter_concat_self
    rw [workingAfter, hlast]
    cases hnext : pickScout members st.busy st.work with
    | none => rfl
    | some id => simp [Option.filter, hmembers id (pickScout_free hnext).1]

theorem workingAfter_planSlot_of_ne (hslot : IsSlot slot.toSlotRef)
    (h : R.kept mode slot.toSlotRef = none) {s : SlotRef} (hne : s ≠ slot.toSlotRef) :
    R.workingAfter (planSlot mode members (R.index server) k st slot).changes s =
      R.workingAfter st.changes s := by
  rw [planSlot_changes hslot h]
  split
  · rfl
  · rw [workingAfter, workingAfter, holderAfter_concat_of_ne hne]

end Slot

/-! ### One match -/

/-- What has been planned once the slots `before` of a match have been visited; `earlier` are the
changes of the matches before it. -/
structure Planned (R : EventRoom) (mode : AutoAssignMode) (item : EventScheduleItem)
    (earlier : List TeamAssignmentChange) (before : List MatchSlot) (st : PlanState) : Prop where
  named : ∀ c ∈ st.changes, c ∈ earlier ∨ c.slot ∈ before.map (·.toSlotRef)
  once : (st.changes.map (·.slot)).Nodup
  active : ∀ c ∈ st.changes, ∀ id, c.assignedMemberId = some id → id ∈ R.activeIds
  others : ∀ s : SlotRef, s.matchKey ≠ item.matchKey →
    R.workingAfter st.changes s = R.workingAfter earlier s
  busy : ∀ s ∈ itemSlots item, s ∈ before.map (·.toSlotRef) ∨ R.kept mode s ≠ none →
    ∀ id, R.workingAfter st.changes s = some id → id ∈ st.busy
  distinct : ∀ s ∈ itemSlots item, s ∈ before.map (·.toSlotRef) ∨ R.kept mode s ≠ none →
    ∀ t ∈ itemSlots item, t ∈ before.map (·.toSlotRef) ∨ R.kept mode t ≠ none →
    ∀ id, R.workingAfter st.changes s = some id → R.workingAfter st.changes t = some id → s = t

theorem planned_planSlot (hmembers : ∀ id ∈ members, id ∈ R.activeIds)
    (hitem : item ∈ R.schedule completed) {earlier : List TeamAssignmentChange}
    (hearlier : ∀ c ∈ earlier, c.slot.matchKey ≠ item.matchKey) {before after : List MatchSlot}
    {slot : MatchSlot} {st : PlanState} {k : Nat}
    (hslots : matchSlots item = before ++ slot :: after)
    (h : Planned R mode item earlier before st) :
    Planned R mode item earlier (before ++ [slot])
      (planSlot mode members (R.index server) k st slot) := by
  have hitemSlots : itemSlots item =
      before.map (·.toSlotRef) ++ slot.toSlotRef :: after.map (·.toSlotRef) := by
    rw [itemSlots, hslots, List.map_append, List.map_cons]
  have hmem : slot.toSlotRef ∈ itemSlots item :=
    hitemSlots ▸ List.mem_append_right _ List.mem_cons_self
  have hslot := isSlot_of_mem_itemSlots hitem hmem
  have hkey := ((mem_itemSlots hitem).mp hmem).1
  have hnew : slot.toSlotRef ∉ before.map (·.toSlotRef) := by
    intro hin
    have hnodup := nodup_itemSlots hitem
    rw [hitemSlots, List.nodup_append] at hnodup
    exact hnodup.2.2 _ hin _ List.mem_cons_self rfl
  by_cases hkept : R.kept mode slot.toSlotRef = none
  · have hfree : ∀ c ∈ st.changes, c.slot ≠ slot.toSlotRef := by
      intro c hc hcslot
      cases h.named c hc with
      | inl hin => exact hearlier c hin (hcslot ▸ hkey)
      | inr hin => exact hnew (hcslot ▸ hin)
    have hself : R.workingAfter (planSlot mode members (R.index server) k st slot).changes
        slot.toSlotRef = pickScout members st.busy st.work :=
      workingAfter_planSlot_self hmembers hslot hkept hfree
    have hother : ∀ s, s ≠ slot.toSlotRef →
        R.workingAfter (planSlot mode members (R.index server) k st slot).changes s =
          R.workingAfter st.changes s := fun s hne => workingAfter_planSlot_of_ne hslot hkept hne
    have hbusy : (planSlot mode members (R.index server) k st slot).busy =
        (pickScout members st.busy st.work).toList ++ st.busy := planSlot_busy hslot hkept
    have hsettled : ∀ s : SlotRef, s ≠ slot.toSlotRef →
        s ∈ (before ++ [slot]).map (·.toSlotRef) ∨ R.kept mode s ≠ none →
        s ∈ before.map (·.toSlotRef) ∨ R.kept mode s ≠ none := by
      rintro s hne (hin | hin)
      · rw [List.map_append, List.mem_append] at hin
        exact .inl (hin.resolve_right fun hs => hne (List.mem_singleton.mp hs))
      · exact .inr hin
    -- whoever is picked is not at another slot that is settled
    have hpicked : ∀ s ∈ itemSlots item, s ≠ slot.toSlotRef →
        s ∈ (before ++ [slot]).map (·.toSlotRef) ∨ R.kept mode s ≠ none → ∀ id,
        R.workingAfter st.changes s = some id → pickScout members st.busy st.work ≠ some id := by
      intro s hs hne hset id hheld hnext
      exact (pickScout_free hnext).2 (h.busy s hs (hsettled s hne hset) id hheld)
    constructor
    case named =>
      intro c hc
      rw [List.map_append, List.mem_append]
      cases mem_planSlot_changes hslot hkept hc with
      | inl hin => exact (h.named c hin).imp_right .inl
      | inr heq => exact .inr (.inr (List.mem_singleton.mpr heq.1))
    case once =>
      rw [planSlot_changes hslot hkept]
      split
      · exact h.once
      · rw [List.map_append, List.nodup_append]
        refine ⟨h.once, List.nodup_singleton _, ?_⟩
        intro a ha b hb hab
        obtain ⟨c, hc, rfl⟩ := List.mem_map.mp ha
        exact hfree c hc (hab.trans (List.mem_singleton.mp hb))
    case active =>
      intro c hc id hid
      cases mem_planSlot_changes hslot hkept hc with
      | inl hin => exact h.active c hin id hid
      | inr heq => exact hmembers id (pickScout_free (heq.2.symm.trans hid)).1
    case others =>
      intro s hs
      rw [hother s fun he => hs (he ▸ hkey)]
      exact h.others s hs
    case busy =>
      intro s hs hset id hheld
      rw [hbusy, List.mem_append]
      by_cases hne : s = slot.toSlotRef
      · rw [hne, hself] at hheld
        exact .inl (Option.mem_toList.mpr hheld)
      · rw [hother s hne] at hheld
        exact .inr (h.busy s hs (hsettled s hne hset) id hheld)
    case distinct =>
      intro s hs hset t ht htset id hheld hheld'
      by_cases hsne : s = slot.toSlotRef
      · by_cases htne : t = slot.toSlotRef
        · rw [hsne, htne]
        · rw [hsne, hself] at hheld
          rw [hother t htne] at hheld'
          exact absurd hheld (hpicked t ht htne htset id hheld')
      · by_cases htne : t = slot.toSlotRef
        · rw [htne, hself] at hheld'
          rw [hother s hsne] at hheld
          exact absurd hheld' (hpicked s hs hsne hset id hheld)
        · rw [hother s hsne] at hheld
          rw [hother t htne] at hheld'
          exact h.distinct s hs (hsettled s hsne hset) t ht (hsettled t htne htset) id hheld hheld'
  · rw [planSlot_of_kept hslot hkept]
    have hsettled : ∀ s : SlotRef,
        s ∈ (before ++ [slot]).map (·.toSlotRef) ∨ R.kept mode s ≠ none →
        s ∈ before.map (·.toSlotRef) ∨ R.kept mode s ≠ none := by
      rintro s (hin | hin)
      · rw [List.map_append, List.mem_append] at hin
        cases hin with
        | inl hin => exact .inl hin
        | inr hin => exact .inr (List.mem_singleton.mp hin ▸ hkept)
      · exact .inr hin
    exact
      { named := fun c hc => (h.named c hc).imp_right fun hin => by
          rw [List.map_append]
          exact List.mem_append_left _ hin
        once := h.once
        active := h.active
        others := h.others
        busy := fun s hs hset => h.busy s hs (hsettled s hset)
        distinct := fun s hs hset t ht htset =>
          h.distinct s hs (hsettled s hset) t ht (hsettled t htset) }

/-! ### All matches -/

/-- What the changes planned for the matches `done` do. -/
structure Sound (R : EventRoom) (done : List EventScheduleItem)
    (changes : List TeamAssignmentChange) : Prop where
  named : ∀ c ∈ changes, ∃ item ∈ done, c.slot ∈ itemSlots item
  once : (changes.map (·.slot)).Nodup
  active : ∀ c ∈ changes, ∀ id, c.assignedMemberId = some id → id ∈ R.activeIds
  distinct : ∀ item ∈ done, ∀ s ∈ itemSlots item, ∀ t ∈ itemSlots item, ∀ id,
    R.workingAfter changes s = some id → R.workingAfter changes t = some id → s = t

theorem workingAfter_eq_some {changes : List TeamAssignmentChange} {slot : SlotRef} {id : Nat} :
    R.workingAfter changes slot = some id ↔
      holderAfter R.db R.room.roomKey changes slot = some id ∧ id ∈ R.activeIds := by
  simp [workingAfter, Option.filter_eq_some_iff]

theorem working_distinct {s t : SlotRef} {id : Nat} (hmatch : s.matchKey = t.matchKey)
    (hs : R.working s = some id) (ht : R.working t = some id) : s = t :=
  R.oneTeam s t id hmatch (workingAfter_eq_some.mp hs).1 (workingAfter_eq_some.mp ht).1

theorem working_of_kept {s : SlotRef} (h : R.kept mode s ≠ none) :
    R.kept mode s = R.working s := by
  cases mode with
  | fill => rfl
  | redo => exact absurd rfl h

/-- The busy scouts of a match, before its slots are visited, are those it keeps. -/
theorem planned_start (hitem : item ∈ R.schedule completed) {st : PlanState}
    (hearlier : ∀ c ∈ st.changes, c.slot.matchKey ≠ item.matchKey)
    (honce : (st.changes.map (·.slot)).Nodup)
    (hactive : ∀ c ∈ st.changes, ∀ id, c.assignedMemberId = some id → id ∈ R.activeIds) :
    Planned R mode item st.changes []
      { st with
        busy := (matchSlots item).filterMap fun slot =>
          keep mode ((R.index server).row slot.toSlotRef) } := by
  have hunnamed : ∀ s ∈ itemSlots item, R.workingAfter st.changes s = R.working s := by
    intro s hs
    apply workingAfter_of_unnamed
    intro c hc hcs
    exact hearlier c hc (hcs ▸ ((mem_itemSlots hitem).mp hs).1)
  refine ⟨fun c hc => .inl hc, honce, hactive, fun s _ => rfl, ?_, ?_⟩
  · intro s hs hset id hheld
    have hkept : R.kept mode s ≠ none := hset.resolve_left List.not_mem_nil
    rw [hunnamed s hs, ← working_of_kept hkept] at hheld
    obtain ⟨slot, hslot, rfl⟩ := List.mem_map.mp hs
    refine List.mem_filterMap.mpr ⟨slot, hslot, ?_⟩
    rw [keep_row (isSlot_of_mem_itemSlots hitem hs), hheld]
  · intro s hs _ t ht _ id hheld hheld'
    rw [hunnamed s hs] at hheld
    rw [hunnamed t ht] at hheld'
    have hmatch := ((mem_itemSlots hitem).mp hs).1.trans ((mem_itemSlots hitem).mp ht).1.symm
    exact working_distinct hmatch hheld hheld'

theorem sound_planMatch (hmembers : ∀ id ∈ members, id ∈ R.activeIds)
    (hitem : item ∈ R.schedule completed) {done : List EventScheduleItem}
    (hdone : ∀ m ∈ done, m ∈ R.schedule completed ∧ m.matchKey ≠ item.matchKey) {st : PlanState}
    {k : Nat} (h : Sound R done st.changes) :
    Sound R (done ++ [item]) (planMatch mode members (R.index server) st (item, k)).changes := by
  have hkey : ∀ m ∈ done, ∀ s ∈ itemSlots m, s.matchKey ≠ item.matchKey := by
    intro m hm s hs
    rw [((mem_itemSlots (hdone m hm).1).mp hs).1]
    exact (hdone m hm).2
  have hearlier : ∀ c ∈ st.changes, c.slot.matchKey ≠ item.matchKey := by
    intro c hc
    obtain ⟨m, hm, hslot⟩ := h.named c hc
    exact hkey m hm c.slot hslot
  have hplanned : Planned R mode item st.changes (matchSlots item)
      (planMatch mode members (R.index server) st (item, k)) :=
    foldl_rounds (planned_start hitem hearlier h.once h.active)
      fun before slot after st' hslots hst =>
        planned_planSlot hmembers hitem hearlier hslots hst
  constructor
  case named =>
    intro c hc
    cases hplanned.named c hc with
    | inl hin =>
        obtain ⟨m, hm, hslot⟩ := h.named c hin
        exact ⟨m, List.mem_append_left _ hm, hslot⟩
    | inr hin => exact ⟨item, List.mem_append_right _ List.mem_cons_self, hin⟩
  case once => exact hplanned.once
  case active => exact hplanned.active
  case distinct =>
    intro m hm s hs t ht id hheld hheld'
    cases List.mem_append.mp hm with
    | inl hin =>
        rw [hplanned.others s (hkey m hin s hs)] at hheld
        rw [hplanned.others t (hkey m hin t ht)] at hheld'
        exact h.distinct m hin s hs t ht id hheld hheld'
    | inr hin =>
        rw [List.mem_singleton] at hin
        subst hin
        exact hplanned.distinct s hs (.inl hs) t ht (.inl ht) id hheld hheld'

/-- The matches that the plan is for. -/
def upcoming (schedule : List EventScheduleItem) : List EventScheduleItem :=
  (sortSchedule schedule).filter fun m => !m.isCompleted

theorem mem_upcoming {schedule : List EventScheduleItem} :
    item ∈ upcoming schedule ↔ item ∈ schedule ∧ item.isCompleted = false := by
  simp [upcoming, sortSchedule]

theorem sound_planMatches {members : List Nat} (h : ∀ id ∈ members, id ∈ R.activeIds)
    (work : Workload) :
    Sound R (upcoming (R.schedule completed))
      ((upcoming (R.schedule completed)).zipIdx.foldl (planMatch mode members (R.index server))
        ⟨[], work, []⟩).changes := by
  have hkeys : ((upcoming (R.schedule completed)).map (·.matchKey)).Nodup := by
    have hsorted : ((sortSchedule (R.schedule completed)).map (·.matchKey)).Nodup :=
      ((List.perm_insertionSort _ _).map _).nodup_iff.mpr nodup_scheduleKeys
    exact (List.filter_sublist.map _).nodup hsorted
  have hfst : (upcoming (R.schedule completed)).zipIdx.map Prod.fst =
      upcoming (R.schedule completed) := List.zipIdx_map_fst 0 _
  have hrun := @foldl_rounds _ _ (planMatch mode members (R.index server))
    (fun before st => Sound R (before.map Prod.fst) st.changes)
    (upcoming (R.schedule completed)).zipIdx ⟨[], work, []⟩
    ⟨fun c hc => absurd hc List.not_mem_nil, List.nodup_nil,
      fun c hc => absurd hc List.not_mem_nil, fun m hm => absurd hm List.not_mem_nil⟩ (by
      rintro before ⟨item, k⟩ after st heq hst
      have hsplit : upcoming (R.schedule completed) =
          before.map Prod.fst ++ item :: after.map Prod.fst := by
        rw [← hfst, heq, List.map_append, List.map_cons]
      have hitem : item ∈ R.schedule completed :=
        (mem_upcoming.mp (hsplit ▸ List.mem_append_right _ List.mem_cons_self)).1
      rw [List.map_append, List.map_singleton]
      apply sound_planMatch h hitem _ hst
      intro m hm
      refine ⟨(mem_upcoming.mp (hsplit ▸ List.mem_append_left _ hm)).1, fun hkey => ?_⟩
      rw [hsplit, List.map_append, List.nodup_append] at hkeys
      exact hkeys.2.2 _ (List.mem_map_of_mem hm) _ List.mem_cons_self hkey)
  rw [hfst] at hrun
  exact hrun

theorem sound_planAutoAssign {memberIds : List Nat} (h : ∀ id ∈ memberIds, id ∈ R.activeIds) :
    Sound R (upcoming (R.schedule completed))
      (planAutoAssign (R.schedule completed) (R.snapshot server).assignments memberIds mode) :=
  sound_planMatches (fun id hid => h id (List.mem_eraseDups.mp hid)) _

/-! ### What the server makes of it -/

/-- The batch is accepted and every change of it is applied. -/
def Applied (R : EventRoom) (server : Server) (now : Nat) (changes : List TeamAssignmentChange) :
    Prop :=
  ∃ db', perform (applyAssignmentChanges server R.actor R.room changes now) R.db =
      (db', .ok .unit) ∧
    ∀ c ∈ changes, holder db' R.room.roomKey c.slot = c.assignedMemberId

/-- No stored row of an upcoming match names a team outside the match's lineup. -/
def NoStale (R : EventRoom) (completed : String → Bool) : Prop :=
  ∀ row ∈ R.db.assignments, row.roomKey = R.room.roomKey → ∀ item ∈ R.schedule completed,
    item.isCompleted = false → item.matchKey = row.matchKey → R.InLineup row.slot

theorem lastChange_of_once {changes : List TeamAssignmentChange}
    (h : (changes.map (·.slot)).Nodup) {c : TeamAssignmentChange} (hc : c ∈ changes) :
    lastChange changes c.slot = some c := by
  have hrows : (finalChanges changes).rows = changes := Table.rows_putAll h
  rw [← get?_finalChanges, Table.get?_eq_some, Table.mem_def, hrows]
  exact ⟨hc, rfl⟩

theorem applied_iff {now : Nat} {changes : List TeamAssignmentChange}
    (h : (changes.map (·.slot)).Nodup) :
    R.Applied server now changes ↔ Accepted R.db R.actor R.room changes := by
  cases applyAssignmentChanges_outcome server R.actor R.room changes now R.db with
  | inl haccepted =>
      refine ⟨fun _ => haccepted.1, fun _ => ⟨_, haccepted.2, ?_⟩⟩
      intro c hc
      rw [holder_written haccepted.1.valid, holderAfter, lastChange_of_once h hc]
      rfl
  | inr hrefused =>
      obtain ⟨hnot, refusal, hrun⟩ := hrefused
      refine ⟨?_, fun hacc => absurd hacc hnot⟩
      rintro ⟨db', hok, -⟩
      rw [hrun] at hok
      cases congrArg Prod.snd hok

theorem valid_of_mem_itemSlots (hitem : item ∈ R.schedule completed) {c : TeamAssignmentChange}
    (hslot : c.slot ∈ itemSlots item)
    (hactive : ∀ id, c.assignedMemberId = some id → id ∈ R.activeIds) :
    Valid R.db R.actor R.room c := by
  obtain ⟨⟨m, hm, hkey, hevent⟩, -, -⟩ := mem_schedule hitem
  obtain ⟨hmatch, hlineup⟩ := (mem_itemSlots hitem).mp hslot
  constructor
  case inEvent =>
    refine ⟨m, hm, hkey.trans hmatch.symm, ?_⟩
    rw [R.roomEvent, hevent]
  case inMatch => exact hlineup
  case active =>
    intro id hid
    exact List.mem_map.mp (hactive id hid)

/-- Without stale rows an automatic plan leaves nobody with two teams of one match. -/
theorem accepted_of_sound (hstale : R.NoStale completed) {changes : List TeamAssignmentChange}
    (h : Sound R (upcoming (R.schedule completed)) changes) :
    Accepted R.db R.actor R.room changes := by
  constructor
  case valid =>
    intro c hc
    obtain ⟨item, hitem, hslot⟩ := h.named c hc
    exact valid_of_mem_itemSlots (mem_upcoming.mp hitem).1 hslot (h.active c hc)
  case oneTeam =>
    intro s t id hmatch hs ht
    -- a member who has left is named by stored rows only
    have hleft : ∀ u, id ∉ R.activeIds → holderAfter R.db R.room.roomKey changes u = some id →
        holder R.db R.room.roomKey u = some id := by
      intro u hout hu
      rw [holderAfter] at hu
      cases hlast : lastChange changes u with
      | none =>
          rw [hlast] at hu
          exact hu
      | some c =>
          rw [hlast] at hu
          exact absurd (h.active c (lastChange_slot hlast).1 id hu) hout
    by_cases hin : id ∈ R.activeIds
    · by_cases hitem : ∃ item ∈ upcoming (R.schedule completed), item.matchKey = s.matchKey
      · obtain ⟨item, hitem, hkey⟩ := hitem
        obtain ⟨hsched, hcompleted⟩ := mem_upcoming.mp hitem
        -- in an upcoming match a held slot is in the lineup: it was planned, or is not stale
        have hplays : ∀ u : SlotRef, item.matchKey = u.matchKey →
            holderAfter R.db R.room.roomKey changes u = some id → u ∈ itemSlots item := by
          intro u hu hheld
          refine (mem_itemSlots hsched).mpr ⟨hu.symm, ?_⟩
          by_cases hnamed : ∀ c ∈ changes, c.slot ≠ u
          · rw [holderAfter_of_unnamed hnamed] at hheld
            obtain ⟨row, hrow, hroom, rfl⟩ := stored_of_holder hheld
            exact hstale row hrow hroom item hsched hcompleted hu
          · push Not at hnamed
            obtain ⟨c, hc, rfl⟩ := hnamed
            obtain ⟨m, hm, hslot⟩ := h.named c hc
            exact ((mem_itemSlots (mem_upcoming.mp hm).1).mp hslot).2
        exact h.distinct item hitem s (hplays s hkey hs) t (hplays t (hkey.trans hmatch) ht) id
          (workingAfter_eq_some.mpr ⟨hs, hin⟩) (workingAfter_eq_some.mpr ⟨ht, hin⟩)
      · have hunnamed : ∀ u : SlotRef, u.matchKey = s.matchKey → ∀ c ∈ changes, c.slot ≠ u := by
          rintro u hu c hc rfl
          obtain ⟨m, hm, hslot⟩ := h.named c hc
          have hkey := ((mem_itemSlots (mem_upcoming.mp hm).1).mp hslot).1
          exact hitem ⟨m, hm, hkey.symm.trans hu⟩
        rw [holderAfter_of_unnamed (hunnamed s rfl)] at hs
        rw [holderAfter_of_unnamed (hunnamed t hmatch.symm)] at ht
        exact R.oneTeam s t id hmatch hs ht
    · exact R.oneTeam s t id hmatch (hleft s hin hs) (hleft t hin ht)

/-! ### Clearing -/

theorem mem_clearUpcomingChanges {c : TeamAssignmentChange} :
    c ∈ clearUpcomingChanges (R.schedule completed) (R.snapshot server).assignments ↔
      ∃ row ∈ roomAssignments R.db R.room,
        (∃ item ∈ R.schedule completed, item.isCompleted = false ∧
          item.matchKey = row.matchKey) ∧ ⟨row.matchKey, row.teamKey, none⟩ = c := by
  have hkey : ∀ row ∈ roomAssignments R.db R.room, ∀ item ∈ R.schedule completed,
      lower item.matchKey = lower row.matchKey ↔ item.matchKey = row.matchKey := by
    intro row hrow item hitem
    obtain ⟨⟨m, hm, hmatch, -⟩, -, -⟩ := mem_schedule hitem
    have hlower : lower row.matchKey = row.matchKey := lower_matchKey (isSlot_of_mem hrow).matchKey
    rw [hlower, ← hmatch, lower_matchKey (R.matchKeys m hm)]
  simp only [clearUpcomingChanges, snapshot, teamSnapshot, List.mem_map, List.mem_filter,
    decide_eq_true_eq, Bool.not_eq_true']
  constructor
  · rintro ⟨_, ⟨⟨row, hrow, rfl⟩, item, ⟨hitem, hopen⟩, hlower⟩, rfl⟩
    exact ⟨row, hrow, ⟨item, hitem, hopen, (hkey row hrow item hitem).mp hlower⟩, rfl⟩
  · rintro ⟨row, hrow, ⟨item, hitem, hopen, hmatch⟩, rfl⟩
    exact ⟨_, ⟨⟨row, hrow, rfl⟩, item, ⟨hitem, hopen⟩, (hkey row hrow item hitem).mpr hmatch⟩, rfl⟩

theorem nodup_clearUpcomingChanges :
    ((clearUpcomingChanges (R.schedule completed) (R.snapshot server).assignments).map
      (·.slot)).Nodup := by
  rw [clearUpcomingChanges, List.map_map]
  have hrows : ((R.snapshot server).assignments.map fun row =>
      (⟨row.matchKey, row.teamKey⟩ : SlotRef)).Nodup := by
    rw [snapshot, teamSnapshot, List.map_map]
    exact nodup_roomAssignments R.db R.room
  exact (List.filter_sublist.map _).nodup hrows

theorem accepted_clear_iff :
    Accepted R.db R.actor R.room
        (clearUpcomingChanges (R.schedule completed) (R.snapshot server).assignments) ↔
      R.NoStale completed := by
  constructor
  · intro h row hrow hroom item hitem hopen hmatch
    have hin : ⟨row.matchKey, row.teamKey, none⟩ ∈
        clearUpcomingChanges (R.schedule completed) (R.snapshot server).assignments :=
      mem_clearUpcomingChanges.mpr ⟨row, mem_roomAssignments.mpr ⟨hrow, hroom⟩,
        ⟨item, hitem, hopen, hmatch⟩, rfl⟩
    exact (h.valid _ hin).inMatch
  · intro h
    have hclears : ∀ c ∈ clearUpcomingChanges (R.schedule completed)
        (R.snapshot server).assignments, c.assignedMemberId = none := by
      intro c hc
      obtain ⟨row, -, -, rfl⟩ := mem_clearUpcomingChanges.mp hc
      rfl
    constructor
    case valid =>
      intro c hc
      have hnone := hclears c hc
      obtain ⟨row, hrow, ⟨item, hitem, hopen, hmatch⟩, rfl⟩ := mem_clearUpcomingChanges.mp hc
      have hstored := mem_roomAssignments.mp hrow
      have hlineup := h row hstored.1 hstored.2 item hitem hopen hmatch
      have hslot : row.slot ∈ itemSlots item := (mem_itemSlots hitem).mpr ⟨hmatch.symm, hlineup⟩
      apply valid_of_mem_itemSlots (c := ⟨row.matchKey, row.teamKey, none⟩) hitem hslot
      intro id hid
      rw [hnone] at hid
      cases hid
    case oneTeam =>
      have hstays : ∀ u id, holderAfter R.db R.room.roomKey (clearUpcomingChanges
          (R.schedule completed) (R.snapshot server).assignments) u = some id →
            holder R.db R.room.roomKey u = some id := by
        intro u id hu
        rw [holderAfter] at hu
        cases hlast : lastChange (clearUpcomingChanges (R.schedule completed)
            (R.snapshot server).assignments) u with
        | none =>
            rw [hlast] at hu
            exact hu
        | some c =>
            rw [hlast] at hu
            have hnone : c.assignedMemberId = some id := hu
            rw [hclears c (lastChange_slot hlast).1] at hnone
            cases hnone
      intro s t id hmatch hs ht
      exact R.oneTeam s t id hmatch (hstays s id hs) (hstays t id ht)

/-- Both kinds of plan are applied in full, for every choice of scouts, exactly when no stored
row of an upcoming match is stale. -/
theorem plans_applied_iff (R : EventRoom) (server : Server) (completed : String → Bool)
    (now : Nat) :
    ((∀ skipped mode, R.Applied server now (planAutoAssign (R.schedule completed)
        (R.snapshot server).assignments (autoMembers (R.snapshot server) skipped) mode)) ∧
      R.Applied server now
        (clearUpcomingChanges (R.schedule completed) (R.snapshot server).assignments)) ↔
      R.NoStale completed := by
  rw [applied_iff nodup_clearUpcomingChanges, accepted_clear_iff]
  constructor
  · exact fun h => h.2
  · intro hstale
    refine ⟨fun skipped mode => ?_, hstale⟩
    have hsound : Sound R (upcoming (R.schedule completed)) (planAutoAssign (R.schedule completed)
        (R.snapshot server).assignments (autoMembers (R.snapshot server) skipped) mode) :=
      sound_planAutoAssign fun id hid => autoMembers_active hid
    exact (applied_iff hsound.once).mpr (accepted_of_sound hstale hsound)

end EventRoom

/-! ### A stale row -/

/-- The batch is refused. -/
def refused (R : EventRoom) (changes : List TeamAssignmentChange) : Bool :=
  match (perform (applyAssignmentChanges asciiServer R.actor R.room changes 2) R.db).2 with
  | .ok _ => false
  | .error _ => true

theorem not_applied_of_refused {R : EventRoom} {changes : List TeamAssignmentChange}
    (h : refused R changes = true) : ¬ R.Applied asciiServer 2 changes := by
  rintro ⟨db', hrun, -⟩
  rw [refused, hrun] at h
  cases h

def staleMember : TeamWorkspaceMember where
  id := 1
  workspaceId := 1
  memberKey := "a"
  displayName := "Ada"
  role := .leader

/-- Ada was to scout frc9, which a substitution has since taken out of the match. -/
def staleRow : ScoutingRoomAssignment where
  roomKey := "room-1"
  eventKey := some "2026txa"
  matchKey := "2026txa_qm1"
  teamKey := "frc9"
  assignedMemberId := some 1
  assignedScoutProfile := "Ada"
  assignedScoutProfileNorm := "ada"
  assignedByScoutProfile := some "Ada"
  assignedByScoutProfileNorm := some "ada"
  updatedAt := 1

def staleRoom : EventRoom where
  db :=
    { workspaces := { members := [staleMember] }
      eventMatches := ⟨[⟨"2026txa_qm1", "2026txa", "qm", 1, 1⟩], by decide⟩
      matchTeams := ⟨[⟨"2026txa_qm1", "frc118", "2026txa", .red, some "r1"⟩], by decide⟩
      assignments := ⟨[staleRow], by decide⟩
      activity := Table.empty }
  actor := staleMember
  room := ⟨"room-1", 1, some "2026txa", some "2026txa", none, none⟩
  eventKey := "2026txa"
  roomEvent := rfl
  matchKeys := by
    intro m hm
    rw [List.mem_singleton.mp hm]
    decide +kernel
  lineupKeys := by
    intro row hrow
    rw [List.mem_singleton.mp hrow]
    decide +kernel
  lineupEvents := by
    intro row hrow m hm _
    rw [List.mem_singleton.mp hrow, List.mem_singleton.mp hm]
  assignedSlots := by
    intro row hrow _
    rw [List.mem_singleton.mp hrow]
    constructor <;> decide +kernel
  oneTeam := by
    intro s t id _ hs ht
    obtain ⟨row, hrow, -, rfl⟩ := stored_of_holder hs
    obtain ⟨row', hrow', -, rfl⟩ := stored_of_holder ht
    rw [List.mem_singleton.mp hrow, List.mem_singleton.mp hrow']

/-- Clearing names the stale slot, and filling books Ada for frc118 as well. -/
theorem plans_refused_staleRoom :
    (¬ staleRoom.Applied asciiServer 2 (clearUpcomingChanges (staleRoom.schedule fun _ => false)
        (staleRoom.snapshot asciiServer).assignments)) ∧
      ¬ staleRoom.Applied asciiServer 2 (planAutoAssign (staleRoom.schedule fun _ => false)
        (staleRoom.snapshot asciiServer).assignments
        (autoMembers (staleRoom.snapshot asciiServer) []) .fill) := by
  refine ⟨not_applied_of_refused ?_, not_applied_of_refused ?_⟩
  · decide +kernel
  · decide +kernel

end Frcmob.Assignments
