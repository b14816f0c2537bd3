import Frcmob.Assignments.Accepted
import Mathlib.Data.List.Flatten

/-!
The automatic plan is fair. A match's slots go to the least loaded scouts who are free, one slot
each, so the loads that differ by one match at most before a match do so after it.
-/

namespace Frcmob.Assignments
open EventRoom Sessions Request Transition Workspaces

/-- Who is to scout the slot once the plan is applied to the rows that it was made from. -/
def heldAfter (index : AssignmentIndex) (changes : List TeamAssignmentChange) (slot : SlotRef) :
    Option Nat :=
  ((lastChange changes slot).map (·.assignedMemberId)).getD (currentOf (index.row slot))

/-- How many of the slots the scout holds. -/
def loadAfter (index : AssignmentIndex) (changes : List TeamAssignmentChange)
    (slots : List MatchSlot) (id : Nat) : Nat :=
  slots.countP fun slot => heldAfter index changes slot.toSlotRef = some id

theorem heldAfter_concat_self {index : AssignmentIndex} {changes : List TeamAssignmentChange}
    {change : TeamAssignmentChange} :
    heldAfter index (changes ++ [change]) change.slot = change.assignedMemberId := by
  rw [heldAfter, lastChange_concat, if_pos rfl]
  rfl

theorem heldAfter_concat_of_ne {index : AssignmentIndex} {changes : List TeamAssignmentChange}
    {change : TeamAssignmentChange} {slot : SlotRef} (h : slot ≠ change.slot) :
    heldAfter index (changes ++ [change]) slot = heldAfter index changes slot := by
  rw [heldAfter, lastChange_concat, if_neg (Ne.symm h), heldAfter]

theorem load_le_of_comesFirst {members : List Nat} {work : Workload} {id pick : Nat}
    (h : comesFirst members work id pick) : work.load id ≤ work.load pick := by
  unfold comesFirst at h
  dsimp only at h
  split at h
  · omega
  · omega

theorem load_le_of_not_comesFirst {members : List Nat} {work : Workload} {id pick : Nat}
    (h : ¬ comesFirst members work id pick) : work.load pick ≤ work.load id := by
  unfold comesFirst at h
  dsimp only at h
  split at h
  · omega
  · omega

/-- Who is picked has no higher load than any free scout; there is one, if a scout is free. -/
theorem pickScout_least {members busy : List Nat} {work : Workload} :
    ∀ free ∈ members, free ∉ busy →
      ∃ id, pickScout members busy work = some id ∧ work.load id ≤ work.load free := by
  refine @foldl_rounds _ _ _
    (fun before pick => ∀ free ∈ before, free ∉ busy →
      ∃ id, pick = some id ∧ work.load id ≤ work.load free)
    members none (fun free h => absurd h List.not_mem_nil) ?_
  intro before a after pick _ hinv free hfree hidle
  rcases List.mem_append.mp hfree with hbefore | hlast
  · obtain ⟨id, rfl, hle⟩ := hinv free hbefore hidle
    split
    · exact ⟨id, rfl, hle⟩
    · dsimp only
      split
      · rename_i hfirst
        exact ⟨a, rfl, (load_le_of_comesFirst hfirst).trans hle⟩
      · exact ⟨id, rfl, hle⟩
  · obtain rfl := List.mem_singleton.mp hlast
    rw [if_neg hidle]
    cases pick with
    | none => exact ⟨free, rfl, le_rfl⟩
    | some id =>
        dsimp only
        split
        · exact ⟨free, rfl, le_rfl⟩
        · rename_i hfirst
          exact ⟨id, rfl, load_le_of_not_comesFirst hfirst⟩

variable {index : AssignmentIndex} {members : List Nat}

/-! ### One slot -/

section Slot
variable {slot : MatchSlot} {st : PlanState} {k : Nat}

theorem planSlot_redo_busy :
    (planSlot .redo members index k st slot).busy =
      (pickScout members st.busy st.work).toList ++ st.busy := by
  simp only [planSlot, keep, Option.isSome_none, Bool.false_eq_true, if_false]
  cases pickScout members st.busy st.work with
  | none => rfl
  | some id => rfl

theorem planSlot_redo_load (id : Nat) :
    (planSlot .redo members index k st slot).work.load id =
      st.work.load id + if pickScout members st.busy st.work = some id then 1 else 0 := by
  simp only [planSlot, keep, Option.isSome_none, Bool.false_eq_true, if_false]
  cases pickScout members st.busy st.work with
  | none => simp
  | some pick => by_cases h : id = pick <;> simp [Workload.add, h, Ne.symm]

theorem planSlot_redo_changes :
    (planSlot .redo members index k st slot).changes =
      if currentOf (index.row slot.toSlotRef) = pickScout members st.busy st.work then st.changes
      else st.changes ++
        [⟨slot.matchKey, slot.teamKey, pickScout members st.busy st.work⟩] := by
  simp only [planSlot, keep, Option.isSome_none, Bool.false_eq_true, if_false]
  cases pickScout members st.busy st.work with
  | none => by_cases h : currentOf (index.row slot.toSlotRef) = none <;> simp [h]
  | some id => by_cases h : currentOf (index.row slot.toSlotRef) = some id <;> simp [h]

/-- Whether or not it takes a change, the slot ends with the scout picked. -/
theorem heldAfter_planSlot_self (h : ∀ c ∈ st.changes, c.slot ≠ slot.toSlotRef) :
    heldAfter index (planSlot .redo members index k st slot).changes slot.toSlotRef =
      pickScout members st.busy st.work := by
  rw [planSlot_redo_changes]
  split
  · rename_i hcurrent
    rw [heldAfter, lastChange_eq_none.mpr h, ← hcurrent]
    rfl
  · apply heldAfter_concat_self

theorem heldAfter_planSlot_of_ne {s : SlotRef} (h : s ≠ slot.toSlotRef) :
    heldAfter index (planSlot .redo members index k st slot).changes s =
      heldAfter index st.changes s := by
  rw [planSlot_redo_changes]
  split
  · rfl
  · exact heldAfter_concat_of_ne h

end Slot

/-! ### One match -/

/-- What holds once the slots `before` of a match have been visited; `earlier` are the changes of
the matches before it and `start` is the load they left. -/
structure Shared (index : AssignmentIndex) (members : List Nat) (start : Nat → Int)
    (earlier : List TeamAssignmentChange) (before : List MatchSlot) (st : PlanState) : Prop where
  named : ∀ c ∈ st.changes, c ∈ earlier ∨ c.slot ∈ before.map (·.toSlotRef)
  others : ∀ s : SlotRef, s ∉ before.map (·.toSlotRef) →
    heldAfter index st.changes s = heldAfter index earlier s
  busy : ∀ id, id ∈ st.busy ↔
    ∃ s ∈ before, heldAfter index st.changes s.toSlotRef = some id
  ofMembers : ∀ id ∈ st.busy, id ∈ members
  distinct : ∀ s ∈ before, ∀ t ∈ before, ∀ id,
    heldAfter index st.changes s.toSlotRef = some id →
    heldAfter index st.changes t.toSlotRef = some id → s.toSlotRef = t.toSlotRef
  full : ∀ s ∈ before, heldAfter index st.changes s.toSlotRef = none →
    ∀ id ∈ members, id ∈ st.busy
  count : ∀ id, loadAfter index st.changes before id = if id ∈ st.busy then 1 else 0
  load : ∀ id, st.work.load id = start id + if id ∈ st.busy then 1 else 0
  /-- Whoever has a slot had no higher load than those who have none yet. -/
  least : ∀ id ∈ st.busy, ∀ free ∈ members, free ∉ st.busy → start id ≤ start free

theorem shared_planSlot {start : Nat → Int} {earlier : List TeamAssignmentChange}
    {before : List MatchSlot} {slot : MatchSlot} {st : PlanState} {k : Nat}
    (hnew : slot.toSlotRef ∉ before.map (·.toSlotRef))
    (hearlier : ∀ c ∈ earlier, c.slot ≠ slot.toSlotRef)
    (h : Shared index members start earlier before st) :
    Shared index members start earlier (before ++ [slot])
      (planSlot .redo members index k st slot) := by
  have hunnamed : ∀ c ∈ st.changes, c.slot ≠ slot.toSlotRef := by
    intro c hc heq
    rcases h.named c hc with hin | hin
    · exact hearlier c hin heq
    · exact hnew (heq ▸ hin)
  have hself : heldAfter index (planSlot .redo members index k st slot).changes slot.toSlotRef =
      pickScout members st.busy st.work := heldAfter_planSlot_self hunnamed
  have hold : ∀ s ∈ before,
      heldAfter index (planSlot .redo members index k st slot).changes s.toSlotRef =
        heldAfter index st.changes s.toSlotRef := fun s hs =>
    heldAfter_planSlot_of_ne fun heq => hnew (heq ▸ List.mem_map_of_mem hs)
  have hbusy : ∀ id, id ∈ (planSlot .redo members index k st slot).busy ↔
      pickScout members st.busy st.work = some id ∨ id ∈ st.busy := by
    intro id
    rw [planSlot_redo_busy, List.mem_append, Option.mem_toList]
  have hpick : ∀ id, pickScout members st.busy st.work = some id → id ∈ members ∧ id ∉ st.busy :=
    fun id hid => pickScout_free hid
  have hmem : ∀ s : MatchSlot, s ∈ before ++ [slot] ↔ s ∈ before ∨ s = slot := fun s => by
    rw [List.mem_append, List.mem_singleton]
  refine ⟨?_, ?_, ?_, ?_, ?_, ?_, ?_, ?_, ?_⟩
  · intro c hc
    rw [planSlot_redo_changes] at hc
    rw [List.map_append, List.mem_append]
    split at hc
    · exact (h.named c hc).imp_right .inl
    · rcases List.mem_append.mp hc with hc | hc
      · exact (h.named c hc).imp_right .inl
      · obtain rfl := List.mem_singleton.mp hc
        exact .inr (.inr (List.mem_singleton.mpr rfl))
  · intro s hs
    rw [List.map_append, List.mem_append, not_or] at hs
    rw [heldAfter_planSlot_of_ne fun heq => hs.2 (List.mem_singleton.mpr heq)]
    exact h.others s hs.1
  · intro id
    rw [hbusy, h.busy]
    constructor
    · rintro (hid | ⟨s, hs, hid⟩)
      · exact ⟨slot, (hmem slot).mpr (.inr rfl), hself.trans hid⟩
      · exact ⟨s, (hmem s).mpr (.inl hs), (hold s hs).trans hid⟩
    · rintro ⟨s, hs, hid⟩
      rcases (hmem s).mp hs with hs | rfl
      · exact .inr ⟨s, hs, (hold s hs).symm.trans hid⟩
      · exact .inl (hself.symm.trans hid)
  · intro id hid
    rcases (hbusy id).mp hid with hid | hid
    · exact (hpick id hid).1
    · exact h.ofMembers id hid
  -- A scout who is picked was free, so holds none of the slots before.
  · have hapart : ∀ s ∈ before, ∀ id, heldAfter index st.changes s.toSlotRef = some id →
        pickScout members st.busy st.work ≠ some id := fun s hs id hid hpicked =>
      (hpick id hpicked).2 ((h.busy id).mpr ⟨s, hs, hid⟩)
    intro s hs t ht id hsid htid
    rcases (hmem s).mp hs with hsin | rfl <;> rcases (hmem t).mp ht with htin | rfl
    · exact h.distinct s hsin t htin id ((hold s hsin).symm.trans hsid)
        ((hold t htin).symm.trans htid)
    · exact absurd (hself.symm.trans htid) (hapart s hsin id ((hold s hsin).symm.trans hsid))
    · exact absurd (hself.symm.trans hsid) (hapart t htin id ((hold t htin).symm.trans htid))
    · rfl
  · intro s hs hnone id hid
    rw [hbusy]
    rcases (hmem s).mp hs with hs | rfl
    · exact .inr (h.full s hs ((hold s hs).symm.trans hnone) id hid)
    · by_contra hfree
      rw [not_or] at hfree
      obtain ⟨pick, hpicked, -⟩ := pickScout_least id hid hfree.2
      exact absurd (hself.symm.trans hnone) (hpicked ▸ Option.some_ne_none pick)
  · intro id
    have hcount : loadAfter index (planSlot .redo members index k st slot).changes before id =
        loadAfter index st.changes before id :=
      List.countP_congr fun s hs => by rw [hold s hs]
    rw [loadAfter, List.countP_append, ← loadAfter, hcount, h.count, List.countP_singleton, hself]
    simp only [hbusy, decide_eq_true_eq]
    by_cases hpicked : pickScout members st.busy st.work = some id
    · simp [hpicked, (hpick id hpicked).2]
    · simp [hpicked]
  · intro id
    rw [planSlot_redo_load, h.load]
    simp only [hbusy]
    by_cases hpicked : pickScout members st.busy st.work = some id
    · simp [hpicked, (hpick id hpicked).2]
    · simp [hpicked]
  · intro id hid free hfree hidle
    rw [hbusy, not_or] at hidle
    rcases (hbusy id).mp hid with hid | hid
    · obtain ⟨pick, hpicked, hle⟩ := pickScout_least free hfree hidle.2
      obtain rfl := Option.some.inj (hid.symm.trans hpicked)
      rw [h.load, h.load, if_neg (hpick id hid).2, if_neg hidle.2] at hle
      omega
    · exact h.least id hid free hfree hidle.2

/-- Before the first slot of a match nobody is busy. -/
theorem shared_start (st : PlanState) (h : st.busy = []) :
    Shared index members st.work.load st.changes [] st where
  named c hc := .inl hc
  others s _ := rfl
  busy id := by simp [h]
  ofMembers id hid := absurd hid (h ▸ List.not_mem_nil)
  distinct s hs := absurd hs List.not_mem_nil
  full s hs := absurd hs List.not_mem_nil
  count id := by simp [h, loadAfter]
  load id := by simp [h]
  least id hid := absurd hid (h ▸ List.not_mem_nil)

theorem shared_planMatch {st : PlanState} {m : EventScheduleItem × Nat}
    (hslots : ((matchSlots m.1).map (·.toSlotRef)).Nodup)
    (hearlier : ∀ c ∈ st.changes, c.slot ∉ (matchSlots m.1).map (·.toSlotRef)) :
    Shared index members st.work.load st.changes (matchSlots m.1)
      (planMatch .redo members index st m) := by
  have hbusy : ((matchSlots m.1).filterMap fun slot =>
      keep .redo (index.row slot.toSlotRef)) = [] := by
    simp [keep]
  unfold planMatch
  dsimp only
  rw [hbusy]
  refine @foldl_rounds _ _ _ (fun before st' =>
    Shared index members st.work.load st.changes before st') _ _
    (shared_start { st with busy := [] } rfl) ?_
  intro before slot after st' heq h
  have hsplit : (matchSlots m.1).map (·.toSlotRef) =
      before.map (·.toSlotRef) ++ slot.toSlotRef :: after.map (·.toSlotRef) := by
    rw [heq, List.map_append, List.map_cons]
  rw [hsplit] at hslots hearlier
  refine shared_planSlot (fun hin => ?_) (fun c hc hcslot => ?_) h
  · exact (List.nodup_append.mp hslots).2.2 _ hin _ List.mem_cons_self rfl
  · exact hearlier c hc (hcslot ▸ List.mem_append_right _ List.mem_cons_self)

/-- Where the loads differed by one at most, they still do. -/
theorem Shared.balanced {start : Nat → Int} {earlier : List TeamAssignmentChange}
    {before : List MatchSlot} {st : PlanState} (h : Shared index members start earlier before st)
    (hstart : ∀ i ∈ members, ∀ j ∈ members, start i ≤ start j + 1) :
    ∀ i ∈ members, ∀ j ∈ members, st.work.load i ≤ st.work.load j + 1 := by
  intro i hi j hj
  have hle := hstart i hi j hj
  rw [h.load, h.load]
  by_cases hibusy : i ∈ st.busy
  · by_cases hjbusy : j ∈ st.busy
    · rw [if_pos hibusy, if_pos hjbusy]
      omega
    · have hleast := h.least i hibusy j hj hjbusy
      rw [if_pos hibusy, if_neg hjbusy]
      omega
  · rw [if_neg hibusy]
    split
    · omega
    · omega

/-! ### All matches -/

def slotsOf (matches' : List (EventScheduleItem × Nat)) : List MatchSlot :=
  matches'.flatMap fun m => matchSlots m.1

/-- What holds once the matches `done` have been planned. -/
structure Fair (index : AssignmentIndex) (members : List Nat)
    (done : List (EventScheduleItem × Nat)) (st : PlanState) : Prop where
  named : ∀ c ∈ st.changes, c.slot ∈ (slotsOf done).map (·.toSlotRef)
  load : ∀ id, st.work.load id = loadAfter index st.changes (slotsOf done) id
  balanced : ∀ i ∈ members, ∀ j ∈ members, st.work.load i ≤ st.work.load j + 1
  oneTeam : ∀ m ∈ done, ∀ s ∈ matchSlots m.1, ∀ t ∈ matchSlots m.1, ∀ id,
    heldAfter index st.changes s.toSlotRef = some id →
    heldAfter index st.changes t.toSlotRef = some id → s.toSlotRef = t.toSlotRef
  full : ∀ m ∈ done, ∀ s ∈ matchSlots m.1, heldAfter index st.changes s.toSlotRef = none →
    ∀ id ∈ members, ∃ t ∈ matchSlots m.1, heldAfter index st.changes t.toSlotRef = some id

theorem fair_planMatch {done : List (EventScheduleItem × Nat)} {m : EventScheduleItem × Nat}
    {st : PlanState} (hslots : ((slotsOf (done ++ [m])).map (·.toSlotRef)).Nodup)
    (h : Fair index members done st) :
    Fair index members (done ++ [m]) (planMatch .redo members index st m) := by
  have hsplit : slotsOf (done ++ [m]) = slotsOf done ++ matchSlots m.1 := by
    simp [slotsOf]
  rw [hsplit, List.map_append, List.nodup_append] at hslots
  obtain ⟨-, hhere, hapart⟩ := hslots
  have hshared : Shared index members st.work.load st.changes (matchSlots m.1)
      (planMatch .redo members index st m) :=
    shared_planMatch hhere fun c hc hin => hapart _ (h.named c hc) _ hin rfl
  have hold : ∀ s ∈ slotsOf done,
      heldAfter index (planMatch .redo members index st m).changes s.toSlotRef =
        heldAfter index st.changes s.toSlotRef := fun s hs =>
    hshared.others _ fun hin => hapart _ (List.mem_map_of_mem hs) _ hin rfl
  have hinDone : ∀ m' ∈ done, ∀ s ∈ matchSlots m'.1, s ∈ slotsOf done :=
    fun m' hm' s hs => List.mem_flatMap.mpr ⟨m', hm', hs⟩
  refine ⟨?_, ?_, hshared.balanced h.balanced, ?_, ?_⟩
  · intro c hc
    rw [hsplit, List.map_append, List.mem_append]
    exact (hshared.named c hc).imp_left (h.named c)
  · intro id
    have hcount : loadAfter index (planMatch .redo members index st m).changes (slotsOf done) id =
        loadAfter index st.changes (slotsOf done) id :=
      List.countP_congr fun s hs => by rw [hold s hs]
    rw [hshared.load, hsplit, loadAfter, List.countP_append, ← loadAfter, ← loadAfter, hcount,
      hshared.count, h.load]
    split <;> push_cast <;> rfl
  · intro m' hm' s hs t ht id hsid htid
    rcases List.mem_append.mp hm' with hm' | hm'
    · exact h.oneTeam m' hm' s hs t ht id ((hold s (hinDone m' hm' s hs)).symm.trans hsid)
        ((hold t (hinDone m' hm' t ht)).symm.trans htid)
    · obtain rfl := List.mem_singleton.mp hm'
      exact hshared.distinct s hs t ht id hsid htid
  · intro m' hm' s hs hnone id hid
    rcases List.mem_append.mp hm' with hm' | hm'
    · obtain ⟨t, ht, htid⟩ :=
        h.full m' hm' s hs ((hold s (hinDone m' hm' s hs)).symm.trans hnone) id hid
      exact ⟨t, ht, (hold t (hinDone m' hm' t ht)).trans htid⟩
    · obtain rfl := List.mem_singleton.mp hm'
      exact (hshared.busy id).mp (hshared.full s hs hnone id hid)

theorem fair_planMatches (index : AssignmentIndex) (members : List Nat)
    {ms : List (EventScheduleItem × Nat)} (hslots : ((slotsOf ms).map (·.toSlotRef)).Nodup) :
    Fair index members ms
      (ms.foldl (planMatch .redo members index) ⟨[], ⟨fun _ => 0, fun _ => -1⟩, []⟩) := by
  refine @foldl_rounds _ _ _ (fun done st => Fair index members done st) ms _ ?_ ?_
  · refine ⟨fun c hc => absurd hc List.not_mem_nil, fun id => rfl, fun i _ j _ => ?_,
      fun m hm => absurd hm List.not_mem_nil, fun m hm => absurd hm List.not_mem_nil⟩
    exact Int.le_add_one le_rfl
  · intro done m rest st heq h
    have hsplit : slotsOf ms = slotsOf (done ++ [m]) ++ slotsOf rest := by
      simp [slotsOf, heq]
    refine fair_planMatch (hslots.sublist (List.Sublist.map _ ?_)) h
    rw [hsplit]
    exact List.sublist_append_left ..

/-! ### Filling -/

theorem mem_planSlot_fill {slot : MatchSlot} {st : PlanState} {k : Nat} {c : TeamAssignmentChange}
    (h : c ∈ (planSlot .fill members index k st slot).changes) :
    c ∈ st.changes ∨ (currentOf (index.row slot.toSlotRef) = none ∧ c.slot = slot.toSlotRef) := by
  cases hrow : currentOf (index.row slot.toSlotRef) with
  | some id =>
      simp only [planSlot, keep, hrow, Option.isSome_some, if_true] at h
      exact .inl h
  | none =>
      simp only [planSlot, keep, hrow, Option.isSome_none, Bool.false_eq_true, if_false] at h
      cases hpick : pickScout members st.busy st.work with
      | none => exact .inl (by simpa [hpick] using h)
      | some id =>
          have hin : c ∈ st.changes ∨ c = ⟨slot.matchKey, slot.teamKey, some id⟩ := by
            simpa [hpick] using h
          exact hin.imp_right fun heq : c = _ => ⟨rfl, heq ▸ rfl⟩

/-- Filling changes no slot that an active member holds. -/
theorem fill_changes (schedule : List EventScheduleItem) (assignments : List TeamRoomAssignment)
    (memberIds : List Nat) :
    ∀ c ∈ planAutoAssign schedule assignments memberIds .fill,
      currentOf ((assignmentIndex assignments).row c.slot) = none := by
  have hslot : ∀ k st (slot : MatchSlot),
      (∀ c ∈ st.changes, currentOf ((assignmentIndex assignments).row c.slot) = none) →
      ∀ c ∈ (planSlot .fill memberIds.eraseDups (assignmentIndex assignments) k st slot).changes,
        currentOf ((assignmentIndex assignments).row c.slot) = none := by
    intro k st slot h c hc
    rcases mem_planSlot_fill hc with hin | ⟨hnone, heq⟩
    · exact h c hin
    · rw [heq, hnone]
  refine @foldl_keeps _ _ _ (fun st : PlanState => ∀ c ∈ st.changes,
    currentOf ((assignmentIndex assignments).row c.slot) = none) (fun st m h => ?_) _ _ ?_
  · exact foldl_keeps (fun st slot hst => hslot m.2 st slot hst) _ h
  · exact fun c hc => absurd hc List.not_mem_nil

/-! ### The plan -/

/-- What the scouts hold in the matches is fair: loads differ by one at most, nobody has two
teams of one match, and a slot is empty only where everyone has another one of its match. -/
structure FairShares (held : SlotRef → Option Nat) (ms : List EventScheduleItem)
    (memberIds : List Nat) : Prop where
  balanced : ∀ i ∈ memberIds, ∀ j ∈ memberIds,
    (ms.flatMap itemSlots).countP (held · = some i) ≤
      (ms.flatMap itemSlots).countP (held · = some j) + 1
  oneTeam : ∀ m ∈ ms, ∀ s ∈ itemSlots m, ∀ t ∈ itemSlots m, ∀ id,
    held s = some id → held t = some id → s = t
  full : ∀ m ∈ ms, ∀ s ∈ itemSlots m, held s = none →
    ∀ id ∈ memberIds, ∃ t ∈ itemSlots m, held t = some id

theorem fairShares_redo {schedule : List EventScheduleItem}
    (assignments : List TeamRoomAssignment) (memberIds : List Nat)
    (hslots : (schedule.flatMap itemSlots).Nodup) :
    FairShares
      (heldAfter (assignmentIndex assignments)
        (planAutoAssign schedule assignments memberIds .redo))
      (upcoming schedule) memberIds := by
  have hfst : (upcoming schedule).zipIdx.map Prod.fst = upcoming schedule :=
    List.zipIdx_map_fst 0 _
  have hall : (slotsOf (upcoming schedule).zipIdx).map (·.toSlotRef) =
      (upcoming schedule).flatMap itemSlots := by
    rw [← hfst, List.flatMap_map, hfst, slotsOf, List.map_flatMap]
    rfl
  have hupcoming : ((slotsOf (upcoming schedule).zipIdx).map (·.toSlotRef)).Nodup := by
    rw [hall]
    have hperm : (sortSchedule schedule).Perm schedule := List.perm_insertionSort ..
    have hsorted := (hperm.flatMap_right itemSlots).nodup_iff.mpr hslots
    exact hsorted.sublist (List.filter_sublist.flatMap _)
  have hfair := fair_planMatches (assignmentIndex assignments) memberIds.eraseDups hupcoming
  have hmem : ∀ {id}, id ∈ memberIds → id ∈ memberIds.eraseDups := List.mem_eraseDups.mpr
  have hpair : ∀ m ∈ upcoming schedule, ∃ k, (m, k) ∈ (upcoming schedule).zipIdx := by
    intro m hm
    obtain ⟨⟨m, k⟩, hpair, rfl⟩ := List.mem_map.mp (hfst.symm ▸ hm)
    exact ⟨k, hpair⟩
  refine ⟨fun i hi j hj => ?_, fun m hm s hs t ht id hsid htid => ?_,
    fun m hm s hs hnone id hid => ?_⟩
  · have hle := hfair.balanced i (hmem hi) j (hmem hj)
    rw [hfair.load, hfair.load] at hle
    rw [← hall, List.countP_map, List.countP_map]
    exact_mod_cast hle
  · obtain ⟨k, hk⟩ := hpair m hm
    obtain ⟨s, hslot, rfl⟩ := List.mem_map.mp hs
    obtain ⟨t, htslot, rfl⟩ := List.mem_map.mp ht
    exact hfair.oneTeam _ hk s hslot t htslot id hsid htid
  · obtain ⟨k, hk⟩ := hpair m hm
    obtain ⟨s, hslot, rfl⟩ := List.mem_map.mp hs
    obtain ⟨t, ht, htid⟩ := hfair.full _ hk s hslot hnone id (hmem hid)
    exact ⟨_, List.mem_map_of_mem ht, htid⟩

theorem matchKey_of_mem_itemSlots {m : EventScheduleItem} {s : SlotRef} (h : s ∈ itemSlots m) :
    s.matchKey = m.matchKey := by
  obtain ⟨slot, hslot, rfl⟩ := List.mem_map.mp h
  rcases List.mem_append.mp hslot with hteam | hteam
  · obtain ⟨team, -, rfl⟩ := List.mem_map.mp hteam
    rfl
  · obtain ⟨team, -, rfl⟩ := List.mem_map.mp hteam
    rfl

/-- The slots of a schedule that the server sends are distinct. -/
theorem nodup_scheduleSlots (R : EventRoom) (completed : String → Bool) :
    ((R.schedule completed).flatMap itemSlots).Nodup := by
  refine List.nodup_flatMap.mpr ⟨fun item hitem => nodup_itemSlots hitem, ?_⟩
  have hkeys := List.pairwise_map.mp (@nodup_scheduleKeys R completed)
  refine hkeys.imp fun {a b} hab s hsa hsb => ?_
  exact hab ((matchKey_of_mem_itemSlots hsa).symm.trans (matchKey_of_mem_itemSlots hsb))

/-- Redoing leaves the upcoming matches in fair shares, and filling changes no slot that an active
member holds. -/
theorem planAutoAssign_fair (schedule : List EventScheduleItem)
    (assignments : List TeamRoomAssignment) (memberIds : List Nat) :
    ((schedule.flatMap itemSlots).Nodup →
      FairShares
        (heldAfter (assignmentIndex assignments)
          (planAutoAssign schedule assignments memberIds .redo))
        (upcoming schedule) memberIds) ∧
    ∀ c ∈ planAutoAssign schedule assignments memberIds .fill,
      currentOf ((assignmentIndex assignments).row c.slot) = none :=
  ⟨fairShares_redo assignments memberIds, fill_changes schedule assignments memberIds⟩

def oneMatch : List EventScheduleItem :=
  [⟨"2026txa_qm1", "qm", 1, 1, false, [⟨"frc118", some "red1"⟩], [⟨"frc148", some "blue1"⟩]⟩]

theorem planAutoAssign_fair_oneMatch :
    FairShares (heldAfter (assignmentIndex []) (planAutoAssign oneMatch [] [7, 3, 5] .redo))
      (upcoming oneMatch) [7, 3, 5] :=
  (planAutoAssign_fair oneMatch [] [7, 3, 5]).1 (by decide)

end Frcmob.Assignments
