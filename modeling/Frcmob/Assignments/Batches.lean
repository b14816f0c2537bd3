import Frcmob.Assignments.Team

/-!
What a batch of assignment changes does. It is refused, and writes nothing, unless every change
names a robot of the event's lineups and an active member, and nobody would hold two teams of one
match; otherwise every slot holds the last member that the batch gave it.
-/

namespace Frcmob.Assignments
open Sessions Request Workspaces

/-- Who is to scout the slot, in the room. -/
def holder (db : TeamRoomDb) (roomKey : String) (slot : SlotRef) : Option Nat :=
  (db.assignments.get? (roomKey, slot)).bind (·.assignedMemberId)

/-- No member holds two teams of one match. -/
def OneTeam (held : SlotRef → Option Nat) : Prop :=
  ∀ s t id, s.matchKey = t.matchKey → held s = some id → held t = some id → s = t

def lastChange (changes : List TeamAssignmentChange) (slot : SlotRef) :
    Option TeamAssignmentChange :=
  changes.reverse.find? (·.slot = slot)

/-- Who is to scout the slot after the batch. -/
def holderAfter (db : TeamRoomDb) (roomKey : String) (changes : List TeamAssignmentChange)
    (slot : SlotRef) : Option Nat :=
  ((lastChange changes slot).map (·.assignedMemberId)).getD (holder db roomKey slot)

/-- The change names a robot of the event's lineups, and an active member or nobody. -/
structure Valid (db : TeamRoomDb) (actor : TeamWorkspaceMember) (room : ScoutingRoom)
    (change : TeamAssignmentChange) : Prop where
  inEvent : ∃ m ∈ db.eventMatches, m.matchKey = change.matchKey ∧ some m.eventKey = room.eventKey
  inMatch : ∃ row ∈ db.matchTeams, row.slot = change.slot
  active : ∀ id, change.assignedMemberId = some id →
    ∃ m ∈ activeMembers db.workspaces actor.workspaceId, m.id = id

variable {db : TeamRoomDb} {actor : TeamWorkspaceMember} {room : ScoutingRoom}
  {changes : List TeamAssignmentChange}

/-! ### Reading the tables -/

theorem lastChange_slot {slot : SlotRef} {change : TeamAssignmentChange}
    (h : lastChange changes slot = some change) : change ∈ changes ∧ change.slot = slot := by
  have hmem := List.mem_of_find?_eq_some h
  have hslot := List.find?_some h
  exact ⟨List.mem_reverse.mp hmem, of_decide_eq_true hslot⟩

theorem lastChange_eq_none {slot : SlotRef} :
    lastChange changes slot = none ↔ ∀ change ∈ changes, change.slot ≠ slot := by
  simp [lastChange]

theorem get?_finalChanges (changes : List TeamAssignmentChange) (slot : SlotRef) :
    (finalChanges changes).get? slot = lastChange changes slot := by
  rw [finalChanges, Table.get?_putAll]
  exact Option.or_none

theorem mem_finalChanges {change : TeamAssignmentChange} (h : change ∈ finalChanges changes) :
    change ∈ changes := by
  cases Table.mem_putAll h with
  | inl hempty => exact absurd hempty (Table.notMem_empty _)
  | inr hin => exact hin

theorem mem_roomAssignments {row : ScoutingRoomAssignment} :
    row ∈ roomAssignments db room ↔ row ∈ db.assignments ∧ row.roomKey = room.roomKey := by
  rw [roomAssignments, List.mem_insertionSort, List.mem_filter, decide_eq_true_iff]
  exact Iff.rfl

theorem nodup_roomAssignments (db : TeamRoomDb) (room : ScoutingRoom) :
    ((roomAssignments db room).map (·.slot)).Nodup := by
  have hperm := (List.perm_insertionSort (fun a b : ScoutingRoomAssignment =>
    a.matchKey < b.matchKey ∨ (a.matchKey = b.matchKey ∧ a.teamKey ≤ b.teamKey))
    (db.assignments.rows.filter (·.roomKey = room.roomKey))).map (·.slot)
  apply hperm.nodup_iff.mpr
  rw [List.nodup_map_iff_inj_on ((List.Nodup.of_map _ db.assignments.unique).filter _)]
  intro a ha b hb hab
  rw [List.mem_filter, decide_eq_true_iff] at ha hb
  have hplace : a.place = b.place := Prod.ext (ha.2.trans hb.2.symm) hab
  exact Table.eq_of_key ha.1 hb.1 hplace

theorem stored_of_holder {roomKey : String} {s : SlotRef} {id : Nat}
    (h : holder db roomKey s = some id) :
    ∃ row ∈ db.assignments, row.roomKey = roomKey ∧ row.slot = s := by
  obtain ⟨row, hget, -⟩ := Option.bind_eq_some_iff.mp h
  obtain ⟨hrow, hplace⟩ := Table.get?_eq_some.mp hget
  exact ⟨row, hrow, congrArg Prod.fst hplace, congrArg Prod.snd hplace⟩

/-- `existing` -/
def existingAssignments (db : TeamRoomDb) (room : ScoutingRoom) :
    Table ScoutingRoomAssignment.slot :=
  ⟨roomAssignments db room, nodup_roomAssignments db room⟩

theorem get?_existingAssignments (slot : SlotRef) :
    (existingAssignments db room).get? slot = db.assignments.get? (room.roomKey, slot) := by
  apply Option.ext
  intro row
  rw [Table.get?_eq_some, Table.get?_eq_some]
  constructor
  · rintro ⟨hrow, hslot⟩
    have hin := mem_roomAssignments.mp hrow
    exact ⟨hin.1, Prod.ext hin.2 hslot⟩
  · rintro ⟨hrow, hplace⟩
    exact ⟨mem_roomAssignments.mpr ⟨hrow, congrArg Prod.fst hplace⟩, congrArg Prod.snd hplace⟩

/-- Who the dictionary of planned assignments books for a slot. -/
def bookedFor (planned : Planned) (slot : SlotRef) : Option Nat :=
  (planned.get? slot).bind (·.2)

theorem bookedFor_planChange_self (planned : Planned) (change : TeamAssignmentChange) :
    bookedFor (planChange planned change) change.slot = change.assignedMemberId := by
  cases hid : change.assignedMemberId with
  | none => simp [bookedFor, planChange, hid]
  | some id =>
      have hput := Table.get?_put_self planned (change.slot, some id)
      simp only [bookedFor, planChange, hid, hput, Option.bind_some]

theorem bookedFor_planChange_of_ne {planned : Planned} {change : TeamAssignmentChange}
    {slot : SlotRef} (h : slot ≠ change.slot) :
    bookedFor (planChange planned change) slot = bookedFor planned slot := by
  cases hid : change.assignedMemberId with
  | none => simp only [bookedFor, planChange, hid, Table.get?_erase_of_ne h]
  | some id =>
      have hput := Table.get?_put_of_ne (t := planned) (x := (change.slot, some id)) h
      simp only [bookedFor, planChange, hid, hput]

theorem bookedFor_existing (slot : SlotRef) :
    bookedFor (Table.empty.putAll ((roomAssignments db room).map fun row =>
      (row.slot, row.assignedMemberId))) slot = holder db room.roomKey slot := by
  have hrows : (Table.empty.putAll ((roomAssignments db room).map fun row =>
      (row.slot, row.assignedMemberId)) : Planned).rows =
        (roomAssignments db room).map fun row => (row.slot, row.assignedMemberId) := by
    apply Table.rows_putAll
    rw [show (Table.empty : Planned).rows = [] from rfl, List.nil_append, List.map_map]
    exact nodup_roomAssignments db room
  rw [bookedFor, Table.get?, hrows, List.find?_map, holder, ← get?_existingAssignments]
  change (Option.map _ ((existingAssignments db room).get? slot)).bind _ = _
  cases (existingAssignments db room).get? slot with
  | none => rfl
  | some row => rfl

theorem bookedFor_plannedAssignments (changes : List TeamAssignmentChange) (slot : SlotRef) :
    bookedFor (plannedAssignments (roomAssignments db room) changes) slot =
      holderAfter db room.roomKey changes slot := by
  rw [plannedAssignments, Table.lookup_foldl (finalChanges changes).unique
    (fun planned change _ => bookedFor_planChange_self planned change)
    (fun planned change _ slot h => bookedFor_planChange_of_ne h), bookedFor_existing, holderAfter,
    ← get?_finalChanges]
  rfl

/-! ### The checks -/

theorem mem_batchMatches {matchKey : String} (h : matchKey ∈ changes.map (·.matchKey)) :
    matchKey ∈ batchMatches db room changes ↔
      ∃ m ∈ db.eventMatches, m.matchKey = matchKey ∧ some m.eventKey = room.eventKey := by
  simp only [batchMatches, List.mem_map, List.mem_filter, decide_eq_true_eq]
  constructor
  · rintro ⟨m, ⟨hm, hevent, -⟩, hkey⟩
    exact ⟨m, hm, hkey, hevent⟩
  · rintro ⟨m, hm, rfl, hevent⟩
    exact ⟨m, ⟨hm, hevent, List.mem_map.mp h⟩, rfl⟩

theorem mem_batchSlots {matchKeys : List String} {slot : SlotRef}
    (h : slot.matchKey ∈ matchKeys) :
    slot ∈ batchSlots db matchKeys ↔ ∃ row ∈ db.matchTeams, row.slot = slot := by
  simp only [batchSlots, List.mem_map, List.mem_filter, decide_eq_true_eq]
  constructor
  · rintro ⟨row, ⟨hrow, -⟩, hslot⟩
    exact ⟨row, hrow, hslot⟩
  · rintro ⟨row, hrow, rfl⟩
    exact ⟨row, ⟨hrow, h⟩, rfl⟩

theorem invalidChanges_eq_nil :
    invalidChanges (batchMatches db room changes)
        (batchSlots db (batchMatches db room changes))
        (activeMembers db.workspaces actor.workspaceId) changes = [] ↔
      ∀ change ∈ changes, Valid db actor room change := by
  rw [invalidChanges, List.filterMap_eq_nil_iff]
  apply forall₂_congr
  intro change hin
  have hkey : change.matchKey ∈ changes.map (·.matchKey) := List.mem_map_of_mem hin
  have hmember : ∀ id, id ∈ (activeMembers db.workspaces actor.workspaceId).map (·.id) ↔
      ∃ m ∈ activeMembers db.workspaces actor.workspaceId, m.id = id := fun id => List.mem_map
  have hreasons : changeReasons (batchMatches db room changes)
      (batchSlots db (batchMatches db room changes))
      (activeMembers db.workspaces actor.workspaceId) change = [] ↔
        (change.matchKey ∈ batchMatches db room changes ∧
          change.slot ∈ batchSlots db (batchMatches db room changes)) ∧
        ∀ id, change.assignedMemberId = some id →
          id ∈ (activeMembers db.workspaces actor.workspaceId).map (·.id) := by
    rw [changeReasons, List.append_eq_nil_iff]
    apply and_congr
    · by_cases hmatch : change.matchKey ∈ batchMatches db room changes
      · simp [hmatch]
      · simp [hmatch]
    · cases change.assignedMemberId with
      | none => simp
      | some id => simp
  constructor
  · intro h
    have hnil := hreasons.mp (by simpa using h)
    exact ⟨(mem_batchMatches hkey).mp hnil.1.1, (mem_batchSlots hnil.1.1).mp hnil.1.2,
      fun id hid => (hmember id).mp (hnil.2 id hid)⟩
  · intro h
    have hmatch := (mem_batchMatches hkey).mpr h.inEvent
    have hnil := hreasons.mpr ⟨⟨hmatch, (mem_batchSlots hmatch).mpr h.inMatch⟩,
      fun id hid => (hmember id).mpr (h.active id hid)⟩
    simp [hnil]

theorem conflicts_eq_nil {gs : List ((String × Nat) × List String)} :
    conflicts gs = [] ↔ ∀ g ∈ gs, g.2.length ≤ 1 := by
  rw [conflicts, List.flatMap_eq_nil_iff]
  constructor
  · intro h g hg
    by_contra hlong
    have hnil := h g (List.mem_filter.mpr ⟨hg, by simpa using hlong⟩)
    rw [List.map_eq_nil_iff] at hnil
    simp [hnil] at hlong
  · intro h g hg
    have hshort := h g (List.mem_of_mem_filter hg)
    have hlong := of_decide_eq_true (List.mem_filter.mp hg).2
    omega

theorem mem_booked {planned : Planned} {slot : SlotRef} {id : Nat} :
    (slot, id) ∈ planned.rows.filterMap (fun booked => booked.2.map fun id => (booked.1, id)) ↔
      bookedFor planned slot = some id := by
  rw [bookedFor, List.mem_filterMap]
  constructor
  · rintro ⟨⟨s, member⟩, hin, heq⟩
    cases member with
    | none => cases heq
    | some id' =>
        cases heq
        rw [Table.get?_eq_some.mpr ⟨hin, rfl⟩]
        rfl
  · intro h
    obtain ⟨booked, hget, hid⟩ := Option.bind_eq_some_iff.mp h
    obtain ⟨hin, rfl⟩ := Table.get?_eq_some.mp hget
    exact ⟨booked, hin, by rw [hid]; rfl⟩

theorem eq_of_length_le_one {α : Type*} {xs : List α} (h : xs.length ≤ 1) {a b : α}
    (ha : a ∈ xs) (hb : b ∈ xs) : a = b := by
  cases xs with
  | nil => cases ha
  | cons x xs =>
      have hnil : xs = [] := List.length_eq_zero_iff.mp (by simpa using h)
      subst hnil
      rw [List.mem_singleton.mp ha, List.mem_singleton.mp hb]

theorem length_le_one_of_nodup {α : Type*} {xs : List α} (h : xs.Nodup)
    (heq : ∀ a ∈ xs, ∀ b ∈ xs, a = b) : xs.length ≤ 1 := by
  cases xs with
  | nil => exact Nat.zero_le 1
  | cons x xs =>
      cases xs with
      | nil => exact Nat.le_refl 1
      | cons y xs =>
          have hxy := heq x List.mem_cons_self y (List.mem_cons_of_mem _ List.mem_cons_self)
          exact absurd (hxy ▸ List.mem_cons_self) (List.nodup_cons.mp h).1

theorem nodup_booked (planned : Planned) :
    (planned.rows.filterMap fun booked => booked.2.map fun id => (booked.1, id)).Nodup := by
  apply (List.Nodup.of_map _ planned.unique).filterMap
  intro a b c ha hb
  obtain ⟨id, hid, rfl⟩ := Option.map_eq_some_iff.mp (Option.mem_def.mp ha)
  obtain ⟨id', hid', heq⟩ := Option.map_eq_some_iff.mp (Option.mem_def.mp hb)
  obtain ⟨hslot, rfl⟩ := Prod.ext_iff.mp heq
  exact Prod.ext hslot.symm (hid.trans hid'.symm)

/-- No conflict is found exactly when the planned assignments keep the one-team rule. -/
theorem conflicts_bookings_eq_nil {planned : Planned} :
    conflicts (bookings planned) = [] ↔ OneTeam (bookedFor planned) := by
  rw [conflicts_eq_nil]
  constructor
  · intro h s t id hmatch hs ht
    have hshort := h _ (Grouping.group_of_mem (mem_booked.mpr hs))
    rw [List.length_map] at hshort
    have hst := eq_of_length_le_one hshort
      (List.mem_filter.mpr ⟨mem_booked.mpr hs, by simp⟩)
      (List.mem_filter.mpr ⟨mem_booked.mpr ht, by simp [hmatch]⟩)
    exact congrArg Prod.fst hst
  · intro h g hg
    rw [Grouping.mem_group hg, List.length_map]
    apply length_le_one_of_nodup ((nodup_booked planned).filter _)
    rintro ⟨s, id⟩ hs ⟨t, id'⟩ ht
    have hsg := of_decide_eq_true (List.mem_filter.mp hs).2
    have htg := of_decide_eq_true (List.mem_filter.mp ht).2
    obtain ⟨hmatch, hid⟩ := Prod.ext_iff.mp (hsg.trans htg.symm)
    have hheld := mem_booked.mp (List.mem_filter.mp hs).1
    have hheld' := mem_booked.mp (List.mem_filter.mp ht).1
    have hid' : id = id' := hid
    subst hid'
    exact Prod.ext (h s t id hmatch hheld hheld') rfl

/-! ### The writes -/

section Writes
variable {server : Server} {members : List TeamWorkspaceMember} {now : Nat}

/-- The assignments after the writes of a batch. -/
def written (server : Server) (actor : TeamWorkspaceMember) (room : ScoutingRoom)
    (changes : List TeamAssignmentChange) (now : Nat) (db : TeamRoomDb) : TeamRoomDb :=
  { db with
    assignments := (finalChanges changes).rows.foldl
      (writeChange server actor room (activeMembers db.workspaces actor.workspaceId)
        (roomAssignments db room) now) db.assignments
    activity := db.activity.put (room.roomKey, now) }

/-- What the checks ask of a batch. -/
structure Accepted (db : TeamRoomDb) (actor : TeamWorkspaceMember) (room : ScoutingRoom)
    (changes : List TeamAssignmentChange) : Prop where
  valid : ∀ change ∈ changes, Valid db actor room change
  oneTeam : OneTeam (holderAfter db room.roomKey changes)

/-- A batch that passes both checks is written, and any other is refused and writes nothing. -/
theorem applyAssignmentChanges_outcome (server : Server) (actor : TeamWorkspaceMember)
    (room : ScoutingRoom) (changes : List TeamAssignmentChange) (now : Nat) (db : TeamRoomDb) :
    (Accepted db actor room changes ∧
        perform (applyAssignmentChanges server actor room changes now) db =
          (written server actor room changes now db, .ok .unit)) ∨
      (¬ Accepted db actor room changes ∧
        ∃ refusal, perform (applyAssignmentChanges server actor room changes now) db =
          (db, .error refusal)) := by
  have hbooked : bookedFor (plannedAssignments (roomAssignments db room) changes) =
      holderAfter db room.roomKey changes := by
    funext slot
    exact bookedFor_plannedAssignments changes slot
  have hrun := @perform_of_ensures _ _ _ (applyAssignmentChanges server actor room changes now) db
    fun after result =>
      (Accepted db actor room changes ∧ after = written server actor room changes now db ∧
        result = .ok .unit) ∨
      (¬ Accepted db actor room changes ∧ after = db ∧ ∃ refusal, result = .error refusal)
  simp only [applyAssignmentChanges, ensures_bind, ensures_current, ensures_refuseIf,
    ensures_change, ensures_commit] at hrun
  have houtcome := hrun ⟨?_, fun hvalid => ⟨?_, fun hfree => ?_⟩⟩
  · cases houtcome with
    | inl h => exact .inl ⟨h.1, Prod.ext h.2.1 h.2.2⟩
    | inr h =>
        obtain ⟨hnot, hdb, refusal, hrefused⟩ := h
        exact .inr ⟨hnot, refusal, Prod.ext hdb hrefused⟩
  · intro hinvalid
    exact .inr ⟨fun h => hinvalid (invalidChanges_eq_nil.mpr h.valid), trivial, _, rfl⟩
  · intro hconflict
    refine .inr ⟨fun h => hconflict (conflicts_bookings_eq_nil.mpr ?_), trivial, _, rfl⟩
    exact hbooked ▸ h.oneTeam
  · have hone := conflicts_bookings_eq_nil.mp (not_not.mp hfree)
    exact .inl ⟨⟨invalidChanges_eq_nil.mp (not_not.mp hvalid), hbooked ▸ hone⟩, rfl, trivial⟩

/-! ### What the writes leave -/

theorem assignedRow_place (server : Server) (actor member : TeamWorkspaceMember)
    (room : ScoutingRoom) (existing : List ScoutingRoomAssignment) (slot : SlotRef) (now : Nat) :
    (assignedRow server actor member room existing slot now).place = (room.roomKey, slot) :=
  rfl

theorem get?_writeChange_of_ne {existing : List ScoutingRoomAssignment}
    {assignments : Table ScoutingRoomAssignment.place} {change : TeamAssignmentChange}
    {place : String × SlotRef} (h : place ≠ (room.roomKey, change.slot)) :
    (writeChange server actor room members existing now assignments change).get? place =
      assignments.get? place := by
  unfold writeChange
  split
  · exact Table.get?_erase_of_ne h
  · split
    · exact Table.get?_put_of_ne h
    · rfl

theorem get?_writeChange_self {existing : List ScoutingRoomAssignment}
    {change : TeamAssignmentChange}
    (hactive : ∀ id, change.assignedMemberId = some id → ∃ m ∈ members, m.id = id)
    (assignments : Table ScoutingRoomAssignment.place) :
    ((writeChange server actor room members existing now assignments change).get?
      (room.roomKey, change.slot)).bind (·.assignedMemberId) = change.assignedMemberId := by
  cases hid : change.assignedMemberId with
  | none => simp [writeChange, hid]
  | some id =>
      obtain ⟨m, hm, hmid⟩ := hactive id hid
      obtain ⟨member, hfound⟩ : ∃ member, members.find? (·.id = id) = some member := by
        apply Option.isSome_iff_exists.mp
        rw [List.find?_isSome]
        exact ⟨m, hm, by simpa using hmid⟩
      have hmember : member.id = id := by simpa using List.find?_some hfound
      have hput := Table.get?_put_self assignments
        (assignedRow server actor member room existing change.slot now)
      rw [assignedRow_place] at hput
      simp only [writeChange, hid, hfound, hput, Option.bind_some]
      exact congrArg some hmember

theorem holder_written (h : ∀ change ∈ changes, Valid db actor room change) (slot : SlotRef) :
    holder (written server actor room changes now db) room.roomKey slot =
      holderAfter db room.roomKey changes slot := by
  have hlook := @Table.lookup_foldl _ _ TeamAssignmentChange.slot _ _ _
    (writeChange server actor room (activeMembers db.workspaces actor.workspaceId)
      (roomAssignments db room) now)
    (fun assignments slot => (assignments.get? (room.roomKey, slot)).bind (·.assignedMemberId))
    (·.assignedMemberId) _ (finalChanges changes).unique
    (fun assignments change hin =>
      get?_writeChange_self (h change (mem_finalChanges hin)).active assignments)
    (fun assignments change _ slot hne => by
      have hplace : (room.roomKey, slot) ≠ (room.roomKey, change.slot) :=
        fun he => hne (congrArg Prod.snd he)
      simp only [get?_writeChange_of_ne hplace]) db.assignments slot
  rw [holderAfter, ← get?_finalChanges]
  exact hlook

/-- A row that the batch does not name is left as it is. -/
theorem get?_written_of_unnamed {place : String × SlotRef}
    (h : ∀ change ∈ changes, place ≠ (room.roomKey, change.slot)) :
    (written server actor room changes now db).assignments.get? place =
      db.assignments.get? place := by
  rw [written]
  have hstep : ∀ (cs : List TeamAssignmentChange), (∀ change ∈ cs, change ∈ changes) →
      ∀ assignments : Table ScoutingRoomAssignment.place,
        (cs.foldl (writeChange server actor room (activeMembers db.workspaces actor.workspaceId)
          (roomAssignments db room) now) assignments).get? place = assignments.get? place := by
    intro cs
    induction cs with
    | nil => exact fun _ _ => rfl
    | cons change cs ih =>
        intro hin assignments
        rw [List.foldl_cons, ih fun c hc => hin c (List.mem_cons_of_mem _ hc)]
        exact get?_writeChange_of_ne (h change (hin change List.mem_cons_self))
  exact hstep _ (fun change hin => mem_finalChanges hin) db.assignments

end Writes

/-- A batch either is refused and leaves every row, or leaves nobody with two teams of one match,
every slot it names with the last member it gave, and every other row as it was. -/
theorem batch_keeps_one_team (server : Server) (actor : TeamWorkspaceMember)
    (room : ScoutingRoom) (changes : List TeamAssignmentChange) (now : Nat) (db : TeamRoomDb) :
    match perform (applyAssignmentChanges server actor room changes now) db with
    | (db', .error _) => db' = db
    | (db', .ok _) =>
        OneTeam (holder db' room.roomKey) ∧
        (∀ slot change, lastChange changes slot = some change →
          holder db' room.roomKey slot = change.assignedMemberId) ∧
        (∀ place : String × SlotRef, (∀ change ∈ changes, place ≠ (room.roomKey, change.slot)) →
          db'.assignments.get? place = db.assignments.get? place) ∧
        db'.workspaces = db.workspaces ∧ db'.eventMatches = db.eventMatches ∧
          db'.matchTeams = db.matchTeams := by
  cases applyAssignmentChanges_outcome server actor room changes now db with
  | inl haccepted =>
      obtain ⟨⟨hvalid, hone⟩, hrun⟩ := haccepted
      have hheld : holder (written server actor room changes now db) room.roomKey =
          holderAfter db room.roomKey changes := by
        funext slot
        exact holder_written hvalid slot
      rw [hrun]
      refine ⟨hheld ▸ hone, ?_, fun place h => get?_written_of_unnamed h, rfl, rfl, rfl⟩
      intro slot change hlast
      rw [hheld, holderAfter, hlast]
      rfl
  | inr hrefused =>
      obtain ⟨-, refusal, hrun⟩ := hrefused
      rw [hrun]

end Frcmob.Assignments
