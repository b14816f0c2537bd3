import Frcmob.Assignments.Batches
import Frcmob.Assignments.Plans

/-!
What the assignment page sees of a room: the stored rows of its snapshot, looked up by slot, and
the lineups of its schedule.
-/

namespace Frcmob.Assignments
open Workspaces

/-! ### Keys -/

def matchKeyChars : List Char := "0123456789abcdefghijklmnopqrstuvwxyz_".toList
def teamKeyChars : List Char := "0123456789ABCDEFGHIJKLMNOPQRSTUVWXYZ".toList

/-- As the event feeds write them: `2026txhou_qm1`. -/
def IsMatchKey (s : String) : Prop :=
  ∀ c ∈ s.toList, c ∈ matchKeyChars

/-- `frc118`, or `frc118B` for a team's second robot. -/
def IsTeamKey (s : String) : Prop :=
  s.toList.take 3 = ['f', 'r', 'c'] ∧ ∀ c ∈ s.toList.drop 3, c ∈ teamKeyChars

-- Over the list, not over all characters.
instance (s : String) : Decidable (IsMatchKey s) :=
  List.decidableBAll (fun c => c ∈ matchKeyChars) s.toList

instance (s : String) : Decidable (IsTeamKey s) :=
  have := List.decidableBAll (fun c => c ∈ teamKeyChars) (s.toList.drop 3)
  inferInstanceAs (Decidable (_ ∧ ∀ c ∈ s.toList.drop 3, c ∈ teamKeyChars))

theorem toLower_matchKeyChars : ∀ c ∈ matchKeyChars, c.toLower = c ∧ c ≠ ':' := by
  have hall : matchKeyChars.all fun c => c.toLower = c ∧ c ≠ ':' := by decide +kernel
  intro c hc
  exact of_decide_eq_true (List.all_eq_true.mp hall c hc)

theorem toLower_teamKeyChars :
    ∀ c ∈ teamKeyChars, c.toLower ≠ ':' ∧ ∀ d ∈ teamKeyChars, c.toLower = d.toLower → c = d := by
  have hcolon : teamKeyChars.all fun c => c.toLower ≠ ':' := by decide +kernel
  have hinj : teamKeyChars.all fun c => teamKeyChars.all fun d =>
      c.toLower = d.toLower → c = d := by decide +kernel
  intro c hc
  refine ⟨of_decide_eq_true (List.all_eq_true.mp hcolon c hc), ?_⟩
  intro d hd
  exact of_decide_eq_true (List.all_eq_true.mp (List.all_eq_true.mp hinj c hc) d hd)

theorem lower_matchKey {s : String} (h : IsMatchKey s) : lower s = s := by
  have hmap : s.toList.map Char.toLower = s.toList.map id :=
    List.map_congr_left fun c hc => (toLower_matchKeyChars c (h c hc)).1
  rw [lower, hmap, List.map_id, String.ofList_toList]

theorem map_toLower_inj {cs ds : List Char} (hcs : ∀ c ∈ cs, c ∈ teamKeyChars)
    (hds : ∀ d ∈ ds, d ∈ teamKeyChars) (h : cs.map Char.toLower = ds.map Char.toLower) :
    cs = ds := by
  induction cs generalizing ds with
  | nil =>
      cases ds with
      | nil => rfl
      | cons d ds => cases h
  | cons c cs ih =>
      cases ds with
      | nil => cases h
      | cons d ds =>
          obtain ⟨hhead, htail⟩ := List.cons.inj h
          have hcd := (toLower_teamKeyChars c (hcs c List.mem_cons_self)).2 d
            (hds d List.mem_cons_self) hhead
          rw [hcd, ih (fun c hc => hcs c (List.mem_cons_of_mem _ hc))
            (fun d hd => hds d (List.mem_cons_of_mem _ hd)) htail]

theorem lower_teamKey_inj {s t : String} (hs : IsTeamKey s) (ht : IsTeamKey t)
    (h : lower s = lower t) : s = t := by
  have hmap : s.toList.map Char.toLower = t.toList.map Char.toLower := String.ofList_injective h
  have hdrop : s.toList.drop 3 = t.toList.drop 3 := by
    apply map_toLower_inj hs.2 ht.2
    rw [List.map_drop, List.map_drop, hmap]
  apply String.toList_injective
  rw [← List.take_append_drop 3 s.toList, ← List.take_append_drop 3 t.toList, hs.1, ht.1, hdrop]

structure IsSlot (slot : SlotRef) : Prop where
  matchKey : IsMatchKey slot.matchKey
  teamKey : IsTeamKey slot.teamKey

/-- Slots of the event's matches do not share a key. -/
theorem slotKey_inj {s t : SlotRef} (hs : IsSlot s) (ht : IsSlot t)
    (h : slotKey s.matchKey s.teamKey = slotKey t.matchKey t.teamKey) : s = t := by
  have hcolonMatch : ':' ∉ s.matchKey.toList := fun hc =>
    (toLower_matchKeyChars _ (hs.matchKey _ hc)).2 rfl
  have hcolonTeam : ':' ∉ s.teamKey.toList.map Char.toLower := by
    rw [List.mem_map]
    rintro ⟨c, hc, hcolon⟩
    rw [← List.take_append_drop 3 s.teamKey.toList, List.mem_append, hs.teamKey.1] at hc
    cases hc with
    | inl hpre =>
        have hall : ['f', 'r', 'c'].all fun c => c.toLower ≠ ':' := by decide
        exact of_decide_eq_true (List.all_eq_true.mp hall c hpre) hcolon
    | inr hin => exact (toLower_teamKeyChars c (hs.teamKey.2 c hin)).1 hcolon
  rw [slotKey, slotKey, lower_matchKey hs.matchKey, lower_matchKey ht.matchKey] at h
  have hlist := congrArg String.toList h
  simp only [String.toList_append, lower, String.toList_ofList, List.append_assoc] at hlist
  obtain ⟨hmatch, -, hteam⟩ := (List.append_cons_inj_of_notMem hcolonMatch hcolonTeam).mp hlist
  have hmatchKey := String.toList_injective hmatch
  have hteamKey := lower_teamKey_inj hs.teamKey ht.teamKey (congrArg String.ofList hteam)
  cases s
  cases t
  exact SlotRef.mk.injEq .. ▸ ⟨hmatchKey, hteamKey⟩

/-! ### A room and its event -/

/-- A team's room for an event as its writers keep it: the rows of matches and lineups come from
the event feeds, assignments from accepted batches. -/
structure EventRoom where
  db : TeamRoomDb
  actor : TeamWorkspaceMember
  room : ScoutingRoom
  eventKey : String
  roomEvent : room.eventKey = some eventKey
  matchKeys : ∀ m ∈ db.eventMatches, IsMatchKey m.matchKey
  lineupKeys : ∀ row ∈ db.matchTeams, IsTeamKey row.teamKey
  lineupEvents : ∀ row ∈ db.matchTeams, ∀ m ∈ db.eventMatches, row.matchKey = m.matchKey →
    row.eventKey = m.eventKey
  assignedSlots : ∀ row ∈ db.assignments, row.roomKey = room.roomKey → IsSlot row.slot
  oneTeam : OneTeam (holder db room.roomKey)

namespace EventRoom
variable {R : EventRoom} {server : Server} {completed : String → Bool}

def activeIds (R : EventRoom) : List Nat :=
  (activeMembers R.db.workspaces R.actor.workspaceId).map (·.id)

/-- The active member who is to scout the slot after the changes. -/
def workingAfter (R : EventRoom) (changes : List TeamAssignmentChange) (slot : SlotRef) :
    Option Nat :=
  (holderAfter R.db R.room.roomKey changes slot).filter (· ∈ R.activeIds)

def working (R : EventRoom) : SlotRef → Option Nat :=
  R.workingAfter []

def snapshot (R : EventRoom) (server : Server) : TeamRoomSnapshot :=
  teamSnapshot server R.db R.actor R.room

def schedule (R : EventRoom) (completed : String → Bool) : List EventScheduleItem :=
  eventSchedule R.db completed R.eventKey

/-- The team plays in the match. -/
def InLineup (R : EventRoom) (slot : SlotRef) : Prop :=
  ∃ row ∈ R.db.matchTeams, row.slot = slot

/-! ### The client's view of the stored rows -/

theorem mem_snapshotMembers {member : TeamRoomMember} :
    member ∈ (R.snapshot server).members ↔
      ∃ m ∈ activeMembers R.db.workspaces R.actor.workspaceId, memberPayload m = member := by
  simp only [snapshot, teamSnapshot, snapshotMembers, List.mem_map, List.mem_insertionSort]

theorem autoMembers_active {skipped : List Nat} {id : Nat}
    (h : id ∈ autoMembers (R.snapshot server) skipped) : id ∈ R.activeIds := by
  obtain ⟨member, hin, rfl⟩ := List.mem_map.mp h
  obtain ⟨m, hm, rfl⟩ := mem_snapshotMembers.mp (List.mem_of_mem_filter hin)
  exact List.mem_map.mpr ⟨m, hm, rfl⟩

theorem isSlot_of_mem {row : ScoutingRoomAssignment}
    (h : row ∈ roomAssignments R.db R.room) : IsSlot row.slot :=
  have hrow := mem_roomAssignments.mp h
  R.assignedSlots row hrow.1 hrow.2

theorem rows_assignmentIndex :
    (assignmentIndex (R.snapshot server).assignments).rows = (R.snapshot server).assignments := by
  apply Table.rows_putAll
  rw [show (Table.empty : AssignmentIndex).rows = [] from rfl, List.nil_append, snapshot,
    teamSnapshot, List.map_map]
  apply List.Nodup.map_on
  · intro a ha b hb hkey
    apply List.inj_on_of_nodup_map (nodup_roomAssignments R.db R.room) ha hb
    exact slotKey_inj (isSlot_of_mem ha) (isSlot_of_mem hb) hkey
  · exact List.Nodup.of_map _ (nodup_roomAssignments R.db R.room)

/-- The stored row of a slot, as the index of the snapshot gives it. -/
theorem row_assignmentIndex {slot : SlotRef} (hslot : IsSlot slot) :
    (assignmentIndex (R.snapshot server).assignments).row slot =
      (R.db.assignments.get? (R.room.roomKey, slot)).map
        (assignmentPayload (snapshotMembers server R.db R.actor)) := by
  apply Option.ext
  intro payload
  rw [AssignmentIndex.row, Table.get?_eq_some, Table.mem_def, rows_assignmentIndex,
    Option.map_eq_some_iff]
  constructor
  · rintro ⟨hin, hkey⟩
    obtain ⟨row, hrow, rfl⟩ := List.mem_map.mp hin
    have hstored := mem_roomAssignments.mp hrow
    have hrowSlot : row.slot = slot := slotKey_inj (isSlot_of_mem hrow) hslot hkey
    exact ⟨row, Table.get?_eq_some.mpr ⟨hstored.1, Prod.ext hstored.2 hrowSlot⟩, rfl⟩
  · rintro ⟨row, hget, rfl⟩
    obtain ⟨hrow, hplace⟩ := Table.get?_eq_some.mp hget
    have hroom := mem_roomAssignments.mpr ⟨hrow, congrArg Prod.fst hplace⟩
    have hrowSlot : row.slot = slot := congrArg Prod.snd hplace
    exact ⟨List.mem_map_of_mem hroom, hrowSlot ▸ rfl⟩

/-- Where the plan sees an active member, the stored row names one. -/
theorem currentOf_row {slot : SlotRef} (hslot : IsSlot slot) :
    currentOf ((assignmentIndex (R.snapshot server).assignments).row slot) = R.working slot := by
  have hactive : ∀ id, (currentMember (snapshotMembers server R.db R.actor) (some id)).isSome =
      true ↔ id ∈ R.activeIds := by
    intro id
    rw [currentMember, List.find?_isSome, activeIds, List.mem_map]
    simp only [snapshotMembers, List.mem_insertionSort, decide_eq_true_eq, Option.some.injEq]
  have hworking : R.working slot = (holder R.db R.room.roomKey slot).filter (· ∈ R.activeIds) :=
    rfl
  rw [row_assignmentIndex hslot, hworking, holder]
  cases R.db.assignments.get? (R.room.roomKey, slot) with
  | none => rfl
  | some row =>
      simp only [Option.map_some, currentOf, Option.bind_some, assignmentPayload]
      cases row.assignedMemberId with
      | none => simp
      | some id =>
          by_cases hin : id ∈ R.activeIds
          · simp [(hactive id).mpr hin, hin, Option.filter]
          · simp [mt (hactive id).mp hin, hin, Option.filter]

/-! ### The schedule's slots -/

def itemSlots (item : EventScheduleItem) : List SlotRef :=
  (matchSlots item).map (·.toSlotRef)

theorem mem_allianceTeams {matchKey : String} {alliance : Alliance} {team : EventScheduleTeam} :
    team ∈ allianceTeams R.db R.eventKey matchKey alliance ↔
      ∃ row ∈ R.db.matchTeams, (row.eventKey = R.eventKey ∧ row.matchKey = matchKey ∧
        row.alliance = alliance ∧ row.teamKey ≠ "") ∧ ⟨row.teamKey, row.station⟩ = team := by
  simp only [allianceTeams, List.mem_insertionSort, List.mem_map, List.mem_filter,
    decide_eq_true_eq, and_assoc]
  exact Iff.rfl

theorem mem_schedule {item : EventScheduleItem} (h : item ∈ R.schedule completed) :
    (∃ m ∈ R.db.eventMatches, m.matchKey = item.matchKey ∧ m.eventKey = R.eventKey) ∧
      item.red = allianceTeams R.db R.eventKey item.matchKey .red ∧
      item.blue = allianceTeams R.db R.eventKey item.matchKey .blue := by
  obtain ⟨m, hm, rfl⟩ := List.mem_map.mp h
  rw [List.mem_insertionSort, List.mem_filter, decide_eq_true_iff] at hm
  exact ⟨⟨m, hm.1, rfl, hm.2⟩, rfl, rfl⟩

/-- A match's slots are its lineup. -/
theorem mem_itemSlots {item : EventScheduleItem} (h : item ∈ R.schedule completed)
    {slot : SlotRef} :
    slot ∈ itemSlots item ↔ slot.matchKey = item.matchKey ∧ R.InLineup slot := by
  obtain ⟨⟨m, hm, hkey, hevent⟩, hred, hblue⟩ := mem_schedule h
  simp only [itemSlots, matchSlots, List.map_append, List.map_map, List.mem_append, List.mem_map,
    Function.comp_apply, hred, hblue, mem_allianceTeams]
  constructor
  · rintro (⟨team, ⟨row, hrow, ⟨-, hrowKey, -, -⟩, rfl⟩, rfl⟩ |
      ⟨team, ⟨row, hrow, ⟨-, hrowKey, -, -⟩, rfl⟩, rfl⟩)
    · exact ⟨rfl, row, hrow, hrowKey ▸ rfl⟩
    · exact ⟨rfl, row, hrow, hrowKey ▸ rfl⟩
  · rintro ⟨hslot, row, hrow, rfl⟩
    have hrowKey : row.matchKey = item.matchKey := hslot
    have hrowEvent : row.eventKey = R.eventKey :=
      (R.lineupEvents row hrow m hm (hrowKey.trans hkey.symm)).trans hevent
    have hteam : row.teamKey ≠ "" := by
      intro hempty
      have hpre := (R.lineupKeys row hrow).1
      rw [hempty] at hpre
      exact absurd hpre (by decide)
    cases halliance : row.alliance with
    | red =>
        refine .inl ⟨_, ⟨row, hrow, ⟨hrowEvent, hrowKey, halliance, hteam⟩, rfl⟩, ?_⟩
        rw [← hrowKey]
        rfl
    | blue =>
        refine .inr ⟨_, ⟨row, hrow, ⟨hrowEvent, hrowKey, halliance, hteam⟩, rfl⟩, ?_⟩
        rw [← hrowKey]
        rfl

theorem isSlot_of_mem_itemSlots {item : EventScheduleItem} (h : item ∈ R.schedule completed)
    {slot : SlotRef} (hslot : slot ∈ itemSlots item) : IsSlot slot := by
  obtain ⟨hkey, row, hrow, rfl⟩ := (mem_itemSlots h).mp hslot
  obtain ⟨⟨m, hm, hmatch, -⟩, -, -⟩ := mem_schedule h
  have hrowKey : row.matchKey = m.matchKey := hkey.trans hmatch.symm
  exact ⟨show IsMatchKey row.matchKey from hrowKey ▸ R.matchKeys m hm, R.lineupKeys row hrow⟩

theorem nodup_allianceTeams (matchKey : String) (alliance : Alliance) :
    ((allianceTeams R.db R.eventKey matchKey alliance).map (·.teamKey)).Nodup := by
  rw [allianceTeams, ((List.perm_insertionSort _ _).map _).nodup_iff, List.map_map]
  apply List.Nodup.map_on
  · intro a ha b hb hteam
    rw [List.mem_filter, decide_eq_true_iff] at ha hb
    have hslot : a.slot = b.slot := by
      rw [MatchTeam.slot, MatchTeam.slot, ha.2.2.1, hb.2.2.1]
      exact congrArg _ hteam
    exact Table.eq_of_key ha.1 hb.1 hslot
  · exact (List.Nodup.of_map _ R.db.matchTeams.unique).filter _

theorem nodup_itemSlots {item : EventScheduleItem} (h : item ∈ R.schedule completed) :
    (itemSlots item).Nodup := by
  obtain ⟨-, hred, hblue⟩ := mem_schedule h
  have hside : ∀ alliance, ((allianceTeams R.db R.eventKey item.matchKey alliance).map
      fun team => (⟨item.matchKey, team.teamKey⟩ : SlotRef)).Nodup := by
    intro alliance
    have hteams := nodup_allianceTeams (R := R) item.matchKey alliance
    rw [show (fun team : EventScheduleTeam => (⟨item.matchKey, team.teamKey⟩ : SlotRef)) =
      SlotRef.mk item.matchKey ∘ (·.teamKey) from rfl, ← List.map_map]
    exact hteams.map fun a b hab => (SlotRef.mk.inj hab).2
  rw [itemSlots, matchSlots, List.map_append, List.map_map, List.map_map, List.nodup_append, hred,
    hblue]
  refine ⟨hside .red, hside .blue, ?_⟩
  intro a ha b hb hab
  obtain ⟨teamA, hA, rfl⟩ := List.mem_map.mp ha
  obtain ⟨teamB, hB, rfl⟩ := List.mem_map.mp hb
  obtain ⟨rowA, hrowA, ⟨-, hkeyA, hallianceA, -⟩, rfl⟩ := mem_allianceTeams.mp hA
  obtain ⟨rowB, hrowB, ⟨-, hkeyB, hallianceB, -⟩, rfl⟩ := mem_allianceTeams.mp hB
  have hteam : rowA.teamKey = rowB.teamKey := congrArg SlotRef.teamKey hab
  have hslot : rowA.slot = rowB.slot := by
    rw [MatchTeam.slot, MatchTeam.slot, hkeyA, hkeyB, hteam]
  have hrow := Table.eq_of_key hrowA hrowB hslot
  rw [hrow, hallianceB] at hallianceA
  cases hallianceA

theorem nodup_scheduleKeys : ((R.schedule completed).map (·.matchKey)).Nodup := by
  rw [schedule, eventSchedule, List.map_map]
  exact ((List.perm_insertionSort _ _).map _).nodup_iff.mpr
    (((List.filter_sublist).map Match.matchKey).nodup R.db.eventMatches.unique)

end EventRoom
end Frcmob.Assignments
