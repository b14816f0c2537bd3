import Frcmob.Assignments.Team
import Frcmob.Text

/-!
The assignment page's plans: filling or redoing the upcoming matches by itself, and clearing them
(`features/workspace/teamAssignments.ts`), and the schedule of an event that they are computed from.
-/

namespace Frcmob.Assignments
open Workspaces

/-! ### The schedule -/

structure EventScheduleTeam where
  teamKey : String
  station : Option String
deriving DecidableEq

structure EventScheduleItem where
  matchKey : String
  compLevel : String
  setNumber : Int
  matchNumber : Int
  isCompleted : Bool
  red : List EventScheduleTeam
  blue : List EventScheduleTeam
deriving DecidableEq

/-- Red before blue, then by number: `("z", 99)` without a station, and 99 without a number. -/
def stationSortKey : Option String → String × Int
  | none => ("z", 99)
  | some station =>
      match station.toList with
      | [] => ("z", 99)
      | c :: cs => (lower (String.singleton c), (String.ofList cs).toInt?.getD 99)

/-- The place of an item that is sorted by level, set and number. -/
def placedBefore (level : String → Int) (a b : String × Int × Int) : Prop :=
  level a.1 < level b.1 ∨ level a.1 = level b.1 ∧
    (a.2.1 < b.2.1 ∨ a.2.1 = b.2.1 ∧ a.2.2 ≤ b.2.2)

instance (level : String → Int) (a b : String × Int × Int) : Decidable (placedBefore level a b) :=
  inferInstanceAs (Decidable (_ ∨ _ ∧ (_ ∨ _ ∧ _)))

def serverLevelOrder (level : String) : Int :=
  match level with
  | "qm" => 0
  | "ef" => 1
  | "qf" => 2
  | "playoff" => 2
  | "sf" => 3
  | "f" => 4
  | _ => 99

/-- The robots of one side of a match, by station. -/
def allianceTeams (db : TeamRoomDb) (eventKey matchKey : String) (alliance : Alliance) :
    List EventScheduleTeam :=
  ((db.matchTeams.rows.filter fun row =>
      row.eventKey = eventKey ∧ row.matchKey = matchKey ∧ row.alliance = alliance ∧
        row.teamKey ≠ "").map fun row => ⟨row.teamKey, row.station⟩).insertionSort
    fun a b =>
      (stationSortKey a.station).1 < (stationSortKey b.station).1 ∨
        ((stationSortKey a.station).1 = (stationSortKey b.station).1 ∧
          (stationSortKey a.station).2 ≤ (stationSortKey b.station).2)

/-- `completed` are the live results, by lower-case match key. -/
def eventSchedule (db : TeamRoomDb) (completed : String → Bool) (eventKey : String) :
    List EventScheduleItem :=
  ((db.eventMatches.rows.filter (·.eventKey = eventKey)).insertionSort fun a b =>
    placedBefore serverLevelOrder (a.compLevel, a.setNumber, a.matchNumber)
      (b.compLevel, b.setNumber, b.matchNumber)).map fun m =>
    { matchKey := m.matchKey
      compLevel := m.compLevel
      setNumber := m.setNumber
      matchNumber := m.matchNumber
      isCompleted := completed (lower m.matchKey)
      red := allianceTeams db eventKey m.matchKey .red
      blue := allianceTeams db eventKey m.matchKey .blue }

/-! ### Slots -/

def compLevelOrder (level : String) : Int :=
  match level with
  | "qm" => 0
  | "ef" => 1
  | "qf" => 2
  | "sf" => 3
  | "f" => 4
  | _ => 9

def slotKey (matchKey teamKey : String) : String :=
  lower matchKey ++ ":" ++ lower teamKey

def sortSchedule (schedule : List EventScheduleItem) : List EventScheduleItem :=
  schedule.insertionSort fun a b =>
    placedBefore compLevelOrder (a.compLevel, a.setNumber, a.matchNumber)
      (b.compLevel, b.setNumber, b.matchNumber)

structure MatchSlot extends SlotRef where
  alliance : Alliance
deriving DecidableEq

def matchSlots (m : EventScheduleItem) : List MatchSlot :=
  (m.red.map fun team => ⟨⟨m.matchKey, team.teamKey⟩, .red⟩) ++
    m.blue.map fun team => ⟨⟨m.matchKey, team.teamKey⟩, .blue⟩

abbrev AssignmentIndex :=
  Table fun row : TeamRoomAssignment => slotKey row.matchKey row.teamKey

def assignmentIndex (assignments : List TeamRoomAssignment) : AssignmentIndex :=
  Table.empty.putAll assignments

def AssignmentIndex.row (index : AssignmentIndex) (slot : SlotRef) : Option TeamRoomAssignment :=
  index.get? (slotKey slot.matchKey slot.teamKey)

/-! ### The automatic plan -/

inductive AutoAssignMode
  | fill
  | redo
deriving DecidableEq

/-- The row's member, when active. -/
def currentOf (row : Option TeamRoomAssignment) : Option Nat :=
  row.bind fun row => if row.memberActive then row.assignedMemberId else none

/-- The member that the plan leaves on a slot, if it leaves one. -/
def keep (mode : AutoAssignMode) (row : Option TeamRoomAssignment) : Option Nat :=
  match mode with
  | .fill => currentOf row
  | .redo => none

/-- How many upcoming slots each scout has so far, and the index of the last of these matches. -/
structure Workload where
  load : Nat → Int
  lastMatch : Nat → Int

def Workload.add (work : Workload) (id : Nat) (lastMatch : Int) : Workload where
  load := fun i => if i = id then work.load id + 1 else work.load i
  lastMatch := fun i => if i = id then lastMatch else work.lastMatch i

/-- The first difference of the two scouts' loads, rests and places in the list. -/
def comesFirst (members : List Nat) (work : Workload) (id pick : Nat) : Prop :=
  let byLoad := work.load id - work.load pick
  let byRest := work.lastMatch id - work.lastMatch pick
  let byOrder : Int := members.idxOf id - members.idxOf pick
  (if byLoad ≠ 0 then byLoad else if byRest ≠ 0 then byRest else byOrder) < 0

instance (members : List Nat) (work : Workload) (id pick : Nat) :
    Decidable (comesFirst members work id pick) :=
  inferInstanceAs (Decidable ((_ : Int) < 0))

def pickScout (members busy : List Nat) (work : Workload) : Option Nat :=
  members.foldl (fun pick id =>
    if id ∈ busy then pick
    else match pick with
      | none => some id
      | some p => if comesFirst members work id p then some id else some p) none

def countKept (members : List Nat) (index : AssignmentIndex) (work : Workload)
    (m : EventScheduleItem × Nat) : Workload :=
  (matchSlots m.1).foldl (fun work slot =>
    match keep .fill (index.row slot.toSlotRef) with
    | some id =>
        if id ∈ members then work.add id (max (work.lastMatch id) m.2) else work
    | none => work) work

structure PlanState where
  busy : List Nat
  work : Workload
  changes : List TeamAssignmentChange

def planSlot (mode : AutoAssignMode) (members : List Nat) (index : AssignmentIndex)
    (matchIndex : Nat) (st : PlanState) (slot : MatchSlot) : PlanState :=
  let row := index.row slot.toSlotRef
  if (keep mode row).isSome then st
  else
    let next := pickScout members st.busy st.work
    let changes :=
      if next = none ∧ currentOf row = none then st.changes
      else if currentOf row ≠ next then st.changes ++ [⟨slot.matchKey, slot.teamKey, next⟩]
      else st.changes
    match next with
    | some id =>
        { busy := id :: st.busy, work := st.work.add id matchIndex, changes := changes }
    | none => { st with changes := changes }

def planMatch (mode : AutoAssignMode) (members : List Nat) (index : AssignmentIndex)
    (st : PlanState) (m : EventScheduleItem × Nat) : PlanState :=
  let slots := matchSlots m.1
  let busy := slots.filterMap fun slot => keep mode (index.row slot.toSlotRef)
  slots.foldl (planSlot mode members index m.2) { st with busy := busy }

def planAutoAssign (schedule : List EventScheduleItem) (assignments : List TeamRoomAssignment)
    (memberIds : List Nat) (mode : AutoAssignMode) : List TeamAssignmentChange :=
  let members := memberIds.eraseDups
  let index := assignmentIndex assignments
  let upcoming := ((sortSchedule schedule).filter fun m => !m.isCompleted).zipIdx
  let idle : Workload := ⟨fun _ => 0, fun _ => -1⟩
  let work := match mode with
    | .fill => upcoming.foldl (countKept members index) idle
    | .redo => idle
  (upcoming.foldl (planMatch mode members index) ⟨[], work, []⟩).changes

def clearUpcomingChanges (schedule : List EventScheduleItem)
    (assignments : List TeamRoomAssignment) : List TeamAssignmentChange :=
  let upcoming := (schedule.filter fun m => !m.isCompleted).map fun m => lower m.matchKey
  (assignments.filter fun row => lower row.matchKey ∈ upcoming).map fun row =>
    ⟨row.matchKey, row.teamKey, none⟩

/-- The members that the page plans for: all but those left out by hand. -/
def autoMembers (snapshot : TeamRoomSnapshot) (skipped : List Nat) : List Nat :=
  (snapshot.members.filter (·.memberId ∉ skipped)).map (·.memberId)

end Frcmob.Assignments
