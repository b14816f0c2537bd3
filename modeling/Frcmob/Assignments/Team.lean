import Mathlib.Data.List.Sort
import Frcmob.Lib.Grouping
import Frcmob.Lib.Session
import Frcmob.Lib.Table
import Frcmob.Workspaces.Rows

/-!
Who scouts which robot of a match, in a team's scouting room (`services/scouting_rooms/team.py`).
A batch of changes is checked against the lineups, the members and the bookings it would leave,
and is written only after all of it has passed.
-/

namespace Frcmob.Assignments
open Sessions Request Workspaces

structure SlotRef where
  matchKey : String
  teamKey : String
deriving DecidableEq

inductive Alliance
  | red
  | blue
deriving DecidableEq

structure Match where
  matchKey : String
  eventKey : String
  compLevel : String
  setNumber : Int
  matchNumber : Int
deriving DecidableEq

structure MatchTeam where
  matchKey : String
  teamKey : String
  eventKey : String
  alliance : Alliance
  station : Option String
deriving DecidableEq

def MatchTeam.slot (row : MatchTeam) : SlotRef :=
  ⟨row.matchKey, row.teamKey⟩

structure ScoutingRoomAssignment where
  roomKey : String
  eventKey : Option String
  matchKey : String
  teamKey : String
  assignedMemberId : Option Nat
  assignedScoutProfile : String
  assignedScoutProfileNorm : String
  assignedByScoutProfile : Option String
  assignedByScoutProfileNorm : Option String
  updatedAt : Nat
deriving DecidableEq

def ScoutingRoomAssignment.slot (row : ScoutingRoomAssignment) : SlotRef :=
  ⟨row.matchKey, row.teamKey⟩

/-- `uq_scouting_room_assignment_slot` -/
def ScoutingRoomAssignment.place (row : ScoutingRoomAssignment) : String × SlotRef :=
  (row.roomKey, row.slot)

/-- `activity` is when each room was last written: its `updated_at` and `last_activity_at`. -/
structure TeamRoomDb where
  workspaces : WorkspaceDb
  eventMatches : Table Match.matchKey
  matchTeams : Table MatchTeam.slot
  assignments : Table ScoutingRoomAssignment.place
  activity : Table (Prod.fst : String × Nat → String)

structure TeamAssignmentChange where
  matchKey : String
  teamKey : String
  assignedMemberId : Option Nat
deriving DecidableEq

def TeamAssignmentChange.slot (change : TeamAssignmentChange) : SlotRef :=
  ⟨change.matchKey, change.teamKey⟩

structure RejectedChange where
  matchKey : String
  teamKey : String
  assignedMemberId : Option Nat
  reasons : List String
deriving DecidableEq

structure Refusal where
  statusCode : Nat
  detail : List RejectedChange
deriving DecidableEq

def roomAssignments (db : TeamRoomDb) (room : ScoutingRoom) : List ScoutingRoomAssignment :=
  (db.assignments.rows.filter (·.roomKey = room.roomKey)).insertionSort fun a b =>
    a.matchKey < b.matchKey ∨ (a.matchKey = b.matchKey ∧ a.teamKey ≤ b.teamKey)

/-! ### The checks of a batch -/

/-- The matches named in the batch that are the room's event's. -/
def batchMatches (db : TeamRoomDb) (room : ScoutingRoom) (changes : List TeamAssignmentChange) :
    List String :=
  (db.eventMatches.rows.filter fun m =>
    some m.eventKey = room.eventKey ∧ m.matchKey ∈ changes.map (·.matchKey)).map (·.matchKey)

def batchSlots (db : TeamRoomDb) (matchKeys : List String) : List SlotRef :=
  (db.matchTeams.rows.filter (·.matchKey ∈ matchKeys)).map (·.slot)

def changeReasons (matchKeys : List String) (slots : List SlotRef)
    (members : List TeamWorkspaceMember) (change : TeamAssignmentChange) : List String :=
  (if change.matchKey ∉ matchKeys then ["Match is not in this event."]
    else if change.slot ∉ slots then ["Team is not in this match."] else []) ++
  match change.assignedMemberId with
  | none => []
  | some id =>
      if id ∉ members.map (·.id) then ["Member is not active in this workspace."] else []

def invalidChanges (matchKeys : List String) (slots : List SlotRef)
    (members : List TeamWorkspaceMember) (changes : List TeamAssignmentChange) :
    List RejectedChange :=
  changes.filterMap fun change =>
    let reasons := changeReasons matchKeys slots members change
    if reasons = [] then none
    else some ⟨change.matchKey, change.teamKey, change.assignedMemberId, reasons⟩

/-- Duplicate slots in a batch use the last write. -/
def finalChanges (changes : List TeamAssignmentChange) : Table TeamAssignmentChange.slot :=
  Table.empty.putAll changes

abbrev Planned := Table (Prod.fst : SlotRef × Option Nat → SlotRef)

def planChange (planned : Planned) (change : TeamAssignmentChange) : Planned :=
  match change.assignedMemberId with
  | none => planned.erase change.slot
  | some id => planned.put (change.slot, some id)

def plannedAssignments (existing : List ScoutingRoomAssignment)
    (changes : List TeamAssignmentChange) : Planned :=
  (finalChanges changes).rows.foldl planChange
    (Table.empty.putAll (existing.map fun row => (row.slot, row.assignedMemberId)))

/-- The teams each member is booked for, by match and member. -/
def bookings (planned : Planned) : List ((String × Nat) × List String) :=
  Grouping.group (fun booked => (booked.1.matchKey, booked.2)) (fun booked => booked.1.teamKey)
    (planned.rows.filterMap fun booked => booked.2.map fun id => (booked.1, id))

def conflicts (bookings : List ((String × Nat) × List String)) : List RejectedChange :=
  (bookings.filter (1 < ·.2.length)).flatMap fun booking => booking.2.map fun team =>
    ⟨booking.1.1, team, some booking.1.2,
      ["Member cannot scout more than one team in the same match."]⟩

/-! ### Writing it -/

/-- The row of a slot as a change leaves it. -/
def assignedRow (server : Server) (actor member : TeamWorkspaceMember) (room : ScoutingRoom)
    (existing : List ScoutingRoomAssignment) (slot : SlotRef) (now : Nat) :
    ScoutingRoomAssignment :=
  { roomKey := room.roomKey
    eventKey := match existing.find? (·.slot = slot) with
      | some row => row.eventKey
      | none => room.eventKey
    matchKey := slot.matchKey
    teamKey := slot.teamKey
    assignedMemberId := some member.id
    assignedScoutProfile := member.displayName
    assignedScoutProfileNorm := server.lower member.displayName
    assignedByScoutProfile := some actor.displayName
    assignedByScoutProfileNorm := some (server.lower actor.displayName)
    updatedAt := now }

def writeChange (server : Server) (actor : TeamWorkspaceMember) (room : ScoutingRoom)
    (members : List TeamWorkspaceMember) (existing : List ScoutingRoomAssignment) (now : Nat)
    (assignments : Table ScoutingRoomAssignment.place) (change : TeamAssignmentChange) :
    Table ScoutingRoomAssignment.place :=
  match change.assignedMemberId with
  | none => assignments.erase (room.roomKey, change.slot)
  | some id =>
      match members.find? (·.id = id) with
      | some member =>
          assignments.put (assignedRow server actor member room existing change.slot now)
      -- the batch names active members only
      | none => assignments

def applyAssignmentChanges (server : Server) (actor : TeamWorkspaceMember) (room : ScoutingRoom)
    (changes : List TeamAssignmentChange) (now : Nat) : Request Refusal TeamRoomDb PUnit := do
  let db ← current
  let members := activeMembers db.workspaces actor.workspaceId
  let matchKeys := batchMatches db room changes
  let invalid := invalidChanges matchKeys (batchSlots db matchKeys) members changes
  refuseIf (invalid ≠ []) ⟨422, invalid⟩
  let existing := roomAssignments db room
  let booked := bookings (plannedAssignments existing changes)
  refuseIf (conflicts booked ≠ []) ⟨422, conflicts booked⟩
  change fun db =>
    { db with
      assignments := (finalChanges changes).rows.foldl
        (writeChange server actor room members existing now) db.assignments
      activity := db.activity.put (room.roomKey, now) }
  commit

/-! ### The snapshot -/

structure TeamRoomMember where
  memberId : Nat
  displayName : String
  role : Role
deriving DecidableEq

structure TeamRoomAssignment where
  matchKey : String
  teamKey : String
  assignedMemberId : Option Nat
  assignedDisplayName : String
  memberActive : Bool
deriving DecidableEq

structure TeamRoomSnapshot where
  roomKey : String
  eventKey : Option String
  me : TeamRoomMember
  members : List TeamRoomMember
  assignments : List TeamRoomAssignment
deriving DecidableEq

def memberPayload (member : TeamWorkspaceMember) : TeamRoomMember :=
  ⟨member.id, member.displayName, member.role⟩

/-- `current.get(row.assigned_member_id)` -/
def currentMember (members : List TeamWorkspaceMember) (id : Option Nat) :
    Option TeamWorkspaceMember :=
  members.find? fun m => some m.id = id

def assignmentPayload (members : List TeamWorkspaceMember) (row : ScoutingRoomAssignment) :
    TeamRoomAssignment :=
  let member := currentMember members row.assignedMemberId
  { matchKey := row.matchKey
    teamKey := row.teamKey
    assignedMemberId := row.assignedMemberId
    assignedDisplayName := (member.map (·.displayName)).getD row.assignedScoutProfile
    memberActive := member.isSome }

/-- The active members by name. -/
def snapshotMembers (server : Server) (db : TeamRoomDb) (actor : TeamWorkspaceMember) :
    List TeamWorkspaceMember :=
  (activeMembers db.workspaces actor.workspaceId).insertionSort fun a b =>
    server.casefold a.displayName < server.casefold b.displayName ∨
      (server.casefold a.displayName = server.casefold b.displayName ∧ a.id ≤ b.id)

/-- Coverage by reports, which no change of assignments reads, is left out. -/
def teamSnapshot (server : Server) (db : TeamRoomDb) (actor : TeamWorkspaceMember)
    (room : ScoutingRoom) : TeamRoomSnapshot :=
  let members := snapshotMembers server db actor
  { roomKey := room.roomKey
    eventKey := room.eventKey
    me := memberPayload actor
    members := members.map memberPayload
    assignments := (roomAssignments db room).map (assignmentPayload members) }

end Frcmob.Assignments
