import Frcmob.Workspaces.Names

/-!
The rows of team workspaces, their members and their scouting rooms, and what a member's
removal or new name does to the rooms.
-/

namespace Frcmob.Workspaces

structure TeamWorkspace where
  id : Nat
  name : String
  frcTeamNumber : Option Int
  joinCodeHash : String
  isLocked : Bool
deriving DecidableEq

inductive Role
  | leader
  | member
deriving DecidableEq

/-- `removed` says that `removed_at` is set. -/
structure TeamWorkspaceMember where
  id : Nat
  workspaceId : Nat
  memberKey : String
  displayName : String
  role : Role
  removed : Bool := false
  removedByMemberId : Option Nat := none
deriving DecidableEq

structure ScoutingRoom where
  roomKey : String
  workspaceId : Nat
  eventKey : Option String
  teamEventKey : Option String
  title : Option String
  createdBy : Option String
deriving DecidableEq

structure ScoutingRoomLeader where
  roomKey : String
  scoutProfile : String
  scoutProfileNorm : String
  addedByScoutProfile : String
  addedByScoutProfileNorm : String
deriving DecidableEq

/-- `events` are the events that the server knows. -/
structure WorkspaceDb where
  workspaces : List TeamWorkspace := []
  members : List TeamWorkspaceMember := []
  rooms : List ScoutingRoom := []
  roomLeaders : List ScoutingRoomLeader := []
  events : List String := []
  nextWorkspaceId : Nat := 1
  nextMemberId : Nat := 1
deriving DecidableEq

def activeMembers (db : WorkspaceDb) (workspaceId : Nat) : List TeamWorkspaceMember :=
  db.members.filter fun m => m.workspaceId = workspaceId ∧ ¬ m.removed

def countActiveLeaders (db : WorkspaceDb) (workspaceId : Nat) : Nat :=
  ((activeMembers db workspaceId).filter (·.role = .leader)).length

def WorkspaceDb.insertMember (db : WorkspaceDb) (workspaceId : Nat)
    (memberKey displayName : String) (role : Role) : WorkspaceDb :=
  { db with
    members := db.members ++ [{
      id := db.nextMemberId, workspaceId := workspaceId, memberKey := memberKey,
      displayName := displayName, role := role }]
    nextMemberId := db.nextMemberId + 1 }

def WorkspaceDb.updateMember (db : WorkspaceDb) (id : Nat)
    (f : TeamWorkspaceMember → TeamWorkspaceMember) : WorkspaceDb :=
  { db with members := db.members.map fun m => if m.id = id then f m else m }

def WorkspaceDb.updateWorkspace (db : WorkspaceDb) (id : Nat)
    (f : TeamWorkspace → TeamWorkspace) : WorkspaceDb :=
  { db with workspaces := db.workspaces.map fun w => if w.id = id then f w else w }

/-! ### Rights held by name -/

def WorkspaceDb.roomKeys (db : WorkspaceDb) (workspaceId : Nat) : List String :=
  (db.rooms.filter (·.workspaceId = workspaceId)).map (·.roomKey)

/-- Another owner, or none, for a room of the workspace that is owned under `norm`. -/
def reassignRoom (server : Server) (workspaceId : Nat) (norm : String) (owner : Option String)
    (room : ScoutingRoom) : ScoutingRoom :=
  if room.workspaceId = workspaceId ∧
      normalizeScoutProfileLookup server (room.createdBy.getD "") = norm then
    { room with createdBy := owner }
  else room

theorem reassignRoom_place (server : Server) (workspaceId : Nat) (norm : String)
    (owner : Option String) (room : ScoutingRoom) :
    (reassignRoom server workspaceId norm owner room).roomKey = room.roomKey ∧
      (reassignRoom server workspaceId norm owner room).workspaceId = room.workspaceId := by
  unfold reassignRoom
  split
  · exact ⟨rfl, rfl⟩
  · exact ⟨rfl, rfl⟩

/-- Ownership and leadership of the workspace's rooms that are held under the name. -/
def releaseScoutRoomRoles (server : Server) (workspaceId : Nat) (scoutName : String)
    (db : WorkspaceDb) : WorkspaceDb :=
  let norm := normalizeScoutProfileLookup server scoutName
  if norm = "" then db
  else
    { db with
      rooms := db.rooms.map (reassignRoom server workspaceId norm none)
      roomLeaders := db.roomLeaders.filter fun leader =>
        ¬ (leader.roomKey ∈ db.roomKeys workspaceId ∧ leader.scoutProfileNorm = norm) }

/-- The names on assignments and reports, which carry no right, are left out. -/
def renameScoutInWorkspaceRooms (server : Server) (workspaceId : Nat) (oldName newName : String)
    (db : WorkspaceDb) : WorkspaceDb :=
  let oldNorm := normalizeScoutProfileLookup server oldName
  let newProfile := normalizeScoutProfile server newName
  if oldNorm = "" ∨ newProfile = "" then db
  else
    let newNorm := server.lower newProfile
    let alreadyLeading := (db.roomLeaders.filter fun leader =>
      leader.roomKey ∈ db.roomKeys workspaceId ∧ leader.scoutProfileNorm = newNorm).map (·.roomKey)
    { db with
      rooms := db.rooms.map (reassignRoom server workspaceId oldNorm (some newProfile))
      roomLeaders := db.roomLeaders.filterMap fun leader =>
        if leader.roomKey ∈ db.roomKeys workspaceId ∧ leader.scoutProfileNorm = oldNorm then
          -- one row for a name in a room
          if leader.roomKey ∈ alreadyLeading ∧ leader.scoutProfileNorm ≠ newNorm then none
          else some { leader with scoutProfile := newProfile, scoutProfileNorm := newNorm }
        else some leader }

end Frcmob.Workspaces
