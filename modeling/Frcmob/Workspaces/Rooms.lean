import Frcmob.Workspaces.Leadership

/-!
Opening scouting rooms and promoting their leaders (`routes_scouting_rooms.py`). A request that
opens a room reads its member first, then the room, and writes the room last, without the lock
of the workspace's row; a promotion takes the lock before it writes. So other requests can come
between the steps of one.
-/

namespace Frcmob.Workspaces
open Sessions Request Transition

/-! ### Opening a room -/

/-- A request to create or join a room, or a socket that joins one. `roomKey` is empty for a
new room under `generatedKey`. -/
structure RoomCreateRequest where
  credential : Credential
  roomKey : String
  createIfMissing : Bool
  eventKey : Option String
  title : Option String
  generatedKey : String
deriving DecidableEq

/-- What such a request holds from the member's row that it read. -/
structure Visit where
  memberId : Nat
  workspaceId : Nat
  scoutProfile : String
  canClaimOwner : Bool
  roomKey : String
  createIfMissing : Bool
  eventKey : Option String
  title : Option String
deriving DecidableEq

def startVisit (server : Server) (db : WorkspaceDb) (request : RoomCreateRequest) :
    Except HTTPException Visit := do
  requireWriteAccess server "Scouting room create/join"
  let actor ← requireWorkspaceActor db request.credential
  return {
    memberId := actor.id
    workspaceId := actor.workspaceId
    scoutProfile := normalizeScoutProfile server actor.displayName
    canClaimOwner := actor.role = .leader
    roomKey := if request.roomKey = "" then request.generatedKey else request.roomKey
    createIfMissing := request.roomKey = "" ∨ request.createIfMissing
    eventKey := request.eventKey
    title := request.title }

/-- A socket of the room: its token names the profile, and must still allow this member in. -/
def startSocket (server : Server) (db : WorkspaceDb) (request : RoomCreateRequest)
    (scoutProfile : String) (roomAccess : Bool) : Except HTTPException Visit := do
  if server.publicReadonlyMode then throw ⟨403, "Scouting rooms are disabled in public mode."⟩
  let actor ← requireWorkspaceActor db request.credential
  if scoutProfile ≠ normalizeScoutProfile server actor.displayName ∨ ¬ roomAccess then
    throw ⟨403, "Join the room again with your current workspace name."⟩
  else
    return {
      memberId := actor.id
      workspaceId := actor.workspaceId
      scoutProfile := scoutProfile
      canClaimOwner := actor.role = .leader
      roomKey := request.roomKey
      createIfMissing := false
      eventKey := request.eventKey
      title := request.title }

/-- The columns that a visit writes in a room's row, with what it writes there. -/
structure RoomChange where
  eventKey : Option String := none
  title : Option String := none
  createdBy : Option String := none
deriving DecidableEq

inductive RoomWrite
  | insert (room : ScoutingRoom)
  | update (roomKey : String) (change : RoomChange)
deriving DecidableEq

def normalizeTitle (server : Server) (title : Option String) : Option String :=
  let stripped := String.ofList ((server.strip (title.getD "").toList).take 80)
  if stripped = "" then none else some stripped

def Visit.knownEvent (db : WorkspaceDb) (visit : Visit) : Option String :=
  visit.eventKey.filter (· ∈ db.events)

/-- An ownerless room is only claimed by a workspace leader. -/
def roomChange (server : Server) (db : WorkspaceDb) (visit : Visit) (room : ScoutingRoom) :
    RoomChange :=
  let createdBy := normalizeScoutProfile server visit.scoutProfile
  { eventKey := (visit.knownEvent db).filter fun eventKey => some eventKey ≠ room.eventKey
    title := (normalizeTitle server visit.title).filter fun title => some title ≠ room.title
    createdBy :=
      if visit.canClaimOwner ∧ createdBy ≠ "" ∧
          normalizeScoutProfile server (room.createdBy.getD "") = "" then some createdBy
      else none }

def WorkspaceDb.room (db : WorkspaceDb) (roomKey : String) : Option ScoutingRoom :=
  db.rooms.find? (·.roomKey = roomKey)

def upsertRoom (server : Server) (db : WorkspaceDb) (visit : Visit) :
    Except HTTPException RoomWrite :=
  match db.room visit.roomKey with
  | some room =>
      if room.workspaceId ≠ visit.workspaceId then
        .error ⟨409, "That room code is already taken. Pick another."⟩
      else .ok (.update room.roomKey (roomChange server db visit room))
  | none =>
      .ok (.insert {
        roomKey := visit.roomKey
        workspaceId := visit.workspaceId
        eventKey := visit.knownEvent db
        teamEventKey := none
        title := normalizeTitle server visit.title
        createdBy := some (normalizeScoutProfile server visit.scoutProfile) })

def loadRoomOr404 (db : WorkspaceDb) (roomKey : String) (workspaceId : Nat) :
    Except HTTPException ScoutingRoom :=
  match (db.room roomKey).filter (·.workspaceId = workspaceId) with
  | some room => .ok room
  | none => .error ⟨404, "Scouting room " ++ roomKey ++ " not found"⟩

def syncRoomMetadataForJoin (server : Server) (db : WorkspaceDb) (visit : Visit) :
    Except HTTPException RoomWrite := do
  let room ← loadRoomOr404 db visit.roomKey visit.workspaceId
  if room.teamEventKey ≠ none ∧ visit.knownEvent db ≠ none ∧
      visit.knownEvent db ≠ room.teamEventKey then
    throw ⟨422, "A team room stays with its event."⟩
  else return .update room.roomKey (roomChange server db visit room)

/-- What the visit is going to write, by the room as it reads it. -/
def readRoom (server : Server) (db : WorkspaceDb) (visit : Visit) :
    Except HTTPException RoomWrite :=
  if visit.createIfMissing then upsertRoom server db visit
  else syncRoomMetadataForJoin server db visit

def RoomChange.apply (change : RoomChange) (room : ScoutingRoom) : ScoutingRoom :=
  { room with
    eventKey := change.eventKey.or room.eventKey
    title := change.title.or room.title
    createdBy := change.createdBy.or room.createdBy }

/-- A key that another request has just taken fails the insertion. -/
def commitRoom (db : WorkspaceDb) : RoomWrite → Except HTTPException WorkspaceDb
  | .insert room =>
      if (db.room room.roomKey).isSome then
        .error ⟨503, "Scouting room creation is temporarily unavailable."⟩
      else .ok { db with rooms := db.rooms ++ [room] }
  | .update roomKey change =>
      .ok { db with rooms := db.rooms.map fun room =>
        if room.roomKey = roomKey then change.apply room else room }

/-! ### Promoting a leader -/

inductive RoomRole
  | owner
  | editor
  | member
deriving DecidableEq

def roomLeaderProfiles (db : WorkspaceDb) (roomKey : String) : List String :=
  (db.roomLeaders.filter (·.roomKey = roomKey)).map (·.scoutProfile)

def resolveRoomRole (server : Server) (room : ScoutingRoom) (scoutProfile : String)
    (secondaryLeaders : List String) (workspaceLeader : Bool) : RoomRole :=
  if room.teamEventKey ≠ none then if workspaceLeader then .owner else .member
  else if workspaceLeader then .owner
  else if scoutProfilesMatch server (room.createdBy.getD "") scoutProfile ∨
      secondaryLeaders.any (scoutProfilesMatch server · scoutProfile) then .owner
  else .editor

structure PromoteRequest where
  credential : Credential
  roomKey : String
  scoutProfile : String
  roomAccess : Bool
deriving DecidableEq

structure Promotion where
  actor : TeamWorkspaceMember
  actorProfile : String
  roomKey : String
  targetProfile : String
deriving DecidableEq

/-- Up to the lock of the workspace's row. -/
def startPromotion (server : Server) (db : WorkspaceDb) (request : PromoteRequest) :
    Except HTTPException Promotion := do
  requireWriteAccess server "Scouting room leader promote"
  let actor ← requireWorkspaceActor db request.credential
  let room ← loadRoomOr404 db request.roomKey actor.workspaceId
  let actorProfile := normalizeScoutProfile server actor.displayName
  let targetProfile := normalizeScoutProfile server request.scoutProfile
  if ¬ request.roomAccess then
    throw ⟨403, "Leader promote requires a valid token bound to your membership." ++
      " Join the room again."⟩
  else if actorProfile = "" then
    throw ⟨403, "Leader promote requires a bound scout profile."⟩
  else if resolveRoomRole server room actorProfile (roomLeaderProfiles db room.roomKey)
      (actor.role = .leader) ≠ .owner then
    throw ⟨403, "Only room leaders can promote secondary leaders."⟩
  else if targetProfile = "" then throw ⟨400, "Target scout_profile is required."⟩
  else if scoutProfilesMatch server targetProfile (room.createdBy.getD "") then
    throw ⟨400, "Room creator is already a room leader."⟩
  else return ⟨actor, actorProfile, room.roomKey, targetProfile⟩

def upsertRoomSecondaryLeader (server : Server) (db : WorkspaceDb) (roomKey scoutProfile
    addedByScoutProfile : String) : Except HTTPException WorkspaceDb :=
  let profile := normalizeScoutProfile server scoutProfile
  let norm := normalizeScoutProfileLookup server profile
  let addedBy := normalizeScoutProfile server addedByScoutProfile
  let row : ScoutingRoomLeader :=
    ⟨roomKey, profile, norm, addedBy, normalizeScoutProfileLookup server addedBy⟩
  if norm = "" then .error ⟨400, "scout_profile is required for room leader updates."⟩
  else if addedBy = "" then
    .error ⟨400, "Actor scout_profile is required for room leader updates."⟩
  else if db.roomLeaders.any fun l => l.roomKey = roomKey ∧ l.scoutProfileNorm = norm then
    .ok { db with roomLeaders := db.roomLeaders.map fun l =>
      if l.roomKey = roomKey ∧ l.scoutProfileNorm = norm then row else l }
  else .ok { db with roomLeaders := db.roomLeaders ++ [row] }

/-- Under the lock: only a current member of the workspace becomes a room leader. -/
def finishPromotion (server : Server) (db : WorkspaceDb) (promotion : Promotion) :
    Except HTTPException WorkspaceDb := do
  if (db.refresh promotion.actor).removed then throw ⟨401, workspaceRevokedDetail⟩
  else if (activeMembers db promotion.actor.workspaceId).all
      fun m => ¬ scoutProfilesMatch server promotion.targetProfile m.displayName then
    throw ⟨404, "Only a current member of this team can be a room leader."⟩
  else
    upsertRoomSecondaryLeader server db promotion.roomKey promotion.targetProfile
      promotion.actorProfile

/-! ### The team's room of an event -/

/-- All of it under the lock. -/
def createTeamRoom (server : Server) (db : WorkspaceDb) (credential : Credential)
    (eventKey generatedKey : String) : Except HTTPException WorkspaceDb := do
  requireWriteAccess server "Joining your team's scouting room"
  let actor ← requireWorkspaceActor db credential
  if eventKey ∉ db.events then throw ⟨404, "Event not found."⟩
  else if db.rooms.any fun room =>
      room.workspaceId = actor.workspaceId ∧ room.teamEventKey = some eventKey then return db
  else
    commitRoom db (.insert {
      roomKey := generatedKey
      workspaceId := actor.workspaceId
      eventKey := some eventKey
      teamEventKey := some eventKey
      title := none
      createdBy := if actor.role = .leader then some actor.displayName else none })

/-! ### Requests under way -/

/-- A request between two of its steps. -/
inductive Pending
  | visit (visit : Visit)
  | write (visit : Visit) (write : RoomWrite)
  | promotion (promotion : Promotion)
deriving DecidableEq

structure RoomState where
  db : WorkspaceDb := {}
  pending : List Pending := []
deriving DecidableEq

inductive RoomAction
  | request (request : WorkspaceRequest)
  | openRoom (request : RoomCreateRequest)
  | openSocket (request : RoomCreateRequest) (scoutProfile : String) (roomAccess : Bool)
  | promote (request : PromoteRequest)
  | teamRoom (credential : Credential) (eventKey generatedKey : String)
  | proceed (i : Nat)

/-- The next step of a pending request: the rows after it, and what is left to do. -/
def proceed (server : Server) (db : WorkspaceDb) : Pending → WorkspaceDb × List Pending
  | .visit visit =>
      match readRoom server db visit with
      | .ok write => (db, [.write visit write])
      | .error _ => (db, [])
  | .write _ write => ((commitRoom db write).toOption.getD db, [])
  | .promotion promotion => ((finishPromotion server db promotion).toOption.getD db, [])

def RoomState.await (s : RoomState) (started : Except HTTPException Pending) : RoomState :=
  { s with pending := s.pending ++ started.toOption.toList }

def roomStep (server : Server) (s : RoomState) : RoomAction → Option RoomState
  | .request request => some { s with db := (answer server s.db request).1 }
  | .openRoom request => some (s.await (.visit <$> startVisit server s.db request))
  | .openSocket request scoutProfile roomAccess =>
      some (s.await (.visit <$> startSocket server s.db request scoutProfile roomAccess))
  | .promote request => some (s.await (.promotion <$> startPromotion server s.db request))
  | .teamRoom credential eventKey generatedKey =>
      some { s with
        db := (createTeamRoom server s.db credential eventKey generatedKey).toOption.getD s.db }
  | .proceed i =>
      match s.pending[i]? with
      | none => none
      | some p =>
          let (db, rest) := proceed server s.db p
          some ⟨db, s.pending.eraseIdx i ++ rest⟩

def roomSystem (server : Server) : System RoomState RoomAction where
  start s := s.db.members = [] ∧ s.db.rooms = [] ∧ s.db.roomLeaders = [] ∧ s.pending = []
  step := roomStep server

end Frcmob.Workspaces
