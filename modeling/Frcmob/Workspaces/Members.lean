import Frcmob.Lib.Session
import Frcmob.Workspaces.Rows

/-!
Membership of a team workspace (`routes_workspaces.py`, `services/workspaces.py`). A route
works in a session of its own, and reads the actor's row again once it holds the lock of the
workspace's row. So its requests take effect one after another.
-/

namespace Frcmob.Workspaces
open Sessions Request

abbrev Route := Request HTTPException WorkspaceDb PUnit

def maxActiveMembers : Nat := 200

/-! ### Values -/

def normalizeTeamNumber : Option Int → Except HTTPException (Option Int)
  | none => .ok none
  | some number =>
      if 1 ≤ number ∧ number ≤ 99999 then .ok (some number)
      else .error ⟨422, "FRC team numbers run from 1 to 99999."⟩

def joinCodeAlphabet : List Char :=
  "0123456789ABCDEFGHJKMNPQRSTVWXYZ".toList

def joinCodeLookalike (c : Char) : Char :=
  if c = 'O' then '0' else if c = 'I' ∨ c = 'L' then '1' else c

def normalizeJoinCode (server : Server) (raw : String) : Option String :=
  let token := ((server.upper raw).toList.map joinCodeLookalike).filter fun c =>
    ('0' ≤ c ∧ c ≤ '9') ∨ ('A' ≤ c ∧ c ≤ 'Z')
  if token.length = 10 ∧ token.all (· ∈ joinCodeAlphabet) then some (String.ofList token) else none

def hashJoinCode (server : Server) (code : String) : String :=
  server.sha256 ("frcmob-join:" ++ code)

/-- The hash of the first of five codes drawn that no workspace has. -/
def issueJoinCode (server : Server) (db : WorkspaceDb) (codes : List String) :
    Except HTTPException String :=
  match ((codes.take 5).map (hashJoinCode server)).find? fun digest =>
      db.workspaces.all (·.joinCodeHash ≠ digest) with
  | some digest => .ok digest
  | none => .error ⟨503, "Could not issue a join code; try again."⟩

def ensureDisplayNameFree (server : Server) (db : WorkspaceDb) (workspaceId : Nat)
    (displayName : String) (exceptMemberId : Option Nat) (joining : Bool) :
    Except HTTPException Unit :=
  match (activeMembers db workspaceId).find? fun m =>
      some m.id ≠ exceptMemberId ∧ server.casefold m.displayName = server.casefold displayName with
  | some m =>
      let hint :=
        if joining then
          " If that's you on a new phone, ask a team leader to remove your old device on" ++
            " My Team, then join again with this name."
        else " Pick another name."
      .error ⟨409, "Someone in this workspace already goes by '" ++ m.displayName ++ "'." ++ hint⟩
  | none => .ok ()

def addMember (server : Server) (workspaceId : Nat) (memberKey displayName : String)
    (role : Role) : Route := do
  let db ← current
  refuseIf (maxActiveMembers ≤ (activeMembers db workspaceId).length)
    ⟨409, "This workspace is full."⟩
  checked (ensureDisplayNameFree server db workspaceId displayName none true)
  change (·.insertMember workspaceId memberKey displayName role)

/-! ### Who asks -/

/-- What a request presents: nothing, a token that does not parse, or a member's key and
workspace. -/
inductive Credential
  | none
  | malformed
  | token (memberKey : String) (workspaceId : Nat)
deriving DecidableEq

def resolveWorkspaceActor (db : WorkspaceDb) : Credential → Option TeamWorkspaceMember
  | .token memberKey workspaceId =>
      (db.members.find? (·.memberKey = memberKey)).filter fun m =>
        ¬ m.removed ∧ m.workspaceId = workspaceId ∧ db.workspaces.any (·.id = m.workspaceId)
  | .none | .malformed => .none

def workspaceRevokedDetail : String :=
  "Your workspace access is no longer valid. Rejoin with your team's code."

def requireWorkspaceActor (db : WorkspaceDb) (credential : Credential) :
    Except HTTPException TeamWorkspaceMember :=
  match resolveWorkspaceActor db credential with
  | some actor => .ok actor
  | none =>
      if credential = .none then .error ⟨401, "Join or create your team's workspace to use this."⟩
      else .error ⟨401, workspaceRevokedDetail⟩

def requireWorkspaceLeader (db : WorkspaceDb) (credential : Credential) :
    Except HTTPException TeamWorkspaceMember := do
  let actor ← requireWorkspaceActor db credential
  if actor.role = .leader then return actor
  else throw ⟨403, "Only workspace leaders can do that."⟩

/-- The row of a member as it is now. Rows of members are never deleted. -/
def WorkspaceDb.refresh (db : WorkspaceDb) (m : TeamWorkspaceMember) : TeamWorkspaceMember :=
  (db.members.find? (·.id = m.id)).getD m

def lockWorkspace (db : WorkspaceDb) (actor : TeamWorkspaceMember) (requireLeader : Bool) :
    Except HTTPException TeamWorkspaceMember :=
  let actor := db.refresh actor
  if actor.removed then .error ⟨401, "You're no longer in this workspace."⟩
  else if requireLeader ∧ actor.role ≠ .leader then
    .error ⟨403, "Only workspace leaders can do that."⟩
  else .ok actor

def loadMemberInWorkspace (db : WorkspaceDb) (actor : TeamWorkspaceMember) (memberId : Nat) :
    Except HTTPException TeamWorkspaceMember :=
  match db.members.find? (·.id = memberId) with
  | some m =>
      if m.workspaceId ≠ actor.workspaceId ∨ m.removed then
        .error ⟨404, "That member isn't in this workspace."⟩
      else .ok m
  | none => .error ⟨404, "That member isn't in this workspace."⟩

/-! ### Routes -/

/-- `challenge` and `slot` are how the sign-up challenge and the hourly budget answer;
`codes` are the join codes drawn. -/
structure WorkspaceCreateRequest where
  name : String
  frcTeamNumber : Option Int
  displayName : String
  challenge : Except HTTPException Unit
  slot : Except HTTPException Bool
  codes : List String
  memberKey : String

def createWorkspace (server : Server) (body : WorkspaceCreateRequest) : Route := do
  checked (requireWriteAccess server "Creating a workspace")
  let name ← checked (normalizeWorkspaceName server body.name)
  let displayName ← checked (normalizeDisplayName server body.displayName)
  let teamNumber ← checked (normalizeTeamNumber body.frcTeamNumber)
  checked body.challenge
  let slot ← checked body.slot
  refuseIf (¬ slot)
    ⟨429, "Lots of teams are signing up right now. Try again in a few minutes."⟩
  let db ← current
  let joinCodeHash ← checked (issueJoinCode server db body.codes)
  change fun db => { db with
    workspaces := db.workspaces ++ [{
      id := db.nextWorkspaceId, name := name, frcTeamNumber := teamNumber,
      joinCodeHash := joinCodeHash, isLocked := false }]
    nextWorkspaceId := db.nextWorkspaceId + 1 }
  addMember server db.nextWorkspaceId body.memberKey displayName .leader
  commit

/-- The workspace that a join code opens. -/
def workspaceToJoin (server : Server) (db : WorkspaceDb) (joinCode : String) :
    Except HTTPException TeamWorkspace :=
  let workspace := (normalizeJoinCode server joinCode).bind fun code =>
    db.workspaces.find? (·.joinCodeHash = hashJoinCode server code)
  match workspace.filter (¬ ·.isLocked) with
  | some workspace => .ok workspace
  | none => .error ⟨404, "No workspace uses that code. Check it with your team lead."⟩

/-- A workspace without leaders is claimed by whoever joins next. -/
def joinWorkspace (server : Server) (joinCode displayName memberKey : String) : Route := do
  checked (requireWriteAccess server "Joining a workspace")
  let db ← current
  let workspace ← checked (workspaceToJoin server db joinCode)
  let displayName ← checked (normalizeDisplayName server displayName)
  addMember server workspace.id memberKey displayName
    (if countActiveLeaders db workspace.id = 0 then .leader else .member)
  commit

structure WorkspaceUpdateRequest where
  name : Option String
  frcTeamNumber : Option Int
  clearTeamNumber : Bool
deriving DecidableEq

def updateWorkspace (server : Server) (credential : Credential) (body : WorkspaceUpdateRequest) :
    Route := do
  checked (requireWriteAccess server "Editing a workspace")
  let db ← current
  let actor ← checked (requireWorkspaceLeader db credential)
  match body.name with
  | some raw =>
      let name ← checked (normalizeWorkspaceName server raw)
      change (·.updateWorkspace actor.workspaceId fun w => { w with name := name })
  | none => pure ()
  if body.clearTeamNumber then
    change (·.updateWorkspace actor.workspaceId fun w => { w with frcTeamNumber := none })
  else if body.frcTeamNumber ≠ none then
    let teamNumber ← checked (normalizeTeamNumber body.frcTeamNumber)
    change (·.updateWorkspace actor.workspaceId fun w => { w with frcTeamNumber := teamNumber })
  commit

def updateMyProfile (server : Server) (credential : Credential) (displayName : String) :
    Route := do
  checked (requireWriteAccess server "Renaming yourself")
  let db ← current
  let actor ← checked (requireWorkspaceActor db credential)
  let displayName ← checked (normalizeDisplayName server displayName)
  let actor ← checked (lockWorkspace db actor false)
  checked (ensureDisplayNameFree server db actor.workspaceId displayName (some actor.id) false)
  change (renameScoutInWorkspaceRooms server actor.workspaceId actor.displayName displayName)
  change (·.updateMember actor.id fun m => { m with displayName := displayName })
  commit

def rotateJoinCode (server : Server) (credential : Credential) (codes : List String) : Route := do
  checked (requireWriteAccess server "Changing the join code")
  let db ← current
  let actor ← checked (requireWorkspaceLeader db credential)
  let joinCodeHash ← checked (issueJoinCode server db codes)
  change (·.updateWorkspace actor.workspaceId fun w => { w with joinCodeHash := joinCodeHash })
  commit

def removeMember (server : Server) (credential : Credential) (memberId : Nat)
    (rotate : Bool) (codes : List String) : Route := do
  checked (requireWriteAccess server "Removing a member")
  let db ← current
  let actor ← checked (requireWorkspaceLeader db credential)
  refuseIf (memberId = actor.id) ⟨400, "Use Leave workspace to remove yourself."⟩
  let actor ← checked (lockWorkspace db actor true)
  let member ← checked (loadMemberInWorkspace db actor memberId)
  refuseIf (member.role = .leader ∧ countActiveLeaders db actor.workspaceId ≤ 1)
    ⟨409, "A workspace needs at least one leader."⟩
  change (·.updateMember member.id fun m =>
    { m with removed := true, removedByMemberId := some actor.id })
  change (releaseScoutRoomRoles server actor.workspaceId member.displayName)
  if rotate then
    let joinCodeHash ← checked (issueJoinCode server db codes)
    change (·.updateWorkspace actor.workspaceId fun w => { w with joinCodeHash := joinCodeHash })
  commit

def parseRole (server : Server) (role : String) : Except HTTPException Role :=
  let role := server.lower (String.ofList (server.strip role.toList))
  if role = "leader" then .ok .leader
  else if role = "member" then .ok .member
  else .error ⟨422, "Role must be leader or member."⟩

def setMemberRole (server : Server) (credential : Credential) (memberId : Nat) (role : String) :
    Route := do
  checked (requireWriteAccess server "Changing a member's role")
  let db ← current
  let actor ← checked (requireWorkspaceLeader db credential)
  let role ← checked (parseRole server role)
  let actor ← checked (lockWorkspace db actor true)
  let member ← checked (loadMemberInWorkspace db actor memberId)
  refuseIf (member.role = .leader ∧ role ≠ .leader ∧ countActiveLeaders db actor.workspaceId ≤ 1)
    ⟨409, "A workspace needs at least one leader."⟩
  change (·.updateMember member.id fun m => { m with role := role })
  commit

/-- The last member leaves a locked workspace with a code that nobody knows. -/
def leaveWorkspace (server : Server) (credential : Credential) (confirmLastMember : Bool)
    (codes : List String) : Route := do
  checked (requireWriteAccess server "Leaving a workspace")
  let db ← current
  let actor ← checked (requireWorkspaceActor db credential)
  let actor ← checked (lockWorkspace db actor false)
  let others := (activeMembers db actor.workspaceId).filter (·.id ≠ actor.id)
  refuseIf (others = [] ∧ ¬ confirmLastMember)
    ⟨409, "You're the last member. Leaving locks this workspace's picklists, pit notes and" ++
      " rooms for good."⟩
  refuseIf (actor.role = .leader ∧ others ≠ [] ∧ countActiveLeaders db actor.workspaceId ≤ 1)
    ⟨409, "Make someone else a leader before you leave."⟩
  change (·.updateMember actor.id fun m =>
    { m with removed := true, removedByMemberId := some actor.id })
  change (releaseScoutRoomRoles server actor.workspaceId actor.displayName)
  if others = [] then
    change (·.updateWorkspace actor.workspaceId fun w => { w with isLocked := true })
    let joinCodeHash ← checked (issueJoinCode server db codes)
    change (·.updateWorkspace actor.workspaceId fun w => { w with joinCodeHash := joinCodeHash })
  commit

/-- The recovery of a workspace whose leaders are all gone; `adminAccess` is the answer to the
request's admin key. -/
def adminRotateJoinCode (server : Server) (adminAccess : Except HTTPException Unit)
    (workspaceId : Nat) (codes : List String) : Route := do
  checked adminAccess
  checked (requireWriteAccess server "Workspace join code recovery")
  let db ← current
  let workspace ← checked <|
    match db.workspaces.find? (·.id = workspaceId) with
    | some workspace => .ok workspace
    | none => .error ⟨404, "Workspace not found"⟩
  refuseIf workspace.isLocked
    ⟨409, "This workspace is locked; its rows must be reassigned in the database."⟩
  let joinCodeHash ← checked (issueJoinCode server db codes)
  change (·.updateWorkspace workspace.id fun w => { w with joinCodeHash := joinCodeHash })
  commit

end Frcmob.Workspaces
