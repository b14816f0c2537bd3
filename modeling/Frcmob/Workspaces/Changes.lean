import Frcmob.Workspaces.Members

/-!
What a route can do to the members of a workspace and to the rights in its rooms: five kinds of
change. Everything about runs of requests is derived from them.
-/

namespace Frcmob.Workspaces
open Sessions Request

/-- The same rows, but for the workspaces' own. -/
structure AgreeOnMembers (db db' : WorkspaceDb) : Prop where
  members : db'.members = db.members
  rooms : db'.rooms = db.rooms
  roomLeaders : db'.roomLeaders = db.roomLeaders
  nextMemberId : db'.nextMemberId = db.nextMemberId

def WorkspaceDb.renamed (server : Server) (db : WorkspaceDb) (t : TeamWorkspaceMember)
    (name : String) : WorkspaceDb :=
  (renameScoutInWorkspaceRooms server t.workspaceId t.displayName name db).updateMember t.id
    fun m => { m with displayName := name }

def WorkspaceDb.withoutMember (server : Server) (db : WorkspaceDb) (t : TeamWorkspaceMember)
    (actorId : Nat) : WorkspaceDb :=
  releaseScoutRoomRoles server t.workspaceId t.displayName <| db.updateMember t.id fun m =>
    { m with removed := true, removedByMemberId := some actorId }

inductive MembersChange (server : Server) (db : WorkspaceDb) : WorkspaceDb → Prop
  | kept {db' : WorkspaceDb} : AgreeOnMembers db db' → MembersChange server db db'
  | added {db' : WorkspaceDb} {workspaceId : Nat} {memberKey raw name : String} {role : Role} :
      normalizeDisplayName server raw = .ok name →
      ensureDisplayNameFree server db workspaceId name none true = .ok () →
      (role ≠ .leader → countActiveLeaders db workspaceId ≠ 0) →
      AgreeOnMembers (db.insertMember workspaceId memberKey name role) db' →
      MembersChange server db db'
  | renamed {db' : WorkspaceDb} {t : TeamWorkspaceMember} {raw name : String} :
      t ∈ db.members → t.removed = false → normalizeDisplayName server raw = .ok name →
      ensureDisplayNameFree server db t.workspaceId name (some t.id) false = .ok () →
      AgreeOnMembers (db.renamed server t name) db' → MembersChange server db db'
  | roleSet {db' : WorkspaceDb} {t : TeamWorkspaceMember} {role : Role} :
      t ∈ db.members → t.removed = false →
      (t.role = .leader → role ≠ .leader → 1 < countActiveLeaders db t.workspaceId) →
      AgreeOnMembers (db.updateMember t.id fun m => { m with role := role }) db' →
      MembersChange server db db'
  | removed {db' : WorkspaceDb} {t : TeamWorkspaceMember} {actorId : Nat} :
      t ∈ db.members → t.removed = false →
      (t.role = .leader → 1 < countActiveLeaders db t.workspaceId ∨
        ∀ m ∈ activeMembers db t.workspaceId, m.id = t.id) →
      AgreeOnMembers (db.withoutMember server t actorId) db' → MembersChange server db db'

/-- A route commits a change, or is refused and commits nothing. -/
def Route.Changes (server : Server) (db : WorkspaceDb) (x : Route) : Prop :=
  Ensures x ⟨db, db⟩ (fun _ s => MembersChange server db s.committed)
    fun _ s => s.committed = db

section Rows
variable {server : Server} {db db' : WorkspaceDb}

theorem AgreeOnMembers.refl (db : WorkspaceDb) : AgreeOnMembers db db :=
  ⟨rfl, rfl, rfl, rfl⟩

/-- What is done to a workspace's own row changes no member. -/
theorem AgreeOnMembers.updateWorkspace (h : AgreeOnMembers db db') (id : Nat)
    (f : TeamWorkspace → TeamWorkspace) : AgreeOnMembers db (db'.updateWorkspace id f) :=
  ⟨h.members, h.rooms, h.roomLeaders, h.nextMemberId⟩

theorem mem_activeMembers {workspaceId : Nat} {m : TeamWorkspaceMember} :
    m ∈ activeMembers db workspaceId ↔
      m ∈ db.members ∧ m.workspaceId = workspaceId ∧ m.removed = false := by
  simp [activeMembers]

theorem requireWorkspaceActor_ok {credential : Credential} {actor : TeamWorkspaceMember}
    (h : requireWorkspaceActor db credential = .ok actor) :
    actor ∈ db.members ∧ actor.removed = false := by
  unfold requireWorkspaceActor at h
  split at h
  next found hfound =>
    cases h
    cases credential with
    | none => cases hfound
    | malformed => cases hfound
    | token memberKey workspaceId =>
        simp only [resolveWorkspaceActor, Option.filter_eq_some_iff] at hfound
        have hremoved := hfound.2
        simp only [decide_eq_true_eq] at hremoved
        exact ⟨List.mem_of_find?_eq_some hfound.1, by simpa using hremoved.1⟩
  next =>
    split at h
    · cases h
    · cases h

theorem refresh_mem {m : TeamWorkspaceMember} (h : m ∈ db.members) : db.refresh m ∈ db.members := by
  unfold WorkspaceDb.refresh
  cases hfind : db.members.find? (·.id = m.id) with
  | none => exact h
  | some n => exact List.mem_of_find?_eq_some hfind

theorem lockWorkspace_ok {actor locked : TeamWorkspaceMember} {requireLeader : Bool}
    (hmem : actor ∈ db.members) (h : lockWorkspace db actor requireLeader = .ok locked) :
    locked ∈ db.members ∧ locked.removed = false := by
  simp only [lockWorkspace] at h
  split at h
  · cases h
  next hremoved =>
    split at h
    · cases h
    · cases h
      exact ⟨refresh_mem hmem, by simpa using hremoved⟩

theorem loadMemberInWorkspace_ok {actor m : TeamWorkspaceMember} {memberId : Nat}
    (h : loadMemberInWorkspace db actor memberId = .ok m) :
    m ∈ db.members ∧ m.workspaceId = actor.workspaceId ∧ m.removed = false := by
  unfold loadMemberInWorkspace at h
  split at h
  next found hfound =>
    split at h
    · cases h
    next hin =>
      cases h
      simp only [ne_eq, not_or, Decidable.not_not, Bool.not_eq_true] at hin
      exact ⟨List.mem_of_find?_eq_some hfound, hin.1, hin.2⟩
  next => cases h

end Rows

/-! ### The routes -/

section Routes
variable (server : Server) (db : WorkspaceDb)

theorem addMember_ensures {workspaceId : Nat} {memberKey raw name : String} {role : Role}
    {db' : WorkspaceDb} (hdb : AgreeOnMembers db db')
    (hname : normalizeDisplayName server raw = .ok name)
    (hrole : role ≠ .leader → countActiveLeaders db workspaceId ≠ 0) :
    Ensures (addMember server workspaceId memberKey name role) ⟨db, db'⟩
      (fun _ s => MembersChange server db s.rows) fun _ s => s.committed = db := by
  have hactive : activeMembers db' workspaceId = activeMembers db workspaceId := by
    rw [activeMembers, hdb.members, activeMembers]
  simp only [addMember, ensures_bind, ensures_checked, ensures_current, ensures_change,
    ensures_refuseIf, implies_true, true_and]
  intro _ _ hfree
  rw [ensureDisplayNameFree, hactive] at hfree
  have hinsert : AgreeOnMembers (db.insertMember workspaceId memberKey name role)
      (db'.insertMember workspaceId memberKey name role) := by
    refine ⟨?_, hdb.rooms, hdb.roomLeaders, ?_⟩
    · simp only [WorkspaceDb.insertMember, hdb.members, hdb.nextMemberId]
    · simp only [WorkspaceDb.insertMember, hdb.nextMemberId]
  exact .added hname hfree hrole hinsert

theorem createWorkspace_changes (body : WorkspaceCreateRequest) :
    (createWorkspace server body).Changes server db := by
  simp only [Route.Changes, createWorkspace, ensures_bind, ensures_checked, ensures_current,
    ensures_change, ensures_commit, ensures_refuseIf, implies_true, true_and]
  intro _ _ _ _ name hname _ _ _ _ _ _ _ hash _
  exact addMember_ensures server db ⟨rfl, rfl, rfl, rfl⟩ hname (by simp)

theorem joinWorkspace_changes (joinCode displayName memberKey : String) :
    (joinWorkspace server joinCode displayName memberKey).Changes server db := by
  simp only [Route.Changes, joinWorkspace, ensures_bind, ensures_checked, ensures_current,
    ensures_commit, implies_true, true_and]
  intro _ _ workspace _ name hname
  refine addMember_ensures server db (.refl db) hname fun hrole hcount => ?_
  rw [if_pos hcount] at hrole
  exact hrole rfl

theorem updateWorkspace_changes (credential : Credential) (body : WorkspaceUpdateRequest) :
    (updateWorkspace server credential body).Changes server db := by
  have hkept : ∀ {db' : WorkspaceDb} (id : Nat) (f : TeamWorkspace → TeamWorkspace),
      AgreeOnMembers db db' → MembersChange server db (db'.updateWorkspace id f) :=
    fun id f hdb => .kept (hdb.updateWorkspace id f)
  cases hname : body.name with
  | none =>
      simp only [Route.Changes, updateWorkspace, hname, ensures_bind, ensures_checked,
        ensures_current, ensures_change, ensures_commit, ensures_ite, implies_true, true_and]
      intro _ _ actor _
      refine ⟨fun _ => hkept _ _ (.refl db), fun _ => ⟨fun _ number _ => ?_, fun _ => ?_⟩⟩
      · exact hkept _ _ (.refl db)
      · exact .kept (.refl db)
  | some raw =>
      simp only [Route.Changes, updateWorkspace, hname, ensures_bind, ensures_checked,
        ensures_current, ensures_change, ensures_commit, ensures_ite, implies_true, true_and]
      intro _ _ actor _ name _
      have hrenamed := (AgreeOnMembers.refl db).updateWorkspace actor.workspaceId
        fun w => { w with name := name }
      refine ⟨fun _ => hkept _ _ hrenamed, fun _ => ⟨fun _ number _ => ?_, fun _ => ?_⟩⟩
      · exact hkept _ _ hrenamed
      · exact .kept hrenamed

theorem updateMyProfile_changes (credential : Credential) (displayName : String) :
    (updateMyProfile server credential displayName).Changes server db := by
  simp only [Route.Changes, updateMyProfile, ensures_bind, ensures_checked, ensures_current,
    ensures_change, ensures_commit, implies_true, true_and]
  intro _ _ actor hactor name hname locked hlocked _ hfree
  have hlock := lockWorkspace_ok (requireWorkspaceActor_ok hactor).1 hlocked
  exact .renamed hlock.1 hlock.2 hname hfree (.refl _)

theorem rotateJoinCode_changes (credential : Credential) (codes : List String) :
    (rotateJoinCode server credential codes).Changes server db := by
  simp only [Route.Changes, rotateJoinCode, ensures_bind, ensures_checked, ensures_current,
    ensures_change, ensures_commit, implies_true, true_and]
  intro _ _ actor _ hash _
  exact .kept ((AgreeOnMembers.refl db).updateWorkspace ..)

theorem removeMember_changes (credential : Credential) (memberId : Nat) (rotate : Bool)
    (codes : List String) :
    (removeMember server credential memberId rotate codes).Changes server db := by
  simp only [Route.Changes, removeMember, ensures_bind, ensures_checked, ensures_current,
    ensures_change, ensures_commit, ensures_refuseIf, ensures_ite, implies_true, true_and]
  intro _ _ actor _ _ locked _ member hmember hleader
  obtain ⟨hmem, hworkspace, hactive⟩ := loadMemberInWorkspace_ok hmember
  rw [← hworkspace] at hleader ⊢
  have hcount : member.role = .leader → 1 < countActiveLeaders db member.workspaceId ∨
      ∀ m ∈ activeMembers db member.workspaceId, m.id = member.id := fun hrole =>
    .inl (Nat.lt_of_not_le fun hle => hleader ⟨hrole, hle⟩)
  constructor
  · intro _ hash _
    exact .removed hmem hactive hcount ((AgreeOnMembers.refl _).updateWorkspace ..)
  · intro _
    exact .removed hmem hactive hcount (.refl _)

theorem setMemberRole_changes (credential : Credential) (memberId : Nat) (role : String) :
    (setMemberRole server credential memberId role).Changes server db := by
  simp only [Route.Changes, setMemberRole, ensures_bind, ensures_checked, ensures_current,
    ensures_change, ensures_commit, ensures_refuseIf, implies_true, true_and]
  intro _ _ actor _ newRole _ locked _ member hmember hleader
  obtain ⟨hmem, hworkspace, hactive⟩ := loadMemberInWorkspace_ok hmember
  rw [← hworkspace] at hleader
  exact .roleSet hmem hactive
    (fun hrole hnew => Nat.lt_of_not_le fun hle => hleader ⟨hrole, hnew, hle⟩) (.refl _)

theorem leaveWorkspace_changes (credential : Credential) (confirmLastMember : Bool)
    (codes : List String) :
    (leaveWorkspace server credential confirmLastMember codes).Changes server db := by
  simp only [Route.Changes, leaveWorkspace, ensures_bind, ensures_checked, ensures_current,
    ensures_change, ensures_commit, ensures_refuseIf, ensures_ite, implies_true, true_and]
  intro _ _ actor hactor locked hlocked _ hleader
  obtain ⟨hmem, hactive⟩ := lockWorkspace_ok (requireWorkspaceActor_ok hactor).1 hlocked
  have hothers : (activeMembers db locked.workspaceId).filter (·.id ≠ locked.id) = [] →
      ∀ m ∈ activeMembers db locked.workspaceId, m.id = locked.id := by
    intro hnil m hm
    simpa using List.filter_eq_nil_iff.mp hnil m hm
  have hcount : locked.role = .leader → 1 < countActiveLeaders db locked.workspaceId ∨
      ∀ m ∈ activeMembers db locked.workspaceId, m.id = locked.id := by
    intro hrole
    by_cases hnil : (activeMembers db locked.workspaceId).filter (·.id ≠ locked.id) = []
    · exact .inr (hothers hnil)
    · exact .inl (Nat.lt_of_not_le fun hle => hleader ⟨hrole, hnil, hle⟩)
  constructor
  · intro _ hash _
    exact .removed hmem hactive hcount
      (((AgreeOnMembers.refl _).updateWorkspace ..).updateWorkspace ..)
  · intro _
    exact .removed hmem hactive hcount (.refl _)

theorem adminRotateJoinCode_changes (adminAccess : Except HTTPException Unit) (workspaceId : Nat)
    (codes : List String) :
    (adminRotateJoinCode server adminAccess workspaceId codes).Changes server db := by
  simp only [Route.Changes, adminRotateJoinCode, ensures_bind, ensures_checked, ensures_current,
    ensures_change, ensures_commit, ensures_refuseIf, implies_true, true_and]
  intro _ _ _ _ workspace _ _ hash _
  exact .kept ((AgreeOnMembers.refl db).updateWorkspace ..)

end Routes

end Frcmob.Workspaces
