import Mathlib.Data.List.Pairwise
import Frcmob.Lib.Transition
import Frcmob.Workspaces.Changes

/-!
Every workspace with members has a leader, and no two of its members have the same name, over
every run of requests, granted or refused.
-/

namespace Frcmob.Workspaces
open Sessions Request Transition

/-- `setLocked` is not a route: operators lock and unlock rows in the database. -/
inductive WorkspaceRequest
  | create (body : WorkspaceCreateRequest)
  | join (joinCode displayName memberKey : String)
  | update (credential : Credential) (body : WorkspaceUpdateRequest)
  | updateProfile (credential : Credential) (displayName : String)
  | rotateCode (credential : Credential) (codes : List String)
  | remove (credential : Credential) (memberId : Nat) (rotate : Bool) (codes : List String)
  | setRole (credential : Credential) (memberId : Nat) (role : String)
  | leave (credential : Credential) (confirmLastMember : Bool) (codes : List String)
  | adminRotate (adminAccess : Except HTTPException Unit) (workspaceId : Nat) (codes : List String)
  | setLocked (workspaceId : Nat) (isLocked : Bool)

def route (server : Server) : WorkspaceRequest → Route
  | .create body => createWorkspace server body
  | .join joinCode displayName memberKey => joinWorkspace server joinCode displayName memberKey
  | .update credential body => updateWorkspace server credential body
  | .updateProfile credential displayName => updateMyProfile server credential displayName
  | .rotateCode credential codes => rotateJoinCode server credential codes
  | .remove credential memberId rotate codes => removeMember server credential memberId rotate codes
  | .setRole credential memberId role => setMemberRole server credential memberId role
  | .leave credential confirmLastMember codes =>
      leaveWorkspace server credential confirmLastMember codes
  | .adminRotate adminAccess workspaceId codes =>
      adminRotateJoinCode server adminAccess workspaceId codes
  | .setLocked workspaceId isLocked => do
      change (·.updateWorkspace workspaceId fun w => { w with isLocked := isLocked })
      commit

/-- The rows after a request, and how it is answered. -/
def answer (server : Server) (db : WorkspaceDb) (request : WorkspaceRequest) :
    WorkspaceDb × Except HTTPException PUnit :=
  perform (route server request) db

def workspaceSystem (server : Server) : System WorkspaceDb WorkspaceRequest where
  start db := db.members = [] ∧ db.rooms = [] ∧ db.roomLeaders = []
  step db request := some (answer server db request).1

theorem route_changes (server : Server) (db : WorkspaceDb) (request : WorkspaceRequest) :
    (route server request).Changes server db := by
  cases request with
  | create body => exact createWorkspace_changes server db body
  | join joinCode displayName memberKey => exact joinWorkspace_changes server db ..
  | update credential body => exact updateWorkspace_changes server db ..
  | updateProfile credential displayName => exact updateMyProfile_changes server db ..
  | rotateCode credential codes => exact rotateJoinCode_changes server db ..
  | remove credential memberId rotate codes => exact removeMember_changes server db ..
  | setRole credential memberId role => exact setMemberRole_changes server db ..
  | leave credential confirmLastMember codes => exact leaveWorkspace_changes server db ..
  | adminRotate adminAccess workspaceId codes => exact adminRotateJoinCode_changes server db ..
  | setLocked workspaceId isLocked =>
      exact MembersChange.kept ((AgreeOnMembers.refl db).updateWorkspace ..)

theorem answer_changes (server : Server) (db : WorkspaceDb) (request : WorkspaceRequest) :
    MembersChange server db (answer server db request).1 ∨
      (answer server db request).1 = db := by
  refine perform_of_ensures (P := fun rows _ => MembersChange server db rows ∨ rows = db) ?_
  exact (route_changes server db request).mono (fun _ _ => .inl) fun _ _ => .inr

/-- A refused request commits nothing. -/
theorem answer_refused (server : Server) (db : WorkspaceDb) (request : WorkspaceRequest)
    (e : HTTPException) (h : (answer server db request).2 = .error e) :
    (answer server db request).1 = db := by
  revert h
  refine perform_of_ensures (P := fun rows reply => reply = .error e → rows = db) ?_
  exact (route_changes server db request).mono (fun _ _ _ h => by cases h) fun _ _ h _ => h

/-! ### The invariant -/

/-- Different members, with different names if both are in one workspace. -/
def Apart (server : Server) (m n : TeamWorkspaceMember) : Prop :=
  m.id ≠ n.id ∧ (m.workspaceId = n.workspaceId → m.removed = false → n.removed = false →
    server.casefold m.displayName ≠ server.casefold n.displayName)

theorem Apart.symm {server : Server} {m n : TeamWorkspaceMember} (h : Apart server m n) :
    Apart server n m :=
  ⟨h.1.symm, fun hw hn hm => (h.2 hw.symm hm hn).symm⟩

def IsLeader (workspaceId : Nat) (m : TeamWorkspaceMember) : Prop :=
  m.workspaceId = workspaceId ∧ m.removed = false ∧ m.role = .leader

structure Led (server : Server) (db : WorkspaceDb) : Prop where
  leader : ∀ m ∈ db.members, m.removed = false → ∃ l ∈ db.members, IsLeader m.workspaceId l
  apart : db.members.Pairwise (Apart server)
  fresh : ∀ m ∈ db.members, m.id < db.nextMemberId

section Rows
variable {server : Server} {db db' : WorkspaceDb}

theorem mem_leaders {workspaceId : Nat} {m : TeamWorkspaceMember} :
    m ∈ (activeMembers db workspaceId).filter (·.role = .leader) ↔
      m ∈ db.members ∧ IsLeader workspaceId m := by
  simp [mem_activeMembers, IsLeader, and_assoc]

theorem exists_leader {workspaceId : Nat} (h : countActiveLeaders db workspaceId ≠ 0) :
    ∃ l ∈ db.members, IsLeader workspaceId l := by
  obtain ⟨l, hl⟩ := List.exists_mem_of_length_pos (Nat.pos_of_ne_zero h)
  exact ⟨l, mem_leaders.mp hl⟩

theorem Led.apart_of_ne (h : Led server db) {m n : TeamWorkspaceMember} (hm : m ∈ db.members)
    (hn : n ∈ db.members) (hne : m ≠ n) : Apart server m n := by
  have : Std.Symm (Apart server) := ⟨fun _ _ => Apart.symm⟩
  exact h.apart.forall hm hn hne

theorem Led.eq_of_id (h : Led server db) {m n : TeamWorkspaceMember} (hm : m ∈ db.members)
    (hn : n ∈ db.members) (heq : m.id = n.id) : m = n := by
  by_contra hne
  exact (h.apart_of_ne hm hn hne).1 heq

/-- One of two leaders is not the member `id`. -/
theorem Led.exists_other_leader (h : Led server db) {workspaceId : Nat} (id : Nat)
    (hcount : 1 < countActiveLeaders db workspaceId) :
    ∃ l ∈ db.members, IsLeader workspaceId l ∧ l.id ≠ id := by
  have hids : ((activeMembers db workspaceId).filter (·.role = .leader)).Pairwise
      (Apart server) := (h.apart.filter _).filter _
  have hmem := fun m => @mem_leaders db workspaceId m
  unfold countActiveLeaders at hcount
  cases hleaders : (activeMembers db workspaceId).filter (·.role = .leader) with
  | nil => simp [hleaders] at hcount
  | cons a rest =>
      cases rest with
      | nil => simp [hleaders] at hcount
      | cons b rest =>
          rw [hleaders] at hids hmem
          have hne : a.id ≠ b.id := (List.rel_of_pairwise_cons hids List.mem_cons_self).1
          by_cases ha : a.id = id
          · have hb := (hmem b).mp (by simp)
            exact ⟨b, hb.1, hb.2, fun hb' => hne (ha.trans hb'.symm)⟩
          · have ha' := (hmem a).mp (by simp)
            exact ⟨a, ha'.1, ha'.2, ha⟩

theorem ensureDisplayNameFree_ok {workspaceId : Nat} {displayName : String}
    {exceptMemberId : Option Nat} {joining : Bool}
    (h : ensureDisplayNameFree server db workspaceId displayName exceptMemberId joining = .ok ()) :
    ∀ m ∈ db.members, m.workspaceId = workspaceId → m.removed = false →
      some m.id ≠ exceptMemberId → server.casefold m.displayName ≠ server.casefold displayName := by
  intro m hm hworkspace hactive hother hsame
  unfold ensureDisplayNameFree at h
  split at h
  · cases h
  next hnone =>
    have hfound := List.find?_eq_none.mp hnone m (mem_activeMembers.mpr ⟨hm, hworkspace, hactive⟩)
    simp [hother, hsame] at hfound

theorem Led.insertMember (h : Led server db) {workspaceId : Nat} {memberKey name : String}
    {role : Role} (hfree : ensureDisplayNameFree server db workspaceId name none true = .ok ())
    (hrole : role ≠ .leader → countActiveLeaders db workspaceId ≠ 0) :
    Led server (db.insertMember workspaceId memberKey name role) := by
  constructor
  case leader =>
    intro m hm hactive
    simp only [WorkspaceDb.insertMember, List.mem_append, List.mem_singleton] at hm ⊢
    cases hm with
    | inl hm =>
        obtain ⟨l, hl, hleader⟩ := h.leader m hm hactive
        exact ⟨l, .inl hl, hleader⟩
    | inr hm =>
        subst hm
        by_cases hleader : role = .leader
        · exact ⟨_, .inr rfl, rfl, rfl, hleader⟩
        · obtain ⟨l, hl, hl'⟩ := exists_leader (hrole hleader)
          exact ⟨l, .inl hl, hl'⟩
  case apart =>
    simp only [WorkspaceDb.insertMember, List.pairwise_append, List.mem_singleton,
      List.pairwise_singleton, true_and]
    refine ⟨h.apart, fun m hm n hn => ?_⟩
    subst hn
    refine ⟨Nat.ne_of_lt (h.fresh m hm), fun hworkspace hactive _ => ?_⟩
    exact ensureDisplayNameFree_ok hfree m hm hworkspace hactive (by simp)
  case fresh =>
    intro m hm
    simp only [WorkspaceDb.insertMember, List.mem_append, List.mem_singleton] at hm ⊢
    cases hm with
    | inl hm => exact Nat.lt_succ_of_lt (h.fresh m hm)
    | inr hm => simp [hm]

/-- A member's row is changed: its id and workspace stay, and it is not brought back. -/
structure RowChange (f : TeamWorkspaceMember → TeamWorkspaceMember) : Prop where
  id : ∀ m, (f m).id = m.id
  workspaceId : ∀ m, (f m).workspaceId = m.workspaceId
  active : ∀ m, (f m).removed = false → m.removed = false

/-- After the change of `t`, its workspace has a leader or no member. -/
def LeaderAfter (db : WorkspaceDb) (t changed : TeamWorkspaceMember) : Prop :=
  (∃ l ∈ db.members, IsLeader t.workspaceId l ∧ l.id ≠ t.id) ∨ IsLeader t.workspaceId changed ∨
    (changed.removed = true ∧ ∀ m ∈ activeMembers db t.workspaceId, m.id = t.id)

theorem Led.updateMember (h : Led server db) {t : TeamWorkspaceMember} (ht : t ∈ db.members)
    {f : TeamWorkspaceMember → TeamWorkspaceMember} (hf : RowChange f)
    (hname : ∀ n ∈ db.members, n.workspaceId = t.workspaceId → n.removed = false → n.id ≠ t.id →
      (f t).removed = false → server.casefold n.displayName ≠ server.casefold (f t).displayName)
    (hleader : LeaderAfter db t (f t)) : Led server (db.updateMember t.id f) := by
  have hchanged : ∀ m ∈ db.members, m.id = t.id → m = t := fun m hm => h.eq_of_id hm ht
  have hself : f t ∈ (db.updateMember t.id f).members :=
    List.mem_map.mpr ⟨t, ht, if_pos rfl⟩
  have hother : ∀ l ∈ db.members, l.id ≠ t.id → l ∈ (db.updateMember t.id f).members :=
    fun l hl hne => List.mem_map.mpr ⟨l, hl, if_neg hne⟩
  constructor
  case leader =>
    intro m' hm' hactive
    obtain ⟨m, hm, rfl⟩ := List.mem_map.mp hm'
    have hworkspace : (if m.id = t.id then f m else m).workspaceId = m.workspaceId := by
      split
      · exact hf.workspaceId m
      · rfl
    have hactive' : m.removed = false := by
      split at hactive
      · exact hf.active m hactive
      · exact hactive
    rw [hworkspace]
    by_cases hin : m.workspaceId = t.workspaceId
    · rw [hin]
      cases hleader with
      | inl hleader =>
          obtain ⟨l, hl, hleader, hne⟩ := hleader
          exact ⟨l, hother l hl hne, hleader⟩
      | inr hleader =>
          cases hleader with
          | inl hleader => exact ⟨f t, hself, hleader⟩
          | inr hlast =>
              have hid := hlast.2 m (mem_activeMembers.mpr ⟨hm, hin, hactive'⟩)
              rw [if_pos hid, hchanged m hm hid, hlast.1] at hactive
              cases hactive
    · obtain ⟨l, hl, hleader⟩ := h.leader m hm hactive'
      refine ⟨l, hother l hl fun hid => hin ?_, hleader⟩
      rw [← hleader.1, hchanged l hl hid]
  case apart =>
    refine List.pairwise_map.mpr (h.apart.imp_of_mem fun {a b} ha hb hab => ?_)
    have hids : ∀ m : TeamWorkspaceMember, (if m.id = t.id then f m else m).id = m.id := by
      intro m
      split
      · exact hf.id m
      · rfl
    refine ⟨by rw [hids, hids]; exact hab.1, ?_⟩
    by_cases hat : a.id = t.id
    · have hbt : b.id ≠ t.id := fun hbt => hab.1 (hat.trans hbt.symm)
      rw [if_pos hat, if_neg hbt, hchanged a ha hat, hf.workspaceId]
      intro hworkspace hactive hb'
      exact (hname b hb hworkspace.symm hb' hbt hactive).symm
    · by_cases hbt : b.id = t.id
      · rw [if_neg hat, if_pos hbt, hchanged b hb hbt, hf.workspaceId]
        exact fun hworkspace ha' hactive => hname a ha hworkspace ha' hat hactive
      · rw [if_neg hat, if_neg hbt]
        exact hab.2
  case fresh =>
    intro m' hm'
    obtain ⟨m, hm, rfl⟩ := List.mem_map.mp hm'
    split
    · rw [hf.id]
      exact h.fresh m hm
    · exact h.fresh m hm

theorem releaseScoutRoomRoles_members (workspaceId : Nat) (name : String) (db : WorkspaceDb) :
    (releaseScoutRoomRoles server workspaceId name db).members = db.members ∧
      (releaseScoutRoomRoles server workspaceId name db).nextMemberId = db.nextMemberId := by
  simp only [releaseScoutRoomRoles]
  split
  · exact ⟨rfl, rfl⟩
  · exact ⟨rfl, rfl⟩

theorem renameScoutInWorkspaceRooms_members (workspaceId : Nat) (old new : String)
    (db : WorkspaceDb) :
    (renameScoutInWorkspaceRooms server workspaceId old new db).members = db.members ∧
      (renameScoutInWorkspaceRooms server workspaceId old new db).nextMemberId =
        db.nextMemberId := by
  simp only [renameScoutInWorkspaceRooms]
  split
  · exact ⟨rfl, rfl⟩
  · exact ⟨rfl, rfl⟩

/-- The rows of members decide; those of rooms do not. -/
theorem Led.congr (h : Led server db) (hmembers : db'.members = db.members)
    (hnext : db'.nextMemberId = db.nextMemberId) : Led server db' := by
  refine ⟨?_, ?_, ?_⟩
  · rw [hmembers]
    exact h.leader
  · rw [hmembers]
    exact h.apart
  · rw [hmembers, hnext]
    exact h.fresh

/-- Another leader than `t`, if `t` is none or is one of two. -/
theorem Led.other_leader (h : Led server db) {t : TeamWorkspaceMember} (ht : t ∈ db.members)
    (hactive : t.removed = false)
    (hcount : t.role = .leader → 1 < countActiveLeaders db t.workspaceId) :
    ∃ l ∈ db.members, IsLeader t.workspaceId l ∧ l.id ≠ t.id := by
  by_cases hrole : t.role = .leader
  · exact h.exists_other_leader t.id (hcount hrole)
  · obtain ⟨l, hl, hleader⟩ := h.leader t ht hactive
    refine ⟨l, hl, hleader, fun hid => hrole ?_⟩
    rw [← h.eq_of_id hl ht hid]
    exact hleader.2.2

theorem Led.names_kept (h : Led server db) {t n : TeamWorkspaceMember} (ht : t ∈ db.members)
    (hactive : t.removed = false) (hn : n ∈ db.members) (hworkspace : n.workspaceId = t.workspaceId)
    (hn' : n.removed = false) (hne : n.id ≠ t.id) :
    server.casefold n.displayName ≠ server.casefold t.displayName :=
  (h.apart_of_ne hn ht fun heq => hne (congrArg _ heq)).2 hworkspace hn' hactive

/-- Every change of the members keeps the invariant. -/
theorem MembersChange.led (hchange : MembersChange server db db') (h : Led server db) :
    Led server db' := by
  cases hchange with
  | kept hagree => exact h.congr hagree.members hagree.nextMemberId
  | added _ hfree hrole hagree =>
      exact (h.insertMember hfree hrole).congr hagree.members hagree.nextMemberId
  | @renamed t _ name ht hactive _ hfree hagree =>
      have hrename : RowChange fun m : TeamWorkspaceMember => { m with displayName := name } :=
        ⟨fun _ => rfl, fun _ => rfl, fun _ => id⟩
      have hupdate : Led server (db.updateMember t.id fun m => { m with displayName := name }) := by
        apply h.updateMember ht hrename
        · intro n hn hworkspace hn' hne _
          exact ensureDisplayNameFree_ok hfree n hn hworkspace hn' (by simpa using hne)
        · obtain ⟨l, hl, hleader⟩ := h.leader t ht hactive
          by_cases hid : l.id = t.id
          · rw [h.eq_of_id hl ht hid] at hleader
            exact .inr (.inl hleader)
          · exact .inl ⟨l, hl, hleader, hid⟩
      have hrooms := @renameScoutInWorkspaceRooms_members server t.workspaceId
        t.displayName name db
      refine hupdate.congr ?_ ?_
      · rw [hagree.members, WorkspaceDb.renamed, WorkspaceDb.updateMember, hrooms.1,
          WorkspaceDb.updateMember]
      · rw [hagree.nextMemberId, WorkspaceDb.renamed, WorkspaceDb.updateMember, hrooms.2,
          WorkspaceDb.updateMember]
  | @roleSet t role ht hactive hcount hagree =>
      have hset : RowChange fun m : TeamWorkspaceMember => { m with role := role } :=
        ⟨fun _ => rfl, fun _ => rfl, fun _ => id⟩
      refine (h.updateMember ht hset ?_ ?_).congr hagree.members hagree.nextMemberId
      · intro n hn hworkspace hn' hne _
        have hkept := h.names_kept ht hactive hn hworkspace hn' hne
        exact hkept
      · by_cases hrole : role = .leader
        · exact .inr (.inl ⟨rfl, hactive, hrole⟩)
        · exact .inl (h.other_leader ht hactive fun hleader => hcount hleader hrole)
  | @removed t actorId ht hactive hcount hagree =>
      have hupdate : Led server (db.updateMember t.id fun m =>
          { m with removed := true, removedByMemberId := some actorId }) := by
        have hremove : RowChange fun m : TeamWorkspaceMember =>
            { m with removed := true, removedByMemberId := some actorId } :=
          ⟨fun _ => rfl, fun _ => rfl, fun _ hremoved => by cases hremoved⟩
        apply h.updateMember ht hremove
        · exact fun n _ _ _ _ hremoved => by cases hremoved
        · by_cases hlast : ∀ m ∈ activeMembers db t.workspaceId, m.id = t.id
          · exact .inr (.inr ⟨rfl, hlast⟩)
          · exact .inl (h.other_leader ht hactive fun hleader =>
              (hcount hleader).resolve_right hlast)
      have hrooms := @releaseScoutRoomRoles_members server t.workspaceId t.displayName
        (db.updateMember t.id fun m =>
          { m with removed := true, removedByMemberId := some actorId })
      exact hupdate.congr (hagree.members.trans hrooms.1) (hagree.nextMemberId.trans hrooms.2)

end Rows

/-- In every state reached: whoever is in a workspace has a leader there and a name of their
own, and a request that is refused changes no row. -/
theorem workspaces_led (server : Server) (db : WorkspaceDb)
    (h : Reachable (workspaceSystem server) db) :
    (∀ workspaceId, activeMembers db workspaceId ≠ [] →
      ∃ l ∈ activeMembers db workspaceId, l.role = .leader) ∧
    (∀ workspaceId, (activeMembers db workspaceId).Pairwise fun m n =>
      server.casefold m.displayName ≠ server.casefold n.displayName) ∧
    ∀ request e, (answer server db request).2 = .error e →
      (answer server db request).1 = db := by
  have hled : Led server db := by
    refine h.invariant (P := Led server) (fun s hs => ?_) fun s request t hs _ hstep => ?_
    · exact ⟨by simp [hs.1], by simp [hs.1], by simp [hs.1]⟩
    · cases hstep
      cases answer_changes server s request with
      | inl hchange => exact hchange.led hs
      | inr hsame => rwa [hsame]
  refine ⟨fun workspaceId hne => ?_, fun workspaceId => ?_, answer_refused server db⟩
  · obtain ⟨m, hm⟩ := List.exists_mem_of_ne_nil _ hne
    obtain ⟨hmem, hworkspace, hactive⟩ := mem_activeMembers.mp hm
    obtain ⟨l, hl, hleader⟩ := hled.leader m hmem hactive
    exact ⟨l, mem_activeMembers.mpr ⟨hl, hleader.1.trans hworkspace, hleader.2.1⟩, hleader.2.2⟩
  · refine (hled.apart.filter _).imp_of_mem fun {m n} hm hn hmn => ?_
    have hm' := mem_activeMembers.mp hm
    have hn' := mem_activeMembers.mp hn
    exact hmn.2 (hm'.2.1.trans hn'.2.1.symm) hm'.2.2 hn'.2.2

def handedOver : WorkspaceDb where
  workspaces := [⟨1, "Team 1", some 1, "frcmob-join:0123456789", false⟩]
  members := [
    { id := 1, workspaceId := 1, memberKey := "a", displayName := "Ada", role := .leader,
      removed := true, removedByMemberId := some 1 },
    { id := 2, workspaceId := 1, memberKey := "b", displayName := "Bo", role := .leader }]
  nextWorkspaceId := 2
  nextMemberId := 3

/-- The only leader may not leave before another member is one. -/
theorem workspaces_led_handedOver :
    (∀ workspaceId, activeMembers handedOver workspaceId ≠ [] →
      ∃ l ∈ activeMembers handedOver workspaceId, l.role = .leader) ∧
    (∀ workspaceId, (activeMembers handedOver workspaceId).Pairwise fun m n =>
      asciiServer.casefold m.displayName ≠ asciiServer.casefold n.displayName) ∧
    ∀ request e, (answer asciiServer handedOver request).2 = .error e →
      (answer asciiServer handedOver request).1 = handedOver :=
  workspaces_led asciiServer handedOver <| reachable_of_run
    [.create ⟨"Team 1", some 1, "Ada", .ok (), .ok true, ["0123456789"], "a"⟩,
     .join "0123456789" " ada" "b", .join "0123456789" "Bo" "b",
     .leave (.token "a" 1) false [], .setRole (.token "a" 1) 2 "Leader",
     .leave (.token "a" 1) false []]
    (s := {}) ⟨rfl, rfl, rfl⟩ (by decide +kernel)

end Frcmob.Workspaces
