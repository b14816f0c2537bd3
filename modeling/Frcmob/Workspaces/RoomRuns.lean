import Frcmob.Workspaces.RoomRights

/-!
Runs of requests on members and rooms, in any order of their steps. The rights in the rooms stay
with members in every run in which whoever is written as an owner still goes by the name; a
request that opens a room does not see to it.
-/

namespace Frcmob.Workspaces
open Sessions Request Transition

/-! ### Writes to rooms -/

section Writes
variable {server : Server} {db : WorkspaceDb}

theorem room_eq_none {roomKey : String} (h : db.room roomKey = none) :
    ∀ room ∈ db.rooms, room.roomKey ≠ roomKey := by
  intro room hroom
  simpa using List.find?_eq_none.mp h room hroom

theorem RoomsKept.insertRoom (h : RoomsKept server db) {room : ScoutingRoom}
    (hkey : db.room room.roomKey = none)
    (howner : IsActiveName server db room.workspaceId (room.createdBy.getD "")) :
    RoomsKept server { db with rooms := db.rooms ++ [room] } := by
  have hfresh := room_eq_none hkey
  constructor
  case led => exact h.led.congr rfl rfl
  case names => exact h.names
  case norms => exact h.norms
  case rights =>
    constructor
    · intro r hr
      cases List.mem_append.mp hr with
      | inl hr => exact h.rights.owners r hr
      | inr hr =>
          rw [List.mem_singleton.mp hr]
          exact howner
    · intro leader hleader r hr hin
      cases List.mem_append.mp hr with
      | inl hr => exact h.rights.leaders leader hleader r hr hin
      | inr hr =>
          obtain ⟨old, hold, hkeys⟩ := h.rooms leader hleader
          rw [List.mem_singleton.mp hr] at hin
          exact absurd (hkeys.trans hin.symm) (hfresh old hold)
  case rooms =>
    intro leader hleader
    obtain ⟨old, hold, hkeys⟩ := h.rooms leader hleader
    exact ⟨old, List.mem_append_left _ hold, hkeys⟩
  case keys =>
    refine List.pairwise_append.mpr ⟨h.keys, List.pairwise_singleton _ _, fun r hr r' hr' => ?_⟩
    rw [List.mem_singleton.mp hr']
    exact hfresh r hr

theorem RoomsKept.updateRoom (h : RoomsKept server db) {roomKey : String} {change : RoomChange}
    (howner : ∀ r ∈ db.rooms, r.roomKey = roomKey → ∀ name, change.createdBy = some name →
      IsActiveName server db r.workspaceId name) :
    RoomsKept server { db with rooms := db.rooms.map fun room =>
      if room.roomKey = roomKey then change.apply room else room } := by
  refine h.mapRooms (h.led.congr rfl rfl) h.names (fun r => ?_) rfl (fun r hr => ?_)
    fun leader hleader => ⟨h.norms leader hleader, h.rooms leader hleader,
      h.rights.leaders leader hleader⟩
  · split
    · exact ⟨rfl, rfl⟩
    · exact ⟨rfl, rfl⟩
  · split
    next hin =>
      cases hname : change.createdBy with
      | none =>
          have hkept : (change.apply r).createdBy = r.createdBy := by simp [RoomChange.apply, hname]
          rw [hkept]
          exact h.rights.owners r hr
      | some name =>
          have hset : (change.apply r).createdBy = some name := by simp [RoomChange.apply, hname]
          rw [hset]
          exact howner r hr hin name hname
    · exact h.rights.owners r hr

theorem RoomsKept.setLeaders (h : RoomsKept server db) {rows : List ScoutingRoomLeader}
    (hrows : ∀ leader ∈ rows, leader ∈ db.roomLeaders ∨
      (leader.scoutProfileNorm = normalizeScoutProfileLookup server leader.scoutProfile ∧
        ∃ room ∈ db.rooms, room.roomKey = leader.roomKey ∧
          IsActiveName server db room.workspaceId leader.scoutProfile)) :
    RoomsKept server { db with roomLeaders := rows } := by
  refine h.mapRooms (g := id) (h.led.congr rfl rfl) h.names (fun _ => ⟨rfl, rfl⟩)
    (List.map_id _).symm h.rights.owners fun leader hleader => ?_
  cases hrows leader hleader with
  | inl hold =>
      exact ⟨h.norms leader hold, h.rooms leader hold, h.rights.leaders leader hold⟩
  | inr hnew =>
      obtain ⟨hnorm, room, hroom, hkey, hactive⟩ := hnew
      refine ⟨hnorm, ⟨room, hroom, hkey⟩, fun r hr hin => ?_⟩
      rw [h.room_unique hr hroom (hin.trans hkey.symm)]
      exact hactive

end Writes

/-! ### Requests under way -/

/-- The member whose row the visit read is still in the workspace, under the name read. -/
def StillNamed (server : Server) (db : WorkspaceDb) (visit : Visit) : Prop :=
  ∃ m ∈ activeMembers db visit.workspaceId, m.id = visit.memberId ∧
    normalizeScoutProfile server m.displayName = visit.scoutProfile

def RoomWrite.owner : RoomWrite → Option String
  | .insert room => room.createdBy
  | .update _ change => change.createdBy

def Pending.OwnerNamed (server : Server) (db : WorkspaceDb) : Pending → Prop
  | .write v w => w.owner ≠ none → StillNamed server db v
  | .visit _ | .promotion _ => True

/-- A step that writes an owner finds the member as the request read it. -/
def OwnerStillNamed (server : Server) (s : RoomState) : RoomAction → Prop
  | .proceed i => ∀ p ∈ s.pending[i]?, p.OwnerNamed server s.db
  | _ => True

def RoomIn (db : WorkspaceDb) (roomKey : String) (workspaceId : Nat) : Prop :=
  ∃ room ∈ db.rooms, room.roomKey = roomKey ∧ room.workspaceId = workspaceId

/-- What a pending request is going to write comes from what it read. -/
def Pending.Sound (server : Server) (db : WorkspaceDb) : Pending → Prop
  | .visit _ => True
  | .write v (.insert room) =>
      room.workspaceId = v.workspaceId ∧
        room.createdBy = some (normalizeScoutProfile server v.scoutProfile)
  | .write v (.update roomKey change) =>
      RoomIn db roomKey v.workspaceId ∧ ∀ name, change.createdBy = some name →
        name = normalizeScoutProfile server v.scoutProfile
  | .promotion p =>
      RoomIn db p.roomKey p.actor.workspaceId ∧
        ∃ raw, p.targetProfile = normalizeScoutProfile server raw

section Steps
variable {server : Server} {db db' : WorkspaceDb}

theorem RoomsStay.roomIn (h : RoomsStay db db') {roomKey : String} {workspaceId : Nat}
    (hin : RoomIn db roomKey workspaceId) : RoomIn db' roomKey workspaceId := by
  obtain ⟨room, hroom, hkey, hworkspace⟩ := hin
  obtain ⟨room', hroom', hkey', hworkspace'⟩ := h room hroom
  exact ⟨room', hroom', hkey'.trans hkey, hworkspace'.trans hworkspace⟩

theorem Pending.Sound.stay {p : Pending} (h : p.Sound server db) (hstay : RoomsStay db db') :
    p.Sound server db' := by
  cases p with
  | visit => exact h
  | promotion => exact ⟨hstay.roomIn h.1, h.2⟩
  | write visit write =>
      cases write with
      | insert => exact h
      | update => exact ⟨hstay.roomIn h.1, h.2⟩

theorem StillNamed.isActiveName {visit : Visit} (h : RoomsKept server db)
    (hnamed : StillNamed server db visit) : IsActiveName server db visit.workspaceId
      (normalizeScoutProfile server visit.scoutProfile) := by
  obtain ⟨m, hm, _, hprofile⟩ := hnamed
  have hname := h.names m (mem_activeMembers.mp hm).1
  refine .inr ⟨m, hm, ?_⟩
  rw [← hprofile, hname.profile_fixed, lookup_profile hname]

theorem room_some {roomKey : String} {room : ScoutingRoom} (h : db.room roomKey = some room) :
    room ∈ db.rooms ∧ room.roomKey = roomKey :=
  ⟨List.mem_of_find?_eq_some h, by simpa using List.find?_some h⟩

theorem loadRoomOr404_ok {roomKey : String} {workspaceId : Nat} {room : ScoutingRoom}
    (h : loadRoomOr404 db roomKey workspaceId = .ok room) :
    room ∈ db.rooms ∧ room.roomKey = roomKey ∧ room.workspaceId = workspaceId := by
  unfold loadRoomOr404 at h
  split at h
  next found hfound =>
    cases h
    obtain ⟨hroom, hworkspace⟩ := Option.filter_eq_some_iff.mp hfound
    exact ⟨(room_some hroom).1, (room_some hroom).2, by simpa using hworkspace⟩
  next => cases h

theorem roomChange_owner {visit : Visit} {room : ScoutingRoom} {name : String}
    (h : (roomChange server db visit room).createdBy = some name) :
    name = normalizeScoutProfile server visit.scoutProfile := by
  simp only [roomChange] at h
  split at h
  · exact (Option.some.inj h).symm
  · cases h

theorem readRoom_sound {visit : Visit} {write : RoomWrite}
    (h : readRoom server db visit = .ok write) : (Pending.write visit write).Sound server db := by
  unfold readRoom at h
  split at h
  · unfold upsertRoom at h
    split at h
    next room hroom =>
      split at h
      · cases h
      next hworkspace =>
        cases h
        refine ⟨⟨room, (room_some hroom).1, rfl, ?_⟩, fun name => roomChange_owner⟩
        simpa using hworkspace
    next =>
      cases h
      exact ⟨rfl, rfl⟩
  · cases hroom : loadRoomOr404 db visit.roomKey visit.workspaceId with
    | error e => simp [syncRoomMetadataForJoin, hroom, bind, Except.bind] at h
    | ok room =>
        simp only [syncRoomMetadataForJoin, hroom, bind, Except.bind] at h
        split at h
        · cases h
        · cases h
          obtain ⟨hmem, _, hworkspace⟩ := loadRoomOr404_ok hroom
          exact ⟨⟨room, hmem, rfl, hworkspace⟩, fun name => roomChange_owner⟩

theorem commitRoom_kept (h : RoomsKept server db) {visit : Visit} {write : RoomWrite}
    (hsound : (Pending.write visit write).Sound server db)
    (howner : write.owner ≠ none → StillNamed server db visit)
    (hcommit : commitRoom db write = .ok db') : RoomsKept server db' ∧ RoomsStay db db' := by
  cases write with
  | insert room =>
      simp only [commitRoom] at hcommit
      split at hcommit
      · cases hcommit
      next hfresh =>
        cases hcommit
        have hnamed := howner (by simp [RoomWrite.owner, hsound.2])
        refine ⟨h.insertRoom (by simpa using hfresh) ?_, fun r hr =>
          ⟨r, List.mem_append_left _ hr, rfl, rfl⟩⟩
        rw [hsound.1, hsound.2]
        exact hnamed.isActiveName h
  | update roomKey change =>
      cases hcommit
      refine ⟨h.updateRoom fun r hr hkey name hname => ?_, roomsStay_map (fun r => ?_) rfl⟩
      · obtain ⟨room, hroom, hkey', hworkspace⟩ := hsound.1
        have hnamed := howner (by simp [RoomWrite.owner, hname])
        rw [h.room_unique hr hroom (hkey.trans hkey'.symm), hworkspace, hsound.2 name hname]
        exact hnamed.isActiveName h
      · split
        · exact ⟨rfl, rfl⟩
        · exact ⟨rfl, rfl⟩

theorem scoutProfilesMatch_iff {left right : String} :
    scoutProfilesMatch server left right = true ↔
      normalizeScoutProfileLookup server left ≠ "" ∧
        normalizeScoutProfileLookup server left = normalizeScoutProfileLookup server right := by
  simp only [scoutProfilesMatch, decide_eq_true_eq]
  constructor
  · exact fun h => ⟨h.1, h.2.2⟩
  · exact fun h => ⟨h.1, h.2 ▸ h.1, h.2⟩

theorem upsertRoomSecondaryLeader_kept (h : RoomsKept server db) {roomKey raw addedBy : String}
    {workspaceId : Nat} (hin : RoomIn db roomKey workspaceId)
    (hactive : IsActiveName server db workspaceId (normalizeScoutProfile server raw))
    (hupsert : upsertRoomSecondaryLeader server db roomKey raw addedBy = .ok db') :
    RoomsKept server db' ∧ RoomsStay db db' := by
  obtain ⟨room, hroom, hkey, hworkspace⟩ := hin
  rw [← hworkspace] at hactive
  simp only [upsertRoomSecondaryLeader] at hupsert
  split at hupsert
  · cases hupsert
  · split at hupsert
    · cases hupsert
    · split at hupsert
      · cases hupsert
        refine ⟨h.setLeaders fun leader hleader => ?_, roomsStay_of_eq rfl⟩
        obtain ⟨before, hbefore, rfl⟩ := List.mem_map.mp hleader
        split
        · exact .inr ⟨rfl, room, hroom, hkey, hactive⟩
        · exact .inl hbefore
      · cases hupsert
        refine ⟨h.setLeaders fun leader hleader => ?_, roomsStay_of_eq rfl⟩
        cases List.mem_append.mp hleader with
        | inl hbefore => exact .inl hbefore
        | inr hnew =>
            rw [List.mem_singleton.mp hnew]
            exact .inr ⟨rfl, room, hroom, hkey, hactive⟩

theorem finishPromotion_kept (h : RoomsKept server db) {promotion : Promotion}
    (hsound : (Pending.promotion promotion).Sound server db)
    (hfinish : finishPromotion server db promotion = .ok db') :
    RoomsKept server db' ∧ RoomsStay db db' := by
  unfold finishPromotion at hfinish
  split at hfinish
  · cases hfinish
  · split at hfinish
    · cases hfinish
    next hnone =>
      refine upsertRoomSecondaryLeader_kept h hsound.1 ?_ hfinish
      obtain ⟨raw, hraw⟩ := hsound.2
      simp only [decide_not, List.all_eq_true, Bool.not_eq_true', decide_eq_false_iff_not,
        not_forall, Decidable.not_not] at hnone
      obtain ⟨m, hm, hmatch⟩ := hnone
      refine .inr ⟨m, hm, ?_⟩
      rw [← (scoutProfilesMatch_iff.mp hmatch).2]
      exact congrArg server.lower (by rw [hraw, normalizeScoutProfile_thrice])

theorem createTeamRoom_kept (h : RoomsKept server db) {credential : Credential}
    {eventKey generatedKey : String}
    (hcreate : createTeamRoom server db credential eventKey generatedKey = .ok db') :
    RoomsKept server db' ∧ RoomsStay db db' := by
  unfold createTeamRoom at hcreate
  cases haccess : requireWriteAccess server "Joining your team's scouting room" with
  | error e => simp [haccess, bind, Except.bind] at hcreate
  | ok =>
      cases hactor : requireWorkspaceActor db credential with
      | error e => simp [haccess, hactor, bind, Except.bind] at hcreate
      | ok actor =>
          simp only [haccess, hactor, bind, Except.bind] at hcreate
          split at hcreate
          · cases hcreate
          · split at hcreate
            · cases hcreate
              exact ⟨h, roomsStay_of_eq rfl⟩
            · simp only [commitRoom] at hcreate
              split at hcreate
              · cases hcreate
              next hfresh =>
                cases hcreate
                refine ⟨h.insertRoom (by simpa using hfresh) ?_, fun r hr =>
                  ⟨r, List.mem_append_left _ hr, rfl, rfl⟩⟩
                obtain ⟨hmem, hactive⟩ := requireWorkspaceActor_ok hactor
                by_cases hrole : actor.role = .leader
                · simp only [hrole, if_true, Option.getD_some]
                  exact .inr ⟨actor, mem_activeMembers.mpr ⟨hmem, rfl, hactive⟩, rfl⟩
                · simp only [hrole, if_false, Option.getD_none]
                  exact isActiveName_empty _

theorem startPromotion_sound {request : PromoteRequest} {promotion : Promotion}
    (h : startPromotion server db request = .ok promotion) :
    (Pending.promotion promotion).Sound server db := by
  unfold startPromotion at h
  cases haccess : requireWriteAccess server "Scouting room leader promote" with
  | error e => simp [haccess, bind, Except.bind] at h
  | ok =>
      cases hactor : requireWorkspaceActor db request.credential with
      | error e => simp [haccess, hactor, bind, Except.bind] at h
      | ok actor =>
          cases hroom : loadRoomOr404 db request.roomKey actor.workspaceId with
          | error e => simp [haccess, hactor, hroom, bind, Except.bind] at h
          | ok room =>
              obtain ⟨hmem, _, hworkspace⟩ := loadRoomOr404_ok hroom
              simp only [haccess, hactor, hroom, bind, Except.bind] at h
              repeat' split at h
              all_goals cases h
              exact ⟨⟨room, hmem, rfl, hworkspace⟩, request.scoutProfile, rfl⟩

/-- The next step of a pending request keeps the rows, and what is left of it is sound. -/
theorem proceed_kept (h : RoomsKept server db) {p : Pending} (hsound : p.Sound server db)
    (howner : p.OwnerNamed server db) :
    RoomsKept server (proceed server db p).1 ∧ RoomsStay db (proceed server db p).1 ∧
      ∀ q ∈ (proceed server db p).2, q.Sound server (proceed server db p).1 := by
  cases p with
  | visit visit =>
      simp only [proceed]
      split
      next write hread =>
        refine ⟨h, roomsStay_of_eq rfl, fun q hq => ?_⟩
        rw [List.mem_singleton.mp hq]
        exact readRoom_sound hread
      next => exact ⟨h, roomsStay_of_eq rfl, by simp⟩
  | write visit write =>
      simp only [proceed]
      cases hcommit : commitRoom db write with
      | error e => exact ⟨h, roomsStay_of_eq rfl, by simp⟩
      | ok next =>
          have hkept := commitRoom_kept h hsound howner hcommit
          exact ⟨hkept.1, hkept.2, by simp⟩
  | promotion promotion =>
      simp only [proceed]
      cases hfinish : finishPromotion server db promotion with
      | error e => exact ⟨h, roomsStay_of_eq rfl, by simp⟩
      | ok next =>
          have hkept := finishPromotion_kept h hsound hfinish
          exact ⟨hkept.1, hkept.2, by simp⟩

end Steps

/-! ### Runs -/

structure RoomInv (server : Server) (s : RoomState) : Prop where
  kept : RoomsKept server s.db
  sound : ∀ p ∈ s.pending, p.Sound server s.db

section Runs
variable {server : Server} {s t : RoomState}

theorem RoomInv.setDb (h : RoomInv server s) {db' : WorkspaceDb}
    (hkept : RoomsKept server db' ∧ RoomsStay s.db db') : RoomInv server { s with db := db' } :=
  ⟨hkept.1, fun p hp => (h.sound p hp).stay hkept.2⟩

theorem RoomInv.await (h : RoomInv server s) {started : Except HTTPException Pending}
    (hstarted : ∀ p, started = .ok p → p.Sound server s.db) : RoomInv server (s.await started) := by
  refine ⟨h.kept, fun p hp => ?_⟩
  cases List.mem_append.mp hp with
  | inl hp => exact h.sound p hp
  | inr hp =>
      cases started with
      | error e => simp [Except.toOption] at hp
      | ok q =>
          simp only [Except.toOption, Option.toList_some, List.mem_singleton] at hp
          exact hstarted p (by rw [hp])

theorem RoomInv.step (h : RoomInv server s) {action : RoomAction}
    (hok : OwnerStillNamed server s action) (hstep : roomStep server s action = some t) :
    RoomInv server t := by
  cases action with
  | request request =>
      cases hstep
      cases answer_changes server s.db request with
      | inl hchange => exact h.setDb (hchange.roomsKept h.kept)
      | inr hsame =>
          rw [hsame]
          exact h
  | openRoom request =>
      cases hstep
      refine h.await fun p hp => ?_
      cases hvisit : startVisit server s.db request with
      | error e => simp [hvisit] at hp
      | ok visit =>
          simp only [hvisit, Except.map_ok] at hp
          cases hp
          exact True.intro
  | openSocket request scoutProfile roomAccess =>
      cases hstep
      refine h.await fun p hp => ?_
      cases hvisit : startSocket server s.db request scoutProfile roomAccess with
      | error e => simp [hvisit] at hp
      | ok visit =>
          simp only [hvisit, Except.map_ok] at hp
          cases hp
          exact True.intro
  | promote request =>
      cases hstep
      refine h.await fun p hp => ?_
      cases hpromotion : startPromotion server s.db request with
      | error e => simp [hpromotion] at hp
      | ok promotion =>
          simp only [hpromotion, Except.map_ok] at hp
          cases hp
          exact startPromotion_sound hpromotion
  | teamRoom credential eventKey generatedKey =>
      cases hstep
      cases hcreate : createTeamRoom server s.db credential eventKey generatedKey with
      | error e => exact h
      | ok db' => exact h.setDb (createTeamRoom_kept h.kept hcreate)
  | proceed i =>
      simp only [roomStep] at hstep
      cases hp : s.pending[i]? with
      | none => simp [hp] at hstep
      | some p =>
          simp only [hp, Option.some.injEq] at hstep
          subst hstep
          have hkept := proceed_kept h.kept (h.sound p (List.mem_of_getElem? hp)) (hok p hp)
          refine ⟨hkept.1, fun q hq => ?_⟩
          cases List.mem_append.mp hq with
          | inl hq => exact (h.sound q ((List.eraseIdx_sublist ..).subset hq)).stay hkept.2.1
          | inr hq => exact hkept.2.2 q hq

end Runs

instance (server : Server) (db : WorkspaceDb) (visit : Visit) :
    Decidable (StillNamed server db visit) :=
  inferInstanceAs (Decidable (∃ m ∈ activeMembers db visit.workspaceId, _))

instance (server : Server) (db : WorkspaceDb) : ∀ p, Decidable (Pending.OwnerNamed server db p)
  | .write v w => inferInstanceAs (Decidable (w.owner ≠ none → StillNamed server db v))
  | .visit _ | .promotion _ => isTrue True.intro

instance (server : Server) (s : RoomState) : ∀ action, Decidable (OwnerStillNamed server s action)
  | .proceed i => inferInstanceAs (Decidable (∀ p ∈ s.pending[i]?, p.OwnerNamed server s.db))
  | .request _ | .openRoom _ | .openSocket .. | .promote _ | .teamRoom .. => isTrue True.intro

instance (server : Server) (db : WorkspaceDb) (workspaceId : Nat) (name : String) :
    Decidable (IsActiveName server db workspaceId name) :=
  inferInstanceAs (Decidable (_ ∨ ∃ m ∈ activeMembers db workspaceId, _))

def adaAndBo : List RoomAction := [
  .request (.create ⟨"Team 1", some 1, "Ada", .ok (), .ok true, ["0123456789"], "a"⟩),
  .request (.join "0123456789" "Bo" "b"),
  .openRoom ⟨.token "b" 1, "", true, none, none, "room-1"⟩]

def ownerRenamed : RoomState where
  db := {
    workspaces := [⟨1, "Team 1", some 1, "frcmob-join:0123456789", false⟩]
    members := [
      { id := 1, workspaceId := 1, memberKey := "a", displayName := "Ada", role := .leader },
      { id := 2, workspaceId := 1, memberKey := "b", displayName := "Bea", role := .member }]
    rooms := [⟨"room-1", 1, none, none, none, some "Bea"⟩]
    roomLeaders := [⟨"room-1", "ada", "ada", "Bea", "bea"⟩]
    nextWorkspaceId := 2
    nextMemberId := 3 }

def boRemoved : RoomState where
  db := {
    workspaces := [⟨1, "Team 1", some 1, "frcmob-join:0123456789", false⟩]
    members := [
      { id := 1, workspaceId := 1, memberKey := "a", displayName := "Ada", role := .leader },
      { id := 2, workspaceId := 1, memberKey := "b", displayName := "Bo", role := .member,
        removed := true, removedByMemberId := some 1 }]
    rooms := [⟨"room-1", 1, none, none, none, some "Bo"⟩]
    nextWorkspaceId := 2
    nextMemberId := 3 }

/-- Whoever joins under the name next has the room. -/
example : resolveRoomRole asciiServer ⟨"room-1", 1, none, none, none, some "Bo"⟩ "bo" [] false =
    .owner := by
  decide +kernel

end Frcmob.Workspaces
