import Frcmob.Workspaces.Rooms

/-!
Rights in scouting rooms rest on names of current members. Removals and new names take the
rights along, under the lock of the workspace's row; a request that opens a room writes the name
that it read before, and is safe if the member still goes by it.
-/

namespace Frcmob.Workspaces
open Sessions Request Transition

def IsActiveName (server : Server) (db : WorkspaceDb) (workspaceId : Nat) (name : String) : Prop :=
  normalizeScoutProfile server name = "" ∨ ∃ m ∈ activeMembers db workspaceId,
    normalizeScoutProfileLookup server m.displayName = normalizeScoutProfileLookup server name

structure RightsHeld (server : Server) (db : WorkspaceDb) : Prop where
  owners : ∀ room ∈ db.rooms,
    IsActiveName server db room.workspaceId (room.createdBy.getD "")
  leaders : ∀ leader ∈ db.roomLeaders, ∀ room ∈ db.rooms, room.roomKey = leader.roomKey →
    IsActiveName server db room.workspaceId leader.scoutProfile

/-- The rows are as requests leave them. -/
structure RoomsKept (server : Server) (db : WorkspaceDb) : Prop where
  led : Led server db
  names : ∀ m ∈ db.members, IsDisplayName server m.displayName
  rights : RightsHeld server db
  norms : ∀ leader ∈ db.roomLeaders,
    leader.scoutProfileNorm = normalizeScoutProfileLookup server leader.scoutProfile
  rooms : ∀ leader ∈ db.roomLeaders, ∃ room ∈ db.rooms, room.roomKey = leader.roomKey
  keys : db.rooms.Pairwise fun a b => a.roomKey ≠ b.roomKey

/-- Rooms stay under their key and in their workspace. -/
def RoomsStay (db db' : WorkspaceDb) : Prop :=
  ∀ room ∈ db.rooms, ∃ room' ∈ db'.rooms,
    room'.roomKey = room.roomKey ∧ room'.workspaceId = room.workspaceId

section Names
variable {server : Server} {db db' : WorkspaceDb}

theorem lookup_profile {name : String} (h : IsDisplayName server name) :
    normalizeScoutProfileLookup server (normalizeScoutProfile server name) =
      normalizeScoutProfileLookup server name :=
  congrArg server.lower h.profile_fixed

theorem isActiveName_empty (workspaceId : Nat) : IsActiveName server db workspaceId "" :=
  .inl rfl

theorem IsActiveName.congr {workspaceId : Nat} {name : String}
    (h : IsActiveName server db workspaceId name) (hmembers : db'.members = db.members) :
    IsActiveName server db' workspaceId name := by
  rwa [IsActiveName, activeMembers, hmembers]

theorem IsActiveName.insertMember {workspaceId w : Nat} {name key displayName : String}
    {role : Role} (h : IsActiveName server db workspaceId name) :
    IsActiveName server (db.insertMember w key displayName role) workspaceId name := by
  cases h with
  | inl hempty => exact .inl hempty
  | inr hactive =>
      obtain ⟨m, hm, hname⟩ := hactive
      have hin := mem_activeMembers.mp hm
      exact .inr ⟨m, mem_activeMembers.mpr ⟨List.mem_append_left _ hin.1, hin.2⟩, hname⟩

/-- The change of `t` leaves every name active but its own in its workspace; and that too, if
`t` keeps it. -/
theorem IsActiveName.updateMember (hled : Led server db) {t : TeamWorkspaceMember}
    (ht : t ∈ db.members) {f : TeamWorkspaceMember → TeamWorkspaceMember} (hf : RowChange f)
    {workspaceId : Nat} {name : String} (h : IsActiveName server db workspaceId name)
    (hother : workspaceId ≠ t.workspaceId ∨
      normalizeScoutProfileLookup server name ≠ normalizeScoutProfileLookup server t.displayName ∨
      ((f t).removed = false ∧ (f t).displayName = t.displayName)) :
    IsActiveName server (db.updateMember t.id f) workspaceId name := by
  cases h with
  | inl hempty => exact .inl hempty
  | inr hactive =>
      obtain ⟨m, hm, hname⟩ := hactive
      obtain ⟨hmem, hworkspace, hremoved⟩ := mem_activeMembers.mp hm
      by_cases hid : m.id = t.id
      · have heq := hled.eq_of_id hmem ht hid
        subst heq
        have hkept := (hother.resolve_left fun hne => hne hworkspace.symm).resolve_left
          fun hne => hne hname.symm
        refine .inr ⟨f m, mem_activeMembers.mpr ⟨?_, ?_, hkept.1⟩, ?_⟩
        · exact List.mem_map.mpr ⟨m, hmem, if_pos rfl⟩
        · rw [hf.workspaceId, hworkspace]
        · rw [hkept.2, hname]
      · refine .inr ⟨m, mem_activeMembers.mpr ⟨?_, hworkspace, hremoved⟩, hname⟩
        exact List.mem_map.mpr ⟨m, hmem, if_neg hid⟩

theorem RoomsKept.room_unique (h : RoomsKept server db) {a b : ScoutingRoom} (ha : a ∈ db.rooms)
    (hb : b ∈ db.rooms) (hkey : a.roomKey = b.roomKey) : a = b := by
  by_contra hne
  have : Std.Symm fun a b : ScoutingRoom => a.roomKey ≠ b.roomKey := ⟨fun _ _ => Ne.symm⟩
  exact h.keys.forall ha hb hne hkey

/-- Rooms whose key and workspace stay, whatever else of them changes. -/
theorem RoomsKept.mapRooms (h : RoomsKept server db) (hled : Led server db')
    (hnames : ∀ m ∈ db'.members, IsDisplayName server m.displayName)
    {g : ScoutingRoom → ScoutingRoom}
    (hplace : ∀ r, (g r).roomKey = r.roomKey ∧ (g r).workspaceId = r.workspaceId)
    (hrooms : db'.rooms = db.rooms.map g)
    (howner : ∀ r ∈ db.rooms, IsActiveName server db' r.workspaceId ((g r).createdBy.getD ""))
    (hleader : ∀ leader ∈ db'.roomLeaders,
      leader.scoutProfileNorm = normalizeScoutProfileLookup server leader.scoutProfile ∧
      (∃ room ∈ db.rooms, room.roomKey = leader.roomKey) ∧
      ∀ r ∈ db.rooms, r.roomKey = leader.roomKey →
        IsActiveName server db' r.workspaceId leader.scoutProfile) :
    RoomsKept server db' := by
  refine ⟨hled, hnames, ⟨fun room hroom => ?_, fun leader hmem room hroom hin => ?_⟩,
    fun leader hmem => (hleader leader hmem).1, fun leader hmem => ?_, ?_⟩
  · rw [hrooms] at hroom
    obtain ⟨r, hr, rfl⟩ := List.mem_map.mp hroom
    rw [(hplace r).2]
    exact howner r hr
  · rw [hrooms] at hroom
    obtain ⟨r, hr, rfl⟩ := List.mem_map.mp hroom
    rw [(hplace r).1] at hin
    rw [(hplace r).2]
    exact (hleader leader hmem).2.2 r hr hin
  · obtain ⟨r, hr, hin⟩ := (hleader leader hmem).2.1
    rw [hrooms]
    exact ⟨g r, List.mem_map_of_mem hr, (hplace r).1.trans hin⟩
  · rw [hrooms]
    exact List.pairwise_map.mpr (h.keys.imp fun hne => by rwa [(hplace _).1, (hplace _).1])

theorem roomsStay_map {g : ScoutingRoom → ScoutingRoom}
    (hplace : ∀ r, (g r).roomKey = r.roomKey ∧ (g r).workspaceId = r.workspaceId)
    (hrooms : db'.rooms = db.rooms.map g) : RoomsStay db db' :=
  fun r hr => ⟨g r, hrooms ▸ List.mem_map_of_mem hr, hplace r⟩

theorem roomsStay_of_eq (hrooms : db'.rooms = db.rooms) : RoomsStay db db' :=
  fun r hr => ⟨r, hrooms ▸ hr, rfl, rfl⟩

theorem RoomsKept.of_agree (h : RoomsKept server db) (hagree : AgreeOnMembers db db') :
    RoomsKept server db' := by
  refine h.mapRooms (g := id) (h.led.congr hagree.members hagree.nextMemberId)
    (by rw [hagree.members]; exact h.names) (fun _ => ⟨rfl, rfl⟩)
    (by rw [hagree.rooms, List.map_id]) (fun r hr => ?_) fun leader hleader => ?_
  · exact (h.rights.owners r hr).congr hagree.members
  · rw [hagree.roomLeaders] at hleader
    exact ⟨h.norms leader hleader, h.rooms leader hleader,
      fun r hr hin => (h.rights.leaders leader hleader r hr hin).congr hagree.members⟩

/-- Members change, and rooms do not: every active name stays one. -/
theorem RoomsKept.members (h : RoomsKept server db) (hled : Led server db')
    (hnames : ∀ m ∈ db'.members, IsDisplayName server m.displayName)
    (hrooms : db'.rooms = db.rooms) (hleaders : db'.roomLeaders = db.roomLeaders)
    (hactive : ∀ workspaceId name, IsActiveName server db workspaceId name →
      IsActiveName server db' workspaceId name) : RoomsKept server db' := by
  refine h.mapRooms (g := id) hled hnames (fun _ => ⟨rfl, rfl⟩)
    (by rw [hrooms, List.map_id]) (fun r hr => ?_) fun leader hleader => ?_
  · exact hactive _ _ (h.rights.owners r hr)
  · rw [hleaders] at hleader
    exact ⟨h.norms leader hleader, h.rooms leader hleader,
      fun r hr hin => hactive _ _ (h.rights.leaders leader hleader r hr hin)⟩

theorem names_updateMember (hnames : ∀ m ∈ db.members, IsDisplayName server m.displayName)
    {id : Nat} {f : TeamWorkspaceMember → TeamWorkspaceMember}
    (hf : ∀ m ∈ db.members, IsDisplayName server (f m).displayName) :
    ∀ m ∈ (db.updateMember id f).members, IsDisplayName server m.displayName := by
  intro m' hm'
  obtain ⟨m, hm, rfl⟩ := List.mem_map.mp hm'
  split
  · exact hf m hm
  · exact hnames m hm

/-- A name that is not held in the workspace under `t`'s lookup survives what happens to `t`. -/
theorem IsActiveName.other (hled : Led server db) {t : TeamWorkspaceMember} (ht : t ∈ db.members)
    {f : TeamWorkspaceMember → TeamWorkspaceMember} (hf : RowChange f) {workspaceId : Nat}
    {name : String} (h : IsActiveName server db workspaceId name)
    (hother : ¬ (workspaceId = t.workspaceId ∧ normalizeScoutProfileLookup server name =
      normalizeScoutProfileLookup server t.displayName)) :
    IsActiveName server (db.updateMember t.id f) workspaceId name := by
  refine h.updateMember hled ht hf ?_
  by_cases hworkspace : workspaceId = t.workspaceId
  · exact .inr (.inl fun hname => hother ⟨hworkspace, hname⟩)
  · exact .inl hworkspace

theorem mem_roomKeys {workspaceId : Nat} {room : ScoutingRoom} (hroom : room ∈ db.rooms)
    (hworkspace : room.workspaceId = workspaceId) : room.roomKey ∈ db.roomKeys workspaceId := by
  refine List.mem_map_of_mem (List.mem_filter.mpr ⟨hroom, ?_⟩)
  simpa using hworkspace

theorem RoomsKept.workspace_of_key (h : RoomsKept server db) {workspaceId : Nat}
    {room : ScoutingRoom} (hroom : room ∈ db.rooms)
    (hkey : room.roomKey ∈ db.roomKeys workspaceId) : room.workspaceId = workspaceId := by
  obtain ⟨r, hr, hin⟩ := List.mem_map.mp hkey
  obtain ⟨hr, hworkspace⟩ := List.mem_filter.mp hr
  rw [h.room_unique hroom hr hin.symm]
  simpa using hworkspace

theorem RoomsKept.withoutMember (h : RoomsKept server db) {t : TeamWorkspaceMember}
    (ht : t ∈ db.members) {actorId : Nat}
    (hled : Led server (db.withoutMember server t actorId)) :
    RoomsKept server (db.withoutMember server t actorId) ∧
      RoomsStay db (db.withoutMember server t actorId) := by
  have hremove : RowChange fun m : TeamWorkspaceMember =>
      { m with removed := true, removedByMemberId := some actorId } :=
    ⟨fun _ => rfl, fun _ => rfl, fun _ hremoved => by cases hremoved⟩
  have hlookup : normalizeScoutProfileLookup server t.displayName ≠ "" :=
    mt normalizeScoutProfileLookup_eq_empty.mp (h.names t ht).profile_ne
  have hother : ∀ {workspaceId : Nat} {name : String}, IsActiveName server db workspaceId name →
      ¬ (workspaceId = t.workspaceId ∧ normalizeScoutProfileLookup server name =
        normalizeScoutProfileLookup server t.displayName) →
      IsActiveName server (db.withoutMember server t actorId) workspaceId name :=
    fun hactive hne => (hactive.other h.led ht hremove hne).congr
      (releaseScoutRoomRoles_members ..).1
  have hnames : ∀ m ∈ (db.withoutMember server t actorId).members,
      IsDisplayName server m.displayName := by
    rw [WorkspaceDb.withoutMember, (releaseScoutRoomRoles_members ..).1]
    exact names_updateMember h.names h.names
  have hrooms : (db.withoutMember server t actorId).rooms = db.rooms.map (reassignRoom server
      t.workspaceId (normalizeScoutProfileLookup server t.displayName) none) := by
    simp only [WorkspaceDb.withoutMember, releaseScoutRoomRoles, hlookup, if_false,
      WorkspaceDb.updateMember]
  have hplace := reassignRoom_place server t.workspaceId
    (normalizeScoutProfileLookup server t.displayName) none
  refine ⟨h.mapRooms hled hnames hplace hrooms (fun r hr => ?_) fun leader hleader => ?_,
    roomsStay_map hplace hrooms⟩
  · unfold reassignRoom
    split
    · exact isActiveName_empty _
    next hkept => exact hother (h.rights.owners r hr) hkept
  · simp only [WorkspaceDb.withoutMember, releaseScoutRoomRoles, hlookup, if_false,
      WorkspaceDb.updateMember, List.mem_filter, decide_eq_true_eq] at hleader
    refine ⟨h.norms leader hleader.1, h.rooms leader hleader.1, fun r hr hin => ?_⟩
    refine hother (h.rights.leaders leader hleader.1 r hr hin) fun hheld => hleader.2 ?_
    rw [h.norms leader hleader.1, ← hin]
    exact ⟨mem_roomKeys hr hheld.1, hheld.2⟩

theorem RoomsKept.renamed (h : RoomsKept server db) {t : TeamWorkspaceMember} (ht : t ∈ db.members)
    (hactive : t.removed = false) {name : String} (hname : IsDisplayName server name)
    (hled : Led server (db.renamed server t name)) :
    RoomsKept server (db.renamed server t name) ∧ RoomsStay db (db.renamed server t name) := by
  have hrename : RowChange fun m : TeamWorkspaceMember => { m with displayName := name } :=
    ⟨fun _ => rfl, fun _ => rfl, fun _ => id⟩
  have hold : normalizeScoutProfileLookup server t.displayName ≠ "" :=
    mt normalizeScoutProfileLookup_eq_empty.mp (h.names t ht).profile_ne
  have hmembers : (db.renamed server t name).members =
      (db.updateMember t.id fun m => { m with displayName := name }).members := by
    rw [WorkspaceDb.renamed, WorkspaceDb.updateMember, (renameScoutInWorkspaceRooms_members ..).1,
      WorkspaceDb.updateMember]
  have hother : ∀ {workspaceId : Nat} {name' : String}, IsActiveName server db workspaceId name' →
      ¬ (workspaceId = t.workspaceId ∧ normalizeScoutProfileLookup server name' =
        normalizeScoutProfileLookup server t.displayName) →
      IsActiveName server (db.renamed server t name) workspaceId name' :=
    fun hactive hne => (hactive.other h.led ht hrename hne).congr hmembers
  have hnew : IsActiveName server (db.renamed server t name) t.workspaceId
      (normalizeScoutProfile server name) := by
    refine .inr ⟨{ t with displayName := name }, mem_activeMembers.mpr ⟨?_, rfl, hactive⟩,
      (lookup_profile hname).symm⟩
    rw [hmembers]
    exact List.mem_map.mpr ⟨t, ht, if_pos rfl⟩
  have hnames : ∀ m ∈ (db.renamed server t name).members, IsDisplayName server m.displayName := by
    rw [hmembers]
    exact names_updateMember h.names fun _ _ => hname
  have hrooms : (db.renamed server t name).rooms = db.rooms.map (reassignRoom server t.workspaceId
      (normalizeScoutProfileLookup server t.displayName)
      (some (normalizeScoutProfile server name))) := by
    simp only [WorkspaceDb.renamed, renameScoutInWorkspaceRooms, hold, hname.profile_ne, or_self,
      if_false, WorkspaceDb.updateMember]
  have hplace := reassignRoom_place server t.workspaceId
    (normalizeScoutProfileLookup server t.displayName) (some (normalizeScoutProfile server name))
  refine ⟨h.mapRooms hled hnames hplace hrooms (fun r hr => ?_) fun leader hleader => ?_,
    roomsStay_map hplace hrooms⟩
  · unfold reassignRoom
    split
    next hheld => exact hheld.1 ▸ hnew
    next hkept => exact hother (h.rights.owners r hr) hkept
  · simp only [WorkspaceDb.renamed, renameScoutInWorkspaceRooms, hold, hname.profile_ne, or_self,
      if_false, WorkspaceDb.updateMember, List.mem_filterMap] at hleader
    obtain ⟨before, hbefore, hafter⟩ := hleader
    split at hafter
    next hheld =>
      split at hafter
      · cases hafter
      · cases hafter
        refine ⟨(lookup_profile hname).symm, h.rooms before hbefore, fun r hr hin => ?_⟩
        rw [h.workspace_of_key hr (hin ▸ hheld.1)]
        exact hnew
    next hkept =>
      cases hafter
      refine ⟨h.norms leader hbefore, h.rooms leader hbefore, fun r hr hin => ?_⟩
      refine hother (h.rights.leaders leader hbefore r hr hin) fun hheld => hkept ?_
      rw [h.norms leader hbefore, ← hin]
      exact ⟨mem_roomKeys hr hheld.1, hheld.2⟩

theorem RoomsStay.trans {db'' : WorkspaceDb} (h : RoomsStay db db') (h' : RoomsStay db' db'') :
    RoomsStay db db'' := by
  intro r hr
  obtain ⟨r', hr', hkey, hworkspace⟩ := h r hr
  obtain ⟨r'', hr'', hkey', hworkspace'⟩ := h' r' hr'
  exact ⟨r'', hr'', hkey'.trans hkey, hworkspace'.trans hworkspace⟩

/-- Every change of the members keeps the rights with members. -/
theorem MembersChange.roomsKept (hchange : MembersChange server db db')
    (h : RoomsKept server db) : RoomsKept server db' ∧ RoomsStay db db' := by
  have hled := hchange.led h.led
  cases hchange with
  | kept hagree => exact ⟨h.of_agree hagree, roomsStay_of_eq hagree.rooms⟩
  | @added workspaceId memberKey raw name role hname _ _ hagree =>
      refine ⟨h.members hled ?_ hagree.rooms hagree.roomLeaders ?_, roomsStay_of_eq hagree.rooms⟩
      · rw [hagree.members]
        intro m hm
        cases List.mem_append.mp hm with
        | inl hm => exact h.names m hm
        | inr hm =>
            rw [List.mem_singleton.mp hm]
            exact ⟨raw, hname⟩
      · exact fun workspaceId name hactive => hactive.insertMember.congr hagree.members
  | @renamed t raw name ht hactive hname _ hagree =>
      have hbase : Led server (db.renamed server t name) :=
        hled.congr hagree.members.symm hagree.nextMemberId.symm
      have hkept := h.renamed ht hactive ⟨raw, hname⟩ hbase
      exact ⟨hkept.1.of_agree hagree, hkept.2.trans (roomsStay_of_eq hagree.rooms)⟩
  | @roleSet t role ht hactive _ hagree =>
      have hset : RowChange fun m : TeamWorkspaceMember => { m with role := role } :=
        ⟨fun _ => rfl, fun _ => rfl, fun _ => id⟩
      refine ⟨h.members hled ?_ hagree.rooms hagree.roomLeaders ?_, roomsStay_of_eq hagree.rooms⟩
      · rw [hagree.members]
        exact names_updateMember h.names h.names
      · intro workspaceId name hname
        exact (hname.updateMember h.led ht hset (.inr (.inr ⟨hactive, rfl⟩))).congr hagree.members
  | @removed t actorId ht _ _ hagree =>
      have hbase : Led server (db.withoutMember server t actorId) :=
        hled.congr hagree.members.symm hagree.nextMemberId.symm
      have hkept := h.withoutMember ht hbase
      exact ⟨hkept.1.of_agree hagree, hkept.2.trans (roomsStay_of_eq hagree.rooms)⟩

end Names

end Frcmob.Workspaces
