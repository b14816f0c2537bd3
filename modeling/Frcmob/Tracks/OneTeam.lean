import Frcmob.Tracks.DeviceSync

/-!
A recording goes up to one workspace, as long as no write over its row takes it out of the
workspace it is bound to. Both `saveSession` before an upload and the two marks after it write a
row that was read earlier, and nothing stops another tab from binding the row in between.
-/

namespace Frcmob.DeviceSync

variable {Payload Response : Type} {owner : String → Nat}

/-- Each recording is posted for one workspace, with tokens of that workspace. A recording stays
in the store as it was recorded, and it is synced only when a response to exactly this upload has
come back. -/
structure OneWorkspace (device : Device owner Payload Response) : Prop where
  posted : ∀ p ∈ device.posts, ∀ q ∈ device.posts,
    p.body.id = q.body.id → p.workspaceId = q.workspaceId
  tokens : ∀ p ∈ device.posts, p.workspaceId = some (owner p.token)
  kept : ∀ session ∈ device.recorded, ∃ row ∈ device.store,
    row.toRecording = session.toRecording ∧
      (row.synced = true → ∃ p ∈ device.acknowledged,
        p.body = row.toRecording ∧ p.workspaceId = row.workspaceId)

/-! ### What a step does -/

/-- The effects of a step on what the invariant speaks about. -/
inductive Effect (device : Device owner Payload Response) :
    Action owner Payload Response → Device owner Payload Response → Prop
  | setWorkspace {tab : Nat} {workspace : Option (WorkspaceSession owner)} :
      Effect device (.setWorkspace tab workspace)
        { device with workspace := Function.update device.workspace tab workspace }
  | record {tab n : Nat} {recording : Recording Payload} {workspace : Option (Nat × String)} :
      device.store.get? recording.id = none →
      Effect device (.record tab n recording workspace)
        (record device tab n (newSession recording workspace))
  | direct {slot : Slot} {mounted online : Bool} {session : StoredSession Payload Response} :
      device.uploads slot = some (.saved session) →
      Effect device (.direct slot mounted online) (direct device slot mounted online session)
  | flush {tab : Nat} {retryRejected : Bool} :
      Effect device (.flush tab retryRejected) (startFlush device tab retryRejected)
  | list {slot : Slot} {workspace : WorkspaceSession owner} {retryRejected : Bool} :
      Effect device (.list slot)
        (goTo device slot (some (.next ⟨workspace, pending device workspace retryRejected⟩)))
  | next {slot : Slot} {turn : Turn owner Payload Response} :
      device.uploads slot = some (.next turn) →
      Effect device (.next slot) (nextSession device slot turn)
  | bind {slot : Slot} {turn : Turn owner Payload Response}
      {session : StoredSession Payload Response} :
      device.uploads slot = some (.binding turn session) →
      Effect device (.put slot)
        (saveSession (goTo device slot (some (.checking turn session))) session)
  | mark {slot : Slot} {turn : Turn owner Payload Response}
      {row : StoredSession Payload Response} :
      device.uploads slot = some (.writing turn row) →
      Effect device (.put slot) (saveSession (goTo device slot (afterwards slot turn)) row)
  | bindFails {slot : Slot} {turn : Turn owner Payload Response}
      {session : StoredSession Payload Response} :
      device.uploads slot = some (.binding turn session) →
      Effect device (.putFails slot)
        (goTo device slot (some (.reading turn session.id (.failed none))))
  | check {slot : Slot} {turn : Turn owner Payload Response}
      {session : StoredSession Payload Response} :
      device.uploads slot = some (.checking turn session) →
      Effect device (.check slot) (upload device slot turn session)
  | acknowledge {slot : Slot} {response : Response} {turn : Turn owner Payload Response}
      {post : Post Payload} :
      device.uploads slot = some (.posting turn post) →
      Effect device (.acknowledge slot response) (acknowledge device slot turn post response)
  | fail {slot : Slot} {status : Option Nat} {turn : Turn owner Payload Response}
      {post : Post Payload} :
      device.uploads slot = some (.posting turn post) →
      Effect device (.fail slot status)
        (goTo device slot (some (.reading turn post.body.id (.failed status))))
  | read {slot : Slot} {now : Nat} {turn : Turn owner Payload Response} {id : String}
      {outcome : Outcome Response} :
      device.uploads slot = some (.reading turn id outcome) →
      Effect device (.read slot now) (readRow device slot turn id outcome now)
  | stop {slot : Slot} {action : Action owner Payload Response} :
      Effect device action (goTo device slot none)
  | stay {action : Action owner Payload Response} : Effect device action device

theorem effect_of_step {device device' : Device owner Payload Response}
    {action : Action owner Payload Response} (h : step device action = some device') :
    Effect device action device' := by
  cases action with
  | setWorkspace tab workspace =>
      cases h
      exact .setWorkspace
  | record tab n recording workspace =>
      simp only [step] at h
      split at h
      · rename_i hnew
        cases h
        exact .record hnew.2
      · cases h
  | flush tab retryRejected =>
      simp only [step] at h
      split at h <;> cases h
      · exact .flush
      · exact .stay
  | list slot =>
      simp only [step] at h
      split at h <;> cases h
      exact .list
  | put slot =>
      simp only [step] at h
      split at h <;> cases h
      · exact .bind ‹_›
      · exact .mark ‹_›
  | putFails slot =>
      simp only [step] at h
      split at h <;> cases h
      · exact .bindFails ‹_›
      · exact .stop
  | abandon slot =>
      cases h
      exact .stop
  | direct slot mounted online =>
      simp only [step] at h
      split at h <;> cases h
      exact .direct ‹_›
  | next slot =>
      simp only [step] at h
      split at h <;> cases h
      exact .next ‹_›
  | check slot =>
      simp only [step] at h
      split at h <;> cases h
      exact .check ‹_›
  | acknowledge slot response =>
      simp only [step] at h
      split at h <;> cases h
      exact .acknowledge ‹_›
  | fail slot status =>
      simp only [step] at h
      split at h <;> cases h
      exact .fail ‹_›
  | read slot now =>
      simp only [step] at h
      split at h <;> cases h
      exact .read ‹_›

/-! ### Rows that go on as they were -/

/-- The same recording, bound to the same workspace if it was bound. -/
def Continues (session row : StoredSession Payload Response) : Prop :=
  row.toRecording = session.toRecording ∧
    (session.workspaceId = none ∨ session.workspaceId = row.workspaceId)

theorem Continues.refl (row : StoredSession Payload Response) : Continues row row :=
  ⟨rfl, .inr rfl⟩

theorem Continues.trans {a b c : StoredSession Payload Response} (hab : Continues a b)
    (hbc : Continues b c) : Continues a c := by
  refine ⟨hbc.1.trans hab.1, ?_⟩
  rcases hab.2 with hnone | hsame
  · exact .inl hnone
  · rcases hbc.2 with hnone | hsame'
    · exact .inl (hsame.trans hnone)
    · exact .inr (hsame.trans hsame')

/-- The store has the session, perhaps bound or marked since. -/
def Held (store : Sessions Payload Response) (session : StoredSession Payload Response) : Prop :=
  ∃ row ∈ store, Continues session row

def Carries (post : Post Payload) (row : StoredSession Payload Response) : Prop :=
  post.body = row.toRecording ∧ post.workspaceId = row.workspaceId

/-- Rows, uploads and responses are only added, and a row goes on as it was. -/
structure Grows (device device' : Device owner Payload Response) : Prop where
  rows : ∀ row ∈ device.store, Held device'.store row
  posts : device.posts ⊆ device'.posts
  acknowledged : device.acknowledged ⊆ device'.acknowledged

theorem Grows.of_same {device device' : Device owner Payload Response}
    (hstore : device'.store = device.store) (hposts : device.posts ⊆ device'.posts)
    (hack : device.acknowledged ⊆ device'.acknowledged) : Grows device device' := by
  refine ⟨?_, hposts, hack⟩
  intro row hrow
  exact ⟨row, hstore ▸ hrow, .refl row⟩

theorem Grows.held {device device' : Device owner Payload Response} (hgrows : Grows device device')
    {session : StoredSession Payload Response} (h : Held device.store session) :
    Held device'.store session := by
  obtain ⟨row, hrow, hcont⟩ := h
  obtain ⟨row', hrow', hcont'⟩ := hgrows.rows row hrow
  exact ⟨row', hrow', hcont.trans hcont'⟩

/-- What a write may not do: take a row out of its workspace. -/
def unmoved (device : Device owner Payload Response) (row : StoredSession Payload Response) :
    Bool :=
  (device.store.get? row.id).all fun old =>
    decide (old.workspaceId = none) || decide (old.workspaceId = row.workspaceId)

theorem unmoved_iff {device : Device owner Payload Response}
    {row : StoredSession Payload Response} :
    unmoved device row = true ↔
      ∀ old ∈ device.store, old.id = row.id →
        old.workspaceId = none ∨ old.workspaceId = row.workspaceId := by
  simp only [unmoved, Option.all_eq_true, Bool.or_eq_true, decide_eq_true_eq,
    Table.get?_eq_some, and_imp]

/-! ### The invariant -/

/-- A session that an upload has at hand: still to be sent, and in the store. -/
def Waiting (device : Device owner Payload Response)
    (session : StoredSession Payload Response) : Prop :=
  session.synced = false ∧ Held device.store session

/-- A row that is marked as synced has an upload that the server has answered. -/
def Confirmed (device : Device owner Payload Response)
    (row : StoredSession Payload Response) : Prop :=
  row.synced = true → ∃ p ∈ device.acknowledged, Carries p row

/-- The rest of a flush is for the workspace it started with. -/
def Turn.Sound (device : Device owner Payload Response) (turn : Turn owner Payload Response) :
    Prop :=
  ∀ session ∈ turn.rest, Waiting device session ∧
    (session.workspaceId = none ∨ session.workspaceId = some turn.workspace.workspaceId)

def InStore (device : Device owner Payload Response) (recording : Recording Payload) : Prop :=
  ∃ row ∈ device.store, row.toRecording = recording

/-- What an upload knows about the store while it waits in a phase. -/
def Phase.Sound (device : Device owner Payload Response) : Phase owner Payload Response → Prop
  | .saved session => Waiting device session
  | .listing _ _ => True
  | .next turn => turn.Sound device
  | .binding turn session =>
    turn.Sound device ∧ session.synced = false ∧
      session.workspaceId = some turn.workspace.workspaceId ∧
      InStore device session.toRecording
  | .checking turn session =>
    turn.Sound device ∧
      session.workspaceId = some turn.workspace.workspaceId ∧ Held device.store session
  | .posting turn post => turn.Sound device ∧ post ∈ device.posts
  | .reading turn id outcome =>
    turn.Sound device ∧
      ∀ response, outcome = .synced response → ∃ p ∈ device.acknowledged, p.body.id = id
  | .writing turn row =>
    turn.Sound device ∧ InStore device row.toRecording ∧ Confirmed device row

structure Inv (device : Device owner Payload Response) : Prop where
  uploads : ∀ slot phase, device.uploads slot = some phase → phase.Sound device
  tokens : ∀ p ∈ device.posts, p.workspaceId = some (owner p.token)
  carried : ∀ p ∈ device.posts, ∃ row ∈ device.store, Carries p row
  answered : device.acknowledged ⊆ device.posts
  confirmed : ∀ row ∈ device.store, Confirmed device row
  recorded : ∀ session ∈ device.recorded, InStore device session.toRecording

section Growth
variable {device device' : Device owner Payload Response}

theorem Grows.waiting (hgrows : Grows device device') {session : StoredSession Payload Response}
    (h : Waiting device session) : Waiting device' session :=
  ⟨h.1, hgrows.held h.2⟩

theorem Grows.turn (hgrows : Grows device device') {turn : Turn owner Payload Response}
    (h : turn.Sound device) : turn.Sound device' :=
  fun s hs => ⟨hgrows.waiting (h s hs).1, (h s hs).2⟩

theorem Grows.inStore (hgrows : Grows device device') {recording : Recording Payload}
    (h : InStore device recording) : InStore device' recording := by
  obtain ⟨row, hrow, rfl⟩ := h
  obtain ⟨row', hrow', hcont⟩ := hgrows.rows row hrow
  exact ⟨row', hrow', hcont.1⟩

theorem Grows.confirmed (hgrows : Grows device device') {row : StoredSession Payload Response}
    (h : Confirmed device row) : Confirmed device' row := by
  intro hsynced
  obtain ⟨p, hp, hcarries⟩ := h hsynced
  exact ⟨p, hgrows.acknowledged hp, hcarries⟩

theorem Grows.sound (hgrows : Grows device device') {phase : Phase owner Payload Response}
    (h : phase.Sound device) : phase.Sound device' := by
  cases phase with
  | saved session => exact hgrows.waiting h
  | listing workspace retryRejected => trivial
  | next turn => exact hgrows.turn h
  | binding turn session =>
      exact ⟨hgrows.turn h.1, h.2.1, h.2.2.1, hgrows.inStore h.2.2.2⟩
  | checking turn session =>
      exact ⟨hgrows.turn h.1, h.2.1, hgrows.held h.2.2⟩
  | posting turn post => exact ⟨hgrows.turn h.1, hgrows.posts h.2⟩
  | reading turn id outcome =>
      refine ⟨hgrows.turn h.1, ?_⟩
      intro response houtcome
      obtain ⟨p, hp, hid⟩ := h.2 response houtcome
      exact ⟨p, hgrows.acknowledged hp, hid⟩
  | writing turn row =>
      exact ⟨hgrows.turn h.1, hgrows.inStore h.2.1,
        hgrows.confirmed h.2.2⟩

/-- A post is bound, so the row that carries it goes on carrying it. -/
theorem Grows.carried (hgrows : Grows device device') {p : Post Payload}
    (hbound : p.workspaceId = some (owner p.token)) (h : ∃ row ∈ device.store, Carries p row) :
    ∃ row ∈ device'.store, Carries p row := by
  obtain ⟨row, hrow, hbody, hworkspace⟩ := h
  obtain ⟨row', hrow', hsame, hcont⟩ := hgrows.rows row hrow
  refine ⟨row', hrow', hbody.trans hsame.symm, ?_⟩
  rcases hcont with hnone | hcont
  · rw [hnone, hbound] at hworkspace
    cases hworkspace
  · exact hworkspace.trans hcont

end Growth

/-- One upload goes on; the others see a store that has grown. -/
theorem Inv.of_grows {device device' : Device owner Payload Response} (h : Inv device)
    (hgrows : Grows device device')
    (huploads : ∀ slot phase, device'.uploads slot = some phase →
      device.uploads slot = some phase ∨ phase.Sound device')
    (hposts : ∀ p ∈ device'.posts, p ∈ device.posts ∨
      p.workspaceId = some (owner p.token) ∧ ∃ row ∈ device'.store, Carries p row)
    (hanswered : ∀ p ∈ device'.acknowledged, p ∈ device.acknowledged ∨ p ∈ device.posts)
    (hstore : ∀ row ∈ device'.store, row ∈ device.store ∨ Confirmed device' row)
    (hrecorded : ∀ s ∈ device'.recorded, s ∈ device.recorded ∨ InStore device' s.toRecording) :
    Inv device' := by
  refine ⟨?_, ?_, ?_, ?_, ?_, ?_⟩
  · intro slot phase hphase
    rcases huploads slot phase hphase with hold | hsound
    · exact hgrows.sound (h.uploads slot phase hold)
    · exact hsound
  · intro p hp
    rcases hposts p hp with hold | hnew
    · exact h.tokens p hold
    · exact hnew.1
  · intro p hp
    rcases hposts p hp with hold | hnew
    · exact hgrows.carried (h.tokens p hold) (h.carried p hold)
    · exact hnew.2
  · intro p hp
    rcases hanswered p hp with hold | hnew
    · exact hgrows.posts (h.answered hold)
    · exact hgrows.posts hnew
  · intro row hrow
    rcases hstore row hrow with hold | hnew
    · exact hgrows.confirmed (h.confirmed row hold)
    · exact hnew
  · intro s hs
    rcases hrecorded s hs with hold | hnew
    · exact hgrows.inStore (h.recorded s hold)
    · exact hnew

theorem uploads_goTo (device : Device owner Payload Response) {slot slot' : Slot}
    {next : Option (Phase owner Payload Response)} {phase : Phase owner Payload Response}
    (h : (goTo device slot next).uploads slot' = some phase) :
    device.uploads slot' = some phase ∨ next = some phase := by
  unfold goTo at h
  by_cases hslot : slot' = slot
  · subst hslot
    exact .inr (by simpa using h)
  · exact .inl (by simpa [Function.update_of_ne hslot] using h)

/-- An upload that only goes on to its next phase. -/
theorem Inv.goTo {device : Device owner Payload Response} (h : Inv device) {slot : Slot}
    {next : Option (Phase owner Payload Response)}
    (hnext : ∀ phase, next = some phase → phase.Sound device) :
    Inv (goTo device slot next) := by
  have hgrows : Grows device (DeviceSync.goTo device slot next) :=
    .of_same rfl (fun _ h => h) (fun _ h => h)
  refine h.of_grows hgrows ?_ (fun p hp => .inl hp) (fun p hp => .inl hp)
    (fun row hrow => .inl hrow) (fun s hs => .inl hs)
  intro slot' phase hphase
  rcases uploads_goTo _ hphase with hold | hnew
  · exact .inl hold
  · exact .inr (hgrows.sound (hnext phase hnew))

theorem grows_save {device : Device owner Payload Response}
    {row : StoredSession Payload Response} (hstored : InStore device row.toRecording)
    (hkeeps : unmoved device row = true) : Grows device (saveSession device row) := by
  refine ⟨?_, fun _ h => h, fun _ h => h⟩
  intro old hold
  by_cases hid : old.id = row.id
  · refine ⟨row, Table.mem_put_self _ _, ?_, unmoved_iff.mp hkeeps old hold hid⟩
    obtain ⟨stored, hmem, hsame⟩ := hstored
    have hkey : old.id = stored.id := by rw [hid, ← hsame]
    rw [Table.eq_of_key hold hmem hkey, hsame]
  · exact ⟨old, Table.mem_put_of_ne hold hid, .refl old⟩

theorem Inv.save {device : Device owner Payload Response} (h : Inv device)
    {row : StoredSession Payload Response} (hstored : InStore device row.toRecording)
    (hkeeps : unmoved device row = true) (hconfirmed : Confirmed device row) :
    Inv (saveSession device row) := by
  have hgrows := grows_save hstored hkeeps
  refine h.of_grows hgrows (fun slot phase hphase => .inl hphase) (fun p hp => .inl hp)
    (fun p hp => .inl hp) ?_ (fun s hs => .inl hs)
  intro other hother
  rcases Table.mem_put.mp hother with rfl | ⟨hold, -⟩
  · exact .inr (hgrows.confirmed hconfirmed)
  · exact .inl hold

theorem held_save (device : Device owner Payload Response)
    (row : StoredSession Payload Response) : Held (saveSession device row).store row :=
  ⟨row, Table.mem_put_self _ _, .refl row⟩

/-! ### One lemma for each operation -/

theorem Inv.record {device : Device owner Payload Response} (h : Inv device) {tab n : Nat}
    {recording : Recording Payload} {workspace : Option (Nat × String)}
    (hnew : device.store.get? recording.id = none) :
    Inv (record device tab n (newSession recording workspace)) := by
  have hfresh := Table.get?_eq_none.mp hnew
  have hgrows : Grows device (DeviceSync.record device tab n (newSession recording workspace)) := by
    refine ⟨?_, fun _ h => h, fun _ h => h⟩
    intro old hold
    exact ⟨old, Table.mem_put_of_ne hold (hfresh old hold), .refl old⟩
  have hheld := held_save device (newSession recording workspace)
  refine h.of_grows hgrows ?_ (fun p hp => .inl hp) (fun p hp => .inl hp) ?_ ?_
  · intro slot phase hphase
    rcases uploads_goTo device hphase with hold | hsaved
    · exact .inl hold
    · cases hsaved
      exact .inr ⟨rfl, hheld⟩
  · intro row hrow
    rcases Table.mem_put.mp hrow with rfl | ⟨hold, -⟩
    · exact .inr fun hsynced => (by cases hsynced)
    · exact .inl hold
  · intro session hsession
    rcases List.mem_cons.mp hsession with rfl | hold
    · obtain ⟨row, hrow, hcont⟩ := hheld
      exact .inr ⟨row, hrow, hcont.1⟩
    · exact .inl hold

theorem postOf_body (slot : Slot) (workspace : WorkspaceSession owner)
    (session : StoredSession Payload Response) :
    (postOf slot workspace session).body = session.toRecording := by
  cases slot <;> rfl

theorem postOf_token (slot : Slot) (workspace : WorkspaceSession owner)
    (session : StoredSession Payload Response) :
    (postOf slot workspace session).token = workspace.token := by
  cases slot <;> rfl

theorem postOf_workspaceId (slot : Slot) {workspace : WorkspaceSession owner}
    {session : StoredSession Payload Response}
    (h : session.workspaceId = some workspace.workspaceId) :
    (postOf slot workspace session).workspaceId = some workspace.workspaceId := by
  cases slot with
  | flush tab => rfl
  | run tab n => exact h

theorem Inv.upload {device : Device owner Payload Response} (h : Inv device) (slot : Slot)
    {turn : Turn owner Payload Response} {session : StoredSession Payload Response}
    (hturn : turn.Sound device)
    (hbound : session.workspaceId = some turn.workspace.workspaceId)
    (hheld : Held device.store session) : Inv (upload device slot turn session) := by
  unfold DeviceSync.upload
  split
  · have hposts : device.posts ⊆ postOf slot turn.workspace session :: device.posts :=
      List.subset_cons_of_subset _ (List.Subset.refl _)
    refine h.of_grows (.of_same rfl hposts fun _ h => h) ?_ ?_ (fun p hp => .inl hp)
      (fun row hrow => .inl hrow) (fun s hs => .inl hs)
    · intro slot' phase hphase
      rcases uploads_goTo device hphase with hold | hnew
      · exact .inl hold
      · cases hnew
        exact .inr ⟨hturn, List.mem_cons_self⟩
    · intro p hp
      rcases List.mem_cons.mp hp with rfl | hold
      · obtain ⟨row, hrow, hsame, hcont⟩ := hheld
        have hworkspace := postOf_workspaceId slot hbound
        refine .inr ⟨?_, row, hrow, ?_, ?_⟩
        · rw [hworkspace, postOf_token, turn.workspace.owned]
        · rw [postOf_body, hsame]
        · rcases hcont with hnone | hcont
          · rw [hnone] at hbound
            cases hbound
          · rw [hworkspace, ← hbound, hcont]
      · exact .inl hold
  · cases slot with
    | flush tab =>
        apply h.goTo
        intro phase hphase
        cases hphase
        exact ⟨hturn, fun response hresponse => (by cases hresponse)⟩
    | run tab n => exact h.goTo (by simp)

theorem Inv.uploadOrBind {device : Device owner Payload Response} (h : Inv device) (slot : Slot)
    {turn : Turn owner Payload Response} {session : StoredSession Payload Response}
    (hturn : turn.Sound device) (hwaiting : Waiting device session)
    (hours : session.workspaceId = none ∨
      session.workspaceId = some turn.workspace.workspaceId) :
    Inv (uploadOrBind device slot turn session) := by
  unfold DeviceSync.uploadOrBind
  split
  · apply h.goTo
    intro phase hphase
    cases hphase
    obtain ⟨row, hrow, hcont⟩ := hwaiting.2
    exact ⟨hturn, hwaiting.1, rfl, row, hrow, hcont.1⟩
  · rename_i id hid
    apply h.upload slot hturn _ hwaiting.2
    rcases hours with hnone | hours
    · rw [hnone] at hid
      cases hid
    · exact hours

theorem Inv.direct {device : Device owner Payload Response} (h : Inv device) {slot : Slot}
    {session : StoredSession Payload Response}
    (hup : device.uploads slot = some (.saved session)) (mounted online : Bool) :
    Inv (direct device slot mounted online session) := by
  have hwaiting : Waiting device session := h.uploads _ _ hup
  unfold DeviceSync.direct
  split
  · rename_i workspace hworkspace
    split
    · exact h.goTo (by simp)
    · rename_i hteam
      push Not at hteam
      apply h.uploadOrBind slot _ hwaiting
      · cases hid : session.workspaceId with
        | none => exact .inl rfl
        | some id => exact .inr (by rw [hteam.2 id hid])
      · intro s hs
        cases hs
  · exact h.goTo (by simp)

theorem Inv.startFlush {device : Device owner Payload Response} (h : Inv device) (tab : Nat)
    (retryRejected : Bool) : Inv (startFlush device tab retryRejected) := by
  unfold DeviceSync.startFlush
  split
  · exact h
  · split
    · exact h
    · apply h.goTo
      intro phase hphase
      cases hphase
      trivial

theorem sound_pending (device : Device owner Payload Response) (workspace : WorkspaceSession owner)
    (retryRejected : Bool) :
    Turn.Sound device ⟨workspace, pending device workspace retryRejected⟩ := by
  intro session hsession
  simp only [pending, List.mem_filter, Bool.not_eq_true', shouldSync, Bool.and_eq_true,
    Bool.or_eq_true, decide_eq_true_eq] at hsession
  obtain ⟨⟨hrow, hsynced⟩, hours, -⟩ := hsession
  exact ⟨⟨hsynced, session, hrow, .refl session⟩, hours⟩

theorem Inv.nextSession {device : Device owner Payload Response} (h : Inv device) {slot : Slot}
    {turn : Turn owner Payload Response} (hup : device.uploads slot = some (.next turn)) :
    Inv (nextSession device slot turn) := by
  have hturn : turn.Sound device := h.uploads _ _ hup
  unfold DeviceSync.nextSession
  split
  · exact h.goTo (by simp)
  · rename_i session rest hrest
    split
    · have hfirst := hturn session (hrest ▸ List.mem_cons_self)
      have hothers : Turn.Sound device { turn with rest := rest } := by
        intro s hs
        exact hturn s (hrest ▸ List.mem_cons_of_mem _ hs)
      exact h.uploadOrBind slot hothers hfirst.1 hfirst.2
    · exact h.goTo (by simp)

theorem sound_afterwards {device : Device owner Payload Response} {slot : Slot}
    {turn : Turn owner Payload Response} (hturn : turn.Sound device) :
    ∀ phase, afterwards slot turn = some phase → phase.Sound device := by
  intro phase hphase
  cases slot with
  | flush tab =>
      cases hphase
      exact hturn
  | run tab n => cases hphase

theorem Inv.bind {device : Device owner Payload Response} (h : Inv device) {slot : Slot}
    {turn : Turn owner Payload Response} {session : StoredSession Payload Response}
    (hup : device.uploads slot = some (.binding turn session))
    (hkeeps : unmoved device session = true) :
    Inv (saveSession (DeviceSync.goTo device slot (some (.checking turn session))) session) := by
  obtain ⟨hturn, hsynced, hbound, hstored⟩ := h.uploads _ _ hup
  have hsaved := h.save hstored hkeeps fun hs => (by rw [hsynced] at hs; cases hs)
  apply hsaved.goTo
  intro phase hphase
  cases hphase
  exact ⟨(grows_save hstored hkeeps).turn hturn, hbound, held_save device session⟩

theorem Inv.mark {device : Device owner Payload Response} (h : Inv device) {slot : Slot}
    {turn : Turn owner Payload Response} {row : StoredSession Payload Response}
    (hup : device.uploads slot = some (.writing turn row)) (hkeeps : unmoved device row = true) :
    Inv (saveSession (DeviceSync.goTo device slot (afterwards slot turn)) row) := by
  obtain ⟨hturn, hstored, hconfirmed⟩ := h.uploads _ _ hup
  have hsaved := h.save hstored hkeeps hconfirmed
  exact hsaved.goTo (sound_afterwards ((grows_save hstored hkeeps).turn hturn))

theorem Inv.acknowledge {device : Device owner Payload Response} (h : Inv device) {slot : Slot}
    {turn : Turn owner Payload Response} {post : Post Payload}
    (hup : device.uploads slot = some (.posting turn post)) (response : Response) :
    Inv (acknowledge device slot turn post response) := by
  obtain ⟨hturn, hpost⟩ := h.uploads _ _ hup
  have hack : device.acknowledged ⊆ post :: device.acknowledged :=
    List.subset_cons_of_subset _ (List.Subset.refl _)
  refine h.of_grows (.of_same rfl (fun _ h => h) hack) ?_ (fun p hp => .inl hp) ?_
    (fun row hrow => .inl hrow) (fun s hs => .inl hs)
  · intro slot' phase hphase
    rcases uploads_goTo device hphase with hold | hnew
    · exact .inl hold
    · cases hnew
      exact .inr ⟨hturn, fun _ _ => ⟨post, List.mem_cons_self, rfl⟩⟩
  · intro p hp
    rcases List.mem_cons.mp hp with rfl | hold
    · exact .inr hpost
    · exact .inl hold

theorem Inv.readRow {device : Device owner Payload Response} (h : Inv device) {slot : Slot}
    {turn : Turn owner Payload Response} {id : String} {outcome : Outcome Response}
    (hup : device.uploads slot = some (.reading turn id outcome)) (now : Nat) :
    Inv (readRow device slot turn id outcome now) := by
  obtain ⟨hturn, hanswered⟩ := h.uploads _ _ hup
  unfold DeviceSync.readRow
  split
  · exact h.goTo (sound_afterwards hturn)
  · rename_i row hrow
    apply h.goTo
    intro phase hphase
    cases hphase
    obtain ⟨stored, hget, hmarked⟩ := Option.bind_eq_some_iff.mp hrow
    obtain ⟨hmem, hid⟩ := Table.get?_eq_some.mp hget
    refine ⟨hturn, ?_⟩
    cases outcome with
    | synced response =>
        cases hmarked
        refine ⟨⟨stored, hmem, rfl⟩, fun _ => ?_⟩
        -- The upload that was answered is carried by the row that was read.
        obtain ⟨p, hp, hpid⟩ := hanswered response rfl
        obtain ⟨carrier, hcarrier, hbody, hworkspace⟩ := h.carried p (h.answered hp)
        have hsame : carrier = stored :=
          Table.eq_of_key hcarrier hmem (by rw [hid, ← hpid, hbody])
        subst hsame
        exact ⟨p, hp, hbody, hworkspace⟩
    | failed status =>
        simp only [marked] at hmarked
        split at hmarked <;> cases hmarked
        rename_i hsynced
        exact ⟨⟨stored, hmem, rfl⟩, fun hs => absurd hs hsynced⟩

/-! ### Runs -/

/-- A write that leaves the row it lands on in its workspace. -/
def Careful (device : Device owner Payload Response) : Action owner Payload Response → Prop
  | .put slot =>
    match device.uploads slot with
    | some (.binding _ session) => unmoved device session = true
    | some (.writing _ row) => unmoved device row = true
    | _ => True
  | _ => True

instance (device : Device owner Payload Response) (action : Action owner Payload Response) :
    Decidable (Careful device action) := by
  unfold Careful
  split
  · split <;> infer_instance
  · infer_instance

theorem Inv.step {device device' : Device owner Payload Response}
    {action : Action owner Payload Response} (h : Inv device) (hcareful : Careful device action)
    (hstep : step device action = some device') : Inv device' := by
  cases effect_of_step hstep with
  | setWorkspace =>
      exact h.of_grows (.of_same rfl (fun _ h => h) fun _ h => h) (fun _ _ h => .inl h)
        (fun _ h => .inl h) (fun _ h => .inl h) (fun _ h => .inl h) (fun _ h => .inl h)
  | record hnew => exact h.record hnew
  | direct hup => exact h.direct hup _ _
  | flush => exact h.startFlush _ _
  | list =>
      apply h.goTo
      intro phase hphase
      cases hphase
      exact sound_pending device _ _
  | next hup => exact h.nextSession hup
  | bind hup =>
      simp only [Careful, hup] at hcareful
      exact h.bind hup hcareful
  | mark hup =>
      simp only [Careful, hup] at hcareful
      exact h.mark hup hcareful
  | bindFails hup =>
      obtain ⟨hturn, -⟩ := h.uploads _ _ hup
      apply h.goTo
      intro phase hphase
      cases hphase
      exact ⟨hturn, fun response hresponse => (by cases hresponse)⟩
  | check hup =>
      obtain ⟨hturn, hbound, hheld⟩ := h.uploads _ _ hup
      exact h.upload _ hturn hbound hheld
  | acknowledge hup => exact h.acknowledge hup _
  | fail hup =>
      obtain ⟨hturn, -⟩ := h.uploads _ _ hup
      apply h.goTo
      intro phase hphase
      cases hphase
      exact ⟨hturn, fun response hresponse => (by cases hresponse)⟩
  | read hup => exact h.readRow hup _
  | stop => exact h.goTo (by simp)
  | stay => exact h

theorem inv_of_started {device : Device owner Payload Response} (h : Started device) :
    Inv device := by
  obtain ⟨hstore, huploads, hrecorded, hposts, hack⟩ := h
  refine ⟨?_, ?_, ?_, ?_, ?_, ?_⟩ <;> simp_all

/-- A recording has one row, and what is posted of it is what that row is bound to. -/
theorem Inv.oneWorkspace {device : Device owner Payload Response} (h : Inv device) :
    OneWorkspace device where
  posted := by
    intro p hp q hq hid
    obtain ⟨row, hrow, hbody, hworkspace⟩ := h.carried p hp
    obtain ⟨row', hrow', hbody', hworkspace'⟩ := h.carried q hq
    have hsame : row = row' :=
      Table.eq_of_key hrow hrow' (by rw [← hbody, ← hbody', hid])
    rw [hworkspace, hworkspace', hsame]
  tokens := h.tokens
  kept := by
    intro session hsession
    obtain ⟨row, hrow, hsame⟩ := h.recorded session hsession
    exact ⟨row, hrow, hsame, h.confirmed row hrow⟩

/-- In a run whose writes all leave the row they land on in its workspace, each recording goes up
to one workspace, and it is synced only once this upload has been answered. -/
theorem oneWorkspace_of_careful {device : Device owner Payload Response}
    (h : Transition.ReachableWhen (system owner Payload Response) Careful device) :
    OneWorkspace device :=
  (h.invariant (fun _ hstart => inv_of_started hstart)
    fun _ _ _ hinv hcareful hstep => hinv.step hcareful hstep).oneWorkspace

/-! ### Two teams -/

/-- Tokens of team 2 and of team 1. -/
def teamOf (token : String) : Nat :=
  if token = "second" then 2 else 1

def firstTeam : WorkspaceSession teamOf := ⟨"first", 1, "One", rfl⟩

def secondTeam : WorkspaceSession teamOf := ⟨"second", 2, "Two", rfl⟩

def newDevice : Device teamOf Unit Unit :=
  ⟨fun _ => none, Table.empty, fun _ => none, [], [], []⟩

/-- A run recorded before the scout joined a team, and offline. -/
def madeOffline : List (Action teamOf Unit Unit) :=
  [.record 0 0 ⟨"r", none, none, 0, ()⟩ none, .direct (.run 0 0) true false]

/-- It is bound and uploaded once the scout has joined; the response is lost, a later flush for
another team leaves it alone, and a retry is answered. -/
def retried : List (Action teamOf Unit Unit) :=
  madeOffline ++ [.setWorkspace 0 (some firstTeam), .flush 0 false, .list (.flush 0),
    .next (.flush 0), .put (.flush 0), .check (.flush 0), .fail (.flush 0) none,
    .read (.flush 0) 1, .put (.flush 0), .next (.flush 0), .setWorkspace 1 (some secondTeam),
    .flush 1 true, .list (.flush 1), .next (.flush 1), .flush 0 false, .list (.flush 0),
    .next (.flush 0), .acknowledge (.flush 0) (), .read (.flush 0) 2, .put (.flush 0)]

theorem started_newDevice : Started newDevice :=
  ⟨rfl, fun _ => rfl, rfl, rfl, rfl⟩

theorem oneWorkspace_of_careful_retried :
    ∃ device, (system teamOf Unit Unit).run newDevice retried = some device ∧
      device.acknowledged.length = 1 ∧ OneWorkspace device := by
  have hrun : ((system teamOf Unit Unit).run newDevice retried).isSome = true := by decide +kernel
  obtain ⟨device, hdevice⟩ := Option.isSome_iff_exists.mp hrun
  refine ⟨device, hdevice, ?_, ?_⟩
  · have hlength : ((system teamOf Unit Unit).run newDevice retried).map
        (·.acknowledged.length) = some 1 := by decide +kernel
    rw [hdevice] at hlength
    exact Option.some.inj hlength
  · exact oneWorkspace_of_careful (Transition.reachableWhen_of_run retried
      (.start started_newDevice) (by decide +kernel) hdevice)

/-- Two tabs are in two teams for a moment, and both have listed the recording unbound. Each binds
it to its own team and uploads it. -/
def twice : List (Action teamOf Unit Unit) :=
  madeOffline ++ [.setWorkspace 0 (some firstTeam), .setWorkspace 1 (some secondTeam),
    .flush 0 false, .flush 1 false, .list (.flush 0), .list (.flush 1), .next (.flush 0),
    .next (.flush 1), .put (.flush 0), .check (.flush 0), .put (.flush 1), .check (.flush 1)]

theorem uploaded_to_both_teams :
    ¬ ∀ device, Transition.Reachable (system teamOf Unit Unit) device → OneWorkspace device := by
  intro hall
  have hposts : ((system teamOf Unit Unit).run newDevice twice).map
      (·.posts.map fun p => (p.body.id, p.workspaceId)) = some [("r", some 2), ("r", some 1)] := by
    decide +kernel
  obtain ⟨device, hdevice, hposts⟩ := Option.map_eq_some_iff.mp hposts
  have hone := hall device (Transition.reachable_of_run twice started_newDevice hdevice)
  obtain ⟨p, hp, hp2⟩ := List.mem_map.mp (hposts ▸ List.mem_cons_self : ("r", some 2) ∈ _)
  obtain ⟨q, hq, hq1⟩ :=
    List.mem_map.mp (hposts ▸ List.mem_cons_of_mem _ List.mem_cons_self : ("r", some 1) ∈ _)
  simp only [Prod.mk.injEq] at hp2 hq1
  have hsame := hone.posted p hp q hq (hp2.1.trans hq1.1.symm)
  rw [hp2.2, hq1.2] at hsame
  exact absurd hsame (by decide)

end Frcmob.DeviceSync
