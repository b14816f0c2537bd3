import Frcmob.Reports.Sharing

/-!
Whether a save replaces an earlier report is decided by the copy in the page's list, under
the room the scout is in. As long as every save for a robot that already has a report
finds that one, all of the robot's reports share an id and a room, and the server's
upsert makes them one row. A save made while an unshared report is on its way to the
team's room does not find it.
-/

namespace Frcmob.Reports
open Transition

/-- What decides whether two reports become one row. -/
structure Label where
  id : String
  matchKey : String
  teamKey : String
  eventKey : String
  room : String
deriving DecidableEq

def SavedScoutingEntry.labelIn (e : Entry) (room : String) : Label where
  id := e.id
  matchKey := e.matchKey
  teamKey := e.teamKey
  eventKey := e.eventKey
  room := room

def SavedScoutingEntry.label (e : Entry) : Label :=
  e.labelIn e.room

/-- The room the report is in or will be shared in. -/
def Label.target (w : Workspace) (l : Label) : String :=
  if l.room = "" then w.teamRoom l.eventKey else l.room

/-- The reports on the phone. -/
def Phone.reports (s : Phone) : List Entry :=
  s.entries ++ s.stored ++ s.finishing ++ s.held.elim [] fun held => held.1 :: held.2.toList

/-- The reports on the phone, on their way, and at the server. -/
def Phone.labels (s : Phone) : List Label :=
  s.reports.map (·.label) ++ (s.sending ++ s.copies).map fun p => p.2.labelIn p.1

/-- A row of another author. -/
def TheirRow (w : Workspace) (rows : RoomEntries) (roomKey id : String) : Prop :=
  ∃ row ∈ rows, row.authorMemberId ≠ w.memberId ∧ row.key = (roomKey, id)

def TheirId (w : Workspace) (rows : RoomEntries) (id : String) : Prop :=
  ∃ row ∈ rows.rows, row.authorMemberId ≠ w.memberId ∧ row.payload.id = id

instance (w : Workspace) (rows : RoomEntries) (id : String) : Decidable (TheirId w rows id) :=
  inferInstanceAs (Decidable (∃ row ∈ rows.rows, _))

/-- Some report of the phone's scout for this robot is on the phone, on its way, or at the
server. -/
def Reported (w : Workspace) (s : Phone) (matchKey teamKey : String) : Prop :=
  ∃ l ∈ s.labels, ¬ TheirId w s.rows l.id ∧ l.matchKey = matchKey ∧ l.teamKey = teamKey

instance (w : Workspace) (s : Phone) (matchKey teamKey : String) :
    Decidable (Reported w s matchKey teamKey) :=
  inferInstanceAs (Decidable (∃ l ∈ s.labels, _))

/-- A save for a robot that has a report finds one in the list, under the room the scout is
in, and drawn ids are new. -/
def OneSafe (w : Workspace) (s : Phone) : SharingAction → Prop
  | .save save =>
      previousReport s.entries save = none →
        save.newId ∉ s.labels.map (·.id) ∧ ¬ Reported w s save.matchKey save.teamKey
  | .teammate _ _ _ entry => TheirId w s.rows entry.id ∨ entry.id ∉ s.labels.map (·.id)
  | _ => True

instance (w : Workspace) (s : Phone) (a : SharingAction) : Decidable (OneSafe w s a) := by
  cases a <;> unfold OneSafe <;> infer_instance

/-- The same report, which sharing may have put into its team's room. -/
structure Same (w : Workspace) (l m : Label) : Prop where
  id : l.id = m.id
  matchKey : l.matchKey = m.matchKey
  teamKey : l.teamKey = m.teamKey
  eventKey : l.eventKey = m.eventKey
  target : l.target w = m.target w

/-- In the room of another author's row of this id, where the server refuses it. -/
def Refused (w : Workspace) (rows : RoomEntries) (l : Label) : Prop :=
  l.room ≠ "" ∧ TheirRow w rows l.room l.id

/-- All reports of one robot from this phone are the same report. -/
structure OneEach (w : Workspace) (rows : RoomEntries) (labels : List Label) : Prop where
  refused : ∀ l ∈ labels, TheirId w rows l.id → Refused w rows l
  same : ∀ l ∈ labels, ∀ m ∈ labels, ¬ TheirId w rows l.id → ¬ TheirId w rows m.id →
    (l.id = m.id ∨ (l.matchKey = m.matchKey ∧ l.teamKey = m.teamKey)) → Same w l m
  eventKey : ∀ l ∈ labels, ¬ TheirId w rows l.id → l.eventKey = w.eventOf l.matchKey

/-- Nothing new to these reports. -/
def Traced (w : Workspace) (rows : RoomEntries) (labels : List Label) (l : Label) : Prop :=
  Refused w rows l ∨ ∃ m ∈ labels, ¬ TheirId w rows m.id ∧ Same w l m

theorem Same.refl (w : Workspace) (l : Label) : Same w l l :=
  ⟨rfl, rfl, rfl, rfl, rfl⟩

theorem Same.of_target {w : Workspace} {e : Entry} {room room' : String}
    (h : (e.labelIn room).target w = (e.labelIn room').target w) :
    Same w (e.labelIn room) (e.labelIn room') :=
  ⟨rfl, rfl, rfl, rfl, h⟩

theorem Same.symm {w : Workspace} {l m : Label} (h : Same w l m) : Same w m l :=
  ⟨h.id.symm, h.matchKey.symm, h.teamKey.symm, h.eventKey.symm, h.target.symm⟩

theorem Same.trans {w : Workspace} {l m n : Label} (h : Same w l m) (h' : Same w m n) :
    Same w l n :=
  ⟨h.id.trans h'.id, h.matchKey.trans h'.matchKey, h.teamKey.trans h'.teamKey,
    h.eventKey.trans h'.eventKey, h.target.trans h'.target⟩

theorem TheirRow.theirId {w : Workspace} {rows : RoomEntries} {roomKey id : String}
    (h : TheirRow w rows roomKey id) : TheirId w rows id := by
  obtain ⟨row, hrow, hauthor, hkey⟩ := h
  exact ⟨row, hrow, hauthor, congrArg Prod.snd hkey⟩

theorem theirId_iff {w : Workspace} {rows : RoomEntries} {id : String} :
    TheirId w rows id ↔ ∃ roomKey, TheirRow w rows roomKey id := by
  refine ⟨fun ⟨row, hrow, hauthor, hid⟩ => ⟨row.roomKey, row, hrow, hauthor, ?_⟩, ?_⟩
  · rw [ScoutingRoomEntry.key, hid]
  · exact fun ⟨_, h⟩ => h.theirId

/-! ### Reports that are traced to others -/

theorem OneEach.traced {w : Workspace} {rows : RoomEntries} {labels : List Label}
    (h : OneEach w rows labels) {l : Label} (hl : l ∈ labels) : Traced w rows labels l := by
  by_cases htheirs : TheirId w rows l.id
  · exact .inl (h.refused l hl htheirs)
  · exact .inr ⟨l, hl, htheirs, .refl w l⟩

/-- A traced report that is the scout's own is the same as one of the others. -/
theorem Traced.own {w : Workspace} {rows : RoomEntries} {labels : List Label} {l : Label}
    (h : Traced w rows labels l) (hown : ¬ TheirId w rows l.id) :
    ∃ m ∈ labels, ¬ TheirId w rows m.id ∧ Same w l m :=
  h.resolve_left fun hrefused => hown hrefused.2.theirId

theorem OneEach.of_traced {w : Workspace} {rows : RoomEntries} {labels labels' : List Label}
    (h : OneEach w rows labels) (htraced : ∀ l ∈ labels', Traced w rows labels l) :
    OneEach w rows labels' where
  refused l hl htheirs := by
    cases htraced l hl with
    | inl hrefused => exact hrefused
    | inr hsame =>
        obtain ⟨m, -, hown, hlm⟩ := hsame
        exact absurd (hlm.id ▸ htheirs) hown
  same l hl l' hl' hown hown' hlike := by
    obtain ⟨m, hm, hmown, hlm⟩ := (htraced l hl).own hown
    obtain ⟨m', hm', hmown', hlm'⟩ := (htraced l' hl').own hown'
    refine (hlm.trans (h.same m hm m' hm' hmown hmown' ?_)).trans hlm'.symm
    rwa [← hlm.id, ← hlm.matchKey, ← hlm.teamKey, ← hlm'.id, ← hlm'.matchKey, ← hlm'.teamKey]
  eventKey l hl hown := by
    obtain ⟨m, hm, hmown, hlm⟩ := (htraced l hl).own hown
    rw [hlm.eventKey, hlm.matchKey]
    exact h.eventKey m hm hmown

/-- The first report of a robot, under a new id. -/
theorem OneEach.cons {w : Workspace} {rows : RoomEntries} {labels : List Label}
    (h : OneEach w rows labels) {l : Label} (hid : ∀ m ∈ labels, m.id ≠ l.id)
    (hnot : ¬ TheirId w rows l.id)
    (hrobot : ∀ m ∈ labels, ¬ TheirId w rows m.id →
      ¬ (m.matchKey = l.matchKey ∧ m.teamKey = l.teamKey))
    (hevent : l.eventKey = w.eventOf l.matchKey) : OneEach w rows (l :: labels) where
  refused m hm htheirs := by
    cases List.mem_cons.mp hm with
    | inl heq => exact absurd (heq ▸ htheirs) hnot
    | inr hold => exact h.refused m hold htheirs
  same m hm n hn hmown hnown hlike := by
    cases List.mem_cons.mp hm with
    | inl hml =>
        cases List.mem_cons.mp hn with
        | inl hnl => rw [hml, hnl]; exact .refl w l
        | inr hnold =>
            rw [hml] at hlike
            cases hlike with
            | inl heq => exact absurd heq.symm (hid n hnold)
            | inr heq => exact absurd ⟨heq.1.symm, heq.2.symm⟩ (hrobot n hnold hnown)
    | inr hmold =>
        cases List.mem_cons.mp hn with
        | inl hnl =>
            rw [hnl] at hlike
            cases hlike with
            | inl heq => exact absurd heq (hid m hmold)
            | inr heq => exact absurd heq (hrobot m hmold hmown)
        | inr hnold => exact h.same m hmold n hnold hmown hnown hlike
  eventKey m hm hown := by
    cases List.mem_cons.mp hm with
    | inl heq => rw [heq]; exact hevent
    | inr hold => exact h.eventKey m hold hown

/-! ### What the server does with a report -/

/-- Where a request is stored, all rows stay but the one it replaces, whose author sent it. -/
structure Persisted (rows rows' : RoomEntries) (sender : Nat) (row : ScoutingRoomEntry) : Prop where
  mem : ∀ y, y ∈ rows' ↔ y = row ∨ (y ∈ rows ∧ y.key ≠ row.key)
  author : row.authorMemberId = sender
  sameAuthor : ∀ y ∈ rows, y.key = row.key → y.authorMemberId = sender

theorem persistRoomEntry_spec {rows rows' : RoomEntries} {roomKey scoutProfile : String}
    {author : Nat} {entry : Entry} {row : ScoutingRoomEntry}
    (h : persistRoomEntry rows roomKey scoutProfile author entry = some (rows', row)) :
    Persisted rows rows' author row ∧ row.roomKey = roomKey ∧ row.payload.id = entry.id ∧
      (row ∈ rows ∨ row.payload = { entry with scoutProfile := scoutProfile }) := by
  cases hget : rows.get? (roomKey, entry.id) with
  | none =>
      simp only [persistRoomEntry, hget, Option.some.injEq, Prod.mk.injEq] at h
      obtain ⟨rfl, rfl⟩ := h
      refine ⟨⟨fun y => Table.mem_put, rfl, ?_⟩, rfl, rfl, .inr rfl⟩
      exact fun y hy hkey => absurd hkey (Table.get?_eq_none.mp hget y hy)
  | some existing =>
      obtain ⟨hmem, hkey⟩ := Table.get?_eq_some.mp hget
      obtain ⟨hroom, hid⟩ := Prod.mk.inj hkey
      by_cases hauthor : existing.authorMemberId = author
      · have hsame : ∀ y ∈ rows, y.key = existing.key → y.authorMemberId = author := by
          intro y hy hykey
          rwa [Table.eq_of_key hy hmem hykey]
        by_cases hnew : entry.savedAtMs ≤ existing.payload.savedAtMs
        · simp only [persistRoomEntry, hget, hauthor, hnew, if_true, ne_eq, not_true_eq_false,
            if_false, Option.some.injEq, Prod.mk.injEq] at h
          obtain ⟨rfl, rfl⟩ := h
          refine ⟨⟨fun y => ⟨fun hy => ?_, ?_⟩, hauthor, hsame⟩, hroom, hid, .inl hmem⟩
          · by_cases hykey : y.key = existing.key
            · exact .inl (Table.eq_of_key hy hmem hykey)
            · exact .inr ⟨hy, hykey⟩
          · intro hy
            cases hy with
            | inl heq => exact heq ▸ hmem
            | inr hold => exact hold.1
        · simp only [persistRoomEntry, hget, hauthor, hnew, ne_eq, not_true_eq_false,
            if_false, Option.some.injEq, Prod.mk.injEq] at h
          obtain ⟨rfl, rfl⟩ := h
          refine ⟨⟨fun y => Table.mem_put, rfl, ?_⟩, hroom, rfl, .inr rfl⟩
          intro y hy hykey
          refine hsame y hy (hykey.trans ?_)
          rw [ScoutingRoomEntry.key, ScoutingRoomEntry.key, hid]
      · simp [persistRoomEntry, hget, hauthor] at h

theorem Persisted.theirRow {w : Workspace} {rows rows' : RoomEntries} {author : Nat}
    {row : ScoutingRoomEntry} (h : Persisted rows rows' author row) {roomKey id : String} :
    TheirRow w rows' roomKey id ↔ TheirRow w rows roomKey id ∨
      (author ≠ w.memberId ∧ row.key = (roomKey, id)) := by
  constructor
  · intro ⟨y, hy, hauthor, hkey⟩
    cases (h.mem y).mp hy with
    | inl heq => exact .inr ⟨h.author ▸ heq ▸ hauthor, heq ▸ hkey⟩
    | inr hold => exact .inl ⟨y, hold.1, hauthor, hkey⟩
  · intro htheirs
    cases htheirs with
    | inl hold =>
        obtain ⟨y, hy, hauthor, hkey⟩ := hold
        by_cases hrow : y.key = row.key
        · refine ⟨row, (h.mem row).mpr (.inl rfl), ?_, hrow.symm.trans hkey⟩
          rwa [h.author, ← h.sameAuthor y hy hrow]
        · exact ⟨y, (h.mem y).mpr (.inr ⟨hy, hrow⟩), hauthor, hkey⟩
    | inr hnew => exact ⟨row, (h.mem row).mpr (.inl rfl), h.author ▸ hnew.1, hnew.2⟩

/-- A request of the phone's scout changes no row of another author. -/
theorem Persisted.oneEach {w : Workspace} {rows rows' : RoomEntries} {row : ScoutingRoomEntry}
    {labels : List Label} (h : Persisted rows rows' w.memberId row)
    (hone : OneEach w rows labels) : OneEach w rows' labels := by
  have hrow : ∀ roomKey id, TheirRow w rows' roomKey id ↔ TheirRow w rows roomKey id := by
    intro roomKey id
    simp [h.theirRow]
  have hid : ∀ id, TheirId w rows' id ↔ TheirId w rows id := by
    intro id
    rw [theirId_iff, theirId_iff]
    exact exists_congr fun roomKey => hrow roomKey id
  refine ⟨fun l hl htheirs => ?_, fun l hl m hm hown hown' => ?_, fun l hl hown => ?_⟩
  · obtain ⟨hroom, htheir⟩ := hone.refused l hl ((hid _).mp htheirs)
    exact ⟨hroom, (hrow _ _).mpr htheir⟩
  · exact hone.same l hl m hm (mt (hid _).mpr hown) (mt (hid _).mpr hown')
  · exact hone.eventKey l hl (mt (hid _).mpr hown)

/-- Another author's report has an id of its own. -/
theorem Persisted.oneEach_theirs {w : Workspace} {rows rows' : RoomEntries}
    {row : ScoutingRoomEntry} {labels : List Label} {author : Nat}
    (h : Persisted rows rows' author row) (hone : OneEach w rows labels)
    (hnew : TheirId w rows row.payload.id ∨ row.payload.id ∉ labels.map (·.id)) :
    OneEach w rows' labels := by
  have hrow : ∀ roomKey id, TheirRow w rows roomKey id → TheirRow w rows' roomKey id :=
    fun _ _ htheirs => h.theirRow.mpr (.inl htheirs)
  have hkeep : ∀ id, TheirId w rows id → TheirId w rows' id := by
    intro id htheirs
    obtain ⟨roomKey, hin⟩ := theirId_iff.mp htheirs
    exact (hrow _ _ hin).theirId
  have hback : ∀ l ∈ labels, TheirId w rows' l.id → TheirId w rows l.id := by
    intro l hl htheirs
    obtain ⟨roomKey, hin⟩ := theirId_iff.mp htheirs
    cases h.theirRow.mp hin with
    | inl hold => exact hold.theirId
    | inr hput =>
        have hid : row.payload.id = l.id := congrArg Prod.snd hput.2
        cases hnew with
        | inl htheirs => exact hid ▸ htheirs
        | inr hfresh => exact absurd (hid ▸ List.mem_map_of_mem hl) hfresh
  refine ⟨fun l hl htheirs => ?_, fun l hl m hm hown hown' => ?_, fun l hl hown => ?_⟩
  · obtain ⟨hroom, htheir⟩ := hone.refused l hl (hback l hl htheirs)
    exact ⟨hroom, hrow _ _ htheir⟩
  · exact hone.same l hl m hm (mt (hkeep _) hown) (mt (hkeep _) hown')
  · exact hone.eventKey l hl (mt (hkeep _) hown)

/-! ### What the phone's steps do to the reports -/

structure PhoneInv (w : Workspace) (s : Phone) : Prop where
  each : OneEach w s.rows s.labels
  room : ∀ roomKey, s.room = some roomKey → IsRoomKey roomKey
  pairs : ∀ p ∈ s.sending ++ s.copies, IsRoomKey p.1
  rows : ∀ row ∈ s.rows, (row.roomKey, row.payload) ∈ s.copies

theorem mem_reports {s : Phone} {e : Entry} :
    e ∈ s.reports ↔ e ∈ s.entries ∨ e ∈ s.stored ∨ e ∈ s.finishing ∨
      ∃ held, s.held = some held ∧ (e = held.1 ∨ held.2 = some e) := by
  cases hheld : s.held <;> simp [Phone.reports, hheld]

theorem mem_labels {s : Phone} {l : Label} :
    l ∈ s.labels ↔ (∃ e ∈ s.reports, e.label = l) ∨
      ∃ p ∈ s.sending ++ s.copies, p.2.labelIn p.1 = l := by
  simp only [Phone.labels, List.mem_append (s := s.reports.map _), List.mem_map]

theorem mem_labels_report {s : Phone} {e : Entry} (h : e ∈ s.reports) : e.label ∈ s.labels :=
  mem_labels.mpr (.inl ⟨e, h, rfl⟩)

theorem mem_labels_entry {s : Phone} {e : Entry} (h : e ∈ s.entries) : e.label ∈ s.labels :=
  mem_labels_report (mem_reports.mpr (.inl h))

theorem mem_labels_copy {s : Phone} {roomKey : String} {e : Entry} (h : (roomKey, e) ∈ s.copies) :
    e.labelIn roomKey ∈ s.labels :=
  mem_labels.mpr (.inr ⟨(roomKey, e), List.mem_append_right _ h, rfl⟩)

theorem mem_labels_sending {s : Phone} {roomKey : String} {e : Entry}
    (h : (roomKey, e) ∈ s.sending) : e.labelIn roomKey ∈ s.labels :=
  mem_labels.mpr (.inr ⟨(roomKey, e), List.mem_append_left _ h, rfl⟩)

/-- A report with the room of another of its id. -/
theorem OneEach.traced_labelIn {w : Workspace} {rows : RoomEntries} {labels : List Label}
    (h : OneEach w rows labels) {a b : Entry} {roomKey : String} (ha : a.label ∈ labels)
    (hb : b.labelIn roomKey ∈ labels) (hid : a.id = b.id) :
    Traced w rows labels (a.labelIn roomKey) := by
  by_cases htheirs : TheirId w rows b.id
  · obtain ⟨hroom, hrow⟩ := h.refused _ hb htheirs
    exact .inl ⟨hroom, show TheirRow w rows roomKey a.id from hid ▸ hrow⟩
  · have hown : ¬ TheirId w rows a.id := hid ▸ htheirs
    have hsame := h.same _ ha _ hb hown htheirs (.inl hid)
    have heq : a.labelIn roomKey = b.labelIn roomKey :=
      Label.mk.injEq .. ▸ ⟨hsame.id, hsame.matchKey, hsame.teamKey, hsame.eventKey, rfl⟩
    rw [heq]
    exact .inr ⟨_, hb, htheirs, .refl w _⟩

@[simp] theorem label_keepLocalAnalytics (e : Entry) (here : Option Entry) :
    (keepLocalAnalytics e here).label = e.label := by
  cases here <;> rfl

theorem label_in (e : Entry) {roomKey : String} (h : IsRoomKey roomKey) :
    ({ e with roomKey := some roomKey } : Entry).label = e.labelIn roomKey := by
  simp [SavedScoutingEntry.label, SavedScoutingEntry.labelIn, SavedScoutingEntry.room, h.1]

theorem firstKey_room {roomKey : String} (h : IsRoomKey roomKey) (rest : List String) :
    firstKey (normalizeRoomKey roomKey :: rest) = some roomKey := by
  rw [h.1, firstKey, List.find?_cons_of_pos (by simpa using h.2)]

theorem PhoneInv.traced_report {w : Workspace} {s : Phone} (h : PhoneInv w s) {e : Entry}
    (he : e ∈ s.reports) : Traced w s.rows s.labels e.label :=
  h.each.traced (mem_labels_report he)

theorem PhoneInv.traced_entry {w : Workspace} {s : Phone} (h : PhoneInv w s) {e : Entry}
    (he : e ∈ s.entries) : Traced w s.rows s.labels e.label :=
  h.each.traced (mem_labels_entry he)

theorem PhoneInv.roomKey_copy {w : Workspace} {s : Phone} (h : PhoneInv w s) {roomKey : String}
    {copy : Entry} (hcopy : (roomKey, copy) ∈ s.copies) : IsRoomKey roomKey :=
  h.pairs (roomKey, copy) (List.mem_append_right _ hcopy)

/-- A step on the phone only, after which it has no report that is not traced. -/
theorem PhoneInv.next {w : Workspace} {s t : Phone} (h : PhoneInv w s) (hrows : t.rows = s.rows)
    (hcopies : t.copies = s.copies) (hroom : ∀ roomKey, t.room = some roomKey → IsRoomKey roomKey)
    (hreports : ∀ e ∈ t.reports, Traced w s.rows s.labels e.label)
    (hsending : ∀ p ∈ t.sending, p ∈ s.sending ∨
      (IsRoomKey p.1 ∧ Traced w s.rows s.labels (p.2.labelIn p.1))) : PhoneInv w t := by
  refine ⟨hrows ▸ h.each.of_traced ?_, hroom, ?_, hrows ▸ hcopies ▸ h.rows⟩
  · intro l hl
    cases mem_labels.mp hl with
    | inl hreport =>
        obtain ⟨e, he, rfl⟩ := hreport
        exact hreports e he
    | inr hpair =>
        obtain ⟨p, hp, rfl⟩ := hpair
        cases List.mem_append.mp hp with
        | inl hsent =>
            cases hsending p hsent with
            | inl hold => exact h.each.traced (mem_labels_sending hold)
            | inr hnew => exact hnew.2
        | inr hcopy =>
            rw [hcopies] at hcopy
            exact h.each.traced (mem_labels_copy hcopy)
  · intro p hp
    cases List.mem_append.mp hp with
    | inl hsent =>
        cases hsending p hsent with
        | inl hold => exact h.pairs p (List.mem_append_left _ hold)
        | inr hnew => exact hnew.1
    | inr hcopy =>
        rw [hcopies] at hcopy
        exact h.pairs p (List.mem_append_right _ hcopy)

/-- A step that changes the list only. -/
theorem PhoneInv.entries {w : Workspace} {s : Phone} (h : PhoneInv w s) {entries : List Entry}
    (hentries : ∀ e ∈ entries, Traced w s.rows s.labels e.label) :
    PhoneInv w { s with entries := entries } := by
  refine h.next rfl rfl h.room (fun e he => ?_) fun p hp => .inl hp
  cases mem_reports.mp he with
  | inl hin => exact hentries e hin
  | inr hrest => exact h.traced_report (mem_reports.mpr (.inr hrest))

/-- `updateEntry` puts in a report that is traced. -/
theorem PhoneInv.updateEntry {w : Workspace} {s : Phone} (h : PhoneInv w s) {id : String}
    {f : Entry → Entry} (hf : ∀ latest ∈ s.entries, latest.id = id →
      Traced w s.rows s.labels (f latest).label) :
    ∀ e ∈ updateEntry s.entries id f, Traced w s.rows s.labels e.label := by
  intro e he
  cases mem_of_mem_updateEntry he with
  | inl hold => exact h.traced_entry hold
  | inr hnew =>
      obtain ⟨latest, hlatest, hid, here, rfl⟩ := hnew
      rw [label_keepLocalAnalytics]
      exact hf latest hlatest hid

/-- The server's copy of a report, in its room. -/
theorem PhoneInv.traced_copy {w : Workspace} {s : Phone} (h : PhoneInv w s) {roomKey : String}
    {copy e : Entry} (hcopy : (roomKey, copy) ∈ s.copies)
    (heq : e.label = copy.labelIn roomKey) : Traced w s.rows s.labels e.label :=
  heq ▸ h.each.traced (mem_labels_copy hcopy)

theorem PhoneInv.fillIn {w : Workspace} {s : Phone} (h : PhoneInv w s) {entry : Entry}
    (hentry : entry ∈ s.finishing) (snapshot rating : String) :
    ∀ e ∈ fillIn s.entries entry snapshot rating, Traced w s.rows s.labels e.label := by
  have hmem : entry ∈ s.reports := mem_reports.mpr (.inr (.inr (.inl hentry)))
  refine h.updateEntry fun latest hlatest hid => ?_
  cases hroom : latest.roomKey with
  | none =>
      have heq : entry.label = SavedScoutingEntry.label { entry with
          apiSnapshot := some snapshot
          scoutingApiRating := some rating
          roomKey := none <|> entry.roomKey
          serverSynced := latest.serverSynced || entry.serverSynced } := rfl
      exact heq ▸ h.traced_report hmem
  | some roomKey =>
      have heq : entry.labelIn latest.room = SavedScoutingEntry.label { entry with
          apiSnapshot := some snapshot
          scoutingApiRating := some rating
          roomKey := some roomKey <|> entry.roomKey
          serverSynced := latest.serverSynced || entry.serverSynced } := by
        rw [SavedScoutingEntry.room, hroom]
        rfl
      exact heq ▸ h.each.traced_labelIn (mem_labels_report hmem) (mem_labels_entry hlatest) hid.symm

theorem PhoneInv.shareQueued {w : Workspace} {s : Phone} (h : PhoneInv w s) {roomKey : String}
    {entry : Entry} (hsent : (roomKey, entry) ∈ s.sending) :
    ∀ e ∈ shareQueued s.entries entry.id roomKey, Traced w s.rows s.labels e.label := by
  have hroom : IsRoomKey roomKey := h.pairs (roomKey, entry) (List.mem_append_left _ hsent)
  refine h.updateEntry fun latest hlatest hid => ?_
  have heq : SavedScoutingEntry.label { latest with
      roomKey := some roomKey
      serverSynced := false } = latest.labelIn roomKey :=
    label_in { latest with serverSynced := false } hroom
  rw [heq]
  exact h.each.traced_labelIn (mem_labels_entry hlatest) (mem_labels_sending hsent) hid

theorem PhoneInv.syncAck {w : Workspace} {s : Phone} (h : PhoneInv w s) {roomKey : String}
    {copy : Entry} (hcopy : (roomKey, copy) ∈ s.copies) :
    ∀ e ∈ syncAck s.entries copy roomKey, Traced w s.rows s.labels e.label := by
  refine h.updateEntry fun latest _ _ => h.traced_copy hcopy ?_
  rw [firstKey_room (h.roomKey_copy hcopy)]
  exact label_in { copy with serverSynced := true } (h.roomKey_copy hcopy)

theorem PhoneInv.shareAck {w : Workspace} {s : Phone} (h : PhoneInv w s) {roomKey : String}
    {copy : Entry} (hcopy : (roomKey, copy) ∈ s.copies) :
    ∀ e ∈ shareAck s.entries copy.id copy roomKey, Traced w s.rows s.labels e.label := by
  refine h.updateEntry fun latest _ _ => h.traced_copy hcopy ?_
  exact label_in { copy with
    apiSnapshot := latest.apiSnapshot <|> copy.apiSnapshot
    scoutingApiRating := latest.scoutingApiRating <|> copy.scoutingApiRating
    serverSynced := true } (h.roomKey_copy hcopy)

theorem PhoneInv.liveCopy {w : Workspace} {s : Phone} (h : PhoneInv w s) {roomKey : String}
    {copy : Entry} (hcopy : (roomKey, copy) ∈ s.copies) :
    ∀ e ∈ liveCopy s.entries copy roomKey, Traced w s.rows s.labels e.label := by
  intro e he
  cases mem_of_mem_mergeEntry he with
  | inl hnew =>
      refine h.traced_copy hcopy ?_
      rw [hnew, label_keepLocalAnalytics, firstKey_room (h.roomKey_copy hcopy)]
      exact label_in copy (h.roomKey_copy hcopy)
  | inr hold => exact h.traced_entry hold

theorem PhoneInv.roomSnapshot {w : Workspace} {s : Phone} (h : PhoneInv w s)
    {entries : List Entry} {roomKey : String} {records : List RoomEntryRecord}
    (hsub : ∀ e ∈ entries, e ∈ s.entries) (hanswers : Answers s roomKey records) :
    ∀ e ∈ roomSnapshot entries roomKey records, Traced w s.rows s.labels e.label := by
  intro e he
  cases mem_of_mem_replaceRoomEntries (distinct_entriesFromRoomRecords ..) he with
  | inl hold => exact h.traced_entry (hsub e (mem_stripEntriesForRoom.mp hold).1)
  | inr hserver =>
      obtain ⟨server, hin, rfl⟩ := hserver
      obtain ⟨record, hrecord, hentry⟩ := mem_of_mem_entriesFromRoomRecords hanswers.1 hin
      obtain ⟨copy, hcopy, rfl⟩ := Option.map_eq_some_iff.mp hentry
      obtain ⟨hroom, hcopies⟩ := hanswers.2 record hrecord
      have hcopy := hcopies copy hcopy
      refine h.traced_copy hcopy ?_
      rw [label_keepLocalAnalytics, hroom, Option.getD_some, firstKey_room (h.roomKey_copy hcopy)]
      exact label_in { copy with serverSynced := true } (h.roomKey_copy hcopy)

/-- A save either makes its robot's first report, or keeps the id and room of the report that
it replaces. -/
theorem PhoneInv.each_saved {w : Workspace} {s : Phone} (h : PhoneInv w s) {save : Save}
    (hevent : save.eventKey = w.eventOf save.matchKey) (safe : OneSafe w s (.save save)) :
    OneEach w s.rows ((savedEntry save (previousReport s.entries save)).label :: s.labels) := by
  cases hprevious : previousReport s.entries save with
  | none =>
      obtain ⟨hid, hrobot⟩ := safe hprevious
      refine h.each.cons (fun m hm heq => hid (List.mem_map.mpr ⟨m, hm, heq⟩)) ?_ ?_ hevent
      · intro ⟨row, hrow, _, hrowid⟩
        refine hid (List.mem_map.mpr ⟨_, mem_labels_copy (h.rows row hrow), hrowid⟩)
      · exact fun m hm hown hlike => hrobot ⟨m, hm, hown, hlike⟩
  | some previous =>
      have hmem := mem_labels_entry (previousReport_mem hprevious)
      obtain ⟨hmatch, hteam, -, hroomKey⟩ := previousReport_spec hprevious
      have hroom : (savedEntry save (some previous)).room = previous.room := by
        rw [SavedScoutingEntry.room, SavedScoutingEntry.room, hroomKey, savedEntry]
      refine h.each.of_traced fun l hl => ?_
      cases List.mem_cons.mp hl with
      | inr hold => exact h.each.traced hold
      | inl heq =>
          rw [heq]
          by_cases htheirs : TheirId w s.rows previous.id
          · obtain ⟨hne, hrow⟩ := h.each.refused _ hmem htheirs
            refine .inl ⟨?_, ?_⟩
            · rwa [SavedScoutingEntry.label, hroom]
            · rwa [SavedScoutingEntry.label, hroom]
          · refine .inr ⟨previous.label, hmem, htheirs, ?_⟩
            have hsameEvent : previous.eventKey = save.eventKey := by
              rw [hevent, ← hmatch]
              exact h.each.eventKey _ hmem htheirs
            have hlabel : (savedEntry save (some previous)).label = previous.label := by
              rw [SavedScoutingEntry.label, hroom, SavedScoutingEntry.label,
                SavedScoutingEntry.labelIn, SavedScoutingEntry.labelIn, hmatch, hteam, hsameEvent]
              rfl
            exact hlabel ▸ .refl w _

theorem mem_reports_closeToast {s : Phone} {e : Entry} (h : e ∈ s.closeToast.finishing) :
    e ∈ s.reports := by
  cases hheld : s.held with
  | none =>
      rw [Phone.closeToast, hheld] at h
      exact mem_reports.mpr (.inr (.inr (.inl h)))
  | some held =>
      rw [Phone.closeToast, hheld] at h
      cases List.mem_cons.mp h with
      | inl heq => exact mem_reports.mpr (.inr (.inr (.inr ⟨held, hheld, .inl heq⟩)))
      | inr hold => exact mem_reports.mpr (.inr (.inr (.inl hold)))

theorem closeToast_frame (s : Phone) : s.closeToast.entries = s.entries ∧
    s.closeToast.stored = s.stored ∧ s.closeToast.room = s.room ∧ s.closeToast.held = none ∧
      s.closeToast.sending = s.sending ∧ s.closeToast.rows = s.rows ∧
        s.closeToast.copies = s.copies := by
  cases hheld : s.held <;> simp [Phone.closeToast, hheld]

theorem PhoneInv.closeToast {w : Workspace} {s : Phone} (h : PhoneInv w s) :
    PhoneInv w s.closeToast := by
  obtain ⟨hentries, hstored, hroom, hheld, hsending, hrows, hcopies⟩ := closeToast_frame s
  refine h.next hrows hcopies (hroom ▸ h.room) (fun e he => h.traced_report ?_)
    fun p hp => .inl (hsending ▸ hp)
  rcases mem_reports.mp he with hin | hin | hin | ⟨_, hsome, _⟩
  · exact mem_reports.mpr (.inl (hentries ▸ hin))
  · exact mem_reports.mpr (.inr (.inl (hstored ▸ hin)))
  · exact mem_reports_closeToast hin
  · rw [hheld] at hsome
    cases hsome

/-- A step on the phone may bring in one report that keeps one report for each robot. -/
theorem PhoneInv.add {w : Workspace} {s t : Phone} (h : PhoneInv w s) {entry : Entry}
    (heach : OneEach w s.rows (entry.label :: s.labels)) (hrows : t.rows = s.rows)
    (hcopies : t.copies = s.copies) (hroom : t.room = s.room) (hsending : t.sending = s.sending)
    (hreports : ∀ e ∈ t.reports, e = entry ∨ e ∈ s.reports) : PhoneInv w t := by
  refine ⟨hrows ▸ heach.of_traced ?_, hroom ▸ h.room, hsending ▸ hcopies ▸ h.pairs,
    hrows ▸ hcopies ▸ h.rows⟩
  intro l hl
  refine heach.traced ?_
  cases mem_labels.mp hl with
  | inl hreport =>
      obtain ⟨e, he, rfl⟩ := hreport
      cases hreports e he with
      | inl heq => exact heq ▸ List.mem_cons_self
      | inr hold => exact List.mem_cons_of_mem _ (mem_labels_report hold)
  | inr hpair =>
      rw [hsending, hcopies] at hpair
      exact List.mem_cons_of_mem _ (mem_labels.mpr (.inr hpair))

theorem PhoneInv.saveReport {w : Workspace} {s : Phone} (h : PhoneInv w s) {save : Save}
    (hevent : save.eventKey = w.eventOf save.matchKey) (safe : OneSafe w s (.save save)) :
    PhoneInv w (s.saveReport save) := by
  obtain ⟨-, -, hroom, -, hsending, hrows, hcopies⟩ := closeToast_frame s
  have hsaved : ∀ e ∈ (s.saveReport save).entries,
      e = savedEntry save (previousReport s.entries save) ∨ e ∈ s.reports := by
    intro e he
    rcases mem_of_mem_savedEntries he with heq | hin | hin
    · exact .inl heq
    · exact .inr (mem_reports.mpr (.inl hin))
    · exact .inr (mem_reports.mpr (.inr (.inl hin)))
  refine h.add (h.each_saved hevent safe) hrows hcopies hroom hsending fun e he => ?_
  rcases mem_reports.mp he with hin | hin | hin | ⟨held, hheld, hin⟩
  · exact hsaved e hin
  · exact hsaved e hin
  · exact .inr (mem_reports_closeToast hin)
  · obtain rfl := Option.some_inj.mp hheld
    cases hin with
    | inl heq => exact .inl heq
    | inr hprevious =>
        exact .inr (mem_reports.mpr (.inl (previousReport_mem hprevious)))

/-- A stored row joins the copies. -/
theorem PhoneInv.hold {w : Workspace} {s : Phone} (h : PhoneInv w s) {rows : RoomEntries}
    {row : ScoutingRoomEntry} {author : Nat} (hrows : Persisted s.rows rows author row)
    (hroom : IsRoomKey row.roomKey)
    (heach : OneEach w rows (row.payload.labelIn row.roomKey :: s.labels)) :
    PhoneInv w (s.hold (rows, row)) := by
  refine ⟨heach.of_traced fun l hl => heach.traced ?_, h.room, ?_, ?_⟩
  · cases mem_labels.mp hl with
    | inl hreport => exact List.mem_cons_of_mem _ (mem_labels.mpr (.inl hreport))
    | inr hpair =>
        obtain ⟨p, hp, rfl⟩ := hpair
        cases List.mem_append.mp hp with
        | inl hsent => exact List.mem_cons_of_mem _ (mem_labels_sending hsent)
        | inr hcopy =>
            cases List.mem_cons.mp hcopy with
            | inl heq => exact heq ▸ List.mem_cons_self
            | inr hold => exact List.mem_cons_of_mem _ (mem_labels_copy hold)
  · intro p hp
    cases List.mem_append.mp hp with
    | inl hsent => exact h.pairs p (List.mem_append_left _ hsent)
    | inr hcopy =>
        cases List.mem_cons.mp hcopy with
        | inl heq => exact heq ▸ hroom
        | inr hold => exact h.pairs p (List.mem_append_right _ hold)
  · intro y hy
    cases (hrows.mem y).mp hy with
    | inl heq => exact heq ▸ List.mem_cons_self
    | inr hold => exact List.mem_cons_of_mem _ (h.rows y hold.1)

/-- A request reaches the server, which stores it under the phone's scout. -/
theorem PhoneInv.transmit {w : Workspace} {s : Phone} (h : PhoneInv w s)
    {roomKey scoutProfile : String} {entry : Entry} (hsent : (roomKey, entry) ∈ s.sending)
    {saved : RoomEntries × ScoutingRoomEntry}
    (hsaved : persistRoomEntry s.rows roomKey scoutProfile w.memberId entry = some saved) :
    PhoneInv w (s.hold saved) := by
  obtain ⟨rows, row⟩ := saved
  obtain ⟨hrows, hroom, -, hpayload⟩ := persistRoomEntry_spec hsaved
  have hlabel : row.payload.labelIn row.roomKey ∈ s.labels := by
    cases hpayload with
    | inl hold => exact mem_labels_copy (h.rows row hold)
    | inr hnew =>
        rw [hnew, hroom]
        exact (mem_labels_sending hsent : entry.labelIn roomKey ∈ s.labels)
  have hkey : IsRoomKey row.roomKey :=
    hroom ▸ h.pairs (roomKey, entry) (List.mem_append_left _ hsent)
  refine h.hold hrows hkey (hrows.oneEach (h.each.of_traced fun l hl => h.each.traced ?_))
  cases List.mem_cons.mp hl with
  | inl heq => exact heq ▸ hlabel
  | inr hold => exact hold

theorem PhoneInv.teammate {w : Workspace} {s : Phone} (h : PhoneInv w s)
    {author : Nat} {scoutProfile roomKey : String} {entry : Entry} (hauthor : author ≠ w.memberId)
    (hroom : IsRoomKey roomKey)
    (safe : OneSafe w s (.teammate author scoutProfile roomKey entry))
    {saved : RoomEntries × ScoutingRoomEntry}
    (hsaved : persistRoomEntry s.rows roomKey scoutProfile author entry = some saved) :
    PhoneInv w (s.hold saved) := by
  obtain ⟨rows, row⟩ := saved
  obtain ⟨hrows, rfl, hid, -⟩ := persistRoomEntry_spec hsaved
  have heach := hrows.oneEach_theirs h.each (hid ▸ safe)
  refine h.hold hrows hroom (heach.of_traced fun l hl => ?_)
  cases List.mem_cons.mp hl with
  | inl heq =>
      refine .inl (heq ▸ ⟨hroom.2, ?_⟩)
      exact hrows.theirRow.mpr (.inr ⟨hauthor, rfl⟩)
  | inr hold => exact heach.traced hold

/-- What the share loop sends goes to the report's target. -/
theorem PhoneInv.shareable {w : Workspace} {s : Phone} (h : PhoneInv w s) {roomKey : String}
    {entry : Entry} (hkey : IsRoomKey roomKey) (hshare : Shareable w s roomKey entry) :
    Traced w s.rows s.labels (entry.labelIn roomKey) := by
  obtain ⟨hteam, hcandidate⟩ := hshare
  obtain ⟨hmem, -, -, hroom, -⟩ := mem_shareCandidates.mp hcandidate
  have hlabel := mem_labels_entry hmem
  by_cases hnone : entry.room = ""
  · have hown : ¬ TheirId w s.rows entry.id := fun htheirs =>
      (h.each.refused _ hlabel htheirs).1 hnone
    have htarget : (entry.labelIn roomKey).target w = entry.label.target w := by
      simp [Label.target, SavedScoutingEntry.label, SavedScoutingEntry.labelIn, hkey.2, hnone,
        hteam]
    exact .inr ⟨entry.label, hlabel, hown, .of_target htarget⟩
  · have hsame : entry.room = roomKey := by
      cases hroom with
      | inl hempty =>
          rw [SavedScoutingEntry.room, hempty, normalizeRoomKey_empty] at hnone
          exact absurd rfl hnone
      | inr heq => exact heq.trans hkey.1
    exact hsame ▸ h.each.traced hlabel

theorem Phone.mem_withoutOtherRoom (s : Phone) (joined : String) :
    ∀ e ∈ s.withoutOtherRoom joined, e ∈ s.entries := by
  intro e he
  rw [Phone.withoutOtherRoom] at he
  split at he
  · exact he
  · split at he
    · exact he
    · exact (mem_stripEntriesForRoom.mp he).1

theorem PhoneInv.step {w : Workspace} {s t : Phone} {a : SharingAction} (h : PhoneInv w s)
    (safe : OneSafe w s a) (hstep : sharingStep w s a = some t) : PhoneInv w t := by
  cases a with
  | load =>
      obtain rfl := Option.some_inj.mp hstep
      refine h.next rfl rfl nofun (fun e he => h.traced_report ?_) fun p hp => .inl hp
      have hstored : e ∈ s.stored := by simpa [mem_reports] using he
      exact mem_reports.mpr (.inr (.inl hstored))
  | save save =>
      simp only [sharingStep, Option.ite_none_right_eq_some] at hstep
      obtain ⟨⟨-, hevent, -⟩, hstep⟩ := hstep
      obtain rfl := Option.some_inj.mp hstep
      exact h.saveReport hevent safe
  | undo =>
      obtain ⟨held, hheld, rfl⟩ := Option.map_eq_some_iff.mp hstep
      refine h.next rfl rfl h.room (fun e he => h.traced_report ?_) fun p hp => .inl hp
      have hundone : ∀ e ∈ undoneEntries s.entries s.stored held.1 held.2, e ∈ s.reports := by
        intro e he
        rcases mem_of_mem_undoneEntries he with hback | ⟨hin | hin, -⟩
        · exact mem_reports.mpr (.inr (.inr (.inr ⟨held, hheld, .inr hback⟩)))
        · exact mem_reports.mpr (.inl hin)
        · exact mem_reports.mpr (.inr (.inl hin))
      rcases mem_reports.mp he with hin | hin | hin | ⟨_, hnone, _⟩
      · exact hundone e hin
      · exact hundone e hin
      · exact mem_reports.mpr (.inr (.inr (.inl hin)))
      · cases hnone
  | closeToast =>
      obtain rfl := Option.some_inj.mp hstep
      exact h.closeToast
  | fillIn entry snapshot rating =>
      simp only [sharingStep, Option.ite_none_right_eq_some] at hstep
      obtain ⟨hentry, hstep⟩ := hstep
      obtain rfl := Option.some_inj.mp hstep
      refine h.next rfl rfl h.room (fun e he => ?_) fun p hp => .inl hp
      rcases mem_reports.mp he with hin | hin | hin | hin
      · exact h.fillIn hentry snapshot rating e hin
      · exact h.traced_report (mem_reports.mpr (.inr (.inl hin)))
      · cases List.mem_cons.mp hin with
        | inl heq =>
            have hmem : entry ∈ s.reports := mem_reports.mpr (.inr (.inr (.inl hentry)))
            exact heq ▸ (h.traced_report hmem : Traced w s.rows s.labels entry.label)
        | inr hold =>
            have hold := List.mem_of_mem_erase hold
            exact h.traced_report (mem_reports.mpr (.inr (.inr (.inl hold))))
      · exact h.traced_report (mem_reports.mpr (.inr (.inr (.inr hin))))
  | sync entry =>
      simp only [sharingStep, Option.ite_none_right_eq_some] at hstep
      obtain ⟨hentry, hstep⟩ := hstep
      obtain rfl := Option.some_inj.mp hstep
      have hmem : entry ∈ s.reports := mem_reports.mpr (.inr (.inr (.inl hentry)))
      refine h.next rfl rfl h.room (fun e he => h.traced_report ?_) fun p hp => ?_
      · rcases mem_reports.mp he with hin | hin | hin | hin
        · exact mem_reports.mpr (.inl hin)
        · exact mem_reports.mpr (.inr (.inl hin))
        · exact mem_reports.mpr (.inr (.inr (.inl (List.mem_of_mem_erase hin))))
        · exact mem_reports.mpr (.inr (.inr (.inr hin)))
      · by_cases hroom : entry.room = ""
        · exact .inl (by simpa [hroom] using hp)
        · rw [if_neg hroom] at hp
          cases List.mem_cons.mp hp with
          | inl heq =>
              rw [heq]
              exact .inr ⟨⟨normalizeRoomKey_idem _, hroom⟩, h.traced_report hmem⟩
          | inr hold => exact .inl hold
  | share entry =>
      obtain ⟨roomKey, hroom, hstep⟩ := Option.bind_eq_some_iff.mp hstep
      simp only [Option.ite_none_right_eq_some] at hstep
      obtain ⟨hshare, hstep⟩ := hstep
      obtain rfl := Option.some_inj.mp hstep
      refine h.next rfl rfl h.room (fun e he => h.traced_report he) fun p hp => ?_
      cases List.mem_cons.mp hp with
      | inl heq =>
          rw [heq]
          exact .inr ⟨h.room _ hroom, h.shareable (h.room _ hroom) hshare⟩
      | inr hold => exact .inl hold
  | queued roomKey entry =>
      simp only [sharingStep, Option.ite_none_right_eq_some] at hstep
      obtain ⟨hsent, hstep⟩ := hstep
      obtain rfl := Option.some_inj.mp hstep
      exact h.entries (h.shareQueued hsent)
  | transmit roomKey entry scoutProfile =>
      simp only [sharingStep, Option.ite_none_right_eq_some] at hstep
      obtain ⟨hsent, hstep⟩ := hstep
      cases hsaved : persistRoomEntry s.rows roomKey scoutProfile w.memberId entry with
      | none =>
          rw [hsaved] at hstep
          obtain rfl := Option.some_inj.mp hstep
          exact h
      | some saved =>
          rw [hsaved] at hstep
          obtain rfl := Option.some_inj.mp hstep
          exact h.transmit hsent hsaved
  | drop roomKey entry =>
      obtain rfl := Option.some_inj.mp hstep
      exact h.next rfl rfl h.room (fun e he => h.traced_report he)
        fun p hp => .inl (List.mem_of_mem_erase hp)
  | syncAck roomKey copy =>
      simp only [sharingStep, Option.ite_none_right_eq_some] at hstep
      obtain ⟨hcopy, hstep⟩ := hstep
      obtain rfl := Option.some_inj.mp hstep
      exact h.entries (h.syncAck hcopy)
  | shareAck roomKey copy =>
      simp only [sharingStep, Option.ite_none_right_eq_some] at hstep
      obtain ⟨hcopy, hstep⟩ := hstep
      obtain rfl := Option.some_inj.mp hstep
      exact h.entries (h.shareAck hcopy)
  | live roomKey copy =>
      simp only [sharingStep, Option.ite_none_right_eq_some] at hstep
      obtain ⟨hcopy, hstep⟩ := hstep
      obtain rfl := Option.some_inj.mp hstep
      exact h.entries (h.liveCopy hcopy)
  | join roomKey records =>
      simp only [sharingStep, Option.ite_none_right_eq_some] at hstep
      obtain ⟨⟨hkey, hanswers⟩, hstep⟩ := hstep
      obtain rfl := Option.some_inj.mp hstep
      have hjoined := h.entries (h.roomSnapshot (s.mem_withoutOtherRoom roomKey) hanswers)
      refine hjoined.next rfl rfl (fun r hr => Option.some_inj.mp hr ▸ hkey)
        (fun e he => hjoined.traced_report he) fun p hp => .inl hp
  | snapshot roomKey records =>
      simp only [sharingStep, Option.ite_none_right_eq_some] at hstep
      obtain ⟨hanswers, hstep⟩ := hstep
      obtain rfl := Option.some_inj.mp hstep
      exact h.entries (h.roomSnapshot (fun _ he => he) hanswers)
  | leave =>
      obtain ⟨roomKey, -, rfl⟩ := Option.map_eq_some_iff.mp hstep
      have hstripped : ∀ e ∈ stripEntriesForRoom s.entries roomKey,
          Traced w s.rows s.labels e.label :=
        fun e he => h.traced_entry (mem_stripEntriesForRoom.mp he).1
      have hleft := h.entries hstripped
      exact hleft.next rfl rfl nofun (fun e he => hleft.traced_report he) fun p hp => .inl hp
  | importEntry imported =>
      simp only [sharingStep, Option.ite_none_right_eq_some] at hstep
      obtain ⟨hthere, hstep⟩ := hstep
      obtain rfl := Option.some_inj.mp hstep
      rw [importEntry_of_mem hthere]
      exact h
  | write =>
      obtain rfl := Option.some_inj.mp hstep
      refine h.next rfl rfl h.room (fun e he => h.traced_report ?_) fun p hp => .inl hp
      rcases mem_reports.mp he with hin | hin | hin
      · exact mem_reports.mpr (.inl hin)
      · exact mem_reports.mpr (.inl hin)
      · exact mem_reports.mpr (.inr (.inr hin))
  | teammate author scoutProfile roomKey entry =>
      simp only [sharingStep, Option.ite_none_right_eq_some] at hstep
      obtain ⟨⟨hauthor, hroom⟩, hstep⟩ := hstep
      obtain ⟨saved, hsaved, rfl⟩ := Option.map_eq_some_iff.mp hstep
      exact h.teammate hauthor hroom safe hsaved

/-- A row of the phone's scout has an id that no other author has. -/
theorem PhoneInv.own_row {w : Workspace} {s : Phone} (h : PhoneInv w s) {row : ScoutingRoomEntry}
    (hrow : row ∈ s.rows) (hauthor : row.authorMemberId = w.memberId) :
    ¬ TheirId w s.rows row.payload.id := by
  intro htheirs
  obtain ⟨-, other, hother, hnot, hkey⟩ :=
    h.each.refused _ (mem_labels_copy (h.rows row hrow)) htheirs
  have hsame : other = row := Table.eq_of_key hother hrow hkey
  exact hnot (hsame ▸ hauthor)

theorem PhoneInv.oneReport {w : Workspace} {s : Phone} (h : PhoneInv w s) : OneReport w s := by
  intro x hx y hy hxauthor hyauthor hmatch hteam
  have hsame := h.each.same _ (mem_labels_copy (h.rows x hx)) _ (mem_labels_copy (h.rows y hy))
    (h.own_row hx hxauthor) (h.own_row hy hyauthor) (.inr ⟨hmatch, hteam⟩)
  have hxroom := (h.roomKey_copy (h.rows x hx)).2
  have hyroom := (h.roomKey_copy (h.rows y hy)).2
  have hroom : x.roomKey = y.roomKey := by
    have htarget := hsame.target
    rwa [Label.target, Label.target, SavedScoutingEntry.labelIn, SavedScoutingEntry.labelIn,
      if_neg hxroom, if_neg hyroom] at htarget
  exact Table.eq_of_key hx hy (Prod.ext hroom hsame.id)

theorem phoneInv_start (w : Workspace) : PhoneInv w {} :=
  ⟨⟨nofun, nofun, nofun⟩, nofun, nofun, fun row hrow => absurd hrow (Table.notMem_empty row)⟩

/-- Over every run in which a save for a robot that has a report finds it in the room the
scout is in, the server has one report of the robot from this phone. -/
theorem one_report_per_robot {w : Workspace} {s : Phone}
    (h : ReachableWhen (sharingSystem w) (OneSafe w) s) : OneReport w s := by
  have hinv : PhoneInv w s := by
    refine h.invariant ?_ ?_
    · intro s hs
      exact hs ▸ phoneInv_start w
    · intro s a t hs safe hstep
      exact hs.step safe hstep
  exact hinv.oneReport

/-! Two saves for one robot, the first before the phone is in its team's room. -/

def txaWorkspace : Workspace where
  memberId := 7
  teamRoom eventKey := if eventKey = "2026txa" then "team-7" else ""
  eventOf _ := "2026txa"

def firstSave : Save where
  newId := "1000-abc123"
  savedAtMs := 1000
  scoutProfile := "Ada"
  eventKey := "2026txa"
  matchKey := "2026txa_qm1"
  teamKey := "frc118"
  form := "3 cycles"

def secondSave : Save :=
  { firstSave with
    newId := "9000-def456"
    savedAtMs := 9000
    roomKey := some "team-7"
    form := "4 cycles" }

/-- The second save, under a new id, comes while the first report is on its way to the room. -/
def twoRowsRun : List SharingAction :=
  [.save firstSave, .closeToast, .join "team-7" [], .share (savedEntry firstSave none),
    .save secondSave, .closeToast, .sync (savedEntry secondSave none),
    .transmit "team-7" (savedEntry firstSave none) "Ada",
    .transmit "team-7" (savedEntry secondSave none) "Ada"]

theorem two_reports_of_one_robot :
    ∃ s, Reachable (sharingSystem txaWorkspace) s ∧ ¬ OneReport txaWorkspace s := by
  refine ⟨_, reachable_of_run twoRowsRun rfl rfl, ?_⟩
  decide +kernel

/-- The first report's answer is in before the second save, which replaces it. -/
def oneRowRun : List SharingAction :=
  let shared := savedEntry firstSave none
  let again := savedEntry secondSave (some { shared with
    roomKey := some "team-7"
    serverSynced := true })
  [.save firstSave, .closeToast, .join "team-7" [], .share shared,
    .transmit "team-7" shared "Ada", .shareAck "team-7" shared,
    .save secondSave, .closeToast, .sync again, .transmit "team-7" again "Ada"]

theorem one_report_per_robot_replaced : ∃ s,
    (sharingSystem txaWorkspace).run {} oneRowRun = some s ∧ OneReport txaWorkspace s :=
  ⟨_, rfl, one_report_per_robot (reachableWhen_of_run oneRowRun (.start rfl)
    (by decide +kernel) rfl)⟩

end Frcmob.Reports
