import Frcmob.Lib.Transition
import Frcmob.Reports.Page

/-!
Reports that the server does not have yet, on one device. Every list it builds keeps
the scout's latest version of each, as long as `mergeEntry` takes in no older copy of
an unsent report and no list outgrows 600: unlike `replaceRoomEntries`, `mergeEntry`
does not compare the save times.
-/

namespace Frcmob.Reports
open Transition

/-- What the scout saved, apart from what sharing and the statistics add. -/
def SavedScoutingEntry.version (e : Entry) : Entry :=
  { e with roomKey := none, apiSnapshot := none, scoutingApiRating := none, serverSynced := false }

/-- `unsent` are the latest versions saved that the server has not acknowledged, `saves`
all the versions saved. -/
structure Device where
  entries : List Entry
  stored : List Entry
  unsent : List Entry := []
  saves : List Entry := []
deriving DecidableEq

/-- The list still has this version, as one the server lacks. -/
def Kept (entries : List Entry) (v : Entry) : Prop :=
  ∃ e ∈ entries, e.version = v.version ∧ e.serverSynced = false

instance (entries : List Entry) (v : Entry) : Decidable (Kept entries v) :=
  inferInstanceAs (Decidable (∃ e ∈ entries, _ ∧ _))

/-- No unsent report has been dropped or rolled back. -/
def UnsentKept (d : Device) : Prop :=
  ∀ v ∈ d.unsent, Kept d.entries v

instance (d : Device) : Decidable (UnsentKept d) :=
  inferInstanceAs (Decidable (∀ v ∈ d.unsent, _))

/-- The reports still unsent once these copies came from the server. -/
def unacknowledged (unsent copies : List Entry) : List Entry :=
  unsent.filter fun v => !copies.any fun c => c.id = v.id && v.savedAtMs ≤ c.savedAtMs

inductive ReportAction
  | save (save : Save)
  | undo (entry : Entry) (replaced : Option Entry)
  | clear
  | write
  | fillIn (entry : Entry) (snapshot rating : String)
  | syncAck (synced : Entry) (roomKey : String)
  | shareAck (synced : Entry) (roomKey : String)
  | shareQueued (id roomKey : String)
  | live (copy : Entry) (roomKey : String)
  | snapshot (roomKey : String) (records : List RoomEntryRecord)
  | switchRooms (leaving joined : String) (records : List RoomEntryRecord)
  | leave (roomKey : String)
  | importEntry (imported : Entry)
  | importEntries (incoming : List Entry)
deriving DecidableEq

def saveStep (d : Device) (save : Save) : Device :=
  let previous := previousReport d.entries save
  let entry := savedEntry save previous
  let next := savedEntries d.entries d.stored entry previous
  { entries := next
    stored := next
    unsent := entry :: d.unsent.filter fun v => v.id ≠ entry.id
    saves := entry :: d.saves }

def undoStep (d : Device) (entry : Entry) (replaced : Option Entry) : Device :=
  let next := undoneEntries d.entries d.stored entry replaced
  { d with entries := next, stored := next, unsent := d.unsent.filter fun v => v.id ≠ entry.id }

def snapshotStep (d : Device) (entries : List Entry) (roomKey : String)
    (records : List RoomEntryRecord) : Device :=
  { d with
    entries := roomSnapshot entries roomKey records
    unsent := unacknowledged d.unsent (entriesFromRoomRecords records roomKey) }

/-- A save that storage refuses changes nothing; an undo is of a save, and puts back a
report of the same id. -/
def reportStep (d : Device) : ReportAction → Option Device
  | .save save => some (saveStep d save)
  | .undo entry replaced =>
      if entry ∈ d.saves ∧ ∀ earlier ∈ replaced, earlier.id = entry.id then
        some (undoStep d entry replaced)
      else none
  | .clear => some { d with entries := [], unsent := [] }
  | .write => some { d with stored := d.entries }
  | .fillIn entry snapshot rating =>
      if entry ∈ d.saves then some { d with entries := fillIn d.entries entry snapshot rating }
      else none
  | .syncAck synced roomKey =>
      some { d with
        entries := syncAck d.entries synced roomKey
        unsent := unacknowledged d.unsent [synced] }
  | .shareAck synced roomKey =>
      some { d with
        entries := shareAck d.entries synced.id synced roomKey
        unsent := unacknowledged d.unsent [synced] }
  | .shareQueued id roomKey => some { d with entries := shareQueued d.entries id roomKey }
  | .live copy roomKey =>
      some { d with
        entries := liveCopy d.entries copy roomKey
        unsent := unacknowledged d.unsent [copy] }
  | .snapshot roomKey records => some (snapshotStep d d.entries roomKey records)
  | .switchRooms leaving joined records =>
      some (snapshotStep d (stripEntriesForRoom d.entries leaving) joined records)
  | .leave roomKey => some { d with entries := stripEntriesForRoom d.entries roomKey }
  | .importEntry imported => some { d with entries := importEntry d.entries imported }
  | .importEntries incoming => some { d with entries := mergeEntries d.entries incoming }

/-- From a page that has read a stored list. -/
def reportSystem : System Device ReportAction where
  start d := d = { entries := d.stored, stored := d.stored } ∧ DistinctIds d.stored ∧
    d.stored.length ≤ maxEntries
  step := reportStep

/-- No unsent report has a later version than this copy. -/
def NotOlder (d : Device) (copy : Entry) : Prop :=
  ∀ v ∈ d.unsent, v.id = copy.id → v.savedAtMs ≤ copy.savedAtMs

instance (d : Device) (copy : Entry) : Decidable (NotOlder d copy) :=
  inferInstanceAs (Decidable (∀ v ∈ d.unsent, _))

/-- The ids of the list a save or an undo builds. -/
def idsWith (d : Device) (id : String) : List String :=
  id :: (d.entries.map (·.id) ++ d.stored.map (·.id))

/-- No copy `mergeEntry` takes in is older than the unsent version of its report, drawn
ids are new, and no list has more than 600 reports. -/
def MergeSafe (d : Device) : ReportAction → Prop
  | .save save =>
      (previousReport d.entries save = none →
        save.newId ∉ d.entries.map (·.id) ++ d.stored.map (·.id)) ∧
      Fits (idsWith d (savedEntry save (previousReport d.entries save)).id)
  | .undo entry _ => Fits (idsWith d entry.id)
  | .fillIn entry _ _ => ∀ v ∈ d.unsent, v.id = entry.id → v = entry
  | .syncAck synced _ | .shareAck synced _ => NotOlder d synced
  | .live copy _ => NotOlder d copy ∧ Fits (copy.id :: d.entries.map (·.id))
  | .snapshot roomKey records =>
      Fits ((stripEntriesForRoom d.entries roomKey).map (·.id) ++
        (entriesFromRoomRecords records roomKey).map (·.id))
  | .switchRooms leaving joined records =>
      Fits ((stripEntriesForRoom (stripEntriesForRoom d.entries leaving) joined).map (·.id) ++
        (entriesFromRoomRecords records joined).map (·.id))
  | .importEntry imported =>
      imported.id ∉ d.entries.map (·.id) ∧ Fits (imported.id :: d.entries.map (·.id))
  | .importEntries incoming =>
      (∀ e ∈ incoming, ∀ v ∈ d.unsent, renamedId e ≠ v.id) ∧
      d.entries.length + incoming.length ≤ maxEntries
  | .clear | .write | .shareQueued _ _ | .leave _ => True

instance (d : Device) (a : ReportAction) : Decidable (MergeSafe d a) := by
  cases a <;> unfold MergeSafe <;> infer_instance

structure DeviceInv (d : Device) : Prop where
  distinct : DistinctIds d.entries
  distinctStored : DistinctIds d.stored
  length : d.entries.length ≤ maxEntries
  kept : UnsentKept d
  saves : ∀ v ∈ d.saves, v.serverSynced = false

/-! ### Versions -/

theorem version_id {x y : Entry} (h : x.version = y.version) : x.id = y.id :=
  show x.version.id = y.version.id from congrArg _ h

theorem version_savedAtMs {x y : Entry} (h : x.version = y.version) :
    x.savedAtMs = y.savedAtMs :=
  show x.version.savedAtMs = y.version.savedAtMs from congrArg _ h

@[simp] theorem keepLocalAnalytics_version (e : Entry) (o : Option Entry) :
    (keepLocalAnalytics e o).version = e.version := by
  cases o <;> rfl

theorem mem_unacknowledged {unsent copies : List Entry} {v : Entry} :
    v ∈ unacknowledged unsent copies ↔ v ∈ unsent ∧
      ∀ c ∈ copies, c.id = v.id → c.savedAtMs < v.savedAtMs := by
  simp [unacknowledged]

/-- Once a copy that is not older came in, its report is not among the unsent ones. -/
theorem NotOlder.id_ne {d : Device} {copy v : Entry} (h : NotOlder d copy)
    (hv : v ∈ unacknowledged d.unsent [copy]) : copy.id ≠ v.id := by
  obtain ⟨hin, hnone⟩ := mem_unacknowledged.mp hv
  intro hid
  have hlt := hnone copy (List.mem_singleton_self _) hid
  have hle := h v hin hid.symm
  omega

/-! ### Lists that keep a version -/

theorem Kept.mergeEntry {entries : List Entry} {v incoming : Entry} (h : Kept entries v)
    (hdistinct : DistinctIds entries) (hfits : Fits (incoming.id :: entries.map (·.id)))
    (hsame : incoming.id = v.id → incoming.version = v.version ∧ incoming.serverSynced = false) :
    Kept (mergeEntry entries incoming) v := by
  obtain ⟨e, he, hversion, hunsynced⟩ := h
  by_cases hid : incoming.id = v.id
  · refine ⟨_, (mem_mergeEntry hdistinct hfits).mpr (.inl rfl), ?_, ?_⟩
    · simpa using (hsame hid).1
    · simpa using (hsame hid).2
  · refine ⟨e, (mem_mergeEntry hdistinct hfits).mpr (.inr ⟨he, ?_⟩), hversion, hunsynced⟩
    exact fun heq => hid (heq.symm.trans (version_id hversion))

theorem Kept.updateEntry {entries : List Entry} {v : Entry} (h : Kept entries v)
    (hdistinct : DistinctIds entries) (hlen : entries.length ≤ maxEntries) {id : String}
    {f : Entry → Entry} (hf : ∀ latest, latest.id = id → (f latest).id = id)
    (hsame : ∀ latest ∈ entries, latest.id = v.id → id = v.id → latest.version = v.version →
      latest.serverSynced = false →
      (f latest).version = v.version ∧ (f latest).serverSynced = false) :
    Kept (updateEntry entries id f) v := by
  cases updateEntry_cases entries id f with
  | inl heq => rwa [heq]
  | inr hmerge =>
      obtain ⟨latest, hlatest, hid, heq⟩ := hmerge
      rw [heq]
      refine h.mergeEntry hdistinct ?_ ?_
      · have hmem : (f latest).id ∈ entries.map (·.id) :=
          (hf latest hid).trans hid.symm ▸ List.mem_map_of_mem hlatest
        exact fits_of_mem hdistinct hlen hmem
      · intro hv
        rw [hf latest hid] at hv
        obtain ⟨e, he, hversion, hunsynced⟩ := h
        have hsameEntry : e = latest :=
          hdistinct.eq_of_id he hlatest ((version_id hversion).trans (hv.symm.trans hid.symm))
        subst hsameEntry
        exact hsame e he (version_id hversion) hv hversion hunsynced

theorem Kept.updateOther {entries : List Entry} {v : Entry} (h : Kept entries v)
    (hdistinct : DistinctIds entries) (hlen : entries.length ≤ maxEntries) {id : String}
    {f : Entry → Entry} (hf : ∀ latest, latest.id = id → (f latest).id = id) (hne : id ≠ v.id) :
    Kept (Reports.updateEntry entries id f) v :=
  h.updateEntry hdistinct hlen hf fun _ _ _ hid => absurd hid hne

theorem Kept.strip {entries : List Entry} {v : Entry} (h : Kept entries v) (roomKey : String) :
    Kept (stripEntriesForRoom entries roomKey) v := by
  obtain ⟨e, he, hversion, hunsynced⟩ := h
  exact ⟨e, mem_stripEntriesForRoom.mpr ⟨he, .inr (.inr hunsynced)⟩, hversion, hunsynced⟩

/-- A snapshot keeps what it has no newer copy of. -/
theorem Kept.snapshot {entries : List Entry} {v : Entry} (h : Kept entries v)
    (hdistinct : DistinctIds entries) {roomKey : String} {records : List RoomEntryRecord}
    (hfits : Fits ((stripEntriesForRoom entries roomKey).map (·.id) ++
      (entriesFromRoomRecords records roomKey).map (·.id)))
    (hnone : ∀ c ∈ entriesFromRoomRecords records roomKey, c.id = v.id →
      c.savedAtMs < v.savedAtMs) :
    Kept (roomSnapshot entries roomKey records) v := by
  obtain ⟨e, he, hversion, hunsynced⟩ := h.strip roomKey
  have hin := (stripEntriesForRoom_sublist entries roomKey).subset he
  refine ⟨e, ?_, hversion, hunsynced⟩
  refine (mem_replaceRoomEntries hdistinct (distinct_entriesFromRoomRecords ..) hfits).mpr
    (.inl ⟨he, ?_⟩)
  intro c hc hid
  obtain ⟨hc, hold⟩ := mem_fromServer.mp hc
  have hlt := hnone c hc (hid.trans (version_id hversion))
  have hnewer : newerOnPhone entries c = true :=
    (newerOnPhone_iff hdistinct).mpr
      ⟨e, hin, hid.symm, hunsynced, by rwa [version_savedAtMs hversion]⟩
  rw [hold] at hnewer
  cases hnewer

theorem Kept.importEntries {entries incoming : List Entry} {v : Entry} (h : Kept entries v)
    (hdistinct : DistinctIds entries) (hrenamed : ∀ e ∈ incoming, renamedId e ≠ v.id)
    (hlen : entries.length + incoming.length ≤ maxEntries) :
    Kept (mergeEntries entries incoming) v := by
  obtain ⟨e, he, hversion, hunsynced⟩ := h
  refine ⟨e, ?_, hversion, hunsynced⟩
  have hid : e.id = v.id := version_id hversion
  suffices ∀ (l : List Entry) (map : EntryMap), (∀ x ∈ l, renamedId x ≠ v.id) → e ∈ map →
      map.rows.length + l.length ≤ maxEntries →
      e ∈ l.foldl addIncoming map ∧ (l.foldl addIncoming map).rows.length ≤ maxEntries by
    have hbyId : (byId entries).rows.length ≤ entries.length := by
      simpa [byId, Table.empty] using Table.length_putAll_le (Table.empty : EntryMap) entries
    have hfold := this incoming (byId entries) hrenamed ((mem_byId hdistinct).mpr he) (by omega)
    have huncut : newest (incoming.foldl addIncoming (byId entries)) =
        newestFirst (incoming.foldl addIncoming (byId entries)).rows :=
      List.take_of_length_le (by rw [(newestFirst_perm _).length_eq]; exact hfold.2)
    rw [mergeEntries, huncut, mem_newestFirst]
    exact hfold.1
  intro l
  induction l with
  | nil => exact fun map _ hin hmap => ⟨hin, by simpa using hmap⟩
  | cons x l ih =>
      intro map hx hin hmap
      refine ih _ (fun y hy => hx y (List.mem_cons_of_mem _ hy)) ?_ ?_
      · refine Table.mem_put_of_ne hin ?_
        -- the id is taken by this report, or the new one is the renamed id
        by_cases htaken : (map.get? x.id).isSome = true
        · simp only [htaken, if_true]
          exact fun heq => hx x List.mem_cons_self (heq ▸ hid)
        · simp only [htaken]
          intro heq
          exact htaken (Table.get?_isSome.mpr ⟨e, hin, heq⟩)
      · have hput := map.length_put_le
          { x with id := if (map.get? x.id).isSome then renamedId x else x.id }
        simp only [List.length_cons] at hmap
        rw [addIncoming]
        omega

/-! ### Steps -/

/-- A step that only merges into the list of a device. -/
theorem DeviceInv.merge {d : Device} (h : DeviceInv d) {entries unsent : List Entry}
    (hdistinct : DistinctIds entries) (hlen : entries.length ≤ maxEntries)
    (hkept : ∀ v ∈ unsent, Kept entries v) :
    DeviceInv { d with entries := entries, unsent := unsent } :=
  ⟨hdistinct, h.distinctStored, hlen, hkept, h.saves⟩

theorem DeviceInv.save {d : Device} (h : DeviceInv d) {save : Save}
    (hsafe : MergeSafe d (.save save)) : DeviceInv (saveStep d save) := by
  obtain ⟨hnew, hfits⟩ := hsafe
  have hnew := savedEntry_new hnew
  have hmem := fun x => mem_savedEntries (x := x) h.distinct h.distinctStored hnew hfits
  have hdistinct := distinct_savedEntries h.distinct h.distinctStored hnew
  refine ⟨hdistinct, hdistinct, List.length_take_le .., ?_, ?_⟩
  · intro v hv
    cases List.mem_cons.mp hv with
    | inl heq => exact heq ▸ ⟨_, (hmem _).mpr (.inl rfl), rfl, rfl⟩
    | inr hold =>
        obtain ⟨hold, hne⟩ := List.mem_filter.mp hold
        have hne : v.id ≠ (savedEntry save (previousReport d.entries save)).id := by
          simpa using hne
        obtain ⟨e, he, hversion, hunsynced⟩ := h.kept v hold
        refine ⟨e, (hmem e).mpr (.inr ⟨?_, ?_⟩), hversion, hunsynced⟩
        · exact (mem_withReportsFromOtherTabs h.distinct h.distinctStored hfits.tail).mpr (.inl he)
        · intro heq
          cases hprevious : previousReport d.entries save with
          | none => simp [hprevious] at heq
          | some previous =>
              rw [hprevious] at heq hne
              exact hne ((version_id hversion).symm.trans (Option.some.inj heq).symm)
  · intro v hv
    cases List.mem_cons.mp hv with
    | inl heq => exact heq ▸ rfl
    | inr hold => exact h.saves v hold

theorem DeviceInv.undo {d : Device} (h : DeviceInv d) {entry : Entry} {replaced : Option Entry}
    (hid : ∀ earlier, replaced = some earlier → earlier.id = entry.id)
    (hfits : Fits (idsWith d entry.id)) : DeviceInv (undoStep d entry replaced) := by
  have hdistinct := distinct_undoneEntries h.distinct h.distinctStored hid
  refine ⟨hdistinct, hdistinct, length_undoneEntries h.length .., ?_, h.saves⟩
  intro v hv
  obtain ⟨hold, hne⟩ := List.mem_filter.mp hv
  have hne : v.id ≠ entry.id := by simpa using hne
  obtain ⟨e, he, hversion, hunsynced⟩ := h.kept v hold
  refine ⟨e, ?_, hversion, hunsynced⟩
  refine (mem_undoneEntries h.distinct h.distinctStored hid hfits).mpr (.inr ⟨?_, ?_⟩)
  · exact (mem_withReportsFromOtherTabs h.distinct h.distinctStored hfits.tail).mpr (.inl he)
  · rwa [version_id hversion]

theorem DeviceInv.snapshot {d : Device} (h : DeviceInv d) {entries : List Entry}
    (hdistinct : DistinctIds entries) (hkept : ∀ v ∈ d.unsent, Kept entries v) {roomKey : String}
    {records : List RoomEntryRecord}
    (hfits : Fits ((stripEntriesForRoom entries roomKey).map (·.id) ++
      (entriesFromRoomRecords records roomKey).map (·.id))) :
    DeviceInv (snapshotStep d entries roomKey records) := by
  refine h.merge (distinct_replaceRoomEntries ..) (List.length_take_le ..) ?_
  intro v hv
  obtain ⟨hold, hnone⟩ := mem_unacknowledged.mp hv
  exact (hkept v hold).snapshot hdistinct hfits hnone

theorem DeviceInv.strip {d : Device} (h : DeviceInv d) (roomKey : String) :
    DeviceInv { d with entries := stripEntriesForRoom d.entries roomKey } :=
  h.merge (h.distinct.sublist (stripEntriesForRoom_sublist ..))
    (le_trans (stripEntriesForRoom_sublist ..).length_le h.length)
    fun v hv => (h.kept v hv).strip roomKey

theorem DeviceInv.step {d t : Device} {a : ReportAction} (h : DeviceInv d) (safe : MergeSafe d a)
    (hstep : reportStep d a = some t) : DeviceInv t := by
  have hupdate : ∀ (id : String) (f : Entry → Entry),
      DistinctIds (updateEntry d.entries id f) ∧
        (updateEntry d.entries id f).length ≤ maxEntries := fun id f =>
    ⟨distinct_updateEntry h.distinct id f, length_updateEntry h.length id f⟩
  cases a with
  | save save =>
      exact Option.some_inj.mp hstep ▸ h.save safe
  | undo entry replaced =>
      simp only [reportStep, Option.ite_none_right_eq_some] at hstep
      obtain ⟨⟨-, hid⟩, hstep⟩ := hstep
      obtain rfl := Option.some_inj.mp hstep
      exact h.undo hid safe
  | clear =>
      obtain rfl := Option.some_inj.mp hstep
      exact h.merge List.nodup_nil (Nat.zero_le _) nofun
  | write =>
      obtain rfl := Option.some_inj.mp hstep
      exact ⟨h.distinct, h.distinct, h.length, h.kept, h.saves⟩
  | fillIn entry snapshot rating =>
      simp only [reportStep, Option.ite_none_right_eq_some] at hstep
      obtain ⟨hsaved, hstep⟩ := hstep
      obtain rfl := Option.some_inj.mp hstep
      refine h.merge (hupdate _ _).1 (hupdate _ _).2 fun v hv => ?_
      refine (h.kept v hv).updateEntry h.distinct h.length (fun _ _ => rfl) ?_
      intro latest _ _ hid _ hunsynced
      rw [safe v hv hid.symm]
      exact ⟨rfl, by simp [hunsynced, h.saves entry hsaved]⟩
  | syncAck synced roomKey =>
      obtain rfl := Option.some_inj.mp hstep
      refine h.merge (hupdate _ _).1 (hupdate _ _).2 fun v hv => ?_
      exact (h.kept v (mem_unacknowledged.mp hv).1).updateOther h.distinct h.length
        (fun _ _ => rfl) (safe.id_ne hv)
  | shareAck synced roomKey =>
      obtain rfl := Option.some_inj.mp hstep
      refine h.merge (hupdate _ _).1 (hupdate _ _).2 fun v hv => ?_
      exact (h.kept v (mem_unacknowledged.mp hv).1).updateOther h.distinct h.length
        (fun _ _ => rfl) (safe.id_ne hv)
  | shareQueued id roomKey =>
      obtain rfl := Option.some_inj.mp hstep
      refine h.merge (hupdate _ _).1 (hupdate _ _).2 fun v hv => ?_
      exact (h.kept v hv).updateEntry h.distinct h.length (fun _ hid => hid)
        fun latest _ _ _ hversion _ => ⟨hversion, rfl⟩
  | live copy roomKey =>
      obtain rfl := Option.some_inj.mp hstep
      refine h.merge (distinct_mergeEntry ..) (length_mergeEntry ..) fun v hv => ?_
      exact (h.kept v (mem_unacknowledged.mp hv).1).mergeEntry h.distinct safe.2
        fun hid => absurd hid (safe.1.id_ne hv)
  | snapshot roomKey records =>
      simp only [MergeSafe] at safe
      obtain rfl := Option.some_inj.mp hstep
      exact h.snapshot h.distinct h.kept safe
  | switchRooms leaving joined records =>
      simp only [MergeSafe] at safe
      obtain rfl := Option.some_inj.mp hstep
      have hstrip := h.distinct.sublist (stripEntriesForRoom_sublist d.entries leaving)
      exact h.snapshot hstrip (fun v hv => (h.kept v hv).strip leaving) safe
  | leave roomKey =>
      obtain rfl := Option.some_inj.mp hstep
      exact h.strip roomKey
  | importEntry imported =>
      obtain rfl := Option.some_inj.mp hstep
      rw [importEntry]
      split
      · exact h
      · refine h.merge (distinct_mergeEntry ..) (length_mergeEntry ..) fun v hv => ?_
        obtain ⟨e, he, hversion, hunsynced⟩ := h.kept v hv
        refine Kept.mergeEntry ⟨e, he, hversion, hunsynced⟩ h.distinct safe.2 fun hid => ?_
        exact absurd (hid ▸ version_id hversion ▸ List.mem_map_of_mem he) safe.1
  | importEntries incoming =>
      obtain rfl := Option.some_inj.mp hstep
      refine h.merge (distinct_mergeEntries ..) (List.length_take_le ..) fun v hv => ?_
      exact (h.kept v hv).importEntries h.distinct (fun e he => safe.1 e he v hv) safe.2

def firstReport : Save where
  newId := "1000-abc123"
  savedAtMs := 1000
  scoutProfile := "Ada"
  roomKey := some "team-7"
  eventKey := "2026txa"
  matchKey := "2026txa_qm1"
  teamKey := "frc118"
  form := "3 cycles"

def correctedReport : Save :=
  { firstReport with newId := "2000-xyz789", savedAtMs := 2000, form := "5 cycles" }

/-- The answer to the first version's request arrives after the correction. -/
def lateAckRun : List ReportAction :=
  [.save firstReport, .save correctedReport, .syncAck (savedEntry firstReport none) "team-7"]

theorem emptyDevice_start : reportSystem.start ⟨[], [], [], []⟩ :=
  ⟨rfl, List.nodup_nil, Nat.zero_le _⟩

/-- The answer to the first version arrives before the correction, a room snapshot with
the first version after it. -/
def promptAckRun : List ReportAction :=
  [.save firstReport, .syncAck (savedEntry firstReport none) "team-7", .save correctedReport,
    .snapshot "team-7" [⟨some (savedEntry firstReport none), some "team-7"⟩], .leave "team-7"]

end Frcmob.Reports
