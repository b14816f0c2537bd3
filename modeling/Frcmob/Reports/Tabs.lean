import Frcmob.Lib.Transition
import Frcmob.Reports.Page

/-!
The tabs of one workspace share one stored list of reports. Each keeps its own list, an
effect writes that list out after every change, and a storage event makes the other
tabs read the stored one. Only saving and undoing merge with the stored list first, so
a tab that writes before it has heard of another tab's save erases it.
-/

namespace Frcmob.Reports
open Transition

/-- A page: its list, whether the writer effect is due, and the storage events on their
way to it. An event carries nothing that its listener reads. -/
structure Tab where
  entries : List Entry
  due : Bool := false
  pending : Nat := 0
deriving DecidableEq

/-- `confirmed` are the reports that a tab told the scout it had saved. -/
structure Browser where
  tabs : Nat → Tab
  stored : List Entry
  confirmed : List (Nat × String) := []

abbrev ids (entries : List Entry) : List String :=
  entries.map (·.id)

/-- A report a tab confirmed is stored, or that tab's next write restores it. -/
def Survives (b : Browser) : Prop :=
  ∀ c ∈ b.confirmed, c.2 ∈ ids b.stored ∨ c.2 ∈ ids (b.tabs c.1).entries

instance (b : Browser) : Decidable (Survives b) :=
  inferInstanceAs (Decidable (∀ c ∈ b.confirmed, _))

inductive TabAction
  | load (tab : Nat)
  | save (tab : Nat) (save : Save)
  | undo (tab : Nat) (entry : Entry) (replaced : Option Entry)
  | clear (tab : Nat)
  | receive (tab : Nat) (copy : Entry)
  | snapshot (tab : Nat) (roomKey : String) (records : List RoomEntryRecord)
  | leave (tab : Nat) (roomKey : String)
  | write (tab : Nat)
  | deliver (tab : Nat)
deriving DecidableEq

/-- The tab's list changed, so its writer effect is due. -/
def Browser.change (b : Browser) (tab : Nat) (entries : List Entry) : Browser :=
  { b with tabs := Function.update b.tabs tab { b.tabs tab with entries := entries, due := true } }

/-- `setItem`: a changed value sends an event to every other tab. -/
def Browser.store (b : Browser) (tab : Nat) (entries : List Entry) : Browser :=
  if entries = b.stored then b
  else { b with
    stored := entries
    tabs := fun u =>
      if u = tab then b.tabs u else { b.tabs u with pending := (b.tabs u).pending + 1 } }

/-- The server's copies that a step took out of a list. -/
def released (before after : List Entry) : List String :=
  ids (before.filter fun e => e.serverSynced && !(ids after).contains e.id)

def Browser.release (b : Browser) (gone : List String) : Browser :=
  { b with confirmed := b.confirmed.filter fun c => !gone.contains c.2 }

/-- A room's snapshot or leaving it takes the room's other server copies out. -/
def Browser.changeRoom (b : Browser) (tab : Nat) (entries : List Entry) : Browser :=
  (b.change tab entries).release (released (b.tabs tab).entries entries)

def Browser.saveReport (b : Browser) (tab : Nat) (save : Save) : Browser :=
  let entries := (b.tabs tab).entries
  let previous := previousReport entries save
  let entry := savedEntry save previous
  let next := savedEntries entries b.stored entry previous
  { (b.change tab next).store tab next with confirmed := (tab, entry.id) :: b.confirmed }

def Browser.undoReport (b : Browser) (tab : Nat) (entry : Entry) (replaced : Option Entry) :
    Browser :=
  let next := undoneEntries (b.tabs tab).entries b.stored entry replaced
  ((b.change tab next).store tab next).release [entry.id]

/-- `receive` is any merge of one report: an acknowledgement, a live copy, a fill-in. -/
def tabStep (b : Browser) : TabAction → Option Browser
  | .load tab =>
      some { b with tabs := Function.update b.tabs tab { entries := b.stored, due := true } }
  | .save tab save => some (b.saveReport tab save)
  | .undo tab entry replaced =>
      if ∀ earlier ∈ replaced, earlier.id = entry.id then some (b.undoReport tab entry replaced)
      else none
  | .clear tab => some { b.change tab [] with confirmed := [] }
  | .receive tab copy => some (b.change tab (mergeEntry (b.tabs tab).entries copy))
  | .snapshot tab roomKey records =>
      some (b.changeRoom tab (roomSnapshot (b.tabs tab).entries roomKey records))
  | .leave tab roomKey =>
      some (b.changeRoom tab (stripEntriesForRoom (b.tabs tab).entries roomKey))
  | .write tab =>
      if (b.tabs tab).due then
        let written := b.store tab (b.tabs tab).entries
        some { written with
          tabs := Function.update written.tabs tab { b.tabs tab with due := false } }
      else none
  | .deliver tab =>
      if 0 < (b.tabs tab).pending then
        some { b with
          tabs := Function.update b.tabs tab
            { entries := b.stored, due := true, pending := (b.tabs tab).pending - 1 } }
      else none

/-- From tabs that have read the stored list. -/
def tabSystem : System Browser TabAction where
  start b := b = { tabs := fun _ => { entries := b.stored }, stored := b.stored } ∧
    DistinctIds b.stored ∧ b.stored.length ≤ maxEntries
  step := tabStep

/-- A tab writes its list only when no event is on its way to it, or when the list has all
the stored reports; a save is of a new version under a fresh or its own earlier id, and
no list has more than 600 reports. -/
def TabSafe (b : Browser) : TabAction → Prop
  | .save tab save =>
      let entries := (b.tabs tab).entries
      let entry := savedEntry save (previousReport entries save)
      (previousReport entries save = none → save.newId ∉ ids entries ++ ids b.stored) ∧
      entry ∉ b.stored ∧ Fits (entry.id :: (ids entries ++ ids b.stored))
  | .undo tab entry _ => Fits (entry.id :: (ids (b.tabs tab).entries ++ ids b.stored))
  | .receive tab copy => Fits (copy.id :: ids (b.tabs tab).entries)
  | .snapshot tab roomKey records =>
      Fits (ids (stripEntriesForRoom (b.tabs tab).entries roomKey) ++
        ids (entriesFromRoomRecords records roomKey))
  | .write tab =>
      (b.tabs tab).pending = 0 ∨ ∀ id ∈ ids b.stored, id ∈ ids (b.tabs tab).entries
  | .load _ | .clear _ | .leave _ _ | .deliver _ => True

instance (b : Browser) (a : TabAction) : Decidable (TabSafe b a) := by
  cases a <;> unfold TabSafe <;> infer_instance

/-- What no save's confirmation can miss: every confirmed report is stored, and a tab to
which no event is on its way has it too. -/
structure BrowserInv (b : Browser) : Prop where
  distinct : ∀ u, DistinctIds (b.tabs u).entries
  length : ∀ u, (b.tabs u).entries.length ≤ maxEntries
  distinctStored : DistinctIds b.stored
  lengthStored : b.stored.length ≤ maxEntries
  stored : ∀ c ∈ b.confirmed, c.2 ∈ ids b.stored
  heard : ∀ u, (b.tabs u).pending = 0 → ∀ c ∈ b.confirmed, c.2 ∈ ids (b.tabs u).entries

theorem mem_ids {entries : List Entry} {id : String} :
    id ∈ ids entries ↔ ∃ e ∈ entries, e.id = id := by
  simp [ids]

/-! ### What the tab's steps do to the invariant -/

theorem BrowserInv.change {b : Browser} (h : BrowserInv b) (tab : Nat) {entries : List Entry}
    (hdistinct : DistinctIds entries) (hlen : entries.length ≤ maxEntries)
    (hheard : (b.tabs tab).pending = 0 → ∀ c ∈ b.confirmed, c.2 ∈ ids entries) :
    BrowserInv (b.change tab entries) := by
  refine ⟨?_, ?_, h.distinctStored, h.lengthStored, h.stored, ?_⟩
  · intro u
    by_cases hu : u = tab
    · simpa [Browser.change, hu] using hdistinct
    · simpa [Browser.change, hu] using h.distinct u
  · intro u
    by_cases hu : u = tab
    · simpa [Browser.change, hu] using hlen
    · simpa [Browser.change, hu] using h.length u
  · intro u
    by_cases hu : u = tab
    · simpa [Browser.change, hu] using hheard
    · simpa [Browser.change, hu] using h.heard u

/-- A write that has every confirmed report; the other tabs now have an event coming. -/
theorem BrowserInv.store {b : Browser} (h : BrowserInv b) (tab : Nat) {entries : List Entry}
    (hdistinct : DistinctIds entries) (hlen : entries.length ≤ maxEntries)
    (hcover : ∀ c ∈ b.confirmed, c.2 ∈ ids entries) : BrowserInv (b.store tab entries) := by
  rw [Browser.store]
  split
  · exact h
  · refine ⟨?_, ?_, hdistinct, hlen, hcover, ?_⟩
    · intro u
      by_cases hu : u = tab <;> simpa [hu] using h.distinct _
    · intro u
      by_cases hu : u = tab <;> simpa [hu] using h.length _
    · intro u hpending
      by_cases hu : u = tab
      · simp only [hu, if_true] at hpending ⊢
        exact h.heard tab hpending
      · simp [hu] at hpending

theorem BrowserInv.release {b : Browser} (h : BrowserInv b) (gone : List String) :
    BrowserInv (b.release gone) where
  distinct := h.distinct
  length := h.length
  distinctStored := h.distinctStored
  lengthStored := h.lengthStored
  stored c hc := h.stored c (List.mem_filter.mp hc).1
  heard u hpending c hc := h.heard u hpending c (List.mem_filter.mp hc).1

theorem Browser.store_stored (b : Browser) (tab : Nat) (entries : List Entry) :
    (b.store tab entries).stored = entries := by
  rw [Browser.store]
  split
  · rename_i heq
    exact heq.symm
  · rfl

@[simp] theorem Browser.store_own (b : Browser) (tab : Nat) (entries : List Entry) :
    (b.store tab entries).tabs tab = b.tabs tab := by
  rw [Browser.store]
  split <;> simp

/-- What is merged with the stored list has all the ids of both. -/
theorem ids_withReportsFromOtherTabs {entries stored : List Entry} (h : DistinctIds entries)
    (hstored : DistinctIds stored) (hfits : Fits (ids entries ++ ids stored)) {id : String}
    (hid : id ∈ ids entries ∨ id ∈ ids stored) :
    id ∈ ids (withReportsFromOtherTabs entries stored) := by
  have hmem := fun x => mem_withReportsFromOtherTabs (x := x) h hstored hfits
  by_cases hown : id ∈ ids entries
  · obtain ⟨e, he, rfl⟩ := mem_ids.mp hown
    exact mem_ids.mpr ⟨e, (hmem e).mpr (.inl he), rfl⟩
  · obtain ⟨e, he, rfl⟩ := mem_ids.mp (hid.resolve_left hown)
    refine mem_ids.mpr ⟨e, (hmem e).mpr (.inr ⟨he, ?_⟩), rfl⟩
    exact fun y hy heq => hown (mem_ids.mpr ⟨y, hy, heq⟩)

/-- A saved list has every report of the tab and of storage. -/
theorem ids_savedEntries {entries stored : List Entry} {entry : Entry} {previous : Option Entry}
    (h : DistinctIds entries) (hstored : DistinctIds stored)
    (hnew : ∀ x ∈ withReportsFromOtherTabs entries stored,
      previous.map (·.id) ≠ some x.id → x.id ≠ entry.id)
    (hprevious : ∀ p, previous = some p → p.id = entry.id)
    (hfits : Fits (entry.id :: (ids entries ++ ids stored))) {id : String}
    (hid : id ∈ ids entries ∨ id ∈ ids stored) :
    id ∈ ids (savedEntries entries stored entry previous) := by
  have hmem := fun x => mem_savedEntries (x := x) h hstored hnew hfits
  obtain ⟨e, he, rfl⟩ := mem_ids.mp (ids_withReportsFromOtherTabs h hstored hfits.tail hid)
  by_cases hsame : previous.map (·.id) = some e.id
  · obtain ⟨p, hp, hpe⟩ := Option.map_eq_some_iff.mp hsame
    exact mem_ids.mpr ⟨entry, (hmem entry).mpr (.inl rfl), (hprevious p hp).symm.trans hpe⟩
  · exact mem_ids.mpr ⟨e, (hmem e).mpr (.inr ⟨he, hsame⟩), rfl⟩

theorem ids_undoneEntries {entries stored : List Entry} {entry : Entry} {replaced : Option Entry}
    (h : DistinctIds entries) (hstored : DistinctIds stored)
    (hreplaced : ∀ earlier, replaced = some earlier → earlier.id = entry.id)
    (hfits : Fits (entry.id :: (ids entries ++ ids stored))) {id : String} (hne : id ≠ entry.id)
    (hid : id ∈ ids entries ∨ id ∈ ids stored) :
    id ∈ ids (undoneEntries entries stored entry replaced) := by
  obtain ⟨e, he, rfl⟩ := mem_ids.mp (ids_withReportsFromOtherTabs h hstored hfits.tail hid)
  exact mem_ids.mpr ⟨e, (mem_undoneEntries h hstored hreplaced hfits).mpr (.inr ⟨he, hne⟩), rfl⟩

/-- A changed value is on its way to every other tab. -/
theorem Browser.store_pending {b : Browser} {tab u : Nat} {entries : List Entry}
    (hchanged : entries ≠ b.stored) (hu : u ≠ tab) :
    ((b.store tab entries).tabs u).pending ≠ 0 := by
  simp [Browser.store, hchanged, hu]

theorem BrowserInv.saveReport {b : Browser} (h : BrowserInv b) {tab : Nat} {save : Save}
    (safe : TabSafe b (.save tab save)) : BrowserInv (b.saveReport tab save) := by
  obtain ⟨hnew, hfresh, hfits⟩ := safe
  have hnew := savedEntry_new hnew
  have hdistinct := distinct_savedEntries (h.distinct tab) h.distinctStored hnew
  have hentry := (mem_savedEntries (h.distinct tab) h.distinctStored hnew hfits).mpr (.inl rfl)
  have hcover : ∀ c ∈ b.confirmed, c.2 ∈ ids _ := fun c hc =>
    ids_savedEntries (h.distinct tab) h.distinctStored hnew savedEntry_previous hfits
      (.inr (h.stored c hc))
  have hstore := (h.change tab hdistinct (List.length_take_le ..) fun _ => hcover).store tab
    hdistinct (List.length_take_le ..) hcover
  refine ⟨hstore.distinct, hstore.length, hstore.distinctStored, hstore.lengthStored, ?_, ?_⟩
  · intro c hc
    cases List.mem_cons.mp hc with
    | inl heq =>
        simp only [Browser.saveReport, Browser.store_stored]
        exact heq ▸ List.mem_map_of_mem hentry
    | inr hold =>
        simp only [Browser.saveReport, Browser.store_stored]
        exact hcover c hold
  · intro u hpending c hc
    by_cases hu : u = tab
    · simp only [Browser.saveReport, hu, Browser.store_own, Browser.change, Function.update_self]
      cases List.mem_cons.mp hc with
      | inl heq => exact heq ▸ List.mem_map_of_mem hentry
      | inr hold => exact hcover c hold
    · exact absurd hpending (Browser.store_pending (fun heq => hfresh (heq ▸ hentry)) hu)

theorem Browser.release_store (b : Browser) (tab : Nat) (entries : List Entry)
    (gone : List String) :
    (b.store tab entries).release gone = (b.release gone).store tab entries := by
  rw [Browser.store, Browser.store]
  by_cases heq : entries = b.stored
  · rw [if_pos heq, if_pos (show entries = (b.release gone).stored from heq)]
  · rw [if_neg heq, if_neg (show ¬ entries = (b.release gone).stored from heq)]
    rfl

theorem BrowserInv.undoReport {b : Browser} (h : BrowserInv b) {tab : Nat} {entry : Entry}
    {replaced : Option Entry} (hid : ∀ earlier, replaced = some earlier → earlier.id = entry.id)
    (safe : TabSafe b (.undo tab entry replaced)) :
    BrowserInv (b.undoReport tab entry replaced) := by
  have hdistinct := distinct_undoneEntries (h.distinct tab) h.distinctStored hid
  have hlen := length_undoneEntries (h.length tab) b.stored entry replaced
  have hcover : ∀ c ∈ (b.release [entry.id]).confirmed,
      c.2 ∈ ids (undoneEntries (b.tabs tab).entries b.stored entry replaced) := by
    intro c hc
    obtain ⟨hc, hne⟩ := List.mem_filter.mp hc
    exact ids_undoneEntries (h.distinct tab) h.distinctStored hid safe (by simpa using hne)
      (.inr (h.stored c hc))
  have hstore := ((h.release [entry.id]).change tab hdistinct hlen fun _ => hcover).store tab
    hdistinct hlen hcover
  rwa [Browser.undoReport, Browser.release_store]

/-- A room change takes out only what it releases. -/
theorem BrowserInv.changeRoom {b : Browser} (h : BrowserInv b) (tab : Nat) {entries : List Entry}
    (hdistinct : DistinctIds entries) (hlen : entries.length ≤ maxEntries)
    (hkeep : ∀ e ∈ (b.tabs tab).entries, e.serverSynced = false → e.id ∈ ids entries) :
    BrowserInv (b.changeRoom tab entries) := by
  refine (h.release (released (b.tabs tab).entries entries)).change tab hdistinct hlen ?_
  intro hpending c hc
  obtain ⟨hc, hnot⟩ := List.mem_filter.mp hc
  obtain ⟨e, he, hid⟩ := mem_ids.mp (h.heard tab hpending c hc)
  by_contra hgone
  have hsynced : e.serverSynced = true := by
    by_contra hunsynced
    exact hgone (hid ▸ hkeep e he (by simpa using hunsynced))
  have hreleased : c.2 ∈ released (b.tabs tab).entries entries := by
    refine mem_ids.mpr ⟨e, List.mem_filter.mpr ⟨he, ?_⟩, hid⟩
    simpa [hsynced, hid] using hgone
  simp [hreleased] at hnot

theorem keep_strip {entries : List Entry} {roomKey : String} :
    ∀ e ∈ entries, e.serverSynced = false → e.id ∈ ids (stripEntriesForRoom entries roomKey) :=
  fun _ he hunsynced =>
    List.mem_map_of_mem (mem_stripEntriesForRoom.mpr ⟨he, .inr (.inr hunsynced)⟩)

theorem keep_snapshot {entries : List Entry} (h : DistinctIds entries) {roomKey : String}
    {records : List RoomEntryRecord}
    (hfits : Fits (ids (stripEntriesForRoom entries roomKey) ++
      ids (entriesFromRoomRecords records roomKey))) :
    ∀ e ∈ entries, e.serverSynced = false → e.id ∈ ids (roomSnapshot entries roomKey records) := by
  intro e he hunsynced
  have hmem := fun x => mem_replaceRoomEntries (x := x) h (distinct_entriesFromRoomRecords ..) hfits
  by_cases htaken : ∃ c ∈ fromServer entries (entriesFromRoomRecords records roomKey), c.id = e.id
  · obtain ⟨c, hc, hid⟩ := htaken
    exact mem_ids.mpr ⟨_, (hmem _).mpr (.inr ⟨c, hc, rfl⟩), by rw [keepLocalAnalytics_id, hid]⟩
  · refine mem_ids.mpr ⟨e, (hmem e).mpr (.inl ⟨?_, ?_⟩), rfl⟩
    · exact mem_stripEntriesForRoom.mpr ⟨he, .inr (.inr hunsynced)⟩
    · exact fun c hc hid => htaken ⟨c, hc, hid⟩

theorem BrowserInv.write {b : Browser} (h : BrowserInv b) {tab : Nat}
    (safe : TabSafe b (.write tab)) : BrowserInv (b.store tab (b.tabs tab).entries) := by
  refine h.store tab (h.distinct tab) (h.length tab) ?_
  intro c hc
  cases safe with
  | inl hnone => exact h.heard tab hnone c hc
  | inr hall => exact hall c.2 (h.stored c hc)

/-- A tab that reads the stored list has every confirmed report. -/
theorem BrowserInv.read {b : Browser} (h : BrowserInv b) (tab : Nat) (due : Bool) (pending : Nat) :
    BrowserInv { b with
      tabs := Function.update b.tabs tab
        { entries := b.stored, due := due, pending := pending } } := by
  refine ⟨?_, ?_, h.distinctStored, h.lengthStored, h.stored, ?_⟩
  · intro u
    by_cases hu : u = tab
    · simpa [hu] using h.distinctStored
    · simpa [hu] using h.distinct u
  · intro u
    by_cases hu : u = tab
    · simpa [hu] using h.lengthStored
    · simpa [hu] using h.length u
  · intro u
    by_cases hu : u = tab
    · intro _ c hc
      simpa [hu] using h.stored c hc
    · simpa [hu] using h.heard u

theorem BrowserInv.flag {b : Browser} (h : BrowserInv b) (tab : Nat) (due : Bool) :
    BrowserInv { b with
      tabs := Function.update b.tabs tab { b.tabs tab with due := due } } := by
  refine ⟨?_, ?_, h.distinctStored, h.lengthStored, h.stored, ?_⟩ <;> intro u <;>
    by_cases hu : u = tab
  · simpa [hu] using h.distinct tab
  · simpa [hu] using h.distinct u
  · simpa [hu] using h.length tab
  · simpa [hu] using h.length u
  · simpa [hu] using h.heard tab
  · simpa [hu] using h.heard u

theorem BrowserInv.step {b t : Browser} {a : TabAction} (h : BrowserInv b) (safe : TabSafe b a)
    (hstep : tabStep b a = some t) : BrowserInv t := by
  cases a with
  | load tab =>
      obtain rfl := Option.some_inj.mp hstep
      exact h.read tab true 0
  | save tab save =>
      obtain rfl := Option.some_inj.mp hstep
      exact h.saveReport safe
  | undo tab entry replaced =>
      simp only [tabStep, Option.ite_none_right_eq_some] at hstep
      obtain ⟨hid, hstep⟩ := hstep
      obtain rfl := Option.some_inj.mp hstep
      exact h.undoReport hid safe
  | clear tab =>
      obtain rfl := Option.some_inj.mp hstep
      have hempty : BrowserInv { b with confirmed := [] } :=
        ⟨h.distinct, h.length, h.distinctStored, h.lengthStored, nofun, nofun⟩
      exact hempty.change tab List.nodup_nil (Nat.zero_le _) nofun
  | receive tab copy =>
      obtain rfl := Option.some_inj.mp hstep
      refine h.change tab (distinct_mergeEntry ..) (length_mergeEntry ..) fun hpending c hc => ?_
      obtain ⟨e, he, hid⟩ := mem_ids.mp (h.heard tab hpending c hc)
      have hmem := fun x => mem_mergeEntry (x := x) (h.distinct tab) safe
      by_cases hcopy : c.2 = copy.id
      · exact mem_ids.mpr ⟨_, (hmem _).mpr (.inl rfl), by rw [keepLocalAnalytics_id, hcopy]⟩
      · exact mem_ids.mpr ⟨e, (hmem e).mpr (.inr ⟨he, hid ▸ hcopy⟩), hid⟩
  | snapshot tab roomKey records =>
      obtain rfl := Option.some_inj.mp hstep
      exact h.changeRoom tab (distinct_replaceRoomEntries ..) (List.length_take_le ..)
        (keep_snapshot (h.distinct tab) safe)
  | leave tab roomKey =>
      obtain rfl := Option.some_inj.mp hstep
      have hsub := stripEntriesForRoom_sublist (b.tabs tab).entries roomKey
      exact h.changeRoom tab ((h.distinct tab).sublist hsub)
        (le_trans hsub.length_le (h.length tab)) keep_strip
  | write tab =>
      simp only [tabStep, Option.ite_none_right_eq_some] at hstep
      obtain ⟨-, hstep⟩ := hstep
      obtain rfl := Option.some_inj.mp hstep
      have hflag := (h.write safe).flag tab false
      rwa [Browser.store_own] at hflag
  | deliver tab =>
      simp only [tabStep, Option.ite_none_right_eq_some] at hstep
      obtain ⟨-, hstep⟩ := hstep
      obtain rfl := Option.some_inj.mp hstep
      exact h.read tab true _

def tabReport : Save where
  newId := "1000-abc123"
  savedAtMs := 1000
  scoutProfile := "Ada"
  roomKey := some "team-7"
  eventKey := "2026txa"
  matchKey := "2026txa_qm1"
  teamKey := "frc118"
  form := "3 cycles"

def teammateReport : Entry where
  id := "900-grace1"
  savedAtMs := 900
  scoutProfile := "Grace"
  roomKey := some "team-7"
  eventKey := "2026txa"
  matchKey := "2026txa_qm1"
  teamKey := "frc254"
  form := "1 cycle"

def emptyBrowser : Browser where
  tabs _ := { entries := [] }
  stored := []

theorem emptyBrowser_start : tabSystem.start emptyBrowser :=
  ⟨rfl, List.nodup_nil, Nat.zero_le _⟩

/-- Tab 1 writes its list before the event of the save reaches it, and the event of that
write makes tab 0 take the list without its report. -/
def overwrittenRun : List TabAction :=
  [.save 0 tabReport, .receive 1 teammateReport, .write 1, .deliver 0]

/-- The event arrives before tab 1 writes. -/
def heardRun : List TabAction :=
  [.save 0 tabReport, .deliver 1, .receive 1 teammateReport, .write 1, .deliver 0]

end Frcmob.Reports
