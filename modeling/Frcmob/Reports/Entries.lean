import Mathlib.Data.List.Dedup
import Mathlib.Data.List.Sort
import Frcmob.Lib.Table
import Frcmob.Text

/-!
The lists of scouting reports of `scoutingPage.helpers.ts`: the merge functions that
bring in acknowledgements, room snapshots and other tabs' reports. Each builds a `Map`
by id, sorts it newest first and cuts it at 600. Reports are as `normalizeEntry`
leaves them; it rejects only what is not a record.
-/

namespace Frcmob.Reports

/-- `form` stands for all the scout recorded: the form, the ratings, notes and tags. -/
structure SavedScoutingEntry where
  id : String
  savedAtMs : Nat
  scoutProfile : String
  roomKey : Option String := none
  eventKey : String
  matchKey : String
  teamKey : String
  form : String
  apiSnapshot : Option String := none
  scoutingApiRating : Option String := none
  serverSynced : Bool := false
deriving DecidableEq

abbrev Entry := SavedScoutingEntry

def isRoomKeyChar (c : Char) : Bool :=
  c.isLower || c.isDigit || c = '_' || c = '-'

/-- `raw.trim().toLowerCase().replace(/[^a-z0-9_-]+/g, '').slice(0, 48)` -/
def normalizeRoomKey (raw : String) : String :=
  takeChars 48 (String.ofList ((normalizeKey raw).toList.filter isRoomKeyChar))

/-- `normalizeRoomKey(entry.room_key || '')` -/
def SavedScoutingEntry.room (e : Entry) : String :=
  normalizeRoomKey (e.roomKey.getD "")

/-- The first of the keys that is not empty, as `a || b || null` picks it. -/
def firstKey (keys : List String) : Option String :=
  keys.find? (· ≠ "")

def maxEntries : Nat := 600

abbrev EntryMap := Table SavedScoutingEntry.id

/-- `new Map(entries.map((entry) => [entry.id, entry]))` -/
def byId (entries : List Entry) : EntryMap :=
  Table.empty.putAll entries

/-- `.sort((a, b) => b.saved_at_ms - a.saved_at_ms)`, which is stable. -/
def newestFirst (entries : List Entry) : List Entry :=
  entries.insertionSort fun a b => b.savedAtMs ≤ a.savedAtMs

/-- `Array.from(map.values()).sort(…).slice(0, 600)` -/
def newest (map : EntryMap) : List Entry :=
  (newestFirst map.rows).take maxEntries

/-- The id `mergeEntries` gives a report whose id is taken. -/
def renamedId (e : Entry) : String :=
  e.id ++ "-" ++ toString e.savedAtMs ++ "-" ++ e.teamKey

def addIncoming (map : EntryMap) (e : Entry) : EntryMap :=
  map.put { e with id := if (map.get? e.id).isSome then renamedId e else e.id }

def mergeEntries (existing incoming : List Entry) : List Entry :=
  newest (incoming.foldl addIncoming (byId existing))

/-- The server's copy lacks what the phone worked out after the save. -/
def keepLocalAnalytics (incoming : Entry) : Option Entry → Entry
  | none => incoming
  | some here =>
      { incoming with
        apiSnapshot := incoming.apiSnapshot <|> here.apiSnapshot
        scoutingApiRating := incoming.scoutingApiRating <|> here.scoutingApiRating }

def mergeEntry (existing : List Entry) (incoming : Entry) : List Entry :=
  let map := byId existing
  newest (map.put (keepLocalAnalytics incoming (map.get? incoming.id)))

/-- A row of a room snapshot; `entry` is `none` where `normalizeEntry` rejects it. -/
structure RoomEntryRecord where
  entry : Option Entry
  roomKey : Option String := none
deriving DecidableEq

def entryFromRecord (fallback : String) (record : RoomEntryRecord) : Option Entry :=
  record.entry.map fun e =>
    { e with
      roomKey := firstKey [normalizeRoomKey (record.roomKey.getD ""), normalizeRoomKey fallback,
        e.roomKey.getD ""]
      serverSynced := true }

def entriesFromRoomRecords (records : List RoomEntryRecord) (fallbackRoomKey : String) :
    List Entry :=
  mergeEntries [] (records.filterMap (entryFromRecord fallbackRoomKey))

def stripEntriesForRoom (entries : List Entry) (roomKey : String) : List Entry :=
  if normalizeRoomKey roomKey = "" then entries
  else entries.filter fun e => e.room ≠ normalizeRoomKey roomKey || !e.serverSynced

/-- A correction still on its way: the phone's report is newer than the server's copy. -/
def newerOnPhone (entries : List Entry) (server : Entry) : Bool :=
  match (byId entries).get? server.id with
  | none => false
  | some here => !here.serverSynced && server.savedAtMs < here.savedAtMs

/-- The reports of the snapshot that are taken. -/
def fromServer (entries snapshot : List Entry) : List Entry :=
  snapshot.filter fun e => !newerOnPhone entries e

def replaceRoomEntries (entries : List Entry) (roomKey : String) (snapshot : List Entry) :
    List Entry :=
  mergeEntries
    ((stripEntriesForRoom entries roomKey).filter fun e =>
      !((fromServer entries snapshot).map (·.id)).contains e.id)
    ((fromServer entries snapshot).map fun e =>
      keepLocalAnalytics e ((byId entries).get? e.id))

/-- The stored reports this tab does not know. -/
def extraReports (entries stored : List Entry) : List Entry :=
  stored.filter fun e => !(entries.map (·.id)).contains e.id

def withReportsFromOtherTabs (entries stored : List Entry) : List Entry :=
  if extraReports entries stored = [] then entries
  else (newestFirst (entries ++ extraReports entries stored)).take maxEntries

/-! ### Room keys -/

theorem isLower_eq (c : Char) :
    c.isLower = (decide ('a'.val ≤ c.val) && decide (c.val ≤ 'z'.val)) := rfl

theorem isWhitespace_of_roomKeyChar {c : Char} (h : isRoomKeyChar c) : c.isWhitespace = false := by
  simp only [isRoomKeyChar, isLower_eq, Char.isDigit, Char.isWhitespace, Bool.or_eq_true,
    Bool.and_eq_true, decide_eq_true_eq, Bool.or_eq_false_iff, decide_eq_false_iff_not,
    Char.ext_iff] at *
  grind

theorem toLower_of_roomKeyChar {c : Char} (h : isRoomKeyChar c) : c.toLower = c := by
  have hupper : ¬ ('A'.val ≤ c.val ∧ c.val ≤ 'Z'.val) := by
    simp only [isRoomKeyChar, isLower_eq, Char.isDigit, Bool.or_eq_true, Bool.and_eq_true,
      decide_eq_true_eq, Char.ext_iff] at h
    grind
  exact dif_neg hupper

theorem normalizeRoomKey_chars {raw : String} {c : Char} (h : c ∈ (normalizeRoomKey raw).toList) :
    isRoomKeyChar c := by
  rw [normalizeRoomKey, takeChars, String.toList_ofList, String.toList_ofList] at h
  exact (List.mem_filter.mp (List.mem_of_mem_take h)).2

@[simp] theorem normalizeRoomKey_empty : normalizeRoomKey "" = "" := by
  decide

theorem normalizeRoomKey_idem (raw : String) :
    normalizeRoomKey (normalizeRoomKey raw) = normalizeRoomKey raw := by
  have hchars : ∀ c ∈ (normalizeRoomKey raw).toList, isRoomKeyChar c :=
    fun _ => normalizeRoomKey_chars
  have hlen : (normalizeRoomKey raw).toList.length ≤ 48 := by
    rw [normalizeRoomKey, takeChars, String.toList_ofList]
    exact List.length_take_le ..
  rw [normalizeRoomKey, takeChars, String.toList_ofList,
    normalizeKey_of_plain (fun c hc => isWhitespace_of_roomKeyChar (hchars c hc))
      (fun c hc => toLower_of_roomKeyChar (hchars c hc)),
    List.filter_eq_self.mpr hchars, List.take_of_length_le hlen, String.ofList_toList]

/-! ### Lists without a repeated id -/

/-- No two reports of the list share an id. -/
def DistinctIds (entries : List Entry) : Prop :=
  (entries.map (·.id)).Nodup

/-- At most 600 reports have these ids. -/
def Fits (ids : List String) : Prop :=
  ids.dedup.length ≤ maxEntries

instance (entries : List Entry) : Decidable (DistinctIds entries) :=
  inferInstanceAs (Decidable (List.Nodup _))

instance (ids : List String) : Decidable (Fits ids) :=
  inferInstanceAs (Decidable (_ ≤ _))

@[simp] theorem keepLocalAnalytics_id (e : Entry) (o : Option Entry) :
    (keepLocalAnalytics e o).id = e.id := by
  cases o <;> rfl

@[simp] theorem keepLocalAnalytics_savedAtMs (e : Entry) (o : Option Entry) :
    (keepLocalAnalytics e o).savedAtMs = e.savedAtMs := by
  cases o <;> rfl

@[simp] theorem keepLocalAnalytics_form (e : Entry) (o : Option Entry) :
    (keepLocalAnalytics e o).form = e.form := by
  cases o <;> rfl

@[simp] theorem keepLocalAnalytics_serverSynced (e : Entry) (o : Option Entry) :
    (keepLocalAnalytics e o).serverSynced = e.serverSynced := by
  cases o <;> rfl

theorem DistinctIds.eq_of_id {entries : List Entry} (h : DistinctIds entries) {x y : Entry}
    (hx : x ∈ entries) (hy : y ∈ entries) (hid : x.id = y.id) : x = y :=
  List.inj_on_of_nodup_map h hx hy hid

theorem DistinctIds.sublist {l entries : List Entry} (h : DistinctIds entries)
    (hl : l.Sublist entries) : DistinctIds l :=
  (hl.map _).nodup h

theorem DistinctIds.filter {entries : List Entry} (h : DistinctIds entries) (p : Entry → Bool) :
    DistinctIds (entries.filter p) :=
  h.sublist List.filter_sublist

theorem DistinctIds.perm {l entries : List Entry} (h : DistinctIds entries) (hl : l.Perm entries) :
    DistinctIds l :=
  (hl.map _).nodup_iff.mpr h

theorem newestFirst_perm (entries : List Entry) : (newestFirst entries).Perm entries :=
  List.perm_insertionSort _ entries

@[simp] theorem mem_newestFirst {entries : List Entry} {x : Entry} :
    x ∈ newestFirst entries ↔ x ∈ entries :=
  (newestFirst_perm entries).mem_iff

/-- A list whose ids lie among at most 600 is not cut. -/
theorem take_of_fits {l : List Entry} {ids : List String} (h : DistinctIds l) (hfits : Fits ids)
    (hids : ∀ x ∈ l, x.id ∈ ids) : l.take maxEntries = l := by
  refine List.take_of_length_le (le_trans ?_ hfits)
  have hsub : l.map (·.id) ⊆ ids.dedup := by
    intro id hid
    obtain ⟨x, hx, rfl⟩ := List.mem_map.mp hid
    exact List.mem_dedup.mpr (hids x hx)
  simpa using (List.subperm_of_subset h hsub).length_le

theorem distinct_newest (map : EntryMap) : DistinctIds (newest map) :=
  DistinctIds.sublist (DistinctIds.perm map.unique (newestFirst_perm _)) (List.take_sublist ..)

theorem mem_of_mem_newest {map : EntryMap} {x : Entry} (h : x ∈ newest map) : x ∈ map :=
  mem_newestFirst.mp (List.mem_of_mem_take h)

theorem mem_newest {map : EntryMap} {ids : List String} (hfits : Fits ids)
    (hids : ∀ x ∈ map, x.id ∈ ids) {x : Entry} : x ∈ newest map ↔ x ∈ map := by
  have huncut : newest map = newestFirst map.rows := by
    refine take_of_fits (DistinctIds.perm map.unique (newestFirst_perm _)) hfits ?_
    exact fun y hy => hids y (mem_newestFirst.mp hy)
  rw [huncut, mem_newestFirst, Table.mem_def]

theorem mem_of_mem_byId {entries : List Entry} {x : Entry} (h : x ∈ byId entries) : x ∈ entries :=
  (Table.mem_putAll h).resolve_left (Table.notMem_empty x)

/-- Without a repeated id the map holds just the list. -/
theorem mem_byId {entries : List Entry} (h : DistinctIds entries) {x : Entry} :
    x ∈ byId entries ↔ x ∈ entries := by
  refine ⟨mem_of_mem_byId, ?_⟩
  intro hx
  suffices ∀ (l : List Entry) (map : EntryMap), DistinctIds l → x ∈ l → x ∈ map.putAll l from
    this entries .empty h hx
  intro l
  induction l with
  | nil => exact fun _ _ hin => absurd hin List.not_mem_nil
  | cons y l ih =>
      intro map hdistinct hin
      obtain ⟨hnew, hrest⟩ := List.nodup_cons.mp hdistinct
      cases List.mem_cons.mp hin with
      | inl heq =>
          subst heq
          rw [Table.putAll_cons]
          refine Table.mem_putAll_of_notMem (Table.mem_put_self map x) ?_
          intro z hz hid
          exact hnew (List.mem_map.mpr ⟨z, hz, hid⟩)
      | inr htail => exact ih _ hrest htail

theorem get?_byId {entries : List Entry} (h : DistinctIds entries) {id : String} {x : Entry} :
    (byId entries).get? id = some x ↔ x ∈ entries ∧ x.id = id := by
  rw [Table.get?_eq_some, mem_byId h]

theorem get?_byId_eq_none {entries : List Entry} (h : DistinctIds entries) {id : String} :
    (byId entries).get? id = none ↔ ∀ x ∈ entries, x.id ≠ id := by
  rw [Table.get?_eq_none]
  exact forall_congr' fun x => by rw [mem_byId h]

/-! ### What each merge keeps -/

theorem distinct_mergeEntries (existing incoming : List Entry) :
    DistinctIds (mergeEntries existing incoming) :=
  distinct_newest _

theorem distinct_mergeEntry (existing : List Entry) (incoming : Entry) :
    DistinctIds (mergeEntry existing incoming) :=
  distinct_newest _

/-- A merge of one report replaces the report of its id, whatever it was. -/
theorem mem_mergeEntry {existing : List Entry} {incoming : Entry} (h : DistinctIds existing)
    (hfits : Fits (incoming.id :: existing.map (·.id))) {x : Entry} :
    x ∈ mergeEntry existing incoming ↔
      x = keepLocalAnalytics incoming ((byId existing).get? incoming.id) ∨
        (x ∈ existing ∧ x.id ≠ incoming.id) := by
  rw [mergeEntry, mem_newest hfits, Table.mem_put, mem_byId h, keepLocalAnalytics_id]
  intro y hy
  cases Table.mem_put.mp hy with
  | inl heq => simp [heq]
  | inr hold => exact List.mem_cons_of_mem _ (List.mem_map_of_mem (mem_of_mem_byId hold.1))

/-- Also of a list that is cut, or has an id twice. -/
theorem mem_of_mem_mergeEntry {existing : List Entry} {incoming x : Entry}
    (h : x ∈ mergeEntry existing incoming) :
    x = keepLocalAnalytics incoming ((byId existing).get? incoming.id) ∨ x ∈ existing := by
  cases Table.mem_put.mp (mem_of_mem_newest h) with
  | inl heq => exact .inl heq
  | inr hold => exact .inr (mem_of_mem_byId hold.1)

theorem mem_stripEntriesForRoom {entries : List Entry} {roomKey : String} {x : Entry} :
    x ∈ stripEntriesForRoom entries roomKey ↔ x ∈ entries ∧
      (normalizeRoomKey roomKey = "" ∨ x.room ≠ normalizeRoomKey roomKey ∨
        x.serverSynced = false) := by
  by_cases hroom : normalizeRoomKey roomKey = ""
  · simp [stripEntriesForRoom, hroom]
  · simp [stripEntriesForRoom, hroom]

theorem stripEntriesForRoom_sublist (entries : List Entry) (roomKey : String) :
    (stripEntriesForRoom entries roomKey).Sublist entries := by
  by_cases hroom : normalizeRoomKey roomKey = ""
  · simp [stripEntriesForRoom, hroom]
  · rw [stripEntriesForRoom, if_neg hroom]
    exact List.filter_sublist

/-- Reports with new ids are added under their own ids. -/
theorem foldl_addIncoming {incoming : List Entry} {map : EntryMap} (h : DistinctIds incoming)
    (hnew : ∀ x ∈ incoming, ∀ y ∈ map, y.id ≠ x.id) {x : Entry} :
    x ∈ incoming.foldl addIncoming map ↔ x ∈ map ∨ x ∈ incoming := by
  induction incoming generalizing map with
  | nil => simp
  | cons e rest ih =>
      obtain ⟨hfresh, hrest⟩ := List.nodup_cons.mp h
      have hnone : map.get? e.id = none :=
        Table.get?_eq_none.mpr fun y hy => hnew e List.mem_cons_self y hy
      have hadd : addIncoming map e = map.put e := by simp [addIncoming, hnone]
      rw [List.foldl_cons, hadd, ih hrest ?_, Table.mem_put, List.mem_cons]
      · constructor
        · intro hx
          cases hx with
          | inl hin => exact hin.elim (fun heq => .inr (.inl heq)) fun hold => .inl hold.1
          | inr hin => exact .inr (.inr hin)
        · intro hx
          cases hx with
          | inl hin => exact .inl (.inr ⟨hin, hnew e List.mem_cons_self x hin⟩)
          | inr hin => exact hin.elim (fun heq => .inl (.inl heq)) .inr
      · intro z hz y hy hid
        cases Table.mem_put.mp hy with
        | inl heq =>
            subst heq
            exact hfresh (List.mem_map.mpr ⟨z, hz, hid.symm⟩)
        | inr hold => exact hnew z (List.mem_cons_of_mem _ hz) y hold.1 hid

theorem newerOnPhone_iff {entries : List Entry} (h : DistinctIds entries) {server : Entry} :
    newerOnPhone entries server = true ↔
      ∃ x ∈ entries, x.id = server.id ∧ x.serverSynced = false ∧
        server.savedAtMs < x.savedAtMs := by
  rw [newerOnPhone]
  cases hget : (byId entries).get? server.id with
  | none =>
      have hnone := (get?_byId_eq_none h).mp hget
      refine ⟨nofun, fun ⟨x, hx, hid, _⟩ => absurd hid (hnone x hx)⟩
  | some x =>
      obtain ⟨hx, hid⟩ := (get?_byId h).mp hget
      simp only [Bool.and_eq_true, Bool.not_eq_true', decide_eq_true_eq]
      constructor
      · exact fun hnew => ⟨x, hx, hid, hnew.1, hnew.2⟩
      · intro ⟨y, hy, hyid, hnew⟩
        rw [h.eq_of_id hx hy (hid.trans hyid.symm)]
        exact hnew

@[simp] theorem mem_fromServer {entries snapshot : List Entry} {e : Entry} :
    e ∈ fromServer entries snapshot ↔ e ∈ snapshot ∧ newerOnPhone entries e = false := by
  simp [fromServer]

/-- The map `replaceRoomEntries` makes its list of. -/
private theorem mem_replaced {entries snapshot : List Entry} {roomKey : String}
    (hsnapshot : DistinctIds snapshot) {x : Entry} :
    x ∈ ((fromServer entries snapshot).map fun e =>
          keepLocalAnalytics e ((byId entries).get? e.id)).foldl addIncoming
        (byId ((stripEntriesForRoom entries roomKey).filter fun e =>
          !((fromServer entries snapshot).map (·.id)).contains e.id)) ↔
      x ∈ byId ((stripEntriesForRoom entries roomKey).filter fun e =>
        !((fromServer entries snapshot).map (·.id)).contains e.id) ∨
      ∃ e ∈ fromServer entries snapshot,
        keepLocalAnalytics e ((byId entries).get? e.id) = x := by
  rw [foldl_addIncoming, List.mem_map]
  · have hids : DistinctIds (fromServer entries snapshot) := hsnapshot.filter _
    rw [DistinctIds] at hids ⊢
    simpa [List.map_map, Function.comp_def] using hids
  · intro z hz w hw hid
    obtain ⟨e, he, rfl⟩ := List.mem_map.mp hz
    have hnot := (List.mem_filter.mp (mem_of_mem_byId hw)).2
    rw [keepLocalAnalytics_id] at hid
    simp only [List.contains_eq_mem, Bool.not_eq_true', decide_eq_false_iff_not] at hnot
    exact hnot (List.mem_map.mpr ⟨e, he, hid.symm⟩)

/-- A snapshot replaces the reports it has, except corrections still on their way, and
leaves alone what the strip keeps. -/
theorem mem_replaceRoomEntries {entries snapshot : List Entry} {roomKey : String}
    (h : DistinctIds entries) (hsnapshot : DistinctIds snapshot)
    (hfits : Fits ((stripEntriesForRoom entries roomKey).map (·.id) ++ snapshot.map (·.id)))
    {x : Entry} :
    x ∈ replaceRoomEntries entries roomKey snapshot ↔
      (x ∈ stripEntriesForRoom entries roomKey ∧
        ∀ e ∈ fromServer entries snapshot, e.id ≠ x.id) ∨
      ∃ e ∈ fromServer entries snapshot,
        keepLocalAnalytics e ((byId entries).get? e.id) = x := by
  have hkept := h.sublist (stripEntriesForRoom_sublist entries roomKey)
  rw [replaceRoomEntries, mergeEntries, mem_newest hfits, mem_replaced hsnapshot,
    mem_byId (hkept.filter _), List.mem_filter]
  · simp
  intro y hy
  cases (mem_replaced hsnapshot).mp hy with
  | inl hkeep =>
      refine List.mem_append_left _ (List.mem_map_of_mem ?_)
      exact (List.mem_filter.mp (mem_of_mem_byId hkeep)).1
  | inr hserver =>
      obtain ⟨e, he, rfl⟩ := hserver
      rw [keepLocalAnalytics_id]
      exact List.mem_append_right _ (List.mem_map_of_mem (mem_fromServer.mp he).1)

theorem mem_of_mem_replaceRoomEntries {entries snapshot : List Entry} {roomKey : String}
    (hsnapshot : DistinctIds snapshot) {x : Entry}
    (h : x ∈ replaceRoomEntries entries roomKey snapshot) :
    x ∈ stripEntriesForRoom entries roomKey ∨
      ∃ e ∈ snapshot, keepLocalAnalytics e ((byId entries).get? e.id) = x := by
  cases (mem_replaced hsnapshot).mp (mem_of_mem_newest h) with
  | inl hkeep => exact .inl (List.mem_filter.mp (mem_of_mem_byId hkeep)).1
  | inr hserver =>
      obtain ⟨e, he, heq⟩ := hserver
      exact .inr ⟨e, (mem_fromServer.mp he).1, heq⟩

/-- Records with distinct ids become reports under these ids. -/
theorem mem_of_mem_entriesFromRoomRecords {records : List RoomEntryRecord} {roomKey : String}
    (hids : DistinctIds (records.filterMap (·.entry))) {x : Entry}
    (h : x ∈ entriesFromRoomRecords records roomKey) :
    ∃ record ∈ records, entryFromRecord roomKey record = some x := by
  have hfold := mem_of_mem_newest h
  rw [foldl_addIncoming ?_ fun _ _ _ hy => absurd (mem_of_mem_byId hy) List.not_mem_nil] at hfold
  · cases hfold with
    | inl hnone => exact absurd (mem_of_mem_byId hnone) List.not_mem_nil
    | inr hin => exact List.mem_filterMap.mp hin
  · have hsame : (records.filterMap (entryFromRecord roomKey)).map (·.id) =
        (records.filterMap (·.entry)).map (·.id) := by
      rw [List.map_filterMap, List.map_filterMap]
      refine List.filterMap_congr fun record _ => ?_
      cases hentry : record.entry <;> simp [entryFromRecord, hentry]
    rw [DistinctIds] at hids ⊢
    rwa [hsame]

theorem distinct_replaceRoomEntries (entries snapshot : List Entry) (roomKey : String) :
    DistinctIds (replaceRoomEntries entries roomKey snapshot) :=
  distinct_newest _

theorem distinct_entriesFromRoomRecords (records : List RoomEntryRecord) (roomKey : String) :
    DistinctIds (entriesFromRoomRecords records roomKey) :=
  distinct_newest _

theorem mem_extraReports {entries stored : List Entry} {x : Entry} :
    x ∈ extraReports entries stored ↔ x ∈ stored ∧ ∀ y ∈ entries, y.id ≠ x.id := by
  simp [extraReports]

theorem distinct_append_extraReports {entries stored : List Entry} (h : DistinctIds entries)
    (hstored : DistinctIds stored) : DistinctIds (entries ++ extraReports entries stored) := by
  rw [DistinctIds]
  rw [List.map_append]
  refine List.nodup_append.mpr ⟨h, hstored.filter _, ?_⟩
  intro a ha b hb hab
  obtain ⟨x, hx, rfl⟩ := List.mem_map.mp ha
  obtain ⟨y, hy, rfl⟩ := List.mem_map.mp hb
  exact (mem_extraReports.mp hy).2 x hx hab

theorem distinct_withReportsFromOtherTabs {entries stored : List Entry} (h : DistinctIds entries)
    (hstored : DistinctIds stored) : DistinctIds (withReportsFromOtherTabs entries stored) := by
  rw [withReportsFromOtherTabs]
  split
  · exact h
  · exact ((distinct_append_extraReports h hstored).perm (newestFirst_perm _)).sublist
      (List.take_sublist ..)

/-- What only the stored list has is added, and what this tab has is kept as it is. -/
theorem mem_withReportsFromOtherTabs {entries stored : List Entry} (h : DistinctIds entries)
    (hstored : DistinctIds stored) (hfits : Fits (entries.map (·.id) ++ stored.map (·.id)))
    {x : Entry} :
    x ∈ withReportsFromOtherTabs entries stored ↔
      x ∈ entries ∨ (x ∈ stored ∧ ∀ y ∈ entries, y.id ≠ x.id) := by
  rw [withReportsFromOtherTabs]
  split
  · rename_i hextra
    refine ⟨.inl, fun hx => hx.resolve_right ?_⟩
    intro hin
    have hmem := mem_extraReports.mpr hin
    rw [hextra] at hmem
    exact List.not_mem_nil hmem
  · have hdistinct := (distinct_append_extraReports h hstored).perm (newestFirst_perm _)
    rw [take_of_fits hdistinct hfits, mem_newestFirst, List.mem_append, mem_extraReports]
    intro y hy
    cases List.mem_append.mp (mem_newestFirst.mp hy) with
    | inl hold => exact List.mem_append_left _ (List.mem_map_of_mem hold)
    | inr hnew =>
        exact List.mem_append_right _ (List.mem_map_of_mem (mem_extraReports.mp hnew).1)

end Frcmob.Reports
