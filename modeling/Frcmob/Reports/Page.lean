import Frcmob.Reports.Entries

/-!
What the callbacks of `ScoutingPage.tsx` do to the list of reports: saving and undoing,
the copies that come back from the server, room snapshots, leaving a room, imports.
-/

namespace Frcmob.Reports

/-- What a save reads off the page; `newId` is drawn, `roomKey` the normalized key of the
active room. -/
structure Save where
  newId : String
  savedAtMs : Nat
  scoutProfile : String
  roomKey : Option String := none
  eventKey : String
  matchKey : String
  teamKey : String
  form : String
  apiSnapshot : Option String := none
  scoutingApiRating : Option String := none
deriving DecidableEq

/-- The report a save would replace: this scout's, for the match and team, in this room. -/
def previousReport (entries : List Entry) (save : Save) : Option Entry :=
  entries.find? fun row => row.matchKey = save.matchKey ∧ row.teamKey = save.teamKey ∧
    row.scoutProfile = save.scoutProfile ∧ row.roomKey = save.roomKey

/-- `buildSavedScoutingEntry`, under the id of the report it replaces. -/
def savedEntry (save : Save) (previous : Option Entry) : Entry where
  id := (previous.map (·.id)).getD save.newId
  savedAtMs := save.savedAtMs
  scoutProfile := save.scoutProfile
  roomKey := save.roomKey
  eventKey := save.eventKey
  matchKey := save.matchKey
  teamKey := save.teamKey
  form := save.form
  apiSnapshot := save.apiSnapshot
  scoutingApiRating := save.scoutingApiRating

/-- `nextEntries` of `saveScoutingEntry`. -/
def savedEntries (entries stored : List Entry) (entry : Entry) (previous : Option Entry) :
    List Entry :=
  (entry :: (withReportsFromOtherTabs entries stored).filter fun row =>
    previous.map (·.id) ≠ some row.id).take maxEntries

/-- `nextEntries` of `undoSavedEntry`. -/
def undoneEntries (entries stored : List Entry) (entry : Entry) (replaced : Option Entry) :
    List Entry :=
  let without := (withReportsFromOtherTabs entries stored).filter fun row => row.id ≠ entry.id
  match replaced with
  | some earlier => (earlier :: without).take maxEntries
  | none => without

/-- Merge into the report of this id, if it is still there. -/
def updateEntry (entries : List Entry) (id : String) (f : Entry → Entry) : List Entry :=
  match entries.find? fun row => row.id = id with
  | none => entries
  | some latest => mergeEntry entries (f latest)

/-- `finishEntryInBackground`: the report as it was saved, with the team's statistics. -/
def fillIn (entries : List Entry) (entry : Entry) (snapshot rating : String) : List Entry :=
  updateEntry entries entry.id fun latest =>
    { entry with
      apiSnapshot := some snapshot
      scoutingApiRating := some rating
      roomKey := latest.roomKey <|> entry.roomKey
      serverSynced := latest.serverSynced || entry.serverSynced }

/-- The answer to `syncEntryToRoom`. -/
def syncAck (entries : List Entry) (synced : Entry) (roomKey : String) : List Entry :=
  updateEntry entries synced.id fun _ =>
    { synced with
      roomKey := firstKey [normalizeRoomKey roomKey, synced.roomKey.getD ""]
      serverSynced := true }

/-- The answer to the share loop's request for the report `id`. -/
def shareAck (entries : List Entry) (id : String) (synced : Entry) (roomKey : String) :
    List Entry :=
  updateEntry entries id fun latest =>
    { synced with
      apiSnapshot := latest.apiSnapshot <|> synced.apiSnapshot
      scoutingApiRating := latest.scoutingApiRating <|> synced.scoutingApiRating
      roomKey := some roomKey
      serverSynced := true }

/-- The share loop's request went to the offline queue. -/
def shareQueued (entries : List Entry) (id : String) (roomKey : String) : List Entry :=
  updateEntry entries id fun latest =>
    { latest with roomKey := some roomKey, serverSynced := false }

/-- `candidates` of the share loop in the team's room; `heldId` is
`heldSaveRef.current?.entryId`. -/
def shareCandidates (entries : List Entry) (heldId : Option String) (eventKey roomKey : String) :
    List Entry :=
  entries.filter fun e => e.eventKey = eventKey ∧ e.serverSynced = false ∧
    (e.roomKey.getD "" = "" ∨ e.room = normalizeRoomKey roomKey) ∧ heldId ≠ some e.id

/-- A second tap on Save while the first save's Undo is still up. -/
def secondTap (entries : List Entry) (heldId : Option String) (save : Save) : Bool :=
  (previousReport entries save).any fun previous =>
    heldId = some previous.id && save.savedAtMs - previous.savedAtMs < 3000

/-- A live `entry_saved` message. -/
def liveCopy (entries : List Entry) (copy : Entry) (roomKey : String) : List Entry :=
  mergeEntry entries
    { copy with roomKey := firstKey [normalizeRoomKey roomKey, copy.roomKey.getD ""] }

def roomSnapshot (entries : List Entry) (roomKey : String) (records : List RoomEntryRecord) :
    List Entry :=
  replaceRoomEntries entries roomKey (entriesFromRoomRecords records roomKey)

/-- A QR import, which carries a newly drawn id and is refused if the scout's report for
the match and team is there already. -/
def importEntry (entries : List Entry) (imported : Entry) : List Entry :=
  if entries.any fun e => e.matchKey = imported.matchKey ∧ e.teamKey = imported.teamKey ∧
      e.scoutProfile = imported.scoutProfile then entries
  else mergeEntry entries imported

/-! ### Lemmas about the callbacks -/

theorem mem_shareCandidates {entries : List Entry} {heldId : Option String}
    {eventKey roomKey : String} {e : Entry} :
    e ∈ shareCandidates entries heldId eventKey roomKey ↔ e ∈ entries ∧ e.eventKey = eventKey ∧
      e.serverSynced = false ∧ (e.roomKey.getD "" = "" ∨ e.room = normalizeRoomKey roomKey) ∧
        heldId ≠ some e.id := by
  rw [shareCandidates, List.mem_filter, decide_eq_true_eq]

theorem previousReport_mem {entries : List Entry} {save : Save} {row : Entry}
    (h : previousReport entries save = some row) : row ∈ entries :=
  List.mem_of_find?_eq_some h

theorem previousReport_spec {entries : List Entry} {save : Save} {row : Entry}
    (h : previousReport entries save = some row) : row.matchKey = save.matchKey ∧
      row.teamKey = save.teamKey ∧ row.scoutProfile = save.scoutProfile ∧
      row.roomKey = save.roomKey := by
  simpa using List.find?_some h

/-- An import of a report that is on the phone changes nothing. -/
theorem importEntry_of_mem {entries : List Entry} {imported : Entry}
    (h : ∃ e ∈ entries, e.matchKey = imported.matchKey ∧ e.teamKey = imported.teamKey ∧
      e.scoutProfile = imported.scoutProfile) : importEntry entries imported = entries := by
  rw [importEntry, if_pos]
  simpa using h

theorem fits_of_mem {entries : List Entry} (h : DistinctIds entries)
    (hlen : entries.length ≤ maxEntries) {id : String} (hid : id ∈ entries.map (·.id)) :
    Fits (id :: entries.map (·.id)) := by
  rw [Fits]
  rw [List.dedup_cons_of_mem hid, List.Nodup.dedup h, List.length_map]
  exact hlen

theorem updateEntry_cases (entries : List Entry) (id : String) (f : Entry → Entry) :
    updateEntry entries id f = entries ∨
      ∃ latest ∈ entries, latest.id = id ∧
        updateEntry entries id f = mergeEntry entries (f latest) := by
  rw [updateEntry]
  cases hfind : entries.find? fun row => row.id = id with
  | none => exact .inl rfl
  | some latest =>
      have hid : latest.id = id := by simpa using List.find?_some hfind
      exact .inr ⟨latest, List.mem_of_find?_eq_some hfind, hid, rfl⟩

theorem length_mergeEntry (entries : List Entry) (e : Entry) :
    (mergeEntry entries e).length ≤ maxEntries :=
  List.length_take_le ..

theorem length_updateEntry {entries : List Entry} (h : entries.length ≤ maxEntries) (id : String)
    (f : Entry → Entry) : (updateEntry entries id f).length ≤ maxEntries := by
  cases updateEntry_cases entries id f with
  | inl heq => rwa [heq]
  | inr hmerge =>
      obtain ⟨latest, -, -, heq⟩ := hmerge
      exact heq ▸ length_mergeEntry ..

theorem distinct_updateEntry {entries : List Entry} (h : DistinctIds entries) (id : String)
    (f : Entry → Entry) : DistinctIds (updateEntry entries id f) := by
  cases updateEntry_cases entries id f with
  | inl heq => rwa [heq]
  | inr hmerge =>
      obtain ⟨latest, -, -, heq⟩ := hmerge
      exact heq ▸ distinct_mergeEntry ..

theorem length_withReportsFromOtherTabs {entries : List Entry} (h : entries.length ≤ maxEntries)
    (stored : List Entry) : (withReportsFromOtherTabs entries stored).length ≤ maxEntries := by
  rw [withReportsFromOtherTabs]
  split
  · exact h
  · exact List.length_take_le ..

theorem mem_of_mem_withReportsFromOtherTabs {entries stored : List Entry} {x : Entry}
    (h : x ∈ withReportsFromOtherTabs entries stored) : x ∈ entries ∨ x ∈ stored := by
  rw [withReportsFromOtherTabs] at h
  split at h
  · exact .inl h
  · cases List.mem_append.mp (mem_newestFirst.mp (List.mem_of_mem_take h)) with
    | inl hold => exact .inl hold
    | inr hnew => exact .inr (mem_extraReports.mp hnew).1

theorem mem_of_mem_updateEntry {entries : List Entry} {id : String} {f : Entry → Entry} {x : Entry}
    (h : x ∈ updateEntry entries id f) : x ∈ entries ∨ ∃ latest ∈ entries, latest.id = id ∧
      ∃ here, x = keepLocalAnalytics (f latest) here := by
  cases updateEntry_cases entries id f with
  | inl heq => exact .inl (heq ▸ h)
  | inr hmerge =>
      obtain ⟨latest, hlatest, hid, heq⟩ := hmerge
      cases mem_of_mem_mergeEntry (heq ▸ h) with
      | inl hnew => exact .inr ⟨latest, hlatest, hid, _, hnew⟩
      | inr hold => exact .inl hold

theorem mem_of_mem_savedEntries {entries stored : List Entry} {entry x : Entry}
    {previous : Option Entry} (h : x ∈ savedEntries entries stored entry previous) :
    x = entry ∨ x ∈ entries ∨ x ∈ stored := by
  cases List.mem_cons.mp (List.mem_of_mem_take h) with
  | inl heq => exact .inl heq
  | inr hin => exact .inr (mem_of_mem_withReportsFromOtherTabs (List.mem_filter.mp hin).1)

theorem mem_of_mem_undoneEntries {entries stored : List Entry} {entry x : Entry}
    {replaced : Option Entry} (h : x ∈ undoneEntries entries stored entry replaced) :
    replaced = some x ∨ ((x ∈ entries ∨ x ∈ stored) ∧ x.id ≠ entry.id) := by
  have hwithout : ∀ {y}, y ∈ (withReportsFromOtherTabs entries stored).filter
      (fun row => row.id ≠ entry.id) → (y ∈ entries ∨ y ∈ stored) ∧ y.id ≠ entry.id := by
    intro y hy
    obtain ⟨hin, hne⟩ := List.mem_filter.mp hy
    exact ⟨mem_of_mem_withReportsFromOtherTabs hin, of_decide_eq_true hne⟩
  cases replaced with
  | none => exact .inr (hwithout h)
  | some earlier =>
      cases List.mem_cons.mp (List.mem_of_mem_take h) with
      | inl heq => exact .inl (congrArg some heq.symm)
      | inr hin => exact .inr (hwithout hin)

theorem Fits.tail {id : String} {ids : List String} (h : Fits (id :: ids)) : Fits ids := by
  by_cases hid : id ∈ ids
  · rwa [Fits, List.dedup_cons_of_mem hid] at h
  · rw [Fits, List.dedup_cons_of_notMem hid, List.length_cons] at h
    rw [Fits]
    omega

/-- A list headed by one report, before the cut. -/
private theorem mem_take_cons {entries stored : List Entry} {e : Entry} {l : List Entry}
    (hl : l.Sublist (withReportsFromOtherTabs entries stored)) (h : DistinctIds entries)
    (hstored : DistinctIds stored) (hnew : ∀ x ∈ l, x.id ≠ e.id)
    (hfits : Fits (e.id :: (entries.map (·.id) ++ stored.map (·.id)))) :
    (e :: l).take maxEntries = e :: l := by
  refine take_of_fits ?_ hfits ?_
  · refine List.nodup_cons.mpr ⟨?_, (distinct_withReportsFromOtherTabs h hstored).sublist hl⟩
    intro hin
    obtain ⟨x, hx, hid⟩ := List.mem_map.mp hin
    exact hnew x hx hid
  · intro x hx
    cases List.mem_cons.mp hx with
    | inl heq => exact heq ▸ List.mem_cons_self
    | inr hrest =>
        refine List.mem_cons_of_mem _ (List.mem_append.mpr ?_)
        exact (mem_of_mem_withReportsFromOtherTabs (hl.subset hrest)).imp
          List.mem_map_of_mem List.mem_map_of_mem

/-- The saved list is the new report and all the others this tab or the storage has. -/
theorem mem_savedEntries {entries stored : List Entry} {entry : Entry} {previous : Option Entry}
    (h : DistinctIds entries) (hstored : DistinctIds stored)
    (hnew : ∀ x ∈ withReportsFromOtherTabs entries stored,
      previous.map (·.id) ≠ some x.id → x.id ≠ entry.id)
    (hfits : Fits (entry.id :: (entries.map (·.id) ++ stored.map (·.id)))) {x : Entry} :
    x ∈ savedEntries entries stored entry previous ↔ x = entry ∨
      (x ∈ withReportsFromOtherTabs entries stored ∧ previous.map (·.id) ≠ some x.id) := by
  rw [savedEntries, mem_take_cons List.filter_sublist h hstored ?_ hfits, List.mem_cons,
    List.mem_filter, decide_eq_true_eq]
  intro y hy
  have hy := List.mem_filter.mp hy
  exact hnew y hy.1 (by simpa using hy.2)

theorem distinct_savedEntries {entries stored : List Entry} {entry : Entry}
    {previous : Option Entry} (h : DistinctIds entries) (hstored : DistinctIds stored)
    (hnew : ∀ x ∈ withReportsFromOtherTabs entries stored,
      previous.map (·.id) ≠ some x.id → x.id ≠ entry.id) :
    DistinctIds (savedEntries entries stored entry previous) := by
  refine ((List.take_sublist maxEntries _).map _).nodup ?_
  refine List.nodup_cons.mpr ⟨?_, (distinct_withReportsFromOtherTabs h hstored).filter _⟩
  intro hin
  obtain ⟨x, hx, hid⟩ := List.mem_map.mp hin
  have hx := List.mem_filter.mp hx
  exact hnew x hx.1 (by simpa using hx.2) hid

theorem distinct_undoneEntries {entries stored : List Entry} {entry : Entry}
    {replaced : Option Entry} (h : DistinctIds entries) (hstored : DistinctIds stored)
    (hid : ∀ earlier, replaced = some earlier → earlier.id = entry.id) :
    DistinctIds (undoneEntries entries stored entry replaced) := by
  have hwithout := (distinct_withReportsFromOtherTabs h hstored).filter
    fun row => row.id ≠ entry.id
  cases replaced with
  | none => exact hwithout
  | some earlier =>
      refine ((List.take_sublist maxEntries _).map _).nodup ?_
      refine List.nodup_cons.mpr ⟨?_, hwithout⟩
      intro hin
      obtain ⟨x, hx, hxid⟩ := List.mem_map.mp hin
      have hne := (List.mem_filter.mp hx).2
      have hsame : x.id = entry.id := hxid.trans (hid earlier rfl)
      simp [hsame] at hne

/-- Undo takes the report out, puts back the one it had replaced, and keeps the rest. -/
theorem mem_undoneEntries {entries stored : List Entry} {entry : Entry} {replaced : Option Entry}
    (h : DistinctIds entries) (hstored : DistinctIds stored)
    (hid : ∀ earlier, replaced = some earlier → earlier.id = entry.id)
    (hfits : Fits (entry.id :: (entries.map (·.id) ++ stored.map (·.id)))) {x : Entry} :
    x ∈ undoneEntries entries stored entry replaced ↔ replaced = some x ∨
      (x ∈ withReportsFromOtherTabs entries stored ∧ x.id ≠ entry.id) := by
  cases replaced with
  | none => simp [undoneEntries]
  | some earlier =>
      have hearlier := hid earlier rfl
      simp only [undoneEntries]
      rw [mem_take_cons List.filter_sublist h hstored ?_ (hearlier ▸ hfits), List.mem_cons,
        List.mem_filter, decide_eq_true_eq, Option.some_inj, eq_comm (a := x)]
      intro y hy
      rw [hearlier]
      simpa using (List.mem_filter.mp hy).2

theorem length_undoneEntries {entries : List Entry} (h : entries.length ≤ maxEntries)
    (stored : List Entry) (entry : Entry) (replaced : Option Entry) :
    (undoneEntries entries stored entry replaced).length ≤ maxEntries := by
  cases replaced with
  | none =>
      exact le_trans (List.length_filter_le ..) (length_withReportsFromOtherTabs h stored)
  | some earlier => exact List.length_take_le ..

/-- A new report has an id that no other report has; a correction keeps its id. -/
theorem savedEntry_new {entries stored : List Entry} {save : Save}
    (hnew : previousReport entries save = none →
      save.newId ∉ entries.map (·.id) ++ stored.map (·.id)) :
    ∀ x ∈ withReportsFromOtherTabs entries stored,
      (previousReport entries save).map (·.id) ≠ some x.id →
      x.id ≠ (savedEntry save (previousReport entries save)).id := by
  intro x hx hne heq
  cases hprevious : previousReport entries save with
  | some previous =>
      rw [hprevious] at hne heq
      exact hne (congrArg some heq.symm)
  | none =>
      rw [hprevious] at heq
      refine hnew hprevious (List.mem_append.mpr ?_)
      have hid : x.id = save.newId := heq
      exact (mem_of_mem_withReportsFromOtherTabs hx).imp
        (fun hin => hid ▸ List.mem_map_of_mem hin) fun hin => hid ▸ List.mem_map_of_mem hin

theorem savedEntry_previous {save : Save} {previous : Option Entry} :
    ∀ p, previous = some p → p.id = (savedEntry save previous).id := by
  intro p hp
  simp [savedEntry, hp]

end Frcmob.Reports
