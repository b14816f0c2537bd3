import Frcmob.Rooms.Entries

/-!
The saves of one report, delivered to the server in any order and any number of times. The
row behaves as a register of the newest save whose columns are those of the save that came
first.
-/

namespace Frcmob.Rooms
open Register

/-- The server takes `save` for newer than `last`. -/
def Newer (last save : EntrySave) : Prop :=
  ∃ previous ∈ savedAt last.entry, ∃ incoming ∈ savedAt save.entry, previous < incoming

instance (last save : EntrySave) : Decidable (Newer last save) :=
  inferInstanceAs (Decidable (∃ previous ∈ savedAt last.entry, _))

theorem Newer.not_newer {last save : EntrySave} (h : Newer last save) : ¬ Newer save last := by
  intro hback
  obtain ⟨a, ha, b, hb, hlt⟩ := h
  obtain ⟨b', hb', a', ha', hlt'⟩ := hback
  obtain rfl : a = a' := Option.mem_unique ha ha'
  obtain rfl : b = b' := Option.mem_unique hb hb'
  exact absurd hlt' hlt.not_gt

/-- Below 2^53 the times are compared as they are. -/
theorem newer_of_lt {last save : EntrySave} {m n : Int} (hm : last.entry.savedAtMs = some m)
    (hn : save.entry.savedAtMs = some n) (hlt : m < n) (hsmall : m.natAbs < 2 ^ 53)
    (hsmall' : n.natAbs < 2 ^ 53) : Newer last save := by
  refine ⟨m, ?_, n, ?_, hlt⟩
  · rw [savedAt, hm]
    exact floatOfInt_of_lt hsmall
  · rw [savedAt, hn]
    exact floatOfInt_of_lt hsmall'

/-- Saves of one report by one author, each of which the server would store. -/
structure SavesOf (limits : EntryLimits) (db : Database) (clientId : String)
    (saves : List EntrySave) : Prop where
  fresh : rowOf db clientId = none
  client : ∀ s ∈ saves, normalizeClientId s.clientEntryId = some clientId
  author : ∀ s ∈ saves, ∀ t ∈ saves, s.authorMemberId = t.authorMemberId
  allowed : ∀ s ∈ saves, authorize db s = .ok ()
  fits : ∀ s ∈ saves, ∀ t ∈ saves,
    guardRoomEntryStorage limits db (rowFor db clientId s t).payload true = .ok ()

/-- Before the first save nothing has changed; then there is one row, made for the first save
and last changed by the newest. -/
structure Follows (db : Database) (clientId : String) (kept : Option (EntrySave × EntrySave))
    (now : Database) : Prop where
  before : kept = none → now = db
  row : ∀ first last, kept = some (first, last) →
    rowOf now clientId = some (rowFor db clientId first last)
  members : now.members = db.members
  workspaceId : now.room.workspaceId = db.room.workspaceId

section Deliveries
variable {limits : EntryLimits} {db now : Database} {clientId : String}
  {saves : List EntrySave} {save : EntrySave}

theorem authorize_now {kept : Option (EntrySave × EntrySave)}
    (h : Follows db clientId kept now) (save : EntrySave) :
    authorize now save = authorize db save := by
  rw [authorize, authorize, h.members, h.workspaceId]

theorem deliver_of_fresh (hallowed : authorize db save = .ok ())
    (hclient : normalizeClientId save.clientEntryId = some clientId)
    (hfresh : rowOf db clientId = none)
    (hfits : guardRoomEntryStorage limits db (insertRow db save).payload true = .ok ()) :
    deliver limits db save =
      { db with
        room := db.room.withEvent (insertRow db save).eventKey
        entries := db.entries ++ [insertRow db save] } := by
  simp only [deliver, persistRoomEntry, hallowed, hclient, hfresh, insertEntry, hfits]
  rfl

theorem deliver_of_row {existing : ScoutingRoomEntry} (hallowed : authorize now save = .ok ())
    (hclient : normalizeClientId save.clientEntryId = some clientId)
    (hrow : rowOf now clientId = some existing)
    (hauthor : existing.authorMemberId = some save.authorMemberId)
    (hfits : guardRoomEntryStorage limits now (updateRow existing clientId save).payload false =
      .ok ()) :
    deliver limits now save =
      if ∃ previous ∈ savedAt existing.payload, ∃ incoming ∈ savedAt save.entry,
          previous < incoming then
        { now with entries := now.entries.map fun r =>
            if r = existing then updateRow existing clientId save else r }
      else now := by
  simp only [deliver, persistRoomEntry, hallowed, hclient, hrow, resaveEntry, hauthor]
  cases hprevious : savedAt existing.payload with
  | none => simp; rfl
  | some previous =>
      cases hincoming : savedAt save.entry with
      | none => simp; rfl
      | some incoming =>
          by_cases hle : incoming ≤ previous
          · simp [hle, Int.not_lt.mpr hle]; rfl
          · simp [hle, Int.not_le.mp hle, hfits]; rfl

/-- One delivery is one step of the register. -/
theorem Follows.deliver {kept : Option (EntrySave × EntrySave)}
    (hsaves : SavesOf limits db clientId saves) (h : Follows db clientId kept now)
    (hkept : ∀ first last, kept = some (first, last) → first ∈ saves ∧ last ∈ saves)
    (hmem : save ∈ saves) :
    Follows db clientId (receive Newer kept save) (deliver limits now save) := by
  have hclient := hsaves.client save hmem
  have hallowed : authorize now save = .ok () :=
    (authorize_now h save).trans (hsaves.allowed save hmem)
  cases hkeeps : kept with
  | none =>
      obtain rfl := h.before hkeeps
      have hself := rowFor_self now hclient
      have hfits := hself ▸ hsaves.fits save hmem save hmem
      rw [deliver_of_fresh hallowed hclient hsaves.fresh hfits]
      refine ⟨(fun heq => by cases heq), fun first last heq => ?_, rfl, rfl⟩
      obtain ⟨rfl, rfl⟩ := Prod.mk.inj (Option.some_inj.mp heq)
      rw [rowOf_append hsaves.fresh (insertRow_key now hclient), hself]
  | some pair =>
      obtain ⟨first, last⟩ := pair
      obtain ⟨hfirst, hlast⟩ := hkept first last hkeeps
      have hrow := h.row first last hkeeps
      have hupdate := updateRow_rowFor db last save (hsaves.client first hfirst)
      have hauthor : (rowFor db clientId first last).authorMemberId = some save.authorMemberId := by
        rw [rowFor_author, hsaves.author first hfirst save hmem]
      have hfits := guard_resave (hsaves.fits first hfirst save hmem) now
      rw [deliver_of_row hallowed hclient hrow hauthor (hupdate.symm ▸ hfits), hupdate, receive,
        keepNewer, savedAt_rowFor]
      by_cases hnewer : Newer last save
      · have hlater : ∃ previous ∈ savedAt last.entry, ∃ incoming ∈ savedAt save.entry,
            previous < incoming := hnewer
        rw [if_pos hnewer, if_pos hlater]
        refine ⟨(fun heq => by cases heq), fun f l heq => ?_, h.members, h.workspaceId⟩
        obtain ⟨rfl, rfl⟩ := Prod.mk.inj (Option.some_inj.mp heq)
        exact rowOf_update hrow (rowFor_key ..)
      · have hlater : ¬ ∃ previous ∈ savedAt last.entry, ∃ incoming ∈ savedAt save.entry,
            previous < incoming := hnewer
        rw [if_neg hnewer, if_neg hlater]
        exact ⟨(fun heq => by cases heq), fun f l heq => h.row f l (hkeeps.trans heq), h.members,
          h.workspaceId⟩

/-- After the first save and any others. -/
theorem rowOf_deliveries (hsaves : SavesOf limits db clientId saves) {first : EntrySave}
    {rest : List EntrySave} (hmem : ∀ s ∈ first :: rest, s ∈ saves) :
    rowOf ((first :: rest).foldl (deliver limits) db) clientId =
      some (rowFor db clientId first (rest.foldl (keepNewer Newer) first)) := by
  have hrun : ∀ (deliveries : List EntrySave) (kept : Option (EntrySave × EntrySave))
      (now : Database), (∀ s ∈ deliveries, s ∈ saves) →
        (∀ first last, kept = some (first, last) → first ∈ saves ∧ last ∈ saves) →
          Follows db clientId kept now →
            Follows db clientId (deliveries.foldl (receive Newer) kept)
              (deliveries.foldl (deliver limits) now) := by
    intro deliveries
    induction deliveries with
    | nil => exact fun _ _ _ _ h => h
    | cons save deliveries ih =>
        intro kept now hin hkept h
        refine ih _ _ (fun s hs => hin s (List.mem_cons_of_mem _ hs)) (fun f l heq => ?_)
          (h.deliver hsaves hkept (hin save List.mem_cons_self))
        have hsave := hin save List.mem_cons_self
        cases hkeeps : kept with
        | none =>
            rw [hkeeps] at heq
            obtain ⟨rfl, rfl⟩ := Prod.mk.inj (Option.some_inj.mp heq)
            exact ⟨hsave, hsave⟩
        | some pair =>
            rw [hkeeps] at heq
            obtain ⟨hf, hl⟩ := Prod.mk.inj (Option.some_inj.mp heq)
            obtain ⟨hfirst, hlast⟩ := hkept pair.1 pair.2 hkeeps
            refine ⟨hf ▸ hfirst, ?_⟩
            cases keepNewer_eq Newer pair.2 save with
            | inl hnew => exact hl ▸ hnew.symm ▸ hsave
            | inr hold => exact hl ▸ hold.symm ▸ hlast
  have hstart : Follows db clientId none db := ⟨fun _ => rfl, fun _ _ => nofun, rfl, rfl⟩
  have hend := hrun (first :: rest) none db hmem (fun _ _ => nofun) hstart
  refine hend.row first _ ?_
  rw [List.foldl_cons]
  exact foldl_receive first first rest

end Deliveries

/-- The row is the one that the save alone would have made. -/
structure Shows (db : Database) (save : EntrySave) (row : ScoutingRoomEntry) : Prop where
  payload : row.payload = (insertRow db save).payload
  eventKey : row.eventKey = eventColumn db save.entry
  matchKey : row.matchKey = matchColumn db save.entry
  teamKey : row.teamKey = teamColumn db save.entry

/-- The server can tell that `newest` is newer, and they have the same id, event, match and
team. -/
structure Replaced (db : Database) (save newest : EntrySave) : Prop where
  newer : Newer save newest
  id : storedId save = storedId newest
  eventKey : eventColumn db save.entry = eventColumn db newest.entry
  matchKey : matchColumn db save.entry = matchColumn db newest.entry
  teamKey : teamColumn db save.entry = teamColumn db newest.entry

theorem shows_rowFor {db : Database} {clientId : String} {first newest : EntrySave}
    (hfirst : normalizeClientId first.clientEntryId = some clientId)
    (hid : storedId first = storedId newest)
    (hevent : eventColumn db first.entry = eventColumn db newest.entry)
    (hmatch : matchColumn db first.entry = matchColumn db newest.entry)
    (hteam : teamColumn db first.entry = teamColumn db newest.entry) :
    Shows db newest (rowFor db clientId first newest) := by
  obtain ⟨hevent', hmatch', hteam'⟩ := rowFor_columns db clientId first newest
  refine ⟨?_, hevent'.trans hevent, hmatch'.trans hmatch, hteam'.trans hteam⟩
  rw [rowFor_payload db newest hfirst, insertRow_payload, hid]

/-- The greatest time, by any save but the newest itself. -/
def IsNewest (saves : List EntrySave) (newest : EntrySave) : Prop :=
  newest ∈ saves ∧ ∀ s ∈ saves, s ≠ newest → ∃ m n, s.entry.savedAtMs = some m ∧
    newest.entry.savedAtMs = some n ∧ m < n

/-- Whatever the order and the repetitions, the row becomes that of the newest save, exactly
when the server can tell each of the others from it and they are about the same robot in the
same match. -/
theorem entries_converge_iff {limits : EntryLimits} {db : Database} {clientId : String}
    {saves : List EntrySave} {newest : EntrySave} (hsaves : SavesOf limits db clientId saves)
    (hnewest : IsNewest saves newest) :
    (∀ deliveries : List EntrySave, (∀ s, s ∈ deliveries ↔ s ∈ saves) →
      ∃ row, rowOf (deliveries.foldl (deliver limits) db) clientId = some row ∧
        Shows db newest row) ↔
    ∀ s ∈ saves, s ≠ newest → Replaced db s newest := by
  obtain ⟨hmem, hgreatest⟩ := hnewest
  constructor
  · intro hall s hs hne
    have hdeliveries : ∀ t, t ∈ s :: newest :: saves.filter (· ≠ newest) ↔ t ∈ saves := by
      intro t
      by_cases ht : t = newest
      · simp [ht, hmem]
      · simpa [ht] using fun heq : t = s => heq ▸ hs
    obtain ⟨row, hrow, hshows⟩ := hall _ hdeliveries
    rw [rowOf_deliveries hsaves fun t ht => (hdeliveries t).mp ht] at hrow
    obtain rfl := Option.some_inj.mp hrow
    have hclient := hsaves.client s hs
    obtain ⟨hpayload, hevent, hmatch, hteam⟩ := hshows
    obtain ⟨hevent', hmatch', hteam'⟩ := rowFor_columns db clientId s
      ((newest :: saves.filter (· ≠ newest)).foldl (keepNewer Newer) s)
    rw [rowFor_payload db _ hclient, insertRow_payload] at hpayload
    refine ⟨?_, ?_, hevent'.symm.trans hevent, hmatch'.symm.trans hmatch, hteam'.symm.trans hteam⟩
    · by_contra hnot
      have hout : newest ∉ saves.filter (· ≠ newest) := by simp
      have hother := foldl_keepNewer_ne hne hnot hout
      have hkept : (newest :: saves.filter (· ≠ newest)).foldl (keepNewer Newer) s ∈
          s :: newest :: saves.filter (· ≠ newest) := foldl_keepNewer_mem s _
      obtain ⟨m, n, hm, hn, hlt⟩ := hgreatest _ ((hdeliveries _).mp hkept) hother
      have htime := congrArg EntryPayload.savedAtMs hpayload
      have hsame : some m = some n := (hm.symm.trans htime).trans hn
      exact absurd (Option.some_inj.mp hsame) hlt.ne
    · exact Option.some_inj.mp (congrArg EntryPayload.id hpayload)
  · intro hreplaced deliveries hdeliveries
    cases deliveries with
    | nil => exact absurd ((hdeliveries newest).mpr hmem) List.not_mem_nil
    | cons first rest =>
        have hin : ∀ t ∈ first :: rest, t ∈ saves := fun t ht => (hdeliveries t).mp ht
        have hlast : rest.foldl (keepNewer Newer) first = newest := by
          refine foldl_keepNewer_newest ((hdeliveries newest).mpr hmem)
            (fun t ht hne => (hreplaced t (hin t ht) hne).newer) fun t ht hback => ?_
          by_cases heq : t = newest
          · exact (heq ▸ hback).not_newer (heq ▸ hback)
          · exact (hreplaced t (hin t (List.mem_cons_of_mem _ ht)) heq).newer.not_newer hback
        refine ⟨_, rowOf_deliveries hsaves hin, ?_⟩
        rw [hlast]
        have hclient := hsaves.client first (hin first List.mem_cons_self)
        by_cases heq : first = newest
        · exact shows_rowFor hclient (by rw [heq]) (by rw [heq]) (by rw [heq]) (by rw [heq])
        · have hfirst := hreplaced first (hin first List.mem_cons_self) heq
          exact shows_rowFor hclient hfirst.id hfirst.eventKey hfirst.matchKey hfirst.teamKey

/-! A report of one robot in one match, saved and corrected. -/

def houston : Database where
  room := { roomKey := "room1", workspaceId := 1, eventKey := some "2026txhou" }
  entries := []
  members := [{ id := 7, workspaceId := 1, displayName := "ScoutA", removed := false }]
  events := ["2026txhou"]
  matchKeys := ["2026txhou_qm1"]
  teams := ["frc118", "frc254"]
  storageFull := false

def entryLimits : EntryLimits where
  entryMaxBytes := 65536
  entriesMaxPerWorkspace := 5000
  roomEntryBytes := fun payload => 400 + payload.notes.utf8ByteSize

def saveOf (teamKey : String) (savedAtMs : Int) : EntrySave where
  entry := {
    id := some "entry1", eventKey := some "2026txhou", matchKey := some "2026txhou_qm1",
    teamKey := some teamKey, savedAtMs := some savedAtMs, scoutProfile := "ScoutA",
    totalPoints := some 12, driverScore := none, manualRating := none, scoutingApiRating := none,
    notes := "" }
  scoutProfile := "ScoutA"
  authorMemberId := 7
  clientEntryId := some "entry1"
  generatedId := ""

def firstSave : EntrySave :=
  saveOf "frc118" 1000

/-- The scout had the wrong robot. -/
def otherRobot : EntrySave :=
  saveOf "frc254" 2000

/-- The scout corrects something else. -/
def sameRobot : EntrySave :=
  saveOf "frc118" 2000

theorem savesOf_otherRobot :
    SavesOf entryLimits houston "entry1" [firstSave, otherRobot] :=
  ⟨by decide +kernel, by decide +kernel, by decide +kernel, by decide +kernel, by decide +kernel⟩

theorem isNewest_pair {save newest : EntrySave} {m n : Int} (hm : save.entry.savedAtMs = some m)
    (hn : newest.entry.savedAtMs = some n) (hlt : m < n) : IsNewest [save, newest] newest := by
  refine ⟨List.mem_cons_of_mem _ (List.mem_singleton_self newest), fun s hs hne => ?_⟩
  cases List.mem_cons.mp hs with
  | inl hfirst => exact ⟨m, n, hfirst ▸ hm, hn, hlt⟩
  | inr hother => exact absurd (List.mem_singleton.mp hother) hne

theorem team_not_corrected :
    SavesOf entryLimits houston "entry1" [firstSave, otherRobot] ∧
      IsNewest [firstSave, otherRobot] otherRobot ∧
      ∃ row, rowOf ([firstSave, otherRobot].foldl (deliver entryLimits) houston) "entry1" =
        some row ∧ row.payload.teamKey = some "frc254" ∧ row.teamKey = some "frc118" ∧
          ¬ Shows houston otherRobot row := by
  refine ⟨savesOf_otherRobot, isNewest_pair (m := 1000) (n := 2000) rfl rfl (by decide), _,
    rowOf_deliveries savesOf_otherRobot fun _ h => h, by decide +kernel, by decide +kernel, ?_⟩
  exact fun h => absurd h.teamKey (by decide +kernel)

theorem entries_converge_iff_sameRobot :
    ∃ row, rowOf ([sameRobot, firstSave, sameRobot].foldl (deliver entryLimits) houston) "entry1" =
      some row ∧ Shows houston sameRobot row := by
  have hsaves : SavesOf entryLimits houston "entry1" [firstSave, sameRobot] :=
    ⟨by decide +kernel, by decide +kernel, by decide +kernel, by decide +kernel, by decide +kernel⟩
  have hnewest : IsNewest [firstSave, sameRobot] sameRobot :=
    isNewest_pair (m := 1000) (n := 2000) rfl rfl (by decide)
  refine (entries_converge_iff hsaves hnewest).mpr (fun s hs hne => ?_) _ fun s => by
    simp only [List.mem_cons, List.not_mem_nil, or_false]
    tauto
  cases List.mem_cons.mp hs with
  | inr hother => exact absurd (List.mem_singleton.mp hother) hne
  | inl hfirst =>
      subst hfirst
      exact ⟨newer_of_lt (m := 1000) (n := 2000) rfl rfl (by decide) (by decide) (by decide),
        by decide +kernel, by decide +kernel, by decide +kernel, by decide +kernel⟩

end Frcmob.Rooms
