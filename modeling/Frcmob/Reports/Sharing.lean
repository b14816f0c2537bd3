import Frcmob.Lib.Transition
import Frcmob.Reports.Page

/-!
One phone and the server its reports are shared with: the page's list, the save whose
Undo toast is up, the requests on their way, and the rows that the server keeps under
a room and the id the phone drew. A request in `sending` may still be repeated, by a
retry or from the offline queue, and whatever the server has held may still arrive.
-/

namespace Frcmob.Reports
open Transition

/-- The phone's membership, the team's room for an event (empty if there is none), and the
event a match belongs to. -/
structure Workspace where
  memberId : Nat
  teamRoom : String → String
  eventOf : String → String

/-- A stored report; the request's `client_entry_id` is the id of its payload. -/
structure ScoutingRoomEntry where
  roomKey : String
  authorMemberId : Nat
  payload : Entry
deriving DecidableEq

def ScoutingRoomEntry.key (row : ScoutingRoomEntry) : String × String :=
  (row.roomKey, row.payload.id)

abbrev RoomEntries := Table ScoutingRoomEntry.key

/-- The row that the room has for the report now. Another author's report is a 409, and a
retry changes nothing. -/
def persistRoomEntry (rows : RoomEntries) (roomKey scoutProfile : String) (authorMemberId : Nat)
    (entry : Entry) : Option (RoomEntries × ScoutingRoomEntry) :=
  let payload := { entry with scoutProfile := scoutProfile }
  match rows.get? (roomKey, entry.id) with
  | some existing =>
      if existing.authorMemberId ≠ authorMemberId then none
      else if entry.savedAtMs ≤ existing.payload.savedAtMs then some (rows, existing)
      else
        let row := { existing with payload := payload }
        some (rows.put row, row)
  | none =>
      let row := { roomKey := roomKey, authorMemberId := authorMemberId, payload := payload }
      some (rows.put row, row)

/-- `held` is the save whose toast is up, with the report it replaced; `finishing` are saves
whose toast has closed and whose statistics are loading; `copies` is all that the server
ever held, by room. -/
structure Phone where
  entries : List Entry := []
  stored : List Entry := []
  room : Option String := none
  held : Option (Entry × Option Entry) := none
  finishing : List Entry := []
  sending : List (String × Entry) := []
  rows : RoomEntries := .empty
  copies : List (String × Entry) := []

inductive SharingAction
  | load
  | save (save : Save)
  | undo
  | closeToast
  | fillIn (entry : Entry) (snapshot rating : String)
  | sync (entry : Entry)
  | share (entry : Entry)
  | queued (roomKey : String) (entry : Entry)
  | transmit (roomKey : String) (entry : Entry) (scoutProfile : String)
  | drop (roomKey : String) (entry : Entry)
  | syncAck (roomKey : String) (copy : Entry)
  | shareAck (roomKey : String) (copy : Entry)
  | live (roomKey : String) (copy : Entry)
  | join (roomKey : String) (records : List RoomEntryRecord)
  | snapshot (roomKey : String) (records : List RoomEntryRecord)
  | leave
  | importEntry (imported : Entry)
  | write
  | teammate (authorMemberId : Nat) (scoutProfile roomKey : String) (entry : Entry)
deriving DecidableEq

/-- A key as the server gives it out. -/
def IsRoomKey (roomKey : String) : Prop :=
  normalizeRoomKey roomKey = roomKey ∧ roomKey ≠ ""

instance (roomKey : String) : Decidable (IsRoomKey roomKey) :=
  inferInstanceAs (Decidable (_ ∧ _))

def Phone.heldId (s : Phone) : Option String :=
  s.held.map (·.1.id)

/-- The toast closes otherwise than by Undo, which releases the save. -/
def Phone.closeToast (s : Phone) : Phone :=
  match s.held with
  | none => s
  | some (entry, _) => { s with held := none, finishing := entry :: s.finishing }

/-- The toast of this save replaces the one that is up. -/
def Phone.saveReport (s : Phone) (save : Save) : Phone :=
  let previous := previousReport s.entries save
  let entry := savedEntry save previous
  let next := savedEntries s.entries s.stored entry previous
  { s.closeToast with entries := next, stored := next, held := some (entry, previous) }

/-- The share loop runs in the team's room for the selected event. -/
def Shareable (w : Workspace) (s : Phone) (roomKey : String) (entry : Entry) : Prop :=
  w.teamRoom entry.eventKey = roomKey ∧
    entry ∈ shareCandidates s.entries s.heldId entry.eventKey roomKey

instance (w : Workspace) (s : Phone) (roomKey : String) (entry : Entry) :
    Decidable (Shareable w s roomKey entry) :=
  inferInstanceAs (Decidable (_ ∧ _))

/-- Records of the room's rows, as they were at some time. -/
def Answers (s : Phone) (roomKey : String) (records : List RoomEntryRecord) : Prop :=
  DistinctIds (records.filterMap (·.entry)) ∧
    ∀ record ∈ records, record.roomKey = some roomKey ∧
      ∀ e ∈ record.entry, (roomKey, e) ∈ s.copies

instance (s : Phone) (roomKey : String) (records : List RoomEntryRecord) :
    Decidable (Answers s roomKey records) :=
  inferInstanceAs (Decidable (_ ∧ _))

/-- Joining a room from another one takes that one's server copies out first. -/
def Phone.withoutOtherRoom (s : Phone) (joined : String) : List Entry :=
  match s.room with
  | none => s.entries
  | some active => if active = joined then s.entries else stripEntriesForRoom s.entries active

def Phone.hold (s : Phone) (saved : RoomEntries × ScoutingRoomEntry) : Phone :=
  { s with rows := saved.1, copies := (saved.2.roomKey, saved.2.payload) :: s.copies }

/-- `persist` in a request that the server refuses changes nothing. An import is of a report
that is on the phone. -/
def sharingStep (w : Workspace) (s : Phone) : SharingAction → Option Phone
  | .load =>
      some { s with entries := s.stored, room := none, held := none, finishing := [] }
  | .save save =>
      if save.roomKey = s.room ∧ save.eventKey = w.eventOf save.matchKey ∧
          secondTap s.entries s.heldId save = false then
        some (s.saveReport save)
      else none
  | .undo =>
      s.held.map fun (entry, replaced) =>
        let next := undoneEntries s.entries s.stored entry replaced
        { s with entries := next, stored := next, held := none }
  | .closeToast => some s.closeToast
  | .fillIn entry snapshot rating =>
      if entry ∈ s.finishing then
        let filled := { entry with
          apiSnapshot := some snapshot
          scoutingApiRating := some rating }
        some { s with
          entries := fillIn s.entries entry snapshot rating
          finishing := filled :: s.finishing.erase entry }
      else none
  | .sync entry =>
      if entry ∈ s.finishing then
        some { s with
          finishing := s.finishing.erase entry
          sending := if entry.room = "" then s.sending else (entry.room, entry) :: s.sending }
      else none
  | .share entry =>
      s.room.bind fun roomKey =>
        if Shareable w s roomKey entry then some { s with sending := (roomKey, entry) :: s.sending }
        else none
  | .queued roomKey entry =>
      if (roomKey, entry) ∈ s.sending then
        some { s with entries := shareQueued s.entries entry.id roomKey }
      else none
  | .transmit roomKey entry scoutProfile =>
      if (roomKey, entry) ∈ s.sending then
        match persistRoomEntry s.rows roomKey scoutProfile w.memberId entry with
        | none => some s
        | some saved => some (s.hold saved)
      else none
  | .drop roomKey entry => some { s with sending := s.sending.erase (roomKey, entry) }
  | .syncAck roomKey copy =>
      if (roomKey, copy) ∈ s.copies then
        some { s with entries := syncAck s.entries copy roomKey }
      else none
  | .shareAck roomKey copy =>
      if (roomKey, copy) ∈ s.copies then
        some { s with entries := shareAck s.entries copy.id copy roomKey }
      else none
  | .live roomKey copy =>
      if (roomKey, copy) ∈ s.copies then
        some { s with entries := liveCopy s.entries copy roomKey }
      else none
  | .join roomKey records =>
      if IsRoomKey roomKey ∧ Answers s roomKey records then
        some { s with
          entries := roomSnapshot (s.withoutOtherRoom roomKey) roomKey records
          room := some roomKey }
      else none
  | .snapshot roomKey records =>
      if Answers s roomKey records then
        some { s with entries := roomSnapshot s.entries roomKey records }
      else none
  | .leave =>
      s.room.map fun roomKey =>
        { s with entries := stripEntriesForRoom s.entries roomKey, room := none }
  | .importEntry imported =>
      if ∃ e ∈ s.entries, e.matchKey = imported.matchKey ∧ e.teamKey = imported.teamKey ∧
          e.scoutProfile = imported.scoutProfile then
        some { s with entries := importEntry s.entries imported }
      else none
  | .write => some { s with stored := s.entries }
  | .teammate author scoutProfile roomKey entry =>
      if author ≠ w.memberId ∧ IsRoomKey roomKey then
        (persistRoomEntry s.rows roomKey scoutProfile author entry).map s.hold
      else none

/-- From a phone without reports, as a scout starts an event. -/
def sharingSystem (w : Workspace) : System Phone SharingAction where
  start s := s = {}
  step := sharingStep w

/-- One report per robot and match from the phone's scout. -/
def OneReport (w : Workspace) (s : Phone) : Prop :=
  ∀ x ∈ s.rows.rows, ∀ y ∈ s.rows.rows, x.authorMemberId = w.memberId →
    y.authorMemberId = w.memberId → x.payload.matchKey = y.payload.matchKey →
      x.payload.teamKey = y.payload.teamKey → x = y

instance (w : Workspace) (s : Phone) : Decidable (OneReport w s) :=
  inferInstanceAs (Decidable (∀ x ∈ s.rows.rows, _))

end Frcmob.Reports
