import Frcmob.Reports.Tabs

/-!
Undo of a save, in several tabs. While the toast of a save is up its page holds the report
back: `heldSaveRef` keeps it out of the share loop's candidates and its background sync
waits for the toast to close. Each tab has its own toast and its own reference; the
stored list is shared.
-/

namespace Frcmob.Reports
open Transition

inductive ToastCloseReason
  | timeout
  | action
  | dismiss
  | replaced
deriving DecidableEq

/-- The toast a tab shows. That of `holdSaveForUndo` has the report and the one it replaced;
other toasts hold nothing back. -/
structure Toast where
  tab : Nat
  id : Nat
  save : Option (Entry × Option Entry) := none
deriving DecidableEq

/-- `held` is `heldSaveRef`, the ids of the report and of its toast; `finishing` are the saves
in `finishEntryInBackground`, `sending` the reports the page sends, maybe again. -/
structure Page where
  held : Option (String × Nat) := none
  nextId : Nat := 1
  finishing : List Entry := []
  sending : List Entry := []
deriving DecidableEq

/-- Versions of a report differ in their save times. -/
def SavedScoutingEntry.stamp (e : Entry) : String × Nat :=
  (e.id, e.savedAtMs)

/-- `sent` are the reports that have left the device and `undone` those taken back with Undo;
`saved` are the versions saved here, `others` those that came from elsewhere. -/
structure UndoState where
  browser : Browser
  pages : Nat → Page := fun _ => {}
  toasts : Table Toast.tab := .empty
  sent : List Entry := []
  undone : List Entry := []
  saved : List (String × Nat) := []
  others : List (String × Nat) := []

def UndoState.entries (s : UndoState) (tab : Nat) : List Entry :=
  (s.browser.tabs tab).entries

def UndoState.setPage (s : UndoState) (tab : Nat) (page : Page) : UndoState :=
  { s with pages := Function.update s.pages tab page }

/-- `if (heldSaveRef.current?.toastId === toastId) heldSaveRef.current = null` -/
def Page.letGo (page : Page) (toastId : Nat) : Page :=
  { page with held := if page.held.map (·.2) = some toastId then none else page.held }

/-- `onClose` of a save's toast, except after Undo. -/
def UndoState.release (s : UndoState) (tab toastId : Nat) (entry : Entry) : UndoState :=
  let page := (s.pages tab).letGo toastId
  s.setPage tab { page with finishing := entry :: page.finishing }

def UndoState.close (s : UndoState) (tab : Nat) (reason : ToastCloseReason) : UndoState :=
  match s.toasts.get? tab with
  | none => s
  | some toast =>
      let closed := { s with toasts := s.toasts.erase tab }
      match toast.save with
      | none => closed
      | some (entry, _) =>
          if reason = .action then closed else closed.release tab toast.id entry

def UndoState.showToast (s : UndoState) (tab : Nat) (save : Option (Entry × Option Entry)) :
    UndoState :=
  let closed := s.close tab .replaced
  let page := closed.pages tab
  { closed with
    toasts := closed.toasts.put { tab := tab, id := page.nextId, save := save }
    pages := Function.update closed.pages tab { page with nextId := page.nextId + 1 } }

/-- `saveScoutingEntry`, which ends in `holdSaveForUndo`. -/
def UndoState.saveReport (s : UndoState) (tab : Nat) (save : Save) : UndoState :=
  let previous := previousReport (s.entries tab) save
  let entry := savedEntry save previous
  let saved := { s with
    browser := s.browser.saveReport tab save
    saved := entry.stamp :: s.saved }
  let shown := saved.showToast tab (some (entry, previous))
  shown.setPage tab { shown.pages tab with held := some (entry.id, (s.pages tab).nextId) }

/-- `onAction` of a save's toast. -/
def UndoState.undoReport (s : UndoState) (tab toastId : Nat) (entry : Entry)
    (replaced : Option Entry) : UndoState :=
  let undone := { s with
    browser := s.browser.undoReport tab entry replaced
    undone := entry :: s.undone }
  undone.setPage tab ((s.pages tab).letGo toastId)

def UndoState.runToastAction (s : UndoState) (tab id : Nat) : Option UndoState :=
  match s.toasts.get? tab with
  | none => none
  | some toast =>
      if toast.id = id then
        match toast.save with
        | none => some (s.close tab .action)
        | some (entry, replaced) => some ((s.close tab .action).undoReport tab id entry replaced)
      else none

/-- The server's copies are of what was sent to it, here or elsewhere. -/
def Arrives (s : UndoState) (copy : Entry) : Prop :=
  copy.stamp ∈ s.sent.map (·.stamp) ∨ copy.stamp ∉ s.saved

instance (s : UndoState) (copy : Entry) : Decidable (Arrives s copy) :=
  inferInstanceAs (Decidable (_ ∨ _))

inductive UndoAction
  | load (tab : Nat)
  | save (tab : Nat) (save : Save)
  | runToastAction (tab id : Nat)
  | closeToast (tab id : Nat) (reason : ToastCloseReason)
  | showToast (tab : Nat)
  | share (tab : Nat) (eventKey roomKey : String)
  | fillIn (tab : Nat) (entry : Entry) (snapshot rating : String)
  | sync (tab : Nat) (entry : Entry)
  | queued (tab : Nat) (id roomKey : String)
  | send (tab : Nat) (entry : Entry)
  | drop (tab : Nat) (entry : Entry)
  | receive (tab : Nat) (copy : Entry)
  | snapshot (tab : Nat) (roomKey : String) (records : List RoomEntryRecord)
  | leave (tab : Nat) (roomKey : String)
  | write (tab : Nat)
  | deliver (tab : Nat)
deriving DecidableEq

/-- A step of the lists only. -/
def UndoState.moveLists (s : UndoState) (a : TabAction) : Option UndoState :=
  (tabStep s.browser a).map fun browser => { s with browser := browser }

/-- A tab that loads anew keeps only what waits in the offline queue. -/
def toastStep (s : UndoState) : UndoAction → Option UndoState
  | .load tab =>
      let page : Page := { sending := (s.pages tab).sending }
      ({ s with toasts := s.toasts.erase tab }.setPage tab page).moveLists (.load tab)
  | .save tab save =>
      if secondTap (s.entries tab) ((s.pages tab).held.map (·.1)) save then none
      else some (s.saveReport tab save)
  | .runToastAction tab id => s.runToastAction tab id
  | .closeToast tab id reason =>
      if (s.toasts.get? tab).map (·.id) = some id ∧ reason ≠ .action then some (s.close tab reason)
      else none
  | .showToast tab => some (s.showToast tab none)
  | .share tab eventKey roomKey =>
      let page := s.pages tab
      let candidates := shareCandidates (s.entries tab) (page.held.map (·.1)) eventKey roomKey
      some (s.setPage tab { page with sending := candidates ++ page.sending })
  | .fillIn tab entry snapshot rating =>
      let page := s.pages tab
      if entry ∈ page.finishing then
        let filled := { entry with
          apiSnapshot := some snapshot
          scoutingApiRating := some rating }
        let browser := s.browser.change tab (fillIn (s.entries tab) entry snapshot rating)
        some ({ s with browser := browser }.setPage tab
          { page with finishing := filled :: page.finishing.erase entry })
      else none
  | .sync tab entry =>
      let page := s.pages tab
      if entry ∈ page.finishing then
        some (s.setPage tab { page with
          finishing := page.finishing.erase entry
          sending := if entry.room = "" then page.sending else entry :: page.sending })
      else none
  | .queued tab id roomKey =>
      some { s with browser := s.browser.change tab (shareQueued (s.entries tab) id roomKey) }
  | .send tab entry =>
      if entry ∈ (s.pages tab).sending then some { s with sent := entry :: s.sent } else none
  | .drop tab entry =>
      let page := s.pages tab
      some (s.setPage tab { page with sending := page.sending.erase entry })
  | .receive tab copy =>
      if Arrives s copy then
        { s with others := copy.stamp :: s.others }.moveLists (.receive tab copy)
      else none
  | .snapshot tab roomKey records =>
      let copies := records.filterMap (·.entry)
      if DistinctIds copies ∧ ∀ copy ∈ copies, Arrives s copy then
        { s with others := copies.map SavedScoutingEntry.stamp ++ s.others }.moveLists
          (.snapshot tab roomKey records)
      else none
  | .leave tab roomKey => s.moveLists (.leave tab roomKey)
  | .write tab => s.moveLists (.write tab)
  | .deliver tab => s.moveLists (.deliver tab)

/-- From tabs that have read the stored list, of reports saved earlier. -/
def undoSystem : System UndoState UndoAction where
  start s := s =
    { browser := { tabs := fun _ => { entries := s.browser.stored }, stored := s.browser.stored }
      others := s.browser.stored.map (·.stamp) }
  step := toastStep

/-- What was taken back has not left the device, and is not stored. -/
def UndoneKept (s : UndoState) : Prop :=
  ∀ v ∈ s.undone, (∀ e ∈ s.sent, e.stamp ≠ v.stamp) ∧ ∀ e ∈ s.browser.stored, e.stamp ≠ v.stamp

instance (s : UndoState) : Decidable (UndoneKept s) :=
  inferInstanceAs (Decidable (∀ v ∈ s.undone, _))

/-- The stored list after an Undo is the one without the report, or with the report it had
replaced. -/
structure Restored (before after : List Entry) (entry : Entry) (replaced : Option Entry) :
    Prop where
  without : ∀ x ∈ after, x.id = entry.id → replaced = some x
  back : ∀ earlier, replaced = some earlier → earlier ∈ after
  others : ∀ id ∈ ids before, id ≠ entry.id → id ∈ ids after

end Frcmob.Reports
