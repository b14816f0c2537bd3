import Frcmob.Lib.Transition
import Frcmob.Picklists.Draft

/-!
The picklist editor (`usePicklistEditor.ts`): what a scout changes is kept as a draft, in a
map that outlives the page and in local storage, until the server has taken it. Each opening
of the page makes an editor of its own, with its own timers and its own record of the writes
it waits for; a write is answered to the editor that sent it, also after its page was closed.
-/

namespace Frcmob.PicklistEditor
open Picklists Transition
open Function (update)

/-- What an edit changes of a list. -/
structure Content where
  slots : List PicklistSlot
  title : String
  liveMode : Bool
deriving DecidableEq

structure Picklist extends Content where
  id : Nat
  eventKey : String
  version : Nat
deriving DecidableEq

/-- `ref` is the identity of the object `doc`. -/
structure Draft where
  ref : Nat
  doc : Picklist
  conflict : Option Picklist := none
  error : Option String := none
deriving DecidableEq

/-- A workspace and a list of it. -/
abbrev Key := Nat × Nat

/-- The refs of one `usePicklistEditor`; `timers` in the order they were first set. -/
structure Editor where
  workspaceId : Nat
  confirmed : Nat → Option Picklist := fun _ => none
  active : Option Picklist := none
  timers : List Nat := []
  mounted : Bool := true

/-- A call of `updatePicklist` that is not settled. Of the run: `edit` counts the edits of the
list when it was sent, `due` is the version that it was owed to. -/
structure Flight where
  editor : Nat
  key : Key
  ref : Nat
  sent : Picklist
  edit : Nat
  due : Option Nat
deriving DecidableEq

/-- Of the run: the edits of each list, the writes that the server took with the edits they
were, the edits that were discarded, and the version to which a newer edit is owed since the
server took an earlier one. -/
structure App where
  session : Option Nat
  storageFull : Bool := false
  memory : Key → Option Draft := fun _ => none
  localStorage : Key → Option Draft
  editors : Nat → Editor
  newest : Nat := 0
  flights : List Flight := []
  nextRef : Nat := 0
  eventOf : Nat → String
  edits : Key → List Content := fun _ => []
  accepted : List (Key × Nat × Content) := []
  discarded : List (Key × Nat) := []
  owed : Key → Option Nat := fun _ => none

namespace App
variable (s : App)

def editor (k : Nat) : Editor := s.editors k

/-- `keyFor`, for an editor. -/
def keyOf (k id : Nat) : Key := ((s.editors k).workspaceId, id)

/-! ### The drafts -/

/-- The saved copy, if it is of this list. -/
def readable (key : Key) : Option Draft :=
  (s.localStorage key).filter fun draft => draft.doc.id = key.2

/-- What `read` leaves behind: a saved copy that is not in memory is a new object there. -/
def load (key : Key) : App :=
  match s.memory key, s.readable key with
  | none, some draft =>
      { s with memory := update s.memory key (some { draft with ref := s.nextRef })
               nextRef := s.nextRef + 1 }
  | _, _ => s

def read (key : Key) : Option Draft := (s.load key).memory key

def storageFullText : String :=
  "Device storage is full. Keep this tab open until your changes are shared."

/-- Where storage is full, an older saved copy stays. -/
def persist (workspaceId : Nat) (draft : Draft) : App :=
  let key := (workspaceId, draft.doc.id)
  if s.storageFull then
    { s with memory := update s.memory key (some { draft with error := some storageFullText }) }
  else
    { s with memory := update s.memory key (some draft)
             localStorage := update s.localStorage key (some draft) }

/-- Delete the draft and its saved copy. -/
def drop (key : Key) : App :=
  { s with memory := update s.memory key none
           localStorage := update s.localStorage key none
           owed := update s.owed key none }

/-! ### What the editor shows -/

def setEditor (k : Nat) (editor : Editor) : App :=
  { s with editors := update s.editors k editor }

def publish (k : Nat) (next : Option Picklist) : App :=
  let s := s.setEditor k { s.editor k with active := next }
  match next with
  | some doc => if (s.editor k).mounted then s.load (s.keyOf k doc.id) else s
  | none => s

/-! ### Saving -/

/-- `flights.current.has(id)`. -/
def inFlight (k id : Nat) : Bool :=
  s.flights.any fun flight => flight.editor = k ∧ flight.key.2 = id

def send (k : Nat) (key : Key) (draft : Draft) : App :=
  { s with
    flights := s.flights ++ [{ editor := k, key := key, ref := draft.ref, sent := draft.doc
                               edit := (s.edits key).length, due := s.owed key }]
    owed := update s.owed key none }

/-- `save` up to its wait for the answer. -/
def save (k id : Nat) : App :=
  let key := s.keyOf k id
  let s := s.load key
  match s.memory key with
  | none => s
  | some draft =>
      if draft.conflict.isSome ∨ s.inFlight k id ∨ s.session ≠ some key.1 then s
      else s.send k key draft

def confirm (k : Nat) (picklist : Picklist) : App :=
  let editor := s.editor k
  s.setEditor k { editor with confirmed := update editor.confirmed picklist.id (some picklist) }

/-- `if (active.current?.id === id) active.current = doc`. -/
def setActive (k id : Nat) (doc : Picklist) : App :=
  if (s.editor k).active.any (·.id = id) then
    s.setEditor k { s.editor k with active := some doc }
  else s

/-- `if (active.current?.id === id) publish(read(id)?.doc ?? active.current)`. -/
def republish (k id : Nat) : App :=
  match (s.editor k).active with
  | some doc =>
      if doc.id = id then
        let s := s.load (s.keyOf k id)
        match s.memory (s.keyOf k id) with
        | some draft => s.publish k (some draft.doc)
        | none => s.publish k (some doc)
      else s
  | none => s

inductive Outcome
  | answered (conflict : Bool) (picklist : Picklist)
  | failed (message : String)
deriving DecidableEq

/-- The newer edits on the version that the server made of the write. -/
def rebase (key : Key) (latest : Draft) (version : Nat) : App :=
  let s := s.persist key.1 { ref := s.nextRef, doc := { latest.doc with version := version } }
  { s with nextRef := s.nextRef + 1, owed := update s.owed key (some version) }

/-- The newer edits go out on that version; an error of `persist` keeps them for a retry. -/
def resend (flight : Flight) (latest : Draft) (version : Nat) : App :=
  let k := flight.editor
  let id := flight.key.2
  let s := s.rebase flight.key latest version
  let s := s.setActive k id { latest.doc with version := version }
  let s := s.republish k id
  match s.memory flight.key with
  | some remaining => if remaining.error.isNone then s.save k id else s
  | none => s

/-- The server took the write. -/
def taken (flight : Flight) (picklist : Picklist) : App :=
  { s with accepted := (flight.key, flight.edit, flight.sent.toContent) :: s.accepted }
    |>.confirm flight.editor picklist

/-- `save` from the answer to its end; the write is no longer among the flights. -/
def settle (flight : Flight) : Outcome → App
  | .answered conflict picklist =>
      let k := flight.editor
      let id := flight.key.2
      let s := if conflict then s.confirm k picklist else s.taken flight picklist
      let s := s.load flight.key
      match s.memory flight.key with
      | none => s.republish k id
      | some latest =>
          if conflict then
            (s.persist flight.key.1 { latest with conflict := some picklist }).republish k id
          else if latest.ref = flight.ref then
            ((s.drop flight.key).setActive k id picklist).republish k id
          else s.resend flight latest picklist.version
  | .failed message =>
      let s := s.load flight.key
      match s.memory flight.key with
      | none => s.republish flight.editor flight.key.2
      | some latest =>
          (s.persist flight.key.1 { latest with error := some message }).republish
            flight.editor flight.key.2

/-! ### The page -/

/-- A timer went off: the rest is `save`. -/
def clearTimer (k id : Nat) : App :=
  s.setEditor k { s.editor k with timers := (s.editor k).timers.erase id }

/-- `timers.current.set`: an id that is there keeps its place. -/
def setTimer (k id : Nat) : App :=
  let editor := s.editor k
  s.setEditor k
    { editor with timers := if id ∈ editor.timers then editor.timers else editor.timers ++ [id] }

/-- The list as the server confirmed it to this editor, where the page has an older one. -/
def newer (k : Nat) (server : Picklist) : Picklist :=
  match (s.editor k).confirmed server.id with
  | some known => if server.version < known.version then known else server
  | none => server

/-- The draft of a list that has moved on at the server meets it as a conflict. -/
def meet (workspaceId : Nat) (draft : Draft) (server : Picklist) : App :=
  if draft.doc.version < server.version then
    let s := s.persist workspaceId { draft with conflict := some server }
    { s with owed := update s.owed (workspaceId, draft.doc.id) none }
  else s

def select (k : Nat) : Option Picklist → App
  | none => s.publish k none
  | some server =>
      let server := s.newer k server
      let key := s.keyOf k server.id
      let s := s.load key
      match s.memory key with
      | none => s.publish k (some server)
      | some draft =>
          if draft.doc.eventKey = server.eventKey then
            let s := s.meet key.1 draft server
            let s := s.publish k (some draft.doc)
            match s.memory key with
            | none => s
            | some settled =>
                if settled.conflict.isNone ∧ settled.error.isNone ∧
                    server.id ∉ (s.editor k).timers then s.save k server.id
                else s
          else s.publish k (some server)

/-- The edit as a draft; every update that the page makes is a new object. -/
def draftEdit (key : Key) (next : Picklist) : App :=
  let s := s.load key
  let previous := s.memory key
  let s := s.persist key.1
    { ref := s.nextRef, doc := next, conflict := previous.bind (·.conflict) }
  { s with nextRef := s.nextRef + 1, edits := update s.edits key (s.edits key ++ [next.toContent]) }

def edit (k : Nat) (content : Content) : App :=
  match (s.editor k).active with
  | none => s
  | some current =>
      let next := { current with toContent := content }
      let s := s.draftEdit (s.keyOf k current.id) next
      (s.publish k (some next)).setTimer k next.id

def redraft (key : Key) (draft : Draft) : App :=
  let version := (draft.conflict.map (·.version)).getD draft.doc.version
  let s := s.persist key.1 { ref := s.nextRef, doc := { draft.doc with version := version } }
  { s with nextRef := s.nextRef + 1 }

def retry (k : Nat) : App :=
  match (s.editor k).active with
  | none => s
  | some current =>
      let key := s.keyOf k current.id
      let s := s.load key
      match s.memory key with
      | none => s
      | some draft =>
          let s := s.redraft key draft
          match s.memory key with
          | none => s
          | some again => (s.publish k (some again.doc)).save k current.id

def giveUp (key : Key) : App :=
  let s := s.drop key
  { s with discarded := (key, (s.edits key).length) :: s.discarded }

def discard (k : Nat) : App :=
  match (s.editor k).active with
  | none => s
  | some current =>
      let key := s.keyOf k current.id
      let s := s.load key
      match (s.memory key).bind (·.conflict) with
      | none => s
      | some shared => (s.giveUp key).publish k (some shared)

def pause (k : Nat) : App :=
  match (s.editor k).active with
  | none => s
  | some current => s.clearTimer k current.id

/-- The list was deleted. -/
def remove (k id : Nat) : App :=
  let s := (s.clearTimer k id).giveUp (s.keyOf k id)
  if (s.editor k).active.any (·.id = id) then s.publish k none else s

/-- Leaving the page sends what was waiting. -/
def close (k : Nat) : App :=
  let timers := (s.editor k).timers
  let s := s.setEditor k { s.editor k with mounted := false }
  let s := timers.foldl (fun s id => s.save k id) s
  s.setEditor k { s.editor k with timers := [] }

/-- The page is opened again, with an editor of its own. -/
def openPage (workspaceId : Nat) : App :=
  { s with newest := s.newest + 1
           editors := update s.editors (s.newest + 1) { workspaceId := workspaceId } }

end App

/-- `settle i` answers the `i`-th of the writes in flight, whichever editor sent it; a timer or
the end of a deletion is any editor's, what the page does is the newest one's. -/
inductive Action
  | openPage (workspaceId : Nat)
  | close
  | select (server : Option Picklist)
  | edit (content : Content)
  | timer (k id : Nat)
  | settle (i : Nat) (outcome : App.Outcome)
  | retry
  | discard
  | pause
  | remove (k id : Nat)
  | signIn (session : Option Nat)
  | storage (full : Bool)

/-- The server shows a list under its id, and the event of a list never changes. -/
def App.Shows (s : App) (picklist : Picklist) : Prop :=
  picklist.eventKey = s.eventOf picklist.id

instance (s : App) (picklist : Picklist) : Decidable (s.Shows picklist) :=
  inferInstanceAs (Decidable (_ = _))

def App.Outcome.Fits (s : App) (id : Nat) : App.Outcome → Prop
  | .answered _ picklist => picklist.id = id ∧ s.Shows picklist
  | .failed _ => True

instance (s : App) (id : Nat) : ∀ outcome : App.Outcome, Decidable (outcome.Fits s id)
  | .answered _ picklist => inferInstanceAs (Decidable (picklist.id = id ∧ s.Shows picklist))
  | .failed _ => isTrue True.intro

def step (s : App) : Action → Option App
  | .openPage workspaceId =>
      if (s.editor s.newest).mounted then none else some (s.openPage workspaceId)
  | .close => if (s.editor s.newest).mounted then some (s.close s.newest) else none
  | .select none => some (s.select s.newest none)
  | .select (some server) =>
      if s.Shows server then some (s.select s.newest (some server)) else none
  | .edit content => some (s.edit s.newest content)
  | .timer k id =>
      if k ≤ s.newest ∧ id ∈ (s.editor k).timers then some ((s.clearTimer k id).save k id)
      else none
  | .settle i outcome =>
      match s.flights[i]? with
      | none => none
      | some flight =>
          if outcome.Fits s flight.key.2 then
            some ({ s with flights := s.flights.eraseIdx i }.settle flight outcome)
          else none
  | .retry => some (s.retry s.newest)
  | .discard => some (s.discard s.newest)
  | .pause => some (s.pause s.newest)
  | .remove k id => if k ≤ s.newest then some (s.remove k id) else none
  | .signIn session => some { s with session := session }
  | .storage full => some { s with storageFull := full }

/-- The page was just opened for the first time; drafts of earlier days may be in storage. -/
def Started (s : App) : Prop :=
  ∃ workspaceId session localStorage eventOf,
    s = { session := session, localStorage := localStorage, eventOf := eventOf
          editors := fun _ => { workspaceId := workspaceId } } ∧
    ∀ key draft, localStorage key = some draft → draft.doc.eventKey = eventOf key.2 ∧
      ∀ shared, draft.conflict = some shared →
        shared.id = key.2 ∧ shared.eventKey = eventOf shared.id

def app : System App Action := ⟨Started, step⟩

end Frcmob.PicklistEditor
