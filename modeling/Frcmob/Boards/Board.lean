import Frcmob.Lib.Transition
import Frcmob.Lib.Versioned

/-!
The field plan of a match that a team draws together (`StrategyBoard.tsx`,
`routes_strategy_boards.py`). A board is open from its mount to its close. The page's timers, the
network and the server take turns in any order; a request is served by the server, and answered
or lost on the way, in steps of its own.
-/

namespace Frcmob.Boards
open Versioned Transition

inductive Tool
  | pen
  | arrow
  | zone
deriving DecidableEq

inductive StrokeColor
  | ours
  | theirs
  | note
deriving DecidableEq

/-- Points are in thousandths of the field, as the page rounds them. -/
structure StrategyStroke where
  tool : Tool
  color : StrokeColor
  points : List (Nat × Nat)
deriving DecidableEq

def maxStrokes : Nat := 150
def maxPoints : Nat := 400

/-! ### The server -/

def normalizeStroke (stroke : StrategyStroke) : Option StrategyStroke :=
  let points := (stroke.points.take maxPoints).map fun p => (min 1000 p.1, min 1000 p.2)
  if points.length < (if stroke.tool = .pen then 1 else 2) then none
  else if stroke.tool = .pen then some { stroke with points := points }
  else some { stroke with points := points.head?.toList ++ points.getLast?.toList }

def normalizeStrokes (raw : List StrategyStroke) : List StrategyStroke :=
  (raw.take maxStrokes).filterMap normalizeStroke

abbrev BoardStore := Store Nat (List StrategyStroke)
abbrev SaveStrategyBoardResult := Answer (List StrategyStroke)

def putStrategyBoard (store : BoardStore) (board version : Nat) (strokes : List StrategyStroke) :
    BoardStore × SaveStrategyBoardResult :=
  put [] store board version (normalizeStrokes strokes)

/-! ### A board -/

/-- Strokes as one array of the page; `id` stands for its identity. -/
structure Drawing where
  id : Nat
  strokes : List StrategyStroke
deriving DecidableEq

inductive Status
  | loading
  | saved
  | saving
  | error
deriving DecidableEq

/-- A save on its way, with the server's answer once it is served. -/
structure Flight where
  version : Nat
  sending : Drawing
  answer : Option SaveStrategyBoardResult := none
deriving DecidableEq

def Flight.committed (flight : Flight) : Bool :=
  flight.answer.any (! ·.conflict)

/-- A load on its way, the first one of the board or a refresh. -/
structure Load where
  initial : Bool
  answer : Option (Nat × List StrategyStroke) := none
deriving DecidableEq

/-- What a board that closes in the middle of a save sends after it. -/
structure Leftover where
  leftover : Drawing
  sentBefore : Option Drawing
  lastVersion : Nat
deriving DecidableEq

/-- The last three fields are history that the page does not keep: how many arrays were made, the
latest drawing with the version it was drawn on, and whether the answer to a save was lost after
the server took it, and the board has not heard of that version since. -/
structure Board where
  isOpen : Bool := true
  version : Nat := 0
  strokes : List StrategyStroke := []
  status : Status := .loading
  drawing : Bool := false
  dirty : Bool := false
  saveTimer : Option Drawing := none
  pending : Option Drawing := none
  inFlight : Bool := false
  sendingRef : Option Drawing := none
  flights : List Flight := []
  loads : List Load := [{ initial := true }]
  leaving : Option Leftover := none
  drawn : Nat := 0
  latest : Option (Drawing × Nat) := none
  lostWrite : Bool := false
deriving DecidableEq

namespace Board

/-- The save waits for its timer, whose length is `SAVE_AFTER_MS`, or `RETRY_AFTER_MS` for a
retry. -/
def save (b : Board) (next : Drawing) (retry : Bool) : Board :=
  { b with
    dirty := true
    pending := some next
    status := if retry then b.status else .saving
    saveTimer := some next }

def commit (b : Board) (next : List StrategyStroke) : Board :=
  let drawing := ⟨b.drawn, next⟩
  { b with
    strokes := next
    drawn := b.drawn + 1
    latest := some (drawing, b.version) }.save drawing false

def send (b : Board) (version : Nat) (sending : Drawing) : Board :=
  { b with flights := b.flights ++ [{ version := version, sending := sending }] }

/-- One save at a time: a timer that ends during a save is set again. -/
def fireTimer (b : Board) (next : Drawing) : Board :=
  let sending := b.pending.getD next
  let b := { b with saveTimer := none }
  if b.inFlight then b.save sending false
  else { b with inFlight := true, sendingRef := some sending }.send b.version sending

def answered (b : Board) (flight : Flight) (result : SaveStrategyBoardResult) : Board :=
  let b := { b with inFlight := false }
  if result.conflict then
    -- a teammate's plan stands, and nothing queued here overwrites it
    { b with
      saveTimer := none
      pending := none
      dirty := false
      version := result.version
      strokes := result.content
      status := .saved
      lostWrite := false }
  else
    let b := { b with version := result.version }
    -- drawn on while this was saving: the newer strokes are queued and save next
    if b.pending ≠ some flight.sending then b
    else
      { b with
        pending := none
        dirty := false
        strokes := result.content
        status := .saved }

def failed (b : Board) (flight : Flight) : Board :=
  let b := { b with
    inFlight := false
    status := .error
    lostWrite := b.lostWrite || flight.committed }
  match b.pending with
  | some pending => b.save pending true
  | none => b

def close (b : Board) : Board :=
  let closed := { b with
    isOpen := false
    saveTimer := none
    pending := none
    dirty := false }
  match b.pending with
  | none => closed
  | some leftover =>
      if b.inFlight then
        { closed with leaving := some ⟨leftover, b.sendingRef, b.version⟩ }
      else closed.send b.version leftover

/-- After the save that was on its way when the board closed; `result` is none if it failed. -/
def wayOut (b : Board) (result : Option SaveStrategyBoardResult) : Board :=
  match b.leaving with
  | none => b
  | some l =>
      let b := { b with leaving := none }
      match result with
      | some result =>
          if result.conflict ∨ l.sentBefore = some l.leftover then b
          else b.send result.version l.leftover
      | none => b.send l.lastVersion l.leftover

def settle (b : Board) (i : Nat) (flight : Flight) (result : Option SaveStrategyBoardResult) :
    Board :=
  let b := { b with flights := b.flights.eraseIdx i }
  if b.isOpen then
    match result with
    | some result => b.answered flight result
    | none => b.failed flight
  else b.wayOut result

def loaded (b : Board) (load : Load) (version : Nat) (strokes : List StrategyStroke) : Board :=
  if ¬ b.isOpen then b
  else if load.initial then { b with version := version, strokes := strokes, status := .saved }
  else if ¬ b.dirty ∧ b.version < version then { b with version := version, strokes := strokes }
  else b

end Board

/-! ### Steps -/

/-- `pointerUp none` ends a gesture that is no stroke: a tap, or a cancelled one. -/
inductive BoardAction
  | pointerDown
  | pointerUp (done : Option StrategyStroke)
  | undo
  | clear
  | timer
  | poll
  | serveLoad (i : Nat)
  | answerLoad (i : Nat)
  | failLoad (i : Nat)
  | serve (i : Nat)
  | answer (i : Nat)
  | fail (i : Nat)
  | close
deriving DecidableEq

/-- The strokes that an action of the user leaves on the board. -/
def Board.drawn? (b : Board) : BoardAction → Option (List StrategyStroke)
  | .pointerUp (some done) => if b.drawing then some (b.strokes ++ [done]) else none
  | .undo => if b.strokes ≠ [] then some b.strokes.dropLast else none
  | .clear => if b.strokes ≠ [] then some [] else none
  | _ => none

def boardStep (store : BoardStore) (id : Nat) (b : Board) (action : BoardAction) :
    Option (BoardStore × Board) :=
  match action with
  | .pointerDown =>
      if b.isOpen ∧ b.strokes.length < maxStrokes ∧ b.status ≠ .loading ∧ ¬ b.drawing then
        some (store, { b with drawing := true })
      else none
  | .pointerUp done =>
      if b.isOpen ∧ b.drawing then
        let next := b.drawn? (.pointerUp done)
        let b := { b with drawing := false }
        some (store, (next.map b.commit).getD b)
      else none
  | .undo | .clear =>
      if b.isOpen then (b.drawn? action).map fun next => (store, b.commit next) else none
  | .timer => b.saveTimer.map fun next => (store, b.fireTimer next)
  | .poll =>
      if b.isOpen ∧ ¬ b.dirty then
        some (store, { b with loads := b.loads ++ [{ initial := false }] })
      else none
  | .serveLoad i =>
      b.loads[i]?.map fun load =>
        (store, { b with
          loads := b.loads.set i { load with answer := some (store.length, current [] store) } })
  | .answerLoad i =>
      b.loads[i]?.bind fun load => load.answer.map fun answer =>
        (store, { b with loads := b.loads.eraseIdx i }.loaded load answer.1 answer.2)
  | .failLoad i =>
      b.loads[i]?.map fun load =>
        (store, { b with
          loads := b.loads.eraseIdx i
          status := if b.isOpen ∧ load.initial then .error else b.status })
  | .serve i =>
      (b.flights[i]?.filter (·.answer = none)).map fun flight =>
        let (store, answer) := putStrategyBoard store id flight.version flight.sending.strokes
        (store, { b with flights := b.flights.set i { flight with answer := some answer } })
  | .answer i =>
      b.flights[i]?.bind fun flight => flight.answer.map fun answer =>
        (store, b.settle i flight (some answer))
  | .fail i => b.flights[i]?.map fun flight => (store, b.settle i flight none)
  | .close => if b.isOpen then some (store, b.close) else none

/-- The server's versions of one match's plan, and every board ever opened on it. -/
structure BoardsState where
  store : BoardStore := []
  boards : List Board := []
deriving DecidableEq

inductive BoardsAction
  | mount
  | board (id : Nat) (action : BoardAction)
deriving DecidableEq

def boardsSystem : System BoardsState BoardsAction where
  start s := s = {}
  step s
    | .mount => some { s with boards := s.boards ++ [{}] }
    | .board id action =>
        s.boards[id]?.bind fun b => (boardStep s.store id b action).map fun (store, b) =>
          ⟨store, s.boards.set id b⟩

end Frcmob.Boards
