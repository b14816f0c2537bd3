import Mathlib.Data.List.Sort
import Mathlib.Logic.Function.Basic
import Frcmob.Lib.Table
import Frcmob.Lib.Transition

/-!
The two stores for large saved responses, Cache Storage and IndexedDB. Any operation of Cache
Storage may fail, none of the database does. A put waits between its write and its check, and a
prune at each of its operations. The two times that Cache Storage keeps in headers are fields.
-/

namespace Frcmob.ResponseStore
open Transition

structure Row where
  key : String
  body : String
  status : Nat := 200
  statusText : String := ""
  headers : List (String × String) := []
  storedAt : Nat
  retainUntil : Nat
deriving DecidableEq

structure StoredResponse where
  body : String
  status : Nat
  statusText : String
  headers : List (String × String)
  storedAtMs : Nat
deriving DecidableEq

def Row.stored (row : Row) : StoredResponse where
  body := row.body
  status := row.status
  statusText := row.statusText
  headers := row.headers
  storedAtMs := row.storedAt

structure Meta where
  status : Nat := 200
  statusText : String := ""
  headers : List (String × String) := []
  retainUntilMs : Nat
deriving DecidableEq

def maxEntries : Nat := 250

def pruneEveryMs : Nat := 60000

/-- The keys of the oldest rows beyond the limit. -/
def oldest (rows : List Row) : List String :=
  let sorted := rows.insertionSort fun a b => a.storedAt ≤ b.storedAt
  (sorted.take (rows.length - maxEntries)).map (·.key)

/-! ### The database -/

abbrev Rows := Table Row.key

def getDatabaseResponse (rows : Rows) (key : String) (now : Nat) : Rows × Option Row :=
  match rows.get? key with
  | none => (rows, none)
  | some row => if row.retainUntil ≤ now then (rows.erase key, none) else (rows, some row)

/-- The cursor goes through the rows in the order of their keys. -/
def pruneDatabaseResponses (rows : Rows) (now : Nat) : Rows :=
  let live := rows.filter fun row => now < row.retainUntil
  let drop := oldest (live.rows.insertionSort fun a b => a.key ≤ b.key)
  live.filter fun row => row.key ∉ drop

/-! ### Both stores -/

/-- What the last put of a key that reported success has stored, and where; `dropped` once a
prune has taken it from a store that it was in. -/
structure Saved where
  row : Row
  inCache : Bool := false
  inDatabase : Bool := false
  dropped : Bool := false
deriving DecidableEq

/-- Where a prune is: before its transaction, before it opens Cache Storage, at a key, at an
expired one, and at the oldest. -/
inductive PruneStage
  | database
  | opening
  | scanning (keys : List String) (rows : List Row)
  | expired (key : String) (keys : List String) (rows : List Row)
  | dropping (keys : List String)
deriving DecidableEq

/-- What a get came to, with the last put of its key before it. -/
structure Answer where
  atMs : Nat
  last : Option Saved
  found : Option StoredResponse
deriving DecidableEq

/-- `checking` is the put that has written to Cache Storage and looks whether it is there. -/
structure Store where
  native : Bool := false
  now : Nat := 0
  cache : Rows := .empty
  database : Rows := .empty
  lastPruneAtMs : Nat := 0
  prunes : List PruneStage := []
  checking : Option Saved := none
  last : String → Option Saved := fun _ => none
  answers : List Answer := []

/-- `retainUntil && retainUntil <= Date.now()` -/
def Row.over (row : Row) (now : Nat) : Bool :=
  row.retainUntil ≠ 0 && row.retainUntil ≤ now

def Store.succeeded (s : Store) (saved : Saved) : Store :=
  { s with last := Function.update s.last saved.row.key (some saved) }

/-- `fallback` of a put. -/
def Store.putDatabase (s : Store) (saved : Saved) : Store :=
  { s with database := s.database.put { saved.row with storedAt := s.now } }.succeeded
    { saved with inDatabase := true }

/-- Up to its check. -/
def Store.putStoredResponse (s : Store) (requestKey bodyText : String) (info : Meta)
    (opens puts : Bool) : Store :=
  let row : Row := {
    key := requestKey
    body := bodyText
    status := info.status
    statusText := info.statusText
    headers := info.headers
    storedAt := s.now
    retainUntil := info.retainUntilMs }
  if s.native || !opens || !puts then s.putDatabase { row := row }
  else { s with
    cache := (s.cache.erase requestKey).put row
    checking := some { row := row, inCache := true } }

/-- The put's own look at what it has written. -/
def Store.check (s : Store) (saved : Saved) (matches' : Bool) : Store :=
  let s := { s with checking := none }
  if !matches' then s.putDatabase { saved with inCache := !saved.dropped, dropped := false }
  else if (s.cache.get? saved.row.key).isSome then s.succeeded saved
  else s

def Store.getFallback (s : Store) (requestKey : String) : Store × Option StoredResponse :=
  let found := getDatabaseResponse s.database requestKey s.now
  ({ s with database := found.1 }, found.2.map (·.stored))

def Store.getStoredResponse (s : Store) (requestKey : String) (opens matches' deletes : Bool) :
    Store × Option StoredResponse :=
  if s.native || !opens || !matches' then s.getFallback requestKey
  else
    match s.cache.get? requestKey with
    | none => s.getFallback requestKey
    | some hit =>
        if hit.over s.now then
          { s with cache := if deletes then s.cache.erase requestKey else s.cache }.getFallback
            requestKey
        else (s, some hit.stored)

/-! ### Prunes -/

/-- A prune takes a key from Cache Storage. -/
def Store.dropCached (s : Store) (key : String) : Store :=
  if (s.cache.get? key).isNone then s
  else if s.checking.any fun saved => saved.row.key = key then
    { s with
      cache := s.cache.erase key
      checking := s.checking.map fun saved => { saved with dropped := true } }
  else
    { s with
      cache := s.cache.erase key
      last := Function.update s.last key ((s.last key).map fun saved =>
        { saved with dropped := saved.dropped || saved.inCache }) }

/-- A prune's transaction. -/
def Store.pruneDatabase (s : Store) : Store :=
  let database := pruneDatabaseResponses s.database s.now
  { s with
    database := database
    last := fun key =>
      if (s.database.get? key).isSome && (database.get? key).isNone then
        (s.last key).map fun saved => { saved with dropped := saved.dropped || saved.inDatabase }
      else s.last key }

def Store.pruneStoredResponses (s : Store) : Store :=
  if s.now - s.lastPruneAtMs < pruneEveryMs then s
  else { s with lastPruneAtMs := s.now, prunes := s.prunes ++ [.database] }

/-- The prune at `i` goes on, or is over. -/
def Store.setPrune (s : Store) (i : Nat) : Option PruneStage → Store
  | some stage => { s with prunes := s.prunes.set i stage }
  | none => { s with prunes := s.prunes.eraseIdx i }

/-- The next operation of the prune at `i`, which fails or works. -/
def Store.pruneStep (s : Store) (i : Nat) (works : Bool) : PruneStage → Store
  | .database => s.pruneDatabase.setPrune i (some .opening)
  | .opening =>
      s.setPrune i (if works then some (.scanning (s.cache.rows.map (·.key)) []) else none)
  | .scanning [] rows => s.setPrune i (some (.dropping (oldest rows)))
  | .scanning (key :: keys) rows =>
      if works then
        match s.cache.get? key with
        | none => s.setPrune i (some (.expired key keys rows))
        | some row =>
            if row.over s.now then s.setPrune i (some (.expired key keys rows))
            else s.setPrune i (some (.scanning keys (rows ++ [row])))
      else s.setPrune i none
  | .expired key keys rows =>
      if works then (s.dropCached key).setPrune i (some (.scanning keys rows))
      else s.setPrune i none
  | .dropping [] => s.setPrune i none
  | .dropping (key :: keys) =>
      if works then (s.dropCached key).setPrune i (some (.dropping keys)) else s.setPrune i none

inductive StoreAction
  | tick (ms : Nat)
  | put (requestKey bodyText : String) (info : Meta) (opens puts : Bool)
  | check (matches' : Bool)
  | get (requestKey : String) (opens matches' deletes : Bool)
  | prune
  | pruneStep (i : Nat) (works : Bool)
deriving DecidableEq

def Store.get (s : Store) (requestKey : String) (opens matches' deletes : Bool) : Store :=
  let found := s.getStoredResponse requestKey opens matches' deletes
  { found.1 with
    answers := { atMs := s.now, last := s.last requestKey, found := found.2 } :: s.answers }

/-- Puts and gets come one after the other, prunes at any time. -/
def storeStep (s : Store) : StoreAction → Option Store
  | .tick ms => some { s with now := s.now + ms }
  | .put requestKey bodyText info opens puts =>
      if s.checking = none then some (s.putStoredResponse requestKey bodyText info opens puts)
      else none
  | .check matches' => s.checking.map fun saved => s.check saved matches'
  | .get requestKey opens matches' deletes =>
      if s.checking = none then some (s.get requestKey opens matches' deletes) else none
  | .prune => some s.pruneStoredResponses
  | .pruneStep i works => (s.prunes[i]?).map (s.pruneStep i works)

def storeSystem : System Store StoreAction where
  start s := s = { native := s.native, now := s.now }
  step := storeStep

/-! ### The newest answer wins -/

/-- Nothing, or the body of the last put that reported success; that one, unless it has expired
or a prune has dropped it. -/
structure Answer.Newest (answer : Answer) : Prop where
  found : ∀ response, answer.found = some response →
    ∃ saved, answer.last = some saved ∧ response.body = saved.row.body
  kept : ∀ saved, answer.last = some saved → answer.atMs < saved.row.retainUntil →
    saved.dropped = false → ∃ response, answer.found = some response

/-- The copy of a key in Cache Storage that is not over. -/
def Store.cached (s : Store) (key : String) : Option Row :=
  (s.cache.get? key).filter fun row => !row.over s.now

/-- The row of a key in the database that is not over. -/
def Store.kept (s : Store) (key : String) : Option Row :=
  (s.database.get? key).filter fun row => s.now < row.retainUntil

/-- The other store's copy of a key that goes into one of them. -/
def Store.other (s : Store) (key : String) (database : Bool) : Option Row :=
  if database then s.cached key else s.kept key

/-- The last put of the key that reported success has expired or been dropped, if there is one. -/
def Store.gone (s : Store) (key : String) : Bool :=
  (s.last key).all fun saved => saved.row.retainUntil ≤ s.now || saved.dropped

/-- A put leaves no older copy in the other store, what it has written is there when it looks,
unless nothing is lost with it, and a get that cannot use Cache Storage needs nothing from it. -/
def OneStore (s : Store) : StoreAction → Prop
  | .put requestKey _ _ opens puts =>
      s.other requestKey (s.native || !opens || !puts) = none
  | .check matches' => matches' = true → ∀ saved, s.checking = some saved →
      (s.cache.get? saved.row.key).isSome ∨ s.gone saved.row.key = true
  | .get requestKey opens matches' _ => (s.native || !opens || !matches') = true →
      s.cached requestKey = none ∨ s.kept requestKey ≠ none
  | .tick _ | .prune | .pruneStep _ _ => True

instance (s : Store) : ∀ a, Decidable (OneStore s a)
  | .put _ _ _ _ _ => inferInstanceAs (Decidable (_ = none))
  | .check matches' =>
      decidable_of_iff (matches' = true → (s.checking.all fun saved =>
        (s.cache.get? saved.row.key).isSome || s.gone saved.row.key) = true)
        (by simp [OneStore, Option.all_eq_true])
  | .get _ _ _ _ => inferInstanceAs (Decidable (_ → _))
  | .tick _ | .prune | .pruneStep _ _ => isTrue True.intro

end Frcmob.ResponseStore
