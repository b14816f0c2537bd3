import Mathlib.Data.List.Sort
import Mathlib.Data.List.Dedup
import Frcmob.Lib.Table
import Frcmob.Lib.Transition
import Frcmob.Text

/-!
The job that ingests the events in play every few minutes: `ingest_events_in_play` of
`live_ingest.py`, with `refresh_event` and `post_compute_event` of `pipeline.py`. What TBA
answers, where an ingest raises and what becomes of a ratings rebuild are a tick's inputs.
-/

namespace Frcmob.LiveResults

inductive Color
  | red
  | blue
deriving DecidableEq

/-- TBA's key of a match, `2026busy_qm9`: the event's key and the match's place in it. -/
structure MatchKey where
  event : String
  code : String
deriving DecidableEq

/-- A row of `matches`; times in seconds. -/
structure Match where
  matchKey : MatchKey
  time : Option Int
  predictedTime : Option Int
  actualTime : Option Int
deriving DecidableEq

/-- `totals` is the row's score, fouls, ranking points and components. -/
structure MatchAllianceResult where
  matchKey : MatchKey
  alliance : Color
  totals : String
deriving DecidableEq

def MatchAllianceResult.rowKey (r : MatchAllianceResult) : MatchKey × Color :=
  (r.matchKey, r.alliance)

structure Db where
  storedMatches : Table Match.matchKey
  results : Table MatchAllianceResult.rowKey

/-- A row of TBA's calendar. A date is its day number, `none` when it cannot be read. -/
structure TbaEvent where
  key : String
  startDate : Option Int
  endDate : Option Int
deriving DecidableEq

/-- A match as TBA answers it; `totals` are red's and blue's, once both have a score. -/
structure TbaMatch where
  code : String
  time : Option Int
  predictedTime : Option Int
  actualTime : Option Int
  totals : Option (String × String)
deriving DecidableEq

/-! ### Events in play -/

def inPlayBeforeSec : Int := 2 * 3600
def inPlayAheadSec : Int := 3600

/-- A day either side: an evening in Hawaii is already tomorrow in UTC. -/
def TbaEvent.covers (event : TbaEvent) (today : Int) : Bool :=
  match event.startDate, event.endDate with
  | some start, some finish => decide (start - 1 ≤ today) && decide (today ≤ finish + 1)
  | _, _ => false

def eventsCovering (calendar : List TbaEvent) (today : Int) : List String :=
  ((calendar.filter (·.covers today)).map fun event => lower event.key).insertionSort (· ≤ ·)

def Match.startTime (m : Match) : Option Int :=
  (m.actualTime.or m.predictedTime).or m.time

def Match.inPlay (m : Match) (now : Int) : Bool :=
  m.startTime.any fun at_ =>
    decide (now - inPlayBeforeSec ≤ at_) && decide (at_ ≤ now + inPlayAheadSec)

def eventsInPlay (db : Db) (candidates : List String) (now : Int) : List String :=
  let withMatches (key : String) := db.storedMatches.rows.any fun m => m.matchKey.event == key
  let busy (key : String) :=
    db.storedMatches.rows.any fun m => m.matchKey.event == key && m.inPlay now
  (candidates.filter fun key => busy key || !withMatches key).dedup.insertionSort (· ≤ ·)

/-- `xs[:n]` -/
def sliceTo {α : Type} (n : Int) (xs : List α) : List α :=
  if 0 ≤ n then xs.take n.toNat else xs.take (xs.length - n.natAbs)

/-- `xs[n:]` -/
def sliceFrom {α : Type} (n : Int) (xs : List α) : List α :=
  if 0 ≤ n then xs.drop n.toNat else xs.drop (xs.length - n.natAbs)

/-! ### A refresh -/

/-- The rows of the event's results, in the order they were first stored. -/
def Db.resultsOf (db : Db) (eventKey : String) : List MatchAllianceResult :=
  db.results.rows.filter fun r => r.matchKey.event == eventKey

/-- `_stored_results` -/
def storedResults (db : Db) (eventKey : String) : Nat :=
  (db.resultsOf eventKey).length

def TbaMatch.row (eventKey : String) (m : TbaMatch) : Match :=
  ⟨⟨eventKey, m.code⟩, m.time, m.predictedTime, m.actualTime⟩

/-- Rows of both alliances of a played match; none until TBA has a score. -/
def parseAllianceResults (eventKey : String) (m : TbaMatch) : List MatchAllianceResult :=
  match m.totals with
  | none => []
  | some (red, blue) =>
      [⟨⟨eventKey, m.code⟩, .red, red⟩, ⟨⟨eventKey, m.code⟩, .blue, blue⟩]

def upsertAllianceResults (db : Db) (eventKey : String) (tbaMatches : List TbaMatch) : Db :=
  let known (r : MatchAllianceResult) := (db.storedMatches.get? r.matchKey).isSome
  { db with
    results := db.results.putAll
      ((tbaMatches.flatMap (parseAllianceResults eventKey)).filter known) }

/-- What an ingest commits. -/
def ingestEvent (db : Db) (eventKey : String) (tbaMatches : List TbaMatch) : Db :=
  let merged :=
    { db with storedMatches := db.storedMatches.putAll (tbaMatches.map (·.row eventKey)) }
  upsertAllianceResults merged eventKey tbaMatches

/-- What becomes of an ingest: TBA does not answer or a statement fails; its only commit is
done but its answer is lost; or nothing raises. -/
inductive Refresh
  | raisedBeforeStoring
  | raisedAfterStoring (tbaMatches : List TbaMatch)
  | stored (tbaMatches : List TbaMatch)
deriving DecidableEq

inductive RefreshStatus
  | ingestFailed
  | processed
deriving DecidableEq

/-- `refresh_event` without the rebuild. -/
def refreshEvent (db : Db) (eventKey : String) : Refresh → Db × RefreshStatus
  | .raisedBeforeStoring => (db, .ingestFailed)
  | .raisedAfterStoring tbaMatches => (ingestEvent db eventKey tbaMatches, .ingestFailed)
  | .stored tbaMatches => (ingestEvent db eventKey tbaMatches, .processed)

/-! ### A rebuild -/

/-- `recompute_event_ratings` writes the event's ratings, answers `ok` without a word about
them (a frozen or unrated season, an event without teams), or raises. -/
inductive Recompute
  | written
  | skipped
  | raised
deriving DecidableEq

/-- `builtFrom` is what the event's ratings were last built from. -/
structure State where
  db : Db
  builtFrom : String → List MatchAllianceResult

/-- `post_compute_event`, and whether its ratings are `ok`. -/
def postComputeEvent (s : State) (eventKey : String) : Recompute → State × Bool
  | .written =>
      ({ s with
        builtFrom := Function.update s.builtFrom eventKey (s.db.resultsOf eventKey) }, true)
  | .skipped => (s, true)
  | .raised => (s, false)

/-! ### A tick -/

structure Tick where
  now : Int
  calendar : List TbaEvent
  maxEvents : Int
  refresh : String → Refresh
  recompute : String → Recompute

structure IngestReport where
  events : List String
  skippedOverLimit : List String
  changed : List String
  rebuilt : List String
  errors : List String
deriving DecidableEq

def Tick.inPlay (t : Tick) (db : Db) : List String :=
  eventsInPlay db (eventsCovering t.calendar (t.now / 86400)) t.now

def Tick.events (t : Tick) (db : Db) : List String :=
  sliceTo t.maxEvents (t.inPlay db)

/-- The first loop: `changed` and `errors`. -/
def refreshAll (t : Tick) : Db → List String → Db × List String × List String
  | db, [] => (db, [], [])
  | db, eventKey :: rest =>
      let (db', status) := refreshEvent db eventKey (t.refresh eventKey)
      let (last, changed, errors) := refreshAll t db' rest
      if status ≠ .processed then (last, changed, eventKey :: errors)
      else if storedResults db' eventKey ≠ storedResults db eventKey then
        (last, eventKey :: changed, errors)
      else (last, changed, errors)

/-- The second loop: `rebuilt` and `errors`. -/
def rebuildAll (t : Tick) : State → List String → State × List String × List String
  | s, [] => (s, [], [])
  | s, eventKey :: rest =>
      let (s', ok) := postComputeEvent s eventKey (t.recompute eventKey)
      let (last, rebuilt, errors) := rebuildAll t s' rest
      if ok then (last, eventKey :: rebuilt, errors) else (last, rebuilt, eventKey :: errors)

def ingestEventsInPlay (s : State) (t : Tick) : State × IngestReport :=
  let events := t.events s.db
  let (db, changed, refreshErrors) := refreshAll t s.db events
  let (last, rebuilt, rebuildErrors) := rebuildAll t { s with db := db } changed
  (last,
    { events := events
      skippedOverLimit := sliceFrom t.maxEvents (t.inPlay s.db)
      changed := changed
      rebuilt := rebuilt
      errors := (refreshErrors ++ rebuildErrors).dedup.insertionSort (· ≤ ·) })


/-! ### What one tick does -/

theorem parseAllianceResults_matchKey {eventKey : String} {m : TbaMatch}
    {r : MatchAllianceResult} (h : r ∈ parseAllianceResults eventKey m) :
    r.matchKey = (m.row eventKey).matchKey := by
  cases ht : m.totals with
  | none => simp [parseAllianceResults, ht] at h
  | some totals =>
      simp only [parseAllianceResults, ht, List.mem_cons, List.not_mem_nil, or_false] at h
      rcases h with rfl | rfl <;> rfl

/-- A match is merged before its results are written, so none of them is unknown. -/
theorem results_ingestEvent (db : Db) (eventKey : String) (tbaMatches : List TbaMatch) :
    (ingestEvent db eventKey tbaMatches).results =
      db.results.putAll (tbaMatches.flatMap (parseAllianceResults eventKey)) := by
  apply congrArg db.results.putAll
  apply List.filter_eq_self.mpr
  intro r hr
  obtain ⟨m, hm, hr⟩ := List.mem_flatMap.mp hr
  rw [Table.get?_putAll, Option.isSome_or, List.find?_isSome.mpr, Bool.true_or]
  refine ⟨m.row eventKey, List.mem_reverse.mpr (List.mem_map_of_mem hm), ?_⟩
  exact decide_eq_true (parseAllianceResults_matchKey hr).symm

/-- Every row an ingest writes belongs to its event. -/
theorem rowKey_event {eventKey : String} {tbaMatches : List TbaMatch}
    {r y : MatchAllianceResult} (hr : r ∈ tbaMatches.flatMap (parseAllianceResults eventKey))
    (hy : y.rowKey = r.rowKey) : y.matchKey.event = eventKey := by
  obtain ⟨m, -, hr⟩ := List.mem_flatMap.mp hr
  rw [show y.matchKey = r.matchKey from congrArg Prod.fst hy, parseAllianceResults_matchKey hr]
  rfl

theorem resultsOf_ingestEvent_of_ne (db : Db) {eventKey other : String}
    (tbaMatches : List TbaMatch) (h : other ≠ eventKey) :
    (ingestEvent db eventKey tbaMatches).resultsOf other = db.resultsOf other := by
  rw [Db.resultsOf, results_ingestEvent]
  apply Table.filter_rows_putAll
  intro r hr y hy
  rw [rowKey_event hr hy]
  exact beq_false_of_ne h.symm

theorem resultsOf_ingestEvent_congr {db db' : Db} (eventKey : String)
    (tbaMatches : List TbaMatch) (h : db.resultsOf eventKey = db'.resultsOf eventKey) :
    (ingestEvent db eventKey tbaMatches).resultsOf eventKey =
      (ingestEvent db' eventKey tbaMatches).resultsOf eventKey := by
  rw [Db.resultsOf, Db.resultsOf, results_ingestEvent, results_ingestEvent]
  apply Table.filter_rows_putAll_congr _ h
  intro r hr y hy
  rw [rowKey_event hr hy]
  exact beq_self_eq_true eventKey

theorem resultsOf_refreshEvent_of_ne (db : Db) {eventKey other : String} (r : Refresh)
    (h : other ≠ eventKey) :
    (refreshEvent db eventKey r).1.resultsOf other = db.resultsOf other := by
  cases r with
  | raisedBeforeStoring => rfl
  | raisedAfterStoring tbaMatches | stored tbaMatches =>
      exact resultsOf_ingestEvent_of_ne db tbaMatches h

theorem resultsOf_refreshEvent_congr {db db' : Db} (eventKey : String) (r : Refresh)
    (h : db.resultsOf eventKey = db'.resultsOf eventKey) :
    (refreshEvent db eventKey r).1.resultsOf eventKey =
      (refreshEvent db' eventKey r).1.resultsOf eventKey := by
  cases r with
  | raisedBeforeStoring => exact h
  | raisedAfterStoring tbaMatches | stored tbaMatches =>
      exact resultsOf_ingestEvent_congr eventKey tbaMatches h

/-- The refresh of the event adds rows (none is ever taken away) and reports no error. -/
def Gained (db : Db) (eventKey : String) (r : Refresh) : Prop :=
  (refreshEvent db eventKey r).2 = .processed ∧
    storedResults (refreshEvent db eventKey r).1 eventKey ≠ storedResults db eventKey

instance (db : Db) (eventKey : String) (r : Refresh) : Decidable (Gained db eventKey r) :=
  inferInstanceAs (Decidable (_ ∧ _))

theorem gained_congr {db db' : Db} {eventKey : String} {r : Refresh}
    (h : db.resultsOf eventKey = db'.resultsOf eventKey) :
    Gained db eventKey r ↔ Gained db' eventKey r := by
  have hstatus : (refreshEvent db eventKey r).2 = (refreshEvent db' eventKey r).2 := by
    cases r <;> rfl
  rw [Gained, Gained, storedResults, storedResults, storedResults, storedResults, hstatus, h,
    resultsOf_refreshEvent_congr eventKey r h]

/-- A round of the first loop. -/
theorem refreshAll_cons (t : Tick) (db : Db) (eventKey : String) (rest : List String) :
    (refreshAll t db (eventKey :: rest)).1 =
        (refreshAll t (refreshEvent db eventKey (t.refresh eventKey)).1 rest).1 ∧
      (refreshAll t db (eventKey :: rest)).2.1 =
        (if Gained db eventKey (t.refresh eventKey) then [eventKey] else []) ++
          (refreshAll t (refreshEvent db eventKey (t.refresh eventKey)).1 rest).2.1 := by
  simp only [refreshAll, Gained]
  split
  · rename_i hfailed
    simp [hfailed]
  · rename_i hprocessed
    split <;> simp_all

theorem resultsOf_refreshAll_of_notMem (t : Tick) {other : String} {events : List String}
    (db : Db) (h : other ∉ events) :
    (refreshAll t db events).1.resultsOf other = db.resultsOf other := by
  induction events generalizing db with
  | nil => rfl
  | cons eventKey rest ih =>
      rw [List.mem_cons, not_or] at h
      rw [(refreshAll_cons t db eventKey rest).1, ih _ h.2,
        resultsOf_refreshEvent_of_ne db _ h.1]

/-- An event's refresh is the only one that touches its results. -/
theorem resultsOf_refreshAll (t : Tick) {eventKey : String} {events : List String} (db : Db)
    (hunique : events.Nodup) (h : eventKey ∈ events) :
    (refreshAll t db events).1.resultsOf eventKey =
      (refreshEvent db eventKey (t.refresh eventKey)).1.resultsOf eventKey := by
  induction events generalizing db with
  | nil => cases h
  | cons first rest ih =>
      rw [List.nodup_cons] at hunique
      rw [(refreshAll_cons t db first rest).1]
      by_cases hfirst : eventKey = first
      · subst hfirst
        exact resultsOf_refreshAll_of_notMem t _ hunique.1
      · rw [ih _ hunique.2 ((List.mem_cons.mp h).resolve_left hfirst)]
        apply resultsOf_refreshEvent_congr
        exact resultsOf_refreshEvent_of_ne db _ hfirst

theorem mem_changed (t : Tick) {eventKey : String} {events : List String} (db : Db)
    (hunique : events.Nodup) : eventKey ∈ (refreshAll t db events).2.1 ↔
      eventKey ∈ events ∧ Gained db eventKey (t.refresh eventKey) := by
  induction events generalizing db with
  | nil => simp [refreshAll]
  | cons first rest ih =>
      rw [List.nodup_cons] at hunique
      rw [(refreshAll_cons t db first rest).2, List.mem_append, ih _ hunique.2, List.mem_cons]
      by_cases hfirst : eventKey = first
      · subst hfirst
        simp only [hunique.1, false_and, or_false, true_and]
        split <;> simp_all
      · rw [gained_congr (resultsOf_refreshEvent_of_ne db _ hfirst)]
        have hnot : eventKey ∉ (if Gained db first (t.refresh first) then [first] else []) := by
          split <;> simp [hfirst]
        simp [hfirst, hnot]

theorem rebuildAll_db (t : Tick) (s : State) (events : List String) :
    (rebuildAll t s events).1.db = s.db := by
  induction events generalizing s with
  | nil => rfl
  | cons eventKey rest ih =>
      simp only [rebuildAll]
      split <;> rw [ih] <;> cases t.recompute eventKey <;> rfl

theorem mem_rebuilt (t : Tick) {eventKey : String} {events : List String} (s : State) :
    eventKey ∈ (rebuildAll t s events).2.1 ↔
      eventKey ∈ events ∧ t.recompute eventKey ≠ .raised := by
  induction events generalizing s with
  | nil => simp [rebuildAll]
  | cons first rest ih =>
      simp only [rebuildAll, List.mem_cons]
      cases hr : t.recompute first with
      | written | skipped =>
          simp only [postComputeEvent, ite_true, List.mem_cons, ih]
          by_cases hfirst : eventKey = first
          · simp [hfirst, hr]
          · simp [hfirst]
      | raised =>
          simp only [postComputeEvent, Bool.false_eq_true, ite_false, ih]
          by_cases hfirst : eventKey = first
          · simp [hfirst, hr]
          · simp [hfirst]

theorem builtFrom_rebuildAll (t : Tick) (eventKey : String) (events : List String) (s : State) :
    (rebuildAll t s events).1.builtFrom eventKey =
      if eventKey ∈ events ∧ t.recompute eventKey = .written then s.db.resultsOf eventKey
      else s.builtFrom eventKey := by
  induction events generalizing s with
  | nil => simp [rebuildAll]
  | cons first rest ih =>
      have hcons : (rebuildAll t s (first :: rest)).1 =
          (rebuildAll t (postComputeEvent s first (t.recompute first)).1 rest).1 := by
        simp only [rebuildAll]
        split <;> rfl
      rw [hcons, ih]
      cases hr : t.recompute first with
      | skipped | raised =>
          by_cases hfirst : eventKey = first
          · simp [postComputeEvent, hfirst, hr]
          · simp [postComputeEvent, hfirst]
      | written =>
          by_cases hfirst : eventKey = first
          · subst hfirst
            simp [postComputeEvent, hr, Db.resultsOf]
          · simp [postComputeEvent, hfirst]

theorem nodup_events (t : Tick) (db : Db) : (t.events db).Nodup := by
  have hall : (t.inPlay db).Nodup := by
    simp only [Tick.inPlay, eventsInPlay]
    exact (List.perm_insertionSort _ _).nodup_iff.mpr (List.nodup_dedup _)
  simp only [Tick.events, sliceTo]
  split <;> exact (List.take_sublist _ _).nodup hall

/-! ### Runs of ticks -/

def afterTick (s : State) (t : Tick) : State :=
  (ingestEventsInPlay s t).1

theorem afterTick_resultsOf (s : State) (t : Tick) {eventKey : String}
    (h : eventKey ∈ t.events s.db) : (afterTick s t).db.resultsOf eventKey =
      (refreshEvent s.db eventKey (t.refresh eventKey)).1.resultsOf eventKey := by
  rw [afterTick, ingestEventsInPlay, rebuildAll_db]
  exact resultsOf_refreshAll t s.db (nodup_events t s.db) h

theorem afterTick_resultsOf_of_notMem (s : State) (t : Tick) {eventKey : String}
    (h : eventKey ∉ t.events s.db) :
    (afterTick s t).db.resultsOf eventKey = s.db.resultsOf eventKey := by
  rw [afterTick, ingestEventsInPlay, rebuildAll_db]
  exact resultsOf_refreshAll_of_notMem t s.db h

/-- What a tick rebuilds: the events that gained rows, unless their rebuild raises. -/
theorem mem_report_rebuilt (s : State) (t : Tick) (eventKey : String) :
    eventKey ∈ (ingestEventsInPlay s t).2.rebuilt ↔
      (eventKey ∈ t.events s.db ∧ Gained s.db eventKey (t.refresh eventKey)) ∧
        t.recompute eventKey ≠ .raised := by
  rw [ingestEventsInPlay, mem_rebuilt, mem_changed t s.db (nodup_events t s.db)]

theorem afterTick_builtFrom (s : State) (t : Tick) (eventKey : String) :
    (afterTick s t).builtFrom eventKey =
      if (eventKey ∈ t.events s.db ∧ Gained s.db eventKey (t.refresh eventKey)) ∧
          t.recompute eventKey = .written then
        (afterTick s t).db.resultsOf eventKey
      else s.builtFrom eventKey := by
  rw [afterTick, ingestEventsInPlay, builtFrom_rebuildAll, rebuildAll_db]
  simp only [mem_changed t s.db (nodup_events t s.db)]

/-- The tick takes the event up and a rebuild of its ratings would succeed. -/
def CouldRebuild (s : State) (t : Tick) (eventKey : String) : Prop :=
  eventKey ∈ t.events s.db ∧ t.recompute eventKey = .written

instance (s : State) (t : Tick) (eventKey : String) : Decidable (CouldRebuild s t eventKey) :=
  inferInstanceAs (Decidable (_ ∧ _))

/-- The tick reports the event as rebuilt, and its ratings are built from what is stored. -/
def Rebuilds (s : State) (t : Tick) (eventKey : String) : Prop :=
  eventKey ∈ (ingestEventsInPlay s t).2.rebuilt ∧
    (afterTick s t).builtFrom eventKey = (afterTick s t).db.resultsOf eventKey

instance (s : State) (t : Tick) (eventKey : String) : Decidable (Rebuilds s t eventKey) :=
  inferInstanceAs (Decidable (_ ∧ _))

/-- The next tick that could rebuild the event's ratings, if one comes, does. -/
def NextRebuilds (eventKey : String) : State → List Tick → Prop
  | _, [] => True
  | s, t :: ticks =>
      if CouldRebuild s t eventKey then Rebuilds s t eventKey
      else NextRebuilds eventKey (afterTick s t) ticks

instance decidableNextRebuilds (eventKey : String) :
    ∀ s ticks, Decidable (NextRebuilds eventKey s ticks)
  | _, [] => isTrue True.intro
  | s, t :: ticks =>
      have := decidableNextRebuilds eventKey (afterTick s t) ticks
      inferInstanceAs (Decidable (if CouldRebuild s t eventKey then Rebuilds s t eventKey
        else NextRebuilds eventKey (afterTick s t) ticks))

/-- Whenever a tick could rebuild the event's ratings and the results it leaves stored are not
those they were last built from before it, that tick or the next that could rebuilds them. -/
def ResultsRated (eventKey : String) : State → List Tick → Prop
  | _, [] => True
  | s, t :: ticks =>
      (CouldRebuild s t eventKey →
        (afterTick s t).db.resultsOf eventKey ≠ s.builtFrom eventKey →
        Rebuilds s t eventKey ∨ NextRebuilds eventKey (afterTick s t) ticks) ∧
      ResultsRated eventKey (afterTick s t) ticks

instance decidableResultsRated (eventKey : String) :
    ∀ s ticks, Decidable (ResultsRated eventKey s ticks)
  | _, [] => isTrue True.intro
  | s, t :: ticks =>
      have := decidableResultsRated eventKey (afterTick s t) ticks
      inferInstanceAs (Decidable ((_ → _ → _ ∨ _) ∧ _))

/-- Where a rebuild would succeed, results that differ, once refreshed, from those the event's
ratings were last built from are more rows than before, from a refresh that does not raise. -/
def ChangesNoticed (s : State) (t : Tick) : Prop :=
  ∀ eventKey ∈ t.events s.db, t.recompute eventKey = .written →
    (refreshEvent s.db eventKey (t.refresh eventKey)).1.resultsOf eventKey ≠
      s.builtFrom eventKey →
    Gained s.db eventKey (t.refresh eventKey)

instance (s : State) (t : Tick) : Decidable (ChangesNoticed s t) :=
  inferInstanceAs (Decidable (∀ _ ∈ _, _))

theorem rebuilds_of_noticed {s : State} {t : Tick} {eventKey : String}
    (hnoticed : ChangesNoticed s t) (hcould : CouldRebuild s t eventKey)
    (hbehind : (afterTick s t).db.resultsOf eventKey ≠ s.builtFrom eventKey) :
    Rebuilds s t eventKey := by
  rw [afterTick_resultsOf s t hcould.1] at hbehind
  have hgained := hnoticed eventKey hcould.1 hcould.2 hbehind
  constructor
  · rw [mem_report_rebuilt, hcould.2]
    exact ⟨⟨hcould.1, hgained⟩, by decide⟩
  · rw [afterTick_builtFrom, if_pos ⟨⟨hcould.1, hgained⟩, hcould.2⟩]

/-- One event in play, whose first qualification match has been played. -/
def played (totals : String) : TbaMatch :=
  ⟨"qm1", some 1792359000, none, some 1792359100, some (totals, totals)⟩

def oneEvent (refresh : Refresh) (recompute : Recompute) : Tick :=
  { now := 1792360000
    calendar := [⟨"2026catt", some 20744, some 20745⟩]
    maxEvents := 80
    refresh := fun _ => refresh
    recompute := fun _ => recompute }

def nothingStored : State :=
  ⟨⟨Table.empty, Table.empty⟩, fun _ => []⟩

/-- Every change a refresh stores adds rows, without an error, and is rebuilt at once. -/
def ChangesRebuilt (s : State) (t : Tick) : Prop :=
  ∀ eventKey ∈ t.events s.db,
    (refreshEvent s.db eventKey (t.refresh eventKey)).1.resultsOf eventKey ≠
      s.db.resultsOf eventKey →
    Gained s.db eventKey (t.refresh eventKey) ∧ t.recompute eventKey = .written

/-- Runs of such ticks keep every event's ratings built from what is stored. -/
theorem ratings_current (s : State) (ticks : List Tick)
    (hstart : ∀ eventKey, s.builtFrom eventKey = s.db.resultsOf eventKey)
    (h : Transition.FoldMeets afterTick ChangesRebuilt s ticks) (eventKey : String) :
    (ticks.foldl afterTick s).builtFrom eventKey =
      (ticks.foldl afterTick s).db.resultsOf eventKey := by
  apply @Transition.foldl_invariant _ _ afterTick ChangesRebuilt
    (fun s => ∀ eventKey, s.builtFrom eventKey = s.db.resultsOf eventKey) _ ticks s hstart h
  intro s t hcurrent hok eventKey
  rw [afterTick_builtFrom]
  split
  · rfl
  · rename_i hnot
    rw [hcurrent]
    by_cases hmem : eventKey ∈ t.events s.db
    · rw [afterTick_resultsOf s t hmem]
      by_contra hne
      have hchanged := hok eventKey hmem (Ne.symm hne)
      exact hnot ⟨⟨hmem, hchanged.1⟩, hchanged.2⟩
    · rw [afterTick_resultsOf_of_notMem s t hmem]

end Frcmob.LiveResults
