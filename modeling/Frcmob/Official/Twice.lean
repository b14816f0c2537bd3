import Frcmob.Official.EventIngest
import Mathlib.Data.List.Forall2

/-!
One dataset ingested twice. Everything an ingest stores is a function of the dataset and of rows
no ingest writes, except the weights that split an alliance's fuel: they read the OPRs stored by
the ingest before.
-/

namespace Frcmob.Official

universe u

section Lists
variable {α : Type*} {β : Type*}

/-- The part of an extended list that belongs to none of the new ids. -/
theorem filter_notMem_append {ref : α → Nat} {old added : List α} {ids : List Nat}
    (hold : ∀ x ∈ old, ref x ∉ ids) (hadded : ∀ x ∈ added, ref x ∈ ids) :
    (old ++ added).filter (fun x => ref x ∉ ids) = old := by
  rw [List.filter_append, List.filter_eq_self.mpr fun x hx => decide_eq_true (hold x hx),
    List.filter_eq_nil_iff.mpr fun x hx => by simpa using hadded x hx, List.append_nil]

theorem flatMap_eq_iff_of_length {f g : α → List β} {xs : List α}
    (h : ∀ x ∈ xs, (f x).length = (g x).length) :
    xs.flatMap f = xs.flatMap g ↔ ∀ x ∈ xs, f x = g x := by
  induction xs with
  | nil => simp
  | cons x xs ih =>
      have hlength := h x List.mem_cons_self
      rw [List.flatMap_cons, List.flatMap_cons, List.forall_mem_cons,
        ← ih fun y hy => h y (List.mem_cons_of_mem _ hy)]
      exact ⟨fun heq => List.append_inj heq hlength, fun heq => by rw [heq.1, heq.2]⟩

end Lists

section Ingest
variable {K : Type u}

/-! ### Clearing what a run of the stage added -/

/-- `db'` is `db` with official runs of the event of these ids, and rows of theirs. -/
structure Adds (eventKey : String) (ids : List Nat) (db db' : Db K) : Prop where
  runs : ∃ added, db'.runs = db.runs ++ added ∧ ∀ run ∈ added, run.id ∈ ids
  contexts : ∃ added, db'.contexts = db.contexts ++ added ∧ ∀ x ∈ added, x.runId ∈ ids
  findings : ∃ added, db'.findings = db.findings ++ added ∧ ∀ x ∈ added, x.analysisRunId ∈ ids
  matchEvents : ∃ added, db'.matchEvents = db.matchEvents ++ added ∧
    ∀ x ∈ added, x.analysisRunId ∈ ids
  tracks : db'.tracks = db.tracks
  stale : staleRunIds eventKey db' = staleRunIds eventKey db ++ ids
  fresh : ∀ id ∈ ids, db.nextRun ≤ id
  nextRun : db.nextRun ≤ db'.nextRun

theorem adds_refl (eventKey : String) (db : Db K) : Adds eventKey [] db db where
  runs := ⟨[], by simp, nofun⟩
  contexts := ⟨[], by simp, nofun⟩
  findings := ⟨[], by simp, nofun⟩
  matchEvents := ⟨[], by simp, nofun⟩
  tracks := rfl
  stale := by simp
  fresh := nofun
  nextRun := le_rfl

/-- Rows appended one time after the other. -/
theorem appended_trans {α : Type*} {ref : α → Nat} {ids ids' : List Nat} {xs ys zs : List α}
    (h : ∃ added, ys = xs ++ added ∧ ∀ x ∈ added, ref x ∈ ids)
    (h' : ∃ added, zs = ys ++ added ∧ ∀ x ∈ added, ref x ∈ ids') :
    ∃ added, zs = xs ++ added ∧ ∀ x ∈ added, ref x ∈ ids ++ ids' := by
  obtain ⟨added, rfl, hadded⟩ := h
  obtain ⟨added', rfl, hadded'⟩ := h'
  refine ⟨added ++ added', List.append_assoc _ _ _, fun x hx => List.mem_append.mpr ?_⟩
  exact (List.mem_append.mp hx).imp (hadded x) (hadded' x)

theorem Adds.trans {eventKey : String} {ids ids' : List Nat} {db db' db'' : Db K}
    (h : Adds eventKey ids db db') (h' : Adds eventKey ids' db' db'') :
    Adds eventKey (ids ++ ids') db db'' where
  runs := appended_trans h.runs h'.runs
  contexts := appended_trans h.contexts h'.contexts
  findings := appended_trans h.findings h'.findings
  matchEvents := appended_trans h.matchEvents h'.matchEvents
  tracks := h'.tracks.trans h.tracks
  stale := by rw [h'.stale, h.stale, List.append_assoc]
  fresh id hid := by
    rcases List.mem_append.mp hid with hold | hnew
    · exact h.fresh id hold
    · exact h.nextRun.trans (h'.fresh id hnew)
  nextRun := h.nextRun.trans h'.nextRun

/-- Clearing takes the added runs out again. -/
theorem clear_of_adds {eventKey : String} {ids : List Nat} {db db' : Db K} (hkeyed : db.Keyed)
    (hclean : staleRunIds eventKey db = []) (h : Adds eventKey ids db db') :
    clearExistingScoreBreakdownRows eventKey db' =
      { db' with
        runs := db.runs
        contexts := db.contexts
        findings := db.findings
        matchEvents := db.matchEvents } := by
  have hstale : staleRunIds eventKey db' = ids := by rw [h.stale, hclean, List.nil_append]
  have hold {n : Nat} (hn : n < db.nextRun) : n ∉ ids :=
    fun hmem => absurd (h.fresh n hmem) (Nat.not_le.mpr hn)
  obtain ⟨_, hruns, hruns'⟩ := h.runs
  obtain ⟨_, hcontexts, hcontexts'⟩ := h.contexts
  obtain ⟨_, hfindings, hfindings'⟩ := h.findings
  obtain ⟨_, hevents, hevents'⟩ := h.matchEvents
  have htracks : db'.tracks.filter (fun track => track.analysisRunId ∉ ids) = db'.tracks := by
    rw [h.tracks]
    exact List.filter_eq_self.mpr fun x hx => decide_eq_true (hold (hkeyed.tracks x hx))
  rw [clearExistingScoreBreakdownRows, hstale, htracks, hruns, hcontexts, hfindings, hevents]
  rw [filter_notMem_append (fun x hx => hold (hkeyed.runs x hx)) hruns',
    filter_notMem_append (fun x hx => hold (hkeyed.contexts x hx)) hcontexts',
    filter_notMem_append (fun x hx => hold (hkeyed.findings x hx)) hfindings',
    filter_notMem_append (fun x hx => hold (hkeyed.matchEvents x hx)) hevents']

theorem staleRunIds_clear (eventKey : String) (db : Db K) :
    staleRunIds eventKey (clearExistingScoreBreakdownRows eventKey db) = [] := by
  rw [staleRunIds, List.map_eq_nil_iff, List.filter_eq_nil_iff]
  intro run hrun hofficial
  obtain ⟨hold, hkept⟩ := List.mem_filter.mp hrun
  exact of_decide_eq_true hkept
    (List.mem_map_of_mem (List.mem_filter.mpr ⟨hold, hofficial⟩))

theorem Db.Keyed.clear {db : Db K} (h : db.Keyed) (eventKey : String) :
    (clearExistingScoreBreakdownRows eventKey db).Keyed where
  runs run hrun := h.runs run (List.mem_of_mem_filter hrun)
  contexts x hx := h.contexts x (List.mem_of_mem_filter hx)
  findings x hx := h.findings x (List.mem_of_mem_filter hx)
  matchEvents x hx := h.matchEvents x (List.mem_of_mem_filter hx)
  tracks x hx := h.tracks x (List.mem_of_mem_filter hx)

/-! ### Inserting the runs -/

variable [Field K] [LinearOrder K] [Floats K]

/-- What an insertion of official rows leaves as it was. -/
structure SameInputs (db db' : Db K) : Prop where
  events : db'.events = db.events
  matchRows : db'.matchRows = db.matchRows
  matchTeams : db'.matchTeams = db.matchTeams
  results : db'.results = db.results
  stats : db'.stats = db.stats

omit [Field K] [LinearOrder K] [Floats K] in
theorem SameInputs.trans {db db' db'' : Db K} (h : SameInputs db db') (h' : SameInputs db' db'') :
    SameInputs db db'' :=
  ⟨h'.events.trans h.events, h'.matchRows.trans h.matchRows, h'.matchTeams.trans h.matchTeams,
    h'.results.trans h.results, h'.stats.trans h.stats⟩

theorem sameInputs_insertRun (input : TruthInput K) (m : MatchPayload K) (rows : List (TruthRow K))
    (db : Db K) : SameInputs db (insertRun input m rows db) := by
  unfold insertRun
  split <;> exact ⟨rfl, rfl, rfl, rfl, rfl⟩

theorem analysisRunId_eventsOf {input : TruthInput K} {m : MatchPayload K} {runId : Nat}
    {row : TruthRow K} {event : MatchEvent K} (h : event ∈ eventsOf input m runId row) :
    event.analysisRunId = runId := by
  unfold eventsOf at h
  simp only [List.mem_append] at h
  rcases h with (h | h) | h <;> split at h <;> (try split at h) <;>
    simp only [List.mem_singleton, List.not_mem_nil] at h <;> subst h <;> rfl

theorem adds_insertRun {input : TruthInput K} {m : MatchPayload K} {db : Db K}
    (hmatch : (db.matchRows.get? m.key).any fun row => row.eventKey = input.eventKey)
    (rows : List (TruthRow K)) :
    ∃ ids, Adds input.eventKey ids db (insertRun input m rows db) := by
  unfold insertRun
  split
  · exact ⟨[], adds_refl _ db⟩
  · refine ⟨[db.nextRun], ⟨_, rfl, ?_⟩, ⟨_, rfl, ?_⟩, ⟨_, rfl, ?_⟩, ⟨_, rfl, ?_⟩, rfl, ?_, ?_, ?_⟩
    · simp
    · simp
    · intro finding hfinding
      obtain ⟨_, -, rfl⟩ := List.mem_map.mp hfinding
      exact List.mem_singleton_self _
    · intro event hevent
      obtain ⟨row, -, hrow⟩ := List.mem_flatMap.mp hevent
      exact List.mem_singleton.mpr (analysisRunId_eventsOf hrow)
    · simp [staleRunIds, List.filter_append, hmatch]
    · simp
    · exact Nat.le_succ _

theorem Db.Keyed.insertRun {db : Db K} (h : db.Keyed) (input : TruthInput K) (m : MatchPayload K)
    (rows : List (TruthRow K)) : (insertRun input m rows db).Keyed := by
  unfold Official.insertRun
  split
  · exact h
  · refine ⟨?_, ?_, ?_, ?_, ?_⟩ <;> intro x hx
    · rcases List.mem_append.mp hx with hold | hnew
      · exact Nat.lt_succ_of_lt (h.runs x hold)
      · cases List.mem_singleton.mp hnew
        exact Nat.lt_succ_self _
    · rcases List.mem_append.mp hx with hold | hnew
      · exact Nat.lt_succ_of_lt (h.contexts x hold)
      · cases List.mem_singleton.mp hnew
        exact Nat.lt_succ_self _
    · rcases List.mem_append.mp hx with hold | hnew
      · exact Nat.lt_succ_of_lt (h.findings x hold)
      · obtain ⟨_, -, rfl⟩ := List.mem_map.mp hnew
        exact Nat.lt_succ_self _
    · rcases List.mem_append.mp hx with hold | hnew
      · exact Nat.lt_succ_of_lt (h.matchEvents x hold)
      · obtain ⟨row, -, hrow⟩ := List.mem_flatMap.mp hnew
        exact (analysisRunId_eventsOf hrow).trans_lt (Nat.lt_succ_self _)
    · exact Nat.lt_succ_of_lt (h.tracks x hx)

theorem fields_insertRun (input : TruthInput K) (m : MatchPayload K) (rows : List (TruthRow K))
    (db : Db K) : (insertRun input m rows db).findings.map TeamMatchFinding.fields =
      db.findings.map TeamMatchFinding.fields ++ rows.map (findingOf input m) := by
  unfold insertRun
  split
  · rename_i hempty
    rw [List.isEmpty_iff.mp hempty, List.map_nil, List.append_nil]
  · rw [List.map_append, List.map_map]
    congr 1
    calc rows.zipIdx.map (findingOf input m ∘ Prod.fst)
        = (rows.zipIdx.map Prod.fst).map (findingOf input m) := (List.map_map ..).symm
      _ = rows.map (findingOf input m) := by rw [List.zipIdx_map_fst]

/-- The loop of the stage, from any state of it on. -/
theorem insertRuns_spec {input : TruthInput K} {weights : TeamNumbers K} {cleared : Db K}
    {matchList : List (MatchPayload K)}
    (hmatches : ∀ m ∈ matchList,
      (cleared.matchRows.get? m.key).any fun row => row.eventKey = input.eventKey)
    {db : Db K} (hsame : SameInputs cleared db) :
    let official (m : MatchPayload K) :=
      (truthRows input weights m).filter (isStored cleared input.eventKey m)
    let stored := matchList.foldl (fun db m => insertRun input m (official m) db) db
    (∃ ids, Adds input.eventKey ids db stored) ∧ SameInputs cleared stored ∧
      stored.findings.map TeamMatchFinding.fields =
        db.findings.map TeamMatchFinding.fields ++
          matchList.flatMap fun m => (official m).map (findingOf input m) := by
  intro official stored
  induction matchList generalizing db with
  | nil => exact ⟨⟨[], adds_refl _ db⟩, hsame, (List.append_nil _).symm⟩
  | cons m matchList ih =>
      have hmatch := hmatches m List.mem_cons_self
      rw [← hsame.matchRows] at hmatch
      obtain ⟨ids, hadds⟩ := adds_insertRun hmatch (official m)
      obtain ⟨⟨ids', hrest⟩, hsame', hfields⟩ :=
        ih (fun n hn => hmatches n (List.mem_cons_of_mem _ hn))
          (hsame.trans (sameInputs_insertRun input m (official m) db))
      refine ⟨⟨ids ++ ids', hadds.trans hrest⟩, hsame', hfields.trans ?_⟩
      rw [fields_insertRun, List.flatMap_cons, List.append_assoc]

theorem Db.Keyed.insertRuns {cleared : Db K} (h : cleared.Keyed) (input : TruthInput K)
    (weights : TeamNumbers K) (matchList : List (MatchPayload K)) :
    (Official.insertRuns input weights matchList cleared).Keyed := by
  suffices hloop : ∀ db : Db K, db.Keyed → (matchList.foldl (fun db m => Official.insertRun input m
      ((truthRows input weights m).filter (isStored cleared input.eventKey m)) db) db).Keyed from
    hloop cleared h
  induction matchList with
  | nil => exact fun _ hdb => hdb
  | cons m matchList ih => exact fun db hdb => ih _ (hdb.insertRun input m _)

/-! ### One ingest -/

/-- The state whose rows the stage of the official findings reads. -/
def prepared (d : Dataset K) (db : Db K) : Db K :=
  clearExistingScoreBreakdownRows d.eventKey
    (writeMatchLineups (lineupLinks d) (mergeEvent d db)).1

/-- The weights of the dataset's teams. -/
def weightsFrom (d : Dataset K) (db : Db K) : TeamNumbers K :=
  computeTeamFuelWeightPriors db d.eventKey d.event.year (matchTeamKeys d.matchList)

/-- The statistics with the dataset's. -/
def newStats (d : Dataset K) (db : Db K) : Table (@EventTeamStat.key K) :=
  db.stats.putAll (statRowsOf d.eventKey d.oprs)

theorem ingested_of_unknown {config : Option (GameConfig K)} {d : Dataset K}
    (h : rebuiltSeasonYear < d.event.year) (db : Db K) : ingested config d db = db := by
  have hraise : (requireKnownSeasonRules (inputOf config d).seasonYear
      "event score-breakdown ingestion" : Except String PUnit.{u + 1}) = .error _ := if_pos h
  simp only [ingested, ingestEvent, upsertScoreBreakdownTruth, hraise]
  rfl

theorem ingested_of_known {config : Option (GameConfig K)} {d : Dataset K}
    (h : ¬ rebuiltSeasonYear < d.event.year) (db : Db K) :
    ingested config d db =
      let stored := insertRuns (inputOf config d) (weightsFrom d (prepared d db)) d.matchList
        (prepared d db)
      { stored with
        results := stored.results.putAll (resultRows (inputOf config d) d.matchList
          stored.matchRows)
        stats := newStats d stored } := by
  have hpass : (requireKnownSeasonRules (inputOf config d).seasonYear
      "event score-breakdown ingestion" : Except String PUnit.{u + 1}) = .ok ⟨⟩ := if_neg h
  simp only [ingested, ingestEvent, upsertScoreBreakdownTruth, hpass]
  rfl

omit [Field K] [LinearOrder K] in
theorem Db.Keyed.prepared {db : Db K} (h : db.Keyed) (d : Dataset K) :
    (prepared d db).Keyed := by
  have hmerged : (writeMatchLineups (lineupLinks d) (mergeEvent d db)).1.Keyed :=
    ⟨h.runs, h.contexts, h.findings, h.matchEvents, h.tracks⟩
  exact hmerged.clear d.eventKey

theorem Db.Keyed.ingested {db : Db K} (h : db.Keyed) (config : Option (GameConfig K))
    (d : Dataset K) : (ingested config d db).Keyed := by
  by_cases hyear : rebuiltSeasonYear < d.event.year
  · rw [ingested_of_unknown hyear]
    exact h
  · rw [ingested_of_known hyear]
    have hstored := (h.prepared d).insertRuns (inputOf config d)
      (weightsFrom d (Official.prepared d db)) d.matchList
    exact ⟨hstored.runs, hstored.contexts, hstored.findings, hstored.matchEvents, hstored.tracks⟩

omit [Field K] [LinearOrder K] in
/-- The dataset's matches are stored under its event before the findings are. -/
theorem match_prepared {d : Dataset K} {m : MatchPayload K} (hm : m ∈ d.matchList) (db : Db K) :
    ((prepared d db).matchRows.get? m.key).any fun row => row.eventKey = d.eventKey := by
  have hget : (prepared d db).matchRows.get? m.key =
      (db.matchRows.putAll (d.matchList.map (matchOf d.eventKey))).get? m.key := rfl
  have hfound : ((d.matchList.map (matchOf d.eventKey)).reverse.find? fun row =>
      row.matchKey = m.key).isSome :=
    List.find?_isSome.mpr ⟨matchOf d.eventKey m,
      List.mem_reverse.mpr (List.mem_map_of_mem hm), by simp [matchOf]⟩
  obtain ⟨row, hrow⟩ := Option.isSome_iff_exists.mp hfound
  obtain ⟨n, -, rfl⟩ := List.mem_map.mp (List.mem_reverse.mp (List.mem_of_find?_eq_some hrow))
  rw [hget, Table.get?_putAll, hrow]
  exact decide_eq_true rfl

/-! ### The second ingest -/

/-- The rows of a match that are stored as official findings. -/
def officialRows (config : Option (GameConfig K)) (d : Dataset K) (db : Db K)
    (weights : TeamNumbers K) (m : MatchPayload K) : List (TruthRow K) :=
  (truthRows (inputOf config d) weights m).filter (isStored db d.eventKey m)

theorem stored_spec (config : Option (GameConfig K)) (d : Dataset K) (db : Db K)
    (weights : TeamNumbers K) :
    let stored := insertRuns (inputOf config d) weights d.matchList (prepared d db)
    (∃ ids, Adds d.eventKey ids (prepared d db) stored) ∧ SameInputs (prepared d db) stored ∧
      stored.findings.map TeamMatchFinding.fields =
        (prepared d db).findings.map TeamMatchFinding.fields ++
          d.matchList.flatMap fun m =>
            (officialRows config d (prepared d db) weights m).map (findingOf (inputOf config d) m) :=
  @insertRuns_spec K _ _ _ (inputOf config d) weights (prepared d db) d.matchList
    (fun _ hm => match_prepared hm db) (prepared d db) ⟨rfl, rfl, rfl, rfl, rfl⟩

/-- What the second ingest finds when it comes to the official findings. -/
theorem prepared_ingested {config : Option (GameConfig K)} {d : Dataset K}
    (hyear : ¬ rebuiltSeasonYear < d.event.year) {db : Db K} (hkeyed : db.Keyed) :
    (prepared d (ingested config d db)).findings = (prepared d db).findings ∧
    (prepared d (ingested config d db)).matchRows = (prepared d db).matchRows ∧
    (prepared d (ingested config d db)).events = (prepared d db).events ∧
    (prepared d (ingested config d db)).stats = newStats d db ∧
    (prepared d (ingested config d db)).results =
      db.results.putAll (resultRows (inputOf config d) d.matchList (prepared d db).matchRows) := by
  obtain ⟨⟨ids, hadds⟩, hsame, -⟩ := stored_spec config d db (weightsFrom d (prepared d db))
  rw [ingested_of_known hyear]
  generalize insertRuns (inputOf config d) (weightsFrom d (prepared d db)) d.matchList
    (prepared d db) = stored at hadds hsame
  dsimp only
  generalize hmerged : (writeMatchLineups (lineupLinks d) (mergeEvent d
    { stored with
      results := stored.results.putAll (resultRows (inputOf config d) d.matchList stored.matchRows)
      stats := newStats d stored })).1 = merged
  have hevents : merged.events = (prepared d db).events := by
    rw [← hmerged]
    exact (congrArg (Table.put · d.event) hsame.events).trans (Table.putAll_putAll _ [d.event])
  have hmatches : merged.matchRows = (prepared d db).matchRows := by
    rw [← hmerged]
    exact (congrArg (Table.putAll · _) hsame.matchRows).trans (Table.putAll_putAll _ _)
  have hmerge : Adds d.eventKey ids (prepared d db) merged := by
    refine ⟨?_, ?_, ?_, ?_, ?_, ?_, hadds.fresh, ?_⟩
    · rw [← hmerged]; exact hadds.runs
    · rw [← hmerged]; exact hadds.contexts
    · rw [← hmerged]; exact hadds.findings
    · rw [← hmerged]; exact hadds.matchEvents
    · rw [← hmerged]; exact hadds.tracks
    · rw [← hadds.stale, staleRunIds, staleRunIds, hmatches, hsame.matchRows, ← hmerged]
      rfl
    · rw [← hmerged]; exact hadds.nextRun
  have hprepared := clear_of_adds (hkeyed.prepared d) (staleRunIds_clear _ _) hmerge
  have hagain : prepared d { stored with
      results := stored.results.putAll (resultRows (inputOf config d) d.matchList stored.matchRows)
      stats := newStats d stored } = clearExistingScoreBreakdownRows d.eventKey merged := by
    rw [← hmerged]
    rfl
  rw [hagain, hprepared]
  refine ⟨rfl, hmatches, hevents, ?_, ?_⟩
  · rw [← hmerged]
    exact congrArg (Table.putAll · _) hsame.stats
  · rw [← hmerged]
    dsimp only [writeMatchLineups, mergeEvent]
    rw [hsame.results, hsame.matchRows]
    rfl

/-! ### Rows under two sets of weights -/

/-- Rows of one robot, which differ at most in its part of the teleop fuel. -/
structure Twin (row row' : TruthRow K) : Prop where
  teamKey : row'.teamKey = row.teamKey
  alliance : row'.alliance = row.alliance
  station : row'.station = row.station
  autoPoints : row'.autoPoints = row.autoPoints
  climbPoints : row'.climbPoints = row.climbPoints
  climbSuccess : row'.climbSuccess = row.climbSuccess

omit [Field K] [LinearOrder K] [Floats K] in
theorem twins_map {α : Type*} {f g : α → TruthRow K} (h : ∀ x, Twin (f x) (g x)) (xs : List α) :
    List.Forall₂ Twin (xs.map f) (xs.map g) := by
  induction xs with
  | nil => exact .nil
  | cons x xs ih => exact .cons (h x) ih

theorem twins_parse (seasonYear : Int) (teamKeys : List String) (alliance : String)
    (breakdown : Obj K) (context : Context K) (weights weights' : TeamNumbers K)
    (coprs : Option (TeamNumbers K)) :
    List.Forall₂ Twin (parseAllianceTruth seasonYear teamKeys alliance breakdown context weights coprs)
      (parseAllianceTruth seasonYear teamKeys alliance breakdown context weights' coprs) := by
  unfold parseAllianceTruth
  split
  · unfold parse2026AllianceTruth
    cases teleopCount2026 breakdown
    refine twins_map ?_ _
    exact fun _ => ⟨rfl, rfl, rfl, rfl, rfl, rfl⟩
  split
  · unfold parse2025AllianceTruth
    refine twins_map ?_ _
    exact fun _ => ⟨rfl, rfl, rfl, rfl, rfl, rfl⟩
  · unfold parseGenericAllianceTruth
    refine twins_map ?_ _
    exact fun _ => ⟨rfl, rfl, rfl, rfl, rfl, rfl⟩

theorem twins_truthRows (input : TruthInput K) (weights weights' : TeamNumbers K)
    (m : MatchPayload K) :
    List.Forall₂ Twin (truthRows input weights m) (truthRows input weights' m) := by
  unfold truthRows
  split
  · exact .nil
  unfold extractScoreBreakdownTruthRows
  split
  · refine List.rel_flatMap (List.forall₂_same.mpr fun _ _ => rfl) ?_
    rintro alliance _ rfl
    dsimp only
    split
    · exact twins_parse ..
    · exact .nil
  · exact .nil

theorem isStored_twin (db : Db K) (eventKey : String) (m : MatchPayload K) {row row' : TruthRow K}
    (h : Twin row row') : isStored db eventKey m row' = isStored db eventKey m row := by
  rw [isStored, isStored, h.teamKey, h.alliance]

/-- Twins are stored as one finding if the fuel gives them one rate and one note of its split. -/
theorem findingOf_twin (input : TruthInput K) (m : MatchPayload K) {row row' : TruthRow K}
    (h : Twin row row') :
    findingOf input m row = findingOf input m row' ↔
      fuelScoringRate (lengthsOf input.context input.seasonYear) row =
        fuelScoringRate (lengthsOf input.context input.seasonYear) row' ∧
      row.status = row'.status := by
  constructor
  · intro heq
    refine ⟨Option.some.inj (congrArg FindingFields.fuelScoringRate heq), ?_⟩
    have hsummary := congrArg (fun fields => fields.summary.dict.get "status") heq
    exact Json.obj.inj hsummary
  · rintro ⟨hrate, hstatus⟩
    have hauto : autoPointsOf row' = autoPointsOf row := by
      rw [autoPointsOf, autoPointsOf, h.autoPoints]
    rw [findingOf, findingOf, hrate, hstatus, hauto, h.teamKey, h.alliance, h.station,
      h.climbPoints, h.climbSuccess]

/-- Robot by robot, what the two splits give the rows that are stored. -/
def SplitAlike (config : Option (GameConfig K)) (d : Dataset K) (db : Db K)
    (rows rows' : List (TruthRow K)) (m : MatchPayload K) : Prop :=
  let lengths := lengthsOf (truthContext config) d.event.year
  List.Forall₂ (fun row row' => isStored db d.eventKey m row →
    fuelScoringRate lengths row = fuelScoringRate lengths row' ∧ row.status = row'.status) rows rows'

theorem splitAlike_iff {config : Option (GameConfig K)} {d : Dataset K} {db : Db K}
    {m : MatchPayload K} {rows rows' : List (TruthRow K)} (h : List.Forall₂ Twin rows rows') :
    SplitAlike config d db rows rows' m ↔
      (rows.filter (isStored db d.eventKey m)).map (findingOf (inputOf config d) m) =
        (rows'.filter (isStored db d.eventKey m)).map (findingOf (inputOf config d) m) := by
  unfold SplitAlike
  induction h with
  | nil => simp
  | cons htwin _ ih =>
      rw [List.forall₂_cons, ih, List.filter_cons, List.filter_cons, isStored_twin _ _ _ htwin]
      split
      · rename_i hstored
        rw [List.map_cons, List.map_cons, List.cons.injEq, findingOf_twin _ _ htwin]
        simp [hstored, inputOf]
      · rename_i hblocked
        simp [hblocked]

theorem length_filter_twins {db : Db K} {eventKey : String} {m : MatchPayload K}
    {rows rows' : List (TruthRow K)} (h : List.Forall₂ Twin rows rows') :
    (rows.filter (isStored db eventKey m)).length =
      (rows'.filter (isStored db eventKey m)).length := by
  induction h with
  | nil => rfl
  | cons htwin _ ih =>
      rw [List.filter_cons, List.filter_cons, isStored_twin _ _ _ htwin]
      split
      · rw [List.length_cons, List.length_cons, ih]
      · exact ih

/-! ### When the second ingest changes nothing -/

/-- The database as its promises about ids hold. -/
def Store (K : Type u) : Type u := { db : Db K // db.Keyed }

def Store.ingest (config : Option (GameConfig K)) (d : Dataset K) (store : Store K) : Store K :=
  ⟨ingested config d store.val, store.property.ingested config d⟩

/-- The findings, results and statistics are the same, up to row ids. -/
structure SameRecords (store store' : Store K) : Prop where
  findings : store'.val.findings.map TeamMatchFinding.fields =
    store.val.findings.map TeamMatchFinding.fields
  results : store'.val.results = store.val.results
  stats : store'.val.stats = store.val.stats

/-- Every robot that gets an official finding gets the same part of its alliance's fuel, per
minute and to four places, by the OPRs stored before the ingest and by those of the dataset. -/
def SplitsAlike (config : Option (GameConfig K)) (d : Dataset K) (store : Store K) : Prop :=
  let db := prepared d store.val
  let before := weightsFrom d db
  let after := weightsFrom d { db with stats := newStats d db }
  d.event.year ≤ rebuiltSeasonYear → ∀ m ∈ d.matchList,
    SplitAlike config d db (truthRows (inputOf config d) before m)
      (truthRows (inputOf config d) after m) m

theorem fields_ingested (config : Option (GameConfig K)) {d : Dataset K}
    (hyear : ¬ rebuiltSeasonYear < d.event.year) (db : Db K) :
    (ingested config d db).findings.map TeamMatchFinding.fields =
      (prepared d db).findings.map TeamMatchFinding.fields ++ d.matchList.flatMap fun m =>
        (officialRows config d (prepared d db) (weightsFrom d (prepared d db)) m).map
          (findingOf (inputOf config d) m) := by
  rw [ingested_of_known hyear]
  exact (stored_spec config d db (weightsFrom d (prepared d db))).2.2

theorem results_ingested {config : Option (GameConfig K)} {d : Dataset K}
    (hyear : ¬ rebuiltSeasonYear < d.event.year) (db : Db K) :
    (ingested config d db).results = (prepared d db).results.putAll
      (resultRows (inputOf config d) d.matchList (prepared d db).matchRows) := by
  have hsame := (stored_spec config d db (weightsFrom d (prepared d db))).2.1
  rw [ingested_of_known hyear]
  dsimp only
  rw [hsame.results, hsame.matchRows]

theorem stats_ingested {config : Option (GameConfig K)} {d : Dataset K}
    (hyear : ¬ rebuiltSeasonYear < d.event.year) (db : Db K) :
    (ingested config d db).stats = newStats d (prepared d db) := by
  have hsame := (stored_spec config d db (weightsFrom d (prepared d db))).2.1
  rw [ingested_of_known hyear]
  dsimp only
  rw [newStats, hsame.stats]
  rfl

/-- The weights read four tables. -/
theorem weightsFrom_congr (d : Dataset K) {db db' : Db K} (hfindings : db'.findings = db.findings)
    (hmatches : db'.matchRows = db.matchRows) (hevents : db'.events = db.events)
    (hstats : db'.stats = db.stats) : weightsFrom d db' = weightsFrom d db := by
  unfold weightsFrom computeTeamFuelWeightPriors samplesByTeam sampleRows
  rw [hfindings, hmatches, hevents, hstats]

theorem isStored_congr {db db' : Db K} (h : db'.findings = db.findings) (eventKey : String)
    (m : MatchPayload K) : isStored db' eventKey m = isStored db eventKey m := by
  unfold isStored hasUsableFinding
  rw [h]

theorem splitAlike_refl (config : Option (GameConfig K)) (d : Dataset K) (db : Db K)
    (rows : List (TruthRow K)) (m : MatchPayload K) : SplitAlike config d db rows rows m :=
  List.forall₂_same.mpr fun _ _ _ => ⟨rfl, rfl⟩

/-- Once a dataset is ingested its own OPRs are the stored ones, and splits agree. -/
theorem splitsAlike_ingest (config : Option (GameConfig K)) (d : Dataset K) (store : Store K)
    (hyear : ¬ rebuiltSeasonYear < d.event.year) :
    SplitsAlike config d (store.ingest config d) := by
  obtain ⟨-, -, -, hstats, -⟩ :=
    @prepared_ingested K _ _ _ config d hyear store.val store.property
  have hagain : newStats d (prepared d (ingested config d store.val)) =
      (prepared d (ingested config d store.val)).stats := by
    rw [newStats, hstats]
    exact Table.putAll_putAll _ _
  intro _ m _
  have hweights := @weightsFrom_congr K _ _ _ d (prepared d (ingested config d store.val))
    { prepared d (ingested config d store.val) with
      stats := newStats d (prepared d (ingested config d store.val)) } rfl rfl rfl hagain
  dsimp only [Store.ingest]
  rw [hweights]
  exact splitAlike_refl ..

/-- Ingesting a dataset again leaves the same findings, results and statistics exactly if the
dataset's OPRs split every alliance's fuel as the OPRs stored before did. -/
theorem sameRecords_ingest_iff (config : Option (GameConfig K)) (d : Dataset K)
    (store : Store K) :
    SameRecords (store.ingest config d) ((store.ingest config d).ingest config d) ↔
      SplitsAlike config d store := by
  by_cases hyear : rebuiltSeasonYear < d.event.year
  · have hsame : store.ingest config d = store := Subtype.ext (ingested_of_unknown hyear _)
    rw [hsame, hsame]
    exact ⟨fun _ hle => absurd hyear (Int.not_lt.mpr hle), fun _ => ⟨rfl, rfl, rfl⟩⟩
  obtain ⟨hfindings, hmatches, hevents, hstats, hresults⟩ :=
    @prepared_ingested K _ _ _ config d hyear store.val store.property
  have hfirst := fields_ingested config hyear store.val
  have hsecond := fields_ingested config hyear (ingested config d store.val)
  have hweights : weightsFrom d (prepared d (ingested config d store.val)) =
      weightsFrom d { prepared d store.val with stats := newStats d (prepared d store.val) } :=
    weightsFrom_congr d hfindings hmatches hevents hstats
  have hstored (weights : TeamNumbers K) (m : MatchPayload K) :
      officialRows config d (prepared d (ingested config d store.val)) weights m =
        officialRows config d (prepared d store.val) weights m := by
    rw [officialRows, officialRows, isStored_congr hfindings]
  simp only [hfindings, hweights, hstored] at hsecond
  have hresults' : (ingested config d (ingested config d store.val)).results =
      (ingested config d store.val).results := by
    rw [results_ingested hyear, hmatches, hresults]
    exact (Table.putAll_putAll _ _).trans (results_ingested hyear store.val).symm
  have hstats' : (ingested config d (ingested config d store.val)).stats =
      (ingested config d store.val).stats := by
    rw [stats_ingested hyear, newStats, hstats]
    exact (Table.putAll_putAll _ _).trans (stats_ingested hyear store.val).symm
  have hsplits : SplitsAlike config d store ↔
      (ingested config d (ingested config d store.val)).findings.map TeamMatchFinding.fields =
        (ingested config d store.val).findings.map TeamMatchFinding.fields := by
    rw [hfirst, hsecond, List.append_cancel_left_eq, flatMap_eq_iff_of_length]
    · unfold SplitsAlike
      simp only [Int.not_lt.mp hyear, forall_const]
      refine forall₂_congr fun m _ => ?_
      rw [splitAlike_iff (twins_truthRows ..)]
      exact eq_comm
    · intro m _
      rw [List.length_map, List.length_map]
      exact length_filter_twins (twins_truthRows ..)
  rw [hsplits]
  exact ⟨fun h => h.findings, fun h => ⟨h, hresults', hstats'⟩⟩

end Ingest

/-! ### A first ingest that the second one changes -/

def emptyDb : Db ℚ where
  events := .empty
  matchRows := .empty
  matchTeams := .empty
  runs := []
  contexts := []
  findings := []
  matchEvents := []
  tracks := []
  results := .empty
  stats := .empty
  nextRun := 1
  nextFinding := 1

theorem keyed_emptyDb : emptyDb.Keyed := by
  constructor <;> exact fun _ h => absurd h List.not_mem_nil

def emptyStore : Store ℚ := ⟨emptyDb, keyed_emptyDb⟩

/-- One match in which red scored 40 points of fuel, and the OPR of one of its robots. -/
def oneMatchEvent : Dataset ℚ where
  eventKey := "2026demo"
  event := ⟨"2026demo", "Demo", 2026⟩
  matchList := [{
    key := "2026demo_qm1"
    compLevel := "qm"
    setNumber := 1
    matchNumber := 1
    time := .int 1772000000
    predictedTime := .null
    actualTime := .null
    winningAlliance := .str "red"
    alliances := some fun alliance => some
      (if alliance = "red" then ⟨.int 40, ["frc1", "frc2", "frc3"], [], []⟩
        else ⟨.int 0, ["frc4", "frc5", "frc6"], [], []⟩)
    scoreBreakdown := some fun alliance =>
      if alliance = "red" then some [("hubScore", .obj [("teleopPoints", .int 40)])]
      else some [("hubScore", .obj [("teleopPoints", .int 0)])] }]
  coprs := none
  oprs := some (.obj [("oprs", .obj [("frc1", .float (25 / 2))])])

/-- The first ingest splits red's fuel evenly, the second by the OPR the first one stored. -/
theorem ingest_again_moves_fuel :
    ¬ SameRecords (emptyStore.ingest none oneMatchEvent)
      ((emptyStore.ingest none oneMatchEvent).ingest none oneMatchEvent) := by
  intro h
  have hrates := congrArg (List.map FindingFields.fuelScoringRate) h.findings
  revert hrates
  decide +kernel

end Frcmob.Official
