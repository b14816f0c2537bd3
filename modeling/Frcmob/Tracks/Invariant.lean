import Frcmob.Tracks.Ingest

/-!
What holds of the rows and of every open request while recordings are ingested and reviewed. The
lock on a match's row keeps two ingests from working on one session; nothing keeps a review from
committing between an ingest's reading of the session and its commit.
-/

namespace Frcmob.Tracks
open Assignments (Match)
open AutoScout (SessionStatus)
open Transition

/-- The tracks that an ingest of the payload stores. -/
def recordingRows (server : TracksServer) (db : TrackDb) (m : Match) (runId : Nat)
    (payload : OnDevicePayload) : List RobotTrack :=
  match matchPoints server db m payload with
  | .ok (points, _) => trackRows db m runId points
  | .error _ => []

/-- What an ingest decides from the rows it reads. -/
structure Decided (server : TracksServer) (db : TrackDb) (m : Match) (newRunId : Nat)
    (plan : IngestPlan) : Prop where
  locked : plan.lockedMatch = m
  rows : plan.rows = recordingRows server db m plan.session.analysisRunId plan.payload
  created : plan.target = .create → plan.session.analysisRunId = newRunId ∧
    plan.session.matchKey = m.matchKey ∧ plan.session.status = .provisional
  rewritten : ∀ id, plan.target = .rewrite id → ∃ session ∈ db.sessions, session.id = id ∧
    session.analysisRunId = plan.session.analysisRunId ∧ session.matchKey = m.matchKey ∧
    session.status = .provisional

theorem decided_of_planSession {server : TracksServer} {db : TrackDb} {m : Match}
    {payload : OnDevicePayload} {workspaceId : Option Nat} {points : PointsByTeam}
    {skipped : List String} {values : Nat → Nat → OnDeviceSession} {newRunId : Nat}
    {plan : IngestPlan} (hpoints : matchPoints server db m payload = .ok (points, skipped))
    (hvalues : ∀ id runId, (values id runId).analysisRunId = runId ∧
      (values id runId).matchKey = m.matchKey ∧ (values id runId).status = .provisional)
    (h : planSession server db m payload workspaceId points values newRunId = .ok plan) :
    Decided server db m newRunId plan := by
  have hrows : ∀ runId, recordingRows server db m runId payload = trackRows db m runId points := by
    intro runId
    rw [recordingRows, hpoints]
  simp only [planSession] at h
  split at h
  · rename_i existing hfind
    have hin := List.mem_of_find?_eq_some hfind
    split at h
    · cases h
    · rename_i hmatch
      have hkey : existing.matchKey = m.matchKey := not_not.mp hmatch
      split at h
      · rename_i hprovisional
        cases h
        refine ⟨rfl, ?_, (fun hcreate => by cases hcreate), ?_⟩
        · rw [hrows, (hvalues _ _).1]
        · rintro id hid
          cases hid
          exact ⟨existing, hin, rfl, (hvalues _ _).1.symm, hkey, hprovisional⟩
      · split at h
        · cases h
        · cases h
          exact ⟨rfl, (hrows _).symm, (fun hcreate => by cases hcreate),
            fun id hid => by cases hid⟩
  · split at h
    · cases h
    · cases h
      refine ⟨rfl, ?_, fun _ => hvalues _ _, fun id hid => by cases hid⟩
      rw [hrows, (hvalues _ _).1]

theorem decided_of_planIngest {server : TracksServer} {db : TrackDb} {m : Match}
    {body : OnDeviceSessionRequest} {identity : String} {workspaceId : Option Nat}
    {newRunId : Nat} {plan : IngestPlan}
    (h : planIngest server db m body identity workspaceId newRunId = .ok plan) :
    Decided server db m newRunId plan := by
  simp only [planIngest, bind, Except.bind] at h
  split at h
  · cases h
  · split at h
    · cases h
    · split at h
      · cases h
      · rename_i hpoints
        split at h
        · cases h
        · exact decided_of_planSession hpoints (fun _ _ => ⟨rfl, rfl, rfl⟩) h

/-! ### Rows of a run -/

theorem filter_diff {α : Type*} [DecidableEq α] (p : α → Bool) (xs ys : List α) :
    (xs.diff ys).filter p = (xs.filter p).diff ys := by
  induction ys generalizing xs with
  | nil => rw [List.diff_nil, List.diff_nil]
  | cons y ys ih => rw [List.diff_cons, List.diff_cons, ih, List.erase_filter]

theorem diff_self {α : Type*} [DecidableEq α] (xs : List α) : xs.diff xs = [] := by
  induction xs with
  | nil => rfl
  | cons x xs ih => rw [List.diff_cons, List.erase_cons_head, ih]

theorem diff_of_disjoint {α : Type*} [DecidableEq α] {xs ys : List α}
    (h : ∀ y ∈ ys, y ∉ xs) : xs.diff ys = xs := by
  induction ys with
  | nil => exact List.diff_nil xs
  | cons y ys ih =>
      rw [List.diff_cons, List.erase_of_not_mem (h y List.mem_cons_self)]
      exact ih fun z hz => h z (List.mem_cons_of_mem _ hz)

theorem runTracks_trackRows {db : TrackDb} {m : Match} {runId : Nat} {points : PointsByTeam}
    {row : RobotTrack} (h : row ∈ trackRows db m runId points) : row.analysisRunId = runId := by
  rw [trackRows, List.mem_flatMap] at h
  obtain ⟨team, -, hrow⟩ := h
  split at hrow
  · cases hrow
  · obtain ⟨point, -, rfl⟩ := List.mem_map.mp hrow
    rfl

theorem analysisRunId_of_recordingRows {server : TracksServer} {db : TrackDb} {m : Match}
    {runId : Nat} {payload : OnDevicePayload} {row : RobotTrack}
    (h : row ∈ recordingRows server db m runId payload) : row.analysisRunId = runId := by
  rw [recordingRows] at h
  split at h
  · exact runTracks_trackRows h
  · cases h

/-! ### The invariant -/

/-- An ingest that is to rewrite a session is about to store what the session already has, if the
session has been reviewed since. -/
structure PlanHolds (server : TracksServer) (st : TracksState) (plan : IngestPlan) : Prop where
  rows : plan.rows =
    recordingRows server st.db plan.lockedMatch plan.session.analysisRunId plan.payload
  created : plan.target = .create → plan.session.analysisRunId < st.nextRunId ∧
    plan.session.matchKey = plan.lockedMatch.matchKey ∧ plan.session.status = .provisional ∧
    ∀ session ∈ st.db.sessions, session.analysisRunId ≠ plan.session.analysisRunId
  rewritten : ∀ id, plan.target = .rewrite id → ∃ session ∈ st.db.sessions, session.id = id ∧
    session.analysisRunId = plan.session.analysisRunId ∧
    session.matchKey = plan.lockedMatch.matchKey ∧
    (session.status ≠ .provisional →
      st.db.runTracks plan.session.analysisRunId = plan.rows)

/-- What holds of an open request. -/
def WorkHolds (server : TracksServer) (st : TracksState) : Work → Prop
  | .locked .. => True
  | .planned plan => PlanHolds server st plan
  | .cleared plan removed => PlanHolds server st plan ∧ removed = plan.deletedRows st.db
  | .stored plan removed added =>
      PlanHolds server st plan ∧ removed = plan.deletedRows st.db ∧ added = plan.insertedRows
  | .review loaded _ => ∃ session ∈ st.db.sessions, session.id = loaded.id ∧
      session.matchKey = loaded.matchKey

structure Inv (server : TracksServer) (st : TracksState) : Prop where
  ids : (st.db.sessions.map (·.id)).Nodup
  idsBelow : ∀ session ∈ st.db.sessions, session.id < st.nextSessionId
  runs : (st.db.sessions.map (·.analysisRunId)).Nodup
  runsBelow : ∀ session ∈ st.db.sessions, session.analysisRunId < st.nextRunId
  owned : ∀ row ∈ st.db.tracks, ∃ session ∈ st.db.sessions,
    session.analysisRunId = row.analysisRunId
  locks : ∀ i w key, st.work i = some w → w.lockedMatch = some key → st.rowLock key = some i
  holds : ∀ i w, st.work i = some w → WorkHolds server st w
  apart : ∀ i j w w' plan plan', st.work i = some w → st.work j = some w' →
    w.plan = some plan → w'.plan = some plan' → plan.target = .create → plan'.target = .create →
    plan.session.analysisRunId = plan'.session.analysisRunId → i = j

theorem planHolds_of_work {server : TracksServer} {st : TracksState} {w : Work} {plan : IngestPlan}
    (h : WorkHolds server st w) (hplan : w.plan = some plan) : PlanHolds server st plan := by
  cases w with
  | locked => cases hplan
  | planned => cases hplan; exact h
  | cleared => cases hplan; exact h.1
  | stored => cases hplan; exact h.1
  | review => cases hplan

theorem lockedMatch_of_plan {w : Work} {plan : IngestPlan} (h : w.plan = some plan) :
    w.lockedMatch = some plan.lockedMatch.matchKey := by
  cases w with
  | locked => cases h
  | planned => cases h; rfl
  | cleared => cases h; rfl
  | stored => cases h; rfl
  | review => cases h

/-! ### Steps that write nothing -/

section Frames
variable {server : TracksServer} {st : TracksState} {i : Nat}

theorem finish_work {j : Nat} {w : Work} (h : (st.finish i).work j = some w) :
    j ≠ i ∧ st.work j = some w := by
  simp only [TracksState.finish, TracksState.setWork] at h
  split at h
  · cases h
  · rename_i hne
    exact ⟨hne, h⟩

theorem finish_rowLock {key : String} {j : Nat} (hne : j ≠ i) (h : st.rowLock key = some j) :
    (st.finish i).rowLock key = some j := by
  have hij : st.rowLock key ≠ some i := by
    rw [h]
    exact fun he => hne (Option.some.inj he)
  change (if st.rowLock key = some i then none else st.rowLock key) = some j
  rw [if_neg hij, h]

theorem planHolds_congr {plan : IngestPlan} (h : PlanHolds server st plan) {st' : TracksState}
    (hdb : st'.db = st.db) (hrun : st.nextRunId ≤ st'.nextRunId) : PlanHolds server st' plan := by
  refine ⟨?_, ?_, ?_⟩
  · rw [hdb]
    exact h.rows
  · intro hcreate
    obtain ⟨hlt, hmatch, hstatus, hfresh⟩ := h.created hcreate
    rw [hdb]
    exact ⟨by omega, hmatch, hstatus, hfresh⟩
  · rw [hdb]
    exact h.rewritten

theorem workHolds_congr {w : Work} (h : WorkHolds server st w) {st' : TracksState}
    (hdb : st'.db = st.db) (hrun : st.nextRunId ≤ st'.nextRunId) : WorkHolds server st' w := by
  cases w with
  | locked => exact True.intro
  | planned plan => exact planHolds_congr h hdb hrun
  | cleared plan removed => exact ⟨planHolds_congr h.1 hdb hrun, hdb ▸ h.2⟩
  | stored plan removed added => exact ⟨planHolds_congr h.1 hdb hrun, hdb ▸ h.2.1, h.2.2⟩
  | review loaded body =>
      simp only [WorkHolds, hdb]
      exact h

theorem inv_finish (h : Inv server st) : Inv server (st.finish i) := by
  constructor
  case ids => exact h.ids
  case idsBelow => exact h.idsBelow
  case runs => exact h.runs
  case runsBelow => exact h.runsBelow
  case owned => exact h.owned
  case locks =>
    intro j w key hw hkey
    obtain ⟨hne, hwork⟩ := finish_work hw
    exact finish_rowLock hne (h.locks j w key hwork hkey)
  case holds =>
    intro j w hw
    exact workHolds_congr (h.holds j w (finish_work hw).2) rfl (Nat.le_refl _)
  case apart =>
    intro j k w w' plan plan' hw hw'
    exact h.apart j k w w' plan plan' (finish_work hw).2 (finish_work hw').2

/-- One request moves on and no committed row changes. -/
theorem inv_advance (h : Inv server st) (st' : TracksState) {w : Work} (hdb : st'.db = st.db)
    (hid : st'.nextSessionId = st.nextSessionId) (hrun : st.nextRunId ≤ st'.nextRunId)
    (hself : st'.work i = some w) (hothers : ∀ j, j ≠ i → st'.work j = st.work j)
    (hkept : ∀ j key, j ≠ i → st.rowLock key = some j → st'.rowLock key = some j)
    (hlock : ∀ key, w.lockedMatch = some key → st'.rowLock key = some i)
    (hholds : WorkHolds server st' w)
    (hfresh : ∀ plan, w.plan = some plan → plan.target = .create → ∀ j w' plan', j ≠ i →
      st.work j = some w' → w'.plan = some plan' → plan'.target = .create →
      plan.session.analysisRunId ≠ plan'.session.analysisRunId) : Inv server st' := by
  constructor
  case ids => rw [hdb]; exact h.ids
  case idsBelow => rw [hdb, hid]; exact h.idsBelow
  case runs => rw [hdb]; exact h.runs
  case runsBelow =>
    rw [hdb]
    exact fun session hs => Nat.lt_of_lt_of_le (h.runsBelow session hs) hrun
  case owned => rw [hdb]; exact h.owned
  case locks =>
    intro j v key hv hkey
    by_cases hj : j = i
    · subst hj
      rw [hself] at hv
      cases hv
      exact hlock key hkey
    · rw [hothers j hj] at hv
      exact hkept j key hj (h.locks j v key hv hkey)
  case holds =>
    intro j v hv
    by_cases hj : j = i
    · subst hj
      rw [hself] at hv
      cases hv
      exact hholds
    · rw [hothers j hj] at hv
      exact workHolds_congr (h.holds j v hv) hdb hrun
  case apart =>
    intro j k v v' plan plan' hv hv' hplan hplan' hcreate hcreate' heq
    by_cases hj : j = i
    · by_cases hk : k = i
      · rw [hj, hk]
      · subst hj
        rw [hself] at hv
        cases hv
        rw [hothers k hk] at hv'
        exact absurd heq (hfresh plan hplan hcreate k v' plan' hk hv' hplan' hcreate')
    · rw [hothers j hj] at hv
      by_cases hk : k = i
      · subst hk
        rw [hself] at hv'
        cases hv'
        exact absurd heq.symm (hfresh plan' hplan' hcreate' j v plan hj hv hplan hcreate)
      · rw [hothers k hk] at hv'
        exact h.apart j k v v' plan plan' hv hv' hplan hplan' hcreate hcreate' heq

theorem inv_lockMatch (h : Inv server st) {body : OnDeviceSessionRequest} {t : TracksState}
    (hstep : tracksStep server st (.lockMatch i body) = some t) : Inv server t := by
  simp only [tracksStep] at hstep
  split at hstep
  · cases hstep
  · rename_i hidle
    split at hstep
    · cases hstep
      exact h
    · split at hstep
      · cases hstep
        exact h
      · split at hstep
        · cases hstep
        · rename_i m _ hfree
          cases hstep
          have hnone : st.rowLock m.matchKey = none := by simpa using hfree
          refine inv_advance h _ rfl rfl (Nat.le_refl _) (if_pos rfl) (fun j hj => if_neg hj) ?_ ?_
            True.intro fun plan hplan => by cases hplan
          · intro j key hj hkey
            have hne : key ≠ m.matchKey := by
              rintro rfl
              rw [hnone] at hkey
              cases hkey
            exact (if_neg hne).trans hkey
          · intro key hkey
            cases hkey
            exact if_pos rfl

theorem inv_readSession (h : Inv server st) {t : TracksState}
    (hstep : tracksStep server st (.readSession i) = some t) : Inv server t := by
  simp only [tracksStep] at hstep
  split at hstep
  · rename_i m body identity workspaceId hwork
    split at hstep
    · cases hstep
      exact inv_finish h
    · rename_i plan hplan
      cases hstep
      have hdecided := decided_of_planIngest hplan
      have hlock : st.rowLock m.matchKey = some i := h.locks i _ _ hwork rfl
      refine inv_advance h _ rfl rfl (Nat.le_add_right _ _) (if_pos rfl) (fun j hj => if_neg hj)
        (fun j key _ hkey => hkey) ?_ ⟨?_, ?_, ?_⟩ ?_
      · intro key hkey
        cases hkey
        rw [hdecided.locked]
        exact hlock
      · rw [hdecided.locked]
        exact hdecided.rows
      · intro hcreate
        obtain ⟨hrun, hmatch, hstatus⟩ := hdecided.created hcreate
        refine ⟨?_, hdecided.locked ▸ hmatch, hstatus, ?_⟩
        · simp only [hcreate, if_true]
          omega
        · intro session hs heq
          have hlt := h.runsBelow session hs
          omega
      · intro id hid
        obtain ⟨session, hs, hsid, hrun, hmatch, hstatus⟩ := hdecided.rewritten id hid
        exact ⟨session, hs, hsid, hrun, hdecided.locked ▸ hmatch,
          fun hreviewed => absurd hstatus hreviewed⟩
      · intro plan' hplan' hcreate j w' other _ hw' hother hcreate' heq
        cases hplan'
        have hlt := ((planHolds_of_work (h.holds j w' hw') hother).created hcreate').1
        have hrun := (hdecided.created hcreate).1
        omega
  · cases hstep

theorem inv_deleteTracks (h : Inv server st) {t : TracksState}
    (hstep : tracksStep server st (.deleteTracks i) = some t) : Inv server t := by
  simp only [tracksStep] at hstep
  split at hstep
  · rename_i plan hwork
    cases hstep
    have hplan : PlanHolds server st plan := h.holds i _ hwork
    refine inv_advance h _ rfl rfl (Nat.le_refl _) (if_pos rfl) (fun j hj => if_neg hj)
      (fun j key _ hkey => hkey) (fun key hkey => h.locks i _ key hwork hkey)
      ⟨planHolds_congr hplan rfl (Nat.le_refl _), rfl⟩ ?_
    intro plan' hplan' hcreate j w' other hj hw' hother hcreate' heq
    exact hj (h.apart i j _ w' plan' other hwork hw' hplan' hother hcreate hcreate' heq).symm
  · cases hstep

theorem inv_insertTracks (h : Inv server st) {t : TracksState}
    (hstep : tracksStep server st (.insertTracks i) = some t) : Inv server t := by
  simp only [tracksStep] at hstep
  split at hstep
  · rename_i plan removed hwork
    cases hstep
    have hcleared := h.holds i _ hwork
    refine inv_advance h _ rfl rfl (Nat.le_refl _) (if_pos rfl) (fun j hj => if_neg hj)
      (fun j key _ hkey => hkey) (fun key hkey => h.locks i _ key hwork hkey)
      ⟨planHolds_congr hcleared.1 rfl (Nat.le_refl _), hcleared.2, rfl⟩ ?_
    intro plan' hplan' hcreate j w' other hj hw' hother hcreate' heq
    exact hj (h.apart i j _ w' plan' other hwork hw' hplan' hother hcreate hcreate' heq).symm
  · cases hstep

theorem inv_loadReview (h : Inv server st) {sessionId : Nat}
    {body : OnDeviceSessionReviewRequest} {t : TracksState}
    (hstep : tracksStep server st (.loadReview i sessionId body) = some t) : Inv server t := by
  simp only [tracksStep] at hstep
  split at hstep
  · cases hstep
  · split at hstep
    · cases hstep
      exact h
    · rename_i session hfind
      split at hstep
      · cases hstep
        exact h
      · cases hstep
        exact inv_advance h _ rfl rfl (Nat.le_refl _) (if_pos rfl) (fun j hj => if_neg hj)
          (fun j key _ hkey => hkey) (fun key hkey => by cases hkey)
          ⟨session, List.mem_of_find?_eq_some hfind, rfl, rfl⟩ fun plan hplan => by cases hplan

end Frames

/-! ### Commits -/

/-- No review commits while an ingest that is to rewrite its session is about to store other
tracks than the session has. -/
def reviewSettled (st : TracksState) : Action → Bool
  | .commitReview i _ =>
      match st.work i with
      | some (.review loaded _) =>
          match ((st.rowLock loaded.matchKey).bind st.work).bind Work.plan with
          | some plan => plan.target ≠ .rewrite loaded.id ∨
              st.db.runTracks plan.session.analysisRunId = plan.rows
          | none => true
      | _ => true
  | _ => true

theorem recordingRows_congr {server : TracksServer} {db db' : TrackDb} {m : Match} {runId : Nat}
    {payload : OnDevicePayload} (h : db'.matchTeams = db.matchTeams) :
    recordingRows server db' m runId payload = recordingRows server db m runId payload := by
  have hteams : teamByLower db' = teamByLower db := by
    funext matchKey teamLower
    rw [teamByLower, teamByLower, h]
  simp only [recordingRows, matchPoints, trackRows, hteams]

section Commits
variable {server : TracksServer} {st : TracksState} {i : Nat}

theorem reviewSession_same (loaded : OnDeviceSession) (body : OnDeviceSessionReviewRequest)
    (now : Nat) (session : OnDeviceSession) :
    (reviewSession loaded body now session).id = session.id ∧
      (reviewSession loaded body now session).analysisRunId = session.analysisRunId ∧
      (reviewSession loaded body now session).matchKey = session.matchKey := by
  unfold reviewSession
  split
  · exact ⟨rfl, rfl, rfl⟩
  · exact ⟨rfl, rfl, rfl⟩

theorem reviewSession_of_ne {loaded session : OnDeviceSession}
    {body : OnDeviceSessionReviewRequest} {now : Nat} (h : session.id ≠ loaded.id) :
    reviewSession loaded body now session = session :=
  if_neg h

theorem eq_of_id (h : Inv server st) {a b : OnDeviceSession} (ha : a ∈ st.db.sessions)
    (hb : b ∈ st.db.sessions) (heq : a.id = b.id) : a = b :=
  List.inj_on_of_nodup_map h.ids ha hb heq

theorem eq_of_run (h : Inv server st) {a b : OnDeviceSession} (ha : a ∈ st.db.sessions)
    (hb : b ∈ st.db.sessions) (heq : a.analysisRunId = b.analysisRunId) : a = b :=
  List.inj_on_of_nodup_map h.runs ha hb heq

theorem inv_commitReview (h : Inv server st) {now : Nat} {t : TracksState}
    (hok : reviewSettled st (.commitReview i now) = true)
    (hstep : tracksStep server st (.commitReview i now) = some t) : Inv server t := by
  simp only [tracksStep] at hstep
  split at hstep
  · rename_i loaded body hwork
    cases hstep
    have hsame := reviewSession_same loaded body now
    have hplans : ∀ j w plan, j ≠ i → st.work j = some w → w.plan = some plan →
        PlanHolds server { st.finish i with
          db := { st.db with sessions := st.db.sessions.map (reviewSession loaded body now) } } plan := by
      intro j w plan hj hw hplan
      have hold := planHolds_of_work (h.holds j w hw) hplan
      refine ⟨hold.rows.trans (recordingRows_congr rfl).symm, ?_, ?_⟩
      · intro hcreate
        obtain ⟨hlt, hmatch, hstatus, hfresh⟩ := hold.created hcreate
        refine ⟨hlt, hmatch, hstatus, ?_⟩
        intro session hs
        obtain ⟨old, hin, rfl⟩ := List.mem_map.mp hs
        rw [(hsame old).2.1]
        exact hfresh old hin
      · intro id hid
        obtain ⟨session, hs, hsid, hrun, hmatch, hsettled⟩ := hold.rewritten id hid
        refine ⟨_, List.mem_map_of_mem hs, (hsame session).1.trans hsid,
          (hsame session).2.1.trans hrun, (hsame session).2.2.trans hmatch, ?_⟩
        intro hreviewed
        by_cases hreview : session.id = loaded.id
        · obtain ⟨stored, hstored, hstoredId, hstoredMatch⟩ := h.holds i _ hwork
          have heq := eq_of_id h hs hstored (hreview.trans hstoredId.symm)
          have hlock : st.rowLock loaded.matchKey = some j := by
            rw [← hstoredMatch, ← heq, hmatch]
            exact h.locks j w _ hw (lockedMatch_of_plan hplan)
          simp only [reviewSettled, hwork, hlock, Option.bind_some, hw, hplan,
            Bool.decide_or, Bool.or_eq_true, decide_eq_true_eq] at hok
          exact hok.resolve_left fun hne => hne (by rw [hid, ← hsid, hreview])
        · rw [reviewSession_of_ne hreview] at hreviewed
          exact hsettled hreviewed
    constructor
    case ids =>
      have hids : (st.db.sessions.map (reviewSession loaded body now)).map (·.id) = st.db.sessions.map (·.id) := by
        rw [List.map_map]
        exact List.map_congr_left fun session _ => (hsame session).1
      exact hids ▸ h.ids
    case idsBelow =>
      intro session hs
      obtain ⟨old, hin, rfl⟩ := List.mem_map.mp hs
      rw [(hsame old).1]
      exact h.idsBelow old hin
    case runs =>
      have hruns : (st.db.sessions.map (reviewSession loaded body now)).map (·.analysisRunId) =
          st.db.sessions.map (·.analysisRunId) := by
        rw [List.map_map]
        exact List.map_congr_left fun session _ => (hsame session).2.1
      exact hruns ▸ h.runs
    case runsBelow =>
      intro session hs
      obtain ⟨old, hin, rfl⟩ := List.mem_map.mp hs
      rw [(hsame old).2.1]
      exact h.runsBelow old hin
    case owned =>
      intro row hrow
      obtain ⟨session, hs, hrun⟩ := h.owned row hrow
      exact ⟨_, List.mem_map_of_mem hs, (hsame session).2.1.trans hrun⟩
    case locks =>
      intro j w key hw hkey
      obtain ⟨hj, hold⟩ := finish_work hw
      exact finish_rowLock hj (h.locks j w key hold hkey)
    case holds =>
      intro j w hw
      obtain ⟨hj, hold⟩ := finish_work hw
      have hholds := h.holds j w hold
      cases w with
      | locked => exact True.intro
      | planned plan => exact hplans j _ plan hj hold rfl
      | cleared plan removed => exact ⟨hplans j _ plan hj hold rfl, hholds.2⟩
      | stored plan removed added => exact ⟨hplans j _ plan hj hold rfl, hholds.2⟩
      | review other otherBody =>
          obtain ⟨session, hs, hid, hmatch⟩ := hholds
          exact ⟨_, List.mem_map_of_mem hs, (hsame session).1.trans hid,
            (hsame session).2.2.trans hmatch⟩
    case apart =>
      intro j k w w' plan plan' hw hw'
      exact h.apart j k w w' plan plan' (finish_work hw).2 (finish_work hw').2
  · cases hstep

/-- The session's row as its review left it. -/
structure SameReview (a b : OnDeviceSession) : Prop where
  id : b.id = a.id
  run : b.analysisRunId = a.analysisRunId
  matchKey : b.matchKey = a.matchKey
  status : b.status = a.status
  note : b.reviewNote = a.reviewNote
  reviewedAt : b.reviewedAt = a.reviewedAt

theorem SameReview.refl (a : OnDeviceSession) : SameReview a a :=
  ⟨rfl, rfl, rfl, rfl, rfl, rfl⟩

theorem runTracks_diff_append {db : TrackDb} {runId r : Nat} {rows : List RobotTrack}
    (hrows : ∀ row ∈ rows, row.analysisRunId = runId) :
    (db.tracks.diff (db.runTracks runId) ++ rows).filter (·.analysisRunId = r) =
      if r = runId then rows else db.runTracks r := by
  rw [List.filter_append, filter_diff]
  by_cases hr : r = runId
  · subst hr
    have hall : rows.filter (·.analysisRunId = r) = rows :=
      List.filter_eq_self.mpr fun row hrow => by simpa using hrows row hrow
    rw [if_pos rfl, hall]
    exact (congrArg (· ++ rows) (diff_self (db.runTracks r))).trans (List.nil_append rows)
  · have hnone : rows.filter (·.analysisRunId = r) = [] := by
      rw [List.filter_eq_nil_iff]
      intro row hrow
      rw [hrows row hrow]
      simpa using Ne.symm hr
    rw [if_neg hr, hnone, List.append_nil]
    apply diff_of_disjoint
    intro row hrow hin
    have hrun := of_decide_eq_true (List.mem_filter.mp hrow).2
    have hrun' := of_decide_eq_true (List.mem_filter.mp hin).2
    exact hr (hrun'.symm.trans hrun)

/-- What an ingest's commit does to the rows. -/
structure Committed (db db' : TrackDb) (newId : Nat) (plan : IngestPlan) : Prop where
  teams : db'.matchTeams = db.matchTeams
  self : db' = db ∨ db'.runTracks plan.session.analysisRunId = plan.rows ∧
    ∃ session ∈ db'.sessions, session.analysisRunId = plan.session.analysisRunId
  preserved : ∀ id, plan.target = .preserve id → db' = db
  other : ∀ r, r ≠ plan.session.analysisRunId → db'.runTracks r = db.runTracks r
  kept : ∀ session ∈ db.sessions, ∃ session' ∈ db'.sessions, SameReview session session'
  found : ∀ session' ∈ db'.sessions, (∃ session ∈ db.sessions, SameReview session session') ∨
    plan.target = .create ∧ session' = { plan.session with id := newId }
  ids : (db'.sessions.map (·.id)) = db.sessions.map (·.id) ∨
    plan.target = .create ∧ db'.sessions.map (·.id) = db.sessions.map (·.id) ++ [newId]
  runs : (db'.sessions.map (·.analysisRunId)) = db.sessions.map (·.analysisRunId) ∨
    plan.target = .create ∧ db'.sessions.map (·.analysisRunId) =
      db.sessions.map (·.analysisRunId) ++ [plan.session.analysisRunId]

theorem committed_of_commitPlan (h : Inv server st) {plan : IngestPlan}
    (hplan : PlanHolds server st plan) {newId : Nat} {db' : TrackDb}
    (hcommit : commitPlan st.db newId plan (plan.deletedRows st.db) plan.insertedRows =
      some db') : Committed st.db db' newId plan := by
  have hrows : ∀ row ∈ plan.rows, row.analysisRunId = plan.session.analysisRunId := by
    intro row hrow
    rw [hplan.rows] at hrow
    exact analysisRunId_of_recordingRows hrow
  cases htarget : plan.target with
  | create =>
      obtain ⟨-, -, -, hfresh⟩ := hplan.created htarget
      simp only [commitPlan, htarget, IngestPlan.insertedRows] at hcommit
      split at hcommit
      · cases hcommit
      · cases hcommit
        have hnone : st.db.runTracks plan.session.analysisRunId = [] := by
          rw [TrackDb.runTracks, List.filter_eq_nil_iff]
          intro row hrow hrun
          obtain ⟨session, hs, hsrun⟩ := h.owned row hrow
          exact hfresh session hs (hsrun.trans (of_decide_eq_true hrun))
        have hself : plan.rows.filter (·.analysisRunId = plan.session.analysisRunId) = plan.rows :=
          List.filter_eq_self.mpr fun row hrow => by simpa using hrows row hrow
        constructor
        case teams => rfl
        case self =>
          refine .inr ⟨?_, _, List.mem_append_right _ List.mem_cons_self, rfl⟩
          rw [TrackDb.runTracks, List.filter_append, hself]
          exact (congrArg (· ++ plan.rows) hnone).trans (List.nil_append _)
        case preserved =>
          intro id hid
          rw [htarget] at hid
          cases hid
        case other =>
          intro r hr
          have hempty : plan.rows.filter (·.analysisRunId = r) = [] := by
            rw [List.filter_eq_nil_iff]
            intro row hrow
            rw [hrows row hrow]
            simpa using Ne.symm hr
          rw [TrackDb.runTracks, List.filter_append, hempty, List.append_nil]
          rfl
        case kept =>
          exact fun session hs => ⟨session, List.mem_append_left _ hs, SameReview.refl session⟩
        case found =>
          intro session hs
          cases List.mem_append.mp hs with
          | inl hin => exact .inl ⟨session, hin, SameReview.refl session⟩
          | inr hin => exact .inr ⟨htarget, List.mem_singleton.mp hin⟩
        case ids => exact .inr ⟨htarget, List.map_append⟩
        case runs => exact .inr ⟨htarget, List.map_append⟩
  | rewrite id =>
      simp only [commitPlan, htarget, IngestPlan.insertedRows, IngestPlan.deletedRows,
        Option.some.injEq] at hcommit
      subst hcommit
      have hsame : ∀ session, SameReview session
          (if session.id = id then rewriteSession plan session else session) := by
        intro session
        split
        · exact ⟨rfl, rfl, rfl, rfl, rfl, rfl⟩
        · exact SameReview.refl session
      constructor
      case teams => rfl
      case self =>
        obtain ⟨session, hs, -, hrun, -⟩ := hplan.rewritten id htarget
        refine .inr ⟨?_, _, List.mem_map_of_mem hs, (hsame session).run.trans hrun⟩
        rw [TrackDb.runTracks, runTracks_diff_append hrows, if_pos rfl]
      case preserved =>
        intro id hid
        rw [htarget] at hid
        cases hid
      case other =>
        intro r hr
        rw [TrackDb.runTracks, runTracks_diff_append hrows, if_neg hr]
      case kept => exact fun session hs => ⟨_, List.mem_map_of_mem hs, hsame session⟩
      case found =>
        intro session hs
        obtain ⟨old, hin, rfl⟩ := List.mem_map.mp hs
        exact .inl ⟨old, hin, hsame old⟩
      case ids =>
        refine .inl ?_
        rw [List.map_map]
        exact List.map_congr_left fun session _ => (hsame session).id
      case runs =>
        refine .inl ?_
        rw [List.map_map]
        exact List.map_congr_left fun session _ => (hsame session).run
  | preserve id =>
      simp only [commitPlan, htarget, Option.some.injEq] at hcommit
      subst hcommit
      exact ⟨rfl, .inl rfl, fun _ _ => rfl, fun _ _ => rfl, fun session hs => ⟨session, hs, SameReview.refl _⟩,
        fun session hs => .inl ⟨session, hs, SameReview.refl _⟩, .inl rfl, .inl rfl⟩

/-- Two ingests that write do not write to one run. -/
theorem run_ne_of_plans (h : Inv server st) {j : Nat} {w w' : Work} {plan plan' : IngestPlan}
    (hij : i ≠ j) (hw : st.work i = some w) (hw' : st.work j = some w') (hplan : w.plan = some plan)
    (hplan' : w'.plan = some plan') (hwrites : ∀ id, plan.target ≠ .preserve id) {id : Nat}
    (htarget : plan'.target = .rewrite id) :
    plan'.session.analysisRunId ≠ plan.session.analysisRunId := by
  intro heq
  have hholds := planHolds_of_work (h.holds i w hw) hplan
  obtain ⟨session', hs', -, hrun', hmatch', -⟩ :=
    (planHolds_of_work (h.holds j w' hw') hplan').rewritten id htarget
  cases hkind : plan.target with
  | create =>
      obtain ⟨-, -, -, hfresh⟩ := hholds.created hkind
      exact hfresh session' hs' (hrun'.trans heq)
  | rewrite id' =>
      obtain ⟨session, hs, -, hrun, hmatch, -⟩ := hholds.rewritten id' hkind
      have hsession := eq_of_run h hs hs' (hrun.trans (heq.symm.trans hrun'.symm))
      have hlock := h.locks i w _ hw (lockedMatch_of_plan hplan)
      have hlock' := h.locks j w' _ hw' (lockedMatch_of_plan hplan')
      rw [← hmatch, hsession, hmatch', hlock'] at hlock
      exact hij (Option.some.inj hlock).symm
  | preserve id' => exact hwrites id' hkind

theorem inv_commitIngest (h : Inv server st) {t : TracksState}
    (hstep : tracksStep server st (.commitIngest i) = some t) : Inv server t := by
  simp only [tracksStep] at hstep
  split at hstep
  · rename_i plan removed added hwork
    obtain ⟨hplan, rfl, rfl⟩ := h.holds i _ hwork
    split at hstep
    · cases hstep
      exact inv_finish h
    · rename_i db' hcommit
      cases hstep
      have hc := committed_of_commitPlan h hplan hcommit
      have hruns : ∀ j w plan' id, j ≠ i → st.work j = some w → w.plan = some plan' →
          plan'.target = .rewrite id → db'.runTracks plan'.session.analysisRunId =
            st.db.runTracks plan'.session.analysisRunId := by
        intro j w plan' id hj hw hplan' htarget
        by_cases hpreserve : ∃ id, plan.target = .preserve id
        · obtain ⟨id', hid'⟩ := hpreserve
          rw [hc.preserved id' hid']
        · apply hc.other
          exact run_ne_of_plans h (Ne.symm hj) hwork hw rfl hplan'
            (fun id' hid' => hpreserve ⟨id', hid'⟩) htarget
      have hplans : ∀ j w plan', j ≠ i → st.work j = some w → w.plan = some plan' →
          PlanHolds server { st.finish i with
            db := db', nextSessionId := st.nextSessionId + 1 } plan' := by
        intro j w plan' hj hw hplan'
        have hold := planHolds_of_work (h.holds j w hw) hplan'
        refine ⟨hold.rows.trans (recordingRows_congr hc.teams).symm, ?_, ?_⟩
        · intro hcreate
          obtain ⟨hlt, hmatch, hstatus, hfresh⟩ := hold.created hcreate
          refine ⟨hlt, hmatch, hstatus, ?_⟩
          intro session hs
          cases hc.found session hs with
          | inl hin =>
              obtain ⟨old, hold, hsame⟩ := hin
              rw [hsame.run]
              exact hfresh old hold
          | inr hnew =>
              obtain ⟨hkind, rfl⟩ := hnew
              intro heq
              exact hj (h.apart i j _ w plan plan' hwork hw rfl hplan' hkind hcreate heq).symm
        · intro id hid
          obtain ⟨session, hs, hsid, hrun, hmatch, hsettled⟩ := hold.rewritten id hid
          obtain ⟨session', hs', hsame⟩ := hc.kept session hs
          refine ⟨session', hs', hsame.id.trans hsid, hsame.run.trans hrun,
            hsame.matchKey.trans hmatch, ?_⟩
          intro hreviewed
          rw [hsame.status] at hreviewed
          exact (hruns j w plan' id hj hw hplan' hid).trans (hsettled hreviewed)
      have hdeleted : ∀ j w plan', j ≠ i → st.work j = some w → w.plan = some plan' →
          plan'.deletedRows st.db = plan'.deletedRows db' := by
        intro j w plan' hj hw hplan'
        cases htarget : plan'.target with
        | create => simp only [IngestPlan.deletedRows, htarget]
        | rewrite id =>
            simp only [IngestPlan.deletedRows, htarget]
            exact (hruns j w plan' id hj hw hplan' htarget).symm
        | preserve id => simp only [IngestPlan.deletedRows, htarget]
      constructor
      case ids =>
        cases hc.ids with
        | inl heq => exact heq ▸ h.ids
        | inr hnew =>
            rw [hnew.2, List.nodup_append]
            refine ⟨h.ids, List.nodup_singleton _, ?_⟩
            intro a ha b hb hab
            obtain ⟨session, hs, rfl⟩ := List.mem_map.mp ha
            have hlt := h.idsBelow session hs
            rw [List.mem_singleton] at hb
            omega
      case idsBelow =>
        intro session hs
        cases hc.found session hs with
        | inl hin =>
            obtain ⟨old, hold, hsame⟩ := hin
            have hlt := h.idsBelow old hold
            rw [hsame.id]
            exact Nat.lt_succ_of_lt hlt
        | inr hnew =>
            rw [hnew.2]
            exact Nat.lt_succ_self _
      case runs =>
        cases hc.runs with
        | inl heq => exact heq ▸ h.runs
        | inr hnew =>
            obtain ⟨-, -, -, hfresh⟩ := hplan.created hnew.1
            rw [hnew.2, List.nodup_append]
            refine ⟨h.runs, List.nodup_singleton _, ?_⟩
            intro a ha b hb hab
            obtain ⟨session, hs, rfl⟩ := List.mem_map.mp ha
            exact hfresh session hs (hab.trans (List.mem_singleton.mp hb))
      case runsBelow =>
        intro session hs
        cases hc.found session hs with
        | inl hin =>
            obtain ⟨old, hold, hsame⟩ := hin
            rw [hsame.run]
            exact h.runsBelow old hold
        | inr hnew =>
            rw [hnew.2]
            exact (hplan.created hnew.1).1
      case owned =>
        intro row hrow
        by_cases hrun : row.analysisRunId = plan.session.analysisRunId
        · cases hc.self with
          | inl heq =>
              have hrow' : row ∈ db'.tracks := hrow
              rw [heq] at hrow'
              obtain ⟨session, hs, hsrun⟩ := h.owned row hrow'
              exact ⟨session, heq ▸ hs, hsrun⟩
          | inr hstored =>
              obtain ⟨-, session, hs, hsrun⟩ := hstored
              exact ⟨session, hs, hsrun.trans hrun.symm⟩
        · have hin : row ∈ db'.runTracks row.analysisRunId :=
            List.mem_filter.mpr ⟨hrow, by simp⟩
          rw [hc.other _ hrun] at hin
          obtain ⟨session, hs, hsrun⟩ := h.owned row (List.mem_of_mem_filter hin)
          obtain ⟨session', hs', hsame⟩ := hc.kept session hs
          exact ⟨session', hs', hsame.run.trans hsrun⟩
      case locks =>
        intro j w key hw hkey
        obtain ⟨hj, hold⟩ := finish_work hw
        exact finish_rowLock hj (h.locks j w key hold hkey)
      case holds =>
        intro j w hw
        obtain ⟨hj, hold⟩ := finish_work hw
        have hholds := h.holds j w hold
        cases w with
        | locked => exact True.intro
        | planned plan' => exact hplans j _ plan' hj hold rfl
        | cleared plan' removed =>
            exact ⟨hplans j _ plan' hj hold rfl, hholds.2.trans (hdeleted j _ plan' hj hold rfl)⟩
        | stored plan' removed added =>
            exact ⟨hplans j _ plan' hj hold rfl,
              hholds.2.1.trans (hdeleted j _ plan' hj hold rfl), hholds.2.2⟩
        | review loaded body =>
            obtain ⟨session, hs, hid, hmatch⟩ := hholds
            obtain ⟨session', hs', hsame⟩ := hc.kept session hs
            exact ⟨session', hs', hsame.id.trans hid, hsame.matchKey.trans hmatch⟩
      case apart =>
        intro j k w w' plan' plan'' hw hw'
        exact h.apart j k w w' plan' plan'' (finish_work hw).2 (finish_work hw').2
  · cases hstep

end Commits

/-! ### Every run -/

theorem inv_step {server : TracksServer} {s t : TracksState} {a : Action} (h : Inv server s)
    (hok : reviewSettled s a = true) (hstep : tracksStep server s a = some t) : Inv server t := by
  cases a with
  | lockMatch i body => exact inv_lockMatch h hstep
  | readSession i => exact inv_readSession h hstep
  | deleteTracks i => exact inv_deleteTracks h hstep
  | insertTracks i => exact inv_insertTracks h hstep
  | commitIngest i => exact inv_commitIngest h hstep
  | loadReview i sessionId body => exact inv_loadReview h hstep
  | commitReview i now => exact inv_commitReview h hok hstep
  | fail i =>
      cases hstep
      exact inv_finish h

theorem inv_start {server : TracksServer} {s : TracksState} (h : (tracksSystem server).start s) :
    Inv server s := by
  obtain ⟨eventMatches, matchTeams, rfl⟩ := h
  constructor
  case ids => exact List.nodup_nil
  case idsBelow => exact fun session hs => absurd hs List.not_mem_nil
  case runs => exact List.nodup_nil
  case runsBelow => exact fun session hs => absurd hs List.not_mem_nil
  case owned => exact fun row hrow => absurd hrow List.not_mem_nil
  case locks => exact fun i w key hw => by cases hw
  case holds => exact fun i w hw => by cases hw
  case apart => exact fun i j w w' plan plan' hw => by cases hw

end Frcmob.Tracks
