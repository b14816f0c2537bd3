import Frcmob.Tracks.Invariant

/-!
Reviewed recordings stay as they were reviewed, as long as no review commits while an ingest that
has read the session as provisional is about to store other tracks. Every other ingest leaves the
tracks that a single ingest of its payload leaves, or changes nothing.
-/

namespace Frcmob.Tracks
open AutoScout (SessionStatus)
open Transition

/-- Only commits change rows. -/
theorem db_of_step {server : TracksServer} {s t : TracksState} {a : Action}
    (hstep : tracksStep server s a = some t) (hingest : ∀ i, a ≠ .commitIngest i)
    (hreview : ∀ i now, a ≠ .commitReview i now) : t.db = s.db := by
  cases a with
  | lockMatch i body =>
      simp only [tracksStep] at hstep
      split at hstep
      · cases hstep
      · split at hstep
        · cases hstep; rfl
        · split at hstep
          · cases hstep; rfl
          · split at hstep
            · cases hstep
            · cases hstep; rfl
  | readSession i =>
      simp only [tracksStep] at hstep
      split at hstep
      · split at hstep
        · cases hstep; rfl
        · cases hstep; rfl
      · cases hstep
  | deleteTracks i =>
      simp only [tracksStep] at hstep
      split at hstep
      · cases hstep; rfl
      · cases hstep
  | insertTracks i =>
      simp only [tracksStep] at hstep
      split at hstep
      · cases hstep; rfl
      · cases hstep
  | commitIngest i => exact absurd rfl (hingest i)
  | loadReview i sessionId body =>
      simp only [tracksStep] at hstep
      split at hstep
      · cases hstep
      · split at hstep
        · cases hstep; rfl
        · split at hstep
          · cases hstep; rfl
          · cases hstep; rfl
  | commitReview i now => exact absurd rfl (hreview i now)
  | fail i => cases hstep; rfl

/-- What the commit of an ingest is, in a state that runs reach. -/
theorem commitIngest_cases {server : TracksServer} {s t : TracksState} {i : Nat}
    (h : Inv server s) (hstep : tracksStep server s (.commitIngest i) = some t) :
    t.db = s.db ∨ ∃ plan removed added newId,
      s.work i = some (.stored plan removed added) ∧ PlanHolds server s plan ∧
        Committed s.db t.db newId plan := by
  simp only [tracksStep] at hstep
  split at hstep
  · rename_i plan removed added hwork
    obtain ⟨hplan, rfl, rfl⟩ := h.holds i _ hwork
    split at hstep
    · cases hstep
      exact .inl rfl
    · rename_i db' hcommit
      cases hstep
      exact .inr ⟨plan, _, _, _, hwork, hplan, committed_of_commitPlan h hplan hcommit⟩
  · cases hstep

/-- No step but a review's commit changes a reviewed session or its tracks. -/
theorem reviewed_kept_of_step {server : TracksServer} {s t : TracksState} {a : Action}
    (h : Inv server s) (hstep : tracksStep server s a = some t)
    (hreview : ∀ i now, a ≠ .commitReview i now) {session : OnDeviceSession}
    (hs : session ∈ s.db.sessions) (hreviewed : session.status ≠ .provisional) :
    ∃ session' ∈ t.db.sessions, SameReview session session' ∧
      t.db.runTracks session.analysisRunId = s.db.runTracks session.analysisRunId := by
  by_cases hingest : ∃ i, a = .commitIngest i
  · obtain ⟨i, rfl⟩ := hingest
    cases commitIngest_cases h hstep with
    | inl hdb => exact ⟨session, hdb ▸ hs, SameReview.refl session, by rw [hdb]⟩
    | inr hcommit =>
        obtain ⟨plan, removed, added, newId, hwork, hplan, hc⟩ := hcommit
        obtain ⟨session', hs', hsame⟩ := hc.kept session hs
        refine ⟨session', hs', hsame, ?_⟩
        by_cases hrun : session.analysisRunId = plan.session.analysisRunId
        · cases htarget : plan.target with
          | create =>
              obtain ⟨-, -, -, hfresh⟩ := hplan.created htarget
              exact absurd hrun (hfresh session hs)
          | rewrite id =>
              obtain ⟨own, hown, -, hownRun, -, hsettled⟩ := hplan.rewritten id htarget
              have heq := eq_of_run h hown hs (hownRun.trans hrun.symm)
              rw [hrun]
              cases hc.self with
              | inl hdb => rw [hdb]
              | inr hstored => rw [hstored.1, hsettled (heq ▸ hreviewed)]
          | preserve id => rw [hc.preserved id htarget]
        · exact hc.other _ hrun
  · have hdb := db_of_step hstep (fun i hi => hingest ⟨i, hi⟩) hreview
    exact ⟨session, hdb ▸ hs, SameReview.refl session, by rw [hdb]⟩

/-- A later review leaves the session reviewed, with its tracks. -/
theorem reviewed_kept_of_review {server : TracksServer} {s t : TracksState} {i now : Nat}
    (hstep : tracksStep server s (.commitReview i now) = some t) {session : OnDeviceSession}
    (hs : session ∈ s.db.sessions) (hreviewed : session.status ≠ .provisional) :
    ∃ session' ∈ t.db.sessions, session'.id = session.id ∧
      session'.analysisRunId = session.analysisRunId ∧ session'.status ≠ .provisional ∧
      t.db.tracks = s.db.tracks := by
  simp only [tracksStep] at hstep
  split at hstep
  · rename_i loaded body hwork
    cases hstep
    have hsame := reviewSession_same loaded body now session
    refine ⟨_, List.mem_map_of_mem hs, hsame.1, hsame.2.1, ?_, rfl⟩
    simp only [reviewSession]
    split
    · change (if loaded.status = body.status then session.status else body.status) ≠ _
      split
      · exact hreviewed
      · exact body.reviewed
    · exact hreviewed
  · cases hstep

/-- Once a session is reviewed its tracks stay, and only reviews change its status, in every run
in which no review commits while an ingest is about to store other tracks for its session. An
ingest that commits changes nothing, or leaves the tracks of a single ingest of its payload. -/
theorem reviewed_sessions_kept (server : TracksServer) {s : TracksState}
    (h : ReachableWhen (tracksSystem server) (fun st a => reviewSettled st a = true) s) :
    (∀ t, Steps (tracksSystem server) (fun st a => reviewSettled st a = true) s t →
      ∀ session ∈ s.db.sessions, session.status ≠ .provisional →
        ∃ session' ∈ t.db.sessions, session'.id = session.id ∧ session'.status ≠ .provisional ∧
          t.db.runTracks session'.analysisRunId = s.db.runTracks session.analysisRunId) ∧
    (∀ a t, (tracksSystem server).step s a = some t → (∀ i now, a ≠ .commitReview i now) →
      ∀ session ∈ s.db.sessions, session.status ≠ .provisional →
        ∃ session' ∈ t.db.sessions, SameReview session session') ∧
    ∀ i t plan removed added, (tracksSystem server).step s (.commitIngest i) = some t →
      s.work i = some (.stored plan removed added) → t.db = s.db ∨
        t.db.runTracks plan.session.analysisRunId = recordingRows server s.db plan.lockedMatch
          plan.session.analysisRunId plan.payload := by
  have hinv : ∀ {u}, ReachableWhen (tracksSystem server)
      (fun st a => reviewSettled st a = true) u → Inv server u := by
    intro u hu
    exact hu.invariant (fun _ hstart => inv_start hstart) fun _ _ _ hi hok hstep =>
      inv_step hi hok hstep
  refine ⟨?_, ?_, ?_⟩
  · intro t hsteps session hs hreviewed
    have hkept := hsteps.keeps
      (P := fun t => Inv server t ∧ ∃ session' ∈ t.db.sessions, session'.id = session.id ∧
        session'.status ≠ .provisional ∧
        t.db.runTracks session'.analysisRunId = s.db.runTracks session.analysisRunId) (by
        rintro u a v ⟨hu, own, hown, hid, hstatus, htracks⟩ hok hstep
        refine ⟨inv_step hu hok hstep, ?_⟩
        by_cases hreview : ∃ i now, a = .commitReview i now
        · obtain ⟨i, now, rfl⟩ := hreview
          obtain ⟨own', hown', hid', hrun', hstatus', hdb⟩ :=
            reviewed_kept_of_review (show tracksStep server u (.commitReview i now) = some v from hstep)
              hown hstatus
          refine ⟨own', hown', hid'.trans hid, hstatus', ?_⟩
          rw [hrun', ← htracks, TrackDb.runTracks, TrackDb.runTracks, hdb]
        · obtain ⟨own', hown', hsame, htracks'⟩ := reviewed_kept_of_step hu hstep
            (fun i now hi => hreview ⟨i, now, hi⟩) hown hstatus
          refine ⟨own', hown', hsame.id.trans hid, hsame.status ▸ hstatus, ?_⟩
          rw [hsame.run, htracks', htracks])
      ⟨hinv h, session, hs, rfl, hreviewed, rfl⟩
    exact hkept.2
  · intro a t hstep hreview session hs hreviewed
    obtain ⟨session', hs', hsame, -⟩ := reviewed_kept_of_step (hinv h) hstep hreview hs hreviewed
    exact ⟨session', hs', hsame⟩
  · intro i t plan removed added hstep hwork
    cases commitIngest_cases (hinv h) hstep with
    | inl hdb => exact .inl hdb
    | inr hcommit =>
        obtain ⟨plan', removed', added', newId, hwork', hplan, hc⟩ := hcommit
        rw [hwork] at hwork'
        cases hwork'
        cases hc.self with
        | inl hdb => exact .inl hdb
        | inr hstored => exact .inr (hstored.1.trans hplan.rows)

/-! ### A phone that sends its recording again -/

def phoneServer : TracksServer where
  publicReadonlyMode := false
  requireSignedToken := true
  maxTeams := 6
  maxTotalPoints := 100
  maxPointsPerTeam := 50
  maxRunsPerMatch := 4
  minQualityScore := 1 / 2
  fieldLengthM := 16
  fieldWidthM := 8
  matchDurationSec := 160
  classifyPoint _ _ := none
  onDeviceQuality _ := (1, "")
  payloadJson payload := payload.provenance.modelVersion.getD ""
  opaqueHash := id
  storedShift1ActiveAlliance _ := (none, none)

/-- A recording with one point of frc118, at `x` metres. -/
def recordingAt (x : Rat) (modelVersion : String) : OnDeviceSessionRequest where
  sender := .ok (some ⟨1, "a"⟩)
  authorized := false
  identity := "n"
  room := .ok none
  id := "session-1"
  matchKey := "2026txa_qm1"
  workspaceId := some 1
  createdAt := none
  payload :=
    { pointsByTeam := [("frc118", [⟨some 1, some x, some 2, none⟩])]
      provenance := { modelVersion := some modelVersion } }

def recordedMatch : TracksState where
  db :=
    { eventMatches := [⟨"2026txa_qm1", "2026txa", "qm", 1, 1⟩]
      matchTeams := [⟨"2026txa_qm1", "frc118", "2026txa", .red, some "r1"⟩] }

def ingestSteps (i : Nat) (body : OnDeviceSessionRequest) : List Action :=
  [.lockMatch i body, .readSession i, .deleteTracks i, .insertTracks i, .commitIngest i]

def acceptance : OnDeviceSessionReviewRequest := ⟨.accepted, by decide, none, false⟩

/-- The same recording twice, with its review in between. -/
theorem reviewed_sessions_kept_retried :
    ∃ s, (∃ session ∈ s.db.sessions, session.status = .accepted) ∧
      ∀ t, Steps (tracksSystem phoneServer) (fun st a => reviewSettled st a = true) s t →
        ∀ session ∈ s.db.sessions, session.status ≠ .provisional →
          ∃ session' ∈ t.db.sessions, session'.id = session.id ∧ session'.status ≠ .provisional ∧
            t.db.runTracks session'.analysisRunId = s.db.runTracks session.analysisRunId := by
  have hrun : ((tracksSystem phoneServer).run recordedMatch (ingestSteps 0 (recordingAt 3 "v1") ++
      [.loadReview 1 1 acceptance, .commitReview 1 5] ++
        ingestSteps 2 (recordingAt 3 "v1"))).any (fun s =>
          s.db.sessions.any (·.status = .accepted)) = true := by
    decide +kernel
  obtain ⟨s, hs, haccepted⟩ := (Option.any_eq_true _ _).mp hrun
  obtain ⟨session, hsession, hstatus⟩ := List.any_eq_true.mp haccepted
  have hreach : ReachableWhen (tracksSystem phoneServer) (fun st a => reviewSettled st a = true) s :=
    reachableWhen_of_run _ (.start ⟨_, _, rfl⟩) (by decide +kernel) hs
  exact ⟨s, ⟨session, hsession, of_decide_eq_true hstatus⟩,
    (reviewed_sessions_kept phoneServer hreach).1⟩

/-- A retry with other points reads the session before its review commits, and commits after. -/
theorem reviewed_tracks_replaced :
    ∃ s t session, Reachable (tracksSystem phoneServer) s ∧
      (tracksSystem phoneServer).step s (.commitIngest 1) = some t ∧
      session ∈ s.db.sessions ∧ session.status = .accepted ∧
      t.db.runTracks session.analysisRunId ≠ s.db.runTracks session.analysisRunId := by
  have hrun : ((tracksSystem phoneServer).run recordedMatch (ingestSteps 0 (recordingAt 3 "v1") ++
      [.lockMatch 1 (recordingAt 4 "v2"), .readSession 1, .loadReview 2 1 acceptance,
        .commitReview 2 5, .deleteTracks 1, .insertTracks 1])).any (fun s =>
      ((tracksSystem phoneServer).step s (.commitIngest 1)).any fun t =>
        s.db.sessions.any fun session => session.status = .accepted ∧
          t.db.runTracks session.analysisRunId ≠ s.db.runTracks session.analysisRunId) = true := by
    decide +kernel
  obtain ⟨s, hs, hstep⟩ := (Option.any_eq_true _ _).mp hrun
  obtain ⟨t, ht, hsessions⟩ := (Option.any_eq_true _ _).mp hstep
  obtain ⟨session, hsession, hreplaced⟩ := List.any_eq_true.mp hsessions
  have h := of_decide_eq_true hreplaced
  exact ⟨s, t, session, reachable_of_run _ ⟨_, _, rfl⟩ hs, ht, hsession, h.1, h.2⟩

end Frcmob.Tracks
