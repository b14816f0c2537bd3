import Mathlib.Order.WithBot
import Frcmob.Lib.Transition
import Frcmob.Ratings.SeasonData
import Frcmob.Ratings.Replays

/-!
The cached season run beside the database it is built from: `_fingerprint`, `season_run` and
`_refresh` of `team_model_service.py`, and transactions that change the stored season between
them.
-/

namespace Frcmob.Ratings
open Transition

universe u

/-! ### Transactions -/

section Writes
variable {K : Type u} [DecidableEq K]

/-- A row written or deleted. -/
inductive Write (K : Type u)
  | putEvent (row : EventRow)
  | putMatch (row : MatchRow)
  | deleteMatch (matchKey : String)
  | putResult (row : AllianceRow K) (seasonYear : Nat) (unread : String)
  | deleteResult (matchKey : String) (alliance : Side)
  | putFinding (row : Finding K)
  | deleteFinding (id : Nat)
  | putMatchTeam (row : MatchTeam)
  | deleteMatchTeam (matchKey teamKey : String)
  | putPrior (season : Nat) (teamKey : String) (z : K) (unread : String)
  | deletePrior (season : Nat) (teamKey : String)
  | putTeam (row : TeamRow)

/-- `updated_at` moves when a column does: `onupdate=_utc_now`. -/
def stampResult (db : Db K) (now : Int) (row : AllianceRow K) (seasonYear : Nat)
    (unread : String) : AllianceResult K :=
  let fresh := { row with seasonYear := seasonYear, unread := unread, updatedAt := now }
  match db.allianceResults.get? fresh.rowKey with
  | some old => if { fresh with updatedAt := old.updatedAt } = old then old else fresh
  | none => fresh

def stampPrior (db : Db K) (now : Int) (season : Nat) (teamKey : String) (z : K)
    (unread : String) : TeamPriorStrength K :=
  let fresh := ⟨season, teamKey, z, unread, now⟩
  match db.priorStrengths.get? fresh.rowKey with
  | some old => if { fresh with updatedAt := old.updatedAt } = old then old else fresh
  | none => fresh

def Db.write (now : Int) (db : Db K) : Write K → Db K
  | .putEvent row => { db with events := db.events.put row }
  | .putMatch row => { db with storedMatches := db.storedMatches.put row }
  | .deleteMatch matchKey => { db with storedMatches := db.storedMatches.erase matchKey }
  | .putResult row seasonYear unread =>
      { db with
        allianceResults := db.allianceResults.put (stampResult db now row seasonYear unread) }
  | .deleteResult matchKey alliance =>
      { db with allianceResults := db.allianceResults.erase (matchKey, alliance) }
  | .putFinding row => { db with findings := db.findings.put row }
  | .deleteFinding id => { db with findings := db.findings.erase id }
  | .putMatchTeam row => { db with matchTeams := db.matchTeams.put row }
  | .deleteMatchTeam matchKey teamKey =>
      { db with matchTeams := db.matchTeams.erase (matchKey, teamKey) }
  | .putPrior season teamKey z unread =>
      { db with priorStrengths := db.priorStrengths.put (stampPrior db now season teamKey z unread) }
  | .deletePrior season teamKey =>
      { db with priorStrengths := db.priorStrengths.erase (season, teamKey) }
  | .putTeam row => { db with teams := db.teams.put row }

def Db.commit (db : Db K) (now : Int) (writes : List (Write K)) : Db K :=
  writes.foldl (Db.write now) db

end Writes

/-! ### The fingerprint -/

structure Fingerprint where
  resultCount : Nat
  latestResult : WithBot Int
  findingCount : Nat
  priorCount : Nat
  latestPrior : WithBot Int
  rookieCount : Nat
deriving DecidableEq

/-- `max(updated_at)`; no row has none. -/
def latest (stamps : List Int) : WithBot Int :=
  match stamps.max? with
  | some stamp => stamp
  | none => ⊥

/-- `_fingerprint` -/
def fingerprint {K : Type u} (db : Db K) (season : Nat) : Fingerprint where
  resultCount := (seasonResults db season).length
  latestResult := latest ((seasonResults db season).map (·.updatedAt))
  findingCount := (seasonFindings db season).length
  priorCount := (seasonPriors db season).length
  latestPrior := latest ((seasonPriors db season).map (·.updatedAt))
  rookieCount := (seasonRookies db season).length

/-- The stamps among a fingerprint's parts. -/
def Fingerprint.stamps (f : Fingerprint) : WithBot Int × WithBot Int :=
  (f.latestResult, f.latestPrior)

/-! ### The service -/

/-- A season with what its code and configuration fix. -/
structure SeasonConfig (K : Type u) where
  season : Nat
  baseline : Baseline K
  scoring : Scoring K

/-- The database, the run cached under a fingerprint, and the fingerprint that a background
refresh has read before it loads the season. -/
structure Service (K : Type u) where
  db : Db K
  cache : Option (Fingerprint × SeasonRun K)
  refreshing : Option Fingerprint

inductive ServiceAction (K : Type u)
  | commit (now : Int) (writes : List (Write K))
  | seasonRun
  | readFingerprint
  | refresh

section Service
variable {K : Type u} [Field K] [LinearOrder K] [Maths K] (config : SeasonConfig K)

/-- A fresh replay of the database. -/
def freshReplay (db : Db K) : SeasonRun K :=
  let rows := querySeason db config.season
  SeasonRun.replayed config.baseline (seasonPriorMultipliers config.baseline rows)
    (loadSeason config.scoring rows)

/-- `_compute`, with the cache it leaves. -/
def build (f : Fingerprint) (s : Service K) : SeasonRun K × Service K :=
  let rows := querySeason s.db config.season
  let run := SeasonRun.compute config.baseline (s.cache.map Prod.snd)
    (seasonPriorMultipliers config.baseline rows) (loadSeason config.scoring rows)
  (run, { s with cache := some (f, run) })

/-- `season_run(allow_stale=False)` -/
def seasonRun (s : Service K) : SeasonRun K × Service K :=
  let f := fingerprint s.db config.season
  match s.cache with
  | some (cached, run) => if cached = f then (run, s) else build config f s
  | none => build config f s

/-- Transactions, calls and the two halves of a background refresh, in any order. -/
def service : System (Service K) (ServiceAction K) where
  start s := s.cache = none ∧ s.refreshing = none
  step s
    | .commit now writes => some { s with db := s.db.commit now writes }
    | .seasonRun => some (seasonRun config s).2
    | .readFingerprint => some { s with refreshing := some (fingerprint s.db config.season) }
    | .refresh => s.refreshing.map fun f => { (build config f s).2 with refreshing := none }

/-- A transaction takes neither stamp back, and one that leaves both as they are leaves what the
season queries as it is. -/
def Stamped (s : Service K) : ServiceAction K → Prop
  | .commit now writes =>
      let before := (fingerprint s.db config.season).stamps
      let after := (fingerprint (s.db.commit now writes) config.season).stamps
      before ≤ after ∧ (before = after →
        querySeason (s.db.commit now writes) config.season = querySeason s.db config.season)
  | .seasonRun | .readFingerprint | .refresh => True

/-- The cached run is a replay, of the present database unless a later stamp has come since its
fingerprint was read. -/
structure Current (s : Service K) : Prop where
  replay : ∀ f run, s.cache = some (f, run) → SeasonRun.IsReplay config.baseline run
  noLater : ∀ f run, s.cache = some (f, run) → f.stamps ≤ (fingerprint s.db config.season).stamps
  current : ∀ f run, s.cache = some (f, run) →
    f.stamps = (fingerprint s.db config.season).stamps → run = freshReplay config s.db
  reading : ∀ f, s.refreshing = some f → f.stamps ≤ (fingerprint s.db config.season).stamps

variable {config}

theorem freshReplay_congr {db db' : Db K}
    (h : querySeason db' config.season = querySeason db config.season) :
    freshReplay config db' = freshReplay config db := by
  rw [freshReplay, h]
  rfl

theorem build_run {s : Service K} (h : Current config s) (f : Fingerprint) :
    (build config f s).1 = freshReplay config s.db := by
  apply SeasonRun.compute_eq_replayed
  intro previous hprevious
  obtain ⟨⟨cached, run⟩, hcache, rfl⟩ := Option.mem_map.mp hprevious
  exact h.replay cached run hcache

theorem Current.build {s : Service K} (h : Current config s) {f : Fingerprint}
    (hf : f.stamps ≤ (fingerprint s.db config.season).stamps) :
    Current config (build config f s).2 := by
  have hrun := build_run h f
  constructor
  case replay =>
    rintro _ _ ⟨⟩
    exact ⟨_, _, hrun⟩
  case noLater =>
    rintro _ _ ⟨⟩
    exact hf
  case current =>
    rintro _ _ ⟨⟩ _
    exact hrun
  case reading => exact h.reading

theorem Current.seasonRun {s : Service K} (h : Current config s) :
    Current config (seasonRun config s).2 := by
  rw [Ratings.seasonRun]
  split
  · split
    · exact h
    · exact h.build (le_refl _)
  · exact h.build (le_refl _)

theorem Current.commit {s : Service K} (h : Current config s) {now : Int}
    {writes : List (Write K)} (hok : Stamped config s (.commit now writes)) :
    Current config { s with db := s.db.commit now writes } := by
  obtain ⟨hle, hsame⟩ := hok
  constructor
  case replay => exact h.replay
  case noLater => exact fun f run hcache => (h.noLater f run hcache).trans hle
  case current =>
    intro f run hcache heq
    have hbefore := h.noLater f run hcache
    have hstamps : (fingerprint s.db config.season).stamps =
        (fingerprint (s.db.commit now writes) config.season).stamps :=
      le_antisymm hle (heq ▸ hbefore)
    rw [freshReplay_congr (hsame hstamps)]
    exact h.current f run hcache (heq.trans hstamps.symm)
  case reading => exact fun f hf => (h.reading f hf).trans hle

theorem current_of_reachable {s : Service K}
    (h : ReachableWhen (service config) (Stamped config) s) : Current config s := by
  apply h.invariant
  · rintro s ⟨hcache, hrefreshing⟩
    constructor <;> simp [hcache, hrefreshing]
  · intro s action next hs hok hstep
    cases action with
    | commit now writes =>
        cases hstep
        exact hs.commit hok
    | seasonRun =>
        cases hstep
        exact hs.seasonRun
    | readFingerprint =>
        cases hstep
        refine ⟨hs.replay, hs.noLater, hs.current, ?_⟩
        rintro _ ⟨⟩
        exact le_refl _
    | refresh =>
        obtain ⟨f, hf, rfl⟩ := Option.map_eq_some_iff.mp hstep
        have hbuilt := hs.build (hs.reading f hf)
        refine ⟨hbuilt.replay, hbuilt.noLater, hbuilt.current, ?_⟩
        rintro _ ⟨⟩

theorem seasonRun_db (s : Service K) : (seasonRun config s).2.db = s.db := by
  rw [seasonRun]
  split
  · split <;> rfl
  · rfl

/-- Along a run stamps only move on, and while they stand the season stays as it is queried. -/
theorem queried_of_steps {s t : Service K}
    (h : Steps (service config) (Stamped config) s t) :
    (fingerprint s.db config.season).stamps ≤ (fingerprint t.db config.season).stamps ∧
      ((fingerprint s.db config.season).stamps = (fingerprint t.db config.season).stamps →
        querySeason t.db config.season = querySeason s.db config.season) := by
  apply Steps.keeps (P := fun t : Service K =>
    (fingerprint s.db config.season).stamps ≤ (fingerprint t.db config.season).stamps ∧
      ((fingerprint s.db config.season).stamps = (fingerprint t.db config.season).stamps →
        querySeason t.db config.season = querySeason s.db config.season)) _ h
  · exact ⟨le_refl _, fun _ => rfl⟩
  · intro t action u ht hok hstep
    cases action with
    | commit now writes =>
        cases hstep
        refine ⟨ht.1.trans hok.1, ?_⟩
        intro heq
        have hmiddle := le_antisymm hok.1 (heq ▸ ht.1)
        rw [hok.2 hmiddle]
        exact ht.2 (heq.trans hmiddle.symm)
    | seasonRun =>
        cases hstep
        rw [seasonRun_db]
        exact ht
    | readFingerprint =>
        cases hstep
        exact ht
    | refresh =>
        obtain ⟨f, -, rfl⟩ := Option.map_eq_some_iff.mp hstep
        exact ht

theorem seasonRun_eq_freshReplay {s : Service K} (hs : Current config s) :
    (seasonRun config s).1 = freshReplay config s.db := by
  rw [seasonRun]
  split
  · rename_i cached run hcache
    split
    · rename_i heq
      exact hs.current cached run hcache (congrArg Fingerprint.stamps heq)
    · exact build_run hs _
  · exact build_run hs _

/-- In a run of stamped transactions a call returns the fresh replay, and databases with one
fingerprint load the same season. -/
theorem season_run_current {s : Service K}
    (h : ReachableWhen (service config) (Stamped config) s) :
    (seasonRun config s).1 = freshReplay config s.db ∧
      ∀ t, Steps (service config) (Stamped config) s t →
        fingerprint t.db config.season = fingerprint s.db config.season →
        loadSeason config.scoring (querySeason t.db config.season) =
          loadSeason config.scoring (querySeason s.db config.season) := by
  refine ⟨seasonRun_eq_freshReplay (current_of_reachable h), ?_⟩
  intro t ht heq
  rw [(queried_of_steps ht).2 (congrArg Fingerprint.stamps heq.symm)]

end Service

/-! ### A match time that moves -/

noncomputable def season2026 : SeasonConfig ℝ where
  season := 2026
  baseline :=
    { teamModelPriors := (TeamModel.knownTeam 1).priors
      teamModelParams := (TeamModel.knownTeam 1).params
      weekMultipliers := []
      priorBeta := 9 / 10
      priorKnownVarMultiplier := 1
      rookieMultiplier := 6 / 10 }
  scoring := ⟨2, 30, 20, 10⟩

def openingMatch (actualTime : Option Int) : MatchRow :=
  ⟨"2026casj_qm1", "2026casj", "qm", some 1772000000, none, actualTime⟩

def openingSide (alliance : Side) (teamKeys : List String) : AllianceResult ℝ where
  matchKey := "2026casj_qm1"
  alliance := alliance
  teamKeys := teamKeys
  surrogateTeamKeys := []
  totalScore := some 120
  scoreWithoutFouls := some 120
  foulPointsReceived := none
  rankingPoints := none
  result := none
  components := ∅
  seasonYear := 2026
  unread := ""
  updatedAt := 1772000300

/-- One event with one match, played and stored. -/
def openingDb : Db ℝ :=
  { (Db.empty : Db ℝ) with
    events := Table.empty.put ⟨"2026casj", 2026⟩
    storedMatches := Table.empty.put (openingMatch none)
    allianceResults := (Table.empty.put (openingSide .red ["frc254", "frc1678", "frc971"])).put
      (openingSide .blue ["frc604", "frc649", "frc846"]) }

noncomputable def openingService : Service ℝ :=
  (seasonRun season2026 ⟨openingDb, none, none⟩).2

/-- Its actual time comes in later; the run keeps the scheduled one. -/
noncomputable def movedService : Service ℝ :=
  { openingService with
    db := openingService.db.commit 1772000900 [.putMatch (openingMatch (some 1772000600))] }

theorem movedService_reachable : Reachable (service season2026) movedService :=
  .next (a := .commit 1772000900 [.putMatch (openingMatch (some 1772000600))])
    (.next (a := .seasonRun) (.start ⟨rfl, rfl⟩) True.intro rfl) True.intro rfl

theorem season_run_stale :
    ¬ ∀ s, Reachable (service season2026) s →
      (seasonRun season2026 s).1 = freshReplay season2026 s.db := by
  intro h
  have htimes := congrArg (fun run => run.results.map fun r => r.card.time)
    (h movedService movedService_reachable)
  exact absurd htimes (by decide +kernel)

def openingWrites : List (Write ℝ) :=
  [.putEvent ⟨"2026casj", 2026⟩, .putMatch (openingMatch none),
    .putResult (openingSide .red ["frc254", "frc1678", "frc971"]).toAllianceRow 2026 "",
    .putResult (openingSide .blue ["frc604", "frc649", "frc846"]).toAllianceRow 2026 ""]

theorem openingWrites_stamped :
    Stamped season2026 ⟨Db.empty, none, none⟩ (.commit 1772000300 openingWrites) :=
  ⟨⟨bot_le, bot_le⟩, fun heq => absurd heq (by decide +kernel)⟩

theorem season_run_current_opening :
    (seasonRun season2026 ⟨Db.empty.commit 1772000300 openingWrites, none, none⟩).1 =
      freshReplay season2026 (Db.empty.commit 1772000300 openingWrites) :=
  (season_run_current (.next (a := .commit 1772000300 openingWrites) (.start ⟨rfl, rfl⟩)
    openingWrites_stamped rfl)).1

end Frcmob.Ratings
