import Frcmob.AutoScout.Drafts
import Frcmob.Lib.Transition

/-!
What a human approved stays as it was. Every write of the service either selects its
row by a status other than approved, or takes the draft on file for the current run;
only the latter can hit an approved row, when a newer draft hides it from the lookup
of the latest one.
-/

namespace Frcmob.AutoScout
open Transition

inductive DraftAction where
  | generate (now : Int) (req : GenerateRequest)
  | approve (now : Int) (req : ApproveRequest)
  | reject (now : Int) (req : RejectRequest)
  | review (now : Int) (review : SessionReview)
deriving DecidableEq

/-- A refused request leaves the database as it was. -/
def orUnchanged (db : Db) : Except HttpError Db → Db
  | .ok db' => db'
  | .error _ => db

def draftStep (build : Mapper) (minimum : Nat) (db : Db) : DraftAction → Db
  | .generate now req =>
      orUnchanged db ((generateAutoScoutDraft build now req db).map (·.1))
  | .approve now req => orUnchanged db (approveAutoScoutDraft now req db)
  | .reject now req => orUnchanged db (rejectAutoScoutDraft now req db)
  | .review now review => orUnchanged db (reviewOnDeviceSession minimum now review db)

def draftSystem (build : Mapper) (minimum : Nat) : System Db DraftAction where
  start db := db.drafts.table.rows = []
  step db a := some (draftStep build minimum db a)

/-- Nothing approved is on file where this generate would write. -/
def TargetFree (db : Db) (req : GenerateRequest) (slot : Slot) (year : Nat)
    (run : AnalysisRun) : Prop :=
  seasonSupported year = false ∨ runStale db.recordings run = true ∨
    ((latestNonSupersededDraft db.drafts slot).any (answersLatest req (some run))) = true ∨
    ∀ d ∈ db.drafts.table.rows, d.status = .approved →
      onFile slot run.id (mapperVersionForSeason year) d = false

def GenerateSafe (db : Db) (req : GenerateRequest) : Prop :=
  match checkRequest db req with
  | .error _ => True
  | .ok (slot, year) =>
      match latestCompletedRunForMatch db.recordings slot with
      | none => True
      | some run => TargetFree db req slot year run

def ActionSafe (db : Db) : DraftAction → Prop
  | .generate _ req => GenerateSafe db req
  | _ => True

instance (db : Db) (req : GenerateRequest) (slot : Slot) (year : Nat) (run : AnalysisRun) :
    Decidable (TargetFree db req slot year run) :=
  inferInstanceAs (Decidable (_ ∨ _))

instance (db : Db) : ∀ a, Decidable (ActionSafe db a)
  | .generate _ req =>
      match h : checkRequest db req with
      | .error _ => isTrue (by simp [ActionSafe, GenerateSafe, h])
      | .ok (slot, year) =>
          match h' : latestCompletedRunForMatch db.recordings slot with
          | none => isTrue (by simp [ActionSafe, GenerateSafe, h, h'])
          | some run => decidable_of_iff (TargetFree db req slot year run)
              (by simp [ActionSafe, GenerateSafe, h, h'])
  | .approve .. | .reject .. | .review .. => isTrue True.intro

/-! Each write against an approved row -/

section Approved
variable {ds : Drafts} {d : AutoScoutDraft} (hd : d ∈ ds) (approved : d.status = .approved)
include hd

theorem writeDraft_keeps {found : Option AutoScoutDraft} {blank : AutoScoutDraft}
    {f : AutoScoutDraft → AutoScoutDraft} {hf : ∀ d, (f d).id = d.id}
    (hne : ∀ row ∈ found, row ∈ ds ∧ row ≠ d) :
    d ∈ (writeDraft ds found blank f hf).drafts := by
  cases found with
  | none => exact Drafts.mem_insert hd
  | some row =>
      obtain ⟨hrow, hdiff⟩ := hne row rfl
      refine Drafts.mem_change_of_not hf hd ?_
      simpa using fun he => hdiff (Drafts.eq_of_id hd hrow he).symm

include approved

theorem pendingOrFailed_ne {slot : Slot} {mapper : String} :
    ∀ row ∈ pendingOrFailedDraft ds slot mapper, row ∈ ds ∧ row ≠ d := by
  intro row hrow
  obtain ⟨hmem, hp⟩ := mem_of_newest hrow
  refine ⟨hmem, ?_⟩
  rintro rfl
  simp [approved] at hp

theorem generateUnsupported_keeps (now : Int) (slot : Slot) (mapper : String) :
    d ∈ (generateUnsupported now slot mapper ds).drafts :=
  writeDraft_keeps hd (pendingOrFailed_ne hd approved)

theorem generateWithoutRun_keeps (now : Int) (slot : Slot) (mapper : String) (stale : Bool) :
    d ∈ (generateWithoutRun now slot mapper stale ds).drafts :=
  writeDraft_keeps hd (pendingOrFailed_ne hd approved)

theorem generateWithoutTracks_keeps (now : Int) {slot : Slot} {mapper : String}
    {run : AnalysisRun} (anyTracks : Bool) (free : onFile slot run.id mapper d = false) :
    d ∈ (generateWithoutTracks now slot mapper run anyTracks ds).drafts := by
  refine writeDraft_keeps hd fun row hrow => ?_
  rw [Option.mem_def, Option.orElse_eq_orElse, Option.orElse_eq_or, Option.or_eq_some_iff] at hrow
  rcases hrow with hfile | ⟨-, hpending⟩
  · refine ⟨List.mem_of_find?_eq_some hfile, ?_⟩
    rintro rfl
    have := List.find?_some hfile
    simp [free] at this
  · exact pendingOrFailed_ne hd approved row hpending

theorem supersedeOtherDrafts_keeps (now : Int) (slot : Slot) (keepId : Nat) :
    d ∈ supersedeOtherDrafts now slot keepId ds :=
  Drafts.mem_change_of_not _ hd (by simp [settled, approved])

theorem generateReady_keeps (now : Int) {slot : Slot} {mapper : String} {run : AnalysisRun}
    (version : String) (force : Bool) (ready : ReadyPayload)
    (free : onFile slot run.id mapper d = false) :
    d ∈ (generateReady now slot mapper version run force ready ds).drafts := by
  refine supersedeOtherDrafts_keeps (writeDraft_keeps hd fun row hrow => ?_) approved _ _ _
  refine ⟨List.mem_of_find?_eq_some hrow, ?_⟩
  rintro rfl
  have := List.find?_some hrow
  simp [free] at this

theorem withdrawDraftsForRun_keeps (now : Int) (runId : Nat) :
    d ∈ withdrawDraftsForRun now runId ds :=
  Drafts.mem_change_of_not _ hd (by simp [settled, approved])

end Approved

theorem generateDraft_keeps {build : Mapper} {now : Int} {req : GenerateRequest} {db : Db}
    {slot : Slot} {year : Nat} {d : AutoScoutDraft} (hd : d ∈ db.drafts)
    (approved : d.status = .approved)
    (safe : ∀ run ∈ latestCompletedRunForMatch db.recordings slot,
      TargetFree db req slot year run) :
    d ∈ (generateDraft build now req slot year db.recordings db.drafts).drafts := by
  rw [generateDraft]
  simp only
  split
  case isFalse => exact generateUnsupported_keeps hd approved ..
  case isTrue hyear =>
    split
    case h_1 => exact hd
    case h_2 hlatest =>
      split
      case h_1 => exact generateWithoutRun_keeps hd approved ..
      case h_2 run hrun =>
        rw [generateFromRun]
        simp only
        split
        case isTrue => exact generateWithoutRun_keeps hd approved ..
        case isFalse hstale =>
          -- past the early returns the safety condition speaks about the file
          have free : onFile slot run.id (mapperVersionForSeason year) d = false := by
            rcases safe run hrun with h | h | h | h
            · simp [h] at hyear
            · exact absurd h hstale
            · rw [hrun] at hlatest
              obtain ⟨latest, hl, hans⟩ := (Option.any_eq_true _ _).mp h
              simp [hl, Option.filter, hans] at hlatest
            · exact h d hd approved
          split
          · exact generateWithoutTracks_keeps hd approved now _ free
          · exact generateReady_keeps hd approved now _ _ _ free

theorem reviewable_ne {db : Db} {draftId draftVersion : Nat} {verb : String}
    {row d : AutoScoutDraft} (approved : d.status = .approved)
    (h : reviewable db draftId draftVersion verb = .ok row) : row ∈ db.drafts ∧ row ≠ d := by
  rw [reviewable] at h
  split at h
  · simp at h
  · rename_i found hfound
    split at h
    · simp at h
    · rename_i hready
      split at h
      · simp at h
      · obtain rfl : found = row := by simpa using h
        refine ⟨(Table.get?_eq_some.mp hfound).1, ?_⟩
        rintro rfl
        simp [readyStatuses, approved] at hready

/-- A review writes one row, and not this one. -/
theorem change_row_keeps {ds : Drafts} {row d : AutoScoutDraft}
    {f : AutoScoutDraft → AutoScoutDraft} (hf : ∀ d, (f d).id = d.id) (hd : d ∈ ds)
    (hrow : row ∈ ds ∧ row ≠ d) : d ∈ ds.change (·.id = row.id) f hf := by
  refine Drafts.mem_change_of_not hf hd ?_
  simpa using fun he => hrow.2 (Drafts.eq_of_id hd hrow.1 he).symm

/-- No action that the condition allows touches an approved row. -/
theorem draftStep_keeps {build : Mapper} {minimum : Nat} {db : Db} {a : DraftAction}
    {d : AutoScoutDraft} (hd : d ∈ db.drafts) (approved : d.status = .approved)
    (safe : ActionSafe db a) : d ∈ (draftStep build minimum db a).drafts := by
  cases a with
  | generate now req =>
      simp only [draftStep, generateAutoScoutDraft]
      cases hcheck : checkRequest db req with
      | error e => exact hd
      | ok target =>
          obtain ⟨slot, year⟩ := target
          refine generateDraft_keeps hd approved fun run hrun => ?_
          simpa [ActionSafe, GenerateSafe, hcheck, Option.mem_def.mp hrun] using safe
  | approve now req =>
      simp only [draftStep, approveAutoScoutDraft]
      cases hrow : reviewable db req.draftId req.draftVersion "approved" with
      | error e => exact hd
      | ok row =>
          simp only
          split
          · exact hd
          · refine change_row_keeps ?_ hd (reviewable_ne approved hrow)
            exact fun _ => rfl
  | reject now req =>
      simp only [draftStep, rejectAutoScoutDraft]
      cases hrow : reviewable db req.draftId req.draftVersion "rejected" with
      | error e => exact hd
      | ok row =>
          simp only
          split
          · exact hd
          · refine change_row_keeps ?_ hd (reviewable_ne approved hrow)
            exact fun _ => rfl
  | review now review =>
      simp only [draftStep, reviewOnDeviceSession]
      split
      · exact hd
      · split
        · split <;> exact hd
        · exact withdrawDraftsForRun_keeps hd approved ..

/-- From any database, through any requests whose generates find nothing approved on
file where they write, an approved draft stays exactly as it was approved. -/
theorem approved_draft_kept (build : Mapper) (minimum : Nat) {db db' : Db}
    (hsteps : Steps (draftSystem build minimum) ActionSafe db db') {d : AutoScoutDraft}
    (hd : d ∈ db.drafts) (approved : d.status = .approved) : d ∈ db'.drafts := by
  refine hsteps.keeps (P := fun db => d ∈ db.drafts) ?_ hd
  intro s a t hs safe hstep
  obtain rfl : draftStep build minimum s a = t := by simpa [draftSystem] using hstep
  exact draftStep_keeps hs approved safe

/-! Two recordings of one match -/

def exampleMapper : Mapper := fun _ _ _ run _ =>
  { status := .ready, draftPayload := { notesSeed := toString run.id } }

def exampleDb : Db where
  matchKeys := ["2026txa_qm1"]
  teamKeys := ["frc118"]
  events := [("2026txa", 2026)]
  matchTeams := [("2026txa_qm1", "frc118")]
  recordings :=
    { runs := [{ id := 1, version := analysisVersion }, { id := 2, version := analysisVersion }]
      contexts := []
      sessions := [{ id := 1, analysisRunId := 1, matchKey := "2026txa_qm1", qualityScore := 850 },
        { id := 2, analysisRunId := 2, matchKey := "2026txa_qm1", qualityScore := 900 }]
      tracks := [⟨1, 1, "frc118", 0⟩, ⟨2, 2, "frc118", 0⟩] }
  drafts := .empty

def exampleRequest : GenerateRequest where
  eventKey := "2026txa"
  matchKey := "2026txa_qm1"
  teamKey := "frc118"

/-- The first recording's draft gives way to the second's, which the scout rejects;
after the operator withdraws the second recording the first draft is ready again and
the scout approves it. -/
def toApproval : List DraftAction :=
  [.review 1 ⟨1, true, false⟩, .generate 2 exampleRequest, .review 3 ⟨2, true, false⟩,
    .generate 4 exampleRequest, .reject 5 ⟨2, 1, "wrong robot"⟩, .review 6 ⟨2, false, false⟩,
    .generate 7 exampleRequest, .approve 8 { draftId := 1, draftVersion := 1, approvedBy := "Ada" }]

/-- One more generate, without force, sees the rejected draft as the latest one and
rewrites the approved draft. -/
theorem approved_draft_overwritten :
    ∃ db d, Reachable (draftSystem exampleMapper 800) db ∧ d ∈ db.drafts ∧
      d.status = .approved ∧
      ∃ d' ∈ (draftStep exampleMapper 800 db (.generate 9 exampleRequest)).drafts,
        d'.id = d.id ∧ d'.status = .ready := by
  refine ⟨_, _, reachable_of_run (s := exampleDb) toApproval rfl rfl,
    List.mem_cons_self, by decide +kernel, _, List.mem_cons_self, rfl, by decide +kernel⟩

/-- One recording, its draft approved. -/
def approvedDb : Db :=
  [.review 1 ⟨1, true, false⟩, .generate 2 exampleRequest,
    .approve 3 { draftId := 1, draftVersion := 1, approvedBy := "Ada" }].foldl
    (draftStep exampleMapper 800) exampleDb

def approvedDraft : AutoScoutDraft where
  id := 1
  eventKey := "2026txa"
  matchKey := "2026txa_qm1"
  teamKey := "frc118"
  status := .approved
  draftPayload := { notesSeed := "1" }
  analysisVersion := analysisVersion
  analysisRunId := some 1
  mapperVersion := "2026_v2"
  generatedAt := 2
  updatedAt := 3
  approvedAt := some 3
  approvedBy := some "Ada"

theorem approved_draft_kept_forced :
    approvedDraft ∈ (draftStep exampleMapper 800 approvedDb
      (.generate 4 { exampleRequest with forceRegenerate := true })).drafts :=
  approved_draft_kept exampleMapper 800
    (.tail (.refl : Steps _ _ approvedDb _) (by decide +kernel) rfl) (by decide +kernel) rfl

end Frcmob.AutoScout
