import Frcmob.AutoScout.Drafts
import Frcmob.Lib.Transition

/-!
The draft of the scouting form: `useAutoScoutDraft.ts`. React renders after each event and runs
the effects whose inputs changed before the next one. The evidence and the badges of the fields
are left out; the timer of the polls is any poll at any time while a draft is generating.
-/

namespace Frcmob.FormDraft

open AutoScout (AutoScoutDraft DraftPayload readyStatuses)

structure Selection where
  eventKey : String
  matchKey : String
  teamKey : String
deriving DecidableEq

def Selection.ready (selection : Selection) : Bool :=
  decide (selection.eventKey ≠ "") && decide (selection.matchKey ≠ "") &&
    decide (selection.teamKey ≠ "")

def draftSelection (draft : AutoScoutDraft) : Selection :=
  ⟨draft.eventKey, draft.matchKey, draft.teamKey⟩

/-- `status === 'ready' || status === 'low_confidence'` -/
def readyToReview (draft : AutoScoutDraft) : Bool :=
  decide (draft.status ∈ readyStatuses)

/-- The form of the page: what a payload fills in, and what a field holds. -/
structure FormOps (Form : Type) where
  applyAutoScoutDraftPayload : Form → DraftPayload → Form
  field : Form → String → String

inductive DraftRequest
  | refresh (selection : Selection)
  | generate (selection : Selection) (forceRegenerate : Bool)
  | approve (draft : AutoScoutDraft) (approvedBy : String) (edited : DraftPayload)
  | reject (draft : AutoScoutDraft) (reason : String)
deriving DecidableEq

/-- The event, match and robot a request is about. -/
def DraftRequest.selection : DraftRequest → Selection
  | .refresh selection | .generate selection _ => selection
  | .approve draft _ _ | .reject draft _ => draftSelection draft

/-- A response carries a draft or none; a request that fails carries a message. -/
inductive DraftAnswer
  | draft (draft : Option AutoScoutDraft)
  | failed (message : String)
deriving DecidableEq

/-- A draft and the selection it was used under. -/
structure Use where
  selection : Selection
  draft : AutoScoutDraft
deriving DecidableEq

/-- The hook with its arguments. `filled` are the drafts that filled the form, `returned` those
that `prepareReviewedAutoSave` returned, and `served` says that since the last switch a load or
a generate was asked for, or that a draft came. -/
structure DraftHook (Form : Type) where
  selection : Selection
  enabled : Bool
  visible : Bool
  scoutProfile : String
  form : Form
  notes : String
  draft : Option AutoScoutDraft
  loading : Bool
  approving : Bool
  error : String
  lastApplied : Option (Nat × Nat)
  refreshInFlight : Bool
  inFlight : List DraftRequest
  filled : List Use
  returned : List Use
  served : Bool

section Hook

variable {Form : Type} (ops : FormOps Form)

def DraftHook.send (hook : DraftHook Form) (request : DraftRequest) : DraftHook Form :=
  { hook with inFlight := hook.inFlight ++ [request] }

def refreshDraft (hook : DraftHook Form) : DraftHook Form :=
  if hook.selection.ready && !hook.refreshInFlight then
    { hook.send (.refresh hook.selection) with refreshInFlight := true, served := true }
  else
    hook

def generateDraft (hook : DraftHook Form) (forceRegenerate : Bool) : DraftHook Form :=
  if hook.selection.ready then
    { hook.send (.generate hook.selection forceRegenerate) with loading := true, served := true }
  else
    hook

/-! ### The effects -/

/-- The effect that loads a draft; `draft` is the one of the render it belongs to. -/
def loadEffect (hook : DraftHook Form) (draft : Option AutoScoutDraft) : DraftHook Form :=
  if !hook.enabled || !hook.visible || !hook.selection.ready || draft.isSome || hook.loading then
    hook
  else
    refreshDraft hook

def fill (hook : DraftHook Form) (draft : AutoScoutDraft) : DraftHook Form :=
  { hook with
    form := ops.applyAutoScoutDraftPayload hook.form draft.draftPayload
    notes := if strip hook.notes ≠ "" then hook.notes
      else if strip draft.draftPayload.notesSeed ≠ "" then strip draft.draftPayload.notesSeed
      else hook.notes
    lastApplied := some (draft.id, draft.draftVersion)
    filled := hook.filled ++ [⟨hook.selection, draft⟩] }

/-- The effect that fills the form. -/
def applyEffect (hook : DraftHook Form) (draft : Option AutoScoutDraft) : DraftHook Form :=
  match draft with
  | none => hook
  | some draft =>
    if hook.enabled && readyToReview draft &&
        decide (hook.lastApplied ≠ some (draft.id, draft.draftVersion)) then
      fill ops hook draft
    else
      hook

/-- The effects of the render with a new selection. They still see the draft from before. -/
def firstEffects (hook : DraftHook Form) (turned : Bool) : DraftHook Form :=
  let reset := { hook with error := "", lastApplied := none, served := false }
  let loaded := loadEffect reset hook.draft
  if turned then applyEffect ops loaded hook.draft else loaded

/-- A new selection: the first of these effects asks for a render without the draft. -/
def switchEffects (hook : DraftHook Form) (turned : Bool) : DraftHook Form :=
  let next := { firstEffects ops hook turned with draft := none }
  if hook.draft.isSome then loadEffect next none else next

/-- New arguments from the page: a switch, auto mode or the page's visibility. -/
def setProps (hook : DraftHook Form) (selection : Selection) (enabled visible : Bool) :
    DraftHook Form :=
  let next := { hook with selection := selection, enabled := enabled, visible := visible }
  let turned := decide (enabled ≠ hook.enabled)
  if selection ≠ hook.selection then switchEffects ops next turned
  else if turned then applyEffect ops (loadEffect next next.draft) next.draft
  else if visible ≠ hook.visible then loadEffect next next.draft
  else next

/-- `setDraft(draft)` and `setLoading(loading)`, and the effects of the render that follows if
one of them has changed. -/
def setDraft (hook : DraftHook Form) (draft : Option AutoScoutDraft) (loading : Bool) :
    DraftHook Form :=
  let next := { hook with
    draft := draft, loading := loading, served := hook.served || draft.isSome }
  if hook.draft.isNone && draft.isNone && hook.loading == loading then next
  else applyEffect ops (loadEffect next draft) draft

/-- `setLoading(false)` after a request that failed. -/
def stopLoading (hook : DraftHook Form) : DraftHook Form :=
  if hook.loading then loadEffect { hook with loading := false } hook.draft else hook

/-! ### Requests and their answers -/

def errorText (message fallback : String) : String :=
  if message = "" then fallback else message

def editedPayload (hook : DraftHook Form) (draft : AutoScoutDraft) : DraftPayload where
  formPatch := draft.draftPayload.formPatch.map fun entry =>
    (entry.1, ops.field hook.form entry.1)
  notesSeed := if strip hook.notes ≠ "" then strip hook.notes else draft.draftPayload.notesSeed
  derivedInsights := draft.draftPayload.derivedInsights

def DraftHook.giveBack (hook : DraftHook Form) (draft : AutoScoutDraft) : DraftHook Form :=
  { hook with returned := hook.returned ++ [⟨hook.selection, draft⟩] }

/-- `prepareReviewedAutoSave` up to its request; an approved draft is returned at once. -/
def prepareReviewedAutoSave (hook : DraftHook Form) : DraftHook Form :=
  match hook.draft with
  | none => hook
  | some draft =>
    if draft.status = .approved then hook.giveBack draft
    else if readyToReview draft then
      { hook.send (.approve draft hook.scoutProfile (editedPayload ops hook draft)) with
        approving := true }
    else
      hook

def rejectDraft (hook : DraftHook Form) (reason : String) : DraftHook Form :=
  match hook.draft with
  | none => hook
  | some draft =>
    if readyToReview draft then { hook.send (.reject draft reason) with loading := true }
    else hook

/-- The answer to a request; the request has been taken off `inFlight`. -/
def answered (hook : DraftHook Form) : DraftRequest → DraftAnswer → DraftHook Form
  | .refresh _, .draft draft =>
    setDraft ops { hook with error := "", refreshInFlight := false } draft hook.loading
  | .refresh _, .failed message =>
    { hook with
      error := errorText message "Unable to load auto-scout draft."
      refreshInFlight := false }
  | .generate _ _, .draft draft => setDraft ops { hook with error := "" } draft false
  | .generate _ _, .failed message =>
    stopLoading { hook with error := errorText message "Unable to generate auto-scout draft." }
  | .reject _ _, .draft draft => setDraft ops { hook with error := "" } draft false
  | .reject _ _, .failed message =>
    stopLoading { hook with error := errorText message "Unable to reject auto-scout draft." }
  | .approve _ _ _, .draft (some draft) =>
    (setDraft ops { hook with error := "", approving := false } (some draft)
      hook.loading).giveBack draft
  | .approve _ _ _, .draft none =>
    { hook with error := "Draft approval returned no draft.", approving := false }
  | .approve _ _ _, .failed message =>
    { hook with
      error := errorText message "Unable to approve auto-scout draft."
      approving := false }

/-! ### Runs -/

inductive HookAction (Form : Type)
  | setProps (selection : Selection) (enabled visible : Bool)
  /-- The scout types a name, fills in the form or writes notes. -/
  | edit (scoutProfile : String) (form : Form) (notes : String)
  | poll
  | generate (forceRegenerate : Bool)
  | prepare
  | reject (reason : String)
  | answer (request : DraftRequest) (answer : DraftAnswer)

/-- What the server answers a request with is a draft of the request's own event, match and
robot. -/
def ofRequest (request : DraftRequest) : DraftAnswer → Bool
  | .draft (some draft) => decide (draftSelection draft = request.selection)
  | .draft none | .failed _ => true

def hookStep (hook : DraftHook Form) : HookAction Form → Option (DraftHook Form)
  | .setProps selection enabled visible => some (setProps ops hook selection enabled visible)
  | .edit scoutProfile form notes =>
    some { hook with scoutProfile := scoutProfile, form := form, notes := notes }
  | .poll =>
    if hook.enabled && hook.visible && hook.selection.ready &&
        hook.draft.any fun draft => draft.status = .generating then
      some (refreshDraft hook)
    else
      none
  | .generate forceRegenerate => some (generateDraft hook forceRegenerate)
  | .prepare => some (prepareReviewedAutoSave ops hook)
  | .reject reason => some (rejectDraft hook reason)
  | .answer request answer =>
    if request ∈ hook.inFlight ∧ ofRequest request answer = true then
      some (answered ops { hook with inFlight := hook.inFlight.erase request } request answer)
    else
      none

/-- The hook as the page first renders it. -/
def mounted (selection : Selection) (enabled visible : Bool) (scoutProfile : String)
    (form : Form) (notes : String) : DraftHook Form :=
  loadEffect ⟨selection, enabled, visible, scoutProfile, form, notes, none, false, false, "",
    none, false, [], [], [], false⟩ none

def hookSystem : Transition.System (DraftHook Form) (HookAction Form) where
  start hook := ∃ selection enabled visible scoutProfile form notes,
    hook = mounted selection enabled visible scoutProfile form notes
  step := hookStep ops

/-! ### What a draft was used for -/

/-- No draft is shown, filled in or returned for another event, match or robot, and a selection
that can be loaded has been asked for. -/
structure Right (hook : DraftHook Form) : Prop where
  shown : ∀ draft ∈ hook.draft, draftSelection draft = hook.selection
  filled : ∀ use ∈ hook.filled, draftSelection use.draft = use.selection
  returned : ∀ use ∈ hook.returned, draftSelection use.draft = use.selection
  loaded : hook.enabled = true → hook.visible = true → hook.selection.ready = true →
    hook.served = true

/-- Every use of a draft so far was of its own event, match and robot. -/
structure Used (hook : DraftHook Form) : Prop where
  filled : ∀ use ∈ hook.filled, draftSelection use.draft = use.selection
  returned : ∀ use ∈ hook.returned, draftSelection use.draft = use.selection

variable {ops : FormOps Form} {hook : DraftHook Form}

theorem loadEffect_cases (hook : DraftHook Form) (draft : Option AutoScoutDraft) :
    loadEffect hook draft = hook ∨ loadEffect hook draft =
      { hook.send (.refresh hook.selection) with refreshInFlight := true, served := true } := by
  unfold loadEffect refreshDraft
  split
  · exact .inl rfl
  · split
    · exact .inr rfl
    · exact .inl rfl

/-- Nothing but `served` and the requests changes where a draft is loaded. -/
theorem loadEffect_keeps (hook : DraftHook Form) (draft : Option AutoScoutDraft) :
    (loadEffect hook draft).draft = hook.draft ∧
      (loadEffect hook draft).selection = hook.selection ∧
      (loadEffect hook draft).enabled = hook.enabled ∧
      (loadEffect hook draft).visible = hook.visible := by
  cases loadEffect_cases hook draft with
  | inl h => rw [h]; exact ⟨rfl, rfl, rfl, rfl⟩
  | inr h => rw [h]; exact ⟨rfl, rfl, rfl, rfl⟩

theorem served_loadEffect (h : hook.served = true) (draft : Option AutoScoutDraft) :
    (loadEffect hook draft).served = true := by
  cases loadEffect_cases hook draft with
  | inl heq => rw [heq, h]
  | inr heq => rw [heq]

/-- With no request in the way the load is sent. -/
theorem loadEffect_served (henabled : hook.enabled = true) (hvisible : hook.visible = true)
    (hready : hook.selection.ready = true) (hloading : hook.loading = false)
    (hflag : hook.refreshInFlight = false) : (loadEffect hook none).served = true := by
  simp [loadEffect, refreshDraft, henabled, hvisible, hready, hloading, hflag]

theorem Used.loadEffect (h : Used hook) (draft : Option AutoScoutDraft) :
    Used (loadEffect hook draft) := by
  cases loadEffect_cases hook draft with
  | inl heq => rwa [heq]
  | inr heq =>
      rw [heq]
      exact ⟨h.filled, h.returned⟩

theorem applyEffect_keeps (ops : FormOps Form) (hook : DraftHook Form)
    (draft : Option AutoScoutDraft) :
    (applyEffect ops hook draft).draft = hook.draft ∧
      (applyEffect ops hook draft).selection = hook.selection ∧
      (applyEffect ops hook draft).enabled = hook.enabled ∧
      (applyEffect ops hook draft).visible = hook.visible ∧
      (applyEffect ops hook draft).served = hook.served ∧
      (applyEffect ops hook draft).loading = hook.loading ∧
      (applyEffect ops hook draft).refreshInFlight = hook.refreshInFlight := by
  unfold applyEffect
  split
  · exact ⟨rfl, rfl, rfl, rfl, rfl, rfl, rfl⟩
  · split <;> exact ⟨rfl, rfl, rfl, rfl, rfl, rfl, rfl⟩

theorem Used.applyEffect (h : Used hook) {draft : Option AutoScoutDraft}
    (hdraft : ∀ d ∈ draft, hook.enabled = true → readyToReview d = true →
      draftSelection d = hook.selection) : Used (applyEffect ops hook draft) := by
  unfold FormDraft.applyEffect
  cases draft with
  | none => exact h
  | some d =>
      simp only
      split
      · rename_i hfill
        simp only [Bool.and_eq_true] at hfill
        refine ⟨?_, h.returned⟩
        intro use huse
        cases List.mem_append.mp huse with
        | inl hold => exact h.filled use hold
        | inr hnew =>
            rw [List.mem_singleton] at hnew
            subst hnew
            exact hdraft d rfl hfill.1.1 hfill.1.2
      · exact h

/-! ### One event after another -/

structure Kept (hook : DraftHook Form) : Prop where
  used : Used hook
  shown : ∀ draft ∈ hook.draft, draftSelection draft = hook.selection
  unserved : hook.served = false → hook.draft = none
  loaded : hook.enabled = true → hook.visible = true → hook.selection.ready = true →
    hook.served = true

theorem Kept.right (h : Kept hook) : Right hook :=
  ⟨h.shown, h.used.filled, h.used.returned, h.loaded⟩

theorem Kept.congr (h : Kept hook) {next : DraftHook Form}
    (hselection : next.selection = hook.selection) (henabled : next.enabled = hook.enabled)
    (hvisible : next.visible = hook.visible) (hdraft : next.draft = hook.draft)
    (hfilled : next.filled = hook.filled) (hreturned : next.returned = hook.returned)
    (hserved : next.served = hook.served) : Kept next := by
  constructor
  case used =>
    exact ⟨by rw [hfilled]; exact h.used.filled, by rw [hreturned]; exact h.used.returned⟩
  case unserved =>
    rw [hserved, hdraft]
    exact h.unserved
  case shown =>
    rw [hdraft, hselection]
    exact h.shown
  case loaded =>
    rw [henabled, hvisible, hselection, hserved]
    exact h.loaded

theorem Kept.loadEffect (h : Kept hook) (draft : Option AutoScoutDraft) :
    Kept (loadEffect hook draft) := by
  obtain ⟨hdraft, hselection, henabled, hvisible⟩ := loadEffect_keeps hook draft
  constructor
  case used => exact h.used.loadEffect draft
  case shown =>
    rw [hdraft, hselection]
    exact h.shown
  case unserved =>
    intro hserved
    rw [hdraft]
    apply h.unserved
    by_contra hbefore
    rw [served_loadEffect (Bool.eq_true_of_not_eq_false hbefore)] at hserved
    cases hserved
  case loaded =>
    rw [henabled, hvisible, hselection]
    exact fun he hv hr => served_loadEffect (h.loaded he hv hr) draft

theorem Kept.applyEffect (h : Kept hook) : Kept (applyEffect ops hook hook.draft) := by
  obtain ⟨hdraft, hselection, henabled, hvisible, hserved, -⟩ :=
    applyEffect_keeps ops hook hook.draft
  constructor
  case used => exact h.used.applyEffect fun d hd _ _ => h.shown d hd
  case shown =>
    rw [hdraft, hselection]
    exact h.shown
  case unserved =>
    rw [hserved, hdraft]
    exact h.unserved
  case loaded =>
    rw [henabled, hvisible, hselection, hserved]
    exact h.loaded

theorem Kept.setDraft (h : Kept hook) {draft : Option AutoScoutDraft}
    (hown : ∀ d ∈ draft, draftSelection d = hook.selection) (loading : Bool) :
    Kept (setDraft ops hook draft loading) := by
  have hnext : Kept { hook with
      draft := draft, loading := loading, served := hook.served || draft.isSome } := by
    constructor
    case used => exact ⟨h.used.filled, h.used.returned⟩
    case shown => exact hown
    case unserved =>
      intro hserved
      rw [Bool.or_eq_false_iff] at hserved
      exact Option.isNone_iff_eq_none.mp (Option.isSome_eq_false_iff.mp hserved.2)
    case loaded =>
      intro he hv hr
      rw [Bool.or_eq_true]
      exact .inl (h.loaded he hv hr)
  unfold FormDraft.setDraft
  simp only
  split
  · exact hnext
  · have hload := hnext.loadEffect draft
    have hdraft := (loadEffect_keeps { hook with
      draft := draft, loading := loading, served := hook.served || draft.isSome } draft).1
    have happly := @Kept.applyEffect Form ops _ hload
    rw [hdraft] at happly
    exact happly

theorem Kept.stopLoading (h : Kept hook) : Kept (stopLoading hook) := by
  unfold FormDraft.stopLoading
  split
  · exact (h.congr rfl rfl rfl rfl rfl rfl rfl : Kept { hook with loading := false }).loadEffect _
  · exact h

theorem Kept.giveBack (h : Kept hook) {draft : AutoScoutDraft}
    (hdraft : draftSelection draft = hook.selection) : Kept (hook.giveBack draft) := by
  refine ⟨⟨h.used.filled, ?_⟩, h.shown, h.unserved, h.loaded⟩
  intro use huse
  cases List.mem_append.mp huse with
  | inl hold => exact h.used.returned use hold
  | inr hnew =>
      rw [List.mem_singleton] at hnew
      subst hnew
      exact hdraft

/-! ### Answers in time -/

/-- A draft comes while the event, match and robot it was asked for are still selected; a
selection that is to be loaded finds no request of an earlier one in the way; and auto mode is
not turned on together with a switch away from a draft that is ready. -/
def Timely (hook : DraftHook Form) : HookAction Form → Prop
  | .answer request (.draft (some _)) => request.selection = hook.selection
  | .setProps selection enabled visible =>
    (enabled = true → visible = true → selection.ready = true →
      selection ≠ hook.selection ∨ hook.served = false →
        hook.loading = false ∧ hook.refreshInFlight = false) ∧
    (selection ≠ hook.selection → enabled = true → hook.enabled = false →
      hook.draft.all (!readyToReview ·) = true)
  | _ => True

instance (hook : DraftHook Form) (action : HookAction Form) :
    Decidable (Timely hook action) := by
  unfold Timely
  split <;> infer_instance

/-- The draft from before fills nothing in where auto mode was on already. -/
theorem used_firstEffects (h : Used hook) {turned : Bool}
    (hturned : turned = true → hook.enabled = true →
      hook.draft.all (!readyToReview ·) = true) : Used (firstEffects ops hook turned) := by
  have hreset : Used { hook with error := "", lastApplied := none, served := false } :=
    ⟨h.filled, h.returned⟩
  have hloaded := hreset.loadEffect hook.draft
  unfold firstEffects
  simp only
  split
  · rename_i hturn
    refine hloaded.applyEffect fun d hd he hready => ?_
    rw [(loadEffect_keeps _ hook.draft).2.2.1] at he
    have hnot := hturned hturn he
    rw [hd] at hnot
    simp [hready] at hnot
  · exact hloaded

theorem firstEffects_keeps (ops : FormOps Form) (hook : DraftHook Form) (turned : Bool) :
    (firstEffects ops hook turned).selection = hook.selection ∧
      (firstEffects ops hook turned).enabled = hook.enabled ∧
      (firstEffects ops hook turned).visible = hook.visible := by
  obtain ⟨-, hselection, henabled, hvisible⟩ := loadEffect_keeps
    { hook with error := "", lastApplied := none, served := false } hook.draft
  unfold firstEffects
  simp only
  split
  · obtain ⟨-, hs, he, hv, -⟩ := applyEffect_keeps ops (loadEffect
      { hook with error := "", lastApplied := none, served := false } hook.draft) hook.draft
    exact ⟨hs.trans hselection, he.trans henabled, hv.trans hvisible⟩
  · exact ⟨hselection, henabled, hvisible⟩

/-- Where a draft was there, the first effects ask for nothing. -/
theorem firstEffects_some {d : AutoScoutDraft} (hd : hook.draft = some d) (ops : FormOps Form)
    (turned : Bool) : (firstEffects ops hook turned).loading = hook.loading ∧
      (firstEffects ops hook turned).refreshInFlight = hook.refreshInFlight := by
  have hload : loadEffect { hook with error := "", lastApplied := none, served := false }
      hook.draft = { hook with error := "", lastApplied := none, served := false } := by
    simp [loadEffect, hd]
  unfold firstEffects
  simp only [hload]
  split
  · exact (applyEffect_keeps ops { hook with error := "", lastApplied := none, served := false }
      hook.draft).2.2.2.2.2
  · exact ⟨rfl, rfl⟩

theorem firstEffects_none (hd : hook.draft = none) (ops : FormOps Form) (turned : Bool) :
    firstEffects ops hook turned =
      loadEffect { hook with error := "", lastApplied := none, served := false } none := by
  unfold firstEffects
  simp only [hd]
  split <;> rfl

theorem kept_switchEffects (h : Used hook) {turned : Bool}
    (hturned : turned = true → hook.enabled = true →
      hook.draft.all (!readyToReview ·) = true)
    (hfree : hook.enabled = true → hook.visible = true → hook.selection.ready = true →
      hook.loading = false ∧ hook.refreshInFlight = false) :
    Kept (switchEffects ops hook turned) := by
  have hused : Used { firstEffects ops hook turned with draft := none } :=
    ⟨(used_firstEffects h hturned).filled, (used_firstEffects h hturned).returned⟩
  obtain ⟨hselection, henabled, hvisible⟩ := firstEffects_keeps ops hook turned
  cases hdraft : hook.draft with
  | none =>
      have heq : switchEffects ops hook turned =
          { firstEffects ops hook turned with draft := none } := by
        simp [switchEffects, hdraft]
      rw [heq]
      refine ⟨hused, ?_, fun _ => rfl, ?_⟩
      · intro d hd
        cases hd
      intro he hv hr
      rw [henabled] at he
      rw [hvisible] at hv
      rw [hselection] at hr
      obtain ⟨hloading, hflag⟩ := hfree he hv hr
      change (firstEffects ops hook turned).served = true
      rw [firstEffects_none hdraft]
      exact loadEffect_served he hv hr hloading hflag
  | some d =>
      have heq : switchEffects ops hook turned =
          loadEffect { firstEffects ops hook turned with draft := none } none := by
        simp [switchEffects, hdraft]
      obtain ⟨hloadingEq, hflagEq⟩ := firstEffects_some hdraft ops turned
      obtain ⟨hnone, hs, he, hv⟩ :=
        loadEffect_keeps { firstEffects ops hook turned with draft := none } none
      rw [heq]
      refine ⟨hused.loadEffect none, fun d hd => ?_, fun _ => hnone, ?_⟩
      · rw [hnone] at hd
        cases hd
      · intro he' hv' hr'
        rw [he] at he'
        rw [hv] at hv'
        rw [hs] at hr'
        obtain ⟨hloading, hflag⟩ :=
          hfree (henabled ▸ he') (hvisible ▸ hv') (hselection ▸ hr')
        exact loadEffect_served he' hv' hr' (hloadingEq.trans hloading) (hflagEq.trans hflag)

theorem Kept.setProps (h : Kept hook) {selection : Selection} {enabled visible : Bool}
    (htimely : Timely hook (.setProps selection enabled visible)) :
    Kept (setProps ops hook selection enabled visible) := by
  obtain ⟨hfree, hturned⟩ := htimely
  unfold FormDraft.setProps
  simp only
  split
  · rename_i hne
    refine @kept_switchEffects Form ops { hook with
      selection := selection, enabled := enabled, visible := visible }
      ⟨h.used.filled, h.used.returned⟩ _ ?_ ?_
    · intro hturn he
      refine hturned hne he ?_
      simp only [ne_eq, decide_eq_true_eq] at hturn
      cases hbefore : hook.enabled with
      | true => exact absurd (he.trans hbefore.symm) hturn
      | false => rfl
    · exact fun he hv hr => hfree he hv hr (.inl hne)
  · rename_i hsame
    rw [not_not] at hsame
    subst hsame
    generalize hnext : { hook with enabled := enabled, visible := visible } = next
    have hnextDraft : next.draft = hook.draft := by rw [← hnext]
    -- the load, where it was not due before
    have hload : Kept (FormDraft.loadEffect next next.draft) := by
      obtain ⟨hdraft, hs, he, hv⟩ := loadEffect_keeps next next.draft
      constructor
      case used =>
        have hused : Used next := by rw [← hnext]; exact ⟨h.used.filled, h.used.returned⟩
        exact hused.loadEffect _
      case shown =>
        rw [hdraft, hs, ← hnext]
        exact h.shown
      case unserved =>
        intro hserved
        rw [hdraft, hnextDraft]
        apply h.unserved
        by_contra hbefore
        have htrue : next.served = true := by
          rw [← hnext]
          exact Bool.eq_true_of_not_eq_false hbefore
        rw [served_loadEffect htrue] at hserved
        cases hserved
      case loaded =>
        intro he' hv' hr'
        rw [he] at he'
        rw [hv] at hv'
        rw [hs] at hr'
        cases hserved : next.served with
        | true => exact served_loadEffect hserved _
        | false =>
            have hbefore : hook.served = false := by rw [← hserved, ← hnext]
            rw [hnextDraft, h.unserved hbefore]
            subst hnext
            obtain ⟨hloading, hflag⟩ := hfree he' hv' hr' (.inr hbefore)
            exact loadEffect_served he' hv' hr' hloading hflag
    rw [← hnextDraft]
    split
    · have happly := @Kept.applyEffect Form ops _ hload
      rw [(loadEffect_keeps next next.draft).1] at happly
      exact happly
    · rename_i henabled
      split
      · exact hload
      · rename_i hvisible
        refine h.congr ?_ ?_ ?_ ?_ ?_ ?_ ?_
        all_goals rw [← hnext]
        · simpa using henabled
        · simpa using hvisible

theorem Kept.refreshDraft (h : Kept hook) : Kept (refreshDraft hook) := by
  unfold FormDraft.refreshDraft
  split
  · exact ⟨⟨h.used.filled, h.used.returned⟩, h.shown, fun hserved => (by cases hserved),
      fun _ _ _ => rfl⟩
  · exact h

theorem Kept.generateDraft (h : Kept hook) (forceRegenerate : Bool) :
    Kept (generateDraft hook forceRegenerate) := by
  unfold FormDraft.generateDraft
  split
  · exact ⟨⟨h.used.filled, h.used.returned⟩, h.shown, fun hserved => (by cases hserved),
      fun _ _ _ => rfl⟩
  · exact h

theorem Kept.prepareReviewedAutoSave (h : Kept hook) :
    Kept (prepareReviewedAutoSave ops hook) := by
  unfold FormDraft.prepareReviewedAutoSave
  split
  · exact h
  · rename_i draft hdraft
    split
    · exact h.giveBack (h.shown draft hdraft)
    · split
      · exact h.congr rfl rfl rfl rfl rfl rfl rfl
      · exact h

theorem Kept.rejectDraft (h : Kept hook) (reason : String) : Kept (rejectDraft hook reason) := by
  unfold FormDraft.rejectDraft
  split
  · exact h
  · split
    · exact h.congr rfl rfl rfl rfl rfl rfl rfl
    · exact h

theorem selection_setDraft (ops : FormOps Form) (hook : DraftHook Form)
    (draft : Option AutoScoutDraft) (loading : Bool) :
    (setDraft ops hook draft loading).selection = hook.selection := by
  unfold setDraft
  simp only
  split
  · rfl
  · exact (applyEffect_keeps ..).2.1.trans (loadEffect_keeps ..).2.1

theorem Kept.answered (h : Kept hook) {request : DraftRequest} {answer : DraftAnswer}
    (howns : ofRequest request answer = true)
    (htimely : Timely hook (.answer request answer)) :
    Kept (answered ops hook request answer) := by
  have hown : ∀ draft, answer = .draft draft → ∀ d ∈ draft,
      draftSelection d = hook.selection := by
    rintro draft rfl d hd
    cases hd
    exact (of_decide_eq_true howns).trans htimely
  have herror : ∀ error, Kept { hook with error := error } :=
    fun _ => h.congr rfl rfl rfl rfl rfl rfl rfl
  cases request with
  | refresh selection =>
      cases answer with
      | draft draft =>
          have hnext : Kept { hook with error := "", refreshInFlight := false } :=
            h.congr rfl rfl rfl rfl rfl rfl rfl
          exact hnext.setDraft (hown draft rfl) _
      | failed message => exact h.congr rfl rfl rfl rfl rfl rfl rfl
  | generate selection force =>
      cases answer with
      | draft draft => exact (herror "").setDraft (hown draft rfl) false
      | failed message => exact (herror _).stopLoading
  | reject draft reason =>
      cases answer with
      | draft draft => exact (herror "").setDraft (hown draft rfl) false
      | failed message => exact (herror _).stopLoading
  | approve draft approvedBy edited =>
      cases answer with
      | failed message => exact h.congr rfl rfl rfl rfl rfl rfl rfl
      | draft answer =>
          cases answer with
          | none => exact h.congr rfl rfl rfl rfl rfl rfl rfl
          | some d =>
              have hnext : Kept { hook with error := "", approving := false } :=
                h.congr rfl rfl rfl rfl rfl rfl rfl
              refine (hnext.setDraft (hown (some d) rfl) hook.loading).giveBack ?_
              rw [selection_setDraft]
              exact hown (some d) rfl d rfl

theorem Kept.step {next : DraftHook Form} {action : HookAction Form} (h : Kept hook)
    (htimely : Timely hook action) (hstep : hookStep ops hook action = some next) :
    Kept next := by
  cases action with
  | setProps selection enabled visible =>
      cases hstep
      exact h.setProps htimely
  | edit scoutProfile form notes =>
      cases hstep
      exact h.congr rfl rfl rfl rfl rfl rfl rfl
  | poll =>
      simp only [hookStep] at hstep
      split at hstep
      · cases hstep
        exact h.refreshDraft
      · cases hstep
  | generate forceRegenerate =>
      cases hstep
      exact h.generateDraft forceRegenerate
  | prepare =>
      cases hstep
      exact h.prepareReviewedAutoSave
  | reject reason =>
      cases hstep
      exact h.rejectDraft reason
  | answer request answer =>
      simp only [hookStep] at hstep
      split at hstep
      · rename_i hguard
        cases hstep
        have hnext : Kept { hook with inFlight := hook.inFlight.erase request } :=
          h.congr rfl rfl rfl rfl rfl rfl rfl
        refine hnext.answered hguard.2 ?_
        cases answer with
        | failed message => exact htimely
        | draft draft =>
            cases draft with
            | none => exact htimely
            | some d => exact htimely
      · cases hstep

theorem kept_mounted (selection : Selection) (enabled visible : Bool) (scoutProfile : String)
    (form : Form) (notes : String) :
    Kept (mounted selection enabled visible scoutProfile form notes) := by
  unfold mounted
  generalize hempty : (⟨selection, enabled, visible, scoutProfile, form, notes, none, false,
    false, "", none, false, [], [], [], false⟩ : DraftHook Form) = empty
  obtain ⟨hdraft, hs, he, hv⟩ := loadEffect_keeps empty none
  have hnone : (loadEffect empty none).draft = none := by rw [hdraft, ← hempty]
  constructor
  case used =>
    have hused : Used empty := by
      rw [← hempty]
      exact ⟨fun _ huse => absurd huse List.not_mem_nil,
        fun _ huse => absurd huse List.not_mem_nil⟩
    exact hused.loadEffect none
  case shown =>
    intro d hd
    rw [hnone] at hd
    cases hd
  case unserved => exact fun _ => hnone
  case loaded =>
    rw [he, hv, hs]
    intro henabled hvisible hready
    exact loadEffect_served henabled hvisible hready (by rw [← hempty]) (by rw [← hempty])

/-- While answers come in time no draft is used for another robot, and every switch loads. -/
theorem right_of_timely
    (h : Transition.ReachableWhen (hookSystem ops) Timely hook) : Right hook := by
  have hkept : Kept hook := by
    refine h.invariant ?_ fun _ _ _ hkept htimely hstep => hkept.step htimely hstep
    rintro _ ⟨selection, enabled, visible, scoutProfile, form, notes, rfl⟩
    exact kept_mounted ..
  exact hkept.right

end Hook

/-! ### Two runs -/

/-- A form of one field. -/
def textOps : FormOps String where
  applyAutoScoutDraftPayload form payload :=
    (payload.formPatch.lookup "text").getD form
  field form _ := form

def robotA : Selection := ⟨"2026test", "2026test_qm1", "frc1"⟩
def robotB : Selection := ⟨"2026test", "2026test_qm1", "frc2"⟩

def draftA : AutoScoutDraft where
  id := 1
  eventKey := "2026test"
  matchKey := "2026test_qm1"
  teamKey := "frc1"
  status := .ready
  draftPayload := ⟨[("text", "three cycles")], "", []⟩

def onRobotA : DraftHook String :=
  mounted robotA true true "Scout" "" ""

/-- The draft of the first robot comes, and the scout goes on to the second. -/
def timelyRun : List (HookAction String) :=
  [.answer (.refresh robotA) (.draft (some draftA)), .setProps robotB true true]

theorem right_of_timely_run :
    ∃ hook, (hookSystem textOps).run onRobotA timelyRun = some hook ∧
      hook.filled = [⟨robotA, draftA⟩] ∧ hook.inFlight = [.refresh robotB] ∧ Right hook := by
  refine ⟨_, rfl, by decide +kernel, by decide +kernel,
    @right_of_timely String textOps _ ?_⟩
  exact Transition.reachableWhen_of_run timelyRun
    (.start ⟨robotA, true, true, "Scout", "", "", rfl⟩) (by decide +kernel) rfl

/-- The scout goes on to the second robot before the draft of the first one comes. -/
def lateRun : List (HookAction String) :=
  [.setProps robotB true true, .answer (.refresh robotA) (.draft (some draftA))]

/-- The form of the second robot is filled from the first one's draft, and the second one's
draft was never asked for. -/
theorem late_draft_fills :
    ∃ hook, Transition.Reachable (hookSystem textOps) hook ∧
      hook.filled = [⟨robotB, draftA⟩] ∧ hook.inFlight = [] ∧ ¬ Right hook := by
  refine ⟨_, Transition.reachable_of_run lateRun
    (show (hookSystem textOps).start onRobotA from
      ⟨robotA, true, true, "Scout", "", "", rfl⟩) rfl, by decide +kernel, by decide +kernel, ?_⟩
  intro h
  exact absurd (h.shown draftA rfl) (by decide)

end Frcmob.FormDraft
