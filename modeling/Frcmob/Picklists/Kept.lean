import Mathlib.Data.List.Perm.Basic
import Frcmob.Picklists.Editor

/-!
What the drafts, the writes in flight and the server's answers have to do with each other,
whoever of the editors acts: a draft has the content of the list's latest edit, a write that
is still the draft's object has it too, and no two writes of a list are in flight.
-/

namespace Frcmob.PicklistEditor
open Function (update)

variable {s t : App} {key : Key} {draft : Draft} {flight : Flight}

def App.latest (s : App) (key : Key) : Option Content := (s.edits key).getLast?

/-- Nothing in storage is still to be read for this list. -/
def App.Loaded (s : App) (key : Key) : Prop :=
  s.memory key = none → s.readable key = none

/-- The latest edit was taken by the server as it is, or discarded. -/
def App.Closed (s : App) (key : Key) (content : Content) : Prop :=
  (key, (s.edits key).length, content) ∈ s.accepted ∨
    (key, (s.edits key).length) ∈ s.discarded

/-- What the server showed in place of a draft is the same list. -/
def App.FitsConflict (s : App) (key : Key) (draft : Draft) : Prop :=
  ∀ shared, draft.conflict = some shared → shared.id = key.2 ∧ s.Shows shared

structure App.Fits (s : App) (key : Key) (draft : Draft) : Prop where
  id : draft.doc.id = key.2
  event : s.Shows draft.doc
  conflict : s.FitsConflict key draft
  latest : ∀ content, s.latest key = some content → draft.doc.toContent = content
  same : ∀ flight ∈ s.flights, flight.key = key → draft.ref = flight.ref →
    flight.sent = draft.doc ∧ flight.edit = (s.edits key).length
  fresh : draft.ref < s.nextRef

structure Kept (s : App) : Prop where
  fits : ∀ key draft, s.memory key = some draft → s.Fits key draft
  stored : ∀ key draft, s.localStorage key = some draft →
    draft.doc.eventKey = s.eventOf key.2 ∧ s.FitsConflict key draft
  closed : ∀ key content, s.latest key = some content → s.memory key = none →
    s.Closed key content
  edited : ∀ key content, s.latest key = some content → s.Loaded key
  sent : ∀ flight ∈ s.flights, flight.ref < s.nextRef ∧ s.Loaded flight.key
  one : (s.flights.map (·.key)).Nodup
  owed : ∀ key version, s.owed key = some version →
    (∃ draft, s.memory key = some draft ∧ draft.doc.version = version ∧ draft.conflict = none) ∧
    ∀ flight ∈ s.flights, flight.key ≠ key
  due : ∀ flight ∈ s.flights, ∀ version, flight.due = some version →
    flight.sent.version = version

/-- The draft of `key` was written anew, and nothing else but what goes with it. -/
structure Redrawn (s t : App) (key : Key) (draft : Draft) : Prop where
  memory : t.memory = update s.memory key (some draft)
  stored : ∀ k copy, t.localStorage k = some copy →
    s.localStorage k = some copy ∨
      (k = key ∧ copy.doc = draft.doc ∧ copy.conflict = draft.conflict)
  other : ∀ k, k ≠ key → t.localStorage k = s.localStorage k
  edits : ∀ k, k ≠ key → t.edits k = s.edits k
  owed : ∀ k, k ≠ key → t.owed k = s.owed k
  flights : t.flights = s.flights
  accepted : t.accepted = s.accepted
  discarded : t.discarded = s.discarded
  eventOf : t.eventOf = s.eventOf
  editors : t.editors = s.editors
  newest : t.newest = s.newest
  session : t.session = s.session
  storageFull : t.storageFull = s.storageFull
  nextRef : s.nextRef ≤ t.nextRef

namespace Redrawn

theorem memory_self (h : Redrawn s t key draft) : t.memory key = some draft := by
  rw [h.memory, Function.update_self]

theorem memory_of_ne (h : Redrawn s t key draft) {k : Key} (hk : k ≠ key) :
    t.memory k = s.memory k := by
  rw [h.memory, Function.update_of_ne hk]

theorem loaded (h : Redrawn s t key draft) {k : Key} (hk : s.Loaded k) : t.Loaded k := by
  intro hnone
  by_cases hkey : k = key
  · subst hkey
    rw [h.memory_self] at hnone
    cases hnone
  · rw [h.memory_of_ne hkey] at hnone
    rw [App.readable, h.other k hkey]
    exact hk hnone

theorem shows (h : Redrawn s t key draft) {picklist : Picklist} :
    t.Shows picklist ↔ s.Shows picklist := by
  rw [App.Shows, App.Shows, h.eventOf]

theorem fitsConflict (h : Redrawn s t key draft) {k : Key} {other : Draft} :
    t.FitsConflict k other ↔ s.FitsConflict k other := by
  simp only [App.FitsConflict, h.shows]

theorem count (h : Redrawn s t key draft) {n : Nat} (hn : t.nextRef ≤ n) :
    Redrawn s { t with nextRef := n } key draft :=
  ⟨h.memory, h.stored, h.other, h.edits, h.owed, h.flights, h.accepted, h.discarded, h.eventOf,
    h.editors, h.newest, h.session, h.storageFull, Nat.le_trans h.nextRef hn⟩

theorem edited (h : Redrawn s t key draft) (edits : List Content) :
    Redrawn s { t with edits := update t.edits key edits } key draft :=
  ⟨h.memory, h.stored, h.other,
    fun k hk => (Function.update_of_ne hk _ _).trans (h.edits k hk), h.owed, h.flights,
    h.accepted, h.discarded, h.eventOf, h.editors, h.newest, h.session, h.storageFull, h.nextRef⟩

theorem owing (h : Redrawn s t key draft) (owed : Option Nat) :
    Redrawn s { t with owed := update t.owed key owed } key draft :=
  ⟨h.memory, h.stored, h.other, h.edits,
    fun k hk => (Function.update_of_ne hk _ _).trans (h.owed k hk), h.flights,
    h.accepted, h.discarded, h.eventOf, h.editors, h.newest, h.session, h.storageFull, h.nextRef⟩

end Redrawn

/-- A draft written anew keeps all that holds of the drafts, if it is fit itself. -/
theorem Kept.redrawn (hs : Kept s) (h : Redrawn s t key draft) (hfits : t.Fits key draft)
    (howed : ∀ version, t.owed key = some version →
      draft.doc.version = version ∧ draft.conflict = none ∧
        ∀ flight ∈ s.flights, flight.key ≠ key) : Kept t where
  fits := by
    intro k other hother
    by_cases hk : k = key
    · subst hk
      rw [h.memory_self, Option.some.injEq] at hother
      exact hother ▸ hfits
    · rw [h.memory_of_ne hk] at hother
      have hold := hs.fits k other hother
      refine ⟨hold.id, h.shows.mpr hold.event, h.fitsConflict.mpr hold.conflict, ?_, ?_,
        Nat.lt_of_lt_of_le hold.fresh h.nextRef⟩
      · rw [App.latest, h.edits k hk]
        exact hold.latest
      · rw [h.flights, h.edits k hk]
        exact hold.same
  stored := by
    intro k copy hcopy
    rw [h.eventOf, h.fitsConflict]
    cases h.stored k copy hcopy with
    | inl hold => exact hs.stored k copy hold
    | inr hnew =>
        obtain ⟨rfl, hdoc, hconflict⟩ := hnew
        have hfit := h.fitsConflict.mp hfits.conflict
        refine ⟨by rw [hdoc, h.shows.mp hfits.event, hfits.id], ?_⟩
        rw [App.FitsConflict, hconflict]
        exact hfit
  closed := by
    intro k content hlatest hnone
    by_cases hk : k = key
    · subst hk
      rw [h.memory_self] at hnone
      cases hnone
    · rw [h.memory_of_ne hk] at hnone
      rw [App.latest, h.edits k hk] at hlatest
      rw [App.Closed, h.edits k hk, h.accepted, h.discarded]
      exact hs.closed k content hlatest hnone
  edited := by
    intro k content hlatest
    by_cases hk : k = key
    · intro hnone
      subst hk
      rw [h.memory_self] at hnone
      cases hnone
    · rw [App.latest, h.edits k hk] at hlatest
      exact h.loaded (hs.edited k content hlatest)
  sent := by
    intro flight hflight
    rw [h.flights] at hflight
    have hold := hs.sent flight hflight
    exact ⟨Nat.lt_of_lt_of_le hold.1 h.nextRef, h.loaded hold.2⟩
  one := h.flights ▸ hs.one
  owed := by
    intro k version hv
    rw [h.flights]
    by_cases hk : k = key
    · subst hk
      obtain ⟨hversion, hconflict, hnone⟩ := howed version hv
      exact ⟨⟨draft, h.memory_self, hversion, hconflict⟩, hnone⟩
    · rw [h.owed k hk] at hv
      rw [h.memory_of_ne hk]
      exact hs.owed k version hv
  due := h.flights ▸ hs.due

/-- What concerns the editors alone concerns no draft. -/
theorem Kept.setEditors (hs : Kept s) (editors : Nat → Editor) (newest : Nat) :
    Kept { s with editors := editors, newest := newest } :=
  ⟨fun k d hd => let h := hs.fits k d hd
      ⟨h.id, h.event, h.conflict, h.latest, h.same, h.fresh⟩,
    hs.stored, hs.closed, hs.edited, hs.sent, hs.one, hs.owed, hs.due⟩

/-! ### The drafts -/

theorem readable_event (hs : Kept s) {copy : Draft} (h : s.readable key = some copy) :
    copy.doc.id = key.2 ∧ s.Shows copy.doc ∧ s.FitsConflict key copy := by
  simp only [App.readable, Option.filter_eq_some_iff, decide_eq_true_eq] at h
  obtain ⟨hevent, hconflict⟩ := hs.stored key copy h.1
  exact ⟨h.2, by rw [App.Shows, hevent, h.2], hconflict⟩

theorem load_cases (s : App) (key : Key) :
    (s.load key = s ∧ s.Loaded key) ∨
    ∃ copy, s.memory key = none ∧ s.readable key = some copy ∧
      s.load key = { s with
        memory := update s.memory key (some { copy with ref := s.nextRef })
        nextRef := s.nextRef + 1 } := by
  cases hm : s.memory key with
  | some draft => exact .inl ⟨by simp [App.load, hm], by simp [App.Loaded, hm]⟩
  | none =>
      cases hr : s.readable key with
      | none => exact .inl ⟨by simp [App.load, hm, hr], by simp [App.Loaded, hr]⟩
      | some copy => exact .inr ⟨copy, rfl, rfl, by simp [App.load, hm, hr]⟩

theorem load_of_loaded (h : s.Loaded key) : s.load key = s := by
  cases load_cases s key with
  | inl hsame => exact hsame.1
  | inr hcopy =>
      obtain ⟨copy, hnone, hreadable, -⟩ := hcopy
      rw [h hnone] at hreadable
      cases hreadable

theorem load_redrawn (s : App) (key : Key) :
    (s.load key = s ∧ s.Loaded key) ∨
    ∃ copy, s.memory key = none ∧ s.readable key = some copy ∧
      Redrawn s (s.load key) key { copy with ref := s.nextRef } ∧
      (s.load key).edits = s.edits ∧ (s.load key).owed = s.owed ∧
      (s.load key).nextRef = s.nextRef + 1 := by
  cases load_cases s key with
  | inl hsame => exact .inl hsame
  | inr hcopy =>
      obtain ⟨copy, hnone, hreadable, heq⟩ := hcopy
      refine .inr ⟨copy, hnone, hreadable, ?_, ?_⟩
      · rw [heq]
        exact ⟨rfl, fun _ _ h => .inl h, fun _ _ => rfl, fun _ _ => rfl, fun _ _ => rfl, rfl, rfl,
          rfl, rfl, rfl, rfl, rfl, rfl, Nat.le_succ _⟩
      · rw [heq]
        exact ⟨rfl, rfl, rfl⟩

/-! Reading a draft concerns nothing else. -/

section Load
variable (s : App) (key : Key)

@[simp] theorem load_editors : (s.load key).editors = s.editors := by
  cases load_cases s key with
  | inl h => rw [h.1]
  | inr h => obtain ⟨_, -, -, heq⟩ := h; rw [heq]

@[simp] theorem load_newest : (s.load key).newest = s.newest := by
  cases load_cases s key with
  | inl h => rw [h.1]
  | inr h => obtain ⟨_, -, -, heq⟩ := h; rw [heq]

@[simp] theorem load_flights : (s.load key).flights = s.flights := by
  cases load_cases s key with
  | inl h => rw [h.1]
  | inr h => obtain ⟨_, -, -, heq⟩ := h; rw [heq]

@[simp] theorem load_edits : (s.load key).edits = s.edits := by
  cases load_cases s key with
  | inl h => rw [h.1]
  | inr h => obtain ⟨_, -, -, heq⟩ := h; rw [heq]

@[simp] theorem load_session : (s.load key).session = s.session := by
  cases load_cases s key with
  | inl h => rw [h.1]
  | inr h => obtain ⟨_, -, -, heq⟩ := h; rw [heq]

@[simp] theorem load_eventOf : (s.load key).eventOf = s.eventOf := by
  cases load_cases s key with
  | inl h => rw [h.1]
  | inr h => obtain ⟨_, -, -, heq⟩ := h; rw [heq]

@[simp] theorem load_keyOf (k id : Nat) : (s.load key).keyOf k id = s.keyOf k id := by
  rw [App.keyOf, App.keyOf, load_editors]

@[simp] theorem load_editor (k : Nat) : (s.load key).editor k = s.editor k := by
  rw [App.editor, App.editor, load_editors]

theorem load_shows {picklist : Picklist} : (s.load key).Shows picklist ↔ s.Shows picklist := by
  rw [App.Shows, App.Shows, load_eventOf]

end Load

theorem load_loaded (s : App) (key : Key) : (s.load key).Loaded key := by
  cases load_redrawn s key with
  | inl hsame => rw [hsame.1]; exact hsame.2
  | inr hcopy =>
      obtain ⟨copy, -, -, h, -⟩ := hcopy
      intro hnone
      rw [h.memory_self] at hnone
      cases hnone

/-- Nobody edited, sent or owes a list that is still to be read. -/
theorem Kept.load (hs : Kept s) (key : Key) : Kept (s.load key) := by
  cases load_redrawn s key with
  | inl hsame => rw [hsame.1]; exact hs
  | inr hcopy =>
      obtain ⟨copy, hnone, hreadable, h, hedits, howed, hnext⟩ := hcopy
      have hunread : ¬ s.Loaded key := by
        intro hloaded
        rw [hloaded hnone] at hreadable
        cases hreadable
      refine hs.redrawn h ⟨(readable_event hs hreadable).1,
        h.shows.mpr (readable_event hs hreadable).2.1,
        h.fitsConflict.mpr (readable_event hs hreadable).2.2, ?_, ?_, ?_⟩ ?_
      · intro content hlatest
        rw [App.latest, hedits] at hlatest
        exact absurd (hs.edited key content hlatest) hunread
      · intro flight hflight hkey
        rw [h.flights] at hflight
        exact absurd (hkey ▸ (hs.sent flight hflight).2) hunread
      · rw [hnext]
        exact Nat.lt_succ_self _
      · intro version hversion
        rw [howed] at hversion
        obtain ⟨⟨draft, hdraft, -⟩, -⟩ := hs.owed key version hversion
        rw [hnone] at hdraft
        cases hdraft

/-- `persist` writes the draft, but for the error that it may put on it. -/
theorem persist_redrawn (s : App) (workspaceId : Nat) (draft : Draft) :
    ∃ error, Redrawn s (s.persist workspaceId draft) (workspaceId, draft.doc.id)
        { draft with error := error } ∧
      (s.persist workspaceId draft).edits = s.edits ∧
      (s.persist workspaceId draft).owed = s.owed ∧
      (s.persist workspaceId draft).nextRef = s.nextRef ∧
      (s.storageFull = false → error = draft.error) := by
  by_cases hfull : s.storageFull
  · have heq : s.persist workspaceId draft = { s with
        memory := update s.memory (workspaceId, draft.doc.id)
          (some { draft with error := some App.storageFullText }) } := if_pos hfull
    rw [heq]
    refine ⟨some App.storageFullText, ?_, rfl, rfl, rfl, fun h => by simp [h] at hfull⟩
    exact ⟨rfl, fun _ _ h => .inl h, fun _ _ => rfl, fun _ _ => rfl, fun _ _ => rfl, rfl, rfl,
      rfl, rfl, rfl, rfl, rfl, rfl, Nat.le_refl _⟩
  · have heq : s.persist workspaceId draft = { s with
        memory := update s.memory (workspaceId, draft.doc.id) (some draft)
        localStorage := update s.localStorage (workspaceId, draft.doc.id) (some draft) } :=
      if_neg hfull
    rw [heq]
    refine ⟨draft.error, ?_, rfl, rfl, rfl, fun _ => rfl⟩
    refine ⟨rfl, ?_, fun k hk => Function.update_of_ne hk _ _, fun _ _ => rfl, fun _ _ => rfl,
      rfl, rfl, rfl, rfl, rfl, rfl, rfl, rfl, Nat.le_refl _⟩
    intro k copy hcopy
    by_cases hk : k = (workspaceId, draft.doc.id)
    · subst hk
      simp only [Function.update_self, Option.some.injEq] at hcopy
      exact .inr ⟨rfl, hcopy ▸ rfl, hcopy ▸ rfl⟩
    · simp only [Function.update_of_ne hk] at hcopy
      exact .inl hcopy

/-- Only the flags of the draft change: the object stays, and what is owed is not in conflict. -/
theorem Kept.flagged (hs : Kept s) {old : Draft} (hold : s.memory key = some old)
    (h : Redrawn s t key draft) (hedits : t.edits key = s.edits key)
    (href : draft.ref = old.ref) (hdoc : draft.doc = old.doc)
    (hconflict : s.FitsConflict key draft)
    (howed : t.owed key = none ∨ (t.owed key = s.owed key ∧ draft.conflict = old.conflict)) :
    Kept t := by
  have hfits := hs.fits key old hold
  refine hs.redrawn h ⟨hdoc ▸ hfits.id, h.shows.mpr (hdoc ▸ hfits.event),
    h.fitsConflict.mpr hconflict, ?_, ?_, ?_⟩ ?_
  · rw [App.latest, hedits, hdoc]
    exact hfits.latest
  · rw [h.flights, hedits, href, hdoc]
    exact hfits.same
  · rw [href]
    exact Nat.lt_of_lt_of_le hfits.fresh h.nextRef
  · intro version hversion
    cases howed with
    | inl hnone => rw [hnone] at hversion; cases hversion
    | inr hsame =>
        rw [hsame.1] at hversion
        obtain ⟨⟨other, hother, hv, hfree⟩, hnone⟩ := hs.owed key version hversion
        rw [hold, Option.some.injEq] at hother
        subst hother
        exact ⟨hdoc ▸ hv, hsame.2 ▸ hfree, hnone⟩

/-- The draft is a new object; no write in flight can be it. -/
theorem Kept.renewed (hs : Kept s) (h : Redrawn s t key draft)
    (hid : draft.doc.id = key.2) (hevent : s.Shows draft.doc)
    (hconflict : s.FitsConflict key draft)
    (href : draft.ref = s.nextRef) (hnext : s.nextRef < t.nextRef)
    (hlatest : ∀ content, t.latest key = some content → draft.doc.toContent = content)
    (howed : ∀ version, t.owed key = some version →
      draft.doc.version = version ∧ draft.conflict = none ∧
        ∀ flight ∈ s.flights, flight.key ≠ key) : Kept t := by
  refine hs.redrawn h ⟨hid, h.shows.mpr hevent, h.fitsConflict.mpr hconflict, hlatest, ?_,
    href ▸ hnext⟩ howed
  intro flight hflight _ hsame
  rw [h.flights] at hflight
  have := (hs.sent flight hflight).1
  omega

/-! ### Letting go of a draft -/

theorem readable_drop (s : App) (key k : Key) :
    (s.drop key).readable k = if k = key then none else s.readable k := by
  by_cases hk : k = key
  · subst hk
    simp [App.readable, App.drop]
  · simp [App.readable, App.drop, hk]

/-- The latest edit must have got to the server, or must be given up with the draft. -/
theorem Kept.drop (hs : Kept s) (key : Key)
    (hclosed : ∀ content, s.latest key = some content → s.Closed key content) :
    Kept (s.drop key) := by
  have hmemory : ∀ k, (s.drop key).memory k = if k = key then none else s.memory k := by
    intro k
    by_cases hk : k = key
    · subst hk
      simp [App.drop]
    · simp [App.drop, hk]
  have hloaded : ∀ k, s.Loaded k → (s.drop key).Loaded k := by
    intro k hk hnone
    rw [readable_drop]
    rw [hmemory] at hnone
    split at hnone
    next h => rw [if_pos h]
    next h => rw [if_neg h]; exact hk hnone
  refine ⟨?_, ?_, ?_, fun k content h => hloaded k (hs.edited k content h), ?_, hs.one, ?_,
    hs.due⟩
  · intro k draft hdraft
    rw [hmemory] at hdraft
    split at hdraft
    · cases hdraft
    · have hold := hs.fits k draft hdraft
      exact ⟨hold.id, hold.event, hold.conflict, hold.latest, hold.same, hold.fresh⟩
  · intro k draft hdraft
    by_cases hk : k = key
    · subst hk
      simp [App.drop] at hdraft
    · simp only [App.drop, Function.update_of_ne hk] at hdraft
      exact hs.stored k draft hdraft
  · intro k content hlatest hnone
    by_cases hk : k = key
    · subst hk
      exact hclosed content hlatest
    · rw [hmemory, if_neg hk] at hnone
      exact hs.closed k content hlatest hnone
  · intro flight hflight
    exact ⟨(hs.sent flight hflight).1, hloaded _ (hs.sent flight hflight).2⟩
  · intro k version hversion
    by_cases hk : k = key
    · subst hk
      simp [App.drop] at hversion
    · simp only [App.drop, Function.update_of_ne hk] at hversion
      rw [hmemory, if_neg hk]
      exact hs.owed k version hversion

/-- Longer records of what the server took and of what was discarded. -/
theorem Kept.record (hs : Kept s) {accepted : List (Key × Nat × Content)}
    {discarded : List (Key × Nat)} (haccepted : s.accepted ⊆ accepted)
    (hdiscarded : s.discarded ⊆ discarded) :
    Kept { s with accepted := accepted, discarded := discarded } := by
  refine ⟨fun k d hd => let h := hs.fits k d hd
      ⟨h.id, h.event, h.conflict, h.latest, h.same, h.fresh⟩,
    hs.stored, ?_, hs.edited, hs.sent, hs.one, hs.owed, hs.due⟩
  intro k content hlatest hnone
  cases hs.closed k content hlatest hnone with
  | inl hin => exact .inl (haccepted hin)
  | inr hin => exact .inr (hdiscarded hin)

theorem Kept.giveUp (hs : Kept s) (key : Key) : Kept (s.giveUp key) := by
  have hrecord : Kept { s with discarded := (key, (s.edits key).length) :: s.discarded } :=
    hs.record (List.Subset.refl _) (List.subset_cons_self _ _)
  exact hrecord.drop key fun content _ => .inr List.mem_cons_self

/-! ### Writes -/

theorem Kept.send (hs : Kept s) (k : Nat) (hdraft : s.memory key = some draft)
    (hnone : ∀ flight ∈ s.flights, flight.key ≠ key) : Kept (s.send k key draft) := by
  have hfits := hs.fits key draft hdraft
  have hloaded : s.Loaded key := by
    intro hmemory
    rw [hdraft] at hmemory
    cases hmemory
  refine ⟨?_, hs.stored, hs.closed, hs.edited, ?_, ?_, ?_, ?_⟩
  · intro other held hheld
    have hold := hs.fits other held hheld
    refine ⟨hold.id, hold.event, hold.conflict, hold.latest, ?_, hold.fresh⟩
    intro flight hflight hkey href
    simp only [App.send, List.mem_append, List.mem_singleton] at hflight
    cases hflight with
    | inl hflight => exact hold.same flight hflight hkey href
    | inr hnew =>
        subst hnew
        simp only at hkey
        subst hkey
        have hsame : some draft = some held := hdraft.symm.trans hheld
        rw [Option.some.injEq] at hsame
        exact ⟨hsame ▸ rfl, rfl⟩
  · intro flight hflight
    simp only [App.send, List.mem_append, List.mem_singleton] at hflight
    cases hflight with
    | inl hflight => exact hs.sent flight hflight
    | inr hnew => subst hnew; exact ⟨hfits.fresh, hloaded⟩
  · simp only [App.send, List.map_append, List.map_cons, List.map_nil]
    rw [List.nodup_append]
    refine ⟨hs.one, List.nodup_singleton _, ?_⟩
    intro a ha b hb hab
    obtain ⟨flight, hflight, rfl⟩ := List.mem_map.mp ha
    exact hnone flight hflight (hab.trans (List.mem_singleton.mp hb))
  · intro other version hversion
    by_cases hk : other = key
    · subst hk
      simp [App.send] at hversion
    · simp only [App.send, Function.update_of_ne hk] at hversion
      obtain ⟨hheld, hfree⟩ := hs.owed other version hversion
      refine ⟨hheld, ?_⟩
      intro flight hflight
      simp only [App.send, List.mem_append, List.mem_singleton] at hflight
      cases hflight with
      | inl hflight => exact hfree flight hflight
      | inr hnew => subst hnew; exact Ne.symm hk
  · intro flight hflight version hversion
    simp only [App.send, List.mem_append, List.mem_singleton] at hflight
    cases hflight with
    | inl hflight => exact hs.due flight hflight version hversion
    | inr hnew =>
        subst hnew
        obtain ⟨⟨held, hheld, hv, -⟩, -⟩ := hs.owed key version hversion
        rw [hdraft, Option.some.injEq] at hheld
        exact hheld ▸ hv

theorem Kept.answered (hs : Kept s) (i : Nat) :
    Kept { s with flights := s.flights.eraseIdx i } := by
  have hsub : s.flights.eraseIdx i ⊆ s.flights := List.eraseIdx_subset
  refine ⟨fun k d hd => let h := hs.fits k d hd
      ⟨h.id, h.event, h.conflict, h.latest, fun flight hf => h.same flight (hsub hf), h.fresh⟩,
    hs.stored, hs.closed, hs.edited, fun flight hf => hs.sent flight (hsub hf),
    hs.one.sublist ((List.eraseIdx_sublist _ _).map _), ?_,
    fun flight hf => hs.due flight (hsub hf)⟩
  intro k version hversion
  obtain ⟨hheld, hfree⟩ := hs.owed k version hversion
  exact ⟨hheld, fun flight hf => hfree flight (hsub hf)⟩

/-- Once its write is answered, no other write of the list is in flight. -/
theorem Kept.answered_free (hs : Kept s) {i : Nat} (hi : s.flights[i]? = some flight) :
    ∀ other ∈ s.flights.eraseIdx i, other.key ≠ flight.key := by
  obtain ⟨hlt, hget⟩ := List.getElem?_eq_some_iff.mp hi
  have hperm := (List.getElem_cons_eraseIdx_perm hlt).map (·.key)
  have hnodup := hperm.nodup_iff.mpr hs.one
  rw [List.map_cons, hget, List.nodup_cons] at hnodup
  intro other hother hkey
  exact hnodup.1 (hkey ▸ List.mem_map_of_mem hother)

end Frcmob.PicklistEditor
