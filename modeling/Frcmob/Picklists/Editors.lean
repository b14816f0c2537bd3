import Frcmob.Picklists.Kept

/-!
What the newest editor shows is the draft of its list, and the lists that it waits to save are
its own: no earlier editor has a write of them in flight. This is kept by every step but those
by which the page takes up a list whose write an earlier editor still waits for.
-/

namespace Frcmob.PicklistEditor
open Function (update)

variable {s t : App} {key : Key} {draft : Draft} {flight : Flight} {doc : Picklist} {k id : Nat}

/-- The writes of a list in flight are the newest editor's. -/
def App.Own (s : App) (key : Key) : Prop :=
  ∀ flight ∈ s.flights, flight.key = key → flight.editor = s.newest

instance (s : App) (key : Key) : Decidable (s.Own key) :=
  inferInstanceAs (Decidable (∀ flight ∈ s.flights, _))

structure App.ShowsDoc (s : App) (doc : Picklist) : Prop where
  event : s.Shows doc
  loaded : s.Loaded (s.keyOf s.newest doc.id)
  current : ∀ draft, s.memory (s.keyOf s.newest doc.id) = some draft → draft.doc = doc
  own : s.memory (s.keyOf s.newest doc.id) = none ∨ s.Own (s.keyOf s.newest doc.id)

/-- What holds of the editors whatever the newest one shows. -/
structure Timely (s : App) : Prop where
  timers : ∀ id ∈ (s.editor s.newest).timers, s.Own (s.keyOf s.newest id)
  confirmed : ∀ id picklist, (s.editor s.newest).confirmed id = some picklist →
    picklist.id = id ∧ s.Shows picklist
  sender : ∀ flight ∈ s.flights, flight.editor ≤ s.newest ∧
    flight.key = s.keyOf flight.editor flight.key.2
  idle : ∀ k, k ≠ s.newest → (s.editor k).timers = []

structure Page (s : App) : Prop extends Timely s where
  shown : ∀ doc, (s.editor s.newest).active = some doc → s.ShowsDoc doc

/-- A list that no earlier editor has a write of, and the newest one's timers and its page are
not concerned with it unless it is the newest's own. -/
structure Free (s : App) (k : Nat) (key : Key) : Prop where
  own : ∀ flight ∈ s.flights, flight.key = key → flight.editor = k
  timers : k ≠ s.newest → ∀ id ∈ (s.editor s.newest).timers, s.keyOf s.newest id ≠ key
  shown : k ≠ s.newest → ∀ doc, (s.editor s.newest).active = some doc →
    s.keyOf s.newest doc.id ≠ key

theorem Free.newest (h : s.Own key) : Free s s.newest key :=
  ⟨h, fun hne => absurd rfl hne, fun hne => absurd rfl hne⟩

namespace Redrawn

theorem keyOf (h : Redrawn s t key draft) (k id : Nat) : t.keyOf k id = s.keyOf k id := by
  rw [App.keyOf, App.keyOf, h.editors]

theorem editor (h : Redrawn s t key draft) (k : Nat) : t.editor k = s.editor k := by
  rw [App.editor, App.editor, h.editors]

theorem own (h : Redrawn s t key draft) (other : Key) : t.Own other ↔ s.Own other := by
  rw [App.Own, App.Own, h.flights, h.newest]

theorem showsDoc (h : Redrawn s t key draft) (hdoc : s.ShowsDoc doc)
    (hself : s.keyOf s.newest doc.id = key → draft.doc = doc ∧ s.Own key) : t.ShowsDoc doc := by
  have hkeyOf : t.keyOf t.newest doc.id = s.keyOf s.newest doc.id := by
    rw [h.newest, h.keyOf]
  refine ⟨h.shows.mpr hdoc.event, ?_, ?_, ?_⟩
  · rw [hkeyOf]
    exact h.loaded hdoc.loaded
  · rw [hkeyOf]
    intro other hother
    by_cases hk : s.keyOf s.newest doc.id = key
    · rw [hk, h.memory_self, Option.some.injEq] at hother
      rw [← hother]
      exact (hself hk).1
    · rw [h.memory_of_ne hk] at hother
      exact hdoc.current other hother
  · rw [hkeyOf, h.own]
    by_cases hk : s.keyOf s.newest doc.id = key
    · rw [hk]
      exact .inr (hself hk).2
    · rw [h.memory_of_ne hk]
      exact hdoc.own

theorem free (h : Redrawn s t key draft) {other : Key} (hfree : Free s k other) :
    Free t k other := by
  refine ⟨?_, ?_, ?_⟩
  · rw [h.flights]
    exact hfree.own
  · rw [h.newest, h.editor]
    intro hne id hid
    rw [h.keyOf]
    exact hfree.timers hne id hid
  · rw [h.newest, h.editor]
    intro hne doc hdoc
    rw [h.keyOf]
    exact hfree.shown hne doc hdoc

end Redrawn

theorem Timely.redrawn (hp : Timely s) (h : Redrawn s t key draft) : Timely t where
  timers := by
    rw [h.newest, h.editor]
    intro id hid
    rw [h.own, h.keyOf]
    exact hp.timers id hid
  confirmed := by
    rw [h.newest, h.editor]
    intro id picklist hpicklist
    rw [h.shows]
    exact hp.confirmed id picklist hpicklist
  sender := by
    rw [h.flights, h.newest]
    intro flight hflight
    rw [h.keyOf]
    exact hp.sender flight hflight
  idle := by
    rw [h.newest]
    intro k hk
    rw [h.editor]
    exact hp.idle k hk

/-- A draft written anew under the page keeps the page right if it is the one it shows. -/
theorem Page.redrawn (hp : Page s) (h : Redrawn s t key draft)
    (hself : ∀ doc, (s.editor s.newest).active = some doc → s.keyOf s.newest doc.id = key →
      draft.doc = doc ∧ s.Own key) : Page t where
  toTimely := hp.toTimely.redrawn h
  shown := by
    intro doc hdoc
    rw [h.newest, h.editor] at hdoc
    exact h.showsDoc (hp.shown doc hdoc) (hself doc hdoc)

theorem Page.load (hp : Page s) (key : Key) : Page (s.load key) := by
  cases load_redrawn s key with
  | inl hsame => rw [hsame.1]; exact hp
  | inr hcopy =>
      obtain ⟨copy, hnone, hreadable, h, -⟩ := hcopy
      apply hp.redrawn h
      intro doc hdoc hkey
      have hloaded := (hp.shown doc hdoc).loaded
      rw [hkey] at hloaded
      rw [hloaded hnone] at hreadable
      cases hreadable

theorem free_load (hfree : Free s k key) (other : Key) : Free (s.load other) k key := by
  cases load_redrawn s other with
  | inl hsame => rw [hsame.1]; exact hfree
  | inr hcopy =>
      obtain ⟨copy, -, -, h, -⟩ := hcopy
      exact h.free hfree

/-! ### What an editor shows -/

/-- Refs as good as before, and as much of the page as the newest editor then shows. -/
theorem Timely.setEditor (hp : Timely s) (k : Nat) (editor : Editor)
    (hworkspace : editor.workspaceId = (s.editor k).workspaceId)
    (hold : k ≠ s.newest → editor.timers ⊆ (s.editor k).timers ∧
      ∀ doc, (s.editor s.newest).active = some doc → s.ShowsDoc doc)
    (hnew : k = s.newest →
      (∀ doc, editor.active = some doc → s.ShowsDoc doc) ∧
      (∀ id ∈ editor.timers, s.Own (s.keyOf s.newest id)) ∧
      ∀ id picklist, editor.confirmed id = some picklist →
        picklist.id = id ∧ s.Shows picklist) : Page (s.setEditor k editor) := by
  have hkeyOf : ∀ j id, (s.setEditor k editor).keyOf j id = s.keyOf j id := by
    intro j id
    by_cases hj : j = k
    · subst hj
      simp [App.keyOf, App.setEditor, hworkspace, App.editor]
    · simp [App.keyOf, App.setEditor, hj]
  have hdoc : ∀ doc, s.ShowsDoc doc → (s.setEditor k editor).ShowsDoc doc := by
    intro doc h
    have hkey : (s.setEditor k editor).keyOf (s.setEditor k editor).newest doc.id =
        s.keyOf s.newest doc.id := hkeyOf s.newest doc.id
    exact ⟨h.event, hkey ▸ h.loaded, hkey ▸ h.current, hkey ▸ h.own⟩
  have hsender : ∀ flight ∈ (s.setEditor k editor).flights, flight.editor ≤ s.newest ∧
      flight.key = (s.setEditor k editor).keyOf flight.editor flight.key.2 := by
    intro flight hflight
    rw [hkeyOf]
    exact hp.sender flight hflight
  have hidle : ∀ j, j ≠ s.newest → ((s.setEditor k editor).editor j).timers = [] := by
    intro j hj
    by_cases hjk : j = k
    · subst hjk
      have hempty := (hold hj).1
      rw [hp.idle j hj, List.subset_nil] at hempty
      simp [App.editor, App.setEditor, hempty]
    · have hsame := hp.idle j hj
      simp only [App.editor] at hsame
      simp [App.editor, App.setEditor, hjk, hsame]
  by_cases hk : k = s.newest
  · subst hk
    have heditor : (s.setEditor s.newest editor).editor s.newest = editor := by
      simp [App.editor, App.setEditor]
    obtain ⟨hshown, htimers, hconfirmed⟩ := hnew rfl
    refine ⟨⟨?_, ?_, hsender, hidle⟩, ?_⟩
    · intro id hid
      have := htimers id (heditor ▸ hid)
      rw [← hkeyOf] at this
      exact this
    · intro id picklist hpicklist
      exact hconfirmed id picklist (heditor ▸ hpicklist)
    · intro doc hactive
      exact hdoc doc (hshown doc (heditor ▸ hactive))
  · have heditor : (s.setEditor k editor).editor s.newest = s.editor s.newest := by
      simp [App.editor, App.setEditor, Function.update_of_ne (Ne.symm hk)]
    refine ⟨⟨?_, ?_, hsender, hidle⟩, ?_⟩
    · intro id hid
      have := hp.timers id (heditor ▸ hid)
      rw [← hkeyOf] at this
      exact this
    · intro id picklist hpicklist
      exact hp.confirmed id picklist (heditor ▸ hpicklist)
    · intro doc hactive
      exact hdoc doc ((hold hk).2 doc (heditor ▸ hactive))

theorem Page.setEditor (hp : Page s) (k : Nat) (editor : Editor)
    (hworkspace : editor.workspaceId = (s.editor k).workspaceId)
    (htimers : editor.timers ⊆ (s.editor k).timers)
    (hshown : k = s.newest → ∀ doc, editor.active = some doc → s.ShowsDoc doc)
    (hconfirmed : k = s.newest → ∀ id picklist, editor.confirmed id = some picklist →
      picklist.id = id ∧ s.Shows picklist) : Page (s.setEditor k editor) := by
  refine hp.toTimely.setEditor k editor hworkspace (fun _ => ⟨htimers, hp.shown⟩) ?_
  intro hk
  subst hk
  exact ⟨hshown rfl, fun id hid => hp.timers id (htimers hid), hconfirmed rfl⟩

theorem Kept.setEditor (hs : Kept s) (k : Nat) (editor : Editor) : Kept (s.setEditor k editor) :=
  hs.setEditors _ _

structure Inv (s : App) : Prop where
  kept : Kept s
  page : Page s

theorem Inv.load (h : Inv s) (key : Key) : Inv (s.load key) :=
  ⟨h.kept.load key, h.page.load key⟩

theorem Inv.publish (h : Inv s) (k : Nat) {next : Option Picklist}
    (hnext : k = s.newest → ∀ doc, next = some doc → s.ShowsDoc doc) :
    Inv (s.publish k next) := by
  have hset : Inv (s.setEditor k { s.editor k with active := next }) := by
    refine ⟨h.kept.setEditor _ _, h.page.setEditor k _ rfl (List.Subset.refl _) hnext ?_⟩
    intro hk
    exact hk ▸ h.page.confirmed
  unfold App.publish
  cases next with
  | none => exact hset
  | some doc =>
      simp only
      split
      · exact hset.load _
      · exact hset

theorem Inv.confirm (h : Inv s) (k : Nat) {picklist : Picklist} (hshows : s.Shows picklist) :
    Inv (s.confirm k picklist) := by
  refine ⟨h.kept.setEditor _ _, h.page.setEditor k _ rfl (List.Subset.refl _)
    (fun hk => hk ▸ h.page.shown) ?_⟩
  intro hk id known hknown
  subst hk
  by_cases hid : id = picklist.id
  · subst hid
    simp only [Function.update_self, Option.some.injEq] at hknown
    exact hknown ▸ ⟨rfl, hshows⟩
  · simp only [Function.update_of_ne hid] at hknown
    exact h.page.confirmed id known hknown

theorem Inv.clearTimer (h : Inv s) (k id : Nat) : Inv (s.clearTimer k id) := by
  exact ⟨h.kept.setEditor _ _, h.page.setEditor k _ rfl List.erase_subset
    (fun hk => hk ▸ h.page.shown) (fun hk => hk ▸ h.page.confirmed)⟩

theorem Inv.setTimer (h : Inv s) (hown : s.Own (s.keyOf s.newest id)) :
    Inv (s.setTimer s.newest id) := by
  refine ⟨h.kept.setEditor _ _, h.page.toTimely.setEditor s.newest _ rfl (absurd rfl) ?_⟩
  intro _
  refine ⟨h.page.shown, ?_, h.page.confirmed⟩
  intro other hother
  split at hother
  · exact h.page.timers other hother
  · rw [List.mem_append, List.mem_singleton] at hother
    cases hother with
    | inl hold => exact h.page.timers other hold
    | inr hnew => exact hnew ▸ hown

/-- What is shown of a list is its draft, so showing the draft changes nothing. -/
theorem Inv.republish (h : Inv s) (k id : Nat) : Inv (s.republish k id) := by
  unfold App.republish
  cases hactive : (s.editor k).active with
  | none => exact h
  | some doc =>
      simp only [load_keyOf]
      split
      · next hid =>
        subst hid
        have hload := h.load (s.keyOf k doc.id)
        cases hmemory : (s.load (s.keyOf k doc.id)).memory (s.keyOf k doc.id) with
        | none =>
            apply hload.publish
            intro hk next hnext
            rw [load_newest] at hk
            subst hk
            have hshown := h.page.shown doc hactive
            rw [load_of_loaded hshown.loaded]
            exact Option.some.inj hnext ▸ hshown
        | some draft =>
            apply hload.publish
            intro hk next hnext
            rw [load_newest] at hk
            subst hk
            have hshown := h.page.shown doc hactive
            rw [load_of_loaded hshown.loaded] at hmemory ⊢
            rw [← Option.some.inj hnext, hshown.current draft hmemory]
            exact hshown
      · exact h

/-! ### Saving -/

theorem Page.send (hp : Page s) (hk : k ≤ s.newest) (hkey : key = s.keyOf k key.2)
    (hfree : Free s k key) (draft : Draft) : Page (s.send k key draft) := by
  have hnew : ∀ flight ∈ (s.send k key draft).flights,
      flight ∈ s.flights ∨ (flight.editor = k ∧ flight.key = key) := by
    intro flight hflight
    simp only [App.send, List.mem_append, List.mem_singleton] at hflight
    cases hflight with
    | inl hin => exact .inl hin
    | inr heq => subst heq; exact .inr ⟨rfl, rfl⟩
  have hown : ∀ other, s.Own other → (other = key → k = s.newest) →
      (s.send k key draft).Own other := by
    intro other hold hself flight hflight hother
    cases hnew flight hflight with
    | inl hin => exact hold flight hin hother
    | inr heq => rw [heq.1]; exact hself (hother.symm.trans heq.2)
  refine ⟨⟨?_, hp.confirmed, ?_, hp.idle⟩, ?_⟩
  · intro other hother
    refine hown _ (hp.timers other hother) ?_
    intro hkey
    by_contra hne
    exact hfree.timers hne other hother hkey
  · intro flight hflight
    cases hnew flight hflight with
    | inl hin => exact hp.sender flight hin
    | inr heq => rw [heq.1, heq.2]; exact ⟨hk, hkey⟩
  · intro doc hdoc
    have hshown := hp.shown doc hdoc
    refine ⟨hshown.event, hshown.loaded, hshown.current, ?_⟩
    refine hshown.own.imp_right fun hold => hown _ hold ?_
    intro hkey
    by_contra hne
    exact hfree.shown hne doc hdoc hkey

theorem Inv.save (h : Inv s) (hk : k ≤ s.newest) (hfree : Free s k (s.keyOf k id)) :
    Inv (s.save k id) := by
  have hload := h.load (s.keyOf k id)
  have hfree := free_load hfree (s.keyOf k id)
  unfold App.save
  simp only
  cases hmemory : (s.load (s.keyOf k id)).memory (s.keyOf k id) with
  | none => exact hload
  | some draft =>
      simp only
      split
      · exact hload
      · next hguard =>
        simp only [not_or, App.inFlight, Bool.not_eq_true, List.any_eq_false,
          decide_eq_true_eq, not_and] at hguard
        constructor
        · refine hload.kept.send k hmemory fun flight hflight hkey => ?_
          exact hguard.2.1 flight hflight (hfree.own flight hflight hkey) (by rw [hkey]; rfl)
        · exact hload.page.send (by rw [load_newest]; exact hk) (by rw [load_keyOf]; rfl) hfree
            draft

theorem save_frame (s : App) (k id : Nat) :
    (s.save k id).editors = s.editors ∧ (s.save k id).newest = s.newest := by
  unfold App.save
  simp only
  split
  · exact ⟨load_editors _ _, load_newest _ _⟩
  · split
    · exact ⟨load_editors _ _, load_newest _ _⟩
    · exact ⟨load_editors _ _, load_newest _ _⟩

/-! ### A draft written anew and shown -/

section Publish
variable (s : App) (k : Nat) (next : Option Picklist)

theorem publish_cases : ∃ u : App, u = s.setEditor k { s.editor k with active := next } ∧
    (s.publish k next = u ∨ ∃ key, s.publish k next = u.load key) := by
  refine ⟨_, rfl, ?_⟩
  unfold App.publish
  cases next with
  | none => exact .inl rfl
  | some doc =>
      simp only
      split
      · exact .inr ⟨_, rfl⟩
      · exact .inl rfl

@[simp] theorem publish_flights : (s.publish k next).flights = s.flights := by
  obtain ⟨u, rfl, h | ⟨key, h⟩⟩ := publish_cases s k next
  · rw [h]; rfl
  · rw [h, load_flights]; rfl

@[simp] theorem publish_newest : (s.publish k next).newest = s.newest := by
  obtain ⟨u, rfl, h | ⟨key, h⟩⟩ := publish_cases s k next
  · rw [h]; rfl
  · rw [h, load_newest]; rfl

@[simp] theorem publish_keyOf (j id : Nat) : (s.publish k next).keyOf j id = s.keyOf j id := by
  have hset : (s.setEditor k { s.editor k with active := next }).keyOf j id = s.keyOf j id := by
    by_cases hj : j = k
    · subst hj
      simp [App.keyOf, App.setEditor, App.editor]
    · simp [App.keyOf, App.setEditor, hj]
  obtain ⟨u, rfl, h | ⟨key, h⟩⟩ := publish_cases s k next
  · rw [h, hset]
  · rw [h, load_keyOf, hset]

theorem publish_own (key : Key) : (s.publish k next).Own key ↔ s.Own key := by
  rw [App.Own, App.Own, publish_flights, publish_newest]

end Publish

/-- A draft written anew is shown at once. -/
theorem Page.redrawn_shown (hp : Page s) (h : Redrawn s t key draft)
    (hkey : s.keyOf s.newest draft.doc.id = key) (hevent : s.Shows draft.doc)
    (hown : s.Own key) :
    Page (t.setEditor s.newest { t.editor s.newest with active := some draft.doc }) := by
  have ht := hp.toTimely.redrawn h
  have hshown : t.ShowsDoc draft.doc := by
    have hkeyT : t.keyOf t.newest draft.doc.id = key := by rw [h.newest, h.keyOf, hkey]
    refine ⟨h.shows.mpr hevent, ?_, ?_, ?_⟩
    · rw [hkeyT]
      intro hnone
      rw [h.memory_self] at hnone
      cases hnone
    · rw [hkeyT]
      intro other hother
      rw [h.memory_self, Option.some.injEq] at hother
      rw [hother]
    · rw [hkeyT]
      exact .inr ((h.own key).mpr hown)
  rw [← h.newest]
  refine ht.setEditor t.newest _ rfl (absurd rfl) ?_
  intro _
  refine ⟨?_, ht.timers, ht.confirmed⟩
  intro doc hdoc
  exact Option.some.inj hdoc ▸ hshown

end Frcmob.PicklistEditor
