import Frcmob.Picklists.Editors

/-!
No edit of a picklist is lost and no two writes of a list are in flight, in every run in which
the page takes up a list only when no earlier editor still waits for a write of it.
-/

namespace Frcmob.PicklistEditor
open Function (update)
open Transition

variable {s t : App} {key : Key} {draft : Draft} {flight : Flight} {doc : Picklist} {k id : Nat}

/-! ### The steps of the page -/

/-- The list that the page shows, as the newest editor's `save` would send it. -/
theorem Inv.shown_draft (h : Inv s) (hactive : (s.editor s.newest).active = some doc) :
    s.load (s.keyOf s.newest doc.id) = s ∧
    ∀ draft, s.memory (s.keyOf s.newest doc.id) = some draft → draft.doc = doc :=
  ⟨load_of_loaded (h.page.shown doc hactive).loaded, (h.page.shown doc hactive).current⟩

theorem Inv.show (h : Inv s) (hredrawn : Redrawn s t key draft) (hkept : Kept t)
    (hkey : s.keyOf s.newest draft.doc.id = key) (hevent : s.Shows draft.doc)
    (hown : s.Own key) : Inv (t.publish s.newest (some draft.doc)) := by
  have hset : Inv (t.setEditor s.newest { t.editor s.newest with active := some draft.doc }) :=
    ⟨hkept.setEditor _ _, h.page.redrawn_shown hredrawn hkey hevent hown⟩
  obtain ⟨u, rfl, hu | ⟨other, hu⟩⟩ := publish_cases t s.newest (some draft.doc)
  · rw [hu]; exact hset
  · rw [hu]; exact hset.load other

theorem draftEdit_redrawn (hloaded : s.load key = s) {next : Picklist} (hid : next.id = key.2) :
    ∃ error, Redrawn s (s.draftEdit key next) key
        { ref := s.nextRef, doc := next, error := error
          conflict := (s.memory key).bind (·.conflict) } ∧
      (s.draftEdit key next).edits key = s.edits key ++ [next.toContent] ∧
      (s.draftEdit key next).owed = s.owed ∧
      (s.draftEdit key next).nextRef = s.nextRef + 1 := by
  obtain ⟨error, h, hedits, howed, hnext, -⟩ := persist_redrawn s key.1
    { ref := s.nextRef, doc := next, conflict := (s.memory key).bind (·.conflict) }
  rw [show (key.1, next.id) = key from by rw [hid]] at h
  unfold App.draftEdit
  simp only [hloaded]
  refine ⟨error, ?_, ?_, howed, by rw [hnext]⟩
  · exact (h.count (Nat.le_succ _)).edited _
  · rw [hedits, Function.update_self]

theorem Inv.edit (h : Inv s) (content : Content)
    (halone : ∀ doc, (s.editor s.newest).active = some doc → s.Own (s.keyOf s.newest doc.id)) :
    Inv (s.edit s.newest content) := by
  unfold App.edit
  cases hactive : (s.editor s.newest).active with
  | none => exact h
  | some current =>
      simp only
      have hshown := h.page.shown current hactive
      obtain ⟨hload, hcurrent⟩ := h.shown_draft hactive
      obtain ⟨error, hredrawn, hedits, howed, hnext⟩ :=
        @draftEdit_redrawn s _ hload { current with toContent := content } rfl
      have hown := halone current hactive
      have hkept := h.kept.renewed hredrawn rfl hshown.event
        (by
          intro shared hshared
          cases hmemory : s.memory (s.keyOf s.newest current.id) with
          | none => rw [hmemory] at hshared; cases hshared
          | some draft =>
              rw [hmemory] at hshared
              exact (h.kept.fits _ draft hmemory).conflict shared hshared)
        rfl (by rw [hnext]; exact Nat.lt_succ_self _)
        (by
          intro content hlatest
          rw [App.latest, hedits, List.getLast?_concat] at hlatest
          exact Option.some.inj hlatest)
        (by
          intro version hversion
          rw [howed] at hversion
          obtain ⟨⟨draft, hdraft, hv, hconflict⟩, hfree⟩ := h.kept.owed _ version hversion
          refine ⟨?_, ?_, hfree⟩
          · rw [← hv, hcurrent draft hdraft]
          · rw [hdraft]
            exact hconflict)
      have hpublished := h.show hredrawn hkept rfl hshown.event hown
      have hnewest : ((s.draftEdit (s.keyOf s.newest current.id)
          { current with toContent := content }).publish s.newest
            (some { current with toContent := content })).newest = s.newest := by
        rw [publish_newest, hredrawn.newest]
      have := @Inv.setTimer _ current.id hpublished (by
        rw [publish_own, publish_keyOf, publish_newest, hredrawn.own, hredrawn.keyOf,
          hredrawn.newest]
        exact hown)
      rw [hnewest] at this
      exact this

theorem Inv.saveOwn (h : Inv s) (hown : s.Own (s.keyOf s.newest id)) :
    Inv (s.save s.newest id) :=
  h.save (Nat.le_refl _) (Free.newest hown)

theorem redraft_redrawn (s : App) {draft : Draft} (hid : draft.doc.id = key.2) :
    ∃ error, Redrawn s (s.redraft key draft) key
        { ref := s.nextRef, error := error
          doc := { draft.doc with
            version := (draft.conflict.map (·.version)).getD draft.doc.version } } ∧
      (s.redraft key draft).edits = s.edits ∧ (s.redraft key draft).owed = s.owed ∧
      (s.redraft key draft).nextRef = s.nextRef + 1 := by
  obtain ⟨error, h, hedits, howed, hnext, -⟩ := persist_redrawn s key.1
    { ref := s.nextRef
      doc := { draft.doc with
        version := (draft.conflict.map (·.version)).getD draft.doc.version } }
  rw [show (key.1, draft.doc.id) = key from by rw [hid]] at h
  exact ⟨error, h.count (Nat.le_succ _), hedits, howed, congrArg (· + 1) hnext⟩

theorem Inv.retry (h : Inv s)
    (halone : ∀ doc, (s.editor s.newest).active = some doc → s.Own (s.keyOf s.newest doc.id)) :
    Inv (s.retry s.newest) := by
  unfold App.retry
  cases hactive : (s.editor s.newest).active with
  | none => exact h
  | some current =>
      obtain ⟨hload, hcurrent⟩ := h.shown_draft hactive
      have hown := halone current hactive
      simp only [hload]
      cases hmemory : s.memory (s.keyOf s.newest current.id) with
      | none => exact h
      | some draft =>
          have hfits := h.kept.fits _ draft hmemory
          obtain ⟨error, hredrawn, hedits, howed, hnext⟩ := redraft_redrawn s hfits.id
          have hdoc := hcurrent draft hmemory
          have hkept := h.kept.renewed hredrawn hfits.id hfits.event (fun _ h => by cases h) rfl
            (by rw [hnext]; exact Nat.lt_succ_self _)
            (by
              intro content hlatest
              rw [App.latest, hedits] at hlatest
              exact hfits.latest content hlatest)
            (by
              intro version hversion
              rw [howed] at hversion
              obtain ⟨⟨other, hother, hv, hconflict⟩, hfree⟩ := h.kept.owed _ version hversion
              rw [hmemory, Option.some.injEq] at hother
              subst hother
              refine ⟨?_, rfl, hfree⟩
              simp only [hconflict, Option.map_none, Option.getD_none]
              exact hv)
          have hkey : s.keyOf s.newest draft.doc.id = s.keyOf s.newest current.id := by rw [hdoc]
          have hshow := h.show hredrawn hkept hkey hfits.event hown
          simp only [hredrawn.memory_self]
          have hsave := @Inv.saveOwn _ current.id hshow (by
            rw [publish_own, publish_keyOf, publish_newest, hredrawn.own, hredrawn.keyOf,
              hredrawn.newest]
            exact hown)
          rw [publish_newest, hredrawn.newest] at hsave
          exact hsave

/-! ### Letting go -/

theorem Page.drop (hp : Page s) (key : Key) : Page (s.drop key) := by
  refine ⟨⟨hp.timers, hp.confirmed, hp.sender, hp.idle⟩, ?_⟩
  intro doc hdoc
  have hshown := hp.shown doc hdoc
  by_cases hk : s.keyOf s.newest doc.id = key
  · have hnone : (s.drop key).memory (s.keyOf s.newest doc.id) = none := by
      rw [hk]
      exact Function.update_self _ _ _
    refine ⟨hshown.event, ?_, ?_, .inl hnone⟩
    · intro _
      rw [readable_drop]
      exact if_pos hk
    · intro draft hdraft
      cases hnone.symm.trans hdraft
  · have hsame : (s.drop key).memory (s.keyOf s.newest doc.id) =
        s.memory (s.keyOf s.newest doc.id) := Function.update_of_ne hk _ _
    refine ⟨hshown.event, ?_, ?_, ?_⟩
    · intro hnone
      rw [readable_drop]
      exact (if_neg hk).trans (hshown.loaded (hsame.symm.trans hnone))
    · intro draft hdraft
      exact hshown.current draft (hsame.symm.trans hdraft)
    · exact hshown.own.imp_left hsame.trans

theorem Page.record (hp : Page s) (accepted : List (Key × Nat × Content))
    (discarded : List (Key × Nat)) :
    Page { s with accepted := accepted, discarded := discarded } :=
  ⟨⟨hp.timers, hp.confirmed, hp.sender, hp.idle⟩, fun doc hdoc =>
    let h := hp.shown doc hdoc
    ⟨h.event, h.loaded, h.current, h.own⟩⟩

theorem Inv.giveUp (h : Inv s) (key : Key) : Inv (s.giveUp key) :=
  ⟨h.kept.giveUp key, (h.page.drop key).record _ _⟩

/-- A list without a draft can be shown as anybody has it. -/
theorem showsDoc_of_none (hshows : s.Shows doc)
    (hloaded : s.Loaded (s.keyOf s.newest doc.id))
    (hnone : s.memory (s.keyOf s.newest doc.id) = none) : s.ShowsDoc doc := by
  refine ⟨hshows, hloaded, ?_, .inl hnone⟩
  intro draft hdraft
  rw [hnone] at hdraft
  cases hdraft

theorem Inv.discard (h : Inv s) : Inv (s.discard s.newest) := by
  unfold App.discard
  cases hactive : (s.editor s.newest).active with
  | none => exact h
  | some current =>
      obtain ⟨hload, -⟩ := h.shown_draft hactive
      simp only [hload]
      cases hconflict : (s.memory (s.keyOf s.newest current.id)).bind (·.conflict) with
      | none => exact h
      | some shared =>
          obtain ⟨draft, hdraft, hshared⟩ := Option.bind_eq_some_iff.mp hconflict
          obtain ⟨hid, hshows⟩ := (h.kept.fits _ draft hdraft).conflict shared hshared
          apply (h.giveUp _).publish
          intro _ doc hdoc
          rw [Option.some.injEq] at hdoc
          subst hdoc
          have hkey : s.keyOf s.newest shared.id = s.keyOf s.newest current.id := by
            rw [App.keyOf, hid]
            rfl
          apply showsDoc_of_none
          · exact hshows
          · intro _
            exact (readable_drop s _ _).trans (if_pos hkey)
          · exact (congrArg _ hkey).trans (Function.update_self _ _ _)

theorem Inv.pause (h : Inv s) : Inv (s.pause s.newest) := by
  unfold App.pause
  split
  · exact h
  · exact h.clearTimer _ _

theorem Inv.remove (h : Inv s) (k id : Nat) : Inv (s.remove k id) := by
  have hdropped := (h.clearTimer k id).giveUp (s.keyOf k id)
  unfold App.remove
  simp only
  split
  · exact hdropped.publish k fun _ _ hnone => by cases hnone
  · exact hdropped

/-! ### Taking up a list -/

theorem showsDoc_of_draft (hshows : s.Shows doc)
    (hmemory : s.memory (s.keyOf s.newest doc.id) = some draft) (hdoc : draft.doc = doc)
    (hown : s.Own (s.keyOf s.newest doc.id)) : s.ShowsDoc doc := by
  refine ⟨hshows, ?_, ?_, .inr hown⟩
  · intro hnone
    rw [hmemory] at hnone
    cases hnone
  · intro other hother
    rw [hmemory, Option.some.injEq] at hother
    exact hother ▸ hdoc

theorem newer_fits (h : Inv s) {server : Picklist} (hshows : s.Shows server) :
    (s.newer s.newest server).id = server.id ∧ s.Shows (s.newer s.newest server) := by
  unfold App.newer
  cases hknown : (s.editor s.newest).confirmed server.id with
  | none => exact ⟨rfl, hshows⟩
  | some known =>
      simp only
      split
      · exact h.page.confirmed _ known hknown
      · exact ⟨rfl, hshows⟩

theorem meet_cases (s : App) (hid : draft.doc.id = key.2) (server : Picklist) :
    s.meet key.1 draft server = s ∨
    ∃ error, Redrawn s (s.meet key.1 draft server) key
        { draft with conflict := some server, error := error } ∧
      (s.meet key.1 draft server).edits = s.edits ∧
      (s.meet key.1 draft server).owed key = none := by
  unfold App.meet
  split
  · obtain ⟨error, h, hedits, -⟩ :=
      persist_redrawn s key.1 { draft with conflict := some server }
    rw [show (key.1, draft.doc.id) = key from by rw [hid]] at h ⊢
    exact .inr ⟨error, h.owing none, hedits, Function.update_self _ _ _⟩
  · exact .inl rfl

theorem Inv.meet (h : Inv s) (hmemory : s.memory key = some draft) {server : Picklist}
    (hid : server.id = key.2) (hshows : s.Shows server) (hown : s.Own key) :
    Inv (s.meet key.1 draft server) ∧
    (∃ settled, (s.meet key.1 draft server).memory key = some settled ∧
      settled.doc = draft.doc) ∧
    (s.meet key.1 draft server).Own key ∧
    (s.meet key.1 draft server).newest = s.newest ∧
    (∀ k id, (s.meet key.1 draft server).keyOf k id = s.keyOf k id) ∧
    (s.meet key.1 draft server).eventOf = s.eventOf := by
  have hfits := h.kept.fits key draft hmemory
  cases meet_cases s hfits.id server with
  | inl hsame =>
      rw [hsame]
      exact ⟨h, ⟨draft, hmemory, rfl⟩, hown, rfl, fun _ _ => rfl, rfl⟩
  | inr hmeet =>
      obtain ⟨error, hredrawn, hedits, howed⟩ := hmeet
      refine ⟨⟨?_, ?_⟩, ⟨_, hredrawn.memory_self, rfl⟩, (hredrawn.own key).mpr hown,
        hredrawn.newest, hredrawn.keyOf, hredrawn.eventOf⟩
      · refine h.kept.flagged hmemory hredrawn (by rw [hedits]) rfl rfl ?_ (.inl howed)
        intro shared hshared
        exact Option.some.inj hshared ▸ ⟨hid, hshows⟩
      · apply h.page.redrawn hredrawn
        intro doc hdoc hkey
        exact ⟨(h.page.shown doc hdoc).current draft (hkey ▸ hmemory), hown⟩

theorem Inv.select (h : Inv s) (server : Option Picklist)
    (hshows : ∀ picklist, server = some picklist → s.Shows picklist)
    (halone : ∀ picklist, server = some picklist →
      (s.read (s.keyOf s.newest picklist.id)).isSome →
      s.Own (s.keyOf s.newest picklist.id)) : Inv (s.select s.newest server) := by
  unfold App.select
  cases server with
  | none => exact h.publish _ fun _ _ hnone => by cases hnone
  | some server =>
      obtain ⟨hid, hshown⟩ := newer_fits h (hshows server rfl)
      have halone := halone server rfl
      rw [← hid] at halone
      simp only
      generalize s.newer s.newest server = server at *
      have hload := h.load (s.keyOf s.newest server.id)
      cases hmemory : (s.load (s.keyOf s.newest server.id)).memory
          (s.keyOf s.newest server.id) with
      | none =>
          apply hload.publish
          intro _ doc hdoc
          rw [Option.some.injEq] at hdoc
          subst hdoc
          apply showsDoc_of_none
          · exact (load_shows _ _).mpr hshown
          · rw [load_newest, load_keyOf]
            exact load_loaded _ _
          · rw [load_newest, load_keyOf]
            exact hmemory
      | some draft =>
          have hfits := hload.kept.fits _ draft hmemory
          have hownL : (s.load (s.keyOf s.newest server.id)).Own (s.keyOf s.newest server.id) := by
            rw [App.Own, load_flights, load_newest]
            exact halone (by rw [App.read, hmemory]; rfl)
          have hevent : draft.doc.eventKey = server.eventKey := by
            rw [hfits.event, hfits.id, load_eventOf]
            exact hshown.symm
          simp only [hevent, if_true]
          obtain ⟨hmeet, ⟨settled, hsettled, hdoc⟩, hown, hnewest, hkeyOf, heventOf⟩ :=
            hload.meet hmemory (Eq.refl server.id) ((load_shows _ _).mpr hshown) hownL
          have hkey : s.keyOf s.newest draft.doc.id = s.keyOf s.newest server.id := by
            rw [App.keyOf, hfits.id]
            rfl
          generalize (s.load (s.keyOf s.newest server.id)).meet
            (s.keyOf s.newest server.id).1 draft server = met at *
          rw [load_newest] at hnewest
          have hkeyM : met.keyOf met.newest draft.doc.id = s.keyOf s.newest server.id := by
            rw [hkeyOf, load_keyOf, hnewest, hkey]
          have hpublished : Inv (met.publish s.newest (some draft.doc)) := by
            apply hmeet.publish
            intro _ doc heq
            rw [Option.some.injEq] at heq
            subst heq
            refine showsDoc_of_draft ?_ (hkeyM ▸ hsettled) hdoc (hkeyM ▸ hown)
            rw [App.Shows, heventOf]
            exact hfits.event
          cases (met.publish s.newest (some draft.doc)).memory (s.keyOf s.newest server.id) with
          | none => exact hpublished
          | some settled =>
              simp only
              split
              · have hsave := @Inv.saveOwn _ server.id hpublished (by
                  rw [publish_own, publish_keyOf, publish_newest, hkeyOf, load_keyOf, hnewest]
                  exact hown)
                rw [publish_newest, hnewest] at hsave
                exact hsave
              · exact hpublished

/-! ### Answers -/

/-- `t` differs from `s` in the drafts and in what the editor `k` shows. -/
structure Beside (s t : App) (k : Nat) : Prop where
  flights : t.flights = s.flights
  newest : t.newest = s.newest
  keyOf : ∀ j id, t.keyOf j id = s.keyOf j id
  editor : ∀ j, j ≠ k → t.editor j = s.editor j

namespace Beside
variable {u : App}

theorem refl (s : App) (k : Nat) : Beside s s k :=
  ⟨rfl, rfl, fun _ _ => rfl, fun _ _ => rfl⟩

theorem trans (h : Beside s t k) (h' : Beside t u k) : Beside s u k :=
  ⟨h'.flights.trans h.flights, h'.newest.trans h.newest,
    fun j id => (h'.keyOf j id).trans (h.keyOf j id),
    fun j hj => (h'.editor j hj).trans (h.editor j hj)⟩

theorem free (h : Beside s t k) (hfree : Free s k key) : Free t k key := by
  refine ⟨?_, ?_, ?_⟩
  · rw [h.flights]
    exact hfree.own
  · rw [h.newest]
    intro hne id hid
    rw [h.editor _ (Ne.symm hne)] at hid
    rw [h.keyOf]
    exact hfree.timers hne id hid
  · rw [h.newest]
    intro hne doc hdoc
    rw [h.editor _ (Ne.symm hne)] at hdoc
    rw [h.keyOf]
    exact hfree.shown hne doc hdoc

theorem of_redrawn (h : Redrawn s t key draft) (k : Nat) : Beside s t k :=
  ⟨h.flights, h.newest, h.keyOf, fun j _ => h.editor j⟩

theorem of_load (s : App) (key : Key) (k : Nat) : Beside s (s.load key) k :=
  ⟨load_flights s key, load_newest s key, load_keyOf s key, fun j _ => load_editor s key j⟩

theorem of_setEditor (s : App) (k : Nat) (editor : Editor)
    (hworkspace : editor.workspaceId = (s.editor k).workspaceId) :
    Beside s (s.setEditor k editor) k := by
  refine ⟨rfl, rfl, ?_, ?_⟩
  · intro j id
    by_cases hj : j = k
    · subst hj
      simp [App.keyOf, App.setEditor, hworkspace, App.editor]
    · simp [App.keyOf, App.setEditor, hj]
  · intro j hj
    simp [App.editor, App.setEditor, hj]

theorem of_publish (s : App) (k : Nat) (next : Option Picklist) :
    Beside s (s.publish k next) k := by
  have hset := of_setEditor s k { s.editor k with active := next } rfl
  obtain ⟨u, rfl, h | ⟨key, h⟩⟩ := publish_cases s k next
  · rw [h]
    exact hset
  · rw [h]
    exact hset.trans (of_load _ key k)

theorem of_setActive (s : App) (k id : Nat) (doc : Picklist) :
    Beside s (s.setActive k id doc) k := by
  unfold App.setActive
  split
  · exact of_setEditor s k _ rfl
  · exact refl s k

theorem of_republish (s : App) (k id : Nat) : Beside s (s.republish k id) k := by
  unfold App.republish
  cases (s.editor k).active with
  | none => exact refl s k
  | some doc =>
      simp only
      split
      · split
        · exact (of_load s _ k).trans (of_publish _ k _)
        · exact (of_load s _ k).trans (of_publish _ k _)
      · exact refl s k

end Beside

theorem Inv.setActive (h : Inv s) (k id : Nat) (hdoc : k = s.newest → s.ShowsDoc doc) :
    Inv (s.setActive k id doc) := by
  unfold App.setActive
  split
  · refine ⟨h.kept.setEditor _ _, h.page.setEditor k _ rfl (List.Subset.refl _) ?_ ?_⟩
    · intro hk other hother
      exact Option.some.inj hother ▸ hdoc hk
    · intro hk
      exact hk ▸ h.page.confirmed
  · exact h

/-- An editor's draft written anew, with the page following if the editor is its. -/
theorem Inv.redrawn_active (h : Inv s) (hredrawn : Redrawn s t key draft) (hkept : Kept t)
    (hkey : s.keyOf k id = key) (hid : draft.doc.id = id) (hevent : s.Shows draft.doc)
    (hfree : Free s k key) : Inv (t.setActive k id draft.doc) := by
  by_cases hk : k = s.newest
  · subst hk
    unfold App.setActive
    split
    · exact ⟨hkept.setEditor _ _,
        h.page.redrawn_shown hredrawn (hid ▸ hkey) hevent hfree.own⟩
    · next hactive =>
      refine ⟨hkept, h.page.redrawn hredrawn ?_⟩
      intro doc hdoc hdocKey
      rw [hredrawn.editor, hdoc, Option.any_some, decide_eq_true_eq] at hactive
      exact absurd (congrArg Prod.snd (hdocKey.trans hkey.symm)) hactive
  · refine Inv.setActive ⟨hkept, h.page.redrawn hredrawn ?_⟩ k id ?_
    · intro doc hdoc hdocKey
      exact absurd hdocKey (hfree.shown hk doc hdoc)
    · intro hnew
      exact absurd (hnew.trans hredrawn.newest) hk

theorem rebase_redrawn (s : App) {latest : Draft} (hid : latest.doc.id = key.2) (version : Nat) :
    ∃ error, Redrawn s (s.rebase key latest version) key
        { ref := s.nextRef, doc := { latest.doc with version := version }, error := error } ∧
      (s.rebase key latest version).edits = s.edits ∧
      (s.rebase key latest version).owed key = some version ∧
      (s.rebase key latest version).nextRef = s.nextRef + 1 ∧
      (s.storageFull = false → error = none) := by
  obtain ⟨error, h, hedits, howed, hnext, herror⟩ := persist_redrawn s key.1
    { ref := s.nextRef, doc := { latest.doc with version := version } }
  rw [show (key.1, latest.doc.id) = key from by rw [hid]] at h
  exact ⟨error, (h.count (Nat.le_succ _)).owing (some version), hedits,
    Function.update_self _ _ _, congrArg (· + 1) hnext, herror⟩

theorem Page.answered (hp : Page s) (i : Nat) :
    Page { s with flights := s.flights.eraseIdx i } := by
  have hsub : s.flights.eraseIdx i ⊆ s.flights := List.eraseIdx_subset
  have hown : ∀ key, s.Own key → App.Own { s with flights := s.flights.eraseIdx i } key :=
    fun key h flight hflight => h flight (hsub hflight)
  refine ⟨⟨fun id hid => hown _ (hp.timers id hid), hp.confirmed,
    fun flight hflight => hp.sender flight (hsub hflight), hp.idle⟩, ?_⟩
  intro doc hdoc
  have h := hp.shown doc hdoc
  exact ⟨h.event, h.loaded, h.current, h.own.imp_right (hown _)⟩

/-- The state in which an answer finds the app: its write is settled, no other write of the
list is in flight, and if a draft of the list is left no other editor is concerned with it. -/
structure Answered (s : App) (flight : Flight) : Prop where
  inv : Inv s
  loaded : s.Loaded flight.key
  key : flight.key = s.keyOf flight.editor flight.key.2
  editor : flight.editor ≤ s.newest
  alone : ∀ other ∈ s.flights, other.key ≠ flight.key
  owed : s.owed flight.key = none
  same : ∀ draft, s.memory flight.key = some draft → draft.ref = flight.ref →
    flight.sent = draft.doc ∧ flight.edit = (s.edits flight.key).length
  free : ∀ draft, s.memory flight.key = some draft → Free s flight.editor flight.key

theorem Inv.answered (h : Inv s) {i : Nat} (hi : s.flights[i]? = some flight) :
    Answered { s with flights := s.flights.eraseIdx i } flight := by
  have hmem := List.mem_of_getElem? hi
  have hnone := h.kept.answered_free hi
  obtain ⟨heditor, hkey⟩ := h.page.sender flight hmem
  have howed : s.owed flight.key = none := by
    cases howed : s.owed flight.key with
    | none => rfl
    | some version => exact absurd rfl ((h.kept.owed _ version howed).2 flight hmem)
  refine ⟨⟨h.kept.answered i, h.page.answered i⟩, (h.kept.sent flight hmem).2, hkey, heditor,
    hnone, howed, ?_, ?_⟩
  · intro draft hdraft
    exact (h.kept.fits _ draft hdraft).same flight hmem rfl
  · intro draft hdraft
    refine ⟨fun other hother hsame => absurd hsame (hnone other hother), ?_, ?_⟩
    · intro hne id hid hsame
      exact hne (h.page.timers id hid flight hmem hsame.symm)
    · intro hne doc hdoc hsame
      cases (h.page.shown doc hdoc).own with
      | inl hempty =>
          have hmemory : s.memory (s.keyOf s.newest doc.id) = some draft :=
            (congrArg s.memory hsame).trans hdraft
          cases hempty.symm.trans hmemory
      | inr hown => exact hne (hown flight hmem hsame.symm)

theorem Answered.confirm (h : Answered s flight) {picklist : Picklist}
    (hshows : s.Shows picklist) : Answered (s.confirm flight.editor picklist) flight := by
  have hbeside := Beside.of_setEditor s flight.editor
    { s.editor flight.editor with
      confirmed := update (s.editor flight.editor).confirmed picklist.id (some picklist) } rfl
  exact ⟨h.inv.confirm _ hshows, h.loaded, h.key.trans (hbeside.keyOf _ _).symm, h.editor,
    h.alone, h.owed, h.same, fun draft hdraft => hbeside.free (h.free draft hdraft)⟩

theorem Answered.taken (h : Answered s flight) {picklist : Picklist}
    (hshows : s.Shows picklist) : Answered (s.taken flight picklist) flight := by
  have hrecorded : Answered { s with accepted :=
      (flight.key, flight.edit, flight.sent.toContent) :: s.accepted } flight :=
    ⟨⟨h.inv.kept.record (List.subset_cons_self _ _) (List.Subset.refl _),
      h.inv.page.record _ _⟩, h.loaded, h.key, h.editor, h.alone, h.owed, h.same,
      fun draft hdraft => let hfree := h.free draft hdraft
        ⟨hfree.own, hfree.timers, hfree.shown⟩⟩
  exact hrecorded.confirm hshows

/-- An answer that leaves the draft as it is but for its flags. -/
theorem Answered.flag (h : Answered s flight) {latest : Draft}
    (hmemory : s.memory flight.key = some latest) (hdoc : draft.doc = latest.doc)
    (href : draft.ref = latest.ref) (hconflict : s.FitsConflict flight.key draft) :
    Inv ((s.persist flight.key.1 draft).republish flight.editor flight.key.2) := by
  have hfits := h.inv.kept.fits _ latest hmemory
  obtain ⟨error, hredrawn, hedits, howed, -⟩ := persist_redrawn s flight.key.1 draft
  rw [show (flight.key.1, draft.doc.id) = flight.key from by rw [hdoc, hfits.id]] at hredrawn
  apply Inv.republish
  constructor
  · refine h.inv.kept.flagged hmemory hredrawn (by rw [hedits]) href hdoc hconflict (.inl ?_)
    rw [howed]
    exact h.owed
  · apply h.inv.page.redrawn hredrawn
    intro doc hactive hkey
    refine ⟨hdoc.trans ((h.inv.page.shown doc hactive).current latest (hkey ▸ hmemory)), ?_⟩
    intro other hother hsame
    exact absurd hsame (h.alone other hother)

/-- The draft is the object that the server took. -/
theorem Answered.drop (h : Answered s flight) {latest : Draft}
    (hmemory : s.memory flight.key = some latest) (href : latest.ref = flight.ref)
    (haccepted : (flight.key, flight.edit, flight.sent.toContent) ∈ s.accepted)
    {picklist : Picklist} (hid : picklist.id = flight.key.2) (hshows : s.Shows picklist) :
    Inv (((s.drop flight.key).setActive flight.editor flight.key.2 picklist).republish
      flight.editor flight.key.2) := by
  obtain ⟨hsent, hedit⟩ := h.same latest hmemory href
  have hdropped : Inv (s.drop flight.key) := by
    refine ⟨h.inv.kept.drop _ ?_, h.inv.page.drop _⟩
    intro content hlatest
    rw [hsent, hedit, (h.inv.kept.fits _ latest hmemory).latest content hlatest] at haccepted
    exact .inl haccepted
  apply Inv.republish
  apply hdropped.setActive
  intro hk
  have hkey : s.keyOf s.newest picklist.id = flight.key := by
    rw [h.key, hid, show flight.editor = s.newest from hk]
  apply showsDoc_of_none
  · exact hshows
  · intro _
    exact (readable_drop s _ _).trans (if_pos hkey)
  · exact (congrArg _ hkey).trans (Function.update_self _ _ _)

/-- The newer edits, on the version that the server made of the older ones. -/
theorem Answered.rebase (h : Answered s flight) {latest : Draft}
    (hmemory : s.memory flight.key = some latest) (version : Nat) :
    Inv (((s.rebase flight.key latest version).setActive flight.editor flight.key.2
        { latest.doc with version := version }).republish flight.editor flight.key.2) ∧
    Beside s (((s.rebase flight.key latest version).setActive flight.editor flight.key.2
        { latest.doc with version := version }).republish flight.editor flight.key.2)
      flight.editor := by
  have hfits := h.inv.kept.fits _ latest hmemory
  obtain ⟨error, hredrawn, hedits, howed, hnext, -⟩ := rebase_redrawn s hfits.id version
  have hkept := h.inv.kept.renewed hredrawn hfits.id hfits.event (fun _ h => by cases h) rfl
    (by rw [hnext]; exact Nat.lt_succ_self _)
    (by
      intro content hlatest
      rw [App.latest, hedits] at hlatest
      exact hfits.latest content hlatest)
    (by
      intro v hv
      rw [howed, Option.some.injEq] at hv
      exact ⟨hv, rfl, h.alone⟩)
  have hactive := h.inv.redrawn_active hredrawn hkept h.key.symm hfits.id hfits.event (h.free latest hmemory)
  exact ⟨hactive.republish _ _, (Beside.of_redrawn hredrawn _).trans
    ((Beside.of_setActive _ _ _ _).trans (Beside.of_republish _ _ _))⟩

theorem Answered.resend (h : Answered s flight) {latest : Draft}
    (hmemory : s.memory flight.key = some latest) (version : Nat) :
    Inv (s.resend flight latest version) := by
  obtain ⟨hinv, hbeside⟩ := h.rebase hmemory version
  unfold App.resend
  simp only
  split
  · split
    · refine hinv.save (hbeside.newest ▸ h.editor) ?_
      rw [hbeside.keyOf, ← h.key]
      exact hbeside.free (h.free latest hmemory)
    · exact hinv
  · exact hinv

theorem Answered.settle (h : Answered s flight) {outcome : App.Outcome}
    (hfits : outcome.Fits s flight.key.2) : Inv (s.settle flight outcome) := by
  cases outcome with
  | failed message =>
      simp only [App.settle, load_of_loaded h.loaded]
      cases hmemory : s.memory flight.key with
      | none => exact h.inv.republish _ _
      | some latest =>
          exact h.flag hmemory rfl rfl (h.inv.kept.fits _ latest hmemory).conflict
  | answered conflict picklist =>
      obtain ⟨hid, hshows⟩ := hfits
      cases conflict with
      | true =>
          have hc := h.confirm hshows
          simp only [App.settle, if_true, load_of_loaded hc.loaded]
          cases hmemory : (s.confirm flight.editor picklist).memory flight.key with
          | none => exact hc.inv.republish _ _
          | some latest =>
              refine hc.flag hmemory rfl rfl ?_
              intro shared hshared
              exact Option.some.inj hshared ▸ ⟨hid, hshows⟩
      | false =>
          have ht := h.taken hshows
          simp only [App.settle, Bool.false_eq_true, if_false, load_of_loaded ht.loaded]
          cases hmemory : (s.taken flight picklist).memory flight.key with
          | none => exact ht.inv.republish _ _
          | some latest =>
              simp only
              split
              · next href => exact ht.drop hmemory href List.mem_cons_self hid hshows
              · exact ht.resend hmemory picklist.version

/-! ### Opening and closing -/

theorem Inv.close (h : Inv s) : Inv (s.close s.newest) := by
  have hset : Inv (s.setEditor s.newest { s.editor s.newest with mounted := false }) :=
    ⟨h.kept.setEditor _ _, h.page.setEditor _ _ rfl (List.Subset.refl _)
      (fun _ => h.page.shown) (fun _ => h.page.confirmed)⟩
  have hround : ∀ (u : App) (id : Nat),
      (Inv u ∧ (u.editor s.newest).timers = (s.editor s.newest).timers ∧ u.newest = s.newest) →
      id ∈ (s.editor s.newest).timers →
      Inv (u.save s.newest id) ∧
        ((u.save s.newest id).editor s.newest).timers = (s.editor s.newest).timers ∧
        (u.save s.newest id).newest = s.newest := by
    rintro u id ⟨hu, htimers, hnewest⟩ hid
    obtain ⟨heditors, hsame⟩ := save_frame u s.newest id
    refine ⟨?_, ?_, hsame.trans hnewest⟩
    · rw [← hnewest]
      exact hu.saveOwn (hu.page.timers id (by rw [hnewest, htimers]; exact hid))
    · rw [App.editor, heditors]
      exact htimers
  have hfold := foldl_invariant hround
    (s := s.setEditor s.newest { s.editor s.newest with mounted := false })
    ⟨hset, by simp [App.editor, App.setEditor], rfl⟩
    (foldMeets_of_forall (fun id hid => hid) _)
  obtain ⟨hsaved, -, hnewest⟩ := hfold
  unfold App.close
  simp only
  generalize (s.editor s.newest).timers.foldl _ _ = u at hsaved hnewest ⊢
  rw [← hnewest]
  exact ⟨hsaved.kept.setEditor _ _, hsaved.page.setEditor _ _ rfl (List.nil_subset _)
    (fun _ => hsaved.page.shown) (fun _ => hsaved.page.confirmed)⟩

theorem Inv.openPage (h : Inv s) (workspaceId : Nat)
    (htimers : (s.editor s.newest).timers = []) : Inv (s.openPage workspaceId) := by
  have hnew : (s.openPage workspaceId).editor (s.newest + 1) =
      { workspaceId := workspaceId } := Function.update_self _ _ _
  have hold : ∀ k, k ≠ s.newest + 1 → (s.openPage workspaceId).editor k = s.editor k :=
    fun k hk => Function.update_of_ne hk _ _
  refine ⟨h.kept.setEditors _ _, ⟨⟨?_, ?_, ?_, ?_⟩, ?_⟩⟩
  · intro id hid
    rw [show (s.openPage workspaceId).newest = s.newest + 1 from rfl, hnew] at hid
    cases hid
  · intro id picklist hpicklist
    rw [show (s.openPage workspaceId).newest = s.newest + 1 from rfl, hnew] at hpicklist
    cases hpicklist
  · intro flight hflight
    obtain ⟨hle, hkey⟩ := h.page.sender flight hflight
    refine ⟨Nat.le_succ_of_le hle, hkey.trans ?_⟩
    have := hold flight.editor (by omega)
    simp only [App.editor] at this
    rw [App.keyOf, App.keyOf, this]
  · intro k hk
    rw [hold k hk]
    by_cases hlast : k = s.newest
    · exact hlast ▸ htimers
    · exact h.page.idle k hlast
  · intro doc hdoc
    rw [show (s.openPage workspaceId).newest = s.newest + 1 from rfl, hnew] at hdoc
    cases hdoc

end Frcmob.PicklistEditor
