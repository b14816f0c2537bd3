import Frcmob.Picklists.Edits

/-!
No edit of a picklist is lost, whatever the order of edits, timers, answers and polls: over
every run in which the page takes up a list only once the writes of it that an earlier
editor sent are answered. The drafts outlive an editor but the record of its writes does not,
so a page opened again meanwhile sends a second write beside the first.
-/

namespace Frcmob.PicklistEditor
open Function (update)
open Transition

variable {s t : App} {key : Key} {draft : Draft} {flight : Flight}

/-- The page takes up a list: selects it with a draft kept, edits it, or retries. -/
def Alone (s : App) : Action → Prop
  | .openPage _ => (s.editor s.newest).timers = []
  | .select (some server) =>
      (s.read (s.keyOf s.newest server.id)).isSome → s.Own (s.keyOf s.newest server.id)
  | .edit _ | .retry =>
      ∀ doc ∈ (s.editor s.newest).active, s.Own (s.keyOf s.newest doc.id)
  | _ => True

instance (s : App) : ∀ a, Decidable (Alone s a)
  | .openPage _ => inferInstanceAs (Decidable (_ = _))
  | .select (some _) => inferInstanceAs (Decidable (_ → s.Own _))
  | .edit _ | .retry => inferInstanceAs (Decidable (∀ doc ∈ (s.editor s.newest).active, _))
  | .select none | .close | .timer _ _ | .settle _ _ | .discard | .pause | .remove _ _
  | .signIn _ | .storage _ => isTrue True.intro

/-- An answer that takes older edits sends the newer ones on the version it returned, at once
unless storage refused them or the phone is in another workspace; then they stay owed to it. -/
def Resends (s t : App) (flight : Flight) (draft : Draft) (version : Nat) : Prop :=
  (∃ again ∈ t.flights, again.key = flight.key ∧
    again.edit = (s.edits flight.key).length ∧ again.sent.version = version ∧
    again.sent.toContent = draft.doc.toContent) ∨
  ((s.storageFull ∨ s.session ≠ some flight.key.1) ∧ t.owed flight.key = some version)

/-- The latest edit of each list is held, taken as it is or discarded; a list has one write in
flight; and what was edited during a write goes out on the version which that returned. -/
structure EditsSafe (s : App) : Prop where
  held : ∀ key content, s.latest key = some content →
    (∃ draft, s.memory key = some draft ∧ draft.doc.toContent = content) ∨ s.Closed key content
  one : ∀ key, (s.flights.filter (·.key = key)).length ≤ 1
  resent : ∀ i picklist flight draft t, s.flights[i]? = some flight →
    flight.edit < (s.edits flight.key).length → s.memory flight.key = some draft →
    step s (.settle i (.answered false picklist)) = some t →
    Resends s t flight draft picklist.version
  owed : ∀ key version, s.owed key = some version →
    ∃ draft, s.memory key = some draft ∧ draft.doc.version = version
  due : ∀ flight ∈ s.flights, ∀ version, flight.due = some version →
    flight.sent.version = version

/-! ### The newer edits -/

theorem load_of_memory (h : s.memory key = some draft) (other : Key) :
    (s.load other).memory key = some draft ∧ (s.load other).owed = s.owed := by
  cases load_redrawn s other with
  | inl hsame => rw [hsame.1]; exact ⟨h, rfl⟩
  | inr hcopy =>
      obtain ⟨copy, hnone, -, hredrawn, -, howed, -⟩ := hcopy
      refine ⟨?_, howed⟩
      by_cases hk : key = other
      · rw [hk, hnone] at h
        cases h
      · rw [hredrawn.memory_of_ne hk]
        exact h

/-- What an editor shows is no draft's concern. -/
structure Undisturbed (s t : App) (key : Key) : Prop where
  memory : ∀ draft, s.memory key = some draft → t.memory key = some draft
  owed : (s.memory key).isSome → t.owed = s.owed
  edits : t.edits = s.edits
  session : t.session = s.session

theorem Undisturbed.refl (s : App) (key : Key) : Undisturbed s s key :=
  ⟨fun _ h => h, fun _ => rfl, rfl, rfl⟩

theorem Undisturbed.trans {u : App} (h : Undisturbed s t key) (h' : Undisturbed t u key) :
    Undisturbed s u key := by
  refine ⟨fun draft hd => h'.memory draft (h.memory draft hd), ?_, h'.edits.trans h.edits,
    h'.session.trans h.session⟩
  intro hsome
  obtain ⟨draft, hdraft⟩ := Option.isSome_iff_exists.mp hsome
  exact (h'.owed (by rw [h.memory draft hdraft]; rfl)).trans (h.owed hsome)

theorem undisturbed_load (s : App) (other key : Key) : Undisturbed s (s.load other) key := by
  refine ⟨fun draft h => (load_of_memory h other).1, ?_, load_edits s other,
    load_session s other⟩
  intro hsome
  obtain ⟨draft, hdraft⟩ := Option.isSome_iff_exists.mp hsome
  exact (load_of_memory hdraft other).2

theorem undisturbed_publish (s : App) (k : Nat) (next : Option Picklist) (key : Key) :
    Undisturbed s (s.publish k next) key := by
  have hset : Undisturbed s (s.setEditor k { s.editor k with active := next }) key :=
    ⟨fun _ h => h, fun _ => rfl, rfl, rfl⟩
  obtain ⟨u, rfl, h | ⟨other, h⟩⟩ := publish_cases s k next
  · rw [h]
    exact hset
  · rw [h]
    exact hset.trans (undisturbed_load _ other key)

theorem undisturbed_shown (s : App) (k id : Nat) (doc : Picklist) (key : Key) :
    Undisturbed s ((s.setActive k id doc).republish k id) key := by
  have hset : Undisturbed s (s.setActive k id doc) key := by
    unfold App.setActive
    split
    · exact ⟨fun _ h => h, fun _ => rfl, rfl, rfl⟩
    · exact Undisturbed.refl s key
  apply hset.trans
  unfold App.republish
  split
  · simp only
    split
    · split
      · exact (undisturbed_load _ _ key).trans (undisturbed_publish _ k _ key)
      · exact (undisturbed_load _ _ key).trans (undisturbed_publish _ k _ key)
    · exact Undisturbed.refl _ key
  · exact Undisturbed.refl _ key

/-- `save` sends a draft that is neither in conflict nor in flight, in its own workspace. -/
theorem save_sends {k id : Nat} (hmemory : s.memory (s.keyOf k id) = some draft)
    (hconflict : draft.conflict = none) (hfree : s.inFlight k id = false)
    (hsession : s.session = some (s.keyOf k id).1) :
    s.save k id = s.send k (s.keyOf k id) draft := by
  have hloaded : s.Loaded (s.keyOf k id) := by
    intro hnone
    rw [hmemory] at hnone
    cases hnone
  unfold App.save
  simp [load_of_loaded hloaded, hmemory, hconflict, hfree, hsession]

/-- `save` in another workspace sends nothing. -/
theorem save_elsewhere {k id : Nat} (hmemory : s.memory (s.keyOf k id) = some draft)
    (hsession : s.session ≠ some (s.keyOf k id).1) : s.save k id = s := by
  have hloaded : s.Loaded (s.keyOf k id) := by
    intro hnone
    rw [hmemory] at hnone
    cases hnone
  unfold App.save
  simp [load_of_loaded hloaded, hmemory, hsession]

theorem Answered.notInFlight (h : Answered s flight) :
    s.inFlight flight.editor flight.key.2 = false := by
  rw [App.inFlight, List.any_eq_false]
  intro other hother hsame
  simp only [decide_eq_true_eq] at hsame
  obtain ⟨heditor, hid⟩ := hsame
  refine h.alone other hother ?_
  rw [(h.inv.page.sender other hother).2, heditor, hid, ← h.key]

/-- What is left to be sent, before `save` looks at it. -/
theorem Answered.rebased (h : Answered s flight) (hmemory : s.memory flight.key = some draft)
    (version : Nat) : ∃ error u, Beside s u flight.editor ∧ u.memory flight.key = some
        { ref := s.nextRef, doc := { draft.doc with version := version }, error := error } ∧
      u.owed flight.key = some version ∧ u.edits = s.edits ∧ u.session = s.session ∧
      (s.storageFull = false → error = none) ∧
      s.resend flight draft version =
        if error.isNone then u.save flight.editor flight.key.2 else u := by
  have hdocId := (h.inv.kept.fits _ draft hmemory).id
  obtain ⟨error, hredrawn, hedits, howed, -, herror⟩ := rebase_redrawn s hdocId version
  obtain ⟨-, hbeside⟩ := h.rebase hmemory version
  have hshown := undisturbed_shown (s.rebase flight.key draft version) flight.editor
    flight.key.2 { draft.doc with version := version } flight.key
  have hleft := hshown.memory _ hredrawn.memory_self
  refine ⟨error, _, hbeside, hleft, ?_, hshown.edits.trans hedits,
    hshown.session.trans hredrawn.session, herror, ?_⟩
  · rw [hshown.owed (by rw [hredrawn.memory_self]; rfl), howed]
  · unfold App.resend
    simp only [hleft]

theorem Answered.resends (h : Answered s flight) (hmemory : s.memory flight.key = some draft)
    (version : Nat) : Resends s (s.resend flight draft version) flight draft version := by
  obtain ⟨error, u, hbeside, hleft, howed, hedits, hsession, herror, heq⟩ :=
    h.rebased hmemory version
  have hkey : u.keyOf flight.editor flight.key.2 = flight.key := by
    rw [hbeside.keyOf, ← h.key]
  have hfree : u.inFlight flight.editor flight.key.2 = false := by
    rw [App.inFlight, hbeside.flights]
    exact h.notInFlight
  rw [heq]
  cases error with
  | some text =>
      refine .inr ⟨.inl ?_, howed⟩
      by_contra hroom
      cases herror (Bool.not_eq_true _ ▸ hroom)
  | none =>
      simp only [Option.isNone_none, if_true]
      by_cases hhere : s.session = some flight.key.1
      · rw [save_sends (hkey.symm ▸ hleft) rfl hfree (by rw [hkey, hsession]; exact hhere), hkey]
        refine .inl ⟨_, List.mem_append_right _ (List.mem_singleton_self _), rfl, ?_, rfl, rfl⟩
        exact congrArg (fun edits => (edits flight.key).length) hedits
      · rw [save_elsewhere (hkey.symm ▸ hleft) (by rw [hkey, hsession]; exact hhere)]
        exact .inr ⟨.inr hhere, howed⟩

theorem Inv.resent (h : Inv s) {i : Nat} {picklist : Picklist}
    (hi : s.flights[i]? = some flight) (hedit : flight.edit < (s.edits flight.key).length)
    (hmemory : s.memory flight.key = some draft)
    (hstep : step s (.settle i (.answered false picklist)) = some t) :
    Resends s t flight draft picklist.version := by
  simp only [step, hi] at hstep
  split at hstep
  · next hfits =>
    obtain ⟨hid, hshows⟩ := hfits
    rw [Option.some.injEq] at hstep
    have ht := @Answered.taken _ _ (h.answered hi) picklist hshows
    have hnewer : draft.ref ≠ flight.ref := by
      intro href
      have hlast : flight.edit = (s.edits flight.key).length :=
        ((h.answered hi).same draft hmemory href).2
      omega
    have hheld : (App.taken { s with flights := s.flights.eraseIdx i } flight picklist).memory
        flight.key = some draft := hmemory
    simp only [App.settle, Bool.false_eq_true, if_false, load_of_loaded ht.loaded, hheld,
      if_neg hnewer] at hstep
    rw [← hstep]
    exact ht.resends hheld picklist.version
  · cases hstep

/-! ### Runs -/

theorem started_inv (h : Started s) : Inv s := by
  obtain ⟨workspaceId, session, localStorage, eventOf, rfl, hstored⟩ := h
  constructor
  · refine ⟨fun _ _ hnone => ?_, hstored, fun _ _ hnone => ?_, fun _ _ hnone => ?_,
      fun _ hnone => ?_, List.nodup_nil, fun _ _ hnone => ?_, fun _ hnone => ?_⟩
    all_goals cases hnone
  · refine ⟨⟨fun _ hnone => ?_, fun _ _ hnone => ?_, fun _ hnone => ?_, fun _ _ => rfl⟩,
      fun _ hnone => ?_⟩
    all_goals cases hnone

theorem Inv.environment (h : Inv s) (session : Option Nat) (full : Bool) :
    Inv { s with session := session, storageFull := full } :=
  ⟨⟨fun key draft hdraft => let hf := h.kept.fits key draft hdraft
      ⟨hf.id, hf.event, hf.conflict, hf.latest, hf.same, hf.fresh⟩,
    h.kept.stored, h.kept.closed, h.kept.edited, h.kept.sent, h.kept.one, h.kept.owed,
    h.kept.due⟩,
   ⟨⟨h.page.timers, h.page.confirmed, h.page.sender, h.page.idle⟩, fun doc hdoc =>
      let hs := h.page.shown doc hdoc
      ⟨hs.event, hs.loaded, hs.current, hs.own⟩⟩⟩

theorem Inv.timer (h : Inv s) {k id : Nat} (hid : id ∈ (s.editor k).timers) :
    Inv ((s.clearTimer k id).save k id) := by
  have hk : k = s.newest := by
    by_contra hne
    rw [h.page.idle k hne] at hid
    cases hid
  subst hk
  have hclear := h.clearTimer s.newest id
  have hbeside := Beside.of_setEditor s s.newest
    { s.editor s.newest with timers := (s.editor s.newest).timers.erase id } rfl
  refine hclear.saveOwn ?_
  rw [show (s.clearTimer s.newest id).newest = s.newest from rfl]
  rw [show (s.clearTimer s.newest id).keyOf s.newest id = s.keyOf s.newest id from
    hbeside.keyOf _ _]
  exact h.page.timers id hid

theorem step_inv (a : Action) (h : Inv s) (halone : Alone s a) (hstep : step s a = some t) :
    Inv t := by
  cases a with
  | openPage workspaceId =>
      simp only [step] at hstep
      split at hstep
      · cases hstep
      · exact Option.some.inj hstep ▸ h.openPage workspaceId halone
  | close =>
      simp only [step] at hstep
      split at hstep
      · exact Option.some.inj hstep ▸ h.close
      · cases hstep
  | select server =>
      cases server with
      | none =>
          exact Option.some.inj hstep ▸
            h.select none (fun _ hnone => by cases hnone) (fun _ hnone => by cases hnone)
      | some server =>
          simp only [step] at hstep
          split at hstep
          · next hshows =>
            refine Option.some.inj hstep ▸ h.select (some server) ?_ ?_
            · intro picklist heq
              exact Option.some.inj heq ▸ hshows
            · intro picklist heq
              exact Option.some.inj heq ▸ halone
          · cases hstep
  | edit content => exact Option.some.inj hstep ▸ h.edit content halone
  | timer k id =>
      simp only [step] at hstep
      split at hstep
      · next hid => exact Option.some.inj hstep ▸ h.timer hid.2
      · cases hstep
  | settle i outcome =>
      simp only [step] at hstep
      split at hstep
      · cases hstep
      · next flight hi =>
        split at hstep
        · next hfits => exact Option.some.inj hstep ▸ (h.answered hi).settle hfits
        · cases hstep
  | retry => exact Option.some.inj hstep ▸ h.retry halone
  | discard => exact Option.some.inj hstep ▸ h.discard
  | pause => exact Option.some.inj hstep ▸ h.pause
  | remove k id =>
      simp only [step] at hstep
      split at hstep
      · exact Option.some.inj hstep ▸ h.remove k id
      · cases hstep
  | signIn session => exact Option.some.inj hstep ▸ h.environment session s.storageFull
  | storage full => exact Option.some.inj hstep ▸ h.environment s.session full

theorem Inv.safe (h : Inv s) : EditsSafe s where
  held := by
    intro key content hlatest
    cases hmemory : s.memory key with
    | none => exact .inr (h.kept.closed key content hlatest hmemory)
    | some draft => exact .inl ⟨draft, rfl, (h.kept.fits key draft hmemory).latest content hlatest⟩
  one := by
    intro key
    have hcount := List.nodup_iff_count_le_one.mp h.kept.one key
    have hsame : ((· == key) ∘ Flight.key) = fun flight => decide (flight.key = key) := by
      funext flight
      rw [Bool.eq_iff_iff]
      simp
    rw [List.count_eq_countP, List.countP_map, List.countP_eq_length_filter, hsame] at hcount
    exact hcount
  resent := fun _ _ _ _ _ hi hedit hmemory hstep => h.resent hi hedit hmemory hstep
  owed := by
    intro key version hversion
    obtain ⟨⟨draft, hdraft, hv, -⟩, -⟩ := h.kept.owed key version hversion
    exact ⟨draft, hdraft, hv⟩
  due := h.kept.due

/-- In every run in which the page takes up no list whose write by an earlier editor is still
unanswered, no edit is lost, and the writes of a list follow one another. -/
theorem edits_safe (h : ReachableWhen app Alone s) : EditsSafe s :=
  (h.invariant (fun _ => started_inv) fun _ a _ h halone hstep => step_inv a h halone hstep).safe

def saturday (version : Nat) : Picklist where
  slots := []
  title := "Saturday"
  liveMode := false
  id := 7
  eventKey := "2026test"
  version := version

def firstOpened : App where
  session := some 1
  localStorage := fun _ => none
  editors := fun _ => { workspaceId := 1 }
  eventOf := fun _ => "2026test"

theorem started_firstOpened : Started firstOpened :=
  ⟨1, some 1, _, _, rfl, fun _ _ h => by cases h⟩

def renamed (title : String) : Content := { saturday 1 with title := title }

/-- The list is renamed, and the write of it is on its way. -/
def sending : List Action :=
  [.select (some (saturday 1)), .edit (renamed "Alliance"), .timer 0 7]

/-- Renamed again meanwhile: the answer sends the second name on the version of the first. -/
def renamedTwice : List Action :=
  sending ++ [.edit (renamed "Picks"), .timer 0 7,
    .settle 0 (.answered false { saturday 2 with title := "Alliance" })]

theorem edits_safe_renamedTwice :
    ∃ s, EditsSafe s ∧
      s.flights.map (fun flight => (flight.sent.version, flight.sent.title)) =
        [(2, "Picks")] := by
  have hrun : (app.run firstOpened renamedTwice).any (fun s =>
      s.flights.map (fun flight => (flight.sent.version, flight.sent.title)) =
        [(2, "Picks")]) = true := by decide +kernel
  obtain ⟨s, hs, hflights⟩ := (Option.any_eq_true _ _).mp hrun
  exact ⟨s, edits_safe (reachableWhen_of_run renamedTwice (.start started_firstOpened)
    (by decide +kernel) hs), of_decide_eq_true hflights⟩

/-- The page is left and opened again while the write of its list is on its way. -/
def reopened : List Action :=
  sending ++ [.close, .openPage 1, .select (some (saturday 1))]

theorem two_writes_of_reopened :
    ¬ ∀ s, Reachable app s → EditsSafe s := by
  intro h
  have hrun : (app.run firstOpened reopened).any (fun s =>
      decide (2 ≤ (s.flights.filter (·.key = (1, 7))).length)) = true := by decide +kernel
  obtain ⟨s, hs, htwo⟩ := (Option.any_eq_true _ _).mp hrun
  have hone := (h s (reachable_of_run reopened started_firstOpened hs)).one (1, 7)
  have := of_decide_eq_true htwo
  omega

end Frcmob.PicklistEditor
