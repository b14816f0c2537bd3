import Frcmob.Rooms.TeamRoom

/-!
The view of a team room never goes back: responses are applied in the order in which their
requests started, and only on the page they were asked for. The saves are carried out one at a
time and in their order as long as none of them is given up while it is still on its way.
-/

namespace Frcmob.TeamRoom

variable {team : Nat → Nat}

/-- It was applied on the page that asked for it, for the member of that page. -/
structure Applied.ForPage (a : Applied team) : Prop where
  page : a.page = some a.request.scope
  asker : a.request.asker = some a.request.scope.session
  member : a.response.me.memberId = a.request.scope.session.memberId
  event : a.response.eventKey = serverKey a.request.scope.event

structure NeverBack (hook : Hook team) : Prop where
  order : hook.applied.Pairwise fun newer older => older.seq ≤ newer.seq
  own : ∀ a ∈ hook.applied, a.ForPage
  saved : ∀ entry ∈ hook.saved,
    entry.2.ForPage ∧ entry.1 = copyKey entry.2.request.scope entry.2.response
  shown : ∀ copy, hook.snapshot = some copy →
    ∃ scope, hook.scopeRef = some scope ∧ copy.me.memberId = scope.session.memberId
  inOrder : hook.reached.Pairwise (· < ·)
  oneAtATime : hook.saving.toList.length + hook.abandoned.length ≤ 1

/-! ### The invariant -/

/-- What the page shows and has kept. -/
structure ViewInv (hook : Hook team) : Prop where
  order : hook.applied.Pairwise fun newer older => older.seq ≤ newer.seq
  newest : ∀ a ∈ hook.applied, a.seq ≤ hook.appliedSeq
  clock : hook.appliedSeq ≤ hook.requestSeq
  own : ∀ a ∈ hook.applied, a.ForPage
  saved : ∀ entry ∈ hook.saved,
    entry.2.ForPage ∧ entry.1 = copyKey entry.2.request.scope entry.2.response
  shown : ∀ copy, hook.snapshot = some copy →
    ∃ scope, hook.scopeRef = some scope ∧ copy.me.memberId = scope.session.memberId

/-- The save that the server has still to carry out. -/
def unreached (hook : Hook team) : List Nat :=
  (hook.saving.filter fun flight => !flight.reached).toList.map fun flight => flight.save.number

/-- The saves in the order in which they were made: carried out, on their way, in the chain. -/
def line (hook : Hook team) : List Nat :=
  hook.reached ++ (unreached hook ++ hook.chain.map Save.number)

structure SaveInv (hook : Hook team) : Prop where
  ordered : (line hook).Pairwise (· < ·)
  made : ∀ number ∈ line hook, number < hook.made
  abandoned : hook.abandoned = []

/-- Requests have the numbers given out so far, and a save among them is the one on its way. -/
structure RequestInv (hook : Hook team) : Prop where
  asked : ∀ seq request, hook.requests seq = some request → seq ≤ hook.requestSeq
  save : ∀ seq request save, hook.requests seq = some request → request.kind = .save save →
    ∃ reached, hook.saving = some ⟨seq, save, reached⟩

structure Inv (hook : Hook team) : Prop where
  view : ViewInv hook
  saves : SaveInv hook
  requests : RequestInv hook

/-! ### Steps that leave the view and the saves alone -/

structure SameView (hook hook' : Hook team) : Prop where
  applied : hook'.applied = hook.applied
  appliedSeq : hook'.appliedSeq = hook.appliedSeq
  saved : hook'.saved = hook.saved
  snapshot : hook'.snapshot = hook.snapshot
  scopeRef : hook'.scopeRef = hook.scopeRef

structure SameSaves (hook hook' : Hook team) : Prop where
  chain : hook'.chain = hook.chain
  saving : hook'.saving = hook.saving
  made : hook'.made = hook.made
  reached : hook'.reached = hook.reached
  abandoned : hook'.abandoned = hook.abandoned

/-- Only requests that are no saves start, and requests end. -/
structure Reads (hook hook' : Hook team) : Prop where
  clock : hook.requestSeq ≤ hook'.requestSeq
  requests : ∀ seq request, hook'.requests seq = some request →
    hook.requests seq = some request ∨
      (seq ≤ hook'.requestSeq ∧ ∀ save, request.kind ≠ .save save)

structure Quiet (hook hook' : Hook team) : Prop where
  view : SameView hook hook'
  saves : SameSaves hook hook'
  reads : Reads hook hook'

theorem Reads.same {hook hook' : Hook team} (hclock : hook'.requestSeq = hook.requestSeq)
    (hrequests : hook'.requests = hook.requests) : Reads hook hook' :=
  ⟨Nat.le_of_eq hclock.symm, fun _ _ h => .inl (hrequests ▸ h)⟩

theorem Reads.trans {a b c : Hook team} (hab : Reads a b) (hbc : Reads b c) : Reads a c := by
  refine ⟨Nat.le_trans hab.clock hbc.clock, ?_⟩
  intro seq request h
  rcases hbc.requests seq request h with hb | hnew
  · rcases hab.requests seq request hb with ha | hnew
    · exact .inl ha
    · exact .inr ⟨Nat.le_trans hnew.1 hbc.clock, hnew.2⟩
  · exact .inr hnew

theorem Quiet.refl (hook : Hook team) : Quiet hook hook :=
  ⟨⟨rfl, rfl, rfl, rfl, rfl⟩, ⟨rfl, rfl, rfl, rfl, rfl⟩, .same rfl rfl⟩

theorem Quiet.trans {a b c : Hook team} (hab : Quiet a b) (hbc : Quiet b c) : Quiet a c where
  view := ⟨hbc.view.applied.trans hab.view.applied, hbc.view.appliedSeq.trans hab.view.appliedSeq,
    hbc.view.saved.trans hab.view.saved, hbc.view.snapshot.trans hab.view.snapshot,
    hbc.view.scopeRef.trans hab.view.scopeRef⟩
  saves := ⟨hbc.saves.chain.trans hab.saves.chain, hbc.saves.saving.trans hab.saves.saving,
    hbc.saves.made.trans hab.saves.made, hbc.saves.reached.trans hab.saves.reached,
    hbc.saves.abandoned.trans hab.saves.abandoned⟩
  reads := hab.reads.trans hbc.reads

theorem reads_send (hook : Hook team) (kind : Kind team) (hkind : ∀ save, kind ≠ .save save)
    (scope : Scope team) : Reads hook (send hook kind scope) := by
  refine ⟨Nat.le_succ _, ?_⟩
  intro seq request h
  unfold send at h
  by_cases hseq : seq = hook.requestSeq + 1
  · subst hseq
    have heq : ⟨kind, hook.visit, scope, hook.session⟩ = request := by simpa using h
    exact .inr ⟨Nat.le_refl _, heq ▸ hkind⟩
  · exact .inl (by simpa [Function.update_of_ne hseq] using h)

theorem quiet_send (hook : Hook team) (kind : Kind team) (hkind : ∀ save, kind ≠ .save save)
    (scope : Scope team) : Quiet hook (send hook kind scope) :=
  ⟨⟨rfl, rfl, rfl, rfl, rfl⟩, ⟨rfl, rfl, rfl, rfl, rfl⟩, reads_send hook kind hkind scope⟩

theorem quiet_poll (hook : Hook team) (visible due : Bool) :
    Quiet hook (poll hook visible due) := by
  unfold poll
  split
  · exact .refl hook
  · rename_i scope hscope
    have hpoll := quiet_send hook .poll (fun _ => nofun) scope
    have hopen := quiet_send hook .open_ (fun _ => nofun) scope
    split
    · exact .refl hook
    · split
      · exact ⟨⟨rfl, rfl, rfl, rfl, rfl⟩, ⟨rfl, rfl, rfl, rfl, rfl⟩,
          hpoll.reads.trans (.same rfl rfl)⟩
      · split
        · exact ⟨⟨rfl, rfl, rfl, rfl, rfl⟩, ⟨rfl, rfl, rfl, rfl, rfl⟩,
            hopen.reads.trans (.same rfl rfl)⟩
        · exact .refl hook

theorem quiet_refetch (hook : Hook team) (visible due : Bool) :
    Quiet hook (refetch hook visible due) := by
  unfold refetch
  split
  · exact .refl hook
  · split
    · exact ⟨⟨rfl, rfl, rfl, rfl, rfl⟩, ⟨rfl, rfl, rfl, rfl, rfl⟩, .same rfl rfl⟩
    · exact quiet_poll hook visible due

theorem quiet_endPoll (hook : Hook team) (request : Request team) (visible due : Bool) :
    Quiet hook (endPoll hook request visible due) := by
  unfold endPoll
  split
  · split
    · have hdone : Quiet hook { hook with pollInFlight := false, refreshQueued := false } :=
        ⟨⟨rfl, rfl, rfl, rfl, rfl⟩, ⟨rfl, rfl, rfl, rfl, rfl⟩, .same rfl rfl⟩
      exact hdone.trans (quiet_poll _ visible due)
    · exact ⟨⟨rfl, rfl, rfl, rfl, rfl⟩, ⟨rfl, rfl, rfl, rfl, rfl⟩, .same rfl rfl⟩
  · exact .refl hook

theorem quiet_opened (hook : Hook team) (request : Request team) (isOpen : Bool) :
    Quiet hook (opened hook request isOpen) := by
  unfold opened
  split
  · exact ⟨⟨rfl, rfl, rfl, rfl, rfl⟩, ⟨rfl, rfl, rfl, rfl, rfl⟩, .same rfl rfl⟩
  · exact .refl hook

theorem quiet_land (hook : Hook team) (seq : Nat) : Quiet hook (land hook seq) := by
  refine ⟨⟨rfl, rfl, rfl, rfl, rfl⟩, ⟨rfl, rfl, rfl, rfl, rfl⟩, Nat.le_refl _, ?_⟩
  intro seq' request h
  unfold land at h
  by_cases hseq : seq' = seq
  · subst hseq
    simp at h
  · exact .inl (by simpa [Function.update_of_ne hseq] using h)

theorem ViewInv.of_same {hook hook' : Hook team} (h : ViewInv hook) (hsame : SameView hook hook')
    (hclock : hook.requestSeq ≤ hook'.requestSeq) : ViewInv hook' where
  order := hsame.applied ▸ h.order
  newest := by
    rw [hsame.applied, hsame.appliedSeq]
    exact h.newest
  clock := by
    rw [hsame.appliedSeq]
    exact Nat.le_trans h.clock hclock
  own := hsame.applied ▸ h.own
  saved := hsame.saved ▸ h.saved
  shown := by
    rw [hsame.snapshot, hsame.scopeRef]
    exact h.shown

theorem line_of_same {hook hook' : Hook team} (hsame : SameSaves hook hook') :
    line hook' = line hook := by
  simp only [line, unreached, hsame.reached, hsame.saving, hsame.chain]

theorem SaveInv.of_same {hook hook' : Hook team} (h : SaveInv hook)
    (hsame : SameSaves hook hook') : SaveInv hook' where
  ordered := line_of_same hsame ▸ h.ordered
  made := by
    rw [line_of_same hsame, hsame.made]
    exact h.made
  abandoned := hsame.abandoned.trans h.abandoned

theorem RequestInv.of_reads {hook hook' : Hook team} (h : RequestInv hook)
    (hreads : Reads hook hook') (hsaving : hook'.saving = hook.saving) : RequestInv hook' where
  asked := by
    intro seq request hrequest
    rcases hreads.requests seq request hrequest with hold | hnew
    · exact Nat.le_trans (h.asked seq request hold) hreads.clock
    · exact hnew.1
  save := by
    intro seq request save hrequest hkind
    rcases hreads.requests seq request hrequest with hold | hnew
    · exact hsaving ▸ h.save seq request save hold hkind
    · exact absurd hkind (hnew.2 save)

theorem Inv.of_quiet {hook hook' : Hook team} (h : Inv hook) (hquiet : Quiet hook hook') :
    Inv hook' where
  view := h.view.of_same hquiet.view hquiet.reads.clock
  saves := h.saves.of_same hquiet.saves
  requests := h.requests.of_reads hquiet.reads hquiet.saves.saving

/-! ### Responses -/

/-- The response of the server to a request, for the event and the member that asked. -/
structure Fits (request : Request team) (response : TeamRoomSnapshot) : Prop where
  asker : ∃ asker, request.asker = some asker ∧ response.me.memberId = asker.memberId
  event : response.eventKey = serverKey request.scope.event

theorem fits_of_mayAnswer {hook : Hook team} {request : Request team}
    {response : TeamRoomSnapshot} (h : mayAnswer hook request (some response) = true) :
    Fits request response := by
  unfold mayAnswer at h
  split at h
  · rename_i asker response' hasker heq
    cases heq
    simp only [Bool.and_eq_true, decide_eq_true_eq] at h
    exact ⟨⟨asker, hasker, h.1.1⟩, h.1.2⟩
  · cases h
  · rename_i heq
    cases heq

/-- A membership belongs to one workspace. -/
theorem session_eq {s t : Session team} (h : s.memberId = t.memberId) : s = t := by
  obtain ⟨workspace, member, howned⟩ := s
  obtain ⟨workspace', member', howned'⟩ := t
  cases h
  cases howned.symm.trans howned'
  rfl

theorem forPage_of_fits {request : Request team} {response : TeamRoomSnapshot}
    (hfits : Fits request response) {page : Option (Scope team)}
    (hpage : page = some request.scope)
    (hmember : response.me.memberId = request.scope.session.memberId) (seq : Nat) :
    Applied.ForPage ⟨seq, request, page, response⟩ := by
  obtain ⟨asker, hasker, hme⟩ := hfits.asker
  refine ⟨hpage, ?_, hmember, hfits.event⟩
  rw [hasker, session_eq (hme.symm.trans hmember)]

theorem ViewInv.apply {hook : Hook team} (h : ViewInv hook) {response : TeamRoomSnapshot}
    {request : Request team} {seq : Nat} (hfits : Fits request response)
    (hpage : hook.scopeRef = some request.scope)
    (hmember : response.me.memberId = request.scope.session.memberId)
    (hnewer : hook.appliedSeq ≤ seq) (hasked : seq ≤ hook.requestSeq) (fits : Bool) :
    ViewInv (apply hook response request seq fits) := by
  have hown := forPage_of_fits hfits hpage hmember seq
  have horder : (⟨seq, request, hook.scopeRef, response⟩ :: hook.applied).Pairwise
      fun newer older : Applied team => older.seq ≤ newer.seq :=
    List.pairwise_cons.mpr ⟨fun a ha => Nat.le_trans (h.newest a ha) hnewer, h.order⟩
  have hnewest : ∀ a ∈ ⟨seq, request, hook.scopeRef, response⟩ :: hook.applied, a.seq ≤ seq := by
    intro a ha
    rcases List.mem_cons.mp ha with rfl | hold
    · exact Nat.le_refl _
    · exact Nat.le_trans (h.newest a hold) hnewer
  have hforPage : ∀ a ∈ ⟨seq, request, hook.scopeRef, response⟩ :: hook.applied, a.ForPage := by
    intro a ha
    rcases List.mem_cons.mp ha with rfl | hold
    · exact hown
    · exact h.own a hold
  unfold TeamRoom.apply
  split
  · exact ⟨horder, hnewest, hasked, hforPage, h.saved, h.shown⟩
  · refine ⟨horder, hnewest, hasked, hforPage, ?_, ?_⟩
    · intro entry hentry
      cases fits with
      | false => exact h.saved entry hentry
      | true =>
          rcases List.mem_cons.mp hentry with rfl | hold
          · exact ⟨hown, rfl⟩
          · exact h.saved entry hold
    · intro copy hcopy
      cases hcopy
      exact ⟨request.scope, hpage, hmember⟩

theorem ViewInv.accept {hook : Hook team} (h : ViewInv hook) {response : TeamRoomSnapshot}
    {request : Request team} {seq : Nat} (hfits : Fits request response)
    (hasked : seq ≤ hook.requestSeq) (fits : Bool) :
    ViewInv (accept hook response request seq fits) := by
  unfold TeamRoom.accept
  split
  · exact h
  · rename_i hpage
    split
    · exact h
    · rename_i hcheck
      rw [not_not] at hpage
      rw [not_or, not_not] at hcheck
      exact h.apply hfits hpage hcheck.1 (Nat.le_of_not_lt hcheck.2) hasked fits

theorem accept_rest (hook : Hook team) (response : TeamRoomSnapshot) (request : Request team)
    (seq : Nat) (fits : Bool) :
    SameSaves hook (accept hook response request seq fits) ∧
      Reads hook (accept hook response request seq fits) := by
  unfold accept apply
  split
  · exact ⟨⟨rfl, rfl, rfl, rfl, rfl⟩, .same rfl rfl⟩
  · split
    · exact ⟨⟨rfl, rfl, rfl, rfl, rfl⟩, .same rfl rfl⟩
    · split
      · exact ⟨⟨rfl, rfl, rfl, rfl, rfl⟩, .same rfl rfl⟩
      · exact ⟨⟨rfl, rfl, rfl, rfl, rfl⟩, .same rfl rfl⟩

theorem Inv.accept {hook : Hook team} (h : Inv hook) {response : TeamRoomSnapshot}
    {request : Request team} {seq : Nat} (hfits : Fits request response)
    (hasked : seq ≤ hook.requestSeq) (fits : Bool) :
    Inv (accept hook response request seq fits) := by
  obtain ⟨hsaves, hreads⟩ := accept_rest hook response request seq fits
  exact ⟨h.view.accept hfits hasked fits, h.saves.of_same hsaves,
    h.requests.of_reads hreads hsaves.saving⟩

/-! ### Saves -/

/-- A save that has ended is no longer among the requests. -/
def NoSave (hook : Hook team) : Prop :=
  ∀ seq request save, hook.requests seq = some request → request.kind ≠ .save save

theorem Inv.endSave {hook : Hook team} (h : Inv hook) (hnone : NoSave hook) (visible due : Bool) :
    Inv (endSave hook visible due) := by
  have hended : Inv { hook with savesInFlight := hook.savesInFlight - 1, saving := none } := by
    refine ⟨h.view.of_same ⟨rfl, rfl, rfl, rfl, rfl⟩ (Nat.le_refl _), ?_, ?_⟩
    · have hsub : (line { hook with savesInFlight := hook.savesInFlight - 1, saving := none }).Sublist
          (line hook) := by
        apply List.Sublist.append_left
        exact List.sublist_append_right _ _
      exact ⟨h.saves.ordered.sublist hsub, fun n hn => h.saves.made n (hsub.subset hn),
        h.saves.abandoned⟩
    · exact ⟨h.requests.asked, fun seq request save hrequest hkind =>
        absurd hkind (hnone seq request save hrequest)⟩
  unfold TeamRoom.endSave
  dsimp only
  split
  · exact hended.of_quiet (quiet_refetch _ visible due)
  · exact hended

theorem noSave_land {hook : Hook team} (h : RequestInv hook) {seq : Nat} {request : Request team}
    {save : Save team} (hrequest : hook.requests seq = some request)
    (hkind : request.kind = .save save) : NoSave (land hook seq) := by
  intro seq' request' save' hrequest' hkind'
  unfold land at hrequest'
  by_cases hseq : seq' = seq
  · subst hseq
    simp at hrequest'
  · have hold : hook.requests seq' = some request' := by
      simpa [Function.update_of_ne hseq] using hrequest'
    obtain ⟨reached, hsaving⟩ := h.save seq request save hrequest hkind
    obtain ⟨reached', hsaving'⟩ := h.save seq' request' save' hold hkind'
    rw [hsaving] at hsaving'
    cases hsaving'
    exact hseq rfl

theorem noSave_accept {hook : Hook team} (h : NoSave hook) (response : TeamRoomSnapshot)
    (request : Request team) (seq : Nat) (fits : Bool) :
    NoSave (accept hook response request seq fits) := by
  intro seq' request' save hrequest
  rcases (accept_rest hook response request seq fits).2.requests seq' request' hrequest with
    hold | hnew
  · exact h seq' request' save hold
  · exact hnew.2 save

theorem Inv.answer {hook : Hook team} (h : Inv hook) {seq : Nat} {request : Request team}
    {response : Option TeamRoomSnapshot} (hrequest : hook.requests seq = some request)
    (hmay : mayAnswer hook request response = true) (fits visible due : Bool) :
    Inv (answer hook seq request response fits visible due) := by
  have hlanded := h.of_quiet (quiet_land hook seq)
  have hasked : seq ≤ (land hook seq).requestSeq := h.requests.asked seq request hrequest
  unfold TeamRoom.answer
  dsimp only
  split
  · have haccepted := hlanded.accept (fits_of_mayAnswer hmay) hasked fits
    exact (haccepted.of_quiet (quiet_opened _ _ _)).of_quiet (quiet_endPoll _ _ _ _)
  · split
    · have haccepted := hlanded.accept (fits_of_mayAnswer hmay) hasked fits
      exact haccepted.of_quiet (quiet_endPoll _ _ _ _)
    · exact hlanded
  · split
    · have hclosed : Quiet (land hook seq) { land hook seq with roomOpen := false } :=
        ⟨⟨rfl, rfl, rfl, rfl, rfl⟩, ⟨rfl, rfl, rfl, rfl, rfl⟩, .same rfl rfl⟩
      exact (hlanded.of_quiet hclosed).of_quiet (quiet_send _ .open_ (fun _ => nofun) _)
    · exact hlanded
  · rename_i save response' hkind
    have haccepted := hlanded.accept (fits_of_mayAnswer hmay) hasked fits
    exact haccepted.endSave
      (noSave_accept (noSave_land h.requests hrequest hkind) _ _ _ _) visible due
  · exact hlanded

theorem Inv.fail {hook : Hook team} (h : Inv hook) {seq : Nat} {request : Request team}
    (hrequest : hook.requests seq = some request) (error : String) {late : Bool}
    (hlate : ∀ save, request.kind = .save save → stillOnItsWay hook late = false)
    (visible due : Bool) : Inv (fail hook seq request error late visible due) := by
  have hlanded := h.of_quiet (quiet_land hook seq)
  unfold TeamRoom.fail
  dsimp only
  split
  · split
    · have hshown : Quiet (land hook seq) { land hook seq with status := .error, error := error } :=
        ⟨⟨rfl, rfl, rfl, rfl, rfl⟩, ⟨rfl, rfl, rfl, rfl, rfl⟩, .same rfl rfl⟩
      exact (hlanded.of_quiet hshown).of_quiet (quiet_endPoll _ _ _ _)
    · exact hlanded
  · exact hlanded.of_quiet (quiet_endPoll _ _ _ _)
  · rename_i save hkind
    have hsettled : stillOnItsWay (land hook seq) late = false := hlate save hkind
    simp only [hsettled, Bool.false_eq_true, if_false]
    exact hlanded.endSave (noSave_land h.requests hrequest hkind) visible due

theorem line_queue (hook : Hook team) (scope : Scope team)
    (changes : List TeamRoomAssignmentChange) :
    line (queue hook scope changes) = line hook ++ [hook.made] := by
  simp [line, unreached, queue]

theorem Inv.queue {hook : Hook team} (h : Inv hook) (scope : Scope team)
    (changes : List TeamRoomAssignmentChange) : Inv (queue hook scope changes) := by
  refine ⟨h.view.of_same ⟨rfl, rfl, rfl, rfl, rfl⟩ (Nat.le_refl _),
    ⟨?_, ?_, h.saves.abandoned⟩, h.requests.asked, h.requests.save⟩
  · rw [line_queue]
    refine List.pairwise_append.mpr ⟨h.saves.ordered, List.pairwise_singleton _ _, ?_⟩
    intro n hn m hm
    rw [List.mem_singleton.mp hm]
    exact h.saves.made n hn
  · intro n hn
    rw [line_queue] at hn
    change n < hook.made + 1
    rcases List.mem_append.mp hn with hold | hnew
    · exact Nat.lt_succ_of_lt (h.saves.made n hold)
    · rw [List.mem_singleton.mp hnew]
      exact Nat.lt_succ_self _

theorem Inv.saveChanges {hook : Hook team} (h : Inv hook) (scope : Option (Scope team))
    (changes : List TeamRoomAssignmentChange) (online : Bool) :
    Inv (saveChanges hook scope changes online) := by
  unfold TeamRoom.saveChanges
  split
  · exact h
  · split
    · exact h
    · exact h.queue _ changes

theorem Inv.startSave {hook : Hook team} (h : Inv hook) {save : Save team}
    {rest : List (Save team)} (hsaving : hook.saving = none) (hchain : hook.chain = save :: rest) :
    Inv (startSave hook save rest) := by
  have hline : line (TeamRoom.startSave hook save rest) = line hook := by
    simp [line, unreached, TeamRoom.startSave, send, hsaving, hchain, Option.filter]
  refine ⟨h.view.of_same ⟨rfl, rfl, rfl, rfl, rfl⟩ (Nat.le_succ _), ⟨?_, ?_, h.saves.abandoned⟩, ?_⟩
  · rw [hline]
    exact h.saves.ordered
  · rw [hline]
    exact h.saves.made
  · refine ⟨?_, ?_⟩ <;> intro seq request
    · intro hrequest
      unfold TeamRoom.startSave send at hrequest ⊢
      by_cases hseq : seq = hook.requestSeq + 1
      · exact Nat.le_of_eq hseq
      · have hold : hook.requests seq = some request := by
          simpa [Function.update_of_ne hseq] using hrequest
        exact Nat.le_succ_of_le (h.requests.asked seq request hold)
    · intro save' hrequest hkind
      unfold TeamRoom.startSave send at hrequest
      by_cases hseq : seq = hook.requestSeq + 1
      · subst hseq
        have heq : ⟨.save save, hook.visit, save.scope, hook.session⟩ = request := by
          simpa using hrequest
        subst heq
        cases hkind
        exact ⟨false, rfl⟩
      · have hold : hook.requests seq = some request := by
          simpa [Function.update_of_ne hseq] using hrequest
        -- No save was on its way, so there was none among the requests.
        obtain ⟨reached, hother⟩ := h.requests.save seq request save' hold hkind
        rw [hsaving] at hother
        cases hother

theorem Inv.reach {hook : Hook team} (h : Inv hook) {flight : Flight team}
    (hsaving : hook.saving = some flight) (hnew : flight.reached = false) :
    Inv (reach hook flight) := by
  have hline : line (TeamRoom.reach hook flight) = line hook := by
    simp [line, unreached, TeamRoom.reach, hsaving, hnew, Option.filter]
  refine ⟨h.view.of_same ⟨rfl, rfl, rfl, rfl, rfl⟩ (Nat.le_refl _), ⟨?_, ?_, h.saves.abandoned⟩,
    h.requests.asked, ?_⟩
  · rw [hline]
    exact h.saves.ordered
  · rw [hline]
    exact h.saves.made
  · intro seq request save hrequest hkind
    obtain ⟨reached, hold⟩ := h.requests.save seq request save hrequest hkind
    rw [hsaving] at hold
    cases hold
    exact ⟨true, rfl⟩

theorem Inv.enter {hook : Hook team} (h : Inv hook) (event : String) : Inv (enter hook event) := by
  have hview : ∀ hook' : Hook team, hook'.applied = hook.applied → hook'.saved = hook.saved →
      hook'.appliedSeq = hook.requestSeq → hook'.requestSeq = hook.requestSeq →
      (∀ copy, hook'.snapshot = some copy →
        ∃ scope, hook'.scopeRef = some scope ∧ copy.me.memberId = scope.session.memberId) →
      ViewInv hook' := by
    intro hook' happlied hsaved hseq hclock hshown
    refine ⟨happlied ▸ h.view.order, ?_, by omega, happlied ▸ h.view.own, hsaved ▸ h.view.saved,
      hshown⟩
    rw [happlied, hseq]
    exact fun a ha => Nat.le_trans (h.view.newest a ha) h.view.clock
  unfold TeamRoom.enter
  split
  · exact ⟨hview _ rfl rfl rfl rfl nofun, h.saves.of_same ⟨rfl, rfl, rfl, rfl, rfl⟩,
      h.requests.asked, h.requests.save⟩
  · rename_i scope hscope
    refine ⟨hview _ rfl rfl rfl rfl ?_, h.saves.of_same ⟨rfl, rfl, rfl, rfl, rfl⟩,
      h.requests.asked, h.requests.save⟩
    intro copy hcopy
    refine ⟨scope, hscope, ?_⟩
    have hread : readSavedSnapshot hook scope = some copy := hcopy
    simp only [readSavedSnapshot, Option.filter_eq_some_iff, Bool.and_eq_true,
      decide_eq_true_eq] at hread
    exact hread.2.2

/-! ### Runs -/

/-- A save that ends in an error is not on its way any more. -/
def Patient (hook : Hook team) : Action team → Prop
  | .fail seq _ late _ _ =>
    match hook.requests seq with
    | some ⟨.save _, _, _, _⟩ => stillOnItsWay hook late = false
    | _ => True
  | _ => True

instance (hook : Hook team) (action : Action team) : Decidable (Patient hook action) := by
  unfold Patient
  split
  · split <;> infer_instance
  · infer_instance

theorem Inv.step {hook hook' : Hook team} {action : Action team} (h : Inv hook)
    (hpatient : Patient hook action) (hstep : step hook action = some hook') : Inv hook' := by
  cases action with
  | signIn session =>
      cases hstep
      exact h.of_quiet ⟨⟨rfl, rfl, rfl, rfl, rfl⟩, ⟨rfl, rfl, rfl, rfl, rfl⟩, .same rfl rfl⟩
  | enter event =>
      cases hstep
      exact h.enter event
  | leave =>
      cases hstep
      exact h.of_quiet ⟨⟨rfl, rfl, rfl, rfl, rfl⟩, ⟨rfl, rfl, rfl, rfl, rfl⟩, .same rfl rfl⟩
  | poll visible due =>
      cases hstep
      exact h.of_quiet (quiet_poll hook visible due)
  | retry visible =>
      cases hstep
      exact h.of_quiet (quiet_refetch hook visible true)
  | save scope changes online =>
      cases hstep
      exact h.saveChanges scope changes online
  | startSave =>
      simp only [TeamRoom.step] at hstep
      split at hstep
      · rename_i hsaving hchain
        cases hstep
        exact h.startSave hsaving hchain
      · cases hstep
  | reach =>
      simp only [TeamRoom.step] at hstep
      split at hstep
      · rename_i flight hsaving
        split at hstep
        · cases hstep
        · rename_i hnew
          cases hstep
          exact h.reach hsaving (by simpa using hnew)
      · cases hstep
  | reachLate number =>
      simp [TeamRoom.step, h.saves.abandoned] at hstep
  | answer seq response fits visible due =>
      simp only [TeamRoom.step] at hstep
      split at hstep
      · rename_i request hrequest
        split at hstep
        · rename_i hmay
          cases hstep
          exact h.answer hrequest hmay fits visible due
        · cases hstep
      · cases hstep
  | fail seq error late visible due =>
      simp only [TeamRoom.step] at hstep
      split at hstep
      · rename_i request hrequest
        cases hstep
        apply h.fail hrequest error
        intro save hkind
        obtain ⟨kind, visit, scope, asker⟩ := request
        cases hkind
        simpa only [Patient, hrequest] using hpatient
      · cases hstep

theorem inv_of_started {hook : Hook team} (h : Started hook) : Inv hook := by
  obtain ⟨-, -, hclock, hseq, -, hsnapshot, hrequests, hchain, hsaving, happlied, hsaved, -,
    hreached, habandoned⟩ := h
  refine ⟨⟨?_, ?_, ?_, ?_, ?_, ?_⟩, ⟨?_, ?_, habandoned⟩, ⟨?_, ?_⟩⟩ <;>
    simp_all [line, unreached]

theorem Inv.neverBack {hook : Hook team} (h : Inv hook) : NeverBack hook where
  order := h.view.order
  own := h.view.own
  saved := h.view.saved
  shown := h.view.shown
  inOrder := (List.pairwise_append.mp h.saves.ordered).1
  oneAtATime := by
    rw [h.saves.abandoned]
    cases hook.saving <;> simp

/-- In a run in which no save is given up while it is on its way, the view never goes back, and
the saves are carried out one at a time and in the order in which they were made. -/
theorem neverBack_of_patient {hook : Hook team}
    (h : Transition.ReachableWhen (system team) Patient hook) : NeverBack hook :=
  (h.invariant (fun _ hstart => inv_of_started hstart)
    fun _ _ _ hinv hpatient hstep => hinv.step hpatient hstep).neverBack

/-! ### A leader who saves twice -/

def oneTeam (_ : Nat) : Nat := 1

def leader : Session oneTeam := ⟨1, 7, rfl⟩

def page : Scope oneTeam := ⟨leader, "2026week0"⟩

def newPage : Hook oneTeam :=
  ⟨some leader, none, 0, false, 0, 0, 0, false, false, false, none, none, .idle, "", false,
    fun _ => none, fun _ => none, [], none, [], [], 0, [], []⟩

theorem started_newPage : Started newPage :=
  ⟨rfl, rfl, rfl, rfl, rfl, rfl, fun _ => rfl, rfl, rfl, rfl, rfl, rfl, rfl, rfl⟩

/-- The slot of a match goes to a member. -/
def assign (member : Nat) : List TeamRoomAssignmentChange :=
  [⟨"2026week0_qm1", "frc254", some member⟩]

def roomWith (assignments : List TeamRoomAssignment) : TeamRoomSnapshot :=
  ⟨true, "room", "2026week0", ⟨7, "Leader", .leader⟩, [], assignments⟩

def assigned (member : Nat) : TeamRoomSnapshot :=
  roomWith [⟨"2026week0_qm1", "frc254", some member, "Scout", true, false, false⟩]

/-- The room opens, a poll is on its way, and two saves are made. -/
def twoSaves : List (Action oneTeam) :=
  [.enter "2026week0", .poll true true, .answer 1 (some (roomWith [])) true true true,
    .poll true true, .save (some page) (assign 8) true, .save (some page) (assign 9) true,
    .startSave]

/-- The poll comes back after the first save; the answer to the second has to wait for it. -/
def bothAnswered : List (Action oneTeam) :=
  twoSaves ++ [.reach, .answer 3 (some (assigned 8)) true true true,
    .answer 2 (some (roomWith [])) true true true, .startSave, .reach,
    .answer 4 (some (assigned 9)) true true true]

theorem neverBack_of_patient_bothAnswered :
    ∃ hook, (system oneTeam).run newPage bothAnswered = some hook ∧
      hook.snapshot = some (assigned 9) ∧ NeverBack hook := by
  have hshown : ((system oneTeam).run newPage bothAnswered).map (·.snapshot) =
      some (some (assigned 9)) := by decide +kernel
  obtain ⟨hook, hrun, hsnapshot⟩ := Option.map_eq_some_iff.mp hshown
  exact ⟨hook, hrun, hsnapshot, neverBack_of_patient (Transition.reachableWhen_of_run bothAnswered
    (.start started_newPage) (by decide +kernel) hrun)⟩

/-- The first save times out on the page while it is still on its way. -/
def timedOut : List (Action oneTeam) :=
  twoSaves ++ [.fail 3 "Request timed out after 30s." true true true, .startSave, .reach,
    .reachLate 0]

theorem older_save_lands_last :
    ¬ ∀ hook, Transition.Reachable (system oneTeam) hook → NeverBack hook := by
  intro hall
  have hreached : ((system oneTeam).run newPage timedOut).map (·.reached) = some [1, 0] := by
    decide +kernel
  obtain ⟨hook, hrun, horder⟩ := Option.map_eq_some_iff.mp hreached
  have hback := hall hook (Transition.reachable_of_run timedOut started_newPage hrun)
  have hsorted := hback.inOrder
  rw [horder] at hsorted
  exact absurd hsorted (by decide)

end Frcmob.TeamRoom
