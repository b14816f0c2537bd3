import Frcmob.Lib.Transition
import Frcmob.Push.Alerts

/-!
At most one successful push per subscription and alert key, over any number of
ticks. The marks are pending ORM state while later events of the tick are still
refreshed, so the invariant speaks about the committed and the pending rows apart,
and about the sends made before and since the last commit.
-/

namespace Frcmob.Push
open Transition

/-- What the push service accepted, by subscription and alert key. -/
def delivered (sends : List Sent) : List (Nat × String) :=
  (sends.filter (·.ok)).map fun s => (s.subscription, s.payload.tag)

def PushedOnce (w : World) : Prop :=
  (delivered w.sent).Nodup

instance (w : World) : Decidable (PushedOnce w) :=
  inferInstanceAs (Decidable (List.Nodup _))

def alertSystem (settings : Settings) : System World TickInput where
  start w := w.current = w.committed ∧ w.settled = [] ∧ w.sinceCommit = []
  step w input := some (runMatchAlertTick settings input w).1

/-- The map this subscription gets back, if any, is within the bound of pruning. -/
def SubscriptionSafe (settings : Settings) (input : TickInput) (eventKey : String)
    (ms : List Match) (w : World) (id : Nat) : Prop :=
  ∀ sub ∈ w.current.subscriptions.find? (fun s => s.id = id),
    (subscriptionAlerts settings input eventKey ms w sub).changed = true →
      (subscriptionAlerts settings input eventKey ms w sub).notified.length ≤ maxNotifiedKeys

/-- A refresh that raises finds no accepted push since the last commit, and no
subscription of the event outgrows its map. -/
def EventSafe (settings : Settings) (input : TickInput) (w : World)
    (event : String × List Nat) : Prop :=
  (input.refresh event.1 = .raised → ∀ s ∈ w.sinceCommit, s.ok = false) ∧
  FoldMeets
    (alertSubscription settings input event.1
      (dueMatches (refreshEvent input event.1 w).current input.now event.1))
    (SubscriptionSafe settings input event.1
      (dueMatches (refreshEvent input event.1 w).current input.now event.1))
    (refreshEvent input event.1 w) event.2

def TickSafe (settings : Settings) (w : World) (input : TickInput) : Prop :=
  FoldMeets (alertEvent settings input) (EventSafe settings input)
    (purgedWorld settings input w) (tickEvents settings input w)

instance (settings : Settings) (input : TickInput) (eventKey : String) (ms : List Match)
    (w : World) (id : Nat) :
    Decidable (SubscriptionSafe settings input eventKey ms w id) :=
  match h : w.current.subscriptions.find? (fun s => s.id = id) with
  | none => isTrue (by simp [SubscriptionSafe, h])
  | some sub => decidable_of_iff
      ((subscriptionAlerts settings input eventKey ms w sub).changed = true →
        (subscriptionAlerts settings input eventKey ms w sub).notified.length ≤ maxNotifiedKeys)
      (by simp [SubscriptionSafe, h])

instance (settings : Settings) (input : TickInput) (w : World) (event : String × List Nat) :
    Decidable (EventSafe settings input w event) :=
  inferInstanceAs (Decidable (_ ∧ _))

instance (settings : Settings) (w : World) (input : TickInput) :
    Decidable (TickSafe settings w input) :=
  inferInstanceAs (Decidable (FoldMeets _ _ _ _))

/-! Marks -/

/-- Wherever the subscription still has a row, the row carries the mark of the send. -/
def Marked (rows : List PushSubscription) (s : Sent) : Prop :=
  ∀ row ∈ rows, row.id = s.subscription → isNotified row.notified s.payload.tag = true

/-- Every row of `new` is a row of `old` as far as identity and marks go. -/
def Thins (new old : List PushSubscription) : Prop :=
  ∀ row ∈ new, ∃ row' ∈ old, row'.id = row.id ∧ row'.notified = row.notified

theorem Marked.thins {new old : List PushSubscription} {s : Sent} (h : Marked old s)
    (ht : Thins new old) : Marked new s := by
  intro row hrow hid
  obtain ⟨row', hold, hid', hn⟩ := ht row hrow
  exact hn ▸ h row' hold (hid'.trans hid)

theorem thins_filter (rows : List PushSubscription) (p : PushSubscription → Bool) :
    Thins (rows.filter p) rows :=
  fun row hrow => ⟨row, List.mem_of_mem_filter hrow, rfl, rfl⟩

theorem thins_update (rows : List PushSubscription) (id : Nat)
    (f : PushSubscription → PushSubscription)
    (hid : ∀ row, (f row).id = row.id) (hn : ∀ row, (f row).notified = row.notified) :
    Thins (rows.map fun row => if row.id = id then f row else row) rows := by
  intro row hrow
  obtain ⟨row', hold, rfl⟩ := List.mem_map.mp hrow
  refine ⟨row', hold, ?_, ?_⟩ <;> split <;> simp [hid, hn]

theorem sendEffect_thins (settings : Settings) (outcome : SendOutcome) (id : Nat) (w : World) :
    Thins (sendEffect settings outcome id w).current.subscriptions w.current.subscriptions := by
  cases outcome with
  | delivered => exact thins_update _ _ _ (fun _ => rfl) fun _ => rfl
  | gone => exact thins_filter _ _
  | refused => exact thins_update _ _ _ (fun _ => rfl) fun _ => rfl
  | crashed => exact fun row hrow => ⟨row, hrow, rfl, rfl⟩

theorem sendEffect_frame (settings : Settings) (outcome : SendOutcome) (id : Nat) (w : World) :
    (sendEffect settings outcome id w).settled = w.settled ∧
    (sendEffect settings outcome id w).sinceCommit = w.sinceCommit ∧
    (sendEffect settings outcome id w).committed = w.committed := by
  cases outcome <;> exact ⟨rfl, rfl, rfl⟩

/-- One send: the rows thin out and exactly one record is added, for this
subscription and this key. -/
theorem sendWebPush_cases (settings : Settings) (input : TickInput) (id : Nat)
    (payload : PushPayload) (w : World) :
    ∃ ok : Bool,
      let w' := sendWebPush settings input id payload w
      w'.sinceCommit = w.sinceCommit ++ [⟨id, payload, ok⟩] ∧ w'.settled = w.settled ∧
      w'.committed = w.committed ∧ Thins w'.current.subscriptions w.current.subscriptions := by
  rw [sendWebPush]
  split
  · obtain ⟨hs, hc, hd⟩ := sendEffect_frame settings (input.answer w.sent.length) id w
    refine ⟨decide (input.answer w.sent.length = .delivered), ?_, hs, hd,
      sendEffect_thins settings _ id w⟩
    simp [World.record, hc]
  · exact ⟨false, rfl, rfl, rfl, fun row hrow => ⟨row, hrow, rfl, rfl⟩⟩

@[simp] theorem isNotified_mark (notified : List (String × Int)) (key key' : String)
    (now : Int) :
    isNotified (markNotified notified key now) key' =
      (isNotified notified key' || decide (key = key')) := by
  rw [markNotified]
  split
  · rename_i h
    simp only [isNotified, List.any_map, List.any_eq_true, decide_eq_true_eq] at h ⊢
    obtain ⟨item, hmem, hkey⟩ := h
    rw [Bool.eq_iff_iff]
    simp only [List.any_eq_true, Function.comp, Bool.or_eq_true, decide_eq_true_eq]
    constructor
    · rintro ⟨x, hx, hk⟩
      split at hk
      · exact .inr hk
      · exact .inl ⟨x, hx, hk⟩
    · rintro (⟨x, hx, hk⟩ | rfl)
      · refine ⟨x, hx, ?_⟩
        split
        · rename_i he; exact he.symm.trans hk
        · exact hk
      · exact ⟨item, hmem, by simp [hkey]⟩
  · simp [isNotified]

theorem pruneNotified_short {notified : List (String × Int)}
    (h : notified.length ≤ maxNotifiedKeys) : pruneNotified notified = notified := by
  simp [pruneNotified, h]

theorem delivered_append (xs ys : List Sent) :
    delivered (xs ++ ys) = delivered xs ++ delivered ys := by
  simp [delivered]

/-! The invariant between the steps of a tick. -/

structure Sound (w : World) : Prop where
  once : PushedOnce w
  /-- what the last commit covers is marked in the committed rows -/
  settled : ∀ s ∈ w.settled, s.ok → Marked w.committed.subscriptions s
  /-- everything sent is marked in the pending rows -/
  pending : ∀ s ∈ w.sent, s.ok → Marked w.current.subscriptions s

theorem Sound.commit {w : World} (h : Sound w) : Sound w.commit where
  once := by simpa [PushedOnce, World.commit, World.sent] using h.once
  settled := h.pending
  pending := by simpa [World.commit, World.sent] using h.pending

theorem Sound.rollback {w : World} (h : Sound w) (hsilent : ∀ s ∈ w.sinceCommit, s.ok = false) :
    Sound w.rollback where
  once := h.once
  settled := h.settled
  pending := by
    intro s hs hok
    rcases List.mem_append.mp hs with hin | hin
    · exact h.settled s hin hok
    · simp [hsilent s hin] at hok

theorem Sound.thins {w w' : World} (h : Sound w) (hs : w'.settled = w.settled)
    (hc : w'.sinceCommit = w.sinceCommit) (hd : w'.committed = w.committed)
    (ht : Thins w'.current.subscriptions w.current.subscriptions) : Sound w' where
  once := by simpa [PushedOnce, World.sent, hs, hc] using h.once
  settled := by simpa [hs, hd] using h.settled
  pending s hin hok := (h.pending s (by simpa [World.sent, hs, hc] using hin) hok).thins ht

theorem Sound.refreshEvent {w : World} (input : TickInput) (eventKey : String) (h : Sound w)
    (hraise : input.refresh eventKey = .raised → ∀ s ∈ w.sinceCommit, s.ok = false) :
    Sound (refreshEvent input eventKey w) := by
  rw [Push.refreshEvent]
  cases hr : input.refresh eventKey with
  | raised => exact h.rollback (hraise hr)
  | answered tbaMatches =>
      simp only [refreshMatchTimes]
      split
      · exact h
      · exact Sound.commit (h.thins rfl rfl rfl fun row hrow => ⟨row, hrow, rfl, rfl⟩)

/-! The loop over one subscription's alerts. -/

/-- While one subscription is worked on, its own marks are in the loop's copy. -/
structure LoopSound (id : Nat) (l : Loop) : Prop where
  once : PushedOnce l.world
  settled : ∀ s ∈ l.world.settled, s.ok → Marked l.world.committed.subscriptions s
  others : ∀ s ∈ l.world.sent, s.ok → s.subscription ≠ id →
    Marked l.world.current.subscriptions s
  own : ∀ s ∈ l.world.sent, s.ok → s.subscription = id →
    isNotified l.notified s.payload.tag = true
  unchanged : l.changed = false → Sound l.world

theorem loopSound_start {w : World} (h : Sound w) {sub : PushSubscription}
    (hsub : sub ∈ w.current.subscriptions) :
    LoopSound sub.id { world := w, notified := sub.notified } where
  once := h.once
  settled := h.settled
  others s hin hok _ := h.pending s hin hok
  own s hin hok hid := h.pending s hin hok sub hsub hid.symm
  unchanged _ := h

theorem LoopSound.alert {id : Nat} {l : Loop} (settings : Settings) (input : TickInput)
    (h : LoopSound id l) (payload : PushPayload) :
    LoopSound id (l.alert settings input id payload) := by
  rw [Loop.alert]
  split
  · exact h
  rename_i hnew
  obtain ⟨ok, hsince, hsettled, hcommitted, hthins⟩ :=
    sendWebPush_cases settings input id payload l.world
  set w' := sendWebPush settings input id payload l.world with hw'
  have hsent : w'.sent = l.world.sent ++ [⟨id, payload, ok⟩] := by
    simp [World.sent, hsince, hsettled]
  -- an accepted send of this key would be marked in the loop's copy
  have hfresh : (id, payload.tag) ∉ delivered l.world.sent := by
    intro hmem
    obtain ⟨s, hs, hpair⟩ := List.mem_map.mp hmem
    obtain ⟨hin, hok⟩ := List.mem_filter.mp hs
    obtain ⟨hid, htag⟩ := Prod.mk.inj hpair
    exact hnew (htag ▸ h.own s hin hok hid)
  refine ⟨?_, ?_, ?_, ?_, by simp⟩
  · change (delivered w'.sent).Nodup
    rw [hsent, delivered_append, List.nodup_append]
    refine ⟨h.once, ?_, ?_⟩
    · cases ok <;> simp [delivered]
    · intro a ha b hb hab
      subst hab
      cases ok with
      | false => simp [delivered] at hb
      | true =>
          have : a = (id, payload.tag) := by simpa [delivered] using hb
          exact hfresh (this ▸ ha)
  · simpa [hsettled, hcommitted] using h.settled
  · intro s hin hok hne
    simp only [hsent, List.mem_append, List.mem_singleton] at hin
    rcases hin with hin | rfl
    · exact (h.others s hin hok hne).thins hthins
    · exact absurd rfl hne
  · intro s hin hok hid
    simp only [hsent, List.mem_append, List.mem_singleton] at hin
    rcases hin with hin | rfl
    · simp [h.own s hin hok hid]
    · simp

theorem subscriptionAlerts_sound (settings : Settings) (input : TickInput) (eventKey : String)
    (ms : List Match) {w : World} (h : Sound w) {sub : PushSubscription}
    (hsub : sub ∈ w.current.subscriptions) :
    LoopSound sub.id (subscriptionAlerts settings input eventKey ms w sub) :=
  foldl_keeps (fun _ payload hl => hl.alert settings input payload) _ (loopSound_start h hsub)

theorem LoopSound.writeBack {id : Nat} {l : Loop} (h : LoopSound id l) (now : Int)
    (hshort : l.notified.length ≤ maxNotifiedKeys) :
    Sound (l.world.updateSubscription id fun row =>
      { row with notified := pruneNotified l.notified, updatedAt := now }) where
  once := h.once
  settled := h.settled
  pending := by
    intro s hin hok row hrow hid
    obtain ⟨row', hold, rfl⟩ := List.mem_map.mp hrow
    by_cases hrid : row'.id = id
    · simp only [hrid, if_true] at hid ⊢
      rw [pruneNotified_short hshort]
      exact h.own s hin hok hid.symm
    · simp only [hrid, if_false] at hid ⊢
      exact h.others s hin hok (fun he => hrid (hid.trans he)) row' hold hid

theorem alertSubscription_sound {settings : Settings} {input : TickInput} {eventKey : String}
    {ms : List Match} {w : World} {id : Nat} (h : Sound w)
    (hok : SubscriptionSafe settings input eventKey ms w id) :
    Sound (alertSubscription settings input eventKey ms w id) := by
  rw [alertSubscription]
  split
  · exact h
  · rename_i sub hfind
    have hid : sub.id = id := by simpa using List.find?_some hfind
    have hl := subscriptionAlerts_sound settings input eventKey ms h
      (List.mem_of_find?_eq_some hfind)
    simp only
    split
    · rename_i hchanged
      exact hid ▸ hl.writeBack input.now (hok sub hfind hchanged)
    · rename_i hchanged
      exact hl.unchanged (by simpa using hchanged)

theorem alertEvent_sound {settings : Settings} {input : TickInput} {w : World}
    {event : String × List Nat} (h : Sound w) (hok : EventSafe settings input w event) :
    Sound (alertEvent settings input w event) := by
  have hr := h.refreshEvent input event.1 hok.1
  simp only [alertEvent]
  split
  · exact hr
  · exact foldl_invariant (fun _ _ hw hs => alertSubscription_sound hw hs) hr hok.2

/-- Between ticks nothing is pending. -/
structure TickInvariant (w : World) : Prop where
  sound : Sound w
  atRest : w.sinceCommit = []

theorem tick_invariant {settings : Settings} {input : TickInput} {w : World}
    (h : TickInvariant w) (hok : TickSafe settings w input) :
    TickInvariant (runMatchAlertTick settings input w).1 := by
  have hpurged : Sound (purgedWorld settings input w) :=
    h.sound.thins rfl rfl rfl (thins_filter _ _)
  have hloop := foldl_invariant (fun _ _ hw hs => alertEvent_sound hw hs) hpurged hok
  exact ⟨hloop.commit, rfl⟩

/-- Over every run of ticks whose refreshes raise only when no accepted push is
waiting for a commit, and in which no map outgrows the bound of
`_prune_notified`, no subscription is successfully sent the same alert twice. -/
theorem alerts_pushed_once (settings : Settings) {w : World}
    (h : ReachableWhen (alertSystem settings) (TickSafe settings) w) : PushedOnce w := by
  have hinv : TickInvariant w := by
    refine h.invariant (P := TickInvariant) ?_ ?_
    · rintro s ⟨hcur, hsettled, hsince⟩
      refine ⟨⟨?_, ?_, ?_⟩, hsince⟩ <;> simp [PushedOnce, World.sent, hsettled, hsince, delivered]
    · intro s input t hs hok hstep
      obtain rfl : (runMatchAlertTick settings input s).1 = t := by
        simpa [alertSystem] using hstep
      exact tick_invariant hs hok
  exact hinv.sound.once

/-! Two events in one tick, one subscription each. -/

def exampleDb : Db where
  subscriptions := [{ id := 1, eventKey := some "2026txa", teamKeys := ["frc118"] },
    { id := 2, eventKey := some "2026txb", teamKeys := ["frc254"] }]
  events := ["2026txa", "2026txb"]
  matchRows := [{ matchKey := "2026txa_qm1", eventKey := "2026txa", time := some 1000 },
    { matchKey := "2026txb_qm1", eventKey := "2026txb", time := some 1100 }]
  matchTeams := [⟨"2026txa_qm1", "frc118", "red"⟩, ⟨"2026txb_qm1", "frc254", "blue"⟩]

def exampleWorld : World where
  committed := exampleDb
  current := exampleDb

/-- The later event's refresh raises; every push is accepted. -/
def outageTick (now : Int) : TickInput where
  now := now
  refresh key := if key = "2026txb" then .raised else .answered []
  answer _ := .delivered

/-- The earlier event's refresh raises, before anything was sent. -/
def earlyOutageTick (now : Int) : TickInput where
  now := now
  refresh key := if key = "2026txa" then .raised else .answered []
  answer _ := .delivered

theorem exampleWorld_start (settings : Settings) : (alertSystem settings).start exampleWorld :=
  ⟨rfl, rfl, rfl⟩

/-- The rollback of the second event forgets the first event's mark, and the next
tick pushes the same alert again. -/
theorem alerts_pushed_twice :
    ∃ w, Reachable (alertSystem {}) w ∧ ¬ PushedOnce w := by
  refine ⟨_, reachable_of_run [outageTick 700, outageTick 760]
    (exampleWorld_start {}) rfl, ?_⟩
  decide +kernel

theorem alerts_pushed_once_outage :
    PushedOnce (runMatchAlertTick {} (earlyOutageTick 760)
      (runMatchAlertTick {} (earlyOutageTick 700) exampleWorld).1).1 := by
  refine alerts_pushed_once {} (reachableWhen_of_run [earlyOutageTick 700,
    earlyOutageTick 760] (.start (exampleWorld_start {})) ?_ rfl)
  decide +kernel

end Frcmob.Push
