import Frcmob.Push.Subscriptions

/-!
However browsers subscribe and unsubscribe and senders answer, the subscriptions stay within
their bounds, and callers without a workspace cannot take the room that is kept for teams.
-/

namespace Frcmob.Subscriptions

open Transition

/-- What every stored subscription and every admitted request meets. -/
structure Usable (service : Service) (d : Draft) : Prop where
  endpoint : pushEndpointAllowed service d.endpoint = true
  keys : validSubscriptionKeys service.onCurve d.keys = true
  fewTeams : d.teamKeys.length ≤ maxTeamsPerSubscription
  teams : d.teamKeys.Nodup ∧ ∀ team ∈ d.teamKeys, isTeamKey service.isDecimal team = true
  lead : 1 ≤ d.prefs.matchLeadMinutes ∧ d.prefs.matchLeadMinutes ≤ 60
  member : d.prefs.shiftAlerts = true ∨ d.prefs.roomKey ≠ "" → d.prefs.memberKey.isSome = true

/-! ### A request that passes its checks -/

/-- After the items `before`, `cleaned` are team keys, each once. -/
structure Cleaned (service : Service) (before cleaned : List String) : Prop where
  few : cleaned.length ≤ before.length
  once : cleaned.Nodup
  teams : ∀ team ∈ cleaned, isTeamKey service.isDecimal team = true

theorem normalizeTeamKeys_cleaned (service : Service) (raw : List String) :
    Cleaned service (raw.take maxTeamsPerSubscription) (normalizeTeamKeys service raw) := by
  refine foldl_rounds
    ⟨Nat.le_refl 0, List.nodup_nil, fun _ h => absurd h List.not_mem_nil⟩ ?_
  rintro before item after cleaned - ⟨hfew, honce, hteams⟩
  dsimp only
  split
  next htoken =>
    simp only [Bool.and_eq_true, Bool.not_eq_true', List.contains_eq_mem,
      decide_eq_false_iff_not] at htoken
    refine ⟨by simpa using hfew, ?_, fun team hteam => ?_⟩
    · rw [← List.concat_eq_append, List.nodup_concat]
      exact ⟨htoken.2, honce⟩
    · rcases List.mem_append.mp hteam with hold | hnew
      · exact hteams team hold
      · exact List.mem_singleton.mp hnew ▸ htoken.1
  · exact ⟨hfew.trans (by simp), honce, hteams⟩

theorem bindShiftAlerts_ok {rooms : List ScoutingRoom} {actor : Option Actor} {prefs bound : Prefs}
    (h : bindShiftAlerts rooms actor prefs = .ok bound) :
    bound.matchLeadMinutes = prefs.matchLeadMinutes ∧
      (bound.shiftAlerts = true ∨ bound.roomKey ≠ "" → bound.memberKey.isSome = true) := by
  rw [bindShiftAlerts] at h
  split at h
  next hplain =>
    cases h
    simp only [Bool.and_eq_true, Bool.not_eq_true', decide_eq_true_eq] at hplain
    exact ⟨rfl, fun hbound => hbound.elim (by simp [hplain.1]) (absurd hplain.2)⟩
  · dsimp only at h
    split at h
    · split at h
      · cases h
        exact ⟨rfl, fun _ => rfl⟩
      · cases h
    · cases h

theorem check_usable {service : Service} {context : Context} {payload : PushSubscribeRequest}
    {draft : Draft} (h : payload.check service context = .ok draft) : Usable service draft := by
  rw [PushSubscribeRequest.check] at h
  dsimp only at h
  split at h
  · cases h
  next hendpoint =>
    split at h
    · cases h
    next hkeys =>
      split at h
      · cases h
      · split at h
        · cases h
        · obtain ⟨prefs, hprefs, rfl⟩ : ∃ prefs, bindShiftAlerts context.rooms context.actor
              (normalizePrefs service payload.prefs) = .ok prefs ∧ _ = draft := by
            cases hbind : bindShiftAlerts context.rooms context.actor
                (normalizePrefs service payload.prefs) with
            | error _ =>
                rw [hbind] at h
                cases h
            | ok prefs =>
                rw [hbind] at h
                exact ⟨prefs, rfl, Except.ok.inj h⟩
          obtain ⟨hlead, hmember⟩ := bindShiftAlerts_ok hprefs
          have hcleaned := normalizeTeamKeys_cleaned service payload.teamKeys
          refine ⟨by simpa using hendpoint, by simpa using hkeys,
            hcleaned.few.trans (List.length_take_le _ _), ⟨hcleaned.once, hcleaned.teams⟩, ?_,
            hmember⟩
          dsimp only
          rw [hlead, normalizePrefs]
          dsimp only
          omega

/-! ### The rows -/

/-- Of a row what the senders never change. -/
structure Held where
  draft : Draft
  id : Nat
  registeredBy : Option Nat

def PushSubscription.held (row : PushSubscription) : Held :=
  ⟨row.toDraft, row.id, row.registeredBy⟩

def heldRows (rows : List PushSubscription) : List Held :=
  rows.map (·.held)

def undoomed (p : Pending) (held : List Held) : List Held :=
  held.filter fun row => !p.doomed.contains row.id

/-- An admitted request has room, and an endpoint of its own. -/
structure Admitted (service : Service) (held : List Held) (p : Pending) : Prop where
  usable : Usable service p.draft
  fresh : p.target = none → ∀ row ∈ undoomed p held, row.draft.endpoint ≠ p.draft.endpoint
  room : p.target = none → (undoomed p held).length < cap service p.workspaceId

structure Bounded (service : Service) (held : List Held) (nextId : Nat) : Prop where
  ids : (held.map (·.id)).Nodup
  old : ∀ row ∈ held, row.id < nextId
  endpoints : (held.map (·.draft.endpoint)).Nodup
  usable : ∀ row ∈ held, Usable service row.draft
  total : held.length ≤ subscriptionCeiling service
  anonymous : held.countP (·.registeredBy = none) ≤ service.maxTotal.toNat

section Rows
variable {service : Service} {held held' : List Held} {nextId : Nat} {p : Pending}

theorem Bounded.sublist (h : Bounded service held nextId) (hsub : held'.Sublist held) :
    Bounded service held' nextId where
  ids := h.ids.sublist (hsub.map _)
  old row hrow := h.old row (hsub.subset hrow)
  endpoints := h.endpoints.sublist (hsub.map _)
  usable row hrow := h.usable row (hsub.subset hrow)
  total := hsub.length_le.trans h.total
  anonymous := hsub.countP_le.trans h.anonymous

theorem Admitted.sublist (h : Admitted service held p) (hsub : held'.Sublist held) :
    Admitted service held' p where
  usable := h.usable
  fresh ht row hrow := h.fresh ht row ((hsub.filter _).subset hrow)
  room ht := (hsub.filter _).length_le.trans_lt (h.room ht)

theorem cap_le (service : Service) (workspaceId : Option Nat) :
    cap service workspaceId ≤ subscriptionCeiling service := by
  rw [cap, subscriptionCeiling]
  split
  · exact le_rfl
  · omega

/-- The new row takes room that was there for the caller it is for. -/
theorem Bounded.concat (h : Bounded service held nextId) (row : Held)
    (husable : Usable service row.draft) (hid : row.id = nextId)
    (hfresh : ∀ other ∈ held, other.draft.endpoint ≠ row.draft.endpoint)
    (hroom : held.length < cap service row.registeredBy) :
    Bounded service (held ++ [row]) (nextId + 1) := by
  have hmem : ∀ {other}, other ∈ held ++ [row] → other ∈ held ∨ other = row := fun hother =>
    (List.mem_append.mp hother).imp_right List.mem_singleton.mp
  refine ⟨?_, fun other hother => ?_, ?_, fun other hother => ?_, ?_, ?_⟩
  · rw [List.map_append, List.map_singleton, ← List.concat_eq_append, List.nodup_concat]
    refine ⟨fun hin => ?_, h.ids⟩
    obtain ⟨other, hother, heq⟩ := List.mem_map.mp hin
    have hlt := h.old other hother
    omega
  · rcases hmem hother with hold | rfl
    · exact (h.old other hold).trans (Nat.lt_succ_self _)
    · exact hid.trans_lt (Nat.lt_succ_self _)
  · rw [List.map_append, List.map_singleton, ← List.concat_eq_append, List.nodup_concat]
    refine ⟨fun hin => ?_, h.endpoints⟩
    obtain ⟨other, hother, heq⟩ := List.mem_map.mp hin
    exact hfresh other hother heq
  · rcases hmem hother with hold | rfl
    · exact h.usable other hold
    · exact husable
  · rw [List.length_append, List.length_singleton]
    exact Nat.succ_le_of_lt (hroom.trans_le (cap_le _ _))
  · rw [List.countP_append, List.countP_singleton]
    by_cases hnone : row.registeredBy = none
    · rw [hnone] at hroom
      have hcount := List.countP_le_length (p := fun row : Held => decide (row.registeredBy = none))
        (l := held)
      simp only [hnone, decide_true, if_true]
      rw [cap, if_neg (by simp)] at hroom
      omega
    · simpa [hnone] using h.anonymous

/-- What is asked of the row anew; its endpoint is its own. -/
def Held.ask (id : Nat) (d : Draft) (row : Held) : Held :=
  if row.id = id then { row with draft := { d with endpoint := row.draft.endpoint } } else row

theorem Held.ask_same (id : Nat) (d : Draft) (row : Held) : (row.ask id d).id = row.id ∧
    (row.ask id d).draft.endpoint = row.draft.endpoint ∧
    (row.ask id d).registeredBy = row.registeredBy := by
  rw [Held.ask]
  split
  · exact ⟨rfl, rfl, rfl⟩
  · exact ⟨rfl, rfl, rfl⟩

theorem Bounded.ask (h : Bounded service held nextId) (id : Nat) {d : Draft}
    (hd : Usable service d) : Bounded service (held.map (·.ask id d)) nextId := by
  refine ⟨?_, fun row hrow => ?_, ?_, fun row hrow => ?_, ?_, ?_⟩
  · have hids : (held.map (·.ask id d)).map (·.id) = held.map (·.id) := by
      rw [List.map_map]
      exact List.map_congr_left fun row _ => (Held.ask_same id d row).1
    rw [hids]
    exact h.ids
  · obtain ⟨old, hold, rfl⟩ := List.mem_map.mp hrow
    exact (Held.ask_same id d old).1.trans_lt (h.old old hold)
  · have hendpoints : (held.map (·.ask id d)).map (·.draft.endpoint) =
        held.map (·.draft.endpoint) := by
      rw [List.map_map]
      exact List.map_congr_left fun row _ => (Held.ask_same id d row).2.1
    rw [hendpoints]
    exact h.endpoints
  · obtain ⟨old, hold, rfl⟩ := List.mem_map.mp hrow
    have hold' := h.usable old hold
    rw [Held.ask]
    split
    · exact { hd with endpoint := hold'.endpoint }
    · exact hold'
  · exact (List.length_map _).trans_le h.total
  · rw [List.countP_map, List.countP_congr fun row _ => by
      rw [Function.comp_apply, (Held.ask_same id d row).2.2]]
    exact h.anonymous

theorem heldRows_filter (rows : List PushSubscription) (keep : PushSubscription → Bool) :
    (heldRows (rows.filter keep)).Sublist (heldRows rows) :=
  List.filter_sublist.map _

theorem heldRows_ask (rows : List PushSubscription) (id : Nat) (d : Draft) (now : Int) :
    heldRows (updateRow rows id fun row =>
      { row with
        keys := d.keys, eventKey := d.eventKey, teamKeys := d.teamKeys, prefs := d.prefs,
        enabled := true, failureCount := 0, updatedAt := now }) =
      (heldRows rows).map (·.ask id d) := by
  rw [heldRows, updateRow, heldRows, List.map_map, List.map_map]
  refine List.map_congr_left fun row _ => ?_
  simp only [Function.comp_apply, Held.ask, PushSubscription.held]
  split
  · rfl
  · rfl

theorem heldRows_updateRow (rows : List PushSubscription) (id : Nat)
    (f : PushSubscription → PushSubscription) (hf : ∀ row, (f row).held = row.held) :
    heldRows (updateRow rows id f) = heldRows rows := by
  rw [heldRows, updateRow, List.map_map]
  refine List.map_congr_left fun row _ => ?_
  simp only [Function.comp_apply]
  split
  · exact hf row
  · rfl

end Rows

/-! ### The state -/

structure Inv (service : Service) (s : State) : Prop where
  bounded : Bounded service (heldRows s.rows) s.nextId
  admitted : ∀ p, s.pending = some p → Admitted service (heldRows s.rows) p

section State
variable {service : Service} {s s' : State}

/-- Rows that go, or whose delivery alone is told, leave what is bounded as it is. -/
theorem Inv.sublist (h : Inv service s) {rows : List PushSubscription}
    (hsub : (heldRows rows).Sublist (heldRows s.rows)) : Inv service { s with rows := rows } :=
  ⟨h.bounded.sublist hsub, fun p hp => (h.admitted p hp).sublist hsub⟩

theorem Inv.told (h : Inv service s) (id : Nat) {f : PushSubscription → PushSubscription}
    (hf : ∀ row, (f row).held = row.held) :
    Inv service { s with rows := updateRow s.rows id f } :=
  h.sublist ((heldRows_updateRow s.rows id f hf).symm ▸ List.Sublist.refl _)

theorem Inv.release (h : Inv service s) : Inv service { s with pending := none } :=
  ⟨h.bounded, fun _ hp => by cases hp⟩

/-- An admission counts, and touches no row. -/
theorem admit_rows (service : Service) (s : State) (kept : List PushSubscription)
    (workspaceId : Option Nat) (redis : RedisAnswer) : (s.admitNewSubscription service kept workspaceId redis).2.rows = s.rows ∧
      (s.admitNewSubscription service kept workspaceId redis).2.pending = s.pending ∧
      (s.admitNewSubscription service kept workspaceId redis).2.nextId = s.nextId ∧
      (s.admitNewSubscription service kept workspaceId redis).2.now = s.now := by
  unfold State.admitNewSubscription
  dsimp only
  split
  · exact ⟨rfl, rfl, rfl, rfl⟩
  · cases redis with
    | answers => dsimp only; split <;> exact ⟨rfl, rfl, rfl, rfl⟩
    | lost | absent =>
        dsimp only
        split
        · exact ⟨rfl, rfl, rfl, rfl⟩
        · split <;> exact ⟨rfl, rfl, rfl, rfl⟩

theorem admit_room (service : Service) (s : State) (kept : List PushSubscription)
    (workspaceId : Option Nat) (redis : RedisAnswer)
    (h : (s.admitNewSubscription service kept workspaceId redis).1 = none) :
    kept.length < cap service workspaceId := by
  by_contra hfull
  unfold State.admitNewSubscription at h
  dsimp only at h
  rw [if_pos (Nat.le_of_not_lt hfull)] at h
  cases h

theorem undoomed_sublist (service : Service) (p : Pending) (rows : List PushSubscription) (now : Int)
    (hdoomed : p.doomed = (rows.filter fun row => row.updatedAt < cutoff service now).map (·.id)) :
    (undoomed p (heldRows rows)).Sublist
      (heldRows (rows.filter fun row => cutoff service now ≤ row.updatedAt)) := by
  rw [undoomed, heldRows, List.filter_map]
  refine List.Sublist.map _ ?_
  have himp : ∀ row ∈ rows, ((fun row : Held => !p.doomed.contains row.id) ∘
      PushSubscription.held) row = true → decide (cutoff service now ≤ row.updatedAt) = true := by
    intro row hrow hkept
    by_contra hstale
    have hin : row.id ∈ p.doomed := by
      rw [hdoomed]
      refine List.mem_map_of_mem (List.mem_filter.mpr ⟨hrow, ?_⟩)
      simpa using hstale
    simp [PushSubscription.held, hin] at hkept
  have hboth : rows.filter ((fun row : Held => !p.doomed.contains row.id) ∘
      PushSubscription.held) = (rows.filter fun row => cutoff service now ≤ row.updatedAt).filter
        ((fun row : Held => !p.doomed.contains row.id) ∘ PushSubscription.held) := by
    rw [List.filter_filter]
    refine List.filter_congr fun row hrow => ?_
    have hrow' := himp row hrow
    cases hkept : ((fun row : Held => !p.doomed.contains row.id) ∘ PushSubscription.held) row with
    | false => rfl
    | true => simpa [hkept] using hrow' hkept
  rw [hboth]
  exact List.filter_sublist

theorem Inv.subscribe (h : Inv service s) (hfree : s.pending = none)
    (payload : PushSubscribeRequest) (context : Context) (redis : RedisAnswer) :
    Inv service (s.subscribe service payload context redis).2 := by
  rw [State.subscribe]
  split
  · exact h
  next draft hdraft =>
    dsimp only
    split
    next row _ =>
      refine ⟨h.bounded, fun p hp => ?_⟩
      obtain rfl := Option.some_inj.mp hp
      have hold : some row.id ≠ none := Option.some_ne_none _
      exact ⟨check_usable hdraft, fun ht => absurd ht hold, fun ht => absurd ht hold⟩
    next hnone =>
      have hrows := admit_rows service s (s.rows.filter fun row => cutoff service s.now ≤ row.updatedAt)
        (context.actor.map (·.workspaceId)) redis
      have hroom := admit_room service s
        (s.rows.filter fun row => cutoff service s.now ≤ row.updatedAt)
        (context.actor.map (·.workspaceId)) redis
      generalize s.admitNewSubscription service _ _ redis = answer at hrows hroom
      obtain ⟨refusal, admitted⟩ := answer
      obtain ⟨hrows, hpending, hnext, -⟩ := hrows
      dsimp only at hrows hpending hnext hroom ⊢
      split
      · exact ⟨by rw [hrows, hnext]; exact h.bounded, fun p hp => by
          rw [hpending, hfree] at hp
          cases hp⟩
      next hadmitted =>
        rw [Option.not_isSome_iff_eq_none] at hadmitted
        refine ⟨by rw [hrows, hnext]; exact h.bounded, fun p hp => ?_⟩
        obtain rfl := Option.some_inj.mp hp
        have hsub := undoomed_sublist service
          ⟨_, none, draft, context.actor.map (·.workspaceId)⟩ s.rows s.now rfl
        refine ⟨check_usable hdraft, fun _ row hrow => ?_, fun _ => ?_⟩
        · rw [hrows] at hrow
          obtain ⟨other, hother, rfl⟩ := List.mem_map.mp (hsub.subset hrow)
          have hne : other.endpoint ≠ draft.endpoint := by
            simpa using List.find?_eq_none.mp hnone other hother
          exact hne
        · rw [hrows]
          refine hsub.length_le.trans_lt ?_
          rw [heldRows, List.length_map]
          exact hroom hadmitted

theorem Inv.commit (h : Inv service s) {p : Pending} (hp : s.pending = some p) :
    Inv service (s.commit p) := by
  have hadmitted := h.admitted p hp
  have hkept : heldRows (s.rows.filter fun row => !p.doomed.contains row.id) =
      undoomed p (heldRows s.rows) := by
    rw [undoomed, heldRows, heldRows, List.filter_map]
    rfl
  have hbounded := h.bounded.sublist (List.filter_sublist (p := fun row : Held =>
    !p.doomed.contains row.id))
  rw [State.commit]
  cases htarget : p.target with
  | some id =>
      dsimp only
      split
      · refine ⟨?_, fun _ hp => by cases hp⟩
        rw [heldRows_ask, hkept]
        exact hbounded.ask id hadmitted.usable
      · exact h.release
  | none =>
      refine ⟨?_, fun _ hp => by cases hp⟩
      have hnew := hbounded.concat ⟨p.draft, s.nextId, p.workspaceId⟩ hadmitted.usable
        rfl (hadmitted.fresh htarget) (hadmitted.room htarget)
      rw [heldRows, List.map_append, ← heldRows, hkept]
      exact hnew

theorem Inv.sendWebPush (h : Inv service s) (loaded : PushSubscription) (outcome : SendOutcome) :
    Inv service (s.sendWebPush service loaded outcome) := by
  have hdelete : Inv service (s.delete loaded.id) := h.sublist (heldRows_filter _ _)
  unfold State.sendWebPush
  split
  · exact h
  · split
    · exact hdelete
    · split
      · exact hdelete
      · cases outcome with
        | delivered =>
            dsimp only
            split
            · exact h
            · exact h.told _ fun _ => rfl
        | gone => exact hdelete
        | refused => exact h.told _ fun _ => rfl
        | crashed => exact h

theorem Inv.step (h : Inv service s) {a : Action} (hstep : step service s a = some s') :
    Inv service s' := by
  cases a with
  | clock seconds =>
      cases hstep
      exact ⟨h.bounded, h.admitted⟩
  | subscribe payload context redis =>
      simp only [Subscriptions.step, Option.ite_none_left_eq_some, Option.some_inj] at hstep
      obtain ⟨hfree, rfl⟩ := hstep
      exact h.subscribe (by simpa using hfree) payload context redis
  | commit =>
      obtain ⟨p, hp, rfl⟩ := Option.map_eq_some_iff.mp hstep
      exact h.commit hp
  | abort =>
      simp only [Subscriptions.step, Option.ite_none_right_eq_some, Option.some_inj] at hstep
      obtain ⟨-, rfl⟩ := hstep
      exact h.release
  | unsubscribe endpoint =>
      cases hstep
      exact h.sublist (heldRows_filter _ _)
  | purge =>
      cases hstep
      exact h.sublist (heldRows_filter _ _)
  | send loaded outcome =>
      cases hstep
      exact h.sendWebPush loaded outcome

theorem inv_of_reachable (h : Reachable (system service) s) : Inv service s := by
  refine ReachableWhen.invariant (fun s hs => ?_) (fun s a s' hs _ hstep => hs.step hstep) h
  obtain ⟨now, rfl⟩ := hs
  refine ⟨⟨List.nodup_nil, ?_, List.nodup_nil, ?_, Nat.zero_le _, Nat.zero_le _⟩, ?_⟩
  · exact fun _ hrow => absurd hrow List.not_mem_nil
  · exact fun _ hrow => absurd hrow List.not_mem_nil
  · intro _ hp
    cases hp

/-! ### The budgets of an hour -/

def windowEnds (key : BudgetKey) : Int :=
  (key.2 + 1) * 3600

structure Budgeted (service : Service) (s : State) : Prop where
  kept : Window.Kept windowEnds (limit service) s.granted s.budget
  drawn : Window.Drawn s.draws s.budget

theorem now_lt_windowEnds (now : Int) (workspaceId : Option Nat) :
    now < windowEnds (budgetKey workspaceId now) := by
  rw [windowEnds, budgetKey]
  dsimp only
  omega

/-- The counter outlasts the hour that it is for. -/
theorem kept_consume {granted : BudgetKey → Nat} (workspaceId : Option Nat)
    (h : Window.Kept windowEnds (limit service) granted
      (Window.incr s.budget s.now (budgetKey workspaceId s.now))) :
    Window.Kept windowEnds (limit service) granted
      (s.consume (budgetKey workspaceId s.now)).budget := by
  rw [State.consume]
  dsimp only
  split
  · refine h.expire ?_
    rw [windowEnds, budgetKey]
    dsimp only
    omega
  · exact h

theorem drawn_consume (h : Window.Drawn s.draws s.budget) (key : BudgetKey) :
    Window.Drawn (s.consume key).draws (s.consume key).budget := by
  have hincr := h.incr s.now key
  rw [State.consume]
  dsimp only
  split
  · exact hincr.expire _ _
  · exact hincr

theorem Budgeted.consume (h : Budgeted service s) (workspaceId : Option Nat) :
    Budgeted service (s.consume (budgetKey workspaceId s.now)) :=
  ⟨kept_consume workspaceId (h.kept.incr (now_lt_windowEnds _ _)), drawn_consume h.drawn _⟩

theorem Budgeted.grant (h : Budgeted service s) (workspaceId : Option Nat)
    (hlimit : Window.count s.budget s.now (budgetKey workspaceId s.now) <
      limit service (budgetKey workspaceId s.now)) :
    Budgeted service ((s.consume (budgetKey workspaceId s.now)).grant
      (budgetKey workspaceId s.now)) :=
  ⟨kept_consume workspaceId (h.kept.grant (now_lt_windowEnds _ _) hlimit),
    drawn_consume h.drawn _⟩

theorem Budgeted.admit (hproduction : service.productionLike = true) (h : Budgeted service s)
    (kept : List PushSubscription) (workspaceId : Option Nat) (redis : RedisAnswer) :
    Budgeted service (s.admitNewSubscription service kept workspaceId redis).2 := by
  unfold State.admitNewSubscription
  dsimp only
  split
  · exact h
  · cases redis with
    | answers =>
        dsimp only
        split
        · exact h.consume workspaceId
        next hcount => exact h.grant workspaceId (Nat.lt_of_succ_le (Nat.le_of_not_lt hcount))
    | lost =>
        dsimp only
        exact h.consume workspaceId
    | absent =>
        dsimp only
        exact h

theorem Budgeted.congr (h : Budgeted service s) (hbudget : s'.budget = s.budget)
    (hgranted : s'.granted = s.granted) (hdraws : s'.draws = s.draws) : Budgeted service s' := by
  refine ⟨?_, ?_⟩
  · rw [hbudget, hgranted]
    exact h.kept
  · rw [hbudget, hdraws]
    exact h.drawn

theorem Budgeted.step (hproduction : service.productionLike = true) (h : Budgeted service s)
    {a : Action} (hstep : step service s a = some s') : Budgeted service s' := by
  cases a with
  | clock _ | unsubscribe _ | purge =>
      cases hstep
      exact h.congr rfl rfl rfl
  | subscribe payload context redis =>
      simp only [Subscriptions.step, Option.ite_none_left_eq_some, Option.some_inj] at hstep
      obtain ⟨-, rfl⟩ := hstep
      rw [State.subscribe]
      split
      · exact h
      · dsimp only
        split
        · exact h.congr rfl rfl rfl
        · have hadmit := h.admit hproduction
            (s.rows.filter fun row => cutoff service s.now ≤ row.updatedAt)
            (context.actor.map (·.workspaceId)) redis
          generalize s.admitNewSubscription service _ _ redis = answer at hadmit
          obtain ⟨refusal, admitted⟩ := answer
          dsimp only at hadmit ⊢
          split
          · exact hadmit
          · exact hadmit.congr rfl rfl rfl
  | commit =>
      obtain ⟨p, -, rfl⟩ := Option.map_eq_some_iff.mp hstep
      rw [State.commit]
      cases p.target with
      | none => exact h.congr rfl rfl rfl
      | some id =>
          dsimp only
          split
          · exact h.congr rfl rfl rfl
          · exact h.congr rfl rfl rfl
  | abort =>
      simp only [Subscriptions.step, Option.ite_none_right_eq_some, Option.some_inj] at hstep
      obtain ⟨-, rfl⟩ := hstep
      exact h.congr rfl rfl rfl
  | send loaded outcome =>
      cases hstep
      unfold State.sendWebPush
      split
      · exact h
      · split
        · exact h.congr rfl rfl rfl
        · split
          · exact h.congr rfl rfl rfl
          · cases outcome with
            | delivered =>
                dsimp only
                split
                · exact h
                · exact h.congr rfl rfl rfl
            | gone | refused => exact h.congr rfl rfl rfl
            | crashed => exact h

theorem budgeted_of_reachable (hproduction : service.productionLike = true)
    (h : Reachable (system service) s) : Budgeted service s := by
  refine ReachableWhen.invariant (fun s hs => ?_)
    (fun s a s' hs _ hstep => hs.step hproduction hstep) h
  obtain ⟨now, rfl⟩ := hs
  exact ⟨.initial, fun _ _ hc => by cases hc⟩

/-! ### What holds in every run -/

theorem rows_bounded (h : Reachable (system service) s) :
    s.rows.length ≤ subscriptionCeiling service ∧
      s.rows.countP (·.registeredBy = none) ≤ service.maxTotal.toNat := by
  have hinv := (inv_of_reachable h).bounded
  have hanonymous := hinv.anonymous
  rw [heldRows, List.countP_map] at hanonymous
  exact ⟨by simpa [heldRows] using hinv.total, hanonymous⟩

/-- In production, whatever browsers, senders and Redis do: there are no more subscriptions than
the ceiling, and of callers without a workspace no more than half of it; each has an endpoint and
an id of its own, an endpoint of a push service, usable keys, and, where it is for shift alerts, a
member; and in no hour are more new ones admitted for a workspace, or for callers without one,
than the hour's budget. -/
theorem subscriptions_bounded (hproduction : service.productionLike = true)
    (h : Reachable (system service) s) :
    s.rows.length ≤ subscriptionCeiling service ∧
      s.rows.countP (·.registeredBy = none) ≤ service.maxTotal.toNat ∧
      (s.rows.map (·.id)).Nodup ∧ (s.rows.map (·.endpoint)).Nodup ∧
      (∀ row ∈ s.rows, Usable service row.toDraft) ∧
      ∀ key, s.granted key ≤ limit service key := by
  have hinv := (inv_of_reachable h).bounded
  refine ⟨(rows_bounded h).1, (rows_bounded h).2, ?_, ?_, ?_,
    (budgeted_of_reachable hproduction h).kept.bounded⟩
  · have hids := hinv.ids
    rwa [heldRows, List.map_map] at hids
  · have hendpoints := hinv.endpoints
    rwa [heldRows, List.map_map] at hendpoints
  · exact fun row hrow => hinv.usable row.held (List.mem_map_of_mem hrow)

theorem not_doomed (h : Inv service s) {row : PushSubscription} (hrow : row ∈ s.rows)
    (hfresh : cutoff service s.now ≤ row.updatedAt) :
    row.id ∉ (s.rows.filter fun row => row.updatedAt < cutoff service s.now).map (·.id) := by
  intro hin
  obtain ⟨other, hother, hid⟩ := List.mem_map.mp hin
  obtain ⟨hmem, hstale⟩ := List.mem_filter.mp hother
  have hids := h.bounded.ids
  rw [heldRows, List.map_map] at hids
  obtain rfl : other = row := List.inj_on_of_nodup_map hids hmem hrow hid
  exact absurd (of_decide_eq_true hstale) (not_lt.mpr hfresh)

theorem commit_new {p : Pending} (htarget : p.target = none) :
    ∃ row ∈ (s.commit p).rows, row.endpoint = p.draft.endpoint ∧ row.keys = p.draft.keys ∧
      row.enabled = true := by
  rw [State.commit, htarget]
  exact ⟨_, List.mem_append_right _ (List.mem_singleton_self _), rfl, rfl, rfl⟩

theorem commit_changed {p : Pending} {row : PushSubscription} (hrow : row ∈ s.rows)
    (htarget : p.target = some row.id) (hkept : row.id ∉ p.doomed) :
    ∃ row' ∈ (s.commit p).rows, row'.endpoint = row.endpoint ∧ row'.keys = p.draft.keys ∧
      row'.enabled = true := by
  have hmem : row ∈ s.rows.filter fun row => !p.doomed.contains row.id :=
    List.mem_filter.mpr ⟨hrow, by simpa using hkept⟩
  have hany : (s.rows.filter fun row => !p.doomed.contains row.id).any (·.id = row.id) = true :=
    List.any_eq_true.mpr ⟨row, hmem, by simp⟩
  rw [State.commit, htarget]
  dsimp only
  rw [if_pos hany]
  refine ⟨_, List.mem_map_of_mem hmem, ?_⟩
  rw [if_pos rfl]
  exact ⟨rfl, rfl, rfl⟩

/-- A team has room as long as the rows of teams leave it. -/
theorem admit_member (hproduction : service.productionLike = true)
    (h : Reachable (system service) s) {kept : List PushSubscription} (hkept : kept.Sublist s.rows)
    {workspaceId : Nat} (hroom : s.rows.countP (·.registeredBy ≠ none) < service.maxTotal.toNat)
    (hdraws : s.draws (budgetKey (some workspaceId) s.now) < workspaceRegistrationsPerHour) :
    (s.admitNewSubscription service kept (some workspaceId) .answers).1 = none := by
  have hcount := (budgeted_of_reachable hproduction h).drawn.count_le s.now
    (budgetKey (some workspaceId) s.now)
  have hanonymous := (rows_bounded h).2
  have htotal := List.length_eq_countP_add_countP (fun row : PushSubscription =>
    decide (row.registeredBy = none)) (l := s.rows)
  have hmembers : s.rows.countP (fun row => !decide (row.registeredBy = none)) =
      s.rows.countP (·.registeredBy ≠ none) := List.countP_congr fun row _ => by simp
  have hlength := hkept.length_le
  have hfree : ¬ cap service (some workspaceId) ≤ kept.length := by
    rw [cap, if_pos (Option.isSome_some), subscriptionCeiling]
    simp only [decide_not, decide_eq_true_eq] at *
    omega
  unfold State.admitNewSubscription
  dsimp only
  rw [if_neg hfree]
  have hlimit : limit service (budgetKey (some workspaceId) s.now) =
      workspaceRegistrationsPerHour := rfl
  rw [hlimit, if_neg (by omega)]

/-- In production, while Redis answers: a member's valid request is admitted, and stored once it
is committed, as long as the teams' own subscriptions leave half of the ceiling and the members
of its workspace have not drawn the hour's budget, whatever callers without a workspace did. -/
theorem members_admitted (hproduction : service.productionLike = true)
    (h : Reachable (system service) s) {payload : PushSubscribeRequest} {context : Context}
    {actor : Actor} {draft : Draft} (hactor : context.actor = some actor)
    (hcheck : payload.check service context = .ok draft)
    (hroom : s.rows.countP (·.registeredBy ≠ none) < service.maxTotal.toNat)
    (hdraws : s.draws (budgetKey (some actor.workspaceId) s.now) <
      workspaceRegistrationsPerHour) :
    ∃ p, (s.subscribe service payload context .answers).1 = none ∧
      (s.subscribe service payload context .answers).2.pending = some p ∧
      ∃ row ∈ ((s.subscribe service payload context .answers).2.commit p).rows,
        row.endpoint = draft.endpoint ∧ row.keys = draft.keys ∧ row.enabled = true := by
  have hinv := inv_of_reachable h
  rw [State.subscribe, hcheck, hactor, Option.map_some]
  dsimp only
  cases hfind : (s.rows.filter fun row => cutoff service s.now ≤ row.updatedAt).find?
      fun row => row.endpoint = draft.endpoint with
  | some row =>
      obtain ⟨hmem, hfresh⟩ := List.mem_filter.mp (List.mem_of_find?_eq_some hfind)
      have hendpoint : row.endpoint = draft.endpoint := by
        simpa using List.find?_some hfind
      refine ⟨_, rfl, rfl, ?_⟩
      rw [← hendpoint]
      exact commit_changed hmem rfl (not_doomed hinv hmem (of_decide_eq_true hfresh))
  | none =>
      have hadmit := admit_member hproduction h (List.filter_sublist
        (p := fun row => decide (cutoff service s.now ≤ row.updatedAt))) hroom hdraws
      generalize s.admitNewSubscription service _ _ .answers = answer at hadmit
      obtain ⟨refusal, admitted⟩ := answer
      obtain rfl : refusal = none := hadmit
      exact ⟨_, rfl, rfl, commit_new rfl⟩

end State

theorem run_subscribed {service : Service} {s : State} {payload : PushSubscribeRequest}
    {context : Context} {p : Pending} (hfree : s.pending = none)
    (hp : (s.subscribe service payload context .answers).2.pending = some p) :
    ((system service).run s
      [.subscribe payload context .answers, .clock 1, .commit]).isSome = true := by
  simp [System.run, system, step, hfree, hp]

/-! ### A phone -/

def ofBytes (bytes : List UInt8) : Nat :=
  bytes.foldl (fun n byte => n * 256 + byte.toNat) 0

/-- `y² = x³ - 3x + b` in the field of P-256. -/
def onP256 (point : List UInt8) : Bool :=
  let q := 2 ^ 256 - 2 ^ 224 + 2 ^ 192 + 2 ^ 96 - 1
  let b := 0x5ac635d8aa3a93e7b3ebbd55769886bc651d06b0cc53b0f63bce3c3e27d2604b
  let x := ofBytes ((point.drop 1).take 32)
  let y := ofBytes (point.drop 33)
  point.head? = some 4 && x < q && y < q && y * y % q = (x * x * x + (q - 3) * x + b) % q

def fcmService : Service where
  productionLike := true
  maxTotal := 10000
  maxNewPerHour := 300
  retentionDays := 180
  maxFailures := 8
  leadMinutesDefault := 15
  pushConfigured := true
  isDecimal := Char.isDigit
  onCurve := onP256
  urlsplit url :=
    if url = "https://fcm.googleapis.com/fcm/send/c1" then
      some { scheme := "https", hostname := some "fcm.googleapis.com" }
    else none

def phone : PushSubscribeRequest where
  endpoint := "https://fcm.googleapis.com/fcm/send/c1"
  keys := ⟨some
    "BGsX0fLhLEJH-Lzm5WOkQPJ3A32BLeszoPShOUXYmMKWT-NC4v4af5uO5-tKfA-eFivOM1drMV7Oy7ZAaDe_UfU",
    some "AAECAwQFBgcICQoLDA0ODw=="⟩
  teamKeys := ["frc254", " FRC254 ", "x"]

/-- The point that the letters of the phone's key stand for. -/
def phonePoint : List UInt8 :=
  [4, 107, 23, 209, 242, 225, 44, 66, 71, 248, 188, 230, 229, 99, 164, 64, 242, 119, 3, 125, 129,
    45, 235, 51, 160, 244, 161, 57, 69, 216, 152, 194, 150, 79, 227, 66, 226, 254, 26, 127, 155,
    142, 231, 235, 74, 124, 15, 158, 22, 43, 206, 51, 87, 107, 49, 94, 206, 203, 182, 64, 104, 55,
    191, 81, 245]

theorem phone_keys : validSubscriptionKeys onP256 phone.keys = true := by
  have hpoint : decodeKey 65 phone.keys.p256dh = some phonePoint :=
    (decodeKey_eq_some (by decide)).mpr ⟨rfl, 0, by decide, by decide +kernel⟩
  have hsecret : decodeKey 16 phone.keys.auth = some ((List.range 16).map UInt8.ofNat) :=
    (decodeKey_eq_some (by decide)).mpr ⟨rfl, 2, by decide, by decide +kernel⟩
  have hcurve : onP256 phonePoint = true := by decide +kernel
  rw [validSubscriptionKeys, hpoint, hsecret]
  dsimp only
  rw [hcurve]
  rfl

def phoneDraft : Draft where
  endpoint := phone.endpoint
  keys := phone.keys
  eventKey := none
  teamKeys := ["frc254"]
  prefs := { matchLeadMinutes := 15, shiftAlerts := false, scoutProfile := "", roomKey := "" }

/-- The phone asks for no shift alerts, so its request passes whoever sends it. -/
theorem phone_check (context : Context) : phone.check fcmService context = .ok phoneDraft := by
  have hstrip : strip phone.endpoint = phone.endpoint := by decide +kernel
  have hallowed : pushEndpointAllowed fcmService phone.endpoint = true := by decide +kernel
  have hkeys : validSubscriptionKeys fcmService.onCurve phone.keys = true := phone_keys
  have hprefs : normalizePrefs fcmService phone.prefs = phoneDraft.prefs := by decide +kernel
  have hevent : normalizeKey (phone.eventKey.getD "") = "" := by decide +kernel
  have hteams : normalizeTeamKeys fcmService phone.teamKeys = ["frc254"] := by decide +kernel
  rw [PushSubscribeRequest.check, hstrip, hallowed, hkeys, hprefs, hevent, hteams]
  rfl

theorem subscriptions_bounded_phone : ∃ s, (system fcmService).run { now := 1790000000 }
      [.subscribe phone {} .answers, .clock 1, .commit] = some s ∧
    s.rows.length ≤ subscriptionCeiling fcmService ∧
      s.rows.countP (·.registeredBy = none) ≤ fcmService.maxTotal.toNat ∧
      (s.rows.map (·.id)).Nodup ∧ (s.rows.map (·.endpoint)).Nodup ∧
      (∀ row ∈ s.rows, Usable fcmService row.toDraft) ∧
      ∀ key, s.granted key ≤ limit fcmService key := by
  have hpending : ((State.subscribe fcmService { now := 1790000000 } phone {}
      .answers).2.pending).isSome = true := by
    rw [State.subscribe, phone_check]
    rfl
  obtain ⟨p, hp⟩ := Option.isSome_iff_exists.mp hpending
  have hruns := run_subscribed rfl hp
  obtain ⟨s, hrun⟩ := Option.isSome_iff_exists.mp hruns
  exact ⟨s, hrun, subscriptions_bounded rfl (reachable_of_run _ ⟨_, rfl⟩ hrun)⟩

def scout : Context where
  rooms := [⟨"quals-r7", 7⟩]
  actor := some ⟨7, "Ada", "m-ada"⟩

theorem members_admitted_phone : ∃ draft p,
    phone.check fcmService scout = .ok draft ∧
      (State.subscribe fcmService { now := 1790000000 } phone scout .answers).1 = none ∧
      (State.subscribe fcmService { now := 1790000000 } phone scout .answers).2.pending =
        some p ∧
      ∃ row ∈ ((State.subscribe fcmService { now := 1790000000 } phone scout .answers).2.commit
          p).rows,
        row.endpoint = draft.endpoint ∧ row.keys = draft.keys ∧ row.enabled = true := by
  obtain ⟨p, hp⟩ := members_admitted rfl (.start ⟨1790000000, rfl⟩) rfl (phone_check scout)
    (by decide) (by decide)
  exact ⟨phoneDraft, p, phone_check scout, hp⟩

end Frcmob.Subscriptions
