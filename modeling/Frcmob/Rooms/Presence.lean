import Frcmob.Rooms.Realtime

/-!
The sets of the rooms, the metadata and the keep-alive tasks agree in every run. Presence keys
are gone with their connections as long as no touch or connect lands after the delete.
-/

namespace Frcmob.Realtime

/-- What a step does, with the guards it has passed. -/
inductive Effect (settings : Settings) (hub : Hub) : Action → Hub → Prop
  | connected {i : Nat} {m : ConnectionMeta} {action : Action} : i ∉ hub.accepted →
      presenceKey settings m ∉ hub.drawn →
      Effect settings hub action (connect settings hub i m)
  | unchanged (action : Action) : Effect settings hub action hub
  | touched {i now : Nat} {m : ConnectionMeta} : hub.connectionMeta i = some m →
      Effect settings hub (.touch i now) (mark hub i m .touch now)
  | keptAlive {i now : Nat} {m : ConnectionMeta} : hub.connectionMeta i = some m →
      Effect settings hub (.keepalive i now) (mark hub i m .keepalive now)
  | landed {write : Write} : write ∈ hub.writes →
      Effect settings hub (.land write) (land settings hub write)
  | lost (write : Write) :
      Effect settings hub (.lose write) { hub with writes := hub.writes.erase write }
  | httpDeleted (key : String) : Effect settings hub (.deleteHttp key)
      { forget hub key with httpDeletes := hub.httpDeletes.erase key }
  | httpLost (key : String) : Effect settings hub (.loseHttp key)
      { hub with httpDeletes := hub.httpDeletes.erase key }
  | notThere {i : Nat} : hub.connectionMeta i = none →
      Effect settings hub (.disconnect i) (popTask hub i)
  | disconnected {i : Nat} {m : ConnectionMeta} : hub.connectionMeta i = some m →
      Effect settings hub (.disconnect i) (takeMeta (popTask hub i) i m)
  | deleted {i : Nat} {closing : Closing} : hub.closing i = some closing →
      keepaliveDone hub i = true → Effect settings hub (.deletePresence i)
        (forget (advance hub i closing .deleted) (presenceKey settings closing.taken))
  | deleteFailed {i : Nat} {closing : Closing} : hub.closing i = some closing →
      keepaliveDone hub i = true →
      Effect settings hub (.deleteFails i) (advance hub i closing .deleted)
  | returned {i : Nat} {closing : Closing} : hub.closing i = some closing →
      closing.stage = .deleted → Effect settings hub (.returns i) (advance hub i closing .returned)
  | http (rows : List (String × ConnectionMeta)) :
      Effect settings hub (.http rows) { hub with httpPresence := rows }
  | expired (key : String) : Effect settings hub (.expire key) (forget hub key)

theorem effect_of_step {settings : Settings} {hub next : Hub} {action : Action}
    (h : step settings hub action = some next) : Effect settings hub action next := by
  cases action with
  | connect i roomKey scoutProfile clientId token now =>
      simp only [step] at h
      split at h
      · cases h
      · rename_i hfresh
        cases h
        exact .connected (fun hin => hfresh (.inl hin)) (fun hin => hfresh (.inr hin))
  | touch i now =>
      simp only [step] at h
      split at h
      · cases h
        exact .unchanged _
      · rename_i m hi
        cases h
        exact .touched hi
  | keepalive i now =>
      simp only [step] at h
      split at h
      · split at h
        · cases h
          exact .unchanged _
        · rename_i m hi
          cases h
          exact .keptAlive hi
      · cases h
  | land write =>
      simp only [step] at h
      split at h
      · rename_i hin
        cases h
        exact .landed hin
      · cases h
  | lose write =>
      simp only [step] at h
      split at h
      · cases h
        exact .lost write
      · cases h
  | deleteHttp key =>
      simp only [step] at h
      split at h
      · cases h
        exact .httpDeleted key
      · cases h
  | loseHttp key =>
      simp only [step] at h
      split at h
      · cases h
        exact .httpLost key
      · cases h
  | disconnect i =>
      simp only [step, disconnect, Option.some_inj] at h
      split at h
      · rename_i hi
        subst h
        exact .notThere hi
      · rename_i m hi
        subst h
        exact .disconnected hi
  | deletePresence i =>
      simp only [step] at h
      split at h
      · rename_i closing hclosing
        split at h
        · rename_i hready
          cases h
          exact .deleted hclosing hready.2
        · cases h
      · cases h
  | deleteFails i =>
      simp only [step] at h
      split at h
      · rename_i closing hclosing
        split at h
        · rename_i hready
          cases h
          exact .deleteFailed hclosing hready.2
        · cases h
      · cases h
  | returns i =>
      simp only [step] at h
      split at h
      · rename_i closing hclosing
        split at h
        · rename_i hstage
          cases h
          exact .returned hclosing hstage
        · cases h
      · cases h
  | http rows =>
      cases h
      exact .http rows
  | expire key =>
      cases h
      exact .expired key

/-! ### Sets, metadata and tasks -/

def Hub.roomOf (hub : Hub) (i : Nat) : Option String :=
  (hub.connectionMeta i).map ConnectionMeta.roomKey

structure Agree (hub : Hub) : Prop where
  lists : Rosters.Lists hub.roomConnections hub.roomOf
  tasks : ∀ i, hub.keepaliveTasks i = (hub.connectionMeta i).isSome
  accepted : ∀ i, hub.connectionMeta i ≠ none → i ∈ hub.accepted

theorem roomOf_update {hub next : Hub} {i : Nat} {m : Option ConnectionMeta}
    (h : next.connectionMeta = Function.update hub.connectionMeta i m) :
    next.roomOf = Function.update hub.roomOf i (m.map ConnectionMeta.roomKey) := by
  funext j
  rw [Hub.roomOf, h]
  by_cases hj : j = i
  · subst hj
    rw [Function.update_self, Function.update_self]
  · rw [Function.update_of_ne hj, Function.update_of_ne hj, Hub.roomOf]

theorem Agree.connect {hub : Hub} (h : Agree hub) {settings : Settings} {i : Nat}
    {m : ConnectionMeta} (hfresh : i ∉ hub.accepted) : Agree (connect settings hub i m) := by
  have hnone : hub.connectionMeta i = none := by
    by_contra hsome
    exact hfresh (h.accepted i hsome)
  have hroom : (Realtime.connect settings hub i m).roomOf =
      Function.update hub.roomOf i (some m.roomKey) :=
    @roomOf_update hub (Realtime.connect settings hub i m) i (some m) rfl
  constructor
  case lists =>
    rw [hroom]
    exact h.lists.add (by rw [Hub.roomOf, hnone]; rfl) m.roomKey
  case tasks =>
    intro j
    simp only [Realtime.connect, Function.update_apply]
    split
    · rfl
    · exact h.tasks j
  case accepted =>
    intro j hj
    simp only [Realtime.connect, Function.update_apply] at hj
    split at hj
    · rename_i heq
      exact heq ▸ Finset.mem_insert_self ..
    · exact Finset.mem_insert_of_mem (h.accepted j hj)

theorem Agree.mark {hub : Hub} (h : Agree hub) {i : Nat} {m : ConnectionMeta}
    (hi : hub.connectionMeta i = some m) (origin : Origin) (now : Nat) :
    Agree (mark hub i m origin now) := by
  have hroom : (Realtime.mark hub i m origin now).roomOf = hub.roomOf := by
    rw [@roomOf_update hub (Realtime.mark hub i m origin now) i
      (some { m with seenAt := now }) rfl, Option.map_some]
    have hsame : some m.roomKey = hub.roomOf i := by rw [Hub.roomOf, hi]; rfl
    rw [hsame, Function.update_eq_self]
  have hmeta : ∀ j, ((Realtime.mark hub i m origin now).connectionMeta j).isSome =
      (hub.connectionMeta j).isSome := by
    intro j
    simp only [Realtime.mark, Function.update_apply]
    split
    · rename_i heq
      rw [heq, hi]
      rfl
    · rfl
  constructor
  case lists =>
    rw [hroom]
    exact h.lists
  case tasks => exact fun j => (h.tasks j).trans (hmeta j).symm
  case accepted =>
    intro j hj
    apply h.accepted j
    rw [← Option.isSome_iff_ne_none, ← hmeta j, Option.isSome_iff_ne_none]
    exact hj

theorem Agree.popTask {hub : Hub} (h : Agree hub) {i : Nat}
    (hi : hub.connectionMeta i = none) : Agree (popTask hub i) := by
  refine ⟨h.lists, fun j => ?_, h.accepted⟩
  simp only [Realtime.popTask, Function.update_apply]
  split
  · rename_i heq
    rw [heq, hi]
    rfl
  · exact h.tasks j

theorem Agree.takeMeta {hub : Hub} (h : Agree hub) {i : Nat} {m : ConnectionMeta}
    (hi : hub.connectionMeta i = some m) : Agree (takeMeta (Realtime.popTask hub i) i m) := by
  have hroom : (Realtime.takeMeta (Realtime.popTask hub i) i m).roomOf =
      Function.update hub.roomOf i none :=
    @roomOf_update hub (Realtime.takeMeta (Realtime.popTask hub i) i m) i none rfl
  constructor
  case lists =>
    rw [hroom]
    exact h.lists.discard (by rw [Hub.roomOf, hi]; rfl)
  case tasks =>
    intro j
    simp only [Realtime.takeMeta, Realtime.popTask, Function.update_apply]
    split
    · rfl
    · exact h.tasks j
  case accepted =>
    intro j hj
    simp only [Realtime.takeMeta, Realtime.popTask, Function.update_apply] at hj
    split at hj
    · exact absurd rfl hj
    · exact h.accepted j hj

theorem Agree.congr {hub next : Hub} (h : Agree hub)
    (hrooms : next.roomConnections = hub.roomConnections)
    (hmeta : next.connectionMeta = hub.connectionMeta)
    (htasks : next.keepaliveTasks = hub.keepaliveTasks)
    (haccepted : next.accepted = hub.accepted) : Agree next := by
  have hroom : next.roomOf = hub.roomOf := by
    funext i
    rw [Hub.roomOf, hmeta, Hub.roomOf]
  exact ⟨by rw [hrooms, hroom]; exact h.lists, by rw [htasks, hmeta]; exact h.tasks,
    by rw [hmeta, haccepted]; exact h.accepted⟩

theorem Agree.step {settings : Settings} {hub next : Hub} {action : Action} (h : Agree hub)
    (heffect : Effect settings hub action next) : Agree next := by
  cases heffect with
  | connected hfresh _ => exact h.connect hfresh
  | unchanged => exact h
  | touched hi => exact h.mark hi .touch _
  | keptAlive hi => exact h.mark hi .keepalive _
  | notThere hi => exact h.popTask hi
  | disconnected hi => exact h.takeMeta hi
  | landed | lost | httpDeleted | httpLost => exact h.congr rfl rfl rfl rfl
  | deleted | deleteFailed | returned | http | expired => exact h.congr rfl rfl rfl rfl

theorem agree_of_started {hub : Hub} (h : Started hub) : Agree hub := by
  obtain ⟨hrooms, hmeta, htasks, -⟩ := h
  constructor
  case lists =>
    rw [hrooms]
    refine ⟨Rosters.kept_nil, fun k i => ?_⟩
    rw [Hub.roomOf, hmeta]
    exact iff_of_false (Finset.notMem_empty i) (by simp)
  case tasks =>
    intro i
    rw [htasks, hmeta]
    rfl
  case accepted =>
    intro i hi
    exact absurd (hmeta i) hi

/-! ### Whose key is whose -/

/-- The key of a socket's connection, also after the connection is gone. -/
def Hub.keyOf (settings : Settings) (hub : Hub) (i : Nat) : Option String :=
  match hub.connectionMeta i with
  | some m => some (presenceKey settings m)
  | none => (hub.closing i).map fun closing => presenceKey settings closing.taken

structure Keys (settings : Settings) (hub : Hub) : Prop where
  drawn : ∀ i k, hub.keyOf settings i = some k → k ∈ hub.drawn
  accepted : ∀ i, hub.keyOf settings i ≠ none → i ∈ hub.accepted
  unique : ∀ i j k, hub.keyOf settings i = some k → hub.keyOf settings j = some k → i = j
  writes : ∀ write ∈ hub.writes,
    hub.keyOf settings write.socket = some (presenceKey settings write.payload)
  once : ∀ i, hub.connectionMeta i ≠ none → hub.closing i = none

section Keys

variable {settings : Settings} {hub : Hub}

theorem keyOf_meta {i : Nat} {m : ConnectionMeta} (hi : hub.connectionMeta i = some m) :
    hub.keyOf settings i = some (presenceKey settings m) := by
  rw [Hub.keyOf, hi]

theorem Keys.keyOf_closing (h : Keys settings hub) {i : Nat} {closing : Closing}
    (hi : hub.closing i = some closing) :
    hub.keyOf settings i = some (presenceKey settings closing.taken) := by
  cases hmeta : hub.connectionMeta i with
  | none => rw [Hub.keyOf, hmeta, hi]; rfl
  | some m =>
      have hnone := h.once i (by rw [hmeta]; exact Option.some_ne_none m)
      rw [hi] at hnone
      cases hnone

theorem Keys.congr (h : Keys settings hub) {next : Hub}
    (hkeys : next.keyOf settings = hub.keyOf settings) (hdrawn : next.drawn = hub.drawn)
    (haccepted : next.accepted = hub.accepted)
    (hwrites : ∀ write ∈ next.writes,
      hub.keyOf settings write.socket = some (presenceKey settings write.payload))
    (honce : ∀ i, next.connectionMeta i ≠ none → next.closing i = none) :
    Keys settings next := by
  refine ⟨?_, ?_, ?_, ?_, honce⟩
  · rw [hkeys, hdrawn]
    exact h.drawn
  · rw [hkeys, haccepted]
    exact h.accepted
  · rw [hkeys]
    exact h.unique
  · rw [hkeys]
    exact hwrites

theorem Keys.connect (h : Keys settings hub) {i : Nat} {m : ConnectionMeta}
    (hfresh : i ∉ hub.accepted) (hkey : presenceKey settings m ∉ hub.drawn) :
    Keys settings (connect settings hub i m) := by
  have hnone : hub.keyOf settings i = none := by
    by_contra hsome
    exact hfresh (h.accepted i hsome)
  have hself : (Realtime.connect settings hub i m).keyOf settings i =
      some (presenceKey settings m) := keyOf_meta (Function.update_self ..)
  have hother : ∀ j, j ≠ i →
      (Realtime.connect settings hub i m).keyOf settings j = hub.keyOf settings j := by
    intro j hj
    simp only [Hub.keyOf, Realtime.connect, Function.update_of_ne hj]
  have hnew : ∀ j, hub.keyOf settings j ≠ some (presenceKey settings m) :=
    fun j hj => hkey (h.drawn j _ hj)
  constructor
  case drawn =>
    intro j k hj
    by_cases hji : j = i
    · subst hji
      rw [hself, Option.some_inj] at hj
      exact hj ▸ List.mem_cons_self
    · rw [hother j hji] at hj
      exact List.mem_cons_of_mem _ (h.drawn j k hj)
  case accepted =>
    intro j hj
    by_cases hji : j = i
    · exact hji ▸ Finset.mem_insert_self ..
    · rw [hother j hji] at hj
      exact Finset.mem_insert_of_mem (h.accepted j hj)
  case unique =>
    intro j j' k hj hj'
    by_cases hji : j = i
    · by_cases hji' : j' = i
      · rw [hji, hji']
      · rw [hji, hself, Option.some_inj] at hj
        rw [hother j' hji', ← hj] at hj'
        exact absurd hj' (hnew j')
    · rw [hother j hji] at hj
      by_cases hji' : j' = i
      · rw [hji', hself, Option.some_inj] at hj'
        rw [← hj'] at hj
        exact absurd hj (hnew j)
      · rw [hother j' hji'] at hj'
        exact h.unique j j' k hj hj'
  case writes =>
    intro write hin
    cases List.mem_append.mp hin with
    | inl hold =>
        have hkeyOf := h.writes write hold
        have hne : write.socket ≠ i := by
          intro heq
          rw [heq, hnone] at hkeyOf
          cases hkeyOf
        rw [hother _ hne]
        exact hkeyOf
    | inr hnow =>
        rw [List.mem_singleton] at hnow
        subst hnow
        exact hself
  case once =>
    intro j hj
    by_cases hji : j = i
    · subst hji
      cases hclosing : hub.closing j with
      | none => exact hclosing
      | some closing =>
          rw [h.keyOf_closing hclosing] at hnone
          cases hnone
    · simp only [Realtime.connect, Function.update_of_ne hji] at hj
      exact h.once j hj

theorem Keys.mark (h : Keys settings hub) {i : Nat} {m : ConnectionMeta}
    (hi : hub.connectionMeta i = some m) (origin : Origin) (now : Nat) :
    Keys settings (mark hub i m origin now) := by
  have hkeys : (Realtime.mark hub i m origin now).keyOf settings = hub.keyOf settings := by
    funext j
    by_cases hj : j = i
    · subst hj
      rw [keyOf_meta hi, keyOf_meta (Function.update_self ..)]
      rfl
    · simp only [Hub.keyOf, Realtime.mark, Function.update_of_ne hj]
  refine h.congr hkeys rfl rfl ?_ ?_
  · intro write hin
    cases List.mem_append.mp hin with
    | inl hold => exact h.writes write hold
    | inr hnow =>
        rw [List.mem_singleton] at hnow
        subst hnow
        have hkey : hub.keyOf settings i = some (presenceKey settings m) := keyOf_meta hi
        exact hkey
  · intro j hj
    by_cases hji : j = i
    · subst hji
      exact h.once j (by rw [hi]; exact Option.some_ne_none m)
    · simp only [Realtime.mark, Function.update_of_ne hji] at hj
      exact h.once j hj

theorem Keys.takeMeta (h : Keys settings hub) {i : Nat} {m : ConnectionMeta}
    (hi : hub.connectionMeta i = some m) :
    Keys settings (takeMeta (popTask hub i) i m) := by
  have hkeys : (Realtime.takeMeta (popTask hub i) i m).keyOf settings =
      hub.keyOf settings := by
    funext j
    by_cases hj : j = i
    · subst hj
      rw [keyOf_meta hi]
      simp [Hub.keyOf, Realtime.takeMeta]
    · simp only [Hub.keyOf, Realtime.takeMeta, popTask, Function.update_of_ne hj]
  refine h.congr hkeys rfl rfl h.writes ?_
  intro j hj
  simp only [Realtime.takeMeta, popTask] at hj ⊢
  by_cases hji : j = i
  · rw [hji, Function.update_self] at hj
    exact absurd rfl hj
  · rw [Function.update_of_ne hji] at hj ⊢
    exact h.once j hj

theorem Keys.advance (h : Keys settings hub) {i : Nat} {closing : Closing}
    (hi : hub.closing i = some closing) (stage : Stage) :
    Keys settings (advance hub i closing stage) := by
  have hnone : hub.connectionMeta i = none := by
    by_contra hsome
    rw [h.once i hsome] at hi
    cases hi
  have hkeys : (Realtime.advance hub i closing stage).keyOf settings =
      hub.keyOf settings := by
    funext j
    by_cases hj : j = i
    · subst hj
      simp [Hub.keyOf, Realtime.advance, hnone, hi]
    · simp only [Hub.keyOf, Realtime.advance, Function.update_of_ne hj]
  refine h.congr hkeys rfl rfl h.writes ?_
  intro j hj
  have hji : j ≠ i := by
    rintro rfl
    exact hj hnone
  simp only [Realtime.advance, Function.update_of_ne hji]
  exact h.once j hj

theorem Keys.step {next : Hub} {action : Action} (h : Keys settings hub)
    (heffect : Effect settings hub action next) : Keys settings next := by
  have herase : ∀ write, ∀ other ∈ hub.writes.erase write,
      hub.keyOf settings other.socket = some (presenceKey settings other.payload) :=
    fun write other hin => h.writes other (List.mem_of_mem_erase hin)
  cases heffect with
  | connected hfresh hkey => exact h.connect hfresh hkey
  | unchanged => exact h
  | touched hi => exact h.mark hi .touch _
  | keptAlive hi => exact h.mark hi .keepalive _
  | disconnected hi => exact h.takeMeta hi
  | landed | lost => exact h.congr rfl rfl rfl (herase _) h.once
  | deleted hi _ =>
      have hadvanced := h.advance hi .deleted
      exact hadvanced.congr rfl rfl rfl hadvanced.writes hadvanced.once
  | deleteFailed hi _ => exact h.advance hi .deleted
  | returned hi _ => exact h.advance hi .returned
  | notThere | httpDeleted | httpLost | http | expired =>
      exact h.congr rfl rfl rfl h.writes h.once

theorem keys_of_started (h : Started hub) : Keys settings hub := by
  obtain ⟨-, hmeta, -, hwrites, hclosing⟩ := h
  have hnone : ∀ i, hub.keyOf settings i = none := by
    intro i
    rw [Hub.keyOf, hmeta, hclosing]
    rfl
  constructor
  case writes =>
    intro write hin
    rw [hwrites] at hin
    exact absurd hin List.not_mem_nil
  case once => exact fun i _ => hclosing i
  case accepted => exact fun i hi => absurd (hnone i) hi
  all_goals
    intro i
    rw [hnone]
    intros
    contradiction

end Keys

/-! ### Keys that are gone -/

/-- A write that a touch or a connect asked for lands before the delete of its connection's
key, and a delete fails only where there is no key. -/
def Orderly (settings : Settings) (hub : Hub) : Action → Prop
  | .land write => write.origin = .keepalive ∨
      ∀ closing ∈ hub.closing write.socket, closing.stage = .cancelling
  | .deleteFails i => ∀ closing ∈ hub.closing i,
      hub.presence (presenceKey settings closing.taken) = none
  | _ => True

instance (settings : Settings) (hub : Hub) (action : Action) :
    Decidable (Orderly settings hub action) := by
  unfold Orderly
  split <;> infer_instance

structure Cleared (settings : Settings) (hub : Hub) : Prop where
  silent : ∀ i closing, hub.closing i = some closing → closing.stage ≠ .cancelling →
    ∀ write ∈ hub.writes, write.socket = i → write.origin ≠ .keepalive
  cleared : ∀ i closing, hub.closing i = some closing → closing.stage ≠ .cancelling →
    hub.presence (presenceKey settings closing.taken) = none

section Cleared

variable {settings : Settings} {hub : Hub}

theorem Cleared.congr (h : Cleared settings hub) {next : Hub}
    (hclosing : next.closing = hub.closing) (hwrites : ∀ write ∈ next.writes,
      write ∈ hub.writes ∨ hub.closing write.socket = none ∨ write.origin ≠ .keepalive)
    (hpresence : ∀ key, hub.presence key = none → next.presence key = none) :
    Cleared settings next := by
  constructor
  · intro i closing hi hstage write hin hsocket
    rw [hclosing] at hi
    rcases hwrites write hin with hold | hopen | horigin
    · exact h.silent i closing hi hstage write hold hsocket
    · rw [hsocket, hi] at hopen
      cases hopen
    · exact horigin
  · intro i closing hi hstage
    rw [hclosing] at hi
    exact hpresence _ (h.cleared i closing hi hstage)

theorem Cleared.mark (h : Cleared settings hub) (hkeys : Keys settings hub) {i : Nat}
    {m : ConnectionMeta} (hi : hub.connectionMeta i = some m) (origin : Origin) (now : Nat) :
    Cleared settings (mark hub i m origin now) := by
  refine h.congr rfl ?_ fun _ hkey => hkey
  intro write hin
  cases List.mem_append.mp hin with
  | inl hold => exact .inl hold
  | inr hnow =>
      rw [List.mem_singleton] at hnow
      subst hnow
      exact .inr (.inl (hkeys.once i (by rw [hi]; exact Option.some_ne_none m)))

theorem Cleared.land (h : Cleared settings hub) (hkeys : Keys settings hub) {write : Write}
    (hin : write ∈ hub.writes) (horderly : Orderly settings hub (.land write)) :
    Cleared settings (land settings hub write) := by
  constructor
  · intro i closing hi hstage other hother
    exact h.silent i closing hi hstage other (List.mem_of_mem_erase hother)
  · intro i closing hi hstage
    have hne : presenceKey settings closing.taken ≠ presenceKey settings write.payload := by
      intro heq
      have hsocket : write.socket = i := by
        refine hkeys.unique _ _ _ (hkeys.writes write hin) ?_
        rw [hkeys.keyOf_closing hi, heq]
      cases horderly with
      | inl hkeepalive => exact h.silent i closing hi hstage write hin hsocket hkeepalive
      | inr hbefore => exact hstage (hbefore closing (hsocket ▸ hi))
    simp only [Realtime.land, Function.update_of_ne hne]
    exact h.cleared i closing hi hstage

theorem Cleared.takeMeta (h : Cleared settings hub) (i : Nat) (m : ConnectionMeta) :
    Cleared settings (takeMeta (popTask hub i) i m) := by
  have hclosing : ∀ j closing, (Realtime.takeMeta (popTask hub i) i m).closing j =
      some closing → closing.stage ≠ .cancelling → hub.closing j = some closing := by
    intro j closing hj hstage
    simp only [Realtime.takeMeta, popTask, Function.update_apply] at hj
    split at hj
    · cases hj
      exact absurd rfl hstage
    · exact hj
  constructor
  · intro j closing hj hstage
    exact h.silent j closing (hclosing j closing hj hstage) hstage
  · intro j closing hj hstage
    exact h.cleared j closing (hclosing j closing hj hstage) hstage

theorem Cleared.advance (h : Cleared settings hub) {i : Nat} {closing : Closing} {stage : Stage}
    (hsilent : ∀ write ∈ hub.writes, write.socket = i → write.origin ≠ .keepalive)
    (hgone : hub.presence (presenceKey settings closing.taken) = none) :
    Cleared settings (advance hub i closing stage) := by
  constructor
  · intro j other hj hstage write hin hsocket
    simp only [Realtime.advance, Function.update_apply] at hj
    split at hj
    · rename_i heq
      exact hsilent write hin (hsocket.trans heq)
    · exact h.silent j other hj hstage write hin hsocket
  · intro j other hj hstage
    simp only [Realtime.advance, Function.update_apply] at hj
    split at hj
    · cases hj
      exact hgone
    · exact h.cleared j other hj hstage

theorem forget_eq_none {key : String} (other : String)
    (h : hub.presence other = none) : (forget hub key).presence other = none := by
  simp only [forget, Function.update_apply]
  split
  · rfl
  · exact h

theorem Cleared.forget (h : Cleared settings hub) (key : String) :
    Cleared settings (forget hub key) :=
  h.congr rfl (fun _ hin => .inl hin) forget_eq_none

theorem silent_of_done {i : Nat} (h : keepaliveDone hub i = true) :
    ∀ write ∈ hub.writes, write.socket = i → write.origin ≠ .keepalive := by
  intro write hin hsocket horigin
  have hdone := List.all_eq_true.mp h write hin
  simp [hsocket, horigin] at hdone

theorem Cleared.step {next : Hub} {action : Action} (h : Cleared settings hub)
    (hkeys : Keys settings hub) (horderly : Orderly settings hub action)
    (heffect : Effect settings hub action next) : Cleared settings next := by
  cases heffect with
  | connected =>
      refine h.congr rfl ?_ fun _ hkey => hkey
      intro write hin
      cases List.mem_append.mp hin with
      | inl hold => exact .inl hold
      | inr hnow =>
          rw [List.mem_singleton] at hnow
          subst hnow
          exact .inr (.inr Origin.noConfusion)
  | unchanged => exact h
  | touched hi => exact h.mark hkeys hi .touch _
  | keptAlive hi => exact h.mark hkeys hi .keepalive _
  | landed hin => exact h.land hkeys hin horderly
  | lost write =>
      exact h.congr rfl (fun _ hin => .inl (List.mem_of_mem_erase hin)) fun _ hkey => hkey
  | disconnected => exact h.takeMeta ..
  | @deleted i closing hi hdone =>
      have hforget := h.forget (presenceKey settings closing.taken)
      exact hforget.advance (silent_of_done hdone) (Function.update_self ..)
  | deleteFailed hi hdone => exact h.advance (silent_of_done hdone) (horderly _ hi)
  | returned hi hstage =>
      have hdeleted : Stage.deleted ≠ .cancelling := Stage.noConfusion
      exact h.advance (h.silent _ _ hi (hstage ▸ hdeleted)) (h.cleared _ _ hi (hstage ▸ hdeleted))
  | httpDeleted key =>
      exact (h.forget key).congr rfl (fun _ hin => .inl hin) fun _ hkey => hkey
  | expired key => exact h.forget key
  | notThere | httpLost | http =>
      exact h.congr rfl (fun _ hin => .inl hin) fun _ hkey => hkey

theorem cleared_of_started (h : Started hub) : Cleared settings hub := by
  have hclosing := h.2.2.2.2
  constructor
  all_goals
    intro i closing hi
    rw [hclosing] at hi
    cases hi

end Cleared

/-! ### Runs -/

/-- Live sockets and presence agree. -/
structure Agreed (settings : Settings) (hub : Hub) : Prop where
  rooms : ∀ i room, i ∈ Rosters.at? room hub.roomConnections ↔
    ∃ m, hub.connectionMeta i = some m ∧ m.roomKey = room ∧ hub.keepaliveTasks i = true
  tasks : ∀ i, hub.keepaliveTasks i = (hub.connectionMeta i).isSome
  nonempty : ∀ r ∈ hub.roomConnections, r.2.Nonempty
  /-- Once the disconnect of a connection has returned, its presence key is gone for good. -/
  gone : ∀ i closing, hub.closing i = some closing → closing.stage = .returned →
    hub.presence (presenceKey settings closing.taken) = none

theorem Agree.rooms {hub : Hub} (h : Agree hub) (i : Nat) (room : String) :
    i ∈ Rosters.at? room hub.roomConnections ↔
      ∃ m, hub.connectionMeta i = some m ∧ m.roomKey = room ∧ hub.keepaliveTasks i = true := by
  rw [h.lists.mem, Hub.roomOf, Option.map_eq_some_iff, h.tasks]
  constructor
  · rintro ⟨m, hi, hroom⟩
    exact ⟨m, hi, hroom, by rw [hi]; rfl⟩
  · rintro ⟨m, hi, hroom, -⟩
    exact ⟨m, hi, hroom⟩

/-- The first half needs no condition on the run. -/
theorem agree_of_reachable {settings : Settings} {hub : Hub}
    (h : Transition.Reachable (system settings) hub) : Agree hub :=
  h.invariant (fun _ => agree_of_started)
    fun _ _ _ hagree _ hstep => hagree.step (effect_of_step hstep)

def plainSettings : Settings := ⟨"scouting:rooms:presence:"⟩

def emptyHub : Hub where
  roomConnections := []
  connectionMeta _ := none
  keepaliveTasks _ := false
  httpPresence := []
  presence _ := none
  writes := []
  httpDeletes := []
  closing _ := none
  accepted := ∅
  drawn := []

theorem emptyHub_started : Started emptyHub :=
  ⟨rfl, fun _ => rfl, fun _ => rfl, rfl, fun _ => rfl⟩

/-- The metadata of the one connection of the runs, last seen at a time. -/
def scoutB (seenAt : Nat) : ConnectionMeta :=
  ⟨"room-1", "Scout B", some "tab-1", "tab-1-0a1b2c3d4e5f", 0, seenAt⟩

/-- A keep-alive is on its way when the socket disconnects, and is waited for. -/
def awaitedRun : List Action :=
  [.connect 0 "room-1" "Scout B" (some "tab-1") "0a1b2c3d4e5f" 0,
    .land ⟨0, .connect, scoutB 0⟩, .keepalive 0 10, .disconnect 0,
    .land ⟨0, .keepalive, scoutB 10⟩, .deletePresence 0, .returns 0]

/-- A touch has read the metadata, a removal disconnects the socket, and the touch writes. -/
def lateTouchRun : List Action :=
  [.connect 0 "room-1" "Scout B" (some "tab-1") "0a1b2c3d4e5f" 0,
    .land ⟨0, .connect, scoutB 0⟩, .touch 0 10, .disconnect 0, .deletePresence 0, .returns 0,
    .land ⟨0, .touch, scoutB 10⟩]

end Frcmob.Realtime
