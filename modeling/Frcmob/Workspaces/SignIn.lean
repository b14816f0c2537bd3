import Frcmob.Workspaces.NativeSession

/-!
A sign-out is never undone: what the app restores was not signed out, revoked or found expired. A
sign-in is kept as well, unless an older session is revoked or found expired, or yet another
session is set, while its own write is under way, or the app restarts right after this write with
the flag of an earlier sign-out still there.
-/

namespace Frcmob.NativeSession

/-- Signed out, revoked or expired. -/
def Over (device : Device) (session : WorkspaceSession) : Prop :=
  session.token ∈ device.ended ∨ Expired device.now session

instance (device : Device) (session : WorkspaceSession) : Decidable (Over device session) :=
  inferInstanceAs (Decidable (_ ∨ _))

/-- The write of the session has reached the secure store and is not answered yet. -/
def Completing (device : Device) (session : WorkspaceSession) : Prop :=
  device.landed = true ∧ ∃ revision, device.writes.head? = some (.save session revision)

/-- No session that has been signed out is current, and the one whose write succeeded last is
stored and, once the app is running and the write answered, current. -/
structure Kept (device : Device) : Prop where
  signedOut : ∀ session, device.cached = some session → session.token ∉ device.ended
  signedIn : ∀ session, device.written = some session → ¬ Over device session →
    device.vault = some session ∧
      (device.phase = .running → device.cached = some session ∨ Completing device session)

/-! ### The invariant -/

structure KnownInv (device : Device) : Prop where
  vault : ∀ session, device.vault = some session → session.token ∈ device.known
  cached : ∀ session, device.cached = some session → session.token ∈ device.known
  legacy : ∀ session, device.legacy = some session → session.token ∈ device.known
  written : ∀ session, device.written = some session → session.token ∈ device.known
  writes : ∀ write ∈ device.writes, ∀ session, write.value = some session →
    session.token ∈ device.known
  ended : device.ended ⊆ device.known

/-- The revision of a write that the running app has made. -/
def Write.revision : Write → Option Nat
  | .save _ revision => some revision
  | .remove revision => some revision
  | _ => none

/-- What the bootstrap knows while it waits for a write. -/
def BootWrite (device : Device) : Write → Prop
  | .bootClear => device.clearPending = true
  | .migrate session => device.clearPending = false ∧ session.token ∉ device.ended
  | .drop _ => device.clearPending = false ∧
      ∀ session, device.written = some session → Over device session
  | _ => False

/-- The writes not answered yet are those of the bootstrap or of the running app, whose revisions
go up to the current one. -/
structure QueueInv (device : Device) : Prop where
  running : device.phase = .running → ∀ write ∈ device.writes,
    ∃ revision ≤ device.revision, write.revision = some revision
  order : device.writes.Pairwise fun a b =>
    ∀ m n, a.revision = some m → b.revision = some n → m < n
  waiting : device.phase = .waiting → ∃ write, device.writes = [write] ∧ BootWrite device write
  resting : device.phase = .booting ∨ device.phase = .stuck → device.writes = []
  landed : device.landed = true →
    ∃ write rest, device.writes = write :: rest ∧ device.vault = write.value

/-- A session that was signed out is not current, and while it is stored the flag is there. -/
structure EndedInv (device : Device) : Prop where
  vault : ∀ session, device.vault = some session → session.token ∈ device.ended →
    device.clearPending = true
  cached : ∀ session, device.cached = some session → session.token ∉ device.ended
  legacy : ∀ session, device.legacy = some session → session.token ∉ device.ended
  newest : ∀ session, .save session device.revision ∈ device.writes →
    session.token ∉ device.ended
  saves : ∀ session revision, .save session revision ∈ device.writes →
    session.token ∈ device.ended → device.clearPending = true

/-- The session written last is stored until it is over. -/
structure KeptInv (device : Device) : Prop where
  kept : ∀ session, device.written = some session → ¬ Over device session →
    device.vault = some session ∧
      (device.phase = .running → device.cached = some session ∨ Completing device session)
  removes : ∀ revision, .remove revision ∈ device.writes →
    ∀ session, device.written = some session → Over device session ∨ Completing device session
  booted : device.phase ≠ .running → device.clearPending = true →
    ∀ session, device.vault = some session → Over device session

structure Inv (device : Device) : Prop where
  known : KnownInv device
  queue : QueueInv device
  ended : EndedInv device
  kept : KeptInv device

theorem Over.of_clear {device : Device} {session : WorkspaceSession} (h : Over device session)
    (reason : WorkspaceEndReason) : Over (clearSession device reason) session := by
  rcases h with hended | hexpired
  · exact .inl (List.mem_append_right _ hended)
  · exact .inr hexpired

theorem completing_append {device device' : Device} {write : Write} {session : WorkspaceSession}
    (hwrites : device'.writes = device.writes ++ [write]) (hlanded : device'.landed = device.landed)
    (h : Completing device session) : Completing device' session := by
  obtain ⟨hland, revision, hhead⟩ := h
  refine ⟨hlanded.trans hland, revision, ?_⟩
  rw [hwrites, List.head?_append, hhead]
  rfl

/-- No write before the newest one has its revision, and none comes after it. -/
theorem rest_of_newest {device : Device} (h : QueueInv device) {write : Write} {rest : List Write}
    (hwrites : device.writes = write :: rest) (hphase : device.phase = .running)
    (hrevision : write.revision = some device.revision) : rest = [] := by
  cases rest with
  | nil => rfl
  | cons next rest =>
      obtain ⟨revision, hle, hnext⟩ := h.running hphase next (by simp [hwrites])
      have hpairs := h.order
      rw [hwrites, List.pairwise_cons] at hpairs
      have hlt := hpairs.1 next List.mem_cons_self _ _ hrevision hnext
      omega

/-! ### A session is set -/

theorem KnownInv.setSession {device : Device} (h : KnownInv device) (session : WorkspaceSession) :
    KnownInv (setSession device session) where
  vault := fun s hs => List.mem_cons_of_mem _ (h.vault s hs)
  cached := fun s hs => List.mem_cons_of_mem _ (h.cached s hs)
  legacy := fun s hs => List.mem_cons_of_mem _ (h.legacy s hs)
  written := fun s hs => List.mem_cons_of_mem _ (h.written s hs)
  writes := by
    intro write hwrite s hs
    rcases List.mem_append.mp hwrite with hold | hnew
    · exact List.mem_cons_of_mem _ (h.writes write hold s hs)
    · cases List.mem_singleton.mp hnew
      cases hs
      exact List.mem_cons_self
  ended := fun token htoken => List.mem_cons_of_mem _ (h.ended htoken)

/-- A write of the running app is added to the queue. -/
theorem QueueInv.push {device device' : Device} (h : QueueInv device)
    (hrunning : device.phase = .running) {write : Write}
    (hwrite : write.revision = some (device.revision + 1))
    (hphase : device'.phase = device.phase) (hrevision : device'.revision = device.revision + 1)
    (hwrites : device'.writes = device.writes ++ [write])
    (hlanded : device'.landed = device.landed) (hvault : device'.vault = device.vault) :
    QueueInv device' where
  running := by
    intro _ other hother
    rw [hwrites] at hother
    rcases List.mem_append.mp hother with hold | hnew
    · obtain ⟨revision, hle, hother⟩ := h.running hrunning other hold
      exact ⟨revision, by omega, hother⟩
    · rw [List.mem_singleton.mp hnew]
      exact ⟨device.revision + 1, by omega, hwrite⟩
  order := by
    rw [hwrites]
    refine List.pairwise_append.mpr ⟨h.order, List.pairwise_singleton _ _, ?_⟩
    intro a ha b hb m n hm hn
    obtain ⟨revision, hle, hrev⟩ := h.running hrunning a ha
    rw [List.mem_singleton.mp hb, hwrite] at hn
    rw [hrev] at hm
    cases hm
    cases hn
    omega
  waiting := fun hwaiting => by
    rw [hphase, hrunning] at hwaiting
    cases hwaiting
  resting := fun hresting => by
    rw [hphase, hrunning] at hresting
    rcases hresting with hresting | hresting <;> cases hresting
  landed := by
    intro hland
    obtain ⟨first, rest, hfirst, hvaultFirst⟩ := h.landed (hlanded ▸ hland)
    exact ⟨first, rest ++ [write], by rw [hwrites, hfirst]; rfl, hvault.trans hvaultFirst⟩

/-- The revision of a new write is that of no write before. -/
theorem not_newest {device : Device} (h : QueueInv device) (hrunning : device.phase = .running)
    {write : Write} (hwrite : write ∈ device.writes) :
    write.revision ≠ some (device.revision + 1) := by
  intro heq
  obtain ⟨revision, hle, hrevision⟩ := h.running hrunning write hwrite
  rw [hrevision] at heq
  cases heq
  omega

theorem token_of_mayBeSet {device : Device} (h : Inv device) {session : WorkspaceSession}
    (hset : mayBeSet device session = true) : session.token ∉ device.ended := by
  simp only [mayBeSet, Bool.or_eq_true, decide_eq_true_eq] at hset
  intro hended
  rcases hset with hfresh | hcurrent
  · exact hfresh (h.known.ended hended)
  · obtain ⟨current, hcached, htoken⟩ := Option.map_eq_some_iff.mp hcurrent
    exact h.ended.cached current hcached (htoken ▸ hended)

theorem Inv.setSession {device : Device} (h : Inv device) (hrunning : device.phase = .running)
    {session : WorkspaceSession} (hset : mayBeSet device session = true) :
    Inv (setSession device session) where
  known := h.known.setSession session
  queue := @QueueInv.push _ _ h.queue hrunning (.save session (device.revision + 1)) rfl rfl rfl rfl
    rfl rfl
  ended := by
    have hnew := token_of_mayBeSet h hset
    refine ⟨h.ended.vault, h.ended.cached, h.ended.legacy, ?_, ?_⟩
    · intro s hs
      rcases List.mem_append.mp hs with hold | hlast
      · exact absurd rfl (not_newest h.queue hrunning hold)
      · cases List.mem_singleton.mp hlast
        exact hnew
    · intro s revision hs hended
      rcases List.mem_append.mp hs with hold | hlast
      · exact h.ended.saves s revision hold hended
      · cases List.mem_singleton.mp hlast
        exact absurd hended hnew
  kept := by
    refine ⟨?_, ?_, fun hphase => absurd hrunning hphase⟩
    · intro s hs hover
      obtain ⟨hvault, hcurrent⟩ := h.kept.kept s hs hover
      refine ⟨hvault, fun _ => (hcurrent hrunning).imp id ?_⟩
      exact completing_append rfl rfl
    · intro revision hremove s hs
      rcases List.mem_append.mp hremove with hold | hnew
      · exact (h.kept.removes revision hold s hs).imp id (completing_append rfl rfl)
      · cases List.mem_singleton.mp hnew

/-! ### A session ends -/

theorem endedBy_known {device : Device} (h : KnownInv device) (reason : WorkspaceEndReason) :
    endedBy device reason ⊆ device.known := by
  intro token htoken
  cases reason with
  | left => exact htoken
  | revoked | expired =>
      obtain ⟨session, hcached, rfl⟩ : ∃ s, device.cached = some s ∧ s.token = token := by
        simpa [endedBy] using htoken
      exact h.cached session hcached

/-- What is current or known when a session ends is over with it. -/
theorem over_clear {device : Device} (h : Inv device) (hrunning : device.phase = .running)
    {session : WorkspaceSession} (hwritten : device.written = some session)
    (reason : WorkspaceEndReason) :
    Over (clearSession device reason) session ∨ Completing device session := by
  by_cases hover : Over device session
  · exact .inl (hover.of_clear reason)
  · rcases (h.kept.kept session hwritten hover).2 hrunning with hcached | hcompleting
    · refine .inl (.inl (List.mem_append_left _ ?_))
      cases reason with
      | left => exact h.known.cached session hcached
      | revoked | expired => simp [endedBy, hcached]
    · exact .inr hcompleting

theorem Inv.clearSession {device : Device} (h : Inv device) (hrunning : device.phase = .running)
    (reason : WorkspaceEndReason) : Inv (clearSession device reason) where
  known := by
    refine ⟨h.known.vault, nofun, nofun, h.known.written, ?_, ?_⟩
    · intro write hwrite s hs
      rcases List.mem_append.mp hwrite with hold | hnew
      · exact h.known.writes write hold s hs
      · cases List.mem_singleton.mp hnew
        cases hs
    · intro token htoken
      rcases List.mem_append.mp htoken with hnew | hold
      · exact endedBy_known h.known reason hnew
      · exact h.known.ended hold
  queue := @QueueInv.push _ _ h.queue hrunning (.remove (device.revision + 1)) rfl rfl rfl rfl rfl rfl
  ended := by
    refine ⟨fun _ _ _ => rfl, nofun, nofun, ?_, fun _ _ _ _ => rfl⟩
    intro s hs
    rcases List.mem_append.mp hs with hold | hnew
    · exact absurd rfl (not_newest h.queue hrunning hold)
    · cases List.mem_singleton.mp hnew
  kept := by
    have hcase : ∀ s, device.written = some s →
        Over (NativeSession.clearSession device reason) s ∨
          Completing (NativeSession.clearSession device reason) s := fun s hs =>
      (over_clear h hrunning hs reason).imp id (completing_append rfl rfl)
    refine ⟨?_, fun _ _ s hs => hcase s hs, fun hphase => absurd hrunning hphase⟩
    intro s hs hover
    have hbefore : ¬ Over device s := fun hold => hover (hold.of_clear reason)
    refine ⟨(h.kept.kept s hs hbefore).1, fun _ => ?_⟩
    exact (hcase s hs).elim (fun hnow => absurd hnow hover) .inr

theorem Inv.getSession {device : Device} (h : Inv device) (hrunning : device.phase = .running) :
    Inv (getSession device) ∧ (getSession device).phase = .running := by
  unfold NativeSession.getSession
  split
  · exact ⟨h, hrunning⟩
  · split
    · exact ⟨h.clearSession hrunning .expired, hrunning⟩
    · exact ⟨h, hrunning⟩

theorem Inv.unauthorized {device : Device} (h : Inv device) (hrunning : device.phase = .running)
    (token : String) : Inv (unauthorized device token) := by
  obtain ⟨hget, hphase⟩ := h.getSession hrunning
  unfold NativeSession.unauthorized
  dsimp only
  split
  · exact hget.clearSession hphase .revoked
  · exact hget

/-! ### Writes reach the secure store and are answered -/

theorem running_of_write {device : Device} (h : QueueInv device) {write : Write}
    {rest : List Write} (hwrites : device.writes = write :: rest) {revision : Nat}
    (hwrite : write.revision = some revision) : device.phase = .running := by
  cases hphase : device.phase with
  | running => rfl
  | waiting =>
      obtain ⟨other, hother, hboot⟩ := h.waiting hphase
      rw [hwrites] at hother
      cases hother
      cases write <;> first | exact hboot.elim | cases hwrite
  | booting =>
      rw [h.resting (.inl hphase)] at hwrites
      cases hwrites
  | stuck =>
      rw [h.resting (.inr hphase)] at hwrites
      cases hwrites

theorem waiting_of_write {device : Device} (h : QueueInv device) {write : Write}
    {rest : List Write} (hwrites : device.writes = write :: rest) (hwrite : write.revision = none) :
    device.phase = .waiting ∧ rest = [] ∧ BootWrite device write := by
  cases hphase : device.phase with
  | running =>
      obtain ⟨revision, -, hrevision⟩ := h.running hphase write (by simp [hwrites])
      rw [hwrite] at hrevision
      cases hrevision
  | waiting =>
      obtain ⟨other, hother, hboot⟩ := h.waiting hphase
      rw [hwrites] at hother
      cases hother
      exact ⟨rfl, rfl, hboot⟩
  | booting =>
      rw [h.resting (.inl hphase)] at hwrites
      cases hwrites
  | stuck =>
      rw [h.resting (.inr hphase)] at hwrites
      cases hwrites

theorem QueueInv.land {device : Device} (h : QueueInv device) {write : Write} {rest : List Write}
    (hwrites : device.writes = write :: rest) : QueueInv (land device write) where
  running := h.running
  order := h.order
  waiting := by
    intro hphase
    obtain ⟨other, hother, hboot⟩ := h.waiting hphase
    refine ⟨other, hother, ?_⟩
    have hsame : write = other := by
      rw [hwrites] at hother
      exact (List.cons.inj hother).1
    subst hsame
    cases write with
    | save | remove => exact hboot
    | bootClear | migrate => exact hboot
    | drop expired => exact hboot
  resting := h.resting
  landed := fun _ => ⟨write, rest, hwrites, rfl⟩

/-- What a write takes out of the secure store, or puts in the place of something else, is over. -/
theorem over_of_land {device : Device} (h : Inv device) {write : Write} {rest : List Write}
    (hwrites : device.writes = write :: rest) (hlanded : device.landed = false)
    (hvalue : write.value = none) {session : WorkspaceSession}
    (hwritten : device.written = some session) : Over device session := by
  by_contra hover
  cases write with
  | save | migrate => cases hvalue
  | remove revision =>
      rcases h.kept.removes revision (by simp [hwrites]) session hwritten with hnow | hcompleting
      · exact hover hnow
      · rw [hcompleting.1] at hlanded
        cases hlanded
  | bootClear =>
      obtain ⟨hphase, -, hflag⟩ := waiting_of_write h.queue hwrites rfl
      have hvault := (h.kept.kept session hwritten hover).1
      exact hover (h.kept.booted (by rw [hphase]; nofun) hflag session hvault)
  | drop expired =>
      obtain ⟨-, -, -, hdrop⟩ := waiting_of_write h.queue hwrites rfl
      exact hover (hdrop session hwritten)

theorem EndedInv.land {device : Device} (h : Inv device) {write : Write} {rest : List Write}
    (hwrites : device.writes = write :: rest) : EndedInv (land device write) where
  vault := by
    intro session hvault hended
    cases write with
    | save other revision =>
        have hsame : other = session := Option.some.inj hvault
        subst hsame
        exact h.ended.saves other revision (by simp [hwrites]) hended
    | migrate other =>
        cases hvault
        obtain ⟨-, -, -, hfresh⟩ := waiting_of_write h.queue hwrites rfl
        exact absurd hended hfresh
    | remove | bootClear | drop => cases hvault
  cached := h.ended.cached
  legacy := h.ended.legacy
  newest := h.ended.newest
  saves := h.ended.saves

theorem KeptInv.land {device : Device} (h : Inv device) {write : Write} {rest : List Write}
    (hwrites : device.writes = write :: rest) (hlanded : device.landed = false) :
    KeptInv (land device write) := by
  cases hvalue : write.value with
  | none =>
      have hover : ∀ s, (NativeSession.land device write).written = some s → Over device s := by
        intro s hs
        exact over_of_land h hwrites hlanded hvalue (by simpa [NativeSession.land, hvalue] using hs)
      refine ⟨fun s hs hnot => absurd (hover s hs) hnot, fun _ _ s hs => .inl (hover s hs), ?_⟩
      intro _ _ s hs
      simp [NativeSession.land, hvalue] at hs
  | some session =>
      have hwritten : ∀ s, (NativeSession.land device write).written = some s → session = s := by
        intro s hs
        simpa [NativeSession.land, hvalue] using hs
      have hcompleting : device.phase = .running →
          Completing (NativeSession.land device write) session := by
        intro hrunning
        obtain ⟨revision, -, hrevision⟩ := h.queue.running hrunning write (by simp [hwrites])
        cases write with
        | save other revision =>
            cases hvalue
            exact ⟨rfl, revision, by simp [NativeSession.land, hwrites]⟩
        | migrate => cases hrevision
        | remove | bootClear | drop => cases hvalue
      refine ⟨?_, ?_, ?_⟩
      · intro s hs _
        cases hwritten s hs
        exact ⟨hvalue, fun hrunning => .inr (hcompleting hrunning)⟩
      · intro revision hremove s hs
        cases hwritten s hs
        refine .inr (hcompleting ?_)
        by_contra hphase
        cases hrev : write.revision with
        | none =>
            obtain ⟨-, hrest, -⟩ := waiting_of_write h.queue hwrites hrev
            have hmem : .remove revision ∈ write :: rest := hwrites ▸ hremove
            rw [hrest, List.mem_singleton] at hmem
            rw [← hmem] at hrev
            cases hrev
        | some _ => exact hphase (running_of_write h.queue hwrites hrev)
      · intro hphase hflag s hs
        cases write with
        | save other revision => exact absurd (running_of_write h.queue hwrites rfl) hphase
        | migrate other =>
            obtain ⟨-, -, hclear, -⟩ := waiting_of_write h.queue hwrites rfl
            exact absurd (hclear.symm.trans hflag) nofun
        | remove | bootClear | drop => cases hvalue

theorem Inv.land {device : Device} (h : Inv device) {write : Write} {rest : List Write}
    (hwrites : device.writes = write :: rest) (hlanded : device.landed = false) :
    Inv (land device write) where
  known := by
    have hvalue := h.known.writes write (by simp [hwrites])
    refine ⟨hvalue, h.known.cached, h.known.legacy, ?_, h.known.writes, h.known.ended⟩
    intro s hs
    cases hv : write.value with
    | none => exact h.known.written s (by simpa [NativeSession.land, hv] using hs)
    | some session => exact hvalue s (by simpa [NativeSession.land, hv] using hs)
  queue := h.queue.land hwrites
  ended := EndedInv.land h hwrites
  kept := KeptInv.land h hwrites hlanded

/-- The first write is done with. -/
theorem Inv.pop {device : Device} (h : Inv device) {write : Write} {rest : List Write}
    (hwrites : device.writes = write :: rest) (hrunning : device.phase = .running)
    (hdone : ∀ s, device.written = some s → ¬ Over device s → device.cached = some s)
    (hremoves : ∀ s, device.written = some s → Completing device s →
      Over device s ∨ ∀ revision, .remove revision ∉ rest) : Inv (pop device rest) where
  known := by
    refine ⟨h.known.vault, h.known.cached, h.known.legacy, h.known.written, ?_, h.known.ended⟩
    intro other hother
    exact h.known.writes other (hwrites ▸ List.mem_cons_of_mem _ hother)
  queue := by
    have horder := h.queue.order
    rw [hwrites, List.pairwise_cons] at horder
    refine ⟨?_, horder.2, ?_, ?_, nofun⟩
    · intro _ other hother
      exact h.queue.running hrunning other (hwrites ▸ List.mem_cons_of_mem _ hother)
    · intro hphase
      exact absurd (hrunning.symm.trans hphase) nofun
    · intro hphase
      rcases hphase with hphase | hphase <;> exact absurd (hrunning.symm.trans hphase) nofun
  ended := by
    refine ⟨h.ended.vault, h.ended.cached, h.ended.legacy, ?_, ?_⟩
    · intro s hs
      exact h.ended.newest s (hwrites ▸ List.mem_cons_of_mem _ hs)
    · intro s revision hs
      exact h.ended.saves s revision (hwrites ▸ List.mem_cons_of_mem _ hs)
  kept := by
    refine ⟨?_, ?_, fun hphase => absurd hrunning hphase⟩
    · intro s hs hover
      exact ⟨(h.kept.kept s hs hover).1, fun _ => .inl (hdone s hs hover)⟩
    · intro revision hremove s hs
      rcases h.kept.removes revision (hwrites ▸ List.mem_cons_of_mem _ hremove) s hs with
        hover | hcompleting
      · exact .inl hover
      · exact (hremoves s hs hcompleting).imp id fun hnone => absurd hremove (hnone revision)

/-- The flag goes once the secure store has the session that is kept, or none. -/
theorem Inv.lower {device : Device} (h : Inv device) {write : Write}
    (hwrites : device.writes = [write])
    (hvault : ∀ s, device.vault = some s → s.token ∉ device.ended)
    (hsave : ∀ s revision, write = .save s revision → s.token ∉ device.ended)
    (hrunning : device.phase = .running) : Inv { device with clearPending := false } where
  known := ⟨h.known.vault, h.known.cached, h.known.legacy, h.known.written, h.known.writes,
    h.known.ended⟩
  queue := by
    refine ⟨h.queue.running, h.queue.order, ?_, h.queue.resting, h.queue.landed⟩
    intro hphase
    exact absurd (hrunning.symm.trans hphase) nofun
  ended := by
    refine ⟨?_, h.ended.cached, h.ended.legacy, h.ended.newest, ?_⟩
    · intro s hs hended
      exact absurd hended (hvault s hs)
    · intro s revision hs hended
      have hmem : .save s revision ∈ device.writes := hs
      rw [hwrites, List.mem_singleton] at hmem
      exact absurd hended (hsave s revision hmem.symm)
  kept := ⟨h.kept.kept, h.kept.removes, fun hphase => absurd hrunning hphase⟩

theorem Inv.publish {device : Device} (h : Inv device) {session : WorkspaceSession}
    {revision : Nat} (hwrites : device.writes = [.save session revision])
    (hlanded : device.landed = true) (hnewest : revision = device.revision) :
    Inv (publish device session) := by
  have hrunning := running_of_write h.queue hwrites rfl
  have hfresh : session.token ∉ device.ended :=
    h.ended.newest session (by rw [hwrites, hnewest]; exact List.mem_cons_self)
  have hvault : device.vault = some session := by
    obtain ⟨write, rest, hfirst, hvault⟩ := h.queue.landed hlanded
    rw [hwrites] at hfirst
    cases hfirst
    exact hvault
  have hlower : Inv { device with clearPending := false } := by
    apply h.lower hwrites
    · intro s hs
      cases hvault.symm.trans hs
      exact hfresh
    · intro s other heq
      cases heq
      exact hfresh
    · exact hrunning
  refine ⟨⟨hlower.known.vault, ?_, nofun, hlower.known.written, hlower.known.writes,
    hlower.known.ended⟩, ⟨hlower.queue.running, hlower.queue.order, hlower.queue.waiting,
    hlower.queue.resting, hlower.queue.landed⟩, ⟨hlower.ended.vault, ?_, nofun,
    hlower.ended.newest, hlower.ended.saves⟩, ⟨?_, hlower.kept.removes, hlower.kept.booted⟩⟩
  · intro s hs
    cases hs
    exact h.known.vault session hvault
  · intro s hs
    cases hs
    exact hfresh
  · intro s hs hover
    have hstored := (h.kept.kept s hs hover).1
    exact ⟨hstored, fun _ => .inl (hvault.symm.trans hstored)⟩

/-- A sign-in is complete, or is over already. -/
def inTime (device : Device) : Write → Bool
  | .save session revision =>
    decide (revision = device.revision) || decide (session.token ∈ device.ended)
  | _ => true

theorem Inv.answered_save {device : Device} (h : Inv device) {session : WorkspaceSession}
    {revision : Nat} {rest : List Write} (hwrites : device.writes = .save session revision :: rest)
    (hlanded : device.landed = true) (hintime : inTime device (.save session revision) = true) :
    Inv (answered (NativeSession.pop device rest) (.save session revision)) := by
  have hrunning := running_of_write h.queue hwrites rfl
  have hvault : device.vault = some session := by
    obtain ⟨write, others, hfirst, hvault⟩ := h.queue.landed hlanded
    rw [hwrites] at hfirst
    cases hfirst
    exact hvault
  by_cases hnewest : revision = device.revision
  · have hrest := rest_of_newest h.queue hwrites hrunning (by rw [hnewest]; rfl)
    subst hrest
    have hpublished := h.publish hwrites hlanded hnewest
    have hpop : Inv (NativeSession.pop (NativeSession.publish device session) []) := by
      refine hpublished.pop hwrites hrunning ?_ fun _ _ _ => .inr fun _ => nofun
      intro s hs hover
      exact hvault.symm.trans (h.kept.kept s hs hover).1
    have heq : answered (NativeSession.pop device []) (.save session revision) =
        NativeSession.pop (NativeSession.publish device session) [] := by
      change (if revision = device.revision then _ else _) = _
      rw [if_pos hnewest]
      rfl
    rw [heq]
    exact hpop
  · have hended : session.token ∈ device.ended := by
      simpa [inTime, hnewest] using hintime
    have heq : answered (NativeSession.pop device rest) (.save session revision) =
        NativeSession.pop device rest := by
      change (if revision = device.revision then _ else _) = _
      rw [if_neg hnewest]
    rw [heq]
    refine h.pop hwrites hrunning ?_ ?_
    · intro s hs hover
      cases hvault.symm.trans (h.kept.kept s hs hover).1
      exact absurd (.inl hended) hover
    · intro s _ hcompleting
      obtain ⟨-, other, hhead⟩ := hcompleting
      rw [hwrites] at hhead
      cases hhead
      exact .inl (.inl hended)

theorem Inv.answered_remove {device : Device} (h : Inv device) {revision : Nat}
    {rest : List Write} (hwrites : device.writes = .remove revision :: rest)
    (hlanded : device.landed = true) :
    Inv (answered (NativeSession.pop device rest) (.remove revision)) := by
  have hrunning := running_of_write h.queue hwrites rfl
  have hvault : device.vault = none := by
    obtain ⟨write, others, hfirst, hvault⟩ := h.queue.landed hlanded
    rw [hwrites] at hfirst
    cases hfirst
    exact hvault
  have hpop : ∀ {d : Device}, Inv d → d.writes = .remove revision :: rest →
      d.phase = .running → d.vault = none → Inv (NativeSession.pop d rest) := by
    intro d hd hw hr hv
    refine hd.pop hw hr ?_ ?_
    · intro s hs hover
      exact absurd ((hd.kept.kept s hs hover).1.symm.trans hv) nofun
    · intro s _ hcompleting
      obtain ⟨-, other, hhead⟩ := hcompleting
      rw [hw] at hhead
      cases hhead
  by_cases hnewest : revision = device.revision
  · have hrest := rest_of_newest h.queue hwrites hrunning (by rw [hnewest]; rfl)
    subst hrest
    have hlower : Inv { device with clearPending := false } := by
      refine h.lower hwrites ?_ (fun _ _ heq => by cases heq) hrunning
      intro s hs
      exact absurd (hs.symm.trans hvault) nofun
    have heq : answered (NativeSession.pop device []) (.remove revision) =
        NativeSession.pop { device with clearPending := false } [] := by
      change (if revision = device.revision then _ else _) = _
      rw [if_pos hnewest]
      rfl
    rw [heq]
    exact hpop hlower hwrites hrunning hvault
  · have heq : answered (NativeSession.pop device rest) (.remove revision) =
        NativeSession.pop device rest := by
      change (if revision = device.revision then _ else _) = _
      rw [if_neg hnewest]
    rw [heq]
    exact hpop h hwrites hrunning hvault

theorem queueInv_rest {device : Device} (hwrites : device.writes = [])
    (hlanded : device.landed = false) (hphase : device.phase ≠ .waiting) : QueueInv device := by
  refine ⟨?_, ?_, fun h => absurd h hphase, fun _ => hwrites, fun h => ?_⟩
  · intro _ write hwrite
    rw [hwrites] at hwrite
    cases hwrite
  · rw [hwrites]
    exact .nil
  · rw [hlanded] at h
    cases h

/-- No write is under way: what is left to show of a device that has no writes. -/
theorem Inv.at_rest {device : Device} (hknown : KnownInv device) (hwrites : device.writes = [])
    (hlanded : device.landed = false) (hphase : device.phase ≠ .waiting)
    (hvault : ∀ s, device.vault = some s → s.token ∈ device.ended → device.clearPending = true)
    (hcached : ∀ s, device.cached = some s → s.token ∉ device.ended)
    (hlegacy : ∀ s, device.legacy = some s → s.token ∉ device.ended)
    (hkept : ∀ s, device.written = some s → ¬ Over device s →
      device.vault = some s ∧ (device.phase = .running → device.cached = some s))
    (hbooted : device.phase ≠ .running → device.clearPending = true →
      ∀ s, device.vault = some s → Over device s) : Inv device where
  known := hknown
  queue := queueInv_rest hwrites hlanded hphase
  ended := by
    refine ⟨hvault, hcached, hlegacy, ?_, ?_⟩
    · intro s hs
      rw [hwrites] at hs
      cases hs
    · intro s revision hs
      rw [hwrites] at hs
      cases hs
  kept := by
    refine ⟨?_, ?_, hbooted⟩
    · intro s hs hover
      exact ⟨(hkept s hs hover).1, fun hrunning => .inl ((hkept s hs hover).2 hrunning)⟩
    · intro revision hs
      rw [hwrites] at hs
      cases hs

theorem Inv.answered_boot {device : Device} (h : Inv device) {write : Write} {rest : List Write}
    (hwrites : device.writes = write :: rest) (hlanded : device.landed = true)
    (hboot : write.revision = none) : Inv (answered (NativeSession.pop device rest) write) := by
  obtain ⟨hphase, rfl, hwrite⟩ := waiting_of_write h.queue hwrites hboot
  have hvault : device.vault = write.value := by
    obtain ⟨first, others, hfirst, hvault⟩ := h.queue.landed hlanded
    rw [hwrites] at hfirst
    cases hfirst
    exact hvault
  have hnone : write.value = none → ∀ s, device.written = some s → ¬ Over device s → False := by
    intro hvalue s hs hover
    rw [hvalue] at hvault
    exact absurd ((h.kept.kept s hs hover).1.symm.trans hvault) nofun
  cases write with
  | save | remove => cases hboot
  | bootClear =>
      refine .at_rest ⟨h.known.vault, h.known.cached, nofun, h.known.written, nofun,
        h.known.ended⟩ rfl rfl nofun ?_ h.ended.cached nofun ?_ nofun
      · intro s hs
        exact absurd (hs.symm.trans hvault) nofun
      · intro s hs hover
        exact (hnone rfl s hs hover).elim
  | migrate session =>
      refine .at_rest ⟨h.known.vault, ?_, nofun, h.known.written, nofun, h.known.ended⟩
        rfl rfl nofun h.ended.vault ?_ nofun ?_ (fun hrest => absurd rfl hrest)
      · intro s hs
        exact h.known.vault s (hvault.trans hs)
      · intro s hs
        cases hs
        exact hwrite.2
      · intro s hs hover
        have hstored := (h.kept.kept s hs hover).1
        exact ⟨hstored, fun _ => hvault.symm.trans hstored⟩
  | drop expired =>
      refine .at_rest ⟨h.known.vault, nofun, nofun, h.known.written, nofun, h.known.ended⟩
        rfl rfl nofun h.ended.vault nofun nofun ?_ (fun hrest => absurd rfl hrest)
      intro s hs hover
      exact (hnone rfl s hs hover).elim

theorem Inv.failed {device : Device} (h : Inv device) {write : Write} {rest : List Write}
    (hwrites : device.writes = write :: rest) (hlanded : device.landed = false) :
    Inv (failed (NativeSession.pop device rest) write) := by
  have hnot : ∀ s, ¬ Completing device s := by
    intro s hcompleting
    rw [hcompleting.1] at hlanded
    cases hlanded
  cases hrevision : write.revision with
  | some revision =>
      have hrunning := running_of_write h.queue hwrites hrevision
      have hpop : Inv (NativeSession.pop device rest) := by
        refine h.pop hwrites hrunning ?_ fun s _ hcompleting => absurd hcompleting (hnot s)
        intro s hs hover
        exact ((h.kept.kept s hs hover).2 hrunning).resolve_right (hnot s)
      cases write with
      | save | remove => exact hpop
      | bootClear | migrate | drop => cases hrevision
  | none =>
      obtain ⟨hphase, rfl, -⟩ := waiting_of_write h.queue hwrites hrevision
      have hstuck : Inv { NativeSession.pop device [] with phase := .stuck } := by
        refine .at_rest ⟨h.known.vault, h.known.cached, h.known.legacy, h.known.written, nofun,
          h.known.ended⟩ rfl rfl nofun h.ended.vault h.ended.cached h.ended.legacy ?_ ?_
        · intro s hs hover
          exact ⟨(h.kept.kept s hs hover).1, nofun⟩
        · intro _ hflag
          exact h.kept.booted (by rw [hphase]; nofun) hflag
      cases write with
      | save | remove => cases hrevision
      | bootClear | migrate | drop => exact hstuck

/-! ### The bootstrap -/

theorem Inv.await {device : Device} (h : Inv device) (hphase : device.phase = .booting)
    (hlanded : device.landed = false) {write : Write} (hrevision : write.revision = none)
    (hboot : BootWrite device write)
    (hknown : ∀ s, write.value = some s → s.token ∈ device.known) : Inv (await device write) where
  known := by
    refine ⟨h.known.vault, h.known.cached, h.known.legacy, h.known.written, ?_, h.known.ended⟩
    intro other hother
    rw [List.mem_singleton.mp hother]
    exact hknown
  queue := by
    refine ⟨nofun, List.pairwise_singleton _ _, fun _ => ⟨write, rfl, ?_⟩, ?_, ?_⟩
    · cases write <;> exact hboot
    · intro hrest
      rcases hrest with hrest | hrest <;> cases hrest
    · intro hland
      exact absurd (hlanded.symm.trans hland) nofun
  ended := by
    refine ⟨h.ended.vault, h.ended.cached, h.ended.legacy, ?_, ?_⟩
    · intro s hs
      rw [← List.mem_singleton.mp hs] at hrevision
      cases hrevision
    · intro s revision hs
      rw [← List.mem_singleton.mp hs] at hrevision
      cases hrevision
  kept := by
    refine ⟨?_, ?_, ?_⟩
    · intro s hs hover
      exact ⟨(h.kept.kept s hs hover).1, nofun⟩
    · intro revision hs
      rw [← List.mem_singleton.mp hs] at hrevision
      cases hrevision
    · intro _ hflag
      exact h.kept.booted (by rw [hphase]; nofun) hflag

theorem Inv.boot {device : Device} (h : Inv device) (hphase : device.phase = .booting)
    (readable : Bool) : Inv (boot device readable) := by
  have hwrites := h.queue.resting (.inl hphase)
  have hlanded : device.landed = false := by
    cases hland : device.landed with
    | false => rfl
    | true =>
        obtain ⟨write, rest, hfirst, -⟩ := h.queue.landed hland
        rw [hwrites] at hfirst
        cases hfirst
  unfold NativeSession.boot
  split
  · rename_i hflag
    exact h.await hphase hlanded rfl hflag nofun
  · rename_i hflag
    have hclear : device.clearPending = false := by simpa using hflag
    split
    · refine .at_rest ⟨h.known.vault, h.known.cached, h.known.legacy, h.known.written,
        by simp [hwrites], h.known.ended⟩ hwrites hlanded nofun h.ended.vault h.ended.cached
        h.ended.legacy ?_ (fun _ hpending => absurd (hclear.symm.trans hpending) nofun)
      intro s hs hover
      exact ⟨(h.kept.kept s hs hover).1, nofun⟩
    · split
      · rename_i hnone
        refine h.await hphase hlanded rfl ⟨hclear, ?_⟩ nofun
        intro s hs
        by_contra hover
        rw [(h.kept.kept s hs hover).1] at hnone
        cases hnone
      · rename_i session hsome
        split
        · rename_i hexpired
          refine h.await hphase hlanded rfl ⟨hclear, ?_⟩ nofun
          intro s hs
          by_contra hover
          rw [(h.kept.kept s hs hover).1] at hsome
          cases hsome
          exact hover (.inr hexpired)
        · cases hvault : device.vault with
          | none =>
              rw [hvault] at hsome
              have hlegacy : device.legacy = some session := hsome
              refine h.await hphase hlanded rfl ⟨hclear, h.ended.legacy session hlegacy⟩ ?_
              intro s hs
              cases hs
              exact h.known.legacy session hlegacy
          | some stored =>
              rw [hvault] at hsome
              have hsame : stored = session := Option.some.inj hsome
              subst hsame
              refine .at_rest ⟨h.known.vault, ?_, nofun, h.known.written, by simp [start, hwrites],
                h.known.ended⟩ hwrites hlanded nofun h.ended.vault ?_ nofun ?_
                (fun hrest => absurd rfl hrest)
              · intro s hs
                exact h.known.vault s (hvault.trans hs)
              · intro s hs hended
                cases hs
                exact hflag (h.ended.vault stored hvault hended)
              · intro s hs hover
                have hstored := (h.kept.kept s hs hover).1
                exact ⟨hstored, fun _ => hvault.symm.trans hstored⟩

/-! ### Time and restarts -/

theorem Over.of_tick {device : Device} {session : WorkspaceSession} (h : Over device session)
    (ms : Nat) : Over { device with now := device.now + ms } session := by
  rcases h with hended | hexpired
  · exact .inl hended
  · exact .inr (Nat.le_trans hexpired (Nat.le_add_right _ _))

theorem Inv.tick {device : Device} (h : Inv device) (ms : Nat) :
    Inv { device with now := device.now + ms } where
  known := ⟨h.known.vault, h.known.cached, h.known.legacy, h.known.written, h.known.writes,
    h.known.ended⟩
  queue := by
    refine ⟨h.queue.running, h.queue.order, ?_, h.queue.resting, h.queue.landed⟩
    intro hphase
    obtain ⟨write, hwrites, hboot⟩ := h.queue.waiting hphase
    refine ⟨write, hwrites, ?_⟩
    cases write with
    | drop expired => exact ⟨hboot.1, fun s hs => (hboot.2 s hs).of_tick ms⟩
    | save | remove | bootClear | migrate => exact hboot
  ended := ⟨h.ended.vault, h.ended.cached, h.ended.legacy, h.ended.newest, h.ended.saves⟩
  kept := by
    refine ⟨?_, ?_, ?_⟩
    · intro s hs hover
      exact h.kept.kept s hs fun hbefore => hover (hbefore.of_tick ms)
    · intro revision hremove s hs
      exact (h.kept.removes revision hremove s hs).imp (·.of_tick ms) id
    · intro hphase hflag s hs
      exact (h.kept.booted hphase hflag s hs).of_tick ms

/-- With the flag there, what is stored is over. -/
def settled (device : Device) : Bool :=
  !device.clearPending || device.vault.all fun session => decide (Over device session)

theorem Inv.restart {device : Device} (h : Inv device) (hsettled : settled device = true) :
    Inv (restart device) := by
  refine .at_rest ⟨h.known.vault, nofun, h.known.legacy, h.known.written, nofun, h.known.ended⟩
    rfl rfl nofun h.ended.vault nofun h.ended.legacy ?_ ?_
  · intro s hs hover
    exact ⟨(h.kept.kept s hs hover).1, nofun⟩
  · intro _ hflag s hs
    have hpending : device.clearPending = true := hflag
    have hvault : device.vault = some s := hs
    have hover : Over device s := by simpa [settled, hpending, hvault] using hsettled
    exact hover

/-! ### Runs -/

/-- The write of a session is answered while nothing newer has been asked for, or when the session
is over; the app restarts when the flag stands for what is stored. -/
def Orderly (device : Device) : Action → Prop
  | .complete => ∀ write ∈ device.writes.head?, inTime device write = true
  | .restart => settled device = true
  | _ => True

instance (device : Device) (action : Action) : Decidable (Orderly device action) := by
  unfold Orderly
  split
  · cases device.writes with
    | nil => exact isTrue nofun
    | cons write rest => exact decidable_of_iff (inTime device write = true) (by simp)
  · infer_instance
  · infer_instance

theorem Inv.step {device device' : Device} {action : Action} (h : Inv device)
    (horderly : Orderly device action) (hstep : step device action = some device') :
    Inv device' := by
  cases action with
  | set session =>
      simp only [NativeSession.step] at hstep
      split at hstep <;> cases hstep
      rename_i hset
      exact h.setSession hset.1 hset.2
  | leave =>
      simp only [NativeSession.step] at hstep
      split at hstep <;> cases hstep
      exact h.clearSession ‹_› .left
  | unauthorized token =>
      simp only [NativeSession.step] at hstep
      split at hstep <;> cases hstep
      exact h.unauthorized ‹_› token
  | get =>
      simp only [NativeSession.step] at hstep
      split at hstep <;> cases hstep
      exact (h.getSession ‹_›).1
  | land =>
      simp only [NativeSession.step] at hstep
      split at hstep
      · split at hstep <;> cases hstep
        rename_i hlanded
        exact h.land ‹_› (by simpa using hlanded)
      · cases hstep
  | complete =>
      simp only [NativeSession.step] at hstep
      split at hstep
      · rename_i write rest hwrites
        split at hstep <;> cases hstep
        have hintime : inTime device write = true := horderly write (by simp [hwrites])
        cases write with
        | save session revision => exact h.answered_save hwrites ‹_› hintime
        | remove revision => exact h.answered_remove hwrites ‹_›
        | bootClear | migrate | drop => exact h.answered_boot hwrites ‹_› rfl
      · cases hstep
  | fail =>
      simp only [NativeSession.step] at hstep
      split at hstep
      · split at hstep <;> cases hstep
        rename_i hlanded
        exact h.failed ‹_› (by simpa using hlanded)
      · cases hstep
  | boot readable =>
      simp only [NativeSession.step] at hstep
      split at hstep <;> cases hstep
      exact h.boot ‹_› readable
  | tick ms =>
      cases hstep
      exact h.tick ms
  | restart =>
      cases hstep
      exact h.restart horderly

theorem inv_of_started {device : Device} (h : Started device) : Inv device := by
  obtain ⟨hphase, hflag, hcached, -, hwrites, hlanded, hended, hwritten, hvault, hlegacy⟩ := h
  refine .at_rest ⟨hvault, ?_, hlegacy, ?_, ?_, ?_⟩ hwrites hlanded ?_ ?_ ?_ ?_ ?_ ?_ <;>
    simp_all

/-- In an orderly run a restart never brings back a session that has ended, and the session whose
write succeeded last stays stored, and current in the app, until it ends. -/
theorem kept_of_orderly {device : Device} (h : Transition.ReachableWhen system Orderly device) :
    Kept device := by
  have hinv : Inv device := h.invariant (fun _ hstart => inv_of_started hstart)
    fun _ _ _ hinv horderly hstep => hinv.step horderly hstep
  exact ⟨hinv.ended.cached, hinv.kept.kept⟩

/-! ### Two sign-ins -/

def sessionOf (token : String) (hne : token ≠ "") (expiresAt : Nat) : WorkspaceSession :=
  ⟨token, hne, expiresAt, ⟨1, "Team", some 118⟩, ⟨7, "Scout", .member⟩⟩

def old : WorkspaceSession := sessionOf "old" (by decide) 10

def new : WorkspaceSession := sessionOf "new" (by decide) 1000

def newPhone : Device :=
  ⟨none, none, false, none, .booting, none, none, 0, [], false, 0, [], [], none⟩

theorem started_newPhone : Started newPhone :=
  ⟨rfl, rfl, rfl, rfl, rfl, rfl, rfl, rfl, nofun, nofun⟩

/-- The app starts and a session is set. -/
def signedIn : List Action :=
  [.boot true, .land, .complete, .set old, .land, .complete]

/-- The session is left, another is set while the removal is still under way, and the app is
restarted after both. -/
def switched : List Action :=
  signedIn ++ [.leave, .set new, .fail, .land, .complete, .restart, .boot true]

theorem kept_of_orderly_switched :
    ∃ device, system.run newPhone switched = some device ∧ device.cached = some new ∧
      Kept device := by
  have hcached : (system.run newPhone switched).map (·.cached) = some (some new) := by
    decide +kernel
  obtain ⟨device, hrun, hnew⟩ := Option.map_eq_some_iff.mp hcached
  exact ⟨device, hrun, hnew, kept_of_orderly (Transition.reachableWhen_of_run switched
    (.start started_newPhone) (by decide +kernel) hrun)⟩

/-- The old session is found expired while the new one is being written. -/
def expiredMeanwhile : List Action :=
  signedIn ++ [.set new, .tick 10000, .get, .land, .complete]

theorem new_sign_in_lost :
    ¬ ∀ device, Transition.Reachable system device → Kept device := by
  intro hall
  have hlost : (system.run newPhone expiredMeanwhile).map (fun device =>
      decide (device.written = some new ∧ ¬ Over device new) &&
        decide (device.phase = .running ∧ device.cached = none ∧ device.landed = false)) =
      some true := by decide +kernel
  obtain ⟨device, hrun, hstate⟩ := Option.map_eq_some_iff.mp hlost
  simp only [Bool.and_eq_true, decide_eq_true_eq] at hstate
  obtain ⟨⟨hwritten, hover⟩, hphase, hcached, hlanded⟩ := hstate
  have hkept := hall device (Transition.reachable_of_run expiredMeanwhile started_newPhone hrun)
  rcases (hkept.signedIn new hwritten hover).2 hphase with hcurrent | hcompleting
  · rw [hcached] at hcurrent
    cases hcurrent
  · rw [hcompleting.1] at hlanded
    cases hlanded

end Frcmob.NativeSession
