import Frcmob.LiveResults.Hub

/-!
What each step of the hub does, and the counts of its sockets. The counts stand in every run;
the caps stand while nobody is let in past them.
-/

namespace Frcmob.LiveSignal

@[simp] theorem conns_put_self (hub : Hub) (i : Nat) (socket : Socket) :
    (hub.put i socket).conns i = some socket :=
  Function.update_self ..

theorem conns_put_of_ne {i j : Nat} (h : j ≠ i) (hub : Hub) (socket : Socket) :
    (hub.put i socket).conns j = hub.conns j :=
  Function.update_of_ne h ..

/-- What a step does, with the guards it has passed. -/
inductive Effect (worker : Worker) (hub : Hub) : Action → Hub → Prop
  | refused (i : Nat) (e c : String) : Effect worker hub (.request i e c) hub
  | requested {i : Nat} {e c : String} : hub.conns i = none →
      admits worker hub e c = true →
      Effect worker hub (.request i e c) (hub.put i ⟨e, c, .accepting, true, none⟩)
  | accepted {i : Nat} {socket : Socket} : hub.conns i = some socket →
      socket.phase = .accepting → Effect worker hub (.accept i) (hub.join i socket)
  | versionRead {i : Nat} {socket : Socket} : hub.conns i = some socket →
      socket.phase = .joined → Effect worker hub (.readVersion i)
        (hub.put i { socket with phase := .read (hub.store socket.eventKey) })
  | firstSent {i : Nat} {socket : Socket} {current : Option String} :
      hub.conns i = some socket → socket.phase = .read current → socket.isOpen = true →
      Effect worker hub (.firstSend i true) ((hub.setdefault socket.eventKey current).put i
        { socket with phase := .listening, heard := some current })
  | firstLost {i : Nat} {socket : Socket} {current : Option String} :
      hub.conns i = some socket → socket.phase = .read current →
      Effect worker hub (.firstSend i false)
        ((hub.setdefault socket.eventKey current).leave i socket)
  | left {i : Nat} {socket : Socket} : hub.conns i = some socket →
      socket.connected = true → Effect worker hub (.leave i) (hub.leave i socket)
  | gaveUp {i : Nat} {socket : Socket} : hub.conns i = some socket →
      socket.phase = .accepting →
      Effect worker hub (.leave i) (hub.put i { socket with phase := .left })
  | closed {i : Nat} {socket : Socket} : hub.conns i = some socket →
      Effect worker hub (.close i) (hub.put i { socket with isOpen := false })
  | noted (e : String) (v : Option String) : Effect worker hub (.note e v) (hub.note e v)
  | tickStarted : hub.tick = .idle → Effect worker hub .tickStart
      { hub with tick := .reading (hub.sockets.map Prod.fst) }
  | tickRead {events : List String} : hub.tick = .reading events →
      Effect worker hub .tickRead (hub.readLatest events)
  | tickFailed {events : List String} : hub.tick = .reading events →
      Effect worker hub .tickFails { hub with tick := .idle }
  | compared {e : String} {v : Option String} {latest : List (String × Option String)} :
      hub.tick = .comparing ((e, v) :: latest) →
      Effect worker hub .compare (hub.compare e v latest)
  | sent {i : Nat} {e v : String} {sockets : Finset Nat}
      {latest : List (String × Option String)} {socket : Socket} :
      hub.tick = .telling e v sockets latest → hub.conns i = some socket → i ∈ sockets →
      socket.isOpen = true → Effect worker hub (.send i true)
        (({ hub with tick := .telling e v (sockets.erase i) latest } : Hub).put i
          { socket with heard := some (some v) })
  | lost {i : Nat} {e v : String} {sockets : Finset Nat}
      {latest : List (String × Option String)} {socket : Socket} :
      hub.tick = .telling e v sockets latest → hub.conns i = some socket → i ∈ sockets →
      Effect worker hub (.send i false)
        { hub with tick := .telling e v (sockets.erase i) latest }
  | allTold {e v : String} {latest : List (String × Option String)} :
      hub.tick = .telling e v ∅ latest →
      Effect worker hub .told { hub with tick := .comparing latest }
  | tickDone : hub.tick = .comparing [] →
      Effect worker hub .tickDone { hub with tick := .idle }

theorem effect_stepSend {worker : Worker} {hub next : Hub} {i : Nat} {delivered : Bool}
    (h : stepSend hub i delivered = some next) :
    Effect worker hub (.send i delivered) next := by
  unfold stepSend at h
  split at h
  · rename_i e v sockets latest socket htick hi
    split at h
    · rename_i hmem
      cases delivered with
      | true =>
          simp only [if_true] at h
          split at h
          · rename_i hopen
            cases h
            exact .sent htick hi hmem hopen
          · cases h
      | false =>
          cases h
          exact .lost htick hi hmem
    · cases h
  · cases h

theorem effect_stepTick {worker : Worker} {hub next : Hub} {action : Action}
    (h : stepTick hub action = some next) : Effect worker hub action next := by
  unfold stepTick at h
  split at h
  · split at h
    · rename_i htick
      cases h
      exact .tickStarted htick
    · cases h
  · split at h
    · rename_i htick
      cases h
      exact .tickRead htick
    · cases h
  · split at h
    · rename_i htick
      cases h
      exact .tickFailed htick
    · cases h
  · split at h
    · rename_i htick
      cases h
      exact .compared htick
    · cases h
  · split at h
    · rename_i htick
      split at h
      · rename_i hempty
        cases h
        exact .allTold (hempty ▸ htick)
      · cases h
    · cases h
  · split at h
    · rename_i htick
      cases h
      exact .tickDone htick
    · cases h
  · cases h

theorem effect_stepSocket {worker : Worker} {hub next : Hub} {i : Nat} {socket : Socket}
    (hi : hub.conns i = some socket) {action : Action}
    (haction : action = .accept i ∨ action = .readVersion i ∨
      (∃ delivered, action = .firstSend i delivered) ∨ action = .leave i ∨ action = .close i)
    (h : stepSocket hub i socket action = some next) : Effect worker hub action next := by
  obtain rfl | rfl | ⟨delivered, rfl⟩ | rfl | rfl := haction
  · simp only [stepSocket] at h
    split at h
    · rename_i hphase
      cases h
      exact .accepted hi hphase
    · cases h
  · simp only [stepSocket] at h
    split at h
    · rename_i hphase
      cases h
      exact .versionRead hi hphase
    · cases h
  · simp only [stepSocket] at h
    split at h
    · rename_i current hphase
      cases delivered with
      | true =>
          simp only [if_true] at h
          split at h
          · rename_i hopen
            cases h
            exact .firstSent hi hphase hopen
          · cases h
      | false =>
          cases h
          exact .firstLost hi hphase
    · cases h
  · simp only [stepSocket] at h
    split at h
    · rename_i hconnected
      cases h
      exact .left hi hconnected
    · split at h
      · rename_i hphase
        cases h
        exact .gaveUp hi hphase
      · cases h
  · cases h
    exact .closed hi

theorem effect_of_step {worker : Worker} {hub next : Hub} {action : Action}
    (h : step worker hub action = some next) : Effect worker hub action next := by
  have hsocket : ∀ {i action}, ((hub.conns i).bind fun socket =>
      stepSocket hub i socket action) = some next → ∃ socket, hub.conns i = some socket ∧
        stepSocket hub i socket action = some next := by
    intro i action h
    exact Option.bind_eq_some_iff.mp h
  cases action with
  | request i e c =>
      simp only [step] at h
      split at h
      · rename_i hi
        split at h
        · rename_i hadmits
          cases h
          exact .requested hi hadmits
        · cases h
          exact .refused i e c
      · cases h
  | note e v =>
      cases h
      exact .noted e v
  | send i delivered => exact effect_stepSend h
  | accept i | readVersion i | firstSend i delivered | leave i | close i =>
      obtain ⟨socket, hi, hstep⟩ := hsocket h
      exact effect_stepSocket hi (by simp) hstep
  | tickStart | tickRead | tickFails | compare | told | tickDone => exact effect_stepTick h

/-! ### The counts -/

/-- Event and client of a socket that the hub serves. -/
def Hub.member (hub : Hub) (i : Nat) : Option (String × String) :=
  ((hub.conns i).filter Socket.connected).map fun socket => (socket.eventKey, socket.client)

def Hub.memberEvent (hub : Hub) (i : Nat) : Option String :=
  (hub.member i).map Prod.fst

def Hub.memberClient (hub : Hub) (i : Nat) : Option String :=
  (hub.member i).map Prod.snd

structure Counted (hub : Hub) : Prop where
  lists : Rosters.Lists hub.sockets hub.memberEvent
  tally : Rosters.Tally hub.perClient hub.memberClient

theorem Counted.congr {hub next : Hub} (h : Counted hub) (hsockets : next.sockets = hub.sockets)
    (hclients : next.perClient = hub.perClient) (hmember : next.member = hub.member) :
    Counted next := by
  have hevent : next.memberEvent = hub.memberEvent := by
    funext i
    rw [Hub.memberEvent, hmember, Hub.memberEvent]
  have hclient : next.memberClient = hub.memberClient := by
    funext i
    rw [Hub.memberClient, hmember, Hub.memberClient]
  exact ⟨by rw [hsockets, hevent]; exact h.lists, by rw [hclients, hclient]; exact h.tally⟩

theorem member_of_conns {hub : Hub} {i : Nat} {socket : Socket}
    (hi : hub.conns i = some socket) :
    hub.member i =
      if socket.connected then some (socket.eventKey, socket.client) else none := by
  rw [Hub.member, hi, Option.filter_some]
  split <;> rfl

theorem member_put (hub : Hub) (i : Nat) (socket : Socket) :
    (hub.put i socket).member = Function.update hub.member i
      (if socket.connected then some (socket.eventKey, socket.client) else none) := by
  funext j
  by_cases hj : j = i
  · subst hj
    rw [Function.update_self]
    exact member_of_conns (conns_put_self hub j socket)
  · rw [Function.update_of_ne hj, Hub.member, conns_put_of_ne hj, Hub.member]

/-- A change to a socket that leaves it served, or not served, leaves the counts alone. -/
theorem Counted.put {hub : Hub} (h : Counted hub) {i : Nat} {socket : Socket}
    (hsame : hub.member i =
      if socket.connected then some (socket.eventKey, socket.client) else none) :
    Counted (hub.put i socket) := by
  refine h.congr rfl rfl ?_
  rw [member_put, ← hsame, Function.update_eq_self]

theorem Counted.join {hub : Hub} (h : Counted hub) {i : Nat} {socket : Socket}
    (hi : hub.member i = none) : Counted (hub.join i socket) := by
  have hmember : (hub.join i socket).member =
      Function.update hub.member i (some (socket.eventKey, socket.client)) :=
    member_put hub i { socket with phase := .joined }
  constructor
  · have hevent : (hub.join i socket).memberEvent =
        Function.update hub.memberEvent i (some socket.eventKey) := by
      funext j
      rw [Hub.memberEvent, hmember]
      by_cases hj : j = i <;> simp [hj, Hub.memberEvent]
    rw [hevent]
    exact h.lists.add (by rw [Hub.memberEvent, hi]; rfl) socket.eventKey
  · have hclient : (hub.join i socket).memberClient =
        Function.update hub.memberClient i (some socket.client) := by
      funext j
      rw [Hub.memberClient, hmember]
      by_cases hj : j = i <;> simp [hj, Hub.memberClient]
    rw [hclient]
    exact h.tally.add (by rw [Hub.memberClient, hi]; rfl) socket.client

theorem Counted.leave {hub : Hub} (h : Counted hub) {i : Nat} {socket : Socket}
    (hi : hub.member i = some (socket.eventKey, socket.client)) :
    Counted (hub.leave i socket) := by
  have hmember : (hub.leave i socket).member = Function.update hub.member i none :=
    member_put hub i { socket with phase := .left }
  constructor
  · have hevent : (hub.leave i socket).memberEvent =
        Function.update hub.memberEvent i none := by
      funext j
      rw [Hub.memberEvent, hmember]
      by_cases hj : j = i <;> simp [hj, Hub.memberEvent]
    rw [hevent]
    exact h.lists.discard (by rw [Hub.memberEvent, hi]; rfl)
  · have hclient : (hub.leave i socket).memberClient =
        Function.update hub.memberClient i none := by
      funext j
      rw [Hub.memberClient, hmember]
      by_cases hj : j = i <;> simp [hj, Hub.memberClient]
    rw [hclient]
    exact h.tally.remove (by rw [Hub.memberClient, hi]; rfl)

@[simp] theorem conns_setdefault (hub : Hub) (e : String) (current : Option String) :
    (hub.setdefault e current).conns = hub.conns := by
  unfold Hub.setdefault
  split <;> rfl

theorem Counted.setdefault {hub : Hub} (h : Counted hub) (e : String)
    (current : Option String) : Counted (hub.setdefault e current) := by
  unfold Hub.setdefault
  split
  · exact h.congr rfl rfl rfl
  · exact h

theorem Counted.note {hub : Hub} (h : Counted hub) (e : String) (v : Option String) :
    Counted (hub.note e v) := by
  unfold Hub.note
  split
  · exact h
  · exact h.congr rfl rfl rfl

theorem Counted.compare {hub : Hub} (h : Counted hub) (e : String) (v : Option String)
    (latest : List (String × Option String)) : Counted (hub.compare e v latest) := by
  unfold Hub.compare
  split
  · exact h.congr rfl rfl rfl
  · split <;> exact h.congr rfl rfl rfl

theorem Counted.step {worker : Worker} {hub next : Hub} {action : Action} (h : Counted hub)
    (heffect : Effect worker hub action next) : Counted next := by
  cases heffect with
  | refused => exact h
  | requested hi _ => exact h.put (by rw [Hub.member, hi]; rfl)
  | accepted hi hphase =>
      refine h.join ?_
      rw [member_of_conns hi, Socket.connected, hphase]
      rfl
  | versionRead hi hphase =>
      refine h.put ?_
      rw [member_of_conns hi, Socket.connected, hphase]
      rfl
  | @firstSent i socket current hi hphase _ =>
      refine (h.setdefault socket.eventKey current).put ?_
      rw [member_of_conns (by rwa [conns_setdefault]), Socket.connected, hphase]
      rfl
  | @firstLost i socket current hi hphase =>
      refine (h.setdefault socket.eventKey current).leave ?_
      rw [member_of_conns (by rwa [conns_setdefault]), Socket.connected, hphase]
      rfl
  | left hi hconnected => exact h.leave (by rw [member_of_conns hi, if_pos hconnected])
  | gaveUp hi hphase =>
      refine h.put ?_
      rw [member_of_conns hi, Socket.connected, hphase]
      rfl
  | closed hi => exact h.put (by rw [member_of_conns hi]; rfl)
  | noted e v => exact h.note e v
  | tickStarted | tickFailed | tickRead | allTold | tickDone => exact h.congr rfl rfl rfl
  | compared => exact h.compare ..
  | @sent i e v sockets latest socket _ hi _ _ =>
      have hnext : Counted { hub with tick := .telling e v (sockets.erase i) latest } :=
        h.congr rfl rfl rfl
      have hmember : hub.member i = _ := member_of_conns hi
      exact hnext.put hmember
  | lost => exact h.congr rfl rfl rfl

theorem counted_of_started {hub : Hub} (h : Started hub) : Counted hub := by
  obtain ⟨hsockets, -, hclients, hconns, -⟩ := h
  have hmember : ∀ i, hub.member i = none := by
    intro i
    rw [Hub.member, hconns i]
    rfl
  constructor
  · rw [hsockets]
    refine ⟨Rosters.kept_nil, fun k i => ?_⟩
    rw [Hub.memberEvent, hmember]
    exact iff_of_false (Finset.notMem_empty i) (by simp)
  · have hnone : ∀ c, {i | hub.memberClient i = some c} = ∅ := by
      intro c
      ext i
      simp [Hub.memberClient, hmember]
    refine ⟨fun c => by rw [hnone]; exact Set.finite_empty, fun c => ?_⟩
    rw [hnone, Set.ncard_empty, hclients]

theorem counted_of_reachable {worker : Worker} {ok : Hub → Action → Prop} {hub : Hub}
    (h : Transition.ReachableWhen (system worker) ok hub) : Counted hub :=
  h.invariant (fun _ => counted_of_started)
    fun _ _ _ hcounted _ hstep => hcounted.step (effect_of_step hstep)

/-! ### The caps -/

def Capped (worker : Worker) (hub : Hub) : Prop :=
  hub.socketCount ≤ socketCap worker ∧ ∀ c, hub.perClient c ≤ maxSocketsPerClient

/-- The counts still allow a socket where its `accept` returns. -/
def RoomLeft (worker : Worker) (hub : Hub) (socket : Socket) : Prop :=
  hub.socketCount < socketCap worker ∧ hub.perClient socket.client < maxSocketsPerClient

theorem Capped.join {worker : Worker} {hub : Hub} (h : Capped worker hub) {socket : Socket}
    (hroom : RoomLeft worker hub socket) (i : Nat) : Capped worker (hub.join i socket) := by
  constructor
  · have htotal : (hub.join i socket).socketCount ≤ hub.socketCount + 1 :=
      Rosters.total_add_le ..
    have hbelow := hroom.1
    omega
  · intro c
    have hclients : (hub.join i socket).perClient = Function.update hub.perClient socket.client
      (hub.perClient socket.client + 1) := rfl
    rw [hclients, Function.update_apply]
    split
    · exact hroom.2
    · exact h.2 c

theorem Capped.leave {worker : Worker} {hub : Hub} (h : Capped worker hub) (i : Nat)
    (socket : Socket) : Capped worker (hub.leave i socket) := by
  constructor
  · exact Nat.le_trans (Rosters.total_discard_le ..) h.1
  · intro c
    have hclients : (hub.leave i socket).perClient = Function.update hub.perClient socket.client
      (hub.perClient socket.client - 1) := rfl
    have hbelow := h.2 socket.client
    rw [hclients, Function.update_apply]
    split
    · omega
    · exact h.2 c

theorem Capped.congr {worker : Worker} {hub next : Hub} (h : Capped worker hub)
    (hsockets : next.sockets = hub.sockets) (hclients : next.perClient = hub.perClient) :
    Capped worker next := by
  rw [Capped, Hub.socketCount, hsockets, hclients]
  exact h

theorem setdefault_sockets (hub : Hub) (e : String) (current : Option String) :
    (hub.setdefault e current).sockets = hub.sockets := by
  unfold Hub.setdefault
  split <;> rfl

theorem setdefault_perClient (hub : Hub) (e : String) (current : Option String) :
    (hub.setdefault e current).perClient = hub.perClient := by
  unfold Hub.setdefault
  split <;> rfl

theorem Capped.step {worker : Worker} {hub next : Hub} {action : Action}
    (h : Capped worker hub) (heffect : Effect worker hub action next)
    (hroom : ∀ i socket, action = .accept i → hub.conns i = some socket →
      RoomLeft worker hub socket) : Capped worker next := by
  cases heffect with
  | accepted hi _ => exact h.join (hroom _ _ rfl hi) _
  | left => exact h.leave ..
  | firstLost =>
      exact (h.congr (setdefault_sockets ..) (setdefault_perClient ..)).leave ..
  | firstSent => exact h.congr (setdefault_sockets ..) (setdefault_perClient ..)
  | noted e v =>
      unfold Hub.note
      split
      · exact h
      · exact h.congr rfl rfl
  | compared =>
      unfold Hub.compare
      split
      · exact h.congr rfl rfl
      · split <;> exact h.congr rfl rfl
  | refused => exact h
  | requested | versionRead | gaveUp | closed => exact h.congr rfl rfl
  | tickStarted | tickFailed | tickRead | allTold | tickDone => exact h.congr rfl rfl
  | sent | lost => exact h.congr rfl rfl

end Frcmob.LiveSignal
