import Frcmob.LiveResults.Sockets

/-!
Which entry a socket, a timeout and a ping belong to. A step touches what concerns one event, and
the others keep what they have.
-/

namespace Frcmob.LiveSockets

open Transition

/-! ### What belongs to whom -/

def Phase.live : Phase → Bool
  | .connecting | .isOpen => true
  | .closing | .closed => false

/-- What an entry of the map has. -/
structure Owns (s : Tab) (e : Entry) : Prop where
  socket : ∀ i, e.socket = some i ↔ ∃ phase, s.sockets i = some ⟨e.eventKey, e.id, phase⟩ ∧
    phase ≠ .closed
  timer : ∀ t, e.timer = some t ↔ ∃ delayMs, s.timers t = some ⟨e.eventKey, e.id, delayMs⟩
  ping : ∀ p, e.ping = some p → ∃ i, e.socket = some i ∧ s.pings p = some i
  quiet : ∀ i, s.sockets i = some ⟨e.eventKey, e.id, .connecting⟩ → e.ping = none
  waits : e.timer ≠ none → e.socket = none
  refused : e.refused = true → e.socket = none ∧ e.timer = none
  id : e.id < s.next

structure Inv (s : Tab) : Prop where
  owns : ∀ e ∈ s.entries, Owns s e
  sockets : ∀ i socket, s.sockets i = some socket → socket.phase.live = true →
    ∃ e ∈ s.entries, e.eventKey = socket.eventKey ∧ e.id = socket.entry
  timers : ∀ t timer, s.timers t = some timer →
    ∃ e ∈ s.entries, e.eventKey = timer.eventKey ∧ e.id = timer.entry
  pings : ∀ p i, s.pings p = some i → ∃ e ∈ s.entries, e.ping = some p ∧ e.socket = some i
  socketIds : ∀ i socket, s.sockets i = some socket → i < s.next ∧ socket.entry < s.next
  timerIds : ∀ t timer, s.timers t = some timer → t < s.next
  pingIds : ∀ p i, s.pings p = some i → p < s.next

variable {s t : Tab} {e : Entry} {key : String}

theorem Inv.ping_key (h : Inv s) {e' : Entry} (he : e ∈ s.entries) (he' : e' ∈ s.entries)
    {p : Nat} (hp : e.ping = some p) (hp' : e'.ping = some p) : e'.eventKey = e.eventKey := by
  obtain ⟨i, hi, hpi⟩ := (h.owns e he).ping p hp
  obtain ⟨j, hj, hpj⟩ := (h.owns e' he').ping p hp'
  have hij : i = j := Option.some_inj.mp (hpi.symm.trans hpj)
  obtain ⟨phase, hs, -⟩ := ((h.owns e he).socket i).mp hi
  obtain ⟨phase', hs', -⟩ := ((h.owns e' he').socket j).mp hj
  rw [← hij, hs] at hs'
  injection hs' with hs'
  injection hs' with hkey _ _
  exact hkey.symm

/-- A step that touches nothing but what concerns one event. -/
structure Concerns (key : String) (e' : Option Entry) (s t : Tab) : Prop where
  entries : ∀ x, x ∈ t.entries ↔ x ∈ s.entries ∧ x.eventKey ≠ key ∨ e' = some x
  named : ∀ x, e' = some x → x.eventKey = key
  sockets : ∀ i socket, socket.eventKey ≠ key →
    (t.sockets i = some socket ↔ s.sockets i = some socket)
  timers : ∀ i timer, timer.eventKey ≠ key →
    (t.timers i = some timer ↔ s.timers i = some timer)
  pings : ∀ x ∈ s.entries, x.eventKey ≠ key → ∀ p, x.ping = some p → t.pings p = s.pings p
  owned : ∀ p i, t.pings p = some i →
    (∃ x ∈ s.entries, x.eventKey ≠ key ∧ x.ping = some p ∧ x.socket = some i) ∨
      ∃ x, e' = some x ∧ x.ping = some p ∧ x.socket = some i
  live : ∀ i socket, t.sockets i = some socket → socket.eventKey = key →
    socket.phase.live = true → ∃ x, e' = some x ∧ x.id = socket.entry
  waiting : ∀ i timer, t.timers i = some timer → timer.eventKey = key →
    ∃ x, e' = some x ∧ x.id = timer.entry

theorem Inv.change (h : Inv s) {e' : Option Entry} (hc : Concerns key e' s t)
    (howns : ∀ x, e' = some x → Owns t x)
    (hsockets : ∀ i socket, t.sockets i = some socket → i < t.next ∧ socket.entry < t.next)
    (htimers : ∀ i timer, t.timers i = some timer → i < t.next)
    (hpings : ∀ p i, t.pings p = some i → p < t.next) (hnext : s.next ≤ t.next) : Inv t where
  owns x hx := by
    rcases (hc.entries x).mp hx with ⟨hmem, hne⟩ | hnew
    · have hown := h.owns x hmem
      refine ⟨fun i => ?_, fun i => ?_, fun p hp => ?_, fun i hi => ?_, hown.waits, hown.refused,
        hown.id.trans_le hnext⟩
      · rw [hown.socket]
        exact exists_congr fun phase => and_congr_left' (hc.sockets i _ hne).symm
      · rw [hown.timer]
        exact exists_congr fun delayMs => (hc.timers i _ hne).symm
      · rw [hc.pings x hmem hne p hp]
        exact hown.ping p hp
      · exact hown.quiet i ((hc.sockets i _ hne).mp hi)
    · exact howns x hnew
  sockets i socket hi hlive := by
    by_cases hkey : socket.eventKey = key
    · obtain ⟨x, hx, hid⟩ := hc.live i socket hi hkey hlive
      exact ⟨x, (hc.entries x).mpr (.inr hx), (hc.named x hx).trans hkey.symm, hid⟩
    · obtain ⟨x, hx, hxkey, hid⟩ := h.sockets i socket ((hc.sockets i socket hkey).mp hi) hlive
      exact ⟨x, (hc.entries x).mpr (.inl ⟨hx, hxkey ▸ hkey⟩), hxkey, hid⟩
  timers i timer hi := by
    by_cases hkey : timer.eventKey = key
    · obtain ⟨x, hx, hid⟩ := hc.waiting i timer hi hkey
      exact ⟨x, (hc.entries x).mpr (.inr hx), (hc.named x hx).trans hkey.symm, hid⟩
    · obtain ⟨x, hx, hxkey, hid⟩ := h.timers i timer ((hc.timers i timer hkey).mp hi)
      exact ⟨x, (hc.entries x).mpr (.inl ⟨hx, hxkey ▸ hkey⟩), hxkey, hid⟩
  pings p i hp := by
    rcases hc.owned p i hp with ⟨x, hx, hne, hping, hsocket⟩ | ⟨x, hx, hping, hsocket⟩
    · exact ⟨x, (hc.entries x).mpr (.inl ⟨hx, hne⟩), hping, hsocket⟩
    · exact ⟨x, (hc.entries x).mpr (.inr hx), hping, hsocket⟩
  socketIds := hsockets
  timerIds := htimers
  pingIds := hpings

/-! ### Browser objects -/

theorem clear_eq_some {β : Type} {pending : Nat → Option β} {i : Option Nat} {j : Nat} {x : β} :
    clear pending i j = some x ↔ pending j = some x ∧ i ≠ some j := by
  cases i with
  | none => simp [clear]
  | some i =>
      rw [clear, Function.update_apply]
      split
      · rename_i hj
        simp [hj]
      · rename_i hj
        simp [Ne.symm hj]

theorem Socket.close_key (socket : Socket) :
    socket.close.eventKey = socket.eventKey ∧ socket.close.entry = socket.entry ∧
      socket.close.phase.live = false ∧
      (socket.close.phase = .closed ↔ socket.phase = .closed) := by
  obtain ⟨eventKey, entry, phase⟩ := socket
  cases phase <;> simp [Socket.close, Phase.live]

theorem closeSocket_eq_some {sockets : Nat → Option Socket} {closing : Option Nat} {i : Nat}
    {socket : Socket} : closeSocket sockets closing i = some socket ↔
      (closing ≠ some i ∧ sockets i = some socket) ∨
        (closing = some i ∧ ∃ before, sockets i = some before ∧ before.close = socket) := by
  cases closing with
  | none => simp [closeSocket]
  | some j =>
      rw [closeSocket, Function.update_apply]
      split
      · rename_i hj
        simp [hj]
      · rename_i hj
        simp [Ne.symm hj]

/-! ### What a step keeps -/

theorem Concerns.close (h : Inv s) (he : e ∈ s.entries) :
    Concerns e.eventKey none s (s.close e.eventKey) := by
  have hown := h.owns e he
  rw [Tab.close, Table.get?_eq_some.mpr ⟨he, rfl⟩]
  refine ⟨fun x => by simp [Table.mem_erase], (fun x hx => by cases hx), fun i socket hne => ?_,
    fun i timer hne => ?_, fun x hx hne p hp => ?_, fun p i hp => ?_,
    fun i socket hi hkey hlive => ?_, fun i timer hi hkey => ?_⟩
  · have hapart : e.socket ≠ some i ∨ s.sockets i ≠ some socket := by
      by_contra hboth
      obtain ⟨hei, hi⟩ := not_or.mp hboth
      obtain ⟨phase, hphase, -⟩ := (hown.socket i).mp (not_not.mp hei)
      rw [not_not.mp hi, Option.some_inj] at hphase
      exact hne (hphase ▸ rfl)
    refine closeSocket_eq_some.trans ⟨?_, fun hi => .inl ⟨hapart.resolve_right (· hi), hi⟩⟩
    rintro (⟨-, hi⟩ | ⟨hei, before, hi, rfl⟩)
    · exact hi
    · obtain ⟨phase, hphase, -⟩ := (hown.socket i).mp hei
      rw [hi, Option.some_inj] at hphase
      rw [before.close_key.1, hphase] at hne
      exact absurd rfl hne
  · refine clear_eq_some.trans ⟨fun hi => hi.1, fun hi => ⟨hi, fun het => ?_⟩⟩
    obtain ⟨delayMs, hdelay⟩ := (hown.timer i).mp het
    rw [hi, Option.some_inj] at hdelay
    exact hne (hdelay ▸ rfl)
  · obtain ⟨i, -, hpi⟩ := (h.owns x hx).ping p hp
    rw [hpi]
    exact clear_eq_some.mpr ⟨hpi, fun hep => hne (h.ping_key he hx hep hp)⟩
  · obtain ⟨hpi, hep⟩ := clear_eq_some.mp hp
    obtain ⟨x, hx, hping, hsock⟩ := h.pings p i hpi
    refine .inl ⟨x, hx, fun hkey => hep ?_, hping, hsock⟩
    rw [← Table.eq_of_key hx he hkey]
    exact hping
  · rcases closeSocket_eq_some.mp hi with ⟨hei, hsi⟩ | ⟨-, before, -, rfl⟩
    · obtain ⟨x, hx, hxkey, hxid⟩ := h.sockets i socket hsi hlive
      obtain rfl := Table.eq_of_key hx he (hxkey.trans hkey)
      refine absurd ((hown.socket i).mpr ⟨socket.phase, ?_, fun hclosed => ?_⟩) hei
      · rw [hsi, hxkey, hxid]
      · rw [hclosed] at hlive
        cases hlive
    · rw [before.close_key.2.2.1] at hlive
      cases hlive
  · obtain ⟨hti, het⟩ := clear_eq_some.mp hi
    obtain ⟨x, hx, hxkey, hxid⟩ := h.timers i timer hti
    obtain rfl := Table.eq_of_key hx he (hxkey.trans hkey)
    exact absurd ((hown.timer i).mpr ⟨timer.delayMs, by rw [hti, hxkey, hxid]⟩) het

theorem Inv.close (h : Inv s) (key : String) : Inv (s.close key) := by
  cases hget : s.entries.get? key with
  | none =>
      rw [Tab.close, hget]
      exact h
  | some e =>
      obtain ⟨he, rfl⟩ := Table.get?_eq_some.mp hget
      refine h.change (Concerns.close h he) (fun x hx => by cases hx) (fun i socket hi => ?_)
        (fun i timer hi => ?_) (fun p i hp => ?_) (by rw [Tab.close, hget]) <;>
        rw [Tab.close, hget] at *
      · rcases closeSocket_eq_some.mp hi with ⟨-, hsi⟩ | ⟨-, before, hsi, rfl⟩
        · exact h.socketIds i socket hsi
        · rw [before.close_key.2.1]
          exact h.socketIds i before hsi
      · exact h.timerIds i timer (clear_eq_some.mp hi).1
      · exact h.pingIds p i (clear_eq_some.mp hp).1

theorem mem_entries_close {x : Entry} (hx : x ∈ (s.close key).entries) : x ∈ s.entries := by
  rw [Tab.close] at hx
  split at hx
  · exact hx
  · exact (Table.mem_erase.mp hx).1

theorem key_ne_of_mem_close {x : Entry} (hx : x ∈ (s.close key).entries) : x.eventKey ≠ key := by
  rw [Tab.close] at hx
  split at hx
  · rename_i hget
    exact Table.get?_eq_none.mp hget x hx
  · exact (Table.mem_erase.mp hx).2

theorem timers_of_close {i : Nat} {timer : Timer} (hi : (s.close key).timers i = some timer) :
    s.timers i = some timer := by
  rw [Tab.close] at hi
  split at hi
  · exact hi
  · exact (clear_eq_some.mp hi).1

/-! ### The steps of an entry -/

theorem owner_eq_some {id : Nat} : s.owner key id = some e ↔
    e ∈ s.entries ∧ e.eventKey = key ∧ e.id = id := by
  rw [Tab.owner, Option.filter_eq_some_iff, Table.get?_eq_some, decide_eq_true_eq, and_assoc]

/-- The pings are those of the other entries and that of `e`. -/
theorem Inv.pings_iff (h : Inv s) (he : e ∈ s.entries) {p i : Nat} :
    s.pings p = some i ↔ (∃ x ∈ s.entries, x.eventKey ≠ e.eventKey ∧ x.ping = some p ∧
      s.pings p = some i) ∨ (e.ping = some p ∧ e.socket = some i) := by
  constructor
  · intro hp
    obtain ⟨x, hx, hping, hsocket⟩ := h.pings p i hp
    by_cases hkey : x.eventKey = e.eventKey
    · obtain rfl := Table.eq_of_key hx he hkey
      exact .inr ⟨hping, hsocket⟩
    · exact .inl ⟨x, hx, hkey, hping, hp⟩
  · rintro (⟨x, hx, -, -, hp⟩ | ⟨hping, hsocket⟩)
    · exact hp
    · obtain ⟨j, hj, hpj⟩ := (h.owns e he).ping p hping
      rw [hsocket, Option.some_inj] at hj
      rw [hpj, hj]

/-- A step by which the entry of one event becomes `e'`. -/
theorem Inv.put {e' : Entry} (h : Inv s) (hentries : t.entries = s.entries.put e')
    (hsockets : ∀ i socket, socket.eventKey ≠ e'.eventKey →
      (t.sockets i = some socket ↔ s.sockets i = some socket))
    (htimers : ∀ i timer, timer.eventKey ≠ e'.eventKey →
      (t.timers i = some timer ↔ s.timers i = some timer))
    (hpings : ∀ p i, t.pings p = some i ↔ (∃ x ∈ s.entries, x.eventKey ≠ e'.eventKey ∧
      x.ping = some p ∧ s.pings p = some i) ∨ (e'.ping = some p ∧ e'.socket = some i))
    (hlive : ∀ i socket, t.sockets i = some socket → socket.eventKey = e'.eventKey →
      socket.phase.live = true → e'.id = socket.entry)
    (hwaiting : ∀ i timer, t.timers i = some timer → timer.eventKey = e'.eventKey →
      e'.id = timer.entry)
    (howns : Owns t e')
    (hsocketIds : ∀ i socket, t.sockets i = some socket → i < t.next ∧ socket.entry < t.next)
    (htimerIds : ∀ i timer, t.timers i = some timer → i < t.next)
    (hpingIds : ∀ p, e'.ping = some p → p < t.next) (hnext : s.next ≤ t.next) : Inv t := by
  have hconcerns : Concerns e'.eventKey (some e') s t := by
    refine ⟨fun x => ?_, (fun x hx => by cases hx; rfl), hsockets, htimers, fun x hx hne p hp => ?_,
      fun p i hp => ?_, fun i socket hi hkey hl => ⟨e', rfl, hlive i socket hi hkey hl⟩,
      fun i timer hi hkey => ⟨e', rfl, hwaiting i timer hi hkey⟩⟩
    · rw [hentries, Table.mem_put, Option.some_inj, or_comm, eq_comm (a := x)]
    · obtain ⟨i, -, hpi⟩ := (h.owns x hx).ping p hp
      rw [hpi]
      exact (hpings p i).mpr (.inl ⟨x, hx, hne, hp, hpi⟩)
    · rcases (hpings p i).mp hp with ⟨x, hx, hne, hping, hpi⟩ | hnew
      · obtain ⟨j, hj, hpj⟩ := (h.owns x hx).ping p hping
        rw [hpi, Option.some_inj] at hpj
        exact .inl ⟨x, hx, hne, hping, hpj ▸ hj⟩
      · exact .inr ⟨e', rfl, hnew⟩
  refine h.change hconcerns (fun x hx => by cases hx; exact howns) hsocketIds htimerIds
    (fun p i hp => ?_) hnext
  rcases (hpings p i).mp hp with ⟨x, -, -, -, hpi⟩ | ⟨hping, -⟩
  · exact (h.pingIds p i hpi).trans_le hnext
  · exact hpingIds p hping

/-- An entry whose clock is set. -/
theorem Inv.touch (h : Inv s) (he : e ∈ s.entries) (lastInterestMs : Int) :
    Inv (s.set { e with lastInterestMs := lastInterestMs }) := by
  have hown := h.owns e he
  refine h.put rfl (fun _ _ _ => .rfl) (fun _ _ _ => .rfl) (fun p i => h.pings_iff he)
    (fun i socket hi hkey hlive => ?_) (fun i timer hi hkey => ?_)
    ⟨hown.socket, hown.timer, hown.ping, hown.quiet, hown.waits, hown.refused, hown.id⟩
    h.socketIds h.timerIds (fun p hp => ?_) le_rfl
  · obtain ⟨x, hx, hxkey, hid⟩ := h.sockets i socket hi hlive
    rw [← hid, Table.eq_of_key hx he (hxkey.trans hkey)]
  · obtain ⟨x, hx, hxkey, hid⟩ := h.timers i timer hi
    rw [← hid, Table.eq_of_key hx he (hxkey.trans hkey)]
  · obtain ⟨i, -, hpi⟩ := hown.ping p hp
    exact h.pingIds p i hpi

/-- A new entry. -/
theorem Inv.added (h : Inv s) (hnew : s.entries.get? key = none) :
    Inv { s.set ⟨key, s.next, none, s.nowMs, 0, none, none, false⟩ with next := s.next + 1 } := by
  have hnone := Table.get?_eq_none.mp hnew
  refine h.put rfl (fun _ _ _ => .rfl) (fun _ _ _ => .rfl) (fun p i => ?_)
    (fun i socket hi hkey hlive => ?_) (fun i timer hi hkey => ?_)
    ⟨fun i => ?_, fun i => ?_, (fun p hp => by cases hp), fun _ _ => rfl, fun _ => rfl,
      fun _ => ⟨rfl, rfl⟩, Nat.lt_succ_self _⟩ (fun i socket hi => ?_) (fun i timer hi => ?_)
    (fun p hp => by cases hp) (Nat.le_succ _)
  · refine ⟨fun hp => ?_, ?_⟩
    · obtain ⟨x, hx, hping, -⟩ := h.pings p i hp
      exact .inl ⟨x, hx, hnone x hx, hping, hp⟩
    · rintro (⟨x, -, -, -, hp⟩ | ⟨hp, -⟩)
      · exact hp
      · cases hp
  · obtain ⟨x, hx, hxkey, -⟩ := h.sockets i socket hi hlive
    exact absurd (hxkey.trans hkey) (hnone x hx)
  · obtain ⟨x, hx, hxkey, -⟩ := h.timers i timer hi
    exact absurd (hxkey.trans hkey) (hnone x hx)
  · refine ⟨(fun hi => by cases hi), fun ⟨phase, hi, _⟩ => ?_⟩
    exact absurd (h.socketIds i _ hi).2 (lt_irrefl _)
  · refine ⟨(fun hi => by cases hi), fun ⟨delayMs, hi⟩ => ?_⟩
    obtain ⟨x, hx, hxkey, -⟩ := h.timers i _ hi
    exact absurd hxkey (hnone x hx)
  · exact ⟨(h.socketIds i socket hi).1.trans (Nat.lt_succ_self _),
      (h.socketIds i socket hi).2.trans (Nat.lt_succ_self _)⟩
  · exact (h.timerIds i timer hi).trans (Nat.lt_succ_self _)

/-- A change of `readyState` that does not end a connection of an entry. -/
theorem Inv.setPhase (h : Inv s) {i : Nat} {socket : Socket} {phase : Phase}
    (hi : s.sockets i = some socket) (hwas : socket.phase.live = true ∨ phase.live = false)
    (hends : phase = .closed → s.owner socket.eventKey socket.entry = none)
    (hwasOpen : socket.phase ≠ .closed) (hphase : phase ≠ .connecting) :
    Inv { s with
      sockets := Function.update s.sockets i (some { socket with phase := phase }) } := by
  refine ⟨fun e he => ?_, fun j other hj hlive => ?_, h.timers, h.pings, fun j other hj => ?_,
    h.timerIds, h.pingIds⟩ <;> simp only [Function.update_apply] at *
  · have hown := h.owns e he
    refine ⟨fun j => ?_, hown.timer, hown.ping, fun j hj => ?_, hown.waits, hown.refused,
      hown.id⟩ <;>
      simp only [Function.update_apply] at *
    · rw [hown.socket]
      split
      · rename_i hji
        subst hji
        rw [hi]
        constructor
        · rintro ⟨before, hbefore, -⟩
          obtain rfl := Option.some_inj.mp hbefore
          refine ⟨phase, rfl, fun hclosed => ?_⟩
          have hnone := hends hclosed
          rw [owner_eq_some.mpr ⟨he, rfl, rfl⟩] at hnone
          cases hnone
        · rintro ⟨after, hafter, -⟩
          obtain ⟨hkey, hid, -⟩ := Socket.mk.injEq .. ▸ Option.some_inj.mp hafter
          exact ⟨socket.phase, by rw [← hkey, ← hid], hwasOpen⟩
      · rfl
    · split at hj
      · exact absurd (Socket.mk.injEq .. ▸ Option.some_inj.mp hj).2.2 hphase
      · exact hown.quiet j hj
  · split at hj
    · cases hj
      exact h.sockets i socket hi (hwas.resolve_right (by rw [hlive]; exact Bool.noConfusion))
    · exact h.sockets j other hj hlive
  · split at hj
    · rename_i hji
      cases hj
      rw [hji]
      exact h.socketIds i socket hi
    · exact h.socketIds j other hj

theorem Inv.opened (h : Inv s) {i : Nat} {socket : Socket} (hi : s.sockets i = some socket)
    (hphase : socket.phase = .connecting) : Inv (s.opened i socket) := by
  obtain ⟨e, he, hkey, hid⟩ := h.sockets i socket hi (by rw [hphase]; rfl)
  have hquiet : e.ping = none := (h.owns e he).quiet i (by rw [hi, hkey, hid, ← hphase])
  have hopen : Inv { s with
      sockets := Function.update s.sockets i (some { socket with phase := .isOpen }) } :=
    h.setPhase hi (.inl (by rw [hphase]; rfl)) Phase.noConfusion
      (by rw [hphase]; exact Phase.noConfusion) Phase.noConfusion
  have hown := hopen.owns e he
  have hei : e.socket = some i := (hown.socket i).mpr ⟨.isOpen, by
    simp only [Function.update_self, hkey, hid], Phase.noConfusion⟩
  rw [Tab.opened, owner_eq_some.mpr ⟨he, hkey, hid⟩]
  refine hopen.put rfl (fun _ _ _ => .rfl) (fun _ _ _ => .rfl) (fun p j => ?_)
    (fun j other hj hk hlive => ?_) (fun j timer hj hk => ?_)
    ⟨hown.socket, hown.timer, (fun p hp => ?_), fun j hj => ?_, hown.waits, hown.refused,
      hown.id.trans (Nat.lt_succ_self _)⟩
    (fun j other hj => ?_) (fun j timer hj => ?_) (fun p hp => ?_) (Nat.le_succ _)
  · simp only [Function.update_apply]
    split
    · rename_i hp
      subst hp
      simp only [hei, true_and]
      refine ⟨.inr, ?_⟩
      rintro (⟨x, -, -, -, hp⟩ | hij)
      · exact absurd (hopen.pingIds _ _ hp) (lt_irrefl _)
      · exact hij
    · rename_i hp
      refine (hopen.pings_iff he).trans (or_congr_right ?_)
      simp only [hquiet, reduceCtorEq, false_and, Option.some_inj, Ne.symm hp]
  · obtain ⟨x, hx, hxkey, hxid⟩ := hopen.sockets j other hj hlive
    rw [← hxid, Table.eq_of_key hx he (hxkey.trans hk)]
  · obtain ⟨x, hx, hxkey, hxid⟩ := hopen.timers j timer hj
    rw [← hxid, Table.eq_of_key hx he (hxkey.trans hk)]
  · cases hp
    exact ⟨i, hei, Function.update_self ..⟩
  · have hj' := (hown.socket j).mpr ⟨_, hj, Phase.noConfusion⟩
    rw [hei, Option.some_inj] at hj'
    subst hj'
    simp only [Function.update_self, Option.some_inj, Socket.mk.injEq, reduceCtorEq,
      and_false] at hj
  · exact ⟨(hopen.socketIds j other hj).1.trans (Nat.lt_succ_self _),
      (hopen.socketIds j other hj).2.trans (Nat.lt_succ_self _)⟩
  · exact (hopen.timerIds j timer hj).trans (Nat.lt_succ_self _)
  · cases hp
    exact Nat.lt_succ_self _

/-- The entry of a socket whose connection ended, before what `onclose` makes of it. -/
theorem Inv.lost (h : Inv s) {i : Nat} {socket : Socket} (hi : s.sockets i = some socket)
    (hopen : socket.phase ≠ .closed) (he : e ∈ s.entries) (hkey : e.eventKey = socket.eventKey)
    (hid : e.id = socket.entry) {e' : Entry} {timers : Nat → Option Timer} {next : Nat}
    (hkey' : e'.eventKey = e.eventKey) (hid' : e'.id = e.id) (hping : e'.ping = none)
    (hsocket : e'.socket = none) (hrefused : e'.refused = true → e'.timer = none)
    (hother : ∀ j timer, timer.eventKey ≠ e.eventKey →
      (timers j = some timer ↔ s.timers j = some timer))
    (htimer : ∀ j, e'.timer = some j ↔
      ∃ delayMs, timers j = some ⟨e.eventKey, e.id, delayMs⟩)
    (hwaiting : ∀ j timer, timers j = some timer → timer.eventKey = e.eventKey →
      timer.entry = e.id)
    (hids : ∀ j timer, timers j = some timer → j < next) (hnext : s.next ≤ next) :
    Inv { s.set e' with
      sockets := Function.update s.sockets i (some { socket with phase := .closed })
      pings := clear s.pings e.ping
      timers := timers
      next := next } := by
  have hown := h.owns e he
  have hei : e.socket = some i := (hown.socket i).mpr ⟨socket.phase, by rw [hi, hkey, hid], hopen⟩
  refine h.put rfl (fun j other hne => ?_) (fun j timer hne => ?_) (fun p j => ?_)
    (fun j other hj hk hlive => ?_) (fun j timer hj hk => ?_)
    ⟨fun j => ?_, ?_, (fun p hp => ?_), fun j hj => hping, fun _ => hsocket,
      fun hr => ⟨hsocket, hrefused hr⟩, hid' ▸ hown.id.trans_le hnext⟩
    (fun j other hj => ?_) hids (fun p hp => ?_) hnext <;> simp only at *
  · rw [Function.update_apply]
    split
    · rename_i hji
      subst hji
      rw [hi, Option.some_inj, Option.some_inj]
      constructor <;> rintro rfl <;> exact absurd (hkey.symm.trans hkey'.symm) hne
    · rfl
  · exact hother j timer (hkey' ▸ hne)
  · rw [hping, hkey']
    simp only [reduceCtorEq, false_and, or_false]
    refine (clear_eq_some.trans (and_congr_left' (h.pings_iff he))).trans ?_
    refine ⟨fun ⟨hcase, hne⟩ => hcase.resolve_right fun hown => hne hown.1, ?_⟩
    rintro ⟨x, hx, hxkey, hxping, hp⟩
    exact ⟨.inl ⟨x, hx, hxkey, hxping, hp⟩, fun hep => hxkey (h.ping_key he hx hep hxping)⟩
  · rw [Function.update_apply] at hj
    split at hj
    · obtain rfl := Option.some_inj.mp hj
      cases hlive
    · obtain ⟨x, hx, hxkey, hxid⟩ := h.sockets j other hj hlive
      rw [hid', ← hxid, Table.eq_of_key hx he (hxkey.trans (hk.trans hkey'))]
  · rw [hid']
    exact (hwaiting j timer hj (hk.trans hkey')).symm
  · rw [hsocket, hkey', hid', Function.update_apply]
    simp only [reduceCtorEq, false_iff, not_exists, not_and, not_not]
    intro phase hphase
    split at hphase
    · exact (Socket.mk.injEq .. ▸ Option.some_inj.mp hphase).2.2.symm
    · rename_i hne
      by_contra hnot
      have hej := (hown.socket j).mpr ⟨phase, hphase, hnot⟩
      exact hne (Option.some_inj.mp (hej.symm.trans hei))
  · rw [hkey', hid']
    exact htimer
  · rw [hping] at hp
    cases hp
  · rw [Function.update_apply] at hj
    split at hj
    · rename_i hji
      obtain rfl := Option.some_inj.mp hj
      rw [hji]
      exact ⟨(h.socketIds i socket hi).1.trans_le hnext,
        (h.socketIds i socket hi).2.trans_le hnext⟩
    · exact ⟨(h.socketIds j other hj).1.trans_le hnext,
        (h.socketIds j other hj).2.trans_le hnext⟩
  · rw [hping] at hp
    cases hp

theorem Inv.closed (h : Inv s) {i : Nat} {socket : Socket} (hi : s.sockets i = some socket)
    (hopen : socket.phase ≠ .closed) (code : Nat) (random : ℚ) :
    Inv (s.closed i socket code random) := by
  rw [Tab.closed]
  split
  · rename_i howner
    exact h.setPhase hi (.inr rfl) (fun _ => howner) hopen Phase.noConfusion
  · rename_i e howner
    obtain ⟨he, hkey, hid⟩ := owner_eq_some.mp howner
    have hown := h.owns e he
    have hei : e.socket = some i :=
      (hown.socket i).mpr ⟨socket.phase, by rw [hi, hkey, hid], hopen⟩
    have htimer : e.timer = none := by
      by_contra hsome
      rw [hown.waits hsome] at hei
      cases hei
    have hnone : ∀ j timer, s.timers j = some timer → timer.eventKey ≠ e.eventKey := by
      intro j timer hj hk
      obtain ⟨x, hx, hxkey, hxid⟩ := h.timers j timer hj
      obtain rfl := Table.eq_of_key hx he (hxkey.trans hk)
      have hej := (hown.timer j).mpr ⟨timer.delayMs, by rw [hj, hxkey, hxid]⟩
      rw [htimer] at hej
      cases hej
    have hwaits : ∀ e' : Entry, e'.timer = e.timer → ∀ j, e'.timer = some j ↔
        ∃ delayMs, s.timers j = some ⟨e.eventKey, e.id, delayMs⟩ := by
      intro e' he' j
      rw [he']
      exact hown.timer j
    simp only
    split
    · exact h.lost hi hopen he hkey hid rfl rfl rfl rfl (fun _ => htimer) (fun _ _ _ => .rfl)
        (hwaits _ rfl) (fun j timer hj hk => absurd hk (hnone j timer hj)) h.timerIds le_rfl
    · split
      · refine Inv.close ?_ _
        refine h.lost hi hopen he hkey hid rfl rfl rfl rfl (fun _ => htimer) (fun _ _ _ => .rfl)
          (hwaits _ rfl) (fun j timer hj hk => absurd hk (hnone j timer hj)) h.timerIds le_rfl
      · refine h.lost hi hopen he hkey hid rfl rfl rfl rfl (fun hr => ?_) (fun j timer hne => ?_)
          (fun j => ?_) (fun j timer hj hk => ?_) (fun j timer hj => ?_) (Nat.le_succ _)
        · rw [(hown.refused hr).1] at hei
          cases hei
        · rw [Function.update_apply]
          split
          · rename_i hj
            constructor
            · intro hnew
              obtain rfl := Option.some_inj.mp hnew
              exact absurd hkey.symm hne
            · intro hold
              exact absurd (h.timerIds j timer hold) (hj ▸ lt_irrefl _)
          · rfl
        · simp only [Function.update_apply, Option.some_inj]
          split
          · rename_i hj
            simp [hj, hkey, hid]
          · rename_i hj
            refine ⟨fun h => absurd h.symm hj, fun ⟨delayMs, hold⟩ => ?_⟩
            exact absurd rfl (hnone j _ hold)
        · rw [Function.update_apply] at hj
          split at hj
          · obtain rfl := Option.some_inj.mp hj
            exact hid.symm
          · exact absurd hk (hnone j timer hj)
        · rw [Function.update_apply] at hj
          split at hj
          · rename_i hjn
            exact hjn ▸ Nat.lt_succ_self _
          · exact (h.timerIds j timer hj).trans (Nat.lt_succ_self _)

/-- `connect` for an entry that has no socket, and of which a timeout is over. -/
theorem Inv.connect (h : Inv s) (he : e ∈ s.entries) (hsocket : e.socket = none)
    (constructs : Bool) :
    Inv ({ s with timers := clear s.timers e.timer }.connect e.eventKey e.id constructs) := by
  have hown := h.owns e he
  have hping : e.ping = none := by
    cases hep : e.ping with
    | none => rfl
    | some p =>
        obtain ⟨i, hi, -⟩ := hown.ping p hep
        rw [hsocket] at hi
        cases hi
  have hnone : ∀ i other, s.sockets i = some other → other.eventKey = e.eventKey →
      other.phase.live = true → False := by
    intro i other hi hk hlive
    obtain ⟨x, hx, hxkey, hxid⟩ := h.sockets i other hi hlive
    obtain rfl := Table.eq_of_key hx he (hxkey.trans hk)
    have hei := (hown.socket i).mpr ⟨other.phase, by rw [hi, hxkey, hxid], fun hclosed => by
      rw [hclosed] at hlive
      cases hlive⟩
    rw [hsocket] at hei
    cases hei
  have hclear : ∀ i timer, clear s.timers e.timer i = some timer →
      timer.eventKey ≠ e.eventKey := by
    intro i timer hi hk
    obtain ⟨hti, het⟩ := clear_eq_some.mp hi
    obtain ⟨x, hx, hxkey, hxid⟩ := h.timers i timer hti
    obtain rfl := Table.eq_of_key hx he (hxkey.trans hk)
    exact het ((hown.timer i).mpr ⟨timer.delayMs, by rw [hti, hxkey, hxid]⟩)
  have hother : ∀ i timer, timer.eventKey ≠ e.eventKey →
      (clear s.timers e.timer i = some timer ↔ s.timers i = some timer) := by
    intro i timer hne
    refine clear_eq_some.trans ⟨fun hi => hi.1, fun hi => ⟨hi, fun het => ?_⟩⟩
    obtain ⟨delayMs, hdelay⟩ := (hown.timer i).mp het
    rw [hi, Option.some_inj] at hdelay
    exact hne (hdelay ▸ rfl)
  have hnoTimer : ∀ {i : Nat}, (none : Option Nat) = some i ↔
      ∃ delayMs, clear s.timers e.timer i = some ⟨e.eventKey, e.id, delayMs⟩ :=
    ⟨(fun hi => by cases hi), fun ⟨_, hi⟩ => absurd rfl (hclear _ _ hi)⟩
  have howner : Tab.owner { s with timers := clear s.timers e.timer } e.eventKey e.id = some e :=
    owner_eq_some.mpr ⟨he, rfl, rfl⟩
  rw [Tab.connect, howner]
  simp only
  split
  · refine h.put rfl (fun _ _ _ => .rfl) hother (fun p i => h.pings_iff he)
      (fun i other hi hk hlive => (hnone i other hi hk hlive).elim)
      (fun i timer hi hk => absurd hk (hclear i timer hi))
      ⟨hown.socket, fun _ => hnoTimer, hown.ping, hown.quiet, fun hne => absurd rfl hne,
        fun _ => ⟨hsocket, rfl⟩, hown.id⟩ h.socketIds
      (fun i timer hi => h.timerIds i timer (clear_eq_some.mp hi).1) (fun p hp => ?_) le_rfl
    rw [show e.ping = some p from hp] at hping
    cases hping
  · rename_i hopen
    refine h.put rfl (fun i other hne => ?_) hother (fun p i => ?_)
      (fun i other hi hk hlive => ?_) (fun i timer hi hk => absurd hk (hclear i timer hi))
      ⟨fun i => ?_, fun _ => hnoTimer, (fun p hp => ?_), fun _ _ => hping,
        fun hne => absurd rfl hne, fun hr => absurd (.inl hr) hopen,
        hown.id.trans (Nat.lt_succ_self _)⟩ (fun i other hi => ?_)
      (fun i timer hi => (h.timerIds i timer (clear_eq_some.mp hi).1).trans (Nat.lt_succ_self _))
      (fun p hp => ?_) (Nat.le_succ _) <;> simp only [Function.update_apply] at *
    · split
      · rename_i hin
        constructor
        · intro hnew
          obtain rfl := Option.some_inj.mp hnew
          exact absurd rfl hne
        · intro hold
          exact absurd (h.socketIds i other hold).1 (hin ▸ lt_irrefl _)
      · rfl
    · refine (h.pings_iff he).trans (or_congr_right ?_)
      simp only [hping, reduceCtorEq, false_and]
    · split at hi
      · obtain rfl := Option.some_inj.mp hi
        rfl
      · exact (hnone i other hi hk hlive).elim
    · split
      · rename_i hin
        simp [hin]
      · rename_i hin
        refine ⟨fun hni => absurd (Option.some_inj.mp hni).symm hin, fun ⟨phase, hi, hne⟩ => ?_⟩
        rw [(hown.socket i).mpr ⟨phase, hi, hne⟩] at hsocket
        cases hsocket
    · rw [hping] at hp
      cases hp
    · split at hi
      · rename_i hin
        obtain rfl := Option.some_inj.mp hi
        exact ⟨hin ▸ Nat.lt_succ_self _, hown.id.trans (Nat.lt_succ_self _)⟩
      · exact ⟨(h.socketIds i other hi).1.trans (Nat.lt_succ_self _),
          (h.socketIds i other hi).2.trans (Nat.lt_succ_self _)⟩
    · rw [hping] at hp
      cases hp

end Frcmob.LiveSockets
