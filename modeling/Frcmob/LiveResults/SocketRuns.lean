import Frcmob.LiveResults.SocketOwners
import Mathlib.Tactic.Linarith

/-!
What a tab holds in every run: at most six sockets, each of an event it follows, and for each
event that it follows a socket or the next attempt at one.
-/

namespace Frcmob.LiveSockets

open Transition

variable {s t : Tab} {e : Entry} {key : String}

theorem Inv.congr (h : Inv s) (hentries : t.entries = s.entries) (hsockets : t.sockets = s.sockets)
    (htimers : t.timers = s.timers) (hpings : t.pings = s.pings) (hnext : t.next = s.next) :
    Inv t := by
  cases s
  cases t
  subst hentries hsockets htimers hpings hnext
  refine ⟨fun e he => ?_, h.sockets, h.timers, h.pings, h.socketIds, h.timerIds, h.pingIds⟩
  have hown := h.owns e he
  exact ⟨hown.socket, hown.timer, hown.ping, hown.quiet, hown.waits, hown.refused, hown.id⟩

theorem Inv.applyLiveVersion (h : Inv s) (eventKey version : String) :
    Inv (s.applyLiveVersion eventKey version) := by
  rw [Tab.applyLiveVersion]
  simp only
  split
  · exact h.congr rfl rfl rfl rfl rfl
  · exact h.congr rfl rfl rfl rfl rfl

theorem mem_entries_oldest {e : Entry} (h : s.oldest = some e) : e ∈ s.entries :=
  (Places.perm_sortBy _ _).subset (List.mem_of_head? h)

theorem makeRoom_cases (s : Tab) :
    s.makeRoom = s ∨ ∃ oldest ∈ s.entries, s.makeRoom = s.close oldest.eventKey := by
  rw [Tab.makeRoom]
  split
  · cases holdest : s.oldest with
    | none => exact .inl rfl
    | some oldest => exact .inr ⟨oldest, mem_entries_oldest holdest, rfl⟩
  · exact .inl rfl

theorem Inv.makeRoom (h : Inv s) : Inv s.makeRoom := by
  rcases makeRoom_cases s with heq | ⟨oldest, -, heq⟩
  · exact heq.symm ▸ h
  · exact heq.symm ▸ h.close _

theorem mem_entries_makeRoom {x : Entry} (hx : x ∈ s.makeRoom.entries) : x ∈ s.entries := by
  rcases makeRoom_cases s with heq | ⟨oldest, -, heq⟩
  · exact heq ▸ hx
  · exact mem_entries_close (heq ▸ hx)

/-- `connect` for an entry that has neither a socket nor a timeout, if it still is there. -/
theorem Inv.connectNew (h : Inv s) {id : Nat}
    (hnew : ∀ e ∈ s.entries, e.eventKey = key → e.socket = none ∧ e.timer = none)
    (constructs : Bool) : Inv (s.connect key id constructs) := by
  cases howner : s.owner key id with
  | none =>
      rw [Tab.connect, howner]
      exact h
  | some e =>
      obtain ⟨he, hkey, hid⟩ := owner_eq_some.mp howner
      obtain ⟨hsocket, htimer⟩ := hnew e he hkey
      have hconnect := h.connect he hsocket constructs
      rw [htimer, hkey, hid] at hconnect
      exact hconnect

theorem Inv.onInterest (h : Inv s) (key : String) (onLine constructs : Bool) :
    Inv (s.onInterest key onLine constructs) := by
  rw [Tab.onInterest]
  split
  · rename_i existing hget
    exact h.touch (Table.get?_eq_some.mp hget).1 _
  · rename_i hget
    split
    · have hadded := h.added hget
      refine hadded.makeRoom.connectNew (fun e he hkey => ?_) constructs
      rcases Table.mem_put.mp (mem_entries_makeRoom he) with rfl | ⟨hold, hne⟩
      · exact ⟨rfl, rfl⟩
      · exact absurd hkey hne
    · exact h

theorem Inv.timeout (h : Inv s) {i : Nat} {timer : Timer} (hi : s.timers i = some timer)
    (constructs : Bool) :
    Inv (Tab.connect { s with timers := Function.update s.timers i none } timer.eventKey
      timer.entry constructs) := by
  obtain ⟨e, he, hkey, hid⟩ := h.timers i timer hi
  have hown := h.owns e he
  have htimer : e.timer = some i := (hown.timer i).mpr ⟨timer.delayMs, by rw [hi, hkey, hid]⟩
  have hsocket : e.socket = none := hown.waits (by rw [htimer]; exact Option.some_ne_none i)
  have hconnect := h.connect he hsocket constructs
  rw [htimer, hkey, hid] at hconnect
  exact hconnect

theorem Inv.closeEach (h : Inv s) (f : Tab → Entry → Tab)
    (hf : ∀ t e, f t e = t ∨ f t e = t.close e.eventKey) (rows : List Entry) :
    Inv (rows.foldl f s) :=
  foldl_keeps (fun t e ht => by
    rcases hf t e with heq | heq
    · exact heq.symm ▸ ht
    · exact heq.symm ▸ ht.close _) rows h

theorem Inv.step (h : Inv s) {a : Action} (hstep : step s a = some t) : Inv t := by
  cases a with
  | clock nowMs =>
      cases hstep
      exact h.congr rfl rfl rfl rfl rfl
  | start =>
      cases hstep
      exact h.congr rfl rfl rfl rfl rfl
  | stop =>
      simp only [LiveSockets.step] at hstep
      split at hstep
      · cases hstep
        have hstopped : Inv { s with started := false } := h.congr rfl rfl rfl rfl rfl
        exact hstopped.closeEach _ (fun t e => .inr rfl) _
      · cases hstep
  | schedule eventKey played onLine constructs =>
      simp only [LiveSockets.step] at hstep
      split at hstep
      · cases hstep
        exact h.onInterest _ _ _
      · cases hstep
        exact h
  | opened i =>
      obtain ⟨socket, hi, hrest⟩ := Option.bind_eq_some_iff.mp hstep
      split at hrest
      · rename_i hphase
        cases hrest
        exact h.opened hi hphase
      · cases hrest
  | message i version =>
      obtain ⟨socket, hi, hrest⟩ := Option.bind_eq_some_iff.mp hstep
      split at hrest
      · cases hrest
        cases version with
        | none => exact h
        | some version => exact h.applyLiveVersion _ _
      · cases hrest
  | closing i =>
      obtain ⟨socket, hi, hrest⟩ := Option.bind_eq_some_iff.mp hstep
      split at hrest
      · rename_i hphase
        cases hrest
        exact h.setPhase hi (.inr rfl) Phase.noConfusion (hphase ▸ Phase.noConfusion)
          Phase.noConfusion
      · cases hrest
  | closed i code random =>
      obtain ⟨socket, hi, hrest⟩ := Option.bind_eq_some_iff.mp hstep
      split at hrest
      · cases hrest
      · rename_i hphase
        cases hrest
        exact h.closed hi hphase code random
  | timeout i constructs =>
      obtain ⟨timer, hi, hrest⟩ := Option.bind_eq_some_iff.mp hstep
      cases hrest
      exact h.timeout hi constructs
  | sweep =>
      simp only [LiveSockets.step] at hstep
      split at hstep
      · cases hstep
        refine h.closeEach _ (fun t e => ?_) _
        split
        · exact .inr rfl
        · exact .inl rfl
      · cases hstep

theorem inv_of_reachable {ok : Tab → Action → Prop} (h : ReachableWhen system ok s) : Inv s := by
  refine h.invariant (fun s hs => ?_) fun s a t hs _ hstep => hs.step hstep
  obtain ⟨-, hentries, hsockets, htimers, hpings⟩ := hs
  refine ⟨fun e he => ?_, fun i socket hi => ?_, fun i timer hi => ?_, fun p i hp => ?_,
    fun i socket hi => ?_, fun i timer hi => ?_, fun p i hp => ?_⟩
  · rw [hentries] at he
    exact absurd he (Table.notMem_empty e)
  · rw [hsockets] at hi
    cases hi
  · rw [htimers] at hi
    cases hi
  · rw [hpings] at hp
    cases hp
  · rw [hsockets] at hi
    cases hi
  · rw [htimers] at hi
    cases hi
  · rw [hpings] at hp
    cases hp

/-! ### How many there are -/

theorem length_close_le (s : Tab) (key : String) :
    (s.close key).entries.rows.length ≤ s.entries.rows.length := by
  rw [Tab.close]
  split
  · exact le_rfl
  · exact List.length_filter_le _ _

theorem length_close_of_mem (he : e ∈ s.entries) :
    (s.close e.eventKey).entries.rows.length < s.entries.rows.length := by
  rw [Tab.close, Table.get?_eq_some.mpr ⟨he, rfl⟩]
  exact List.length_filter_lt_length_iff_exists.mpr ⟨e, he, by simp⟩

theorem length_put_of_mem {e' : Entry} (he : e ∈ s.entries) (hkey : e'.eventKey = e.eventKey) :
    (s.entries.put e').rows.length = s.entries.rows.length := by
  have hkeys := congrArg List.length
    (Table.map_key_put_of_mem (t := s.entries) ⟨e, he, hkey.symm⟩)
  simpa using hkeys

theorem length_makeRoom (h : s.entries.rows.length ≤ maxSockets + 1) :
    s.makeRoom.entries.rows.length ≤ maxSockets := by
  rw [Tab.makeRoom]
  split
  · rename_i hfull
    cases holdest : s.oldest with
    | none =>
        rw [Tab.oldest, List.head?_eq_none_iff] at holdest
        have hlength := (Places.perm_sortBy Entry.lastInterestMs s.entries.rows).length_eq
        rw [holdest, List.length_nil] at hlength
        omega
    | some oldest =>
        have hless := length_close_of_mem (mem_entries_oldest holdest)
        simp only [Option.map_some, Option.getD_some]
        omega
  · rename_i hroom
    exact Nat.le_of_not_lt hroom

theorem length_connect (s : Tab) (key : String) (id : Nat) (constructs : Bool) :
    (s.connect key id constructs).entries.rows.length = s.entries.rows.length := by
  rw [Tab.connect]
  split
  · rfl
  · rename_i e howner
    obtain ⟨he, -, -⟩ := owner_eq_some.mp howner
    simp only
    split
    · exact length_put_of_mem he rfl
    · exact length_put_of_mem he rfl

theorem started_close (s : Tab) (key : String) : (s.close key).started = s.started := by
  rw [Tab.close]
  split <;> rfl

theorem started_connect (s : Tab) (key : String) (id : Nat) (constructs : Bool) :
    (s.connect key id constructs).started = s.started := by
  rw [Tab.connect]
  split
  · rfl
  · simp only
    split <;> rfl

structure Bounded (s : Tab) : Prop where
  size : s.entries.rows.length ≤ maxSockets
  stopped : s.started = false → s.entries.rows.length = 0

theorem Bounded.of_le (h : Bounded s) (hlength : t.entries.rows.length ≤ s.entries.rows.length)
    (hstarted : t.started = s.started) : Bounded t :=
  ⟨hlength.trans h.size, fun hstop =>
    Nat.le_zero.mp (hlength.trans (h.stopped (hstarted.symm.trans hstop)).le)⟩

theorem Bounded.close (h : Bounded s) (key : String) : Bounded (s.close key) :=
  h.of_le (length_close_le s key) (started_close s key)

theorem Bounded.connect (h : Bounded s) (key : String) (id : Nat) (constructs : Bool) :
    Bounded (s.connect key id constructs) :=
  h.of_le (length_connect s key id constructs).le (started_connect s key id constructs)

theorem started_makeRoom (s : Tab) : s.makeRoom.started = s.started := by
  rcases makeRoom_cases s with heq | ⟨oldest, -, heq⟩
  · rw [heq]
  · rw [heq, started_close]

theorem Bounded.onInterest (h : Bounded s) (hstarted : s.started = true) (key : String)
    (onLine constructs : Bool) : Bounded (s.onInterest key onLine constructs) := by
  rw [Tab.onInterest]
  split
  · rename_i existing hget
    exact h.of_le (le_of_eq (length_put_of_mem (Table.get?_eq_some.mp hget).1 rfl)) rfl
  · split
    · refine Bounded.connect ⟨length_makeRoom ?_, fun hstop => ?_⟩ _ _ _
      · exact (Table.length_put_le _ _).trans (Nat.succ_le_succ h.size)
      · rw [started_makeRoom] at hstop
        exact absurd (hstarted.symm.trans hstop) Bool.noConfusion
    · exact h

theorem length_opened_le (s : Tab) (i : Nat) (socket : Socket) :
    (s.opened i socket).entries.rows.length = s.entries.rows.length := by
  rw [Tab.opened]
  cases howner : s.owner socket.eventKey socket.entry with
  | none => rfl
  | some e => exact length_put_of_mem (owner_eq_some.mp howner).1 rfl

theorem Bounded.closed (h : Bounded s) (i : Nat) (socket : Socket) (code : Nat) (random : ℚ) :
    Bounded (s.closed i socket code random) := by
  rw [Tab.closed]
  split
  · exact h.of_le le_rfl rfl
  · rename_i e howner
    obtain ⟨he, -, -⟩ := owner_eq_some.mp howner
    simp only
    split
    · exact h.of_le (le_of_eq (length_put_of_mem he rfl)) rfl
    · split
      · refine Bounded.close ?_ _
        exact h.of_le (le_of_eq (length_put_of_mem he rfl)) rfl
      · exact h.of_le (le_of_eq (length_put_of_mem he rfl)) rfl

/-- After every entry has been closed none is left. -/
theorem length_closeAll (s : Tab) (rows : List Entry)
    (h : ∀ e ∈ s.entries, ∃ x ∈ rows, x.eventKey = e.eventKey) :
    (rows.foldl (fun t entry => t.close entry.eventKey) s).entries.rows.length = 0 := by
  induction rows generalizing s with
  | nil =>
      refine List.length_eq_zero_iff.mpr (List.eq_nil_iff_forall_not_mem.mpr fun e he => ?_)
      obtain ⟨x, hx, -⟩ := h e he
      cases hx
  | cons first rest ih =>
      refine ih _ fun e he => ?_
      obtain ⟨x, hx, hkey⟩ := h e (mem_entries_close he)
      rcases List.mem_cons.mp hx with rfl | hrest
      · exact absurd hkey.symm (key_ne_of_mem_close he)
      · exact ⟨x, hrest, hkey⟩

theorem Bounded.step (h : Bounded s) {a : Action} (hstep : step s a = some t) : Bounded t := by
  cases a with
  | clock nowMs =>
      cases hstep
      exact ⟨h.size, h.stopped⟩
  | start =>
      cases hstep
      exact ⟨h.size, fun hstop => Bool.noConfusion hstop⟩
  | stop =>
      simp only [LiveSockets.step] at hstep
      split at hstep
      · cases hstep
        have hnone := length_closeAll { s with started := false } s.entries.rows
          fun e he => ⟨e, he, rfl⟩
        exact ⟨hnone.trans_le (Nat.zero_le _), fun _ => hnone⟩
      · cases hstep
  | schedule eventKey played onLine constructs =>
      simp only [LiveSockets.step] at hstep
      split at hstep
      · rename_i hplay
        cases hstep
        exact h.onInterest (Bool.and_eq_true_iff.mp hplay).1 _ _ _
      · cases hstep
        exact h
  | opened i =>
      obtain ⟨socket, hi, hrest⟩ := Option.bind_eq_some_iff.mp hstep
      split at hrest
      · cases hrest
        exact h.of_le (length_opened_le s i socket).le rfl
      · cases hrest
  | message i version =>
      obtain ⟨socket, hi, hrest⟩ := Option.bind_eq_some_iff.mp hstep
      split at hrest
      · cases hrest
        cases version with
        | none => exact h
        | some version =>
            simp only [Option.map_some, Option.getD_some, Tab.applyLiveVersion]
            split
            · exact ⟨h.size, h.stopped⟩
            · exact ⟨h.size, h.stopped⟩
      · cases hrest
  | closing i =>
      obtain ⟨socket, hi, hrest⟩ := Option.bind_eq_some_iff.mp hstep
      split at hrest
      · cases hrest
        exact ⟨h.size, h.stopped⟩
      · cases hrest
  | closed i code random =>
      obtain ⟨socket, hi, hrest⟩ := Option.bind_eq_some_iff.mp hstep
      split at hrest
      · cases hrest
      · cases hrest
        exact h.closed i socket code random
  | timeout i constructs =>
      obtain ⟨timer, hi, hrest⟩ := Option.bind_eq_some_iff.mp hstep
      cases hrest
      have hfired : Bounded { s with timers := Function.update s.timers i none } :=
        ⟨h.size, h.stopped⟩
      exact hfired.connect _ _ _
  | sweep =>
      simp only [LiveSockets.step] at hstep
      split at hstep
      · cases hstep
        refine foldl_keeps (fun t e ht => ?_) _ h
        split
        · exact ht.close _
        · exact ht
      · cases hstep

theorem bounded_of_reachable {ok : Tab → Action → Prop} (h : ReachableWhen system ok s) :
    Bounded s := by
  refine h.invariant (fun s hs => ?_) fun s a t hs _ hstep => hs.step hstep
  obtain ⟨-, hentries, -⟩ := hs
  exact ⟨by rw [hentries]; exact Nat.zero_le _, fun _ => by rw [hentries]; rfl⟩

theorem Inv.live_socket (h : Inv s) {i : Nat} {socket : Socket} (hi : s.sockets i = some socket)
    (hlive : socket.phase.live = true) :
    ∃ e ∈ s.entries, e.eventKey = socket.eventKey ∧ e.socket = some i := by
  obtain ⟨e, he, hkey, hid⟩ := h.sockets i socket hi hlive
  refine ⟨e, he, hkey, ((h.owns e he).socket i).mpr ⟨socket.phase, by rw [hi, hkey, hid], ?_⟩⟩
  intro hclosed
  rw [hclosed] at hlive
  cases hlive

theorem Inv.pending_timer (h : Inv s) {i : Nat} {timer : Timer} (hi : s.timers i = some timer) :
    ∃ e ∈ s.entries, e.eventKey = timer.eventKey ∧ e.timer = some i ∧ e.socket = none ∧
      e.refused = false := by
  obtain ⟨e, he, hkey, hid⟩ := h.timers i timer hi
  have hown := h.owns e he
  have htimer : e.timer = some i := (hown.timer i).mpr ⟨timer.delayMs, by rw [hi, hkey, hid]⟩
  refine ⟨e, he, hkey, htimer, hown.waits (by simp [htimer]), ?_⟩
  by_contra hrefused
  rw [(hown.refused (Bool.not_eq_false _ ▸ hrefused)).2] at htimer
  cases htimer

/-- The sockets held are among those of the entries. -/
theorem Inv.held_le (h : Inv s) {held : List Nat} (hnodup : held.Nodup)
    (hlive : ∀ i ∈ held, ∃ socket, s.sockets i = some socket ∧ socket.phase.live = true) :
    held.length ≤ s.entries.rows.length := by
  have hsub : held.map some ⊆ s.entries.rows.map Entry.socket := by
    intro x hx
    obtain ⟨i, hi, rfl⟩ := List.mem_map.mp hx
    obtain ⟨socket, hsocket, hl⟩ := hlive i hi
    obtain ⟨e, he, -, hei⟩ := h.live_socket hsocket hl
    exact List.mem_map.mpr ⟨e, he, hei⟩
  have hperm := (hnodup.map (Option.some_injective _)).subperm hsub
  simpa using hperm.length_le

/-- However pages, the browser and the server act, a tab holds at most six sockets and one for
an event; each waiting timeout and each ping belongs to an event it follows, a timeout to one
that has no socket; an event that the server refused has neither; and once stopped nothing is
left. -/
theorem tab_sockets (h : Reachable system s) :
    (∀ held : List Nat, held.Nodup → (∀ i ∈ held, ∃ socket, s.sockets i = some socket ∧
      socket.phase.live = true) → held.length ≤ maxSockets) ∧
    (∀ i j socket other, s.sockets i = some socket → s.sockets j = some other →
      socket.phase.live = true → other.phase.live = true → socket.eventKey = other.eventKey →
      i = j) ∧
    (∀ i timer, s.timers i = some timer → ∃ e ∈ s.entries, e.eventKey = timer.eventKey ∧
      e.timer = some i ∧ e.socket = none ∧ e.refused = false) ∧
    (∀ p i, s.pings p = some i → ∃ e ∈ s.entries, e.ping = some p ∧ e.socket = some i) ∧
    (∀ e ∈ s.entries, e.refused = true → (∀ i socket, s.sockets i = some socket →
      socket.eventKey = e.eventKey → socket.phase.live = false) ∧
      ∀ i timer, s.timers i = some timer → timer.eventKey ≠ e.eventKey) ∧
    (s.started = false → (∀ i socket, s.sockets i = some socket → socket.phase.live = false) ∧
      (∀ i, s.timers i = none) ∧ ∀ p, s.pings p = none) := by
  have hinv := inv_of_reachable h
  have hbounded := bounded_of_reachable h
  refine ⟨fun held hnodup hlive => (hinv.held_le hnodup hlive).trans hbounded.size,
    fun i j socket other hi hj hl hl' hkey => ?_, fun i timer hi => hinv.pending_timer hi,
    hinv.pings, fun e he hrefused => ⟨fun i socket hi hkey => ?_, fun i timer hi hkey => ?_⟩,
    fun hstop => ?_⟩
  · obtain ⟨e, he, hek, hei⟩ := hinv.live_socket hi hl
    obtain ⟨e', he', hek', hej⟩ := hinv.live_socket hj hl'
    obtain rfl := Table.eq_of_key he he' (hek.trans (hkey.trans hek'.symm))
    exact Option.some_inj.mp (hei.symm.trans hej)
  · by_contra hlive
    obtain ⟨x, hx, hxkey, hxi⟩ := hinv.live_socket hi (Bool.not_eq_false _ ▸ hlive)
    obtain rfl := Table.eq_of_key hx he (hxkey.trans hkey)
    rw [((hinv.owns x hx).refused hrefused).1] at hxi
    cases hxi
  · obtain ⟨x, hx, hxkey, -, -, hasked⟩ := hinv.pending_timer hi
    obtain rfl := Table.eq_of_key hx he (hxkey.trans hkey)
    exact absurd (hasked.symm.trans hrefused) Bool.noConfusion
  · have hnone : ∀ e, e ∉ s.entries := fun e he =>
      List.ne_nil_of_mem he (List.length_eq_zero_iff.mp (hbounded.stopped hstop))
    refine ⟨fun i socket hi => ?_, fun i => ?_, fun p => ?_⟩
    · by_contra hlive
      obtain ⟨e, he, -⟩ := hinv.live_socket hi (Bool.not_eq_false _ ▸ hlive)
      exact hnone e he
    · cases hi : s.timers i with
      | none => rfl
      | some timer =>
          obtain ⟨e, he, -⟩ := hinv.pending_timer hi
          exact absurd he (hnone e)
    · cases hp : s.pings p with
      | none => rfl
      | some i =>
          obtain ⟨e, he, -⟩ := hinv.pings p i hp
          exact absurd he (hnone e)

/-! ### An event that is followed is listened to -/

/-- The socket can be made, and `Math.random()` is what it should be. -/
def Works (_ : Tab) : Action → Prop
  | .schedule _ _ _ constructs => constructs = true
  | .timeout _ constructs => constructs = true
  | .closed _ _ random => 0 ≤ random ∧ random < 1
  | .clock _ | .start | .stop | .opened _ | .message _ _ | .closing _ | .sweep => True

instance decidableWorks (s : Tab) : ∀ a, Decidable (Works s a)
  | .schedule _ _ _ constructs => inferInstanceAs (Decidable (constructs = true))
  | .timeout _ constructs => inferInstanceAs (Decidable (constructs = true))
  | .closed _ _ random => inferInstanceAs (Decidable (0 ≤ random ∧ random < 1))
  | .clock _ | .start | .stop | .opened _ | .message _ _ | .closing _ | .sweep =>
      .isTrue True.intro

def Entry.Listens (e : Entry) : Prop :=
  e.refused = true ∨ e.socket ≠ none ∨ e.timer ≠ none

def Timer.Soon (timer : Timer) : Prop :=
  1600 ≤ timer.delayMs ∧ timer.delayMs < 72000

structure Follows (s : Tab) : Prop where
  listens : ∀ e ∈ s.entries, e.Listens
  soon : ∀ i timer, s.timers i = some timer → timer.Soon

theorem retryDelay_soon (retries : Nat) {random : ℚ} (hlow : 0 ≤ random) (hhigh : random < 1) :
    1600 ≤ retryDelay retries random ∧ retryDelay retries random < 72000 := by
  have hpow : (1 : ℚ) ≤ 2 ^ retries := one_le_pow₀ (by norm_num)
  have hwait : 2000 ≤ min maxRetryMs (2000 * 2 ^ retries) :=
    le_min (by norm_num [maxRetryMs]) (by linarith)
  have hmost : min maxRetryMs (2000 * 2 ^ retries) ≤ 60000 := min_le_left _ _
  constructor
  · calc (1600 : ℚ) = 2000 * (4 / 5) := by norm_num
      _ ≤ min maxRetryMs (2000 * 2 ^ retries) * (4 / 5 + random * (2 / 5)) :=
        mul_le_mul hwait (by linarith) (by norm_num) (by linarith)
  · calc retryDelay retries random ≤ 60000 * (4 / 5 + random * (2 / 5)) :=
        mul_le_mul_of_nonneg_right hmost (by linarith)
      _ < 72000 := by linarith

theorem Follows.put (h : Follows s) {e' : Entry} (hlistens : e'.Listens)
    (hentries : t.entries = s.entries.put e')
    (htimers : ∀ i timer, t.timers i = some timer → s.timers i = some timer ∨ timer.Soon) :
    Follows t where
  listens x hx := by
    rw [hentries] at hx
    rcases Table.mem_put.mp hx with rfl | ⟨hold, -⟩
    · exact hlistens
    · exact h.listens x hold
  soon i timer hi := (htimers i timer hi).elim (h.soon i timer) id

theorem Follows.close (h : Follows s) (key : String) : Follows (s.close key) where
  listens x hx := h.listens x (mem_entries_close hx)
  soon i timer hi := h.soon i timer (timers_of_close hi)

theorem Follows.touched (h : Follows s) (hentries : t.entries = s.entries)
    (htimers : t.timers = s.timers) : Follows t :=
  ⟨hentries ▸ h.listens, htimers ▸ h.soon⟩

theorem Follows.connect {id : Nat}
    (hlistens : ∀ e ∈ s.entries, e.eventKey = key ∧ e.id = id ∨ e.Listens)
    (hsoon : ∀ i timer, s.timers i = some timer → timer.Soon) :
    Follows (s.connect key id true) := by
  rw [Tab.connect]
  split
  · rename_i howner
    refine ⟨fun e he => (hlistens e he).resolve_left fun hown => ?_, hsoon⟩
    rw [owner_eq_some.mpr ⟨he, hown.1, hown.2⟩] at howner
    cases howner
  · rename_i e howner
    obtain ⟨-, hkey, -⟩ := owner_eq_some.mp howner
    simp only [Bool.true_eq_false, or_false]
    have hothers : ∀ x ∈ s.entries, x.eventKey ≠ e.eventKey → x.Listens := fun x hx hne =>
      (hlistens x hx).resolve_left fun hown => hne (hown.1.trans hkey.symm)
    split
    · rename_i hrefused
      refine ⟨fun x hx => ?_, hsoon⟩
      rcases Table.mem_put.mp hx with rfl | ⟨hold, hne⟩
      · exact .inl hrefused
      · exact hothers x hold hne
    · refine ⟨fun x hx => ?_, hsoon⟩
      rcases Table.mem_put.mp hx with rfl | ⟨hold, hne⟩
      · exact .inr (.inl (Option.some_ne_none _))
      · exact hothers x hold hne

theorem Follows.onInterest (h : Follows s) (key : String) (onLine : Bool) :
    Follows (s.onInterest key onLine true) := by
  rw [Tab.onInterest]
  split
  · rename_i existing hget
    refine h.put ?_ rfl fun _ _ hi => .inl hi
    exact h.listens existing (Table.get?_eq_some.mp hget).1
  · split
    · refine Follows.connect (fun e he => ?_) fun i timer hi => ?_
      · rcases Table.mem_put.mp (mem_entries_makeRoom he) with rfl | ⟨hold, -⟩
        · exact .inl ⟨rfl, rfl⟩
        · exact .inr (h.listens e hold)
      · rcases makeRoom_cases { s.set ⟨key, s.next, none, s.nowMs, 0, none, none, false⟩ with
          next := s.next + 1 } with heq | ⟨oldest, -, heq⟩
        · rw [heq] at hi
          exact h.soon i timer hi
        · rw [heq] at hi
          have hbefore := timers_of_close hi
          exact h.soon i timer hbefore
    · exact h

theorem Follows.closed (h : Follows s) (i : Nat) (socket : Socket) (code : Nat) {random : ℚ}
    (hlow : 0 ≤ random) (hhigh : random < 1) : Follows (s.closed i socket code random) := by
  rw [Tab.closed]
  split
  · exact h.touched rfl rfl
  · rename_i e howner
    obtain ⟨-, hkey, -⟩ := owner_eq_some.mp howner
    simp only
    split
    · exact h.put (.inl rfl) rfl fun _ _ hj => .inl hj
    · split
      · -- the entry without its socket is the one that goes
        refine ⟨fun x hx => ?_, fun j timer hj => ?_⟩
        swap
        · have hbefore := timers_of_close hj
          exact h.soon j timer hbefore
        have hne := key_ne_of_mem_close hx
        rcases Table.mem_put.mp (mem_entries_close hx) with rfl | ⟨hold, -⟩
        · exact absurd hkey hne
        · exact h.listens x hold
      · refine h.put (.inr (.inr (Option.some_ne_none _))) rfl fun j timer hj => ?_
        simp only [Function.update_apply] at hj
        split at hj
        · obtain rfl := Option.some_inj.mp hj
          exact .inr (retryDelay_soon _ hlow hhigh)
        · exact .inl hj

theorem Follows.opened (h : Follows s) (hinv : Inv s) {i : Nat} {socket : Socket}
    (hi : s.sockets i = some socket) (hphase : socket.phase = .connecting) :
    Follows (s.opened i socket) := by
  obtain ⟨e, he, hkey, hid⟩ := hinv.sockets i socket hi (by rw [hphase]; rfl)
  rw [Tab.opened, owner_eq_some.mpr ⟨he, hkey, hid⟩]
  refine h.put ?_ rfl fun _ _ hj => .inl hj
  exact h.listens e he

theorem Follows.step (hinv : Inv s) (h : Follows s) {a : Action} (hok : Works s a)
    (hstep : step s a = some t) : Follows t := by
  cases a with
  | clock nowMs =>
      cases hstep
      exact h.touched rfl rfl
  | start =>
      cases hstep
      exact h.touched rfl rfl
  | stop =>
      simp only [LiveSockets.step] at hstep
      split at hstep
      · cases hstep
        exact foldl_keeps (fun t e ht => ht.close _) _ (h.touched rfl rfl)
      · cases hstep
  | schedule eventKey played onLine constructs =>
      simp only [LiveSockets.step] at hstep
      split at hstep
      · cases hstep
        obtain rfl : constructs = true := hok
        exact h.onInterest _ _
      · cases hstep
        exact h
  | opened i =>
      obtain ⟨socket, hi, hrest⟩ := Option.bind_eq_some_iff.mp hstep
      split at hrest
      · rename_i hphase
        cases hrest
        exact h.opened hinv hi hphase
      · cases hrest
  | message i version =>
      obtain ⟨socket, hi, hrest⟩ := Option.bind_eq_some_iff.mp hstep
      split at hrest
      · cases hrest
        cases version with
        | none => exact h
        | some version =>
            simp only [Option.map_some, Option.getD_some, Tab.applyLiveVersion]
            split
            · exact h.touched rfl rfl
            · exact h.touched rfl rfl
      · cases hrest
  | closing i =>
      obtain ⟨socket, hi, hrest⟩ := Option.bind_eq_some_iff.mp hstep
      split at hrest
      · cases hrest
        exact h.touched rfl rfl
      · cases hrest
  | closed i code random =>
      obtain ⟨socket, hi, hrest⟩ := Option.bind_eq_some_iff.mp hstep
      split at hrest
      · cases hrest
      · cases hrest
        exact h.closed i socket code hok.1 hok.2
  | timeout i constructs =>
      obtain ⟨timer, hi, hrest⟩ := Option.bind_eq_some_iff.mp hstep
      cases hrest
      obtain rfl : constructs = true := hok
      refine Follows.connect (fun e he => ?_) fun j other hj => ?_
      · exact .inr (h.listens e he)
      · simp only [Function.update_apply] at hj
        split at hj
        · cases hj
        · exact h.soon j other hj
  | sweep =>
      simp only [LiveSockets.step] at hstep
      split at hstep
      · cases hstep
        refine foldl_keeps (fun t e ht => ?_) _ h
        split
        · exact ht.close _
        · exact ht
      · cases hstep

theorem follows_of_reachable (h : ReachableWhen system Works s) : Follows s := by
  have hboth : Inv s ∧ Follows s := by
    induction h with
    | start hs =>
        have hreach : Reachable system _ := .start hs
        refine ⟨inv_of_reachable hreach, fun e he => ?_, fun i timer hi => ?_⟩
        · rw [hs.2.1] at he
          exact absurd he (Table.notMem_empty e)
        · rw [hs.2.2.2.1] at hi
          cases hi
    | next _ hok hstep ih => exact ⟨ih.1.step hstep, ih.2.step ih.1 hok hstep⟩
  exact hboth.2

def newTab : Tab where
  nowMs := 0
  started := false
  entries := .empty
  sockets _ := none
  timers _ := none
  pings _ := none
  next := 0
  versions _ := none
  freshUntil _ := none
  updates := []

theorem newTab_started : system.start newTab :=
  ⟨rfl, rfl, fun _ => rfl, fun _ => rfl, fun _ => rfl⟩

/-- Two events are followed; the socket of one is lost, that of the other hears of results. -/
def evening : List Action :=
  let due : List ScheduleMatch := [⟨false, none, some 600, none⟩]
  [.start, .schedule "2026BUSY" due true true, .schedule "2026casj" due true true, .opened 1,
    .opened 3, .message 3 (some "v1"), .message 3 (some "v2"), .closed 1 1006 0]

theorem keys_of_evening : (system.run newTab evening).map (fun s =>
    (s.entries.rows.map (·.eventKey), s.updates)) =
      some (["2026busy", "2026casj"], ["2026casj"]) := by
  decide +kernel

theorem tab_sockets_evening : ∃ s, system.run newTab evening = some s ∧
    s.entries.rows.map (·.eventKey) = ["2026busy", "2026casj"] ∧
    ∀ held : List Nat, held.Nodup → (∀ i ∈ held, ∃ socket, s.sockets i = some socket ∧
      socket.phase.live = true) → held.length ≤ maxSockets := by
  obtain ⟨s, hrun, hkeys⟩ := Option.map_eq_some_iff.mp keys_of_evening
  have hreach : Reachable system s := reachable_of_run evening newTab_started hrun
  exact ⟨s, hrun, congrArg Prod.fst hkeys, (tab_sockets hreach).1⟩

end Frcmob.LiveSockets
