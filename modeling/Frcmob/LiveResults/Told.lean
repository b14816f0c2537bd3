import Frcmob.LiveResults.Counts

/-!
What a viewer has heard. A socket keeps the version it was told last, and the hub tells its
sockets again only when the version it reads differs from the one it told before.
-/

namespace Frcmob.LiveSignal

def Tick.Tells (tick : Tick) (eventKey version : String) : Prop :=
  ∃ sockets latest, tick = .telling eventKey version sockets latest

/-- What holds of one socket. -/
structure Fits (hub : Hub) (i : Nat) (socket : Socket) : Prop where
  /-- Where Redis has what the hub told last, an open socket has heard it or is about to. -/
  told : socket.connected = true → socket.isOpen = true → socket.heard ≠ none →
    ∀ v, hub.versions socket.eventKey = some (some v) →
      hub.store socket.eventKey = some v →
      i ∈ hub.tick.sockets ∨ socket.heard = some (some v)
  /-- A socket of an event that has no version in the hub has yet to read one, or has read the
  one the tick read. -/
  fresh : socket.connected = true → ∀ v, hub.lastRead socket.eventKey = some v →
    hub.versions socket.eventKey = none → (socket.eventKey, some v) ∉ hub.tick.latest →
    socket.phase = .joined ∨ socket.phase = .read (some v)
  telling : ∀ e v, hub.tick.Tells e v → i ∈ hub.tick.sockets → socket.phase ≠ .accepting ∧
    (socket.connected = true → socket.eventKey = e ∧ hub.versions e = some (some v))
  heard : socket.connected = true → socket.heard ≠ none → hub.versions socket.eventKey ≠ none
  listening : socket.phase = .listening → socket.heard ≠ none
  accepting : socket.phase = .accepting → socket.heard = none

structure Told (hub : Hub) : Prop where
  fits : ∀ i socket, hub.conns i = some socket → Fits hub i socket
  known : ∀ i ∈ hub.tick.sockets, hub.conns i ≠ none
  stored : ∀ e v, hub.lastRead e = some v → hub.store e = some v
  read : ∀ e v, hub.lastRead e = some v → (e, some v) ∈ hub.tick.latest ∨
    hub.versions e = some (some v) ∨ hub.versions e = none
  latest : ∀ e v' v, (e, v') ∈ hub.tick.latest → hub.lastRead e = some v → v' = some v

theorem Told.put {hub : Hub} (h : Told hub) {i : Nat} {socket : Socket}
    (hfits : Fits hub i socket) : Told (hub.put i socket) where
  fits j other hj := by
    by_cases hji : j = i
    · subst hji
      rw [conns_put_self, Option.some_inj] at hj
      subst hj
      exact ⟨hfits.told, hfits.fresh, hfits.telling, hfits.heard, hfits.listening,
        hfits.accepting⟩
    · rw [conns_put_of_ne hji] at hj
      have hother := h.fits j other hj
      exact ⟨hother.told, hother.fresh, hother.telling, hother.heard, hother.listening,
        hother.accepting⟩
  known j hj := by
    by_cases hji : j = i
    · subst hji
      rw [conns_put_self]
      exact Option.some_ne_none _
    · rw [conns_put_of_ne hji]
      exact h.known j hj
  stored := h.stored
  read := h.read
  latest := h.latest

/-! ### The steps that keep it so -/

/-- What the hub told last of an event is what Redis has. -/
def UpToDate (hub : Hub) (eventKey : String) : Prop :=
  hub.store eventKey ≠ none ∧ hub.versions eventKey = some (hub.store eventKey)

instance (hub : Hub) (eventKey : String) : Decidable (UpToDate hub eventKey) :=
  inferInstanceAs (Decidable (_ ∧ _))

def Phase.current? : Phase → Option (Option String)
  | .read current => some current
  | .accepting | .joined | .listening | .left => none

/-- A first message carries no older version than the one told last, unless the loop is about
to tell the socket. -/
def FirstIsCurrent (hub : Hub) (i : Nat) : Prop :=
  ∀ socket ∈ hub.conns i, ∀ current ∈ socket.phase.current?, UpToDate hub socket.eventKey →
    current = hub.store socket.eventKey ∨ i ∈ hub.tick.sockets

/-- A message is lost only on a socket that is gone, or has heard the version before, or has
yet to get its first message; or Redis has a newer version by then. -/
def LossIsHarmless (hub : Hub) (i : Nat) : Prop :=
  ∀ socket ∈ hub.conns i, socket.connected = true → socket.isOpen = true →
    socket.heard ≠ none → UpToDate hub socket.eventKey →
      socket.heard = some (hub.store socket.eventKey)

/-- The version noted is not the one that the hub told last, unless every socket that has heard
any has heard that one or is about to. -/
def NoteIsNew (hub : Hub) (eventKey : String) (version : Option String) : Prop :=
  version ≠ hub.store eventKey → version ≠ none → hub.versions eventKey = some version →
    ∀ i ∈ Rosters.at? eventKey hub.sockets, ∀ socket ∈ hub.conns i, socket.isOpen = true →
      socket.heard ≠ none → i ∈ hub.tick.sockets ∨ socket.heard = some version

/-- A socket let in by `accept` still finds room, and the three conditions above. -/
def Careful (worker : Worker) (hub : Hub) : Action → Prop
  | .accept i => ∀ socket ∈ hub.conns i, RoomLeft worker hub socket
  | .firstSend i true => FirstIsCurrent hub i
  | .send i false => LossIsHarmless hub i
  | .note eventKey version => NoteIsNew hub eventKey version
  | _ => True

instance (worker : Worker) (hub : Hub) (action : Action) :
    Decidable (Careful worker hub action) := by
  unfold Careful RoomLeft FirstIsCurrent LossIsHarmless NoteIsNew
  split <;> infer_instance

/-! ### The steps of a socket -/

section Sockets

variable {hub : Hub} {i : Nat} {socket : Socket}

theorem Told.request (h : Told hub) (hi : hub.conns i = none) (e c : String) :
    Told (hub.put i ⟨e, c, .accepting, true, none⟩) := by
  refine h.put ⟨?_, ?_, ?_, ?_, ?_, ?_⟩
  · intro hconnected
    cases hconnected
  · intro hconnected
    cases hconnected
  · intro e v _ hin
    exact absurd hi (h.known i hin)
  · intro hconnected
    cases hconnected
  · intro hphase
    cases hphase
  · intro _
    rfl

theorem Told.join (h : Told hub) (hi : hub.conns i = some socket)
    (hphase : socket.phase = .accepting) : Told (hub.join i socket) := by
  have hsocket := h.fits i socket hi
  have hunheard := hsocket.accepting hphase
  have hput : Told (hub.put i { socket with phase := .joined }) := by
    refine h.put ⟨?_, ?_, ?_, ?_, ?_, ?_⟩
    · intro _ _ hheard
      exact absurd hunheard hheard
    · intro _ _ _ _ _
      exact .inl rfl
    · intro e v htells hin
      exact absurd hphase (hsocket.telling e v htells hin).1
    · intro _ hheard
      exact absurd hunheard hheard
    · intro hlistening
      cases hlistening
    · intro _
      exact hunheard
  exact ⟨fun j other hj => ⟨(hput.fits j other hj).told, (hput.fits j other hj).fresh,
    (hput.fits j other hj).telling, (hput.fits j other hj).heard,
    (hput.fits j other hj).listening, (hput.fits j other hj).accepting⟩, hput.known,
    hput.stored, hput.read, hput.latest⟩

theorem Told.readVersion (h : Told hub) (hi : hub.conns i = some socket)
    (hphase : socket.phase = .joined) :
    Told (hub.put i { socket with phase := .read (hub.store socket.eventKey) }) := by
  have hsocket := h.fits i socket hi
  have hconnected : socket.connected = true := by rw [Socket.connected, hphase]; rfl
  refine h.put ⟨fun _ => hsocket.told hconnected, ?_, ?_, fun _ => hsocket.heard hconnected,
    ?_, ?_⟩
  · intro _ v hread _ _
    exact .inr (congrArg Phase.read (h.stored _ v hread))
  · intro e v htells hin
    have htelling := (hsocket.telling e v htells hin).2 hconnected
    exact ⟨Phase.noConfusion, fun _ => htelling⟩
  · intro hlistening
    cases hlistening
  · intro haccepting
    cases haccepting

theorem Told.close (h : Told hub) (hi : hub.conns i = some socket) :
    Told (hub.put i { socket with isOpen := false }) := by
  have hsocket := h.fits i socket hi
  refine h.put ⟨?_, hsocket.fresh, hsocket.telling, hsocket.heard, hsocket.listening,
    hsocket.accepting⟩
  intro _ hopen
  cases hopen

/-- A socket that is no longer served. -/
theorem fits_left (hub : Hub) (i : Nat) (socket : Socket) :
    Fits hub i { socket with phase := .left } := by
  refine ⟨?_, ?_, ?_, ?_, ?_, ?_⟩
  · intro hconnected
    cases hconnected
  · intro hconnected
    cases hconnected
  · intro e v _ _
    exact ⟨Phase.noConfusion, fun hconnected => by cases hconnected⟩
  · intro hconnected
    cases hconnected
  · intro hlistening
    cases hlistening
  · intro haccepting
    cases haccepting

theorem Told.leave (h : Told hub) (hcounted : Counted hub) (hi : hub.conns i = some socket)
    (hconnected : socket.connected = true) : Told (hub.leave i socket) := by
  have hmember : hub.member i = some (socket.eventKey, socket.client) := by
    rw [member_of_conns hi, if_pos hconnected]
  have hput := h.put (fits_left hub i socket)
  by_cases hempty :
      Rosters.at? socket.eventKey (Rosters.discard socket.eventKey i hub.sockets) = ∅
  · have hversions : (hub.leave i socket).versions =
        Function.update hub.versions socket.eventKey none := by
      simp only [Hub.leave, if_pos hempty]
    have hnobody := (hcounted.leave hmember).lists.ne_of_empty hempty
    -- nobody is left at the event whose version goes
    have hother : ∀ j other, (hub.leave i socket).conns j = some other →
        other.connected = true → (hub.leave i socket).versions other.eventKey =
          hub.versions other.eventKey ∧ other.eventKey ≠ socket.eventKey := by
      intro j other hj hother
      have hne : other.eventKey ≠ socket.eventKey := by
        intro heq
        apply hnobody j
        rw [Hub.memberEvent, member_of_conns hj, if_pos hother, ← heq]
        rfl
      rw [hversions, Function.update_of_ne hne]
      exact ⟨rfl, hne⟩
    refine ⟨?_, hput.known, h.stored, ?_, h.latest⟩
    · intro j other hj
      have hfits := hput.fits j other hj
      refine ⟨?_, ?_, ?_, ?_, hfits.listening, hfits.accepting⟩
      · intro hc hopen hheard v hv
        rw [(hother j other hj hc).1] at hv
        exact hfits.told hc hopen hheard v hv
      · intro hc v hread hnone
        rw [(hother j other hj hc).1] at hnone
        exact hfits.fresh hc v hread hnone
      · intro e v htells hin
        have htelling := hfits.telling e v htells hin
        refine ⟨htelling.1, fun hc => ?_⟩
        obtain ⟨heq, hv⟩ := htelling.2 hc
        subst heq
        rw [(hother j other hj hc).1]
        exact ⟨rfl, hv⟩
      · intro hc hheard
        rw [(hother j other hj hc).1]
        exact hfits.heard hc hheard
    · intro e v hread
      rw [hversions]
      by_cases he : e = socket.eventKey
      · subst he
        exact .inr (.inr (Function.update_self ..))
      · rw [Function.update_of_ne he]
        exact h.read e v hread
  · have hversions : (hub.leave i socket).versions = hub.versions := by
      simp only [Hub.leave, if_neg hempty]
    refine ⟨?_, hput.known, h.stored, ?_, h.latest⟩
    · intro j other hj
      have hfits := hput.fits j other hj
      exact ⟨by rw [hversions]; exact hfits.told, by rw [hversions]; exact hfits.fresh,
        by rw [hversions]; exact hfits.telling, by rw [hversions]; exact hfits.heard,
        hfits.listening, hfits.accepting⟩
    · rw [hversions]
      exact h.read

theorem Told.setdefault (h : Told hub) (hi : hub.conns i = some socket)
    {current : Option String} (hphase : socket.phase = .read current) :
    Told (hub.setdefault socket.eventKey current) := by
  unfold Hub.setdefault
  split
  case isFalse => exact h
  case isTrue hnone =>
    have hconnected : socket.connected = true := by rw [Socket.connected, hphase]; rfl
    -- what was in the hub stays
    have hkept : ∀ e version, hub.versions e = some version →
        Function.update hub.versions socket.eventKey (some current) e = some version := by
      intro e version hv
      rw [Function.update_of_ne]
      · exact hv
      · intro heq
        rw [heq, hnone] at hv
        cases hv
    refine ⟨?_, h.known, h.stored, ?_, h.latest⟩
    · intro j other hj
      have hother := h.fits j other hj
      refine ⟨?_, ?_, ?_, ?_, hother.listening, hother.accepting⟩
      · intro hc hopen hheard v hv
        have hne : other.eventKey ≠ socket.eventKey := by
          intro heq
          exact hother.heard hc hheard (heq ▸ hnone)
        simp only [Function.update_of_ne hne] at hv
        exact hother.told hc hopen hheard v hv
      · intro hc v hread hv
        by_cases heq : other.eventKey = socket.eventKey
        · simp only [heq, Function.update_self] at hv
          cases hv
        · simp only [Function.update_of_ne heq] at hv
          exact hother.fresh hc v hread hv
      · intro e v htells hin
        have htelling := hother.telling e v htells hin
        exact ⟨htelling.1, fun hc => ⟨(htelling.2 hc).1, hkept _ _ (htelling.2 hc).2⟩⟩
      · intro hc hheard
        obtain ⟨version, hv⟩ := Option.ne_none_iff_exists'.mp (hother.heard hc hheard)
        simp only [hkept _ _ hv]
        exact Option.some_ne_none _
    · intro e v hread
      by_cases he : e = socket.eventKey
      · subst he
        by_cases hin : (socket.eventKey, some v) ∈ hub.tick.latest
        · exact .inl hin
        · refine .inr (.inl ?_)
          have hfresh := (h.fits i socket hi).fresh hconnected v hread hnone hin
          rw [hphase] at hfresh
          cases hfresh with
          | inl hjoined => cases hjoined
          | inr hsame =>
              cases hsame
              exact Function.update_self ..
      · simp only [Function.update_of_ne he]
        exact h.read e v hread

theorem Told.firstSend (h : Told hub) (hi : hub.conns i = some socket)
    {current : Option String} (hphase : socket.phase = .read current)
    (hcurrent : FirstIsCurrent hub i) :
    Told ((hub.setdefault socket.eventKey current).put i
      { socket with phase := .listening, heard := some current }) := by
  have hconnected : socket.connected = true := by rw [Socket.connected, hphase]; rfl
  have hset := h.setdefault hi hphase
  have hconns : (hub.setdefault socket.eventKey current).conns i = some socket := by
    rwa [conns_setdefault]
  have hsocket := hset.fits i socket hconns
  have hversion : (hub.setdefault socket.eventKey current).versions socket.eventKey =
      some ((hub.versions socket.eventKey).getD current) := by
    unfold Hub.setdefault
    cases hv : hub.versions socket.eventKey with
    | none => rw [if_pos rfl]; exact Function.update_self ..
    | some version => rw [if_neg (Option.some_ne_none _)]; exact hv
  have hothers : (hub.setdefault socket.eventKey current).store = hub.store ∧
      (hub.setdefault socket.eventKey current).tick = hub.tick := by
    unfold Hub.setdefault
    split <;> exact ⟨rfl, rfl⟩
  refine hset.put ⟨?_, ?_, ?_, ?_, ?_, ?_⟩
  · intro _ _ _ v hv hstore
    rw [hversion, Option.some_inj] at hv
    rw [hothers.1] at hstore
    rw [hothers.2]
    cases hold : hub.versions socket.eventKey with
    | none =>
        rw [hold, Option.getD_none] at hv
        exact .inr (congrArg some hv)
    | some version =>
        rw [hold, Option.getD_some] at hv
        have hupToDate : UpToDate hub socket.eventKey := by
          refine ⟨by rw [hstore]; exact Option.some_ne_none v, ?_⟩
          rw [hold, hv, hstore]
        cases hcurrent socket hi current (by rw [hphase]; rfl) hupToDate with
        | inl hsame => exact .inr (by rw [hsame, hstore])
        | inr hin => exact .inl hin
  · intro _ v _ hnone
    rw [hversion] at hnone
    cases hnone
  · intro e v htells hin
    have htelling := (hsocket.telling e v htells hin).2 hconnected
    exact ⟨Phase.noConfusion, fun _ => htelling⟩
  · intro _ _
    rw [hversion]
    exact Option.some_ne_none _
  · intro _
    exact Option.some_ne_none _
  · intro haccepting
    cases haccepting

end Sockets

/-! ### The steps of the loop, and of Redis -/

section Loop

variable {hub : Hub}

/-- A step of the loop that neither reads nor tells. -/
theorem Told.retick (h : Told hub) {tick : Tick} (hsockets : hub.tick.sockets = ∅)
    (hnone : tick.sockets = ∅) (hlatest : tick.latest = hub.tick.latest) :
    Told { hub with tick := tick } where
  fits i socket hi := by
    have hsocket := h.fits i socket hi
    refine ⟨?_, ?_, ?_, hsocket.heard, hsocket.listening, hsocket.accepting⟩
    · intro hc hopen hheard v hv hstore
      have htold := hsocket.told hc hopen hheard v hv hstore
      rw [hsockets] at htold
      exact .inr (htold.resolve_left (Finset.notMem_empty i))
    · intro hc v hread hv hin
      exact hsocket.fresh hc v hread hv (hlatest ▸ hin)
    · intro e v _ hin
      rw [hnone] at hin
      exact absurd hin (Finset.notMem_empty i)
  known i hin := by
    rw [hnone] at hin
    exact absurd hin (Finset.notMem_empty i)
  stored := h.stored
  read e v hread := by
    rw [hlatest]
    exact h.read e v hread
  latest e v' v hin := by
    rw [hlatest] at hin
    exact h.latest e v' v hin

theorem Told.readLatest (h : Told hub) {events : List String}
    (htick : hub.tick = .reading events) : Told (hub.readLatest events) := by
  have hlatest : ∀ e v, (e, v) ∈ (hub.readLatest events).tick.latest ↔
      e ∈ events ∧ hub.store e = v := by
    intro e v
    simp only [Hub.readLatest, Tick.latest, List.mem_map, Prod.mk.injEq]
    constructor
    · rintro ⟨e, he, rfl, rfl⟩
      exact ⟨he, rfl⟩
    · rintro ⟨he, rfl⟩
      exact ⟨e, he, rfl, rfl⟩
  have hread : ∀ e, (hub.readLatest events).lastRead e =
      if e ∈ events then hub.store e else hub.lastRead e := fun _ => rfl
  constructor
  case fits =>
    intro i socket hi
    have hsocket := h.fits i socket hi
    refine ⟨?_, ?_, ?_, hsocket.heard, hsocket.listening, hsocket.accepting⟩
    · intro hc hopen hheard v hv hstore
      have htold := hsocket.told hc hopen hheard v hv hstore
      rw [htick] at htold
      exact .inr (htold.resolve_left (Finset.notMem_empty i))
    · intro hc v hlast hv hnot
      rw [hread] at hlast
      rw [hlatest, not_and] at hnot
      by_cases he : socket.eventKey ∈ events
      · rw [if_pos he] at hlast
        exact absurd hlast (hnot he)
      · rw [if_neg he] at hlast
        exact hsocket.fresh hc v hlast hv (by rw [htick]; exact List.not_mem_nil)
    · intro e v htells
      obtain ⟨_, _, hcontra⟩ := htells
      cases hcontra
  case known =>
    intro i hin
    exact absurd hin (Finset.notMem_empty i)
  case stored =>
    intro e v hlast
    rw [hread] at hlast
    split at hlast
    · exact hlast
    · exact h.stored e v hlast
  case read =>
    intro e v hlast
    rw [hread] at hlast
    rw [hlatest]
    split at hlast
    · rename_i he
      exact .inl ⟨he, hlast⟩
    · have hbefore := h.read e v hlast
      rw [htick] at hbefore
      exact .inr (hbefore.resolve_left List.not_mem_nil)
  case latest =>
    intro e v' v hin hlast
    rw [hlatest] at hin
    rw [hread, if_pos hin.1, hin.2] at hlast
    exact hlast

theorem Told.compare (h : Told hub) (hcounted : Counted hub) {e : String}
    {version : Option String} {latest : List (String × Option String)}
    (htick : hub.tick = .comparing ((e, version) :: latest)) :
    Told (hub.compare e version latest) := by
  have hnobody : ∀ i, i ∉ hub.tick.sockets := by
    intro i
    rw [htick]
    exact Finset.notMem_empty i
  have hcons : ∀ e' v, (e', v) ∈ hub.tick.latest ↔
      (e' = e ∧ v = version) ∨ (e', v) ∈ latest := by
    intro e' v
    rw [htick, Tick.latest, List.mem_cons, Prod.mk.injEq]
  have htold : ∀ i socket, hub.conns i = some socket → socket.connected = true →
      socket.isOpen = true → socket.heard ≠ none → ∀ v,
      hub.versions socket.eventKey = some (some v) → hub.store socket.eventKey = some v →
      socket.heard = some (some v) := by
    intro i socket hi hc hopen hheard v hv hstore
    exact ((h.fits i socket hi).told hc hopen hheard v hv hstore).resolve_left (hnobody i)
  -- the event is passed over: it has no version, or the one that was told before
  have hskip : (∀ v, version = some v → hub.versions e = some (some v)) →
      Told { hub with tick := .comparing latest } := by
    intro hversion
    constructor
    case fits =>
      intro i socket hi
      have hsocket := h.fits i socket hi
      refine ⟨?_, ?_, ?_, hsocket.heard, hsocket.listening, hsocket.accepting⟩
      · intro hc hopen hheard v hv hstore
        exact .inr (htold i socket hi hc hopen hheard v hv hstore)
      · intro hc v hread hv hnot
        refine hsocket.fresh hc v hread hv ?_
        rw [hcons]
        rintro (⟨he, hsame⟩ | hin)
        · rw [he, hversion v hsame.symm] at hv
          cases hv
        · exact hnot hin
      · rintro e' v' ⟨_, _, hcontra⟩
        cases hcontra
    case known =>
      intro i hin
      exact absurd hin (Finset.notMem_empty i)
    case stored => exact h.stored
    case read =>
      intro e' v hread
      cases h.read e' v hread with
      | inl hin =>
          rw [hcons] at hin
          rcases hin with ⟨rfl, hsame⟩ | hin
          · exact .inr (.inl (hversion v hsame.symm))
          · exact .inl hin
      | inr hversions => exact .inr hversions
    case latest =>
      intro e' v' v hin
      exact h.latest e' v' v ((hcons e' v').mpr (.inr hin))
  unfold Hub.compare
  cases version with
  | none => exact hskip (by simp)
  | some version =>
      simp only
      split
      · rename_i hsame
        refine hskip fun v hv => ?_
        cases hv
        exact hsame
      · -- everyone in the set of the event is told
        have hmem : ∀ i socket, hub.conns i = some socket → socket.connected = true →
            socket.eventKey = e → i ∈ Rosters.at? e hub.sockets := by
          intro i socket hi hc he
          rw [hcounted.lists.mem, Hub.memberEvent, member_of_conns hi, if_pos hc, ← he]
          rfl
        constructor
        case fits =>
          intro i socket hi
          have hsocket := h.fits i socket hi
          refine ⟨?_, ?_, ?_, ?_, hsocket.listening, hsocket.accepting⟩
          · intro hc hopen hheard v hv hstore
            by_cases he : socket.eventKey = e
            · exact .inl (hmem i socket hi hc he)
            · simp only [Function.update_of_ne he] at hv
              exact .inr (htold i socket hi hc hopen hheard v hv hstore)
          · intro hc v hread hv hnot
            by_cases he : socket.eventKey = e
            · simp only [he, Function.update_self] at hv
              cases hv
            · simp only [Function.update_of_ne he] at hv
              refine hsocket.fresh hc v hread hv ?_
              rw [hcons]
              rintro (⟨heq, -⟩ | hin)
              · exact he heq
              · exact hnot hin
          · rintro e' v' ⟨_, _, htells⟩ hin
            cases htells
            change i ∈ Rosters.at? e hub.sockets at hin
            have hmember : hub.member i = _ := @member_of_conns hub i socket hi
            rw [hcounted.lists.mem, Hub.memberEvent, hmember] at hin
            by_cases hc : socket.connected = true
            · rw [if_pos hc] at hin
              refine ⟨?_, fun _ => ⟨Option.some.inj hin, Function.update_self ..⟩⟩
              intro haccepting
              rw [Socket.connected, haccepting] at hc
              cases hc
            · rw [if_neg hc] at hin
              cases hin
          · intro hc hheard
            by_cases he : socket.eventKey = e
            · simp only [he, Function.update_self]
              exact Option.some_ne_none _
            · simp only [Function.update_of_ne he]
              exact hsocket.heard hc hheard
        case known =>
          intro i hin
          change i ∈ Rosters.at? e hub.sockets at hin
          rw [hcounted.lists.mem] at hin
          intro hnone
          rw [Hub.memberEvent, Hub.member, hnone] at hin
          cases hin
        case stored => exact h.stored
        case read =>
          intro e' v hread
          by_cases he : e' = e
          · subst he
            have hsame := h.latest e' (some version) v ((hcons _ _).mpr (.inl ⟨rfl, rfl⟩)) hread
            cases hsame
            exact .inr (.inl (Function.update_self ..))
          · simp only [Function.update_of_ne he]
            cases h.read e' v hread with
            | inl hin =>
                rw [hcons] at hin
                exact .inl (hin.resolve_left fun heq => he heq.1)
            | inr hversions => exact .inr hversions
        case latest =>
          intro e' v' v hin
          exact h.latest e' v' v ((hcons e' v').mpr (.inr hin))

/-- The send to a socket is over, whatever became of it. -/
theorem Told.erase (h : Told hub) {i : Nat} {e v : String} {sockets : Finset Nat}
    {latest : List (String × Option String)} (htick : hub.tick = .telling e v sockets latest)
    (hown : ∀ socket, hub.conns i = some socket → socket.connected = true →
      socket.isOpen = true → socket.heard ≠ none → ∀ w,
      hub.versions socket.eventKey = some (some w) → hub.store socket.eventKey = some w →
      socket.heard = some (some w)) :
    Told { hub with tick := .telling e v (sockets.erase i) latest } := by
  have hlatest : hub.tick.latest = latest := by rw [htick]; rfl
  have hsockets : hub.tick.sockets = sockets := by rw [htick]; rfl
  constructor
  case fits =>
    intro j socket hj
    have hsocket := h.fits j socket hj
    refine ⟨?_, ?_, ?_, hsocket.heard, hsocket.listening, hsocket.accepting⟩
    · intro hc hopen hheard w hw hstore
      by_cases hji : j = i
      · subst hji
        exact .inr (hown socket hj hc hopen hheard w hw hstore)
      · cases hsocket.told hc hopen hheard w hw hstore with
        | inl hin => exact .inl (Finset.mem_erase.mpr ⟨hji, hsockets ▸ hin⟩)
        | inr hsame => exact .inr hsame
    · intro hc w hread hnone hnot
      exact hsocket.fresh hc w hread hnone (by rw [hlatest]; exact hnot)
    · rintro e' v' ⟨_, _, htells⟩ hin
      cases htells
      exact hsocket.telling e v ⟨sockets, latest, htick⟩
        (by rw [hsockets]; exact Finset.mem_of_mem_erase hin)
  case known =>
    intro j hin
    exact h.known j (by rw [hsockets]; exact Finset.mem_of_mem_erase hin)
  case stored => exact h.stored
  case read => exact fun e' w hread => hlatest ▸ h.read e' w hread
  case latest => exact fun e' w' w hin => h.latest e' w' w (by rw [hlatest]; exact hin)

theorem Told.send (h : Told hub) {i : Nat} {e v : String} {sockets : Finset Nat}
    {latest : List (String × Option String)} {socket : Socket}
    (htick : hub.tick = .telling e v sockets latest) (hi : hub.conns i = some socket)
    (hmem : i ∈ sockets) :
    Told (({ hub with tick := .telling e v (sockets.erase i) latest } : Hub).put i
      { socket with heard := some (some v) }) := by
  have hin : i ∈ hub.tick.sockets := by rw [htick]; exact hmem
  have hsocket := h.fits i socket hi
  have htelling := hsocket.telling e v ⟨sockets, latest, htick⟩ hin
  have hput : Told (hub.put i { socket with heard := some (some v) }) := by
    refine h.put ⟨fun _ _ _ _ _ _ => .inl hin, hsocket.fresh, hsocket.telling, ?_, ?_, ?_⟩
    · intro hc _
      obtain ⟨he, hv⟩ := htelling.2 hc
      rw [he, hv]
      exact Option.some_ne_none _
    · intro _
      exact Option.some_ne_none _
    · intro haccepting
      exact absurd haccepting htelling.1
  refine hput.erase (i := i) htick fun other hother hc _ _ w hw _ => ?_
  rw [conns_put_self, Option.some_inj] at hother
  subst hother
  obtain ⟨he, hv⟩ := htelling.2 hc
  have hsame : some (some w) = some (some v) := by
    rw [← hw, ← hv, ← he]
    rfl
  rw [hsame]

theorem Told.note (h : Told hub) (hcounted : Counted hub) {e : String} {v : Option String}
    (hnew : NoteIsNew hub e v) : Told (hub.note e v) := by
  unfold Hub.note
  split
  case isTrue => exact h
  case isFalse hne =>
    -- nothing is known of the event until a tick reads it again
    have hread : ∀ e' w, Function.update hub.lastRead e none e' = some w →
        e' ≠ e ∧ hub.lastRead e' = some w := by
      intro e' w hw
      by_cases he : e' = e
      · rw [he, Function.update_self] at hw
        cases hw
      · rw [Function.update_of_ne he] at hw
        exact ⟨he, hw⟩
    constructor
    case fits =>
      intro i socket hi
      have hsocket := h.fits i socket hi
      refine ⟨?_, ?_, hsocket.telling, hsocket.heard, hsocket.listening, hsocket.accepting⟩
      · intro hc hopen hheard w hw hstore
        by_cases he : socket.eventKey = e
        · simp only [he, Function.update_self] at hstore
          rw [he] at hw
          have hin : i ∈ Rosters.at? e hub.sockets := by
            have hmember : hub.member i = _ := @member_of_conns hub i socket hi
            rw [hcounted.lists.mem, Hub.memberEvent, hmember, if_pos hc, ← he]
            rfl
          rw [← hstore]
          exact hnew (Ne.symm hne) (by rw [hstore]; exact Option.some_ne_none w)
            (by rw [hw, hstore]) i hin socket hi hopen hheard
        · simp only [Function.update_of_ne he] at hstore
          exact hsocket.told hc hopen hheard w hw hstore
      · intro hc w hlast
        exact hsocket.fresh hc w (hread _ w hlast).2
    case known => exact h.known
    case stored =>
      intro e' w hlast
      obtain ⟨he, hlast⟩ := hread e' w hlast
      simp only [Function.update_of_ne he]
      exact h.stored e' w hlast
    case read => exact fun e' w hlast => h.read e' w (hread e' w hlast).2
    case latest => exact fun e' w' w hin hlast => h.latest e' w' w hin (hread e' w hlast).2

end Loop

/-! ### Runs -/

theorem Told.step {worker : Worker} {hub next : Hub} {action : Action} (h : Told hub)
    (hcounted : Counted hub) (hcareful : Careful worker hub action)
    (heffect : Effect worker hub action next) : Told next := by
  cases heffect with
  | refused => exact h
  | requested hi _ => exact h.request hi ..
  | accepted hi hphase => exact h.join hi hphase
  | versionRead hi hphase => exact h.readVersion hi hphase
  | firstSent hi hphase _ => exact h.firstSend hi hphase hcareful
  | firstLost hi hphase =>
      refine (h.setdefault hi hphase).leave (hcounted.setdefault ..) ?_ ?_
      · rwa [conns_setdefault]
      · rw [Socket.connected, hphase]
        rfl
  | left hi hconnected => exact h.leave hcounted hi hconnected
  | gaveUp => exact h.put (fits_left ..)
  | closed hi => exact h.close hi
  | noted => exact h.note hcounted hcareful
  | tickStarted htick => exact h.retick (by rw [htick]; rfl) rfl (by rw [htick]; rfl)
  | tickRead htick => exact h.readLatest htick
  | tickFailed htick => exact h.retick (by rw [htick]; rfl) rfl (by rw [htick]; rfl)
  | compared htick => exact h.compare hcounted htick
  | sent htick hi hmem _ => exact h.send htick hi hmem
  | lost htick hi hmem =>
      refine h.erase htick fun socket hsocket hc hopen hheard w hw hstore => ?_
      have hupToDate : UpToDate hub socket.eventKey := by
        refine ⟨by rw [hstore]; exact Option.some_ne_none w, ?_⟩
        rw [hw, hstore]
      rw [← hstore]
      exact hcareful socket hsocket hc hopen hheard hupToDate
  | allTold htick => exact h.retick (by rw [htick]; rfl) rfl (by rw [htick]; rfl)
  | tickDone htick => exact h.retick (by rw [htick]; rfl) rfl (by rw [htick]; rfl)

theorem told_of_started {hub : Hub} (h : Started hub) : Told hub := by
  obtain ⟨-, -, -, hconns, htick, hread⟩ := h
  constructor
  case fits =>
    intro i socket hi
    rw [hconns] at hi
    cases hi
  case known =>
    intro i hin
    rw [htick] at hin
    exact absurd hin (Finset.notMem_empty i)
  case latest =>
    intro e v' v hin
    rw [htick] at hin
    exact absurd hin List.not_mem_nil
  all_goals
    intro e v hlast
    rw [hread] at hlast
    cases hlast

theorem capped_of_started {worker : Worker} {hub : Hub} (h : Started hub) :
    Capped worker hub := by
  refine ⟨?_, fun c => ?_⟩
  · rw [Hub.socketCount, h.1]
    exact Nat.zero_le _
  · rw [h.2.2.1]
    exact Nat.zero_le _

theorem told_of_reachable {worker : Worker} {hub : Hub}
    (h : Transition.ReachableWhen (system worker) (Careful worker) hub) :
    (Told hub ∧ Capped worker hub) ∧ Counted hub := by
  refine h.invariant (P := fun hub => (Told hub ∧ Capped worker hub) ∧ Counted hub)
    (fun hub hstart => ⟨⟨told_of_started hstart, capped_of_started hstart⟩,
      counted_of_started hstart⟩) ?_
  rintro hub action next ⟨⟨htold, hcapped⟩, hcounted⟩ hcareful hstep
  have heffect := effect_of_step hstep
  refine ⟨⟨htold.step hcounted hcareful heffect, hcapped.step heffect ?_⟩,
    hcounted.step heffect⟩
  rintro i socket rfl hi
  exact hcareful socket hi

/-- A tick has yet to compare the version it read of an event, or to tell a socket of it. -/
def Tick.Concerns (tick : Tick) (eventKey : String) : Prop :=
  (∃ version, (eventKey, version) ∈ tick.latest) ∨
    ((∃ version, tick.Tells eventKey version) ∧ tick.sockets ≠ ∅)

/-- What a hub is for. -/
structure Sound (worker : Worker) (hub : Hub) : Prop where
  /-- A tick has read a version, no other has been noted since, and nothing of the tick is
  left to do: whoever has had a message had one with that version last, and that is every
  socket whose first message is not still to come. -/
  viewers : ∀ e v, hub.lastRead e = some v → ¬ hub.tick.Concerns e →
    ∀ i socket, hub.conns i = some socket → socket.connected = true → socket.isOpen = true →
      socket.eventKey = e → socket.phase = .listening ∨ socket.heard ≠ none →
        socket.heard = some (some v)
  total : hub.socketCount = {i | hub.member i ≠ none}.ncard
  clients : ∀ c, hub.perClient c = {i | ∃ e, hub.member i = some (e, c)}.ncard
  capped : Capped worker hub

theorem Told.viewers {hub : Hub} (h : Told hub) {e v : String} (hread : hub.lastRead e = some v)
    (hdone : ¬ hub.tick.Concerns e) {i : Nat} {socket : Socket}
    (hi : hub.conns i = some socket) (hc : socket.connected = true)
    (hopen : socket.isOpen = true) (he : socket.eventKey = e) (hheard : socket.heard ≠ none) :
    socket.heard = some (some v) := by
  subst he
  have hsocket := h.fits i socket hi
  have hversion : hub.versions socket.eventKey = some (some v) := by
    rcases h.read _ v hread with hin | hversion | hnone
    · exact absurd (.inl ⟨_, hin⟩) hdone
    · exact hversion
    · exact absurd hnone (hsocket.heard hc hheard)
  cases hsocket.told hc hopen hheard v hversion (h.stored _ v hread) with
  | inr hsame => exact hsame
  | inl hin =>
      exfalso
      cases htick : hub.tick with
      | telling e' v' sockets latest =>
          have htells : hub.tick.Tells e' v' := ⟨sockets, latest, htick⟩
          obtain ⟨he', -⟩ := (hsocket.telling e' v' htells hin).2 hc
          refine hdone (.inr ⟨⟨v', by rw [he']; exact htells⟩, ?_⟩)
          exact Finset.nonempty_iff_ne_empty.mp ⟨i, hin⟩
      | _ =>
          rw [htick] at hin
          exact Finset.notMem_empty i hin

/-- A hub none of whose steps leaves a viewer behind does what it is for. -/
theorem sound_of_careful {worker : Worker} {hub : Hub}
    (h : Transition.ReachableWhen (system worker) (Careful worker) hub) : Sound worker hub := by
  obtain ⟨⟨htold, hcapped⟩, hcounted⟩ := told_of_reachable h
  constructor
  case viewers =>
    intro e v hread hdone i socket hi hc hopen he hheard
    have hsome : socket.heard ≠ none :=
      hheard.elim (htold.fits i socket hi).listening id
    exact htold.viewers hread hdone hi hc hopen he hsome
  case total =>
    rw [Hub.socketCount, hcounted.lists.total_eq]
    congr 1
    ext i
    simp [Hub.memberEvent]
  case clients =>
    intro c
    rw [hcounted.tally.count]
    congr 1
    ext i
    simp [Hub.memberClient]
  case capped => exact hcapped

/-! ### Two runs -/

def plainWorker : Worker := ⟨none, Char.isDigit⟩

def emptyHub : Hub where
  sockets := []
  versions _ := none
  perClient _ := 0
  conns _ := none
  store _ := none
  tick := .idle
  lastRead _ := none

theorem emptyHub_started : Started emptyHub :=
  ⟨rfl, fun _ => rfl, fun _ => rfl, fun _ => rfl, rfl, fun _ => rfl⟩

/-- A socket gets its first message, and then hears of a change. -/
def toldRun : List Action :=
  [.note "2026txhou" (some "a"), .request 0 "2026txhou" "1.1.1.1", .accept 0, .readVersion 0,
    .firstSend 0 true, .note "2026txhou" (some "b"), .tickStart, .tickRead, .compare,
    .send 0 true, .told, .tickDone]

theorem sound_of_careful_toldRun :
    ∃ hub, (system plainWorker).run emptyHub toldRun = some hub ∧
      hub.lastRead "2026txhou" = some "b" ∧ Sound plainWorker hub := by
  refine ⟨_, rfl, by decide +kernel, sound_of_careful ?_⟩
  exact Transition.reachableWhen_of_run toldRun (.start emptyHub_started)
    (by decide +kernel) rfl

/-- A socket has read a version; the loop tells it of the next; and then it sends its first
message, with the version it has read. -/
def lateFirstRun : List Action :=
  [.note "2026txhou" (some "a"), .request 0 "2026txhou" "1.1.1.1", .accept 0, .readVersion 0,
    .note "2026txhou" (some "b"), .tickStart, .tickRead, .compare, .send 0 true, .told,
    .tickDone, .firstSend 0 true]

theorem viewer_left_behind :
    ∃ hub, Transition.Reachable (system plainWorker) hub ∧ ¬ Sound plainWorker hub := by
  refine ⟨_, Transition.reachable_of_run lateFirstRun emptyHub_started rfl, fun h => ?_⟩
  have hheard := h.viewers "2026txhou" "b" (by decide +kernel) ?_ 0
    ⟨"2026txhou", "1.1.1.1", .listening, true, some (some "a")⟩ (by decide +kernel)
    (by decide) (by decide) rfl (.inl rfl)
  · exact absurd hheard (by decide)
  · rintro (⟨_, hin⟩ | ⟨-, hne⟩)
    · exact absurd hin List.not_mem_nil
    · exact hne rfl

/-- Two sockets ask for the one place that is left, and both are let in. -/
def crowdedRun : List Action :=
  [.request 0 "2026txhou" "1.1.1.1", .request 1 "2026txhou" "2.2.2.2", .accept 0, .accept 1]

theorem cap_passed :
    ∃ hub, Transition.Reachable (system ⟨some 513, Char.isDigit⟩) hub ∧
      ¬ Capped ⟨some 513, Char.isDigit⟩ hub := by
  refine ⟨_, Transition.reachable_of_run crowdedRun emptyHub_started rfl, fun h => ?_⟩
  exact absurd h.1 (by decide +kernel)

end Frcmob.LiveSignal
