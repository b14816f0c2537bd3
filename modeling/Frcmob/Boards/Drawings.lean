import Frcmob.Boards.Board

/-!
What becomes of a drawing: it waits to be saved, or is the content of the version that the board
holds, or a teammate has saved since. So it is in every run in which no board is drawn on while
it has not heard of a save of its own, and no first load is answered after a drawing.
-/

namespace Frcmob.Boards
open Versioned Transition

namespace Board

/-- The latest drawing of the board, where it can be. -/
def Kept (store : BoardStore) (id : Nat) (b : Board) : Prop :=
  ∀ drawing drawnOn, b.latest = some (drawing, drawnOn) →
    b.pending = some drawing ∨ Holds store b.version drawing.strokes ∨
      OtherAfter store id drawnOn

structure FlightOk (store : BoardStore) (b : Board) (f : Flight) : Prop where
  busy : b.inFlight = true
  version : f.version = b.version
  made : f.sending.id < b.drawn
  normal : normalizeStrokes f.sending.strokes = f.sending.strokes
  -- a timer runs during a save only if there are newer strokes to send
  newer : b.pending = some f.sending → b.saveTimer = none
  refused : ∀ r, f.answer = some r → r.conflict = true →
    b.version < r.version ∧ r.version ≤ store.length
  taken : ∀ r, f.answer = some r → r.conflict = false →
    r.version = b.version + 1 ∧ Holds store (b.version + 1) f.sending.strokes

/-- An open board. Only the save on its way and a lost answer leave versions that the board has
not heard of and that are its own. -/
structure Inv (store : BoardStore) (id : Nat) (b : Board) : Prop where
  bound : b.version ≤ store.length
  flights : ∀ f ∈ b.flights, b.FlightOk store f
  idle : b.inFlight = false → b.flights = []
  sending : b.flights ≠ [] → b.pending ≠ none
  dirty : b.dirty = b.pending.isSome
  timer : b.saveTimer ≠ none → b.pending ≠ none
  pending : ∀ p, b.pending = some p → ∃ drawnOn, b.latest = some (p, drawnOn)
  latest : ∀ p drawnOn, b.latest = some (p, drawnOn) →
    drawnOn ≤ b.version ∧ normalizeStrokes p.strokes = p.strokes ∧ p.id < b.drawn
  untouched : b.latest = none → b.flights = [] ∧
    ∀ (i : Nat) v, store[i]? = some v → v.author ≠ id
  own : ∀ (i : Nat) v, store[i]? = some v → v.author = id → b.version ≤ i →
    i = b.version ∧ (b.lostWrite = true ∨ ∃ f ∈ b.flights, f.committed = true)
  lost : b.lostWrite = true → (∀ f ∈ b.flights, f.committed = false) ∧
    ∃ p, b.pending = some p ∧ Holds store (b.version + 1) p.strokes
  loads : ∀ l ∈ b.loads, ∀ a, l.answer = some a → a.1 ≤ store.length
  kept : b.Kept store id

section Steps
variable {store store' : BoardStore} {id : Nat} {b c : Board}

theorem FlightOk.mono {f : Flight} (h : b.FlightOk store f) (hgrows : store <+: store') :
    b.FlightOk store' f where
  busy := h.busy
  version := h.version
  made := h.made
  normal := h.normal
  newer := h.newer
  refused r hr hc :=
    ⟨(h.refused r hr hc).1, Nat.le_trans (h.refused r hr hc).2 hgrows.length_le⟩
  taken r hr hc := ⟨(h.taken r hr hc).1, (h.taken r hr hc).2.of_grown hgrows⟩

/-- A version that another board adds changes nothing for this one. -/
theorem Inv.mono (h : b.Inv store id) (hgrows : store <+: store')
    (hnew : ∀ (i : Nat) v, store'[i]? = some v → store[i]? = some v ∨ v.author ≠ id) :
    b.Inv store' id where
  bound := Nat.le_trans h.bound hgrows.length_le
  flights f hf := (h.flights f hf).mono hgrows
  idle := h.idle
  sending := h.sending
  dirty := h.dirty
  timer := h.timer
  pending := h.pending
  latest := h.latest
  untouched hlatest := ⟨(h.untouched hlatest).1, fun i v hv =>
    (hnew i v hv).elim ((h.untouched hlatest).2 i v) (fun hother => hother)⟩
  own i v hv hauthor hi := (hnew i v hv).elim (fun hold => h.own i v hold hauthor hi)
    fun hother => absurd hauthor hother
  lost hlost := by
    obtain ⟨hflights, p, hp, hholds⟩ := h.lost hlost
    exact ⟨hflights, p, hp, hholds.of_grown hgrows⟩
  loads l hl a ha := Nat.le_trans (h.loads l hl a ha) hgrows.length_le
  kept p drawnOn hlatest := by
    cases h.kept p drawnOn hlatest with
    | inl hpending => exact .inl hpending
    | inr hkept =>
        cases hkept with
        | inl hholds => exact .inr (.inl (hholds.of_grown hgrows))
        | inr hother => exact .inr (.inr (hother.of_grown hgrows))

/-- What the board shows, and its loads, do not matter to its saves. -/
theorem Inv.shown (h : b.Inv store id) (hc : c = { b with
      drawing := c.drawing, strokes := c.strokes, status := c.status, loads := c.loads })
    (hloads : ∀ l ∈ c.loads, ∀ a, l.answer = some a → a.1 ≤ store.length) : c.Inv store id := by
  rw [hc]
  exact {
    bound := h.bound
    flights := fun f hf => by
      have hok := h.flights f hf
      exact ⟨hok.busy, hok.version, hok.made, hok.normal, hok.newer, hok.refused, hok.taken⟩
    idle := h.idle
    sending := h.sending
    dirty := h.dirty
    timer := h.timer
    pending := h.pending
    latest := h.latest
    untouched := h.untouched
    own := h.own
    lost := h.lost
    loads := hloads
    kept := h.kept }

theorem Inv.commit (h : b.Inv store id) {next : List StrategyStroke}
    (hnormal : normalizeStrokes next = next) (hlost : b.lostWrite = false) :
    (b.commit next).Inv store id where
  bound := h.bound
  flights f hf := by
    have hok := h.flights f hf
    refine ⟨hok.busy, hok.version, Nat.lt_succ_of_lt hok.made, hok.normal, fun heq => ?_,
      hok.refused, hok.taken⟩
    have hid : b.drawn = f.sending.id := by
      simp only [Board.commit, Board.save, Option.some.injEq] at heq
      rw [← heq]
    exact absurd hok.made (by omega)
  idle := h.idle
  sending _ := by simp [Board.commit, Board.save]
  dirty := rfl
  timer _ := by simp [Board.commit, Board.save]
  pending p hp := by
    simp only [Board.commit, Board.save, Option.some.injEq] at hp ⊢
    exact ⟨b.version, by rw [hp]⟩
  latest p drawnOn hlatest := by
    simp only [Board.commit, Board.save, Option.some.injEq, Prod.mk.injEq] at hlatest ⊢
    obtain ⟨rfl, rfl⟩ := hlatest
    exact ⟨Nat.le_refl _, hnormal, Nat.lt_succ_self _⟩
  untouched hlatest := by simp [Board.commit, Board.save] at hlatest
  own := h.own
  lost htrue := by
    simp only [Board.commit, Board.save] at htrue
    rw [hlost] at htrue
    cases htrue
  loads := h.loads
  kept p drawnOn hlatest := by
    simp only [Board.commit, Board.save, Option.some.injEq, Prod.mk.injEq] at hlatest ⊢
    exact .inl hlatest.1

theorem Inv.save (h : b.Inv store id) {p : Drawing} (hp : b.pending = some p)
    (hnewer : ∀ f ∈ b.flights, f.sending ≠ p) (retry : Bool) : (b.save p retry).Inv store id where
  bound := h.bound
  flights f hf := by
    have hok := h.flights f hf
    refine ⟨hok.busy, hok.version, hok.made, hok.normal, fun heq => ?_, hok.refused, hok.taken⟩
    exact absurd (Option.some.inj heq).symm (hnewer f hf)
  idle := h.idle
  sending _ := by simp [Board.save]
  dirty := rfl
  timer _ := by simp [Board.save]
  pending q hq := h.pending q (hp.trans hq)
  latest := h.latest
  untouched := h.untouched
  own := h.own
  lost hlost := by
    obtain ⟨hflights, q, hq, hholds⟩ := h.lost hlost
    exact ⟨hflights, q, hp.symm.trans hq, hholds⟩
  loads := h.loads
  kept q drawnOn hlatest := (h.kept q drawnOn hlatest).imp_left fun hq => hp.symm.trans hq

theorem Inv.fireTimer (h : b.Inv store id) {next : Drawing} (hnext : b.saveTimer = some next) :
    (b.fireTimer next).Inv store id := by
  obtain ⟨p, hp⟩ := Option.ne_none_iff_exists'.mp (h.timer (by rw [hnext]; simp))
  have hstopped : ({ b with saveTimer := none } : Board).Inv store id := {
    bound := h.bound
    flights := fun f hf => by
      have hok := h.flights f hf
      exact ⟨hok.busy, hok.version, hok.made, hok.normal, fun _ => rfl, hok.refused, hok.taken⟩
    idle := h.idle
    sending := h.sending
    dirty := h.dirty
    timer := fun hne => absurd rfl hne
    pending := h.pending
    latest := h.latest
    untouched := h.untouched
    own := h.own
    lost := h.lost
    loads := h.loads
    kept := h.kept }
  have hsending : b.pending.getD next = p := by rw [hp, Option.getD_some]
  simp only [Board.fireTimer, hsending]
  split
  · refine hstopped.save hp (fun f hf heq => ?_) false
    have hnone := (h.flights f hf).newer (by rw [hp, heq])
    rw [hnext] at hnone
    cases hnone
  next hidle =>
    have hflights : b.flights = [] := h.idle (by simpa using hidle)
    obtain ⟨drawnOn, hlatest⟩ := h.pending p hp
    obtain ⟨hdrawn, hnormal, hmade⟩ := h.latest p drawnOn hlatest
    exact {
      bound := h.bound
      flights := fun f hf => by
        simp only [Board.send, hflights, List.nil_append, List.mem_singleton] at hf
        subst hf
        exact ⟨rfl, rfl, hmade, hnormal, fun _ => rfl, by simp, by simp⟩
      idle := fun hfalse => by cases hfalse
      sending := fun _ => by simp [Board.send, hp]
      dirty := h.dirty
      timer := fun hne => absurd rfl hne
      pending := h.pending
      latest := h.latest
      untouched := fun hnone => by
        simp only [Board.send] at hnone
        rw [hlatest] at hnone
        cases hnone
      own := fun i v hv hauthor hi => by
        obtain ⟨heq, hown⟩ := h.own i v hv hauthor hi
        refine ⟨heq, hown.imp_right fun hsent => ?_⟩
        obtain ⟨f, hf, _⟩ := hsent
        rw [hflights] at hf
        cases hf
      lost := fun hlost => by
        refine ⟨fun f hf => ?_, (h.lost hlost).2⟩
        simp only [Board.send, hflights, List.nil_append, List.mem_singleton] at hf
        subst hf
        rfl
      loads := h.loads
      kept := h.kept }

theorem eq_singleton {α : Type} {l : List α} {i : Nat} {a : α} (hlen : l.length ≤ 1)
    (h : l[i]? = some a) : l = [a] ∧ i = 0 := by
  cases l with
  | nil => simp at h
  | cons x xs =>
      cases xs with
      | nil =>
          cases i with
          | zero => simpa using h
          | succ n => simp at h
      | cons y ys => simp at hlen

/-- The server serves the save: it is taken, on the version that the board holds, or refused. -/
theorem Inv.serve (h : b.Inv store id) {f : Flight} (hflights : b.flights = [f])
    (hunserved : f.answer = none) :
    let served := putStrategyBoard store id f.version f.sending.strokes
    ({ b with flights := [{ f with answer := some served.2 }] } : Board).Inv served.1 id := by
  have hf := h.flights f (by simp [hflights])
  obtain ⟨p, hp⟩ := Option.ne_none_iff_exists'.mp (h.sending (by simp [hflights]))
  obtain ⟨drawnOn, hlatest⟩ := h.pending p hp
  have hgrows : store <+: (putStrategyBoard store id f.version f.sending.strokes).1 := put_grown
  intro served
  have hown : ∀ (i : Nat) v, store[i]? = some v → v.author = id → b.version ≤ i →
      i = b.version ∧ b.lostWrite = true := by
    intro i v hv hauthor hi
    obtain ⟨heq, hwhere⟩ := h.own i v hv hauthor hi
    refine ⟨heq, hwhere.resolve_right fun hsent => ?_⟩
    obtain ⟨g, hg, hcommitted⟩ := hsent
    rw [hflights, List.mem_singleton] at hg
    subst hg
    simp [Flight.committed, hunserved] at hcommitted
  by_cases hcurrent : f.version = store.length
  · have hput : putStrategyBoard store id f.version f.sending.strokes =
        (store ++ [⟨id, f.version, f.sending.strokes⟩],
          ⟨false, store.length + 1, f.sending.strokes⟩) := by
      simp [putStrategyBoard, put, hcurrent, hf.normal]
    have hlength : store.length = b.version := hcurrent.symm.trans hf.version
    have hkept : b.lostWrite = false := by
      by_contra hne
      obtain ⟨_, q, _, i, v, hi, hv, _⟩ := h.lost (by simpa using hne)
      have := (List.getElem?_eq_some_iff.mp hv).1
      omega
    rw [hput] at hgrows
    simp only [served, hput]
    exact {
      bound := Nat.le_trans h.bound hgrows.length_le
      flights := fun g hg => by
        rw [List.mem_singleton.mp hg]
        refine ⟨hf.busy, hf.version, hf.made, hf.normal, hf.newer, fun r hr hc => ?_,
          fun r hr _ => ?_⟩
        · cases hr
          cases hc
        · cases hr
          refine ⟨by rw [hlength], b.version, ⟨id, f.version, f.sending.strokes⟩, rfl, ?_, rfl⟩
          simp [← hlength]
      idle := fun hfalse => by
        have hidle := h.idle hfalse
        rw [hflights] at hidle
        cases hidle
      sending := fun _ => by simp [hp]
      dirty := h.dirty
      timer := h.timer
      pending := h.pending
      latest := h.latest
      untouched := fun hnone => by
        rw [show b.latest = none from hnone] at hlatest
        cases hlatest
      own := fun i v hv hauthor hi => by
        by_cases hlt : i < store.length
        · rw [List.getElem?_append_left hlt] at hv
          have hlost := (hown i v hv hauthor hi).2
          rw [hkept] at hlost
          cases hlost
        · have hbound := (List.getElem?_eq_some_iff.mp hv).1
          simp only [List.length_append, List.length_cons, List.length_nil] at hbound
          exact ⟨by show i = b.version; omega, .inr ⟨_, List.mem_cons_self, rfl⟩⟩
      lost := fun hlost => by
        rw [show b.lostWrite = true from hlost] at hkept
        cases hkept
      loads := fun l hl a ha => Nat.le_trans (h.loads l hl a ha) hgrows.length_le
      kept := fun q d hq => .inl (by
        obtain ⟨d', hd'⟩ := h.pending p hp
        rw [show b.latest = some (q, d) from hq] at hd'
        cases hd'
        exact hp) }
  · have hlt : b.version < store.length := by
      have := h.bound
      have := hf.version
      omega
    have hne : store ≠ [] := List.ne_nil_of_length_pos (by omega)
    have hput : putStrategyBoard store id f.version f.sending.strokes =
        (store, ⟨true, store.length, current [] store⟩) := by
      simp [putStrategyBoard, put, hcurrent]
    simp only [served, hput]
    exact {
      bound := h.bound
      flights := fun g hg => by
        rw [List.mem_singleton.mp hg]
        refine ⟨hf.busy, hf.version, hf.made, hf.normal, hf.newer, fun r hr _ => ?_,
          fun r hr hc => ?_⟩
        · cases hr
          exact ⟨hlt, Nat.le_refl _⟩
        · cases hr
          cases hc
      idle := fun hfalse => by
        have hidle := h.idle hfalse
        rw [hflights] at hidle
        cases hidle
      sending := fun _ => by simp [hp]
      dirty := h.dirty
      timer := h.timer
      pending := h.pending
      latest := h.latest
      untouched := fun hnone => by
        rw [show b.latest = none from hnone] at hlatest
        cases hlatest
      own := fun i v hv hauthor hi => by
        obtain ⟨heq, hlost⟩ := hown i v hv hauthor hi
        exact ⟨heq, .inl hlost⟩
      lost := fun hlost => by
        refine ⟨fun g hg => ?_, (h.lost hlost).2⟩
        rw [List.mem_singleton.mp hg]
        rfl
      loads := h.loads
      kept := h.kept }

/-- A board that has heard of all its saves, and has none on its way. -/
theorem Inv.settled (h : b.Inv store id) (hflights : c.flights = [])
    (hversion : b.version ≤ c.version)
    (hbound : c.version ≤ store.length) (hdirty : c.dirty = c.pending.isSome)
    (htimer : c.saveTimer ≠ none → c.pending ≠ none)
    (hpending : ∀ p, c.pending = some p → b.pending = some p)
    (hlatest : c.latest = b.latest ∧ c.drawn = b.drawn) (hloads : c.loads = b.loads)
    (hown : ∀ (i : Nat) v, store[i]? = some v → v.author = id → b.version ≤ i → i < c.version)
    (hlost : c.lostWrite = false) (hkept : c.Kept store id) : c.Inv store id where
  bound := hbound
  flights f hf := by
    rw [hflights] at hf
    cases hf
  idle _ := hflights
  sending hne := absurd hflights hne
  dirty := hdirty
  timer := htimer
  pending p hp := by
    rw [hlatest.1]
    exact h.pending p (hpending p hp)
  latest p drawnOn hp := by
    rw [hlatest.1] at hp
    obtain ⟨hdrawn, hnormal, hmade⟩ := h.latest p drawnOn hp
    exact ⟨Nat.le_trans hdrawn hversion, hnormal, hlatest.2 ▸ hmade⟩
  untouched hnone := ⟨hflights, (h.untouched (hlatest.1 ▸ hnone)).2⟩
  own i v hv hauthor hi := by
    have := hown i v hv hauthor (Nat.le_trans hversion hi)
    omega
  lost htrue := by
    rw [hlost] at htrue
    cases htrue
  loads l hl := h.loads l (hloads ▸ hl)
  kept := hkept

theorem Inv.no_lost_of_committed (h : b.Inv store id) {f : Flight} (hf : f ∈ b.flights)
    (hcommitted : f.committed = true) : b.lostWrite = false := by
  by_contra hne
  have hnone := (h.lost (by simpa using hne)).1 f hf
  rw [hcommitted] at hnone
  cases hnone

theorem committed_iff {f : Flight} {r : SaveStrategyBoardResult} (hr : f.answer = some r) :
    f.committed = !r.conflict := by
  rw [Flight.committed, hr, Option.any_some]

theorem Inv.taken (h : b.Inv store id) {f : Flight} (hflights : b.flights = [f])
    {r : SaveStrategyBoardResult} (hr : f.answer = some r) (hconflict : r.conflict = false) :
    ({ b with flights := [] }.answered f r).Inv store id := by
  have hmem : f ∈ b.flights := by simp [hflights]
  have hf := h.flights f hmem
  obtain ⟨hversion, hholds⟩ := hf.taken r hr hconflict
  have hlost := h.no_lost_of_committed hmem (by rw [committed_iff hr, hconflict]; rfl)
  have hbound : b.version + 1 ≤ store.length := by
    obtain ⟨i, v, hi, hv, _⟩ := hholds
    have := (List.getElem?_eq_some_iff.mp hv).1
    omega
  have hown : ∀ (i : Nat) v, store[i]? = some v → v.author = id → b.version ≤ i →
      i < b.version + 1 := by
    intro i v hv hauthor hi
    have := (h.own i v hv hauthor hi).1
    omega
  obtain ⟨p, hp⟩ := Option.ne_none_iff_exists'.mp (h.sending (by simp [hflights]))
  simp only [Board.answered, hconflict, Bool.false_eq_true, if_false, hversion]
  split
  · refine h.settled rfl (Nat.le_succ _) hbound h.dirty h.timer (fun _ hq => hq) ⟨rfl, rfl⟩ rfl
      hown hlost fun q drawnOn hq => .inl ?_
    obtain ⟨drawnOn', hlatest⟩ := h.pending p hp
    rw [show b.latest = some (q, drawnOn) from hq, Option.some.injEq, Prod.mk.injEq] at hlatest
    rw [hlatest.1]
    exact hp
  next hsame =>
    have hsending : b.pending = some f.sending := by simpa using hsame
    have htimer : b.saveTimer = none := hf.newer hsending
    refine h.settled rfl (Nat.le_succ _) hbound rfl (fun hne => absurd htimer hne)
      (fun _ hq => by cases hq) ⟨rfl, rfl⟩ rfl hown hlost fun q drawnOn hq => .inr (.inl ?_)
    obtain ⟨drawnOn', hlatest⟩ := h.pending f.sending hsending
    rw [show b.latest = some (q, drawnOn) from hq, Option.some.injEq, Prod.mk.injEq] at hlatest
    rw [hlatest.1]
    exact hholds

theorem Inv.refused (h : b.Inv store id) {f : Flight} (hflights : b.flights = [f])
    {r : SaveStrategyBoardResult} (hr : f.answer = some r) (hconflict : r.conflict = true) :
    ({ b with flights := [] }.answered f r).Inv store id := by
  have hmem : f ∈ b.flights := by simp [hflights]
  obtain ⟨hversion, hbound⟩ := (h.flights f hmem).refused r hr hconflict
  have hown : ∀ (i : Nat) v, store[i]? = some v → v.author = id → b.version ≤ i →
      i = b.version ∧ b.lostWrite = true := by
    intro i v hv hauthor hi
    obtain ⟨heq, hwhere⟩ := h.own i v hv hauthor hi
    refine ⟨heq, hwhere.resolve_right fun hsent => ?_⟩
    obtain ⟨g, hg, hcommitted⟩ := hsent
    rw [hflights, List.mem_singleton] at hg
    rw [hg, committed_iff hr, hconflict] at hcommitted
    cases hcommitted
  simp only [Board.answered, hconflict, if_true]
  refine h.settled rfl (Nat.le_of_lt hversion) hbound rfl (fun hne => absurd rfl hne)
    (fun _ hq => by cases hq) ⟨rfl, rfl⟩ rfl (fun i v hv hauthor hi => ?_) rfl
    fun q drawnOn hq => .inr ?_
  · rw [(hown i v hv hauthor hi).1]
    exact hversion
  · -- the version before the one answered: a teammate's, or the save whose answer was lost
    obtain ⟨p, hp⟩ := Option.ne_none_iff_exists'.mp (h.sending (by simp [hflights]))
    obtain ⟨drawnOn', hlatest⟩ := h.pending p hp
    rw [show b.latest = some (q, drawnOn) from hq, Option.some.injEq, Prod.mk.injEq] at hlatest
    have hdrawn := (h.latest q drawnOn hq).1
    have hentry : r.version - 1 < store.length := by omega
    by_cases hauthor : store[r.version - 1].author = id
    · obtain ⟨heq, hlost⟩ := hown (r.version - 1) _ (List.getElem?_eq_getElem hentry) hauthor
        (by omega)
      obtain ⟨_, p', hp', hholds⟩ := h.lost hlost
      rw [hp, Option.some.injEq] at hp'
      have hnext : r.version = b.version + 1 := by omega
      rw [← hp', ← hlatest.1, ← hnext] at hholds
      exact .inl hholds
    · exact .inr ⟨r.version - 1, _, by omega, List.getElem?_eq_getElem hentry, hauthor⟩

theorem Inv.failed (h : b.Inv store id) {f : Flight} (hflights : b.flights = [f])
    (hok : f.committed = true → b.pending = some f.sending) :
    ({ b with flights := [] }.failed f).Inv store id := by
  have hmem : f ∈ b.flights := by simp [hflights]
  obtain ⟨p, hp⟩ := Option.ne_none_iff_exists'.mp (h.sending (by simp [hflights]))
  obtain ⟨drawnOn, hlatest⟩ := h.pending p hp
  have hcommitted : ∀ g ∈ b.flights, g.committed = true → f.committed = true := by
    intro g hg hcommitted
    rw [hflights, List.mem_singleton] at hg
    rwa [hg] at hcommitted
  have hfailed : ({ b with
      flights := []
      inFlight := false
      status := .error
      lostWrite := b.lostWrite || f.committed } : Board).Inv store id := {
    bound := h.bound
    flights := fun g hg => by cases hg
    idle := fun _ => rfl
    sending := fun hne => absurd rfl hne
    dirty := h.dirty
    timer := h.timer
    pending := h.pending
    latest := h.latest
    untouched := fun hnone => ⟨rfl, (h.untouched hnone).2⟩
    own := fun i v hv hauthor hi => by
      obtain ⟨heq, hwhere⟩ := h.own i v hv hauthor hi
      refine ⟨heq, .inl ?_⟩
      cases hwhere with
      | inl hlost => simp [hlost]
      | inr hsent =>
          obtain ⟨g, hg, hg'⟩ := hsent
          simp [hcommitted g hg hg']
    lost := fun hlost => by
      refine ⟨fun g hg => (by cases hg), ?_⟩
      cases hbefore : b.lostWrite with
      | true => exact (h.lost hbefore).2
      | false =>
          have hf : f.committed = true := by simpa [hbefore] using hlost
          cases hanswer : f.answer with
          | none => simp [Flight.committed, hanswer] at hf
          | some r =>
              have hconflict : r.conflict = false := by
                simpa [committed_iff hanswer] using hf
              exact ⟨f.sending, hok hf, ((h.flights f hmem).taken r hanswer hconflict).2⟩
    loads := h.loads
    kept := h.kept }
  have hstep : { b with flights := [] }.failed f = ({ b with
      flights := []
      inFlight := false
      status := .error
      lostWrite := b.lostWrite || f.committed } : Board).save p true := by
    simp only [Board.failed, hp]
  rw [hstep]
  exact hfailed.save hp (fun g hg => by cases hg) true

theorem Inv.loaded (h : b.Inv store id) {load : Load} {version : Nat}
    {strokes : List StrategyStroke} (hbound : version ≤ store.length)
    (hok : load.initial = true → b.latest = none) :
    (b.loaded load version strokes).Inv store id := by
  unfold Board.loaded
  split
  · exact h
  · split
    next hinitial =>
      obtain ⟨hflights, huntouched⟩ := h.untouched (hok hinitial)
      have hpending : b.pending = none := by
        by_contra hne
        obtain ⟨p, hp⟩ := Option.ne_none_iff_exists'.mp hne
        obtain ⟨drawnOn, hlatest⟩ := h.pending p hp
        rw [hok hinitial] at hlatest
        cases hlatest
      have hlost : b.lostWrite = false := by
        by_contra hne
        obtain ⟨_, p, hp, _⟩ := h.lost (by simpa using hne)
        rw [hpending] at hp
        cases hp
      exact {
        bound := hbound
        flights := fun f hf => by
          rw [show b.flights = [] from hflights] at hf
          cases hf
        idle := h.idle
        sending := h.sending
        dirty := h.dirty
        timer := h.timer
        pending := h.pending
        latest := fun p drawnOn hp => by
          rw [show b.latest = some (p, drawnOn) from hp] at hok
          cases hok hinitial
        untouched := h.untouched
        own := fun i v hv hauthor _ => absurd hauthor (huntouched i v hv)
        lost := fun htrue => by
          rw [show b.lostWrite = true from htrue] at hlost
          cases hlost
        loads := h.loads
        kept := fun p drawnOn hp => by
          rw [show b.latest = some (p, drawnOn) from hp] at hok
          cases hok hinitial }
    · split
      next hrefresh =>
        have hpending : b.pending = none := by
          simpa [h.dirty] using hrefresh.1
        have hflights : b.flights = [] := by
          by_contra hne
          exact h.sending hne hpending
        have hown : ∀ (i : Nat) v, store[i]? = some v → v.author = id → ¬ b.version ≤ i := by
          intro i v hv hauthor hi
          cases (h.own i v hv hauthor hi).2 with
          | inl hlost =>
              obtain ⟨_, p, hp, _⟩ := h.lost hlost
              rw [hpending] at hp
              cases hp
          | inr hsent =>
              obtain ⟨f, hf, _⟩ := hsent
              rw [hflights] at hf
              cases hf
        have hlost : b.lostWrite = false := by
          by_contra hne
          obtain ⟨_, p, hp, _⟩ := h.lost (by simpa using hne)
          rw [hpending] at hp
          cases hp
        refine h.settled hflights (Nat.le_of_lt hrefresh.2) hbound h.dirty h.timer (fun _ hq => hq)
          ⟨rfl, rfl⟩ rfl (fun i v hv hauthor hi => absurd hi (hown i v hv hauthor)) hlost
          fun p drawnOn hp => .inr (.inr ?_)
        have hentry : version - 1 < store.length := by omega
        have hdrawn := (h.latest p drawnOn hp).1
        refine ⟨version - 1, _, by omega, List.getElem?_eq_getElem hentry, fun hauthor => ?_⟩
        exact hown _ _ (List.getElem?_eq_getElem hentry) hauthor (by omega)
      · exact h

/-! ### One step of a board -/

/-- What the user draws is as the server stores it, on a board that knows of all its saves; a
save that the server took is not lost after a newer drawing; and the first load is answered
before the first drawing. -/
def Ok (b : Board) : BoardAction → Prop
  | .fail i => ∀ f ∈ b.flights[i]?, b.isOpen → f.committed → b.pending = some f.sending
  | .answerLoad i => ∀ load ∈ b.loads[i]?, b.isOpen → load.initial → b.latest = none
  | action => ∀ next ∈ b.drawn? action, normalizeStrokes next = next ∧ b.lostWrite = false

/-- Of any board, open or closed. -/
structure Good (store : BoardStore) (id : Nat) (b : Board) : Prop where
  one : b.flights.length ≤ 1
  stopped : b.isOpen = false → b.saveTimer = none
  inv : b.isOpen = true → b.Inv store id

theorem wayOut_one {result : Option SaveStrategyBoardResult} (h : b.flights = []) :
    (b.wayOut result).flights.length ≤ 1 ∧ (b.wayOut result).isOpen = b.isOpen ∧
      (b.wayOut result).saveTimer = b.saveTimer := by
  unfold Board.wayOut
  split
  · simp [h]
  · split
    · split
      · simp [h]
      · simp [Board.send, h]
    · simp [Board.send, h]

theorem answered_fields (f : Flight) (r : SaveStrategyBoardResult) :
    (b.answered f r).flights = b.flights ∧ (b.answered f r).isOpen = b.isOpen := by
  simp only [Board.answered]
  split
  · exact ⟨rfl, rfl⟩
  · split
    · exact ⟨rfl, rfl⟩
    · exact ⟨rfl, rfl⟩

theorem failed_fields (f : Flight) :
    (b.failed f).flights = b.flights ∧ (b.failed f).isOpen = b.isOpen := by
  simp only [Board.failed]
  split
  · exact ⟨rfl, rfl⟩
  · exact ⟨rfl, rfl⟩

theorem Good.settle (h : b.Good store id) {i : Nat} {f : Flight} (hf : b.flights[i]? = some f)
    {result : Option SaveStrategyBoardResult} (hresult : ∀ r, result = some r → f.answer = some r)
    (hok : result = none → b.isOpen = true → f.committed = true → b.pending = some f.sending) :
    (b.settle i f result).Good store id := by
  obtain ⟨hflights, rfl⟩ := eq_singleton h.one hf
  have herase : b.flights.eraseIdx 0 = [] := by simp [hflights]
  simp only [Board.settle, herase]
  split
  next hopen =>
    cases result with
    | some r =>
        have hfields := answered_fields (b := { b with flights := [] }) f r
        refine ⟨by simp [hfields.1], fun hclosed => ?_, fun _ => ?_⟩
        · rw [hfields.2] at hclosed
          rw [show b.isOpen = false from hclosed] at hopen
          cases hopen
        cases hconflict : r.conflict with
        | true => exact (h.inv hopen).refused hflights (hresult r rfl) hconflict
        | false => exact (h.inv hopen).taken hflights (hresult r rfl) hconflict
    | none =>
        have hfields := failed_fields (b := { b with flights := [] }) f
        refine ⟨by simp [hfields.1], fun hclosed => ?_, fun _ =>
          (h.inv hopen).failed hflights (hok rfl hopen)⟩
        rw [hfields.2] at hclosed
        rw [show b.isOpen = false from hclosed] at hopen
        cases hopen
  next hclosed =>
    have hfields := @wayOut_one { b with flights := [] } result rfl
    refine ⟨hfields.1, fun hfalse => ?_, fun hopen => ?_⟩
    · rw [hfields.2.2]
      exact h.stopped (by simpa using hclosed)
    · rw [hfields.2.1] at hopen
      exact absurd hopen hclosed

theorem Good.commit (h : b.Good store id) (hopen : b.isOpen = true) {next : List StrategyStroke}
    (hok : normalizeStrokes next = next ∧ b.lostWrite = false) : (b.commit next).Good store id :=
  ⟨h.one, fun hclosed => (by rw [show b.isOpen = false from hclosed] at hopen; cases hopen),
    fun _ => (h.inv hopen).commit hok.1 hok.2⟩

theorem Good.close (h : b.Good store id) (hopen : b.isOpen = true) : b.close.Good store id := by
  unfold Board.close
  split
  · exact ⟨h.one, fun _ => rfl, fun hfalse => by cases hfalse⟩
  · split
    · exact ⟨h.one, fun _ => rfl, fun hfalse => by cases hfalse⟩
    next hidle =>
      have hflights := (h.inv hopen).idle (by simpa using hidle)
      exact ⟨by simp [Board.send, hflights], fun _ => rfl, fun hfalse => by cases hfalse⟩

theorem Good.fireTimer (h : b.Good store id) {next : Drawing} (hnext : b.saveTimer = some next) :
    (b.fireTimer next).Good store id := by
  have hopen : b.isOpen = true := by
    by_contra hclosed
    rw [h.stopped (by simpa using hclosed)] at hnext
    cases hnext
  have hinv := (h.inv hopen).fireTimer hnext
  have hfields : (b.fireTimer next).flights.length ≤ 1 ∧ (b.fireTimer next).isOpen = true := by
    simp only [Board.fireTimer]
    split
    · exact ⟨h.one, hopen⟩
    next hidle =>
      have hflights := (h.inv hopen).idle (by simpa using hidle)
      exact ⟨by simp [Board.send, hflights], hopen⟩
  refine ⟨hfields.1, fun hclosed => ?_, fun _ => hinv⟩
  rw [hfields.2] at hclosed
  cases hclosed

theorem loaded_fields (load : Load) (version : Nat) (strokes : List StrategyStroke) :
    (b.loaded load version strokes).flights = b.flights ∧
      (b.loaded load version strokes).isOpen = b.isOpen ∧
      (b.loaded load version strokes).saveTimer = b.saveTimer := by
  unfold Board.loaded
  split
  · exact ⟨rfl, rfl, rfl⟩
  · split
    · exact ⟨rfl, rfl, rfl⟩
    · split
      · exact ⟨rfl, rfl, rfl⟩
      · exact ⟨rfl, rfl, rfl⟩

theorem Good.loaded (h : b.Good store id) {i : Nat} {load : Load} (hload : b.loads[i]? = some load)
    {answer : Nat × List StrategyStroke} (hanswer : load.answer = some answer)
    (hok : b.isOpen = true → load.initial = true → b.latest = none) :
    ({ b with loads := b.loads.eraseIdx i }.loaded load answer.1 answer.2).Good store id := by
  obtain ⟨hflights, hopen, htimer⟩ := loaded_fields (b := { b with loads := b.loads.eraseIdx i })
    load answer.1 answer.2
  refine ⟨by rw [hflights]; exact h.one, fun hclosed => ?_, fun hopened => ?_⟩
  · rw [hopen] at hclosed
    rw [htimer]
    exact h.stopped hclosed
  · rw [hopen] at hopened
    have hinv := h.inv hopened
    have hshown : ({ b with loads := b.loads.eraseIdx i } : Board).Inv store id :=
      hinv.shown rfl fun l hl => hinv.loads l ((List.eraseIdx_sublist ..).subset hl)
    exact hshown.loaded (hinv.loads load (List.mem_of_getElem? hload) answer hanswer)
      (hok hopened)

/-- A step of a board keeps it good, and adds at most a version of its own. -/
theorem Good.step (h : b.Good store id) {action : BoardAction} (hok : b.Ok action)
    (hstep : boardStep store id b action = some (store', c)) :
    c.Good store' id ∧ ∃ version strokes, store' = store ∨
      store' = (putStrategyBoard store id version strokes).1 := by
  cases action with
  | pointerDown =>
      simp only [boardStep, Option.ite_none_right_eq_some, Option.some.injEq,
        Prod.mk.injEq] at hstep
      obtain ⟨hguard, rfl, rfl⟩ := hstep
      exact ⟨⟨h.one, h.stopped, fun hopen => (h.inv hopen).shown rfl (h.inv hopen).loads⟩,
        0, [], .inl rfl⟩
  | pointerUp done =>
      simp only [boardStep, Option.ite_none_right_eq_some, Option.some.injEq,
        Prod.mk.injEq] at hstep
      obtain ⟨⟨hopen, _⟩, rfl, rfl⟩ := hstep
      have hgood : ({ b with drawing := false } : Board).Good store id :=
        ⟨h.one, h.stopped, fun hopen => (h.inv hopen).shown rfl (h.inv hopen).loads⟩
      refine ⟨?_, 0, [], .inl rfl⟩
      cases hdrawn : b.drawn? (.pointerUp done) with
      | none => exact hgood
      | some next => exact hgood.commit hopen (hok next hdrawn)
  | undo =>
      simp only [boardStep, Option.ite_none_right_eq_some, Option.map_eq_some_iff,
        Prod.mk.injEq] at hstep
      obtain ⟨hopen, next, hdrawn, rfl, rfl⟩ := hstep
      exact ⟨h.commit hopen (hok next hdrawn), 0, [], .inl rfl⟩
  | clear =>
      simp only [boardStep, Option.ite_none_right_eq_some, Option.map_eq_some_iff,
        Prod.mk.injEq] at hstep
      obtain ⟨hopen, next, hdrawn, rfl, rfl⟩ := hstep
      exact ⟨h.commit hopen (hok next hdrawn), 0, [], .inl rfl⟩
  | timer =>
      simp only [boardStep, Option.map_eq_some_iff, Prod.mk.injEq] at hstep
      obtain ⟨next, htimer, rfl, rfl⟩ := hstep
      exact ⟨h.fireTimer htimer, 0, [], .inl rfl⟩
  | poll =>
      simp only [boardStep, Option.ite_none_right_eq_some, Option.some.injEq,
        Prod.mk.injEq] at hstep
      obtain ⟨_, rfl, rfl⟩ := hstep
      refine ⟨⟨h.one, h.stopped, fun hopen => (h.inv hopen).shown rfl fun l hl a ha => ?_⟩,
        0, [], .inl rfl⟩
      cases List.mem_append.mp hl with
      | inl hl => exact (h.inv hopen).loads l hl a ha
      | inr hl =>
          rw [List.mem_singleton.mp hl] at ha
          cases ha
  | serveLoad i =>
      simp only [boardStep, Option.map_eq_some_iff, Prod.mk.injEq] at hstep
      obtain ⟨load, _, rfl, rfl⟩ := hstep
      refine ⟨⟨h.one, h.stopped, fun hopen => (h.inv hopen).shown rfl fun l hl a ha => ?_⟩,
        0, [], .inl rfl⟩
      cases List.mem_or_eq_of_mem_set hl with
      | inl hl => exact (h.inv hopen).loads l hl a ha
      | inr hl =>
          rw [hl] at ha
          cases ha
          exact Nat.le_refl _
  | answerLoad i =>
      simp only [boardStep, Option.bind_eq_some_iff, Option.map_eq_some_iff,
        Prod.mk.injEq] at hstep
      obtain ⟨load, hload, answer, hanswer, rfl, rfl⟩ := hstep
      exact ⟨h.loaded hload hanswer (hok load hload), 0, [], .inl rfl⟩
  | failLoad i =>
      simp only [boardStep, Option.map_eq_some_iff, Prod.mk.injEq] at hstep
      obtain ⟨load, _, rfl, rfl⟩ := hstep
      refine ⟨⟨h.one, h.stopped, fun hopen => (h.inv hopen).shown rfl fun l hl a ha => ?_⟩,
        0, [], .inl rfl⟩
      exact (h.inv hopen).loads l ((List.eraseIdx_sublist ..).subset hl) a ha
  | serve i =>
      simp only [boardStep, Option.map_eq_some_iff, Option.filter_eq_some_iff,
        Prod.mk.injEq] at hstep
      obtain ⟨f, ⟨hf, hunserved⟩, rfl, rfl⟩ := hstep
      obtain ⟨hflights, rfl⟩ := eq_singleton h.one hf
      refine ⟨⟨by simp [hflights], h.stopped, fun hopen => ?_⟩, _, _, .inr rfl⟩
      have hserved := (h.inv hopen).serve hflights (by simpa using hunserved)
      simpa [hflights] using hserved
  | answer i =>
      simp only [boardStep, Option.bind_eq_some_iff, Option.map_eq_some_iff,
        Prod.mk.injEq] at hstep
      obtain ⟨f, hf, r, hr, rfl, rfl⟩ := hstep
      refine ⟨h.settle hf (fun r' hr' => ?_) (fun hnone => by cases hnone), 0, [], .inl rfl⟩
      rwa [← hr']
  | fail i =>
      simp only [boardStep, Option.map_eq_some_iff, Prod.mk.injEq] at hstep
      obtain ⟨f, hf, rfl, rfl⟩ := hstep
      exact ⟨h.settle hf (fun r hr => by cases hr) fun _ => hok f hf, 0, [], .inl rfl⟩
  | close =>
      simp only [boardStep, Option.ite_none_right_eq_some, Option.some.injEq,
        Prod.mk.injEq] at hstep
      obtain ⟨hopen, rfl, rfl⟩ := hstep
      exact ⟨h.close hopen, 0, [], .inl rfl⟩

end Steps

end Board

/-! ### Runs -/

def BoardsOk (s : BoardsState) : BoardsAction → Prop
  | .mount => True
  | .board id action => ∀ b ∈ s.boards[id]?, b.Ok action

structure BoardsInv (s : BoardsState) : Prop where
  good : ∀ (id : Nat) b, s.boards[id]? = some b → b.Good s.store id
  authors : ∀ (i : Nat) v, s.store[i]? = some v → v.author < s.boards.length
  based : WellBased s.store

theorem BoardsInv.mount {s : BoardsState} (h : BoardsInv s) :
    BoardsInv { s with boards := s.boards ++ [{}] } where
  good id b hb := by
    by_cases hlt : id < s.boards.length
    · rw [List.getElem?_append_left hlt] at hb
      exact h.good id b hb
    · have hid : id = s.boards.length := by
        have := (List.getElem?_eq_some_iff.mp hb).1
        simp at this
        omega
      subst hid
      simp only [List.getElem?_concat_length, Option.some.injEq] at hb
      subst hb
      have hothers : ∀ (i : Nat) v, s.store[i]? = some v → v.author ≠ s.boards.length :=
        fun i v hv => Nat.ne_of_lt (h.authors i v hv)
      refine ⟨Nat.zero_le _, fun hfalse => (by cases hfalse), fun _ => ?_⟩
      exact {
        bound := Nat.zero_le _
        flights := fun f hf => by cases hf
        idle := fun _ => rfl
        sending := fun hne => absurd rfl hne
        dirty := rfl
        timer := fun hne => absurd rfl hne
        pending := fun p hp => by cases hp
        latest := fun p d hp => by cases hp
        untouched := fun _ => ⟨rfl, hothers⟩
        own := fun i v hv hauthor _ => absurd hauthor (hothers i v hv)
        lost := fun hlost => by cases hlost
        loads := fun l hl a ha => by
          rw [List.mem_singleton.mp hl] at ha
          cases ha
        kept := fun p d hp => by cases hp }
  authors i v hv := by
    have := h.authors i v hv
    simp
    omega
  based := h.based

theorem BoardsInv.board {s : BoardsState} (h : BoardsInv s) {id : Nat} {b c : Board}
    {store : BoardStore} {action : BoardAction} (hb : s.boards[id]? = some b) (hok : b.Ok action)
    (hstep : boardStep s.store id b action = some (store, c)) :
    BoardsInv ⟨store, s.boards.set id c⟩ := by
  obtain ⟨hgood, version, strokes, hstore⟩ := (h.good id b hb).step hok hstep
  have hid := (List.getElem?_eq_some_iff.mp hb).1
  have hnew : ∀ (i : Nat) v, store[i]? = some v → s.store[i]? = some v ∨ v.author = id := by
    intro i v hv
    cases hstore with
    | inl hsame => exact .inl (hsame ▸ hv)
    | inr hput =>
        rw [hput] at hv
        refine (put_getElem? hv).imp_right fun hentry => ?_
        rw [hentry.2.1]
  have hgrows : s.store <+: store := by
    cases hstore with
    | inl hsame => exact hsame ▸ List.prefix_refl _
    | inr hput => exact hput ▸ put_grown
  constructor
  case good =>
    intro id' b' hb'
    by_cases heq : id' = id
    · subst heq
      rw [List.getElem?_set_self hid, Option.some.injEq] at hb'
      exact hb' ▸ hgood
    · rw [List.getElem?_set_ne (Ne.symm heq)] at hb'
      have hother := h.good id' b' hb'
      refine ⟨hother.one, hother.stopped, fun hopen => (hother.inv hopen).mono hgrows ?_⟩
      exact fun i v hv =>
        (hnew i v hv).imp_right fun hauthor hsame => heq (hsame.symm.trans hauthor)
  case authors =>
    intro i v hv
    rw [List.length_set]
    cases hnew i v hv with
    | inl hold => exact h.authors i v hold
    | inr hauthor => exact hauthor ▸ hid
  case based =>
    cases hstore with
    | inl hsame => exact hsame ▸ h.based
    | inr hput => exact hput ▸ h.based.put

instance (b : Board) : ∀ action, Decidable (b.Ok action)
  | .fail i => inferInstanceAs (Decidable
      (∀ f ∈ b.flights[i]?, b.isOpen → f.committed → b.pending = some f.sending))
  | .answerLoad i => inferInstanceAs (Decidable
      (∀ load ∈ b.loads[i]?, b.isOpen → load.initial → b.latest = none))
  | .pointerDown | .pointerUp _ | .undo | .clear | .timer | .poll | .serveLoad _ | .failLoad _
  | .serve _ | .answer _ | .close => inferInstanceAs (Decidable
      (∀ next ∈ b.drawn? _, normalizeStrokes next = next ∧ b.lostWrite = false))

instance (s : BoardsState) : ∀ action, Decidable (BoardsOk s action)
  | .mount => isTrue True.intro
  | .board id action => inferInstanceAs (Decidable (∀ b ∈ s.boards[id]?, b.Ok action))

def path : StrategyStroke := ⟨.pen, .ours, [(100, 100), (200, 200)]⟩
def arrow : StrategyStroke := ⟨.arrow, .theirs, [(500, 500), (900, 250)]⟩

/-- A board opens, a path is drawn on it, and the server takes it. -/
def pathTaken : List BoardsAction := .mount :: [.serveLoad 0, .answerLoad 0, .pointerDown,
  .pointerUp (some path), .timer, .serve 0].map (.board 0)

def resaved : BoardsState where
  store := [⟨0, 0, [path]⟩]
  boards := [{
    version := 1, strokes := [path], status := .saved, sendingRef := some ⟨0, [path]⟩, loads := []
    drawn := 1, latest := some (⟨0, [path]⟩, 0) }]

def arrowDropped : BoardsState where
  store := [⟨0, 0, [path]⟩]
  boards := [{
    version := 1, strokes := [path], status := .saved, loads := []
    sendingRef := some ⟨1, [path, arrow]⟩, drawn := 2, latest := some (⟨1, [path, arrow]⟩, 0) }]

end Frcmob.Boards
