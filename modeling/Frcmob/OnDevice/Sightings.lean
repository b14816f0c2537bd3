import Frcmob.OnDevice.SimpleTracker
import Mathlib.Algebra.Order.Ring.Defs
import Mathlib.Data.List.OfFn

/-!
The sightings of a track: one in a frame at most, each within reach of the one before it.
-/

namespace Frcmob.OnDevice

open Projective

variable {K T : Type} [Field K] [LinearOrder K] {hypot : K → K → K} {opts : TrackerOptions K}

/-- The track could have moved from where it was seen last. -/
def Reaches (hypot : K → K → K) (opts : TrackerOptions K) (t : Active K) (c : Point K)
    (timeSec : K) : Prop :=
  0 < timeSec - t.lastTime ∧
    dist hypot c t.field ≤ opts.positionTolerance + opts.maxSpeed * (timeSec - t.lastTime)

section Frame

variable {n m : Nat} {timeSec : K} {detections : Fin n → RawDetection K T}
  {contacts : Fin n → Option (Point K)}

theorem of_mem_pairs {active : Fin m → Active K} {p : Pair K n m}
    (h : p ∈ pairs hypot opts timeSec detections contacts active) :
    ∃ c, contacts p.di = some c ∧ Reaches hypot opts (active p.ti) c timeSec := by
  rw [pairs, List.mem_insertionSort, List.mem_flatMap] at h
  obtain ⟨di, -, h⟩ := h
  cases hc : contacts di with
  | none => simp [hc] at h
  | some c =>
      simp only [hc] at h
      obtain ⟨ti, -, h⟩ := List.mem_filterMap.mp h
      split at h
      · exact absurd h (by simp)
      · split at h
        · rename_i hreach
          obtain rfl := Option.some_inj.mp h
          exact ⟨c, hc, hreach⟩
        · exact absurd h (by simp)

omit [LinearOrder K] in
theorem Active.seen_spec (t : Active K) (field : Point K) (colour : Option (BumperColour K)) :
    (t.seen field timeSec colour).id = t.id ∧ (t.seen field timeSec colour).field = field ∧
      (t.seen field timeSec colour).lastTime = timeSec := by
  cases colour <;> exact ⟨rfl, rfl, rfl⟩

/-- What the greedy loop has claimed: taken tracks and assigned detections are in a matching. -/
structure Claimed (hypot : K → K → K) (opts : TrackerOptions K) (timeSec : K)
    (contacts : Fin n → Option (Point K)) (active : Fin m → Active K) (s : Claims K n m) :
    Prop where
  untouched : ∀ ti, ti ∉ s.trackTaken → s.active ti = active ti
  taken : ∀ ti ∈ s.trackTaken, ∃ di c, contacts di = some c ∧
    s.assigned di = some (active ti).id ∧ (s.active ti).id = (active ti).id ∧
    (s.active ti).field = c ∧ (s.active ti).lastTime = timeSec ∧
    Reaches hypot opts (active ti) c timeSec
  assigned : ∀ di id, s.assigned di = some id →
    di ∈ s.detTaken ∧ ∃ ti ∈ s.trackTaken, (active ti).id = id
  apart : ∀ di dj id, s.assigned di = some id → s.assigned dj = some id → di = dj

namespace Claimed

variable {active : Fin m → Active K} {s : Claims K n m}

theorem initial : Claimed hypot opts timeSec contacts active { active } where
  untouched _ _ := rfl
  taken ti hti := absurd hti List.not_mem_nil
  assigned di id h := absurd h (by simp)
  apart di dj id h := absurd h (by simp)

theorem claim (h : Claimed hypot opts timeSec contacts active s)
    (hinj : Function.Injective fun ti => (active ti).id) {p : Pair K n m} {c : Point K}
    (hc : contacts p.di = some c) (hreach : Reaches hypot opts (active p.ti) c timeSec) :
    Claimed hypot opts timeSec contacts active (s.claim timeSec detections contacts p) := by
  rw [Claims.claim]
  split
  · exact h
  rename_i hfree
  rw [not_or] at hfree
  simp only [hc]
  have hold := h.untouched p.ti hfree.2
  obtain ⟨hid, hfield, htime⟩ :=
    @Active.seen_spec K _ timeSec (s.active p.ti) c (detections p.di).colour
  -- a detection that is assigned already is not the pair's, and neither is its track
  have hdet {di id} (hdi : s.assigned di = some id) : di ≠ p.di := fun heq =>
    hfree.1 (heq ▸ (h.assigned di id hdi).1)
  have hown {di} : s.assigned di ≠ some (s.active p.ti).id := fun hdi => by
    obtain ⟨-, ti, hti, hsame⟩ := h.assigned di _ hdi
    rw [hold] at hsame
    exact hfree.2 (hinj hsame ▸ hti)
  refine ⟨fun ti hti => ?_, fun ti hti => ?_, fun di id hdi => ?_, fun di dj id hdi hdj => ?_⟩
  · rw [List.mem_cons, not_or] at hti
    dsimp only
    rw [Function.update_of_ne hti.1]
    exact h.untouched ti hti.2
  · dsimp only
    by_cases hp : ti = p.ti
    · subst hp
      rw [Function.update_self]
      refine ⟨p.di, c, hc, ?_, hid.trans (hold ▸ rfl), hfield, htime, hreach⟩
      rw [Function.update_self, hold]
    · obtain ⟨di, e, he, hdi, hrest⟩ := h.taken ti (List.mem_of_ne_of_mem hp hti)
      refine ⟨di, e, he, ?_, ?_⟩
      · rw [Function.update_of_ne (hdet hdi), hdi]
      · rw [Function.update_of_ne hp]
        exact hrest
  · dsimp only at hdi
    by_cases hp : di = p.di
    · subst hp
      rw [Function.update_self, hold] at hdi
      exact ⟨List.mem_cons_self, p.ti, List.mem_cons_self, Option.some_inj.mp hdi⟩
    · rw [Function.update_of_ne hp] at hdi
      obtain ⟨hmem, ti, hti, hsame⟩ := h.assigned di id hdi
      exact ⟨List.mem_cons_of_mem _ hmem, ti, List.mem_cons_of_mem _ hti, hsame⟩
  · dsimp only at hdi hdj
    by_cases hp : di = p.di
    · by_cases hq : dj = p.di
      · rw [hp, hq]
      · rw [hp, Function.update_self] at hdi
        rw [Function.update_of_ne hq, ← hdi] at hdj
        exact absurd hdj hown
    · rw [Function.update_of_ne hp] at hdi
      by_cases hq : dj = p.di
      · rw [hq, Function.update_self] at hdj
        rw [← hdj] at hdi
        exact absurd hdi hown
      · rw [Function.update_of_ne hq] at hdj
        exact h.apart di dj id hdi hdj

theorem foldl (hinj : Function.Injective fun ti => (active ti).id) {ps : List (Pair K n m)}
    (h : Claimed hypot opts timeSec contacts active s)
    (hps : ∀ p ∈ ps, ∃ c, contacts p.di = some c ∧ Reaches hypot opts (active p.ti) c timeSec) :
    Claimed hypot opts timeSec contacts active
      (ps.foldl (Claims.claim timeSec detections contacts) s) := by
  induction ps generalizing s with
  | nil => exact h
  | cons p ps ih =>
      obtain ⟨c, hc, hreach⟩ := hps p List.mem_cons_self
      exact ih (h.claim hinj hc hreach) fun q hq => hps q (List.mem_cons_of_mem _ hq)

end Claimed

/-- What the last loop has sent out of the detections `dis`: `idOf` is the id of each. -/
structure Numbered (timeSec : K) (detections : Fin n → RawDetection K T)
    (contacts : Fin n → Option (Point K)) (assigned : Fin n → Option Nat)
    (active : List (Active K)) (nextId : Nat) (dis : List (Fin n)) (idOf : Fin n → Nat)
    (s : Emitted K T) : Prop where
  detections : s.detections =
    dis.filterMap fun di => (contacts di).map fun _ => ⟨detections di, idOf di⟩
  le : nextId ≤ s.nextId
  ids : ∀ di ∈ dis, (contacts di).isSome →
    assigned di = some (idOf di) ∨
      assigned di = none ∧ nextId ≤ idOf di ∧ idOf di < s.nextId
  apart : ∀ di ∈ dis, ∀ dj ∈ dis, (contacts di).isSome → (contacts dj).isSome →
    idOf di = idOf dj → di = dj
  active : ∀ t ∈ s.active, t ∈ active ∨
    ∃ di ∈ dis, contacts di = some t.field ∧ t.id = idOf di ∧ t.lastTime = timeSec
  distinct : (s.active.map (·.id)).Nodup
  below : ∀ t ∈ s.active, t.id < s.nextId

namespace Numbered

variable {assigned : Fin n → Option Nat} {active : List (Active K)} {nextId : Nat}
  {dis : List (Fin n)} {idOf : Fin n → Nat} {s s' : Emitted K T} {di : Fin n}

omit [Field K] [LinearOrder K] in
/-- One more detection goes out, under an id that none has. -/
theorem concat (h : Numbered timeSec detections contacts assigned active nextId dis idOf s)
    (hdi : di ∉ dis) {field : Point K} (hc : contacts di = some field) {id : Nat}
    (hid : assigned di = some id ∨ assigned di = none ∧ nextId ≤ id ∧ id < s'.nextId)
    (hnew : ∀ dj ∈ dis, (contacts dj).isSome → idOf dj ≠ id)
    (hdetections : s'.detections = s.detections ++ [⟨detections di, id⟩])
    (hle : s.nextId ≤ s'.nextId)
    (hactive : ∀ t ∈ s'.active, t ∈ s.active ∨
      t.field = field ∧ t.id = id ∧ t.lastTime = timeSec)
    (hdistinct : (s'.active.map (·.id)).Nodup) (hbelow : ∀ t ∈ s'.active, t.id < s'.nextId) :
    Numbered timeSec detections contacts assigned active nextId (dis ++ [di])
      (Function.update idOf di id) s' := by
  have hold {dj : Fin n} (hdj : dj ∈ dis) : Function.update idOf di id dj = idOf dj :=
    Function.update_of_ne (fun heq : dj = di => hdi (heq ▸ hdj)) _ _
  refine ⟨?_, h.le.trans hle, ?_, ?_, ?_, hdistinct, hbelow⟩
  · rw [hdetections, h.detections, List.filterMap_append]
    congr 1
    · exact List.filterMap_congr fun dj hdj => by rw [hold hdj]
    · simp [hc]
  · intro dj hdj hsome
    rcases List.mem_append.mp hdj with hdj | hdj
    · rw [hold hdj]
      exact (h.ids dj hdj hsome).imp_right fun hlt => ⟨hlt.1, hlt.2.1, by omega⟩
    · rw [List.mem_singleton.mp hdj, Function.update_self]
      exact hid
  · intro dj hdj dk hdk hj hk heq
    rcases List.mem_append.mp hdj with hdj | hdj <;> rcases List.mem_append.mp hdk with hdk | hdk
    · rw [hold hdj, hold hdk] at heq
      exact h.apart dj hdj dk hdk hj hk heq
    · rw [List.mem_singleton.mp hdk, Function.update_self, hold hdj] at heq
      exact absurd heq (hnew dj hdj hj)
    · rw [List.mem_singleton.mp hdj, Function.update_self, hold hdk] at heq
      exact absurd heq.symm (hnew dk hdk hk)
    · rw [List.mem_singleton.mp hdj, List.mem_singleton.mp hdk]
  · intro t ht
    rcases hactive t ht with hmem | ⟨hfield, hid, htime⟩
    · refine (h.active t hmem).imp_right fun ⟨dj, hdj, hrest⟩ => ?_
      exact ⟨dj, List.mem_append_left _ hdj, by rw [hold hdj]; exact hrest⟩
    · refine .inr ⟨di, List.mem_append_right _ List.mem_cons_self, hc.trans (hfield ▸ rfl), ?_, htime⟩
      rw [Function.update_self, hid]

omit [LinearOrder K] in
theorem emit (h : Numbered timeSec detections contacts assigned active nextId dis idOf s)
    (hdi : di ∉ dis) (hbelow : ∀ dj id, assigned dj = some id → id < nextId)
    (hapart : ∀ dj dk id, assigned dj = some id → assigned dk = some id → dj = dk) :
    ∃ idOf', Numbered timeSec detections contacts assigned active nextId (dis ++ [di]) idOf'
      (s.emit timeSec detections contacts assigned di) := by
  cases hc : contacts di with
  | none =>
      have heq : s.emit timeSec detections contacts assigned di = s := by
        simp only [Emitted.emit, hc]
      have hmem {dj : Fin n} (hdj : dj ∈ dis ++ [di]) (hsome : (contacts dj).isSome) :
          dj ∈ dis := by
        rcases List.mem_append.mp hdj with hdj | hdj
        · exact hdj
        · rw [List.mem_singleton.mp hdj, hc] at hsome
          exact absurd hsome Bool.false_ne_true
      rw [heq]
      refine ⟨idOf, ?_, h.le, fun dj hdj hsome => h.ids dj (hmem hdj hsome) hsome, ?_, ?_,
        h.distinct, h.below⟩
      · rw [h.detections, List.filterMap_append]
        simp [hc]
      · exact fun dj hdj dk hdk hj hk => h.apart dj (hmem hdj hj) dk (hmem hdk hk) hj hk
      · exact fun t ht => (h.active t ht).imp_right fun ⟨dj, hdj, hrest⟩ =>
          ⟨dj, List.mem_append_left _ hdj, hrest⟩
  | some field =>
      cases hassigned : assigned di with
      | some id =>
          have heq : s.emit timeSec detections contacts assigned di =
              { s with detections := s.detections ++ [⟨detections di, id⟩] } := by
            simp only [Emitted.emit, hc, hassigned]
          rw [heq]
          refine ⟨_, h.concat hdi hc (.inl hassigned) (fun dj hdj hsome hsame => ?_) rfl le_rfl
            (fun t ht => .inl ht) h.distinct h.below⟩
          rcases h.ids dj hdj hsome with hdj' | ⟨-, hle, -⟩
          · exact hdi (hapart dj di id (hsame ▸ hdj') hassigned ▸ hdj)
          · have hlt := hbelow di id hassigned
            omega
      | none =>
          simp only [Emitted.emit, hc, hassigned]
          have hle := h.le
          refine ⟨_, h.concat hdi hc (.inr ⟨hassigned, hle, Nat.lt_succ_self _⟩)
            (fun dj hdj hsome hsame => ?_) rfl (Nat.le_succ _) ?_ ?_ ?_⟩
          · rcases h.ids dj hdj hsome with hdj' | ⟨-, -, hlt⟩
            · have hlt := hbelow dj _ hdj'
              omega
            · omega
          · intro t ht
            rcases List.mem_append.mp ht with ht | ht
            · exact .inl ht
            · rw [List.mem_singleton.mp ht]
              exact .inr ⟨rfl, rfl, rfl⟩
          · rw [List.map_append, List.nodup_append]
            refine ⟨h.distinct, by simp, ?_⟩
            intro x hx y hy
            obtain ⟨t, ht, rfl⟩ := List.mem_map.mp hx
            have hlt := h.below t ht
            rw [List.map_singleton, List.mem_singleton] at hy
            rw [hy]
            exact hlt.ne
          · intro t ht
            rcases List.mem_append.mp ht with ht | ht
            · exact Nat.lt_succ_of_lt (h.below t ht)
            · rw [List.mem_singleton.mp ht]
              exact Nat.lt_succ_self _

omit [LinearOrder K] in
theorem foldl (hdis : dis.Nodup) (hactive : (active.map (·.id)).Nodup)
    (hless : ∀ t ∈ active, t.id < nextId)
    (hbelow : ∀ dj id, assigned dj = some id → id < nextId)
    (hapart : ∀ dj dk id, assigned dj = some id → assigned dk = some id → dj = dk) :
    ∃ idOf, Numbered timeSec detections contacts assigned active nextId dis idOf
      (dis.foldl (Emitted.emit timeSec detections contacts assigned) { active, nextId }) := by
  induction dis using List.reverseRecOn with
  | nil =>
      refine ⟨fun _ => 0, rfl, le_rfl, ?_, ?_, fun t ht => .inl ht, hactive, hless⟩
      · exact fun di hdi => absurd hdi List.not_mem_nil
      · exact fun di hdi => absurd hdi List.not_mem_nil
  | append_singleton dis di ih =>
      rw [List.nodup_append] at hdis
      obtain ⟨idOf, h⟩ := ih hdis.1
      rw [List.foldl_append, List.foldl_cons, List.foldl_nil]
      exact h.emit (fun hmem => hdis.2.2 di hmem di List.mem_cons_self rfl) hbelow hapart

end Numbered

end Frame

/-! ### Runs -/

structure Sighting (K : Type) where
  timeSec : K
  field : Point K

/-- The sightings of an id in one frame: the contacts of its detections. -/
def sightingsIn (raw : RawFrame K T) (tracked : TrackedFrame K T) (id : Nat) :
    List (Sighting K) :=
  tracked.detections.filterMap fun d =>
    if d.trackId = id then (contact raw.homography d.bbox).map fun c => ⟨tracked.timeSec, c⟩
    else none

def sightings (frames : List (RawFrame K T)) (out : List (TrackedFrame K T)) (id : Nat) :
    List (Sighting K) :=
  (frames.zip out).flatMap fun pair => sightingsIn pair.1 pair.2 id

def inField (raw : RawFrame K T) (d : RawDetection K T) : Bool :=
  (contact raw.homography d.bbox).isSome

/-- Each detection in the field goes out once, and no two under one id. -/
structure FrameTracked (raw : RawFrame K T) (tracked : TrackedFrame K T) : Prop where
  timeSec : tracked.timeSec = raw.timeSec
  detections : tracked.detections.map (·.toRawDetection) = raw.detections.filter (inField raw)
  distinct : (tracked.detections.map (·.trackId)).Nodup

/-- The next sighting of a track is later, within the gap and within reach. -/
structure Moves (hypot : K → K → K) (opts : TrackerOptions K) (a b : Sighting K) : Prop where
  later : a.timeSec < b.timeSec
  gap : b.timeSec - a.timeSec ≤ opts.maxGap
  reach : dist hypot b.field a.field ≤
    opts.positionTolerance + opts.maxSpeed * (b.timeSec - a.timeSec)

structure Tracked (hypot : K → K → K) (opts : TrackerOptions K) (frames : List (RawFrame K T))
    (s : Tracker K T) : Prop where
  each : List.Forall₂ FrameTracked frames s.out
  moves : ∀ id, (sightings frames s.out id).IsChain (Moves hypot opts)
  last : ∀ t ∈ s.active, (sightings frames s.out t.id).getLast? = some ⟨t.lastTime, t.field⟩
  fresh : ∀ id, s.nextId ≤ id → sightings frames s.out id = []
  below : ∀ t ∈ s.active, t.id < s.nextId
  distinct : (s.active.map (·.id)).Nodup

theorem filterMap_eq_singleton {α β : Type} {f : α → Option β} {xs : List α} {x : α} {y : β}
    (hnodup : xs.Nodup) (hx : x ∈ xs) (hy : f x = some y)
    (hothers : ∀ z ∈ xs, z ≠ x → f z = none) : xs.filterMap f = [y] := by
  induction xs with
  | nil => exact absurd hx List.not_mem_nil
  | cons z xs ih =>
      rw [List.nodup_cons] at hnodup
      by_cases hz : z = x
      · subst hz
        have hnone : xs.filterMap f = [] := List.filterMap_eq_nil_iff.mpr fun w hw =>
          hothers w (List.mem_cons_of_mem _ hw) fun heq => hnodup.1 (heq ▸ hw)
        rw [List.filterMap_cons_some hy, hnone]
      · rw [List.filterMap_cons_none (hothers z List.mem_cons_self hz)]
        exact ih hnodup.2 (List.mem_of_ne_of_mem (Ne.symm hz) hx) fun w hw =>
          hothers w (List.mem_cons_of_mem _ hw)

theorem filterMap_map_const {α β γ : Type} (g : α → Option β) (f : α → γ) (xs : List α) :
    xs.filterMap (fun x => (g x).map fun _ => f x) = (xs.filter fun x => (g x).isSome).map f := by
  induction xs with
  | nil => rfl
  | cons x xs ih =>
      cases hx : g x with
      | none => rw [List.filterMap_cons_none (by rw [hx]; rfl), ih, List.filter_cons_of_neg (by simp [hx])]
      | some y =>
          rw [List.filterMap_cons_some (by rw [hx]; rfl), ih, List.filter_cons_of_pos (by simp [hx])]
          rfl

section OneFrame

variable {raw : RawFrame K T} {idOf : Fin raw.detections.length → Nat} {tracked : TrackedFrame K T}

/-- The contacts of a frame. -/
def contactsOf (raw : RawFrame K T) (di : Fin raw.detections.length) : Option (Point K) :=
  contact raw.homography (raw.detections.get di).bbox

structure SentUnder (raw : RawFrame K T) (idOf : Fin raw.detections.length → Nat)
    (tracked : TrackedFrame K T) : Prop where
  timeSec : tracked.timeSec = raw.timeSec
  detections : tracked.detections = (List.finRange raw.detections.length).filterMap fun di =>
    (contactsOf raw di).map fun _ => ⟨raw.detections.get di, idOf di⟩
  apart : ∀ di dj, (contactsOf raw di).isSome → (contactsOf raw dj).isSome →
    idOf di = idOf dj → di = dj

namespace SentUnder

theorem sightingsIn_eq (h : SentUnder raw idOf tracked) (id : Nat) :
    sightingsIn raw tracked id = (List.finRange raw.detections.length).filterMap fun di =>
      if idOf di = id then (contactsOf raw di).map fun c => ⟨raw.timeSec, c⟩ else none := by
  rw [sightingsIn, h.detections, List.filterMap_filterMap]
  refine List.filterMap_congr fun di _ => ?_
  cases hc : contactsOf raw di with
  | none => simp
  | some c =>
      have hbox : contact raw.homography (raw.detections.get di).bbox = some c := hc
      simp only [Option.map_some, Option.bind_some, h.timeSec, hbox]

theorem sightingsIn_some (h : SentUnder raw idOf tracked) {di : Fin raw.detections.length}
    {c : Point K} (hc : contactsOf raw di = some c) :
    sightingsIn raw tracked (idOf di) = [⟨raw.timeSec, c⟩] := by
  rw [h.sightingsIn_eq]
  refine filterMap_eq_singleton (List.nodup_finRange _) (List.mem_finRange di)
    (by rw [if_pos rfl, hc, Option.map_some]) fun dj _ hne => ?_
  split
  · rename_i hid
    cases hj : contactsOf raw dj with
    | none => rfl
    | some e => exact absurd (h.apart dj di (by rw [hj]; rfl) (by rw [hc]; rfl) hid) hne
  · rfl

theorem sightingsIn_none (h : SentUnder raw idOf tracked) {id : Nat}
    (hid : ∀ di, (contactsOf raw di).isSome → idOf di ≠ id) : sightingsIn raw tracked id = [] := by
  rw [h.sightingsIn_eq, List.filterMap_eq_nil_iff]
  intro di _
  split
  · rename_i heq
    cases hc : contactsOf raw di with
    | none => rfl
    | some c => exact absurd heq (hid di (by rw [hc]; rfl))
  · rfl

theorem frameTracked (h : SentUnder raw idOf tracked) : FrameTracked raw tracked where
  timeSec := h.timeSec
  detections := by
    rw [h.detections, filterMap_map_const, List.map_map]
    conv_rhs => rw [← List.map_get_finRange raw.detections, List.filter_map]
    rfl
  distinct := by
    rw [h.detections, filterMap_map_const, List.map_map]
    refine List.Nodup.map_on (fun di hdi dj hdj heq => ?_) ((List.nodup_finRange _).filter _)
    exact h.apart di dj (List.mem_filter.mp hdi).2 (List.mem_filter.mp hdj).2 heq

end SentUnder

end OneFrame

theorem sightings_concat {frames : List (RawFrame K T)} {out : List (TrackedFrame K T)}
    (hlen : frames.length = out.length) (raw : RawFrame K T) (tracked : TrackedFrame K T)
    (id : Nat) : sightings (frames ++ [raw]) (out ++ [tracked]) id =
      sightings frames out id ++ sightingsIn raw tracked id := by
  rw [sightings, List.zip_append hlen, List.flatMap_append]
  simp [sightings]

namespace Tracked

variable {frames : List (RawFrame K T)} {s : Tracker K T}

theorem initial : Tracked hypot opts ([] : List (RawFrame K T)) {} where
  each := .nil
  moves _ := .nil
  last _ ht := absurd ht List.not_mem_nil
  fresh _ _ := rfl
  below _ ht := absurd ht List.not_mem_nil
  distinct := List.nodup_nil

/-- The loops of one frame: `active` are the tracks that were not retired. -/
theorem exists_loops (h : Tracked hypot opts frames s) (raw : RawFrame K T) :
    ∃ (active : List (Active K)) (claims : Claims K raw.detections.length active.length)
      (idOf : Fin raw.detections.length → Nat) (e : Emitted K T),
      s.frame hypot opts raw =
        ⟨e.active, e.nextId, s.out ++ [⟨raw.timeSec, e.detections⟩]⟩ ∧
      (∀ t ∈ active, t ∈ s.active ∧ raw.timeSec - t.lastTime ≤ opts.maxGap) ∧
      (Function.Injective fun ti => (active.get ti).id) ∧
      Claimed hypot opts raw.timeSec (contactsOf raw) active.get claims ∧
      Numbered raw.timeSec raw.detections.get (contactsOf raw) claims.assigned
        (List.ofFn claims.active) s.nextId (List.finRange raw.detections.length) idOf e := by
  let active := s.active.filter fun t => raw.timeSec - t.lastTime ≤ opts.maxGap
  let claims := (pairs hypot opts raw.timeSec raw.detections.get (contactsOf raw)
    active.get).foldl (Claims.claim raw.timeSec raw.detections.get (contactsOf raw))
      { active := active.get }
  have hactive : ∀ t ∈ active, t ∈ s.active ∧ raw.timeSec - t.lastTime ≤ opts.maxGap :=
    fun t ht => by simpa [active] using ht
  have hinj : Function.Injective fun ti => (active.get ti).id := by
    have hdistinct : (active.map (·.id)).Nodup := h.distinct.sublist (List.filter_sublist.map _)
    intro ti tj heq
    have hsame := List.inj_on_of_nodup_map hdistinct (List.get_mem _ ti) (List.get_mem _ tj) heq
    exact List.nodup_iff_injective_get.mp (List.Nodup.of_map _ hdistinct) hsame
  have hclaimed : Claimed hypot opts raw.timeSec (contactsOf raw) active.get claims :=
    Claimed.initial.foldl hinj fun p hp => of_mem_pairs hp
  have hid (ti : Fin active.length) : (claims.active ti).id = (active.get ti).id := by
    by_cases hti : ti ∈ claims.trackTaken
    · obtain ⟨-, -, -, -, hid, -⟩ := hclaimed.taken ti hti
      exact hid
    · rw [hclaimed.untouched ti hti]
  have hless (ti : Fin active.length) : (active.get ti).id < s.nextId :=
    h.below _ (hactive _ (List.get_mem _ ti)).1
  obtain ⟨idOf, hnumbered⟩ := @Numbered.foldl K T _ _ raw.timeSec raw.detections.get
    (contactsOf raw) claims.assigned (List.ofFn claims.active) s.nextId
    (List.finRange raw.detections.length) (List.nodup_finRange _) (by
      rw [List.map_ofFn, List.nodup_ofFn]
      intro ti tj heq
      exact hinj ((hid ti).symm.trans (heq.trans (hid tj)))) (by
      intro t ht
      obtain ⟨ti, rfl⟩ := (List.mem_ofFn' _ _).mp ht
      rw [hid]
      exact hless ti) (fun di id hdi => by
      obtain ⟨-, ti, -, rfl⟩ := hclaimed.assigned di id hdi
      exact hless ti) hclaimed.apart
  exact ⟨active, claims, idOf, _, rfl, hactive, hinj, hclaimed, hnumbered⟩

theorem frame [IsStrictOrderedRing K] (h : Tracked hypot opts frames s) (raw : RawFrame K T) :
    Tracked hypot opts (frames ++ [raw]) (s.frame hypot opts raw) := by
  obtain ⟨active, claims, idOf, e, heq, hactive, hinj, hclaimed, hnumbered⟩ := h.exists_loops raw
  have hsent : SentUnder raw idOf ⟨raw.timeSec, e.detections⟩ := {
    timeSec := rfl
    detections := hnumbered.detections
    apart := fun di dj => hnumbered.apart di (List.mem_finRange di) dj (List.mem_finRange dj) }
  have hless (ti : Fin active.length) : (active.get ti).id < s.nextId :=
    h.below _ (hactive _ (List.get_mem _ ti)).1
  have hassigned {di : Fin raw.detections.length} {id : Nat} (hdi : claims.assigned di = some id) :
      ∃ ti c, (active.get ti).id = id ∧ ti ∈ claims.trackTaken ∧ contactsOf raw di = some c ∧
        Reaches hypot opts (active.get ti) c raw.timeSec := by
    obtain ⟨-, ti, hti, rfl⟩ := hclaimed.assigned di id hdi
    obtain ⟨dj, c, hc, hdj, -, -, -, hreach⟩ := hclaimed.taken ti hti
    exact ⟨ti, c, rfl, hti, hclaimed.apart di dj _ hdi hdj ▸ hc, hreach⟩
  have hids (di) (hsome : (contactsOf raw di).isSome) :=
    hnumbered.ids di (List.mem_finRange di) hsome
  have hconcat := sightings_concat h.each.length_eq raw ⟨raw.timeSec, e.detections⟩
  have hle := hnumbered.le
  rw [heq]
  refine ⟨?_, fun id => ?_, fun t ht => ?_, fun id hid => ?_, hnumbered.below, hnumbered.distinct⟩
  · exact List.rel_append h.each (.cons hsent.frameTracked .nil)
  · rw [hconcat]
    by_cases hsome : ∃ di, (contactsOf raw di).isSome ∧ idOf di = id
    · obtain ⟨di, hsome, rfl⟩ := hsome
      obtain ⟨c, hc⟩ := Option.isSome_iff_exists.mp hsome
      rw [hsent.sightingsIn_some hc]
      rcases hids di hsome with hdi | ⟨-, hfresh, -⟩
      · obtain ⟨ti, c', hti, -, hc', hreach⟩ := hassigned hdi
        obtain rfl : c = c' := Option.some_inj.mp (hc.symm.trans hc')
        have hold := hactive _ (List.get_mem _ ti)
        refine List.isChain_append.mpr ⟨h.moves _, List.isChain_singleton _, ?_⟩
        rw [← hti, h.last _ hold.1]
        intro a ha b hb
        obtain rfl := Option.some_inj.mp ha
        obtain rfl := Option.some_inj.mp hb
        exact ⟨sub_pos.mp hreach.1, hold.2, hreach.2⟩
      · rw [h.fresh _ hfresh]
        exact List.isChain_singleton _
    · rw [hsent.sightingsIn_none fun di hdi hid => hsome ⟨di, hdi, hid⟩, List.append_nil]
      exact h.moves id
  · rw [hconcat]
    rcases hnumbered.active t ht with ht | ⟨di, -, hc, hid, htime⟩
    · obtain ⟨ti, rfl⟩ := (List.mem_ofFn' _ _).mp ht
      by_cases hti : ti ∈ claims.trackTaken
      · obtain ⟨di, c, hc, hdi, hid, hfield, htime, -⟩ := hclaimed.taken ti hti
        have hown : idOf di = (active.get ti).id := by
          rcases hids di (by rw [hc]; rfl) with hdi' | ⟨hnone, -⟩
          · exact Option.some_inj.mp (hdi'.symm.trans hdi)
          · exact absurd (hnone.symm.trans hdi) (by simp)
        rw [hid, ← hown, hsent.sightingsIn_some hc, List.getLast?_concat, hfield, htime]
      · rw [hclaimed.untouched ti hti, hsent.sightingsIn_none, List.append_nil]
        · exact h.last _ (hactive _ (List.get_mem _ ti)).1
        · intro di hsome hid
          rcases hids di hsome with hdi | ⟨-, hfresh, -⟩
          · obtain ⟨tj, -, htj, hmem, -⟩ := hassigned hdi
            exact hti (hinj (htj.trans hid) ▸ hmem)
          · have hlt := hless ti
            omega
    · rw [hid, hsent.sightingsIn_some hc, List.getLast?_concat, htime]
  · rw [hconcat, h.fresh id (hle.trans hid), List.nil_append]
    refine hsent.sightingsIn_none fun di hsome heq => ?_
    rcases hids di hsome with hdi | ⟨-, -, hlt⟩
    · obtain ⟨ti, -, hti, -⟩ := hassigned hdi
      have hlt := hless ti
      dsimp only at hid
      omega
    · dsimp only at hid
      omega

theorem run [IsStrictOrderedRing K] (hypot : K → K → K) (opts : TrackerOptions K)
    (frames : List (RawFrame K T)) :
    Tracked hypot opts frames (frames.foldl (Tracker.frame hypot opts) {}) := by
  induction frames using List.reverseRecOn with
  | nil => exact initial
  | append_singleton frames raw ih =>
      rw [List.foldl_append]
      exact ih.frame raw

end Tracked

/-- Each detection in the field goes out once, no two of a frame under one id, and the sightings of
an id are later one by one, within the gap and the reach. -/
theorem assignTrackIds_spec [IsStrictOrderedRing K] (hypot : K → K → K)
    (frames : List (RawFrame K T)) (opts : TrackerOptions K) :
    List.Forall₂ FrameTracked (byTime frames) (assignTrackIds hypot frames opts) ∧
      ∀ id, (sightings (byTime frames) (assignTrackIds hypot frames opts) id).IsChain
        (Moves hypot opts) :=
  ⟨(Tracked.run hypot opts _).each, (Tracked.run hypot opts _).moves⟩

/-- Two robots along one line, a centimetre a pixel; one is gone for five seconds. -/
def lineFrames : List (RawFrame ℚ Unit) :=
  let box (x : ℚ) : RawDetection ℚ Unit := { bbox := ⟨x - 10, 80, x + 10, 100⟩ }
  let scale : Mat3 ℚ := !![1 / 100, 0, 0; 0, 1 / 100, 0; 0, 0, 1]
  [⟨0, some scale, [box 100, box 500]⟩, ⟨2 / 5, some scale, [box 490, box 110]⟩,
    ⟨5, some scale, [box 110]⟩]

example : (assignTrackIds (fun x y => |x| + |y|) lineFrames {}).map
    (fun frame => frame.detections.map (·.trackId)) = [[0, 1], [1, 0], [2]] := by
  decide +kernel

theorem assignTrackIds_spec_lineFrames :
    List.Forall₂ FrameTracked (byTime lineFrames)
        (assignTrackIds (fun x y => |x| + |y|) lineFrames {}) ∧
      ∀ id, (sightings (byTime lineFrames)
        (assignTrackIds (fun x y => |x| + |y|) lineFrames {}) id).IsChain
          (Moves (fun x y => |x| + |y|) {}) :=
  assignTrackIds_spec _ _ _

end Frcmob.OnDevice
