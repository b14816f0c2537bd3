import Frcmob.Lib.Transition
import Frcmob.Phases.Windows

/-!
Stored windows against recomputed ones. A write replaces the rows of its own phases only, so the
phases of every season show the newest write and those of the 2026 game the newest write under a
2026 configuration. Both are read back whatever the match time and the configuration are by then.
-/

namespace Frcmob.Phases

open Transition

/-! ### What windows are computed from -/

structure Inputs where
  time : Option Int
  phases : MatchPhases
  rebuilt : Bool

def inputsOf (config : GameConfig) (time : Option Int) : Inputs where
  time := time
  phases := config.phases
  rebuilt := config.seasonYear = rebuiltSeasonYear

def Inputs.windows (w : Inputs) : List (String × PhaseWindow) :=
  standardWindows w.phases w.time ++ if w.rebuilt then rebuiltWindows w.phases w.time else []

/-- What the phases of every season show. -/
def Inputs.base (w : Inputs) : Option Int × Int × Int × Int :=
  (w.time, w.phases.autoSec, w.phases.totalSec, w.phases.endgameSec)

/-- What the phases of the 2026 game show: a longer match is cut at its endgame. -/
def Inputs.shifts (w : Inputs) : Option Int × Int × Int :=
  (w.time, w.phases.autoSec, min w.phases.endgameStartSec (w.phases.autoSec + 110))

/-- The offsets and absolute times of a phase. -/
def offsets (windows : List (String × PhaseWindow)) (phase : String) : Option Window :=
  (windows.lookup phase).map PhaseWindow.toWindow

theorem offsets_append (l l' : List (String × PhaseWindow)) (phase : String) :
    offsets (l ++ l') phase = (offsets l phase).or (offsets l' phase) := by
  rw [offsets, offsets, offsets, List.lookup_append, Option.map_or]

theorem offsets_eq_lookup (l : List (String × PhaseWindow)) (phase : String) :
    offsets l phase = (l.map fun x => (x.1, x.2.toWindow)).lookup phase := by
  induction l with
  | nil => rfl
  | cons x l ih =>
      rw [offsets, List.map_cons, List.lookup_cons, List.lookup_cons]
      split
      · rfl
      · exact ih

/-- The windows that only the 2026 game has, each cut at the endgame. -/
def shiftTable (time : Option Int) (auto endgame : Int) : List (String × Window) :=
  [("transition", window auto (min (auto + 10) endgame) time),
    ("shift_1", window (min (auto + 10) endgame) (min (auto + 35) endgame) time),
    ("shift_2", window (min (auto + 35) endgame) (min (auto + 60) endgame) time),
    ("shift_3", window (min (auto + 60) endgame) (min (auto + 85) endgame) time),
    ("shift_4", window (min (auto + 85) endgame) (min (auto + 110) endgame) time)]

theorem rebuiltWindows_eq (phases : MatchPhases) (time : Option Int) :
    (rebuiltWindows phases time).map (fun x => (x.1, x.2.toWindow)) =
      shiftTable time phases.autoSec phases.endgameStartSec := by
  have hnext : ∀ t : Int, min (min (phases.autoSec + t) phases.endgameStartSec + 25)
      phases.endgameStartSec = min (phases.autoSec + (t + 25)) phases.endgameStartSec := by
    intro t
    omega
  simp only [rebuiltWindows, shiftWindows, List.range', rebuiltAllianceShiftCount,
    rebuiltAllianceShiftSec, rebuiltTransitionShiftSec, List.map_cons, List.map_nil,
    PhaseWindow.plain, min_comm phases.endgameStartSec, hnext]
  rfl

/-- The windows of every season. -/
def standardTable (time : Option Int) (auto total endgame : Int) : List (String × Window) :=
  [("auto", window 0 auto time), ("teleop", window auto total time),
    ("teleop_scoring", window auto endgame time), ("endgame", window endgame total time)]

def Inputs.standard (w : Inputs) : List (String × Window) :=
  standardTable w.time w.phases.autoSec w.phases.totalSec w.phases.endgameStartSec

def Inputs.shift (w : Inputs) : List (String × Window) :=
  shiftTable w.time w.phases.autoSec w.phases.endgameStartSec

theorem offsets_windows (w : Inputs) (phase : String) :
    offsets w.windows phase =
      (w.standard.lookup phase).or (if w.rebuilt then w.shift.lookup phase else none) := by
  rw [Inputs.windows, offsets_append, offsets_eq_lookup]
  congr 1
  split
  · rw [offsets_eq_lookup, rebuiltWindows_eq]
    rfl
  · rfl

theorem windows_keys (w : Inputs) : (w.windows.map Prod.fst).Nodup := by
  have hshifts : (rebuiltWindows w.phases w.time).map Prod.fst =
      ["transition", "shift_1", "shift_2", "shift_3", "shift_4"] := by
    have hkeys := congrArg (List.map Prod.fst) (rebuiltWindows_eq w.phases w.time)
    rwa [List.map_map] at hkeys
  have hstandard : (standardWindows w.phases w.time).map Prod.fst =
      ["auto", "teleop", "teleop_scoring", "endgame"] := rfl
  rw [Inputs.windows, List.map_append, hstandard]
  split
  · rw [hshifts]
    decide
  · decide

/-! ### One call -/

section
variable {stablePayloadHash : Params → String} {config : GameConfig} {rows : Rows} {m : Match}
  {now : Nat}

theorem compute_cases (stablePayloadHash : Params → String) (config : GameConfig)
    (time : Option Int) :
    (rebuiltSeasonYear < config.seasonYear ∧
      ∃ e, computePhaseWindowsPayload stablePayloadHash config time = .error e) ∨
    (config.seasonYear ≤ rebuiltSeasonYear ∧
      ∃ p, computePhaseWindowsPayload stablePayloadHash config time = .ok p ∧
        p.windows = (inputsOf config time).windows) := by
  unfold computePhaseWindowsPayload requireKnownSeasonRules
  by_cases hyear : rebuiltSeasonYear < config.seasonYear
  · rw [if_pos hyear]
    exact .inl ⟨hyear, _, rfl⟩
  · rw [if_neg hyear]
    refine .inr ⟨not_lt.mp hyear, ?_⟩
    by_cases hrebuilt : config.seasonYear = rebuiltSeasonYear
    · refine ⟨_, if_pos hrebuilt, ?_⟩
      simp [computeRebuiltPhaseWindowsPayload, payload, Inputs.windows, inputsOf, hrebuilt]
    · refine ⟨_, if_neg hrebuilt, ?_⟩
      simp [payload, Inputs.windows, inputsOf, hrebuilt]

/-- The window stored for a phase of a match. -/
def storedWindow (rows : Rows) (matchKey phase : String) : Option Window :=
  (rows.get? (matchKey, phase, phaseModelVersion)).map Row.toWindow

theorem offsets_rowsOf (rows : Rows) (matchKey phase : String) :
    offsets ((rowsOf rows matchKey).map byPhase) phase = storedWindow rows matchKey phase := by
  unfold rowsOf storedWindow Table.get?
  induction rows.rows with
  | nil => rfl
  | cons row rest ih =>
      by_cases hrow : row.matchKey = matchKey ∧ row.modelVersion = phaseModelVersion
      · rw [List.filter_cons_of_pos (by simpa using hrow), List.map_cons, List.find?_cons]
        by_cases hphase : row.phaseKey = phase
        · have hkey : row.key = (matchKey, phase, phaseModelVersion) := by
            rw [Row.key, hrow.1, hrow.2, hphase]
          simp [offsets, byPhase, hphase, hkey]
        · have hkey : row.key ≠ (matchKey, phase, phaseModelVersion) := by
            intro hkey
            exact hphase (Prod.mk.inj (Prod.mk.inj hkey).2).1
          rw [decide_eq_false hkey, ← ih, offsets, List.lookup_cons]
          simp only [byPhase, beq_eq_false_iff_ne.mpr (Ne.symm hphase)]
          rfl
      · have hkey : row.key ≠ (matchKey, phase, phaseModelVersion) := by
          intro hkey
          exact hrow ⟨(Prod.mk.inj hkey).1, (Prod.mk.inj (Prod.mk.inj hkey).2).2⟩
        rw [List.filter_cons_of_neg (by simpa using hrow), List.find?_cons, decide_eq_false hkey]
        exact ih

theorem find?_toRow (windows : List (String × PhaseWindow)) (p : Payload) (confidence : ℚ)
    (matchKey phase : String) :
    ((windows.map (toRow m p confidence now)).find? fun row =>
      row.key = (matchKey, phase, phaseModelVersion)).map Row.toWindow =
        if matchKey = m.matchKey then offsets windows phase else none := by
  induction windows with
  | nil => simp [offsets]
  | cons w rest ih =>
      obtain ⟨name, w⟩ := w
      rw [List.map_cons, List.find?_cons]
      have hkey : (toRow m p confidence now (name, w)).key = (matchKey, phase, phaseModelVersion) ↔
          matchKey = m.matchKey ∧ phase = name := by
        simp [Row.key, toRow, eq_comm]
      by_cases hmatch : matchKey = m.matchKey
      · by_cases hphase : phase = name
        · rw [decide_eq_true (hkey.mpr ⟨hmatch, hphase⟩), if_pos hmatch]
          simp [offsets, hphase, toRow]
        · rw [decide_eq_false fun h => hphase (hkey.mp h).2, ih, if_pos hmatch, if_pos hmatch,
            offsets, offsets, List.lookup_cons, beq_eq_false_iff_ne.mpr hphase]
      · rw [decide_eq_false fun h => hmatch (hkey.mp h).1, ih, if_neg hmatch, if_neg hmatch]

theorem toRow_keys {windows : List (String × PhaseWindow)} (hkeys : (windows.map Prod.fst).Nodup)
    (p : Payload) (confidence : ℚ) :
    ((windows.map (toRow m p confidence now)).map Row.key).Nodup := by
  have hrows : (windows.map (toRow m p confidence now)).map Row.key =
      (windows.map Prod.fst).map fun phase => (m.matchKey, phase, phaseModelVersion) := by
    rw [List.map_map, List.map_map]
    rfl
  rw [hrows]
  exact hkeys.map fun _ _ h => (Prod.mk.inj (Prod.mk.inj h).2).1

theorem storedWindow_write {windows : List (String × PhaseWindow)}
    (hkeys : (windows.map Prod.fst).Nodup) (p : Payload) (confidence : ℚ) (matchKey phase : String) :
    storedWindow (rows.putAll (windows.map (toRow m p confidence now))) matchKey phase =
      (if matchKey = m.matchKey then offsets windows phase else none).or
        (storedWindow rows matchKey phase) := by
  rw [storedWindow, Table.get?_putAll_of_nodup (toRow_keys hkeys p confidence), Option.map_or,
    find?_toRow]
  rfl

end

/-! ### Windows from several writes -/

theorem endgameStartSec_eq (phases : MatchPhases) :
    phases.endgameStartSec = phases.totalSec - phases.endgameSec := by
  have htiming := phases.timing
  have hendgame := phases.endgame
  unfold MatchPhases.endgameStartSec
  omega

theorem window_inj {a b a' b' : Int} {time time' : Option Int} :
    window a b time = window a' b' time' ↔ a = a' ∧ b = b' ∧ time = time' := by
  constructor
  · intro h
    have hstart : a = a' := congrArg Window.startSec h
    have hunix : time.map (· + a) = time'.map (· + a') := congrArg Window.startUnix h
    rw [hstart] at hunix
    exact ⟨hstart, congrArg Window.endSec h,
      Option.map_injective (fun x y hxy => by simpa using hxy) hunix⟩
  · rintro ⟨rfl, rfl, rfl⟩
    rfl

theorem standard_eq_none_iff {time : Option Int} {auto total endgame : Int} {phase : String} :
    (standardTable time auto total endgame).lookup phase = none ↔
      phase ∉ ["auto", "teleop", "teleop_scoring", "endgame"] := by
  simp [List.lookup_eq_none_iff, standardTable]

theorem shift_eq_none_iff {time : Option Int} {auto endgame : Int} {phase : String} :
    (shiftTable time auto endgame).lookup phase = none ↔
      phase ∉ ["transition", "shift_1", "shift_2", "shift_3", "shift_4"] := by
  simp [List.lookup_eq_none_iff, shiftTable]

/-- The phases of every season show the newest write, the others the newest of the 2026 game. -/
theorem findSome?_offsets (w : Inputs) (rest : List Inputs) (phase : String) :
    (w :: rest).findSome? (fun v => offsets v.windows phase) =
      (w.standard.lookup phase).or
        (((w :: rest).find? Inputs.rebuilt).bind fun v => v.shift.lookup phase) := by
  cases hstandard : w.standard.lookup phase with
  | some x =>
      rw [List.findSome?_cons, offsets_windows]
      rw [hstandard]
      rfl
  | none =>
      have hnone : ∀ v : Inputs, offsets v.windows phase =
          if v.rebuilt then v.shift.lookup phase else none := by
        intro v
        have hv : v.standard.lookup phase = none :=
          standard_eq_none_iff.mpr (standard_eq_none_iff.mp hstandard)
        rw [offsets_windows, hv, Option.none_or]
      simp only [hnone, Option.none_or]
      clear hstandard hnone
      generalize w :: rest = written
      induction written with
      | nil => rfl
      | cons v written ih =>
          rw [List.findSome?_cons, List.find?_cons]
          cases hrebuilt : v.rebuilt with
          | false => exact ih
          | true =>
              cases hshift : v.shift.lookup phase with
              | some x => simp [hshift]
              | none =>
                  have hall : ∀ u : Inputs, u.shift.lookup phase = none :=
                    fun u => shift_eq_none_iff.mpr (shift_eq_none_iff.mp hshift)
                  simp [hall]

theorem standard_eq_iff {w n : Inputs} : w.standard = n.standard ↔ w.base = n.base := by
  simp only [Inputs.standard, standardTable, Inputs.base, List.cons.injEq, Prod.mk.injEq, window_inj,
    endgameStartSec_eq, true_and, and_true]
  constructor
  · rintro ⟨⟨hauto, htime⟩, ⟨-, htotal, -⟩, ⟨-, hendgame, -⟩, -⟩
    exact ⟨htime, hauto, htotal, by omega⟩
  · rintro ⟨htime, hauto, htotal, hendgame⟩
    simp [htime, hauto, htotal, hendgame]

/-- A cut at the end of the last shift shows as much of the endgame's start as the shifts do. -/
theorem shift_eq_iff {w n : Inputs} : w.shift = n.shift ↔ w.shifts = n.shifts := by
  simp only [Inputs.shift, shiftTable, Inputs.shifts, List.cons.injEq, Prod.mk.injEq, window_inj,
    true_and, and_true]
  constructor
  · rintro ⟨⟨hauto, -, htime⟩, -, -, -, -, hend, -⟩
    exact ⟨htime, hauto, by omega⟩
  · rintro ⟨htime, hauto, hend⟩
    refine ⟨⟨hauto, ?_, htime⟩, ⟨?_, ?_, htime⟩, ⟨?_, ?_, htime⟩, ⟨?_, ?_, htime⟩, ?_, ?_, htime⟩
      <;> omega

theorem standard_eq_of_lookup {w n : Inputs} (h : ∀ phase ∈ ["auto", "teleop", "endgame"],
    w.standard.lookup phase = n.standard.lookup phase) : w.standard = n.standard := by
  have hauto : some _ = some _ := h "auto" (by simp)
  have hteleop : some _ = some _ := h "teleop" (by simp)
  have hendgame : some _ = some _ := h "endgame" (by simp)
  rw [Option.some.injEq, window_inj] at hauto hteleop hendgame
  rw [Inputs.standard, Inputs.standard, hauto.2.2, hauto.2.1, hteleop.2.1, hendgame.1]

theorem shift_eq_of_lookup {w n : Inputs} (h : ∀ phase ∈
    ["transition", "shift_1", "shift_2", "shift_3", "shift_4"],
    w.shift.lookup phase = n.shift.lookup phase) : w.shift = n.shift := by
  have htransition : some _ = some _ := h "transition" (by simp)
  have hlast : some _ = some _ := h "shift_4" (by simp)
  rw [Option.some.injEq, window_inj] at htransition hlast
  rw [shift_eq_iff, Inputs.shifts, Inputs.shifts, Prod.mk.injEq, Prod.mk.injEq]
  exact ⟨hlast.2.2, htransition.1, by omega⟩

/-- Whether the windows from several writes are those from `n`. -/
theorem written_eq_iff (w : Inputs) (rest : List Inputs) (n : Inputs) :
    (∀ phase, (w :: rest).findSome? (fun v => offsets v.windows phase) = offsets n.windows phase) ↔
      w.base = n.base ∧ ((w :: rest).find? Inputs.rebuilt).map Inputs.shifts =
        if n.rebuilt then some n.shifts else none := by
  simp only [findSome?_offsets]
  simp only [offsets_windows]
  constructor
  · intro h
    have hstandard : w.standard = n.standard := by
      refine standard_eq_of_lookup fun phase hphase => ?_
      have hp := h phase
      have hsome : ∀ v : Inputs, v.standard.lookup phase ≠ none := by
        intro v hnone
        refine standard_eq_none_iff.mp hnone ?_
        simp only [List.mem_cons] at hphase ⊢
        tauto
      obtain ⟨x, hx⟩ := Option.ne_none_iff_exists'.mp (hsome w)
      obtain ⟨y, hy⟩ := Option.ne_none_iff_exists'.mp (hsome n)
      rw [hx, hy, Option.some_or, Option.some_or] at hp
      rw [hx, hy, hp]
    have hshift : ∀ phase ∈ ["transition", "shift_1", "shift_2", "shift_3", "shift_4"],
        (((w :: rest).find? Inputs.rebuilt).bind fun v => v.shift.lookup phase) =
          if n.rebuilt then n.shift.lookup phase else none := by
      intro phase hphase
      have hp := h phase
      have hapart : ∀ p ∈ ["transition", "shift_1", "shift_2", "shift_3", "shift_4"],
          p ∉ ["auto", "teleop", "teleop_scoring", "endgame"] := by decide
      have hnone : ∀ v : Inputs, v.standard.lookup phase = none :=
        fun v => standard_eq_none_iff.mpr (hapart phase hphase)
      rwa [hnone w, hnone n, Option.none_or, Option.none_or] at hp
    have htransition := hshift "transition" (by simp)
    have hsome : ∀ v : Inputs, v.shift.lookup "transition" ≠ none :=
      fun v hnone => shift_eq_none_iff.mp hnone (by simp)
    refine ⟨standard_eq_iff.mp hstandard, ?_⟩
    cases hfind : (w :: rest).find? Inputs.rebuilt with
    | none =>
        rw [hfind] at htransition
        split
        · rename_i hrebuilt
          rw [if_pos hrebuilt] at htransition
          exact absurd htransition.symm (hsome n)
        · rfl
    | some v =>
        rw [hfind] at hshift htransition
        split
        · rename_i hrebuilt
          simp only [if_pos hrebuilt, Option.bind_some] at hshift
          exact congrArg some (shift_eq_iff.mp (shift_eq_of_lookup hshift))
        · rename_i hrebuilt
          rw [if_neg hrebuilt] at htransition
          exact absurd htransition (hsome v)
  · rintro ⟨hbase, hshifts⟩ phase
    rw [standard_eq_iff.mpr hbase]
    congr 1
    cases hfind : (w :: rest).find? Inputs.rebuilt with
    | none =>
        rw [hfind] at hshifts
        split
        · rename_i hrebuilt
          rw [if_pos hrebuilt] at hshifts
          cases hshifts
        · rfl
    | some v =>
        rw [hfind] at hshifts
        split
        · rename_i hrebuilt
          rw [if_pos hrebuilt, Option.map_some, Option.some.injEq] at hshifts
          rw [Option.bind_some, shift_eq_iff.mpr hshifts]
        · rename_i hrebuilt
          rw [if_neg hrebuilt] at hshifts
          cases hshifts

/-! ### The history -/

structure State where
  config : GameConfig
  eventKey : String → String
  time : String → Option Int
  rows : Rows
  /-- What a match's windows were written from, the newest first. -/
  written : String → List Inputs

inductive Action
  | setTime (matchKey : String) (time : Option Int)
  | setConfig (config : GameConfig)
  | get (matchKey : String) (refresh : Bool) (now : Nat)

def State.row (s : State) (matchKey : String) : Match where
  matchKey := matchKey
  eventKey := s.eventKey matchKey
  time := s.time matchKey

section
variable (stablePayloadHash : Params → String)

def State.get (s : State) (matchKey : String) (refresh : Bool) (now : Nat) :
    Except String (Payload × Rows) :=
  getOrComputeMatchPhaseWindows stablePayloadHash s.config s.rows (s.row matchKey) refresh now

def State.writes (s : State) (matchKey : String) (refresh : Bool) : Bool :=
  refresh || (rowsOf s.rows matchKey).isEmpty

def phaseSystem : System State Action where
  start s := s.rows = .empty ∧ ∀ matchKey, s.written matchKey = []
  step s
    | .setTime matchKey time => some { s with time := Function.update s.time matchKey time }
    | .setConfig config => some { s with config := config }
    | .get matchKey refresh now =>
        match s.get stablePayloadHash matchKey refresh now with
        | .error _ => some s
        | .ok (_, rows) =>
            some { s with
              rows := rows
              written := if s.writes matchKey refresh then
                  Function.update s.written matchKey
                    (inputsOf s.config (s.time matchKey) :: s.written matchKey)
                else s.written }

end

/-- The stored windows are those of the newest write that has them. -/
def Recorded (s : State) : Prop :=
  ∀ matchKey phase, storedWindow s.rows matchKey phase =
    (s.written matchKey).findSome? fun w => offsets w.windows phase

section
variable {stablePayloadHash : Params → String} {s : State} {matchKey : String} {refresh : Bool}
  {now : Nat}

theorem get_of_stored (hstored : rowsOf s.rows matchKey ≠ []) :
    ∃ p, s.get stablePayloadHash matchKey false now = .ok (p, s.rows) ∧
      p.windows = (rowsOf s.rows matchKey).map byPhase := by
  unfold State.get getOrComputeMatchPhaseWindows
  cases hrows : rowsOf s.rows matchKey with
  | nil => exact absurd hrows hstored
  | cons first rest =>
      simp only [State.row, hrows]
      exact ⟨_, rfl, rfl⟩

/-- A write stores what it returns. -/
theorem get_of_writes (hwrites : s.writes matchKey refresh) :
    s.get stablePayloadHash matchKey refresh now =
      (computePhaseWindowsPayload stablePayloadHash s.config (s.time matchKey)).map fun p =>
        ({ p with source := "game_config" }, s.rows.putAll (p.windows.map
          (toRow (s.row matchKey) { p with source := "game_config" } (9 / 10) now))) := by
  have hupsert : s.get stablePayloadHash matchKey refresh now =
      upsertMatchPhaseWindows stablePayloadHash s.config s.rows (s.row matchKey) "game_config"
        (9 / 10) true now := by
    unfold State.get getOrComputeMatchPhaseWindows
    cases refresh with
    | true => rfl
    | false =>
        have hnone : rowsOf s.rows matchKey = [] := by simpa [State.writes] using hwrites
        simp only [State.row, hnone]
  have htime : (s.row matchKey).time = s.time matchKey := rfl
  rw [hupsert, upsertMatchPhaseWindows, htime]
  cases computePhaseWindowsPayload stablePayloadHash s.config (s.time matchKey) with
  | error e => rfl
  | ok p => rfl

theorem Recorded.stored_iff (h : Recorded s) :
    rowsOf s.rows matchKey = [] ↔ s.written matchKey = [] := by
  have hoffsets := fun phase => (offsets_rowsOf s.rows matchKey phase).trans (h matchKey phase)
  cases hrows : rowsOf s.rows matchKey with
  | nil =>
      cases hwritten : s.written matchKey with
      | nil => simp
      | cons w rest =>
          have hauto := hoffsets "auto"
          rw [hrows, hwritten, findSome?_offsets] at hauto
          cases hauto
  | cons first rest =>
      have hfirst := hoffsets first.phaseKey
      rw [hrows, offsets, List.map_cons, byPhase, List.lookup_cons_self] at hfirst
      cases hwritten : s.written matchKey with
      | nil =>
          rw [hwritten] at hfirst
          cases hfirst
      | cons w written => simp

theorem Recorded.step (h : Recorded s) {a : Action} {t : State}
    (hstep : (phaseSystem stablePayloadHash).step s a = some t) : Recorded t := by
  cases a with
  | setTime matchKey time =>
      cases hstep
      exact h
  | setConfig config =>
      cases hstep
      exact h
  | get matchKey refresh now =>
      simp only [phaseSystem] at hstep
      cases hwrites : s.writes matchKey refresh with
      | false =>
          rw [State.writes, Bool.or_eq_false_iff] at hwrites
          obtain ⟨p, hget, -⟩ := @get_of_stored stablePayloadHash s matchKey now
            (by simpa using hwrites.2)
          rw [hwrites.1, hget] at hstep
          simp only [State.writes, hwrites.2, Bool.or_false] at hstep
          cases hstep
          exact h
      | true =>
          rw [get_of_writes hwrites] at hstep
          obtain ⟨-, e, hcompute⟩ | ⟨-, p, hcompute, hwindows⟩ :=
            compute_cases stablePayloadHash s.config (s.time matchKey)
          · rw [hcompute] at hstep
            cases hstep
            exact h
          · rw [hcompute, hwrites] at hstep
            cases hstep
            intro key phase
            have hkeys : (p.windows.map Prod.fst).Nodup := hwindows ▸ windows_keys _
            refine (storedWindow_write hkeys _ _ key phase).trans ?_
            rw [h key phase]
            by_cases hkey : key = matchKey
            · rw [hkey]
              simp only [State.row, if_true, Function.update_self, List.findSome?_cons, hwindows]
              cases offsets (inputsOf s.config (s.time matchKey)).windows phase with
              | none => rfl
              | some w => rfl
            · have hrow : ¬ key = (s.row matchKey).matchKey := hkey
              simp only [if_neg hrow, if_true, Function.update_of_ne hkey, Option.none_or]

theorem recorded (h : Reachable (phaseSystem stablePayloadHash) s) : Recorded s := by
  refine h.invariant ?_ fun s a t hs _ hstep => hs.step hstep
  rintro s ⟨hrows, hwritten⟩ matchKey phase
  rw [hwritten, hrows]
  rfl

end

/-! ### What is returned -/

/-- The same phases at the same offsets and times, or the same error. -/
def SameWindows : Except String Payload → Except String Payload → Prop
  | .ok p, .ok q => ∀ phase, offsets p.windows phase = offsets q.windows phase
  | .error e, .error e' => e = e'
  | _, _ => False

/-- Nothing is stored, or the windows of every season were last written from the match time and
the timing of now, and those of the 2026 game too if it is the season's and never if not. -/
def UpToDate (s : State) (matchKey : String) : Prop :=
  match s.written matchKey with
  | [] => True
  | last :: earlier =>
      s.config.seasonYear ≤ rebuiltSeasonYear ∧
        last.base = (inputsOf s.config (s.time matchKey)).base ∧
        ((last :: earlier).find? Inputs.rebuilt).map Inputs.shifts =
          if s.config.seasonYear = rebuiltSeasonYear then
            some (inputsOf s.config (s.time matchKey)).shifts
          else none

theorem stored_windows_current_iff {stablePayloadHash : Params → String} {s : State}
    (h : Reachable (phaseSystem stablePayloadHash) s) (matchKey : String) (now : Nat) :
    SameWindows ((s.get stablePayloadHash matchKey false now).map Prod.fst)
        (computePhaseWindowsPayload stablePayloadHash s.config (s.time matchKey)) ↔
      UpToDate s matchKey := by
  have hrecorded := recorded h
  unfold UpToDate
  cases hwritten : s.written matchKey with
  | nil =>
      have hwrites : s.writes matchKey false := by
        simp [State.writes, hrecorded.stored_iff.mpr hwritten]
      rw [get_of_writes hwrites, iff_true]
      cases computePhaseWindowsPayload stablePayloadHash s.config (s.time matchKey) with
      | error e => rfl
      | ok p => exact fun _ => rfl
  | cons last earlier =>
      have hstored : rowsOf s.rows matchKey ≠ [] := by
        rw [Ne, hrecorded.stored_iff, hwritten]
        exact List.cons_ne_nil _ _
      obtain ⟨p, hget, hwindows⟩ := @get_of_stored stablePayloadHash s matchKey now hstored
      rw [hget]
      obtain ⟨hyear, e, hcompute⟩ | ⟨hyear, q, hcompute, hq⟩ :=
        compute_cases stablePayloadHash s.config (s.time matchKey)
      · rw [hcompute]
        exact ⟨False.elim, fun h => hyear.not_ge h.1⟩
      · rw [hcompute]
        have hsame := written_eq_iff last earlier (inputsOf s.config (s.time matchKey))
        rw [← hwritten] at hsame
        simp only [← hrecorded matchKey, ← offsets_rowsOf, ← hwindows, ← hq] at hsame
        refine Iff.trans hsame ?_
        rw [hwritten]
        simp [inputsOf, hyear]

/-! A match that is put off by an hour after its windows were stored. -/

def rebuiltConfig : GameConfig where
  seasonYear := 2026
  version := "v3-field-dwg-2026-01-12"
  phases := {
    totalSec := 160
    autoSec := 20
    teleopSec := 140
    endgameSec := 30
    positive := by decide
    timing := by decide
    endgame := by decide }

def oneMatch : State where
  config := rebuiltConfig
  eventKey _ := "2026test"
  time _ := some 1800000000
  rows := .empty
  written _ := []

def stored : State where
  config := rebuiltConfig
  eventKey _ := "2026test"
  time _ := some 1800000000
  rows := Table.empty.putAll ((inputsOf rebuiltConfig (some 1800000000)).windows.map
    (toRow (oneMatch.row "2026test_qm1") (computeRebuiltPhaseWindowsPayload (fun _ => "")
      (some 1800000000) rebuiltConfig) (9 / 10) 1))
  written := Function.update (fun _ => []) "2026test_qm1"
    [inputsOf rebuiltConfig (some 1800000000)]

theorem stored_windows_current_once :
    SameWindows ((stored.get (fun _ => "") "2026test_qm1" false 2).map Prod.fst)
      (computePhaseWindowsPayload (fun _ => "") stored.config (stored.time "2026test_qm1")) := by
  have hreached : Reachable (phaseSystem fun _ => "") stored :=
    reachable_of_run [.get "2026test_qm1" false 1] (s := oneMatch) ⟨rfl, fun _ => rfl⟩ rfl
  exact (stored_windows_current_iff hreached "2026test_qm1" 2).mpr ⟨by decide, rfl, rfl⟩

theorem put_off_keeps_windows :
    ∃ s, Reachable (phaseSystem fun _ => "") s ∧
      ¬ SameWindows ((s.get (fun _ => "") "2026test_qm1" false 2).map Prod.fst)
        (computePhaseWindowsPayload (fun _ => "") s.config (s.time "2026test_qm1")) := by
  refine ⟨{ stored with time := Function.update stored.time "2026test_qm1" (some 1800003600) },
    reachable_of_run [.get "2026test_qm1" false 1, .setTime "2026test_qm1" (some 1800003600)]
      (s := oneMatch) ⟨rfl, fun _ => rfl⟩ rfl, fun h => ?_⟩
  have hauto := h "auto"
  revert hauto
  decide +kernel

end Frcmob.Phases
