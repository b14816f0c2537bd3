import Frcmob.Simulation.EventSim

/-!
A bracket only moves alliances about: a match takes two that are still open and leaves both of
them as its winner and its loser. So no alliance meets itself, and one of the finalists is the
first to win two games.
-/

namespace Frcmob.Simulation

variable {K : Type} [Field K] [LinearOrder K] {pWin : List String → List String → K}

/-! ### Matches -/

/-- The slots that are open after the matches, each of which takes two open ones. -/
def openAfter : List (Nat × Slot × Slot) → List Slot → Option (List Slot)
  | [], o => some o
  | (number, x, y) :: rest, o =>
      if x ∈ o ∧ y ∈ o.erase x ∧ .winner number ∉ o ∧ .loser number ∉ o then
        openAfter rest (.winner number :: .loser number :: (o.erase x).erase y)
      else none

/-- Who is in the open slots. -/
def Holds (slots : Slots) (o : List Slot) (alliances : List (List String)) : Prop :=
  (o.map slots).Perm (alliances.map some)

theorem Holds.exists_of_mem {slots : Slots} {o : List Slot} {alliances : List (List String)}
    (h : Holds slots o alliances) {x : Slot} (hx : x ∈ o) :
    ∃ a ∈ alliances, slots x = some a := by
  obtain ⟨a, ha, heq⟩ := List.mem_map.mp (h.mem_iff.mp (List.mem_map_of_mem hx))
  exact ⟨a, ha, heq.symm⟩

theorem setSlots_of_ne {slots : Slots} {number : Nat} {winner loser : List String} {z : Slot}
    (hwinner : z ≠ .winner number) (hloser : z ≠ .loser number) :
    setSlots slots number winner loser z = slots z := by
  rw [setSlots, Function.update_of_ne hloser, Function.update_of_ne hwinner]

/-- The match leaves both alliances, whoever wins. -/
theorem Holds.setSlots {slots : Slots} {o : List Slot} {alliances : List (List String)}
    (h : Holds slots o alliances) {number : Nat} {x y : Slot} {a b winner loser : List String}
    (hx : x ∈ o) (hy : y ∈ o.erase x) (hwinner : .winner number ∉ o) (hloser : .loser number ∉ o)
    (ha : slots x = some a) (hb : slots y = some b) (hsame : [winner, loser].Perm [a, b]) :
    Holds (setSlots slots number winner loser)
      (.winner number :: .loser number :: (o.erase x).erase y) alliances := by
  have hother : ((o.erase x).erase y).map (Simulation.setSlots slots number winner loser) =
      ((o.erase x).erase y).map slots := by
    apply List.map_congr_left
    intro z hz
    have hzo : z ∈ o := List.mem_of_mem_erase (List.mem_of_mem_erase hz)
    exact setSlots_of_ne (fun heq => hwinner (heq ▸ hzo)) fun heq => hloser (heq ▸ hzo)
  have hvalues : (o.map slots).Perm (some a :: some b :: ((o.erase x).erase y).map slots) := by
    have hperm := (List.perm_cons_erase hx).trans ((List.perm_cons_erase hy).cons x)
    have hmap := hperm.map slots
    rwa [List.map_cons, List.map_cons, ha, hb] at hmap
  have hfirst : Simulation.setSlots slots number winner loser (.winner number) = some winner := by
    rw [Simulation.setSlots, Function.update_of_ne (by simp), Function.update_self]
  have hsecond : Simulation.setSlots slots number winner loser (.loser number) = some loser := by
    rw [Simulation.setSlots, Function.update_self]
  rw [Holds, List.map_cons, List.map_cons, hother, hfirst, hsecond]
  have hpair := (hsame.map some).append_right (((o.erase x).erase y).map slots)
  exact hpair.trans (hvalues.symm.trans h)

theorem playSlots_holds {bracket : List (Nat × Slot × Slot)} {slots : Slots} {o o' : List Slot}
    {alliances : List (List String)} (h : Holds slots o alliances)
    (hopen : openAfter bracket o = some o') (r : Rng K) :
    ∃ slots' r', playSlots pWin bracket slots r = some (slots', r') ∧ Holds slots' o' alliances := by
  induction bracket generalizing slots o r with
  | nil =>
      obtain rfl := Option.some_inj.mp hopen
      exact ⟨slots, r, rfl, h⟩
  | cons game rest ih =>
      obtain ⟨number, x, y⟩ := game
      rw [openAfter, Option.ite_none_right_eq_some] at hopen
      obtain ⟨⟨hx, hy, hwinner, hloser⟩, hopen⟩ := hopen
      obtain ⟨a, -, ha⟩ := h.exists_of_mem hx
      obtain ⟨b, -, hb⟩ := h.exists_of_mem (List.mem_of_mem_erase hy)
      simp only [playSlots, ha, hb, Option.bind_eq_bind, Option.bind_some]
      apply ih _ hopen
      split
      · exact h.setSlots hx hy hwinner hloser ha hb (.refl _)
      · exact h.setSlots hx hy hwinner hloser ha hb (.swap ..)

/-! ### The finals -/

theorem playFinals_decided {upper lower : List String} (hne : upper ≠ lower) {games : Nat}
    {wins : List String → Nat} (r : Rng K) (hupper : wins upper ≤ 2) (hlower : wins lower ≤ 2)
    (hgames : wins upper + wins lower + games = 3) :
    ∃ wins' r', playFinals pWin upper lower games wins r = some (wins', r') ∧
      (wins' upper = 2 ∧ wins' lower < 2 ∨ wins' lower = 2 ∧ wins' upper < 2) := by
  induction games generalizing wins r with
  | zero =>
      have hdone : ¬ max (wins upper) (wins lower) < 2 := by omega
      rw [playFinals, if_neg hdone]
      exact ⟨wins, r, rfl, by omega⟩
  | succ games ih =>
      rw [playFinals]
      split
      · have hlt : wins upper < 2 ∧ wins lower < 2 := max_lt_iff.mp ‹_›
        by_cases hwin : r.random < pWin upper lower
        · simp only [if_pos hwin]
          apply ih
          · rw [Function.update_self]
            omega
          · rw [Function.update_of_ne hne.symm]
            exact hlower
          · rw [Function.update_self, Function.update_of_ne hne.symm]
            omega
        · simp only [if_neg hwin]
          apply ih
          · rw [Function.update_of_ne hne]
            exact hupper
          · rw [Function.update_self]
            omega
          · rw [Function.update_self, Function.update_of_ne hne]
            omega
      · exact ⟨wins, r, rfl, by omega⟩

/-! ### The playoffs -/

def seedOrder : List Slot :=
  [.seed 1, .seed 2, .seed 3, .seed 4, .seed 5, .seed 6, .seed 7, .seed 8]

/-- The finalists and those whose last match is behind them. -/
theorem openAfter_bracket : openAfter bracket seedOrder = some [.winner 13, .loser 13, .loser 12,
    .winner 11, .loser 10, .loser 9, .loser 6, .loser 5] := by
  decide

theorem holds_seedSlots {seeds : List (List String)} (hlength : seeds.length = 8) :
    Holds (seedSlots seeds) seedOrder seeds := by
  match seeds, hlength with
  | [_, _, _, _, _, _, _, _], _ => exact .refl _

theorem playoffs_champion {seeds : List (List String)} (hlength : seeds.length = 8)
    (hnodup : seeds.Nodup) (r : Rng K) :
    ∃ champion r', playoffs pWin seeds r = some (champion, r') ∧ champion ∈ seeds := by
  obtain ⟨slots, r₁, hslots, hholds⟩ := playSlots_holds (holds_seedSlots hlength) openAfter_bracket r
  obtain ⟨upper, hupper, hw11⟩ := hholds.exists_of_mem (x := .winner 11) (by decide)
  obtain ⟨lower, hlower, hw13⟩ := hholds.exists_of_mem (x := .winner 13) (by decide)
  have hne : upper ≠ lower := by
    rintro rfl
    have hdistinct := hholds.nodup_iff.mpr (hnodup.map (Option.some_injective _))
    simp only [List.map_cons, hw11, hw13] at hdistinct
    simp at hdistinct
  obtain ⟨wins, r₂, hfinals, -⟩ := @playFinals_decided K _ _ pWin _ _ hne 3 (fun _ => 0) r₁
    (Nat.zero_le 2) (Nat.zero_le 2) rfl
  refine ⟨if wins upper = 2 then upper else lower, r₂, ?_, ?_⟩
  · rw [playoffs, hslots]
    simp only [Option.bind_eq_bind, Option.bind_some, hw11, hw13, hfinals]
    rfl
  · split
    · exact hupper
    · exact hlower

end Frcmob.Simulation
