import Mathlib.Data.List.InsertIdx
import Mathlib.Data.List.TakeWhile
import Frcmob.Picklists.Strongest

/-!
The alliance selection that the event simulation runs (`event_sim.py`) and the draft on a
picklist are the same draft.
-/

namespace Frcmob.Picklists

section Simulation
variable {α : Type*} [LinearOrder α] [Zero α]

/-- `strength.get(t, 0.0)`. -/
def strengthOf (strength : String → Option α) (team : String) : α :=
  (strength team).getD 0

/-- Strongest first, and in ranking order where two are equally strong. -/
def byStrength (order : List String) (strength : String → Option α) : List String :=
  order.mergeSort fun a b => strengthOf strength b ≤ strengthOf strength a

/-- `nextUp` is the place in the ranking where the search for the next captain goes on. -/
structure Selection where
  captains : List String
  nextUp : Nat
  seated : List String
  alliances : List (List String)
deriving DecidableEq

/-- Past the teams that are on an alliance. -/
def Selection.skipTaken (s : Selection) (order : List String) : Nat :=
  s.nextUp + ((order.drop s.nextUp).takeWhile fun t => t ∈ s.seated ∨ t ∈ s.captains).length

def Selection.promote (s : Selection) (order : List String) : Selection :=
  let nextUp := s.skipTaken order
  match order[nextUp]? with
  | some team => { s with captains := s.captains ++ [team], nextUp := nextUp + 1 }
  | none => { s with nextUp := nextUp }

/-- The captain of the seat has picked the team. -/
def Selection.accept (s : Selection) (order : List String) (seat : Nat) (captain pick : String) :
    Selection :=
  let next : Selection := { s with
    seated := s.seated ++ [pick]
    alliances := s.alliances ++ [[captain, pick]] }
  if pick ∈ s.captains.drop (seat + 1) then
    Selection.promote { next with captains := s.captains.erase pick } order
  else next

def roundOne (order byStrength : List String) : List Nat → Selection → Selection
  | [], s => s
  | seat :: seats, s =>
      match s.captains[seat]? with
      | none => s
      | some captain =>
          let s := { s with seated := s.seated ++ [captain] }
          match byStrength.find? fun t => t ∉ s.seated ∧ t ≠ captain with
          | none => s
          | some pick => roundOne order byStrength seats (s.accept order seat captain pick)

/-- Over the alliances from the last to the first. -/
def roundTwo (byStrength : List String) : List (List String) → List String → List (List String)
  | [], _ => []
  | alliance :: rest, seated =>
      match byStrength.find? fun t => t ∉ seated with
      | none => alliance :: rest
      | some pick => (alliance ++ [pick]) :: roundTwo byStrength rest (seated ++ [pick])

def firstSeats (order : List String) : Selection where
  captains := order.take 8
  nextUp := 8
  seated := []
  alliances := []

def selectAlliances (order : List String) (strength : String → Option α) :
    List (List String) :=
  let byStrength := byStrength order strength
  let s := roundOne order byStrength (List.range 8) (firstSeats order)
  (roundTwo byStrength s.alliances.reverse s.seated).reverse

/-! ### The strongest team left -/

theorem find_byStrength {order : List String} {strength : String → Option α}
    (hstrict : Set.InjOn (strengthOf strength) {t | t ∈ order}) (p : String → Prop)
    [DecidablePred p] :
    (byStrength order strength).find? (p ·) =
      (order.filter (p ·)).argmax (strengthOf strength) := by
  have hsorted : (byStrength order strength).Pairwise
      fun a b => strengthOf strength b ≤ strengthOf strength a := by
    have hle := @List.pairwise_mergeSort _
      (fun a b => decide (strengthOf strength b ≤ strengthOf strength a))
      (fun a b c hab hbc => by simpa using (of_decide_eq_true hbc).trans (of_decide_eq_true hab))
      (fun a b => by simpa using le_total _ _) order
    exact hle.imp fun h => of_decide_eq_true h
  cases hfind : (byStrength order strength).find? (p ·) with
  | none =>
      refine (List.argmax_eq_none.mpr (List.filter_eq_nil_iff.mpr fun t ht => ?_)).symm
      exact List.find?_eq_none.mp hfind t (List.mem_mergeSort.mpr ht)
  | some pick =>
      obtain ⟨hpick, before, after, hsplit, hbefore⟩ := List.find?_eq_some_iff_append.mp hfind
      have hin : pick ∈ order := List.mem_mergeSort.mp (List.mem_of_find?_eq_some hfind)
      rw [hsplit] at hsorted
      have hbest : ∀ t ∈ order.filter (p ·), strengthOf strength t ≤ strengthOf strength pick := by
        intro t ht
        obtain ⟨hmem, ht⟩ := List.mem_filter.mp ht
        have hmem : t ∈ before ++ pick :: after := hsplit ▸ List.mem_mergeSort.mpr hmem
        cases List.mem_append.mp hmem with
        | inl hb => exact absurd ht (by simpa using hbefore t hb)
        | inr ha =>
            cases List.mem_cons.mp ha with
            | inl heq => exact heq ▸ le_rfl
            | inr ha =>
                exact (List.pairwise_cons.mp (List.pairwise_append.mp hsorted).2.1).1 t ha
      refine (List.argmax_eq_some_iff.mpr
        ⟨List.mem_filter.mpr ⟨hin, hpick⟩, hbest, fun t ht hle => ?_⟩).symm
      have hsame : strengthOf strength pick = strengthOf strength t := hle.antisymm (hbest t ht)
      rw [hstrict hin (List.mem_filter.mp ht).1 hsame]

end Simulation

/-! ### Round one -/

theorem find_takeWhile (p : String → Bool) (l : List String) :
    l.find? (!p ·) = l[(l.takeWhile p).length]? := by
  induction l with
  | nil => rfl
  | cons t rest ih => cases ht : p t <;> simp [ht, ih]

/-- The search goes on where it stopped. -/
theorem find_skip {p : String → Bool} {l : List String} {n : Nat}
    (h : ∀ t ∈ l.take n, p t = true) :
    l.find? (!p ·) = l[n + ((l.drop n).takeWhile p).length]? ∧
      ∀ t ∈ l.take (n + ((l.drop n).takeWhile p).length), p t = true := by
  constructor
  · have hnone : (l.take n).find? (!p ·) = none :=
      List.find?_eq_none.mpr fun t ht => by simp [h t ht]
    rw [← List.getElem?_drop, ← find_takeWhile]
    conv_lhs => rw [← List.take_append_drop n l, List.find?_append, hnone]
    rfl
  · intro t ht
    rw [List.take_add] at ht
    cases List.mem_append.mp ht with
    | inl hold => exact h t hold
    | inr hnew =>
        have htaken := List.prefix_iff_eq_take.mp (List.takeWhile_prefix p (l := l.drop n))
        rw [← htaken] at hnew
        exact List.mem_takeWhile_imp hnew

theorem Selection.promote_spec (s : Selection) (order : List String) {taken : List String}
    (htaken : ∀ t, t ∈ taken ↔ t ∈ s.seated ∨ t ∈ s.captains)
    (h : ∀ t ∈ order.take s.nextUp, t ∈ taken) :
    (s.promote order).captains = s.captains ++ (order.find? (· ∉ taken)).toList ∧
      (s.promote order).seated = s.seated ∧ (s.promote order).alliances = s.alliances ∧
      ∀ t ∈ order.take (s.promote order).nextUp,
        t ∈ taken ∨ t ∈ (order.find? (· ∉ taken)).toList := by
  obtain ⟨hfind, hskip⟩ := find_skip (p := fun t => t ∈ s.seated ∨ t ∈ s.captains) (n := s.nextUp)
    (l := order) fun t ht => decide_eq_true ((htaken t).mp (h t ht))
  have hsame : order.find? (· ∉ taken) = order[s.skipTaken order]? := by
    rw [Selection.skipTaken, ← hfind]
    congr 1
    funext t
    simp [htaken]
  have hbefore : ∀ t ∈ order.take (s.skipTaken order), t ∈ taken :=
    fun t ht => (htaken t).mpr (of_decide_eq_true (hskip t ht))
  rw [hsame, Selection.promote]
  cases hnext : order[s.skipTaken order]? with
  | none =>
      simp only [Option.toList_none, List.append_nil]
      exact ⟨trivial, trivial, trivial, fun t ht => .inl (hbefore t ht)⟩
  | some team =>
      refine ⟨rfl, rfl, rfl, fun t ht => ?_⟩
      simp only [List.take_add_one, hnext] at ht
      exact (List.mem_append.mp ht).imp_left (hbefore t)

namespace Seating

/-- An alliance as the list of its teams. -/
def team (d : Seating) (i : Nat) : List String :=
  d.captains[i]?.toList ++ (d.made.filter (·.2 = i + 1)).map (·.1)

theorem team_pick {d : Seating} {order : List String} {pick : String} {i number : Nat}
    (hcaptain : (d.pick order pick number).captains[i]? = d.captains[i]?) :
    (d.pick order pick number).team i =
      d.team i ++ if number = i + 1 then [pick] else [] := by
  rw [team, hcaptain]
  by_cases hnumber : number = i + 1
  · simp [team, Seating.pick, hnumber]
  · simp [team, Seating.pick, hnumber]

/-- The first of the listed teams that the alliance on the clock may pick. -/
def first (listed : List String) (d : Seating) : Option String :=
  listed.find? (d.IsOpen ·)

def pickFirst (listed ranked : List String) (d : Seating) : Seating :=
  match d.first listed, pickOrder[d.made.length]? with
  | some team, some number => d.pick ranked team number
  | _, _ => d

namespace Underway
variable {d : Seating} {order : List String} {pick : String}

/-- The seats up to the one on the clock keep their captains. -/
theorem take_captains_pick (h : d.Underway order) (hopen : d.IsOpen pick) (number : Nat) :
    (d.pick order pick number).captains.take (d.made.length + 1) =
      d.captains.take (d.made.length + 1) := by
  by_cases hcaptain : pick ∈ d.captains
  · have hbelow : pick ∈ d.captains.drop (d.made.length + 1) := by
      cases hopen with
      | inl hfree => exact absurd (List.mem_append_left _ hcaptain) hfree
      | inr hbelow => exact hbelow.2
    obtain ⟨j, hj⟩ := List.mem_iff_getElem?.mp hcaptain
    have hle := (mem_drop_of_getElem? h.good.captains_nodup hj).mp hbelow
    have hlt := (List.getElem?_eq_some_iff.mp hj).1
    simp only [Seating.pick, if_pos hcaptain]
    rw [List.erase_eq_eraseIdx_of_idxOf (idxOf_of_getElem? h.good.captains_nodup hj),
      List.take_append_of_le_length, List.take_eraseIdx_eq_take_of_le _ _ _ hle]
    rw [List.length_eraseIdx_of_lt hlt]
    omega
  · simp [Seating.pick, hcaptain]

theorem exists_first {listed : List String} (h : d.Underway order) (hlisted : listed.Perm order)
    (hnodup : order.Nodup) (hlength : 24 ≤ order.length) (hmade : d.made.length < 16) :
    ∃ team, d.first listed = some team ∧ team ∈ order ∧ d.IsOpen team := by
  obtain ⟨team, hteam⟩ := h.exists_next hnodup hlength hmade
  obtain ⟨hmem, hfresh⟩ := mem_next hteam
  cases hfirst : d.first listed with
  | none =>
      have hnot := List.find?_eq_none.mp hfirst team (hlisted.mem_iff.mpr hmem)
      exact absurd (decide_eq_true (Or.inl hfresh)) hnot
  | some first =>
      have hfound : (listed.find? fun t => d.IsOpen t) = some first := hfirst
      exact ⟨first, rfl, hlisted.mem_iff.mp (List.mem_of_find?_eq_some hfound),
        by simpa using List.find?_some hfound⟩

/-- Which team is next and which alliance gets it. -/
theorem exists_pickFirst {listed : List String} (h : d.Underway order) (hlisted : listed.Perm order)
    (hnodup : order.Nodup) (hlength : 24 ≤ order.length) (hmade : d.made.length < 16) :
    ∃ team number, d.first listed = some team ∧ pickOrder[d.made.length]? = some number ∧
      d.pickFirst listed order = d.pick order team number ∧ d.IsOpen team ∧
        (d.pick order team number).Underway order := by
  obtain ⟨team, hteam, hmem, hopen⟩ := h.exists_first hlisted hnodup hlength hmade
  obtain ⟨number, hnumber⟩ := exists_number hmade
  refine ⟨team, number, hteam, hnumber, ?_, hopen, h.pick hnodup hlength hmem hopen hnumber⟩
  rw [pickFirst, hteam, hnumber]

theorem isOpen_iff_of_roundTwo (hround : allianceCount ≤ d.made.length) (t : String) :
    d.IsOpen t ↔ t ∉ d.taken := by
  rw [IsOpen]
  have hnot : ¬ d.made.length < allianceCount := Nat.not_lt.mpr hround
  simp [hnot]

theorem isOpen_iff_of_roundOne (h : d.Underway order) (hround : d.made.length < allianceCount)
    (t : String) : d.IsOpen t ↔
      t ∉ d.captains.take (d.made.length + 1) ∧ t ∉ d.made.map (·.1) := by
  have hsplit : t ∈ d.captains ↔
      t ∈ d.captains.take (d.made.length + 1) ∨ t ∈ d.captains.drop (d.made.length + 1) := by
    rw [← List.mem_append, List.take_append_drop]
  have hapart : t ∈ d.captains.drop (d.made.length + 1) →
      t ∉ d.captains.take (d.made.length + 1) ∧ t ∉ d.made.map (·.1) := by
    intro hdrop
    have hnodup := h.good.captains_nodup
    rw [← List.take_append_drop (d.made.length + 1) d.captains] at hnodup
    exact ⟨fun htake => (List.nodup_append.mp hnodup).2.2 t htake t hdrop rfl,
      h.good.notMem_made (List.mem_of_mem_drop hdrop)⟩
  simp only [IsOpen, taken, List.mem_append, hsplit, hround, true_and]
  constructor
  · intro hopen
    cases hopen with
    | inl hfree => exact ⟨fun ht => hfree (.inl (.inl ht)), fun ht => hfree (.inr ht)⟩
    | inr hdrop => exact hapart hdrop
  · intro hopen
    by_cases hdrop : t ∈ d.captains.drop (d.made.length + 1)
    · exact .inr hdrop
    · refine .inl fun ht => ?_
      cases ht with
      | inl hcaptain =>
          cases hcaptain with
          | inl htake => exact hopen.1 htake
          | inr hin => exact hdrop hin
      | inr hmade => exact hopen.2 hmade

end Underway
end Seating

/-- The selection after the seats so far and the draft after as many picks. -/
structure Selection.Matches (order : List String) (s : Selection) (d : Seating) : Prop where
  captains : s.captains = d.captains
  alliances : s.alliances = (List.range d.made.length).map d.team
  seated : ∀ t, t ∈ s.seated ↔ t ∈ d.captains.take d.made.length ∨ t ∈ d.made.map (·.1)
  nextUp : ∀ t ∈ order.take s.nextUp, t ∈ d.taken

theorem first_numbers : ∀ k < 8, pickOrder[k]? = some (k + 1) ∧ ∀ n ∈ pickOrder.take k, n ≤ k := by
  decide

theorem second_numbers : ∀ n < 8, pickOrder[16 - (n + 1)]? = some (n + 1) := by
  decide

namespace Selection.Matches
variable {order : List String} {s : Selection} {d : Seating}

/-- The captain of the next seat picks a team that is open to their alliance. -/
theorem accept (h : Matches order s d) (hunderway : d.Underway order)
    (hround : d.made.length < 8) {captain pick : String}
    (hcaptain : d.captains[d.made.length]? = some captain) (hopen : d.IsOpen pick) :
    Matches order
      (Selection.accept { s with seated := s.seated ++ [captain] } order d.made.length captain pick)
      (d.pick order pick (d.made.length + 1)) := by
  have hmade : (d.pick order pick (d.made.length + 1)).made.length = d.made.length + 1 := by
    simp [Seating.pick]
  have htake := hunderway.take_captains_pick hopen (d.made.length + 1)
  have hseats : ∀ i ≤ d.made.length,
      (d.pick order pick (d.made.length + 1)).captains[i]? = d.captains[i]? := by
    intro i hi
    rw [← List.getElem?_take_of_lt (Nat.lt_succ_of_le hi), htake,
      List.getElem?_take_of_lt (Nat.lt_succ_of_le hi)]
  have hlast : d.team d.made.length = [captain] := by
    have hnone : d.made.filter (·.2 = d.made.length + 1) = [] := by
      refine List.filter_eq_nil_iff.mpr fun p hp => ?_
      have hnumber : p.2 ∈ pickOrder.take d.made.length :=
        hunderway.order ▸ List.mem_map_of_mem hp
      have hle := (first_numbers _ hround).2 _ hnumber
      simp only [decide_eq_true_eq]
      omega
    rw [Seating.team, hcaptain, hnone]
    rfl
  have hteams : s.alliances ++ [[captain, pick]] = (List.range (d.made.length + 1)).map
      (d.pick order pick (d.made.length + 1)).team := by
    rw [List.range_succ, List.map_append, h.alliances]
    congr 1
    · refine List.map_congr_left fun i hi => ?_
      have hlt := List.mem_range.mp hi
      have hne : d.made.length + 1 ≠ i + 1 := by omega
      rw [Seating.team_pick (hseats i hlt.le), if_neg hne, List.append_nil]
    · rw [List.map_singleton, Seating.team_pick (hseats _ le_rfl), if_pos rfl, hlast]
      rfl
  have hseated : ∀ t, t ∈ s.seated ++ [captain] ++ [pick] ↔
      t ∈ d.captains.take (d.made.length + 1) ∨ t ∈ (d.made ++ [(pick, d.made.length + 1)]).map
        (·.1) := by
    intro t
    simp only [List.mem_append, h.seated, List.mem_singleton, List.take_add_one, hcaptain,
      Option.mem_toList, Option.some_inj, List.map_append, List.map_cons, List.map_nil,
      @eq_comm _ captain]
    tauto
  by_cases hbelow : pick ∈ d.captains.drop (d.made.length + 1)
  · have hin : pick ∈ d.captains := List.mem_of_mem_drop hbelow
    have htaken : ∀ t, t ∈ d.taken ↔
        t ∈ s.seated ++ [captain] ++ [pick] ∨ t ∈ s.captains.erase pick := by
      intro t
      rw [hseated, h.captains, hunderway.good.captains_nodup.mem_erase_iff]
      simp only [Seating.taken, List.mem_append, List.map_append, List.map_cons, List.map_nil,
        List.mem_singleton]
      constructor
      · intro ht
        by_cases heq : t = pick
        · exact .inl (.inr (.inr heq))
        · exact ht.elim (fun hc => .inr ⟨heq, hc⟩) fun hm => .inl (.inr (.inl hm))
      · intro ht
        rcases ht with (hc | hm | heq) | hc
        · exact .inl (List.mem_of_mem_take hc)
        · exact .inr hm
        · exact .inl (heq ▸ hin)
        · exact .inl hc.2
    have hpromote := promote_spec { s with
      seated := s.seated ++ [captain] ++ [pick]
      alliances := s.alliances ++ [[captain, pick]]
      captains := s.captains.erase pick } order htaken h.nextUp
    obtain ⟨hcaptains, hkept, halliances, hnext⟩ := hpromote
    have hjoined : (d.pick order pick (d.made.length + 1)).captains =
        d.captains.erase pick ++ (order.find? (· ∉ d.taken)).toList := by
      rw [Seating.pick, if_pos hin]
      rfl
    rw [Selection.accept, if_pos (h.captains ▸ hbelow)]
    refine ⟨?_, ?_, fun t => ?_, fun t ht => ?_⟩
    · rw [hcaptains, hjoined, h.captains]
    · rw [halliances, hmade, hteams]
    · rw [hkept, hseated, hmade, htake]
      rfl
    · rw [Seating.taken, hjoined]
      simp only [Seating.pick, List.map_append, List.mem_append]
      cases hnext t ht with
      | inr hjoins => exact .inl (.inr hjoins)
      | inl hold =>
          cases List.mem_append.mp hold with
          | inr hm => exact .inr (.inl hm)
          | inl hc =>
              by_cases heq : t = pick
              · exact .inr (.inr (by simp [heq]))
              · exact .inl (.inl ((hunderway.good.captains_nodup.mem_erase_iff).mpr ⟨heq, hc⟩))
  · have hout : pick ∉ d.captains := by
      intro hin
      cases hopen with
      | inl hfree => exact hfree (List.mem_append_left _ hin)
      | inr hdrop => exact hbelow hdrop.2
    rw [Selection.accept, if_neg (h.captains ▸ hbelow)]
    refine ⟨?_, ?_, fun t => ?_, fun t ht => ?_⟩
    · simpa [Seating.pick, hout] using h.captains
    · rw [hmade, ← hteams]
    · rw [hmade, htake, hseated]
      rfl
    · rw [Seating.taken_pick hout]
      exact List.mem_append_left _ (h.nextUp t ht)

end Selection.Matches

section Agreement
variable {α : Type*} [LinearOrder α] [Zero α] {order : List String}
  {strength : String → Option α}

theorem perm_byStrength (order : List String) (strength : String → Option α) :
    (byStrength order strength).Perm order :=
  List.mergeSort_perm ..

theorem pickFirst_eq (hstrict : Set.InjOn (strengthOf strength) {t | t ∈ order}) :
    Seating.pickFirst (byStrength order strength) order =
      Seating.pickStrongest (strengthOf strength) order := by
  funext d
  rw [Seating.pickFirst, Seating.first, find_byStrength hstrict]
  rfl

theorem roundOne_matches (hnodup : order.Nodup) (hlength : 24 ≤ order.length)
    (strength : String → Option α) (n : Nat) {s : Selection} {d : Seating} (h : s.Matches order d) (hunderway : d.Underway order)
    (hn : d.made.length + n = 8) :
    (roundOne order (byStrength order strength) (List.range' d.made.length n) s).Matches order
      ((Seating.pickFirst (byStrength order strength) order)^[n] d) := by
  induction n generalizing s d with
  | zero => exact h
  | succ n ih =>
      have hround : d.made.length < 8 := by omega
      have hseat : d.made.length < d.captains.length := hunderway.good.length ▸ hround
      have hcaptain := List.getElem?_eq_getElem hseat
      obtain ⟨pick, number, hpick, hnumber, hnext, hopen, hunder'⟩ :=
        hunderway.exists_pickFirst (perm_byStrength order strength) hnodup hlength (by omega)
      obtain rfl : d.made.length + 1 = number :=
        Option.some_inj.mp ((first_numbers _ hround).1.symm.trans hnumber)
      have hfind : ((byStrength order strength).find? fun t =>
          t ∉ s.seated ++ [d.captains[d.made.length]] ∧ t ≠ d.captains[d.made.length]) =
            some pick := by
        rw [← hpick, Seating.first]
        congr 1
        funext t
        rw [decide_eq_decide, hunderway.isOpen_iff_of_roundOne hround]
        simp only [List.mem_append, h.seated, List.mem_singleton, List.take_add_one, hcaptain,
          Option.mem_toList, Option.some_inj, @eq_comm _ d.captains[d.made.length]]
        tauto
      have hmatches := h.accept hunderway hround hcaptain hopen
      have hlength' : (d.pick order pick (d.made.length + 1)).made.length = d.made.length + 1 := by
        simp [Seating.pick]
      have hrest := ih hmatches hunder' (by omega)
      rw [hlength'] at hrest
      have hsame : s.captains[d.made.length]? = some d.captains[d.made.length] := by
        rw [h.captains]
        exact hcaptain
      rw [List.range'_succ, roundOne, hsame, Function.iterate_succ_apply, hnext]
      simp only [hfind]
      exact hrest

/-! ### Round two -/

theorem roundTwo_matches (hnodup : order.Nodup) (hlength : 24 ≤ order.length)
    (strength : String → Option α) (n : Nat) {seated : List String} {d : Seating} (hunderway : d.Underway order) (hn : d.made.length + n = 16) (hround : n ≤ 8)
    (hseated : ∀ t, t ∈ seated ↔ t ∈ d.taken) :
    roundTwo (byStrength order strength) ((List.range n).map d.team).reverse seated =
        ((List.range n).map
          ((Seating.pickFirst (byStrength order strength) order)^[n] d).team).reverse ∧
      ∀ i, n ≤ i → ((Seating.pickFirst (byStrength order strength) order)^[n] d).team i =
        d.team i := by
  induction n generalizing seated d with
  | zero => exact ⟨rfl, fun _ _ => rfl⟩
  | succ n ih =>
      obtain ⟨pick, number, hpick, hnumber, hnext, hopen, hunder'⟩ :=
        hunderway.exists_pickFirst (perm_byStrength order strength) hnodup hlength (by omega)
      have hplace : d.made.length = 16 - (n + 1) := by omega
      obtain rfl : n + 1 = number := by
        rw [hplace] at hnumber
        exact Option.some_inj.mp ((second_numbers n hround).symm.trans hnumber)
      have hsecond : allianceCount ≤ d.made.length := by
        simp only [allianceCount]
        omega
      have hfresh : pick ∉ d.taken :=
        (Seating.Underway.isOpen_iff_of_roundTwo hsecond pick).mp hopen
      have hout : pick ∉ d.captains := fun hin => hfresh (List.mem_append_left _ hin)
      have hfind : ((byStrength order strength).find? fun t => t ∉ seated) = some pick := by
        rw [← hpick, Seating.first]
        congr 1
        funext t
        rw [decide_eq_decide, Seating.Underway.isOpen_iff_of_roundTwo hsecond, hseated]
      have hteam : ∀ i, (d.pick order pick (n + 1)).team i =
          d.team i ++ if n + 1 = i + 1 then [pick] else [] :=
        fun i => Seating.team_pick (by simp [Seating.pick, hout])
      obtain ⟨hrest, hkept⟩ := @ih (seated ++ [pick]) _ hunder'
        (by simp [Seating.pick]; omega) (by omega) fun t => by
          simp [Seating.taken_pick hout, hseated]
      have hbefore : (List.range n).map (d.pick order pick (n + 1)).team =
          (List.range n).map d.team := by
        refine List.map_congr_left fun i hi => ?_
        have hne : n + 1 ≠ i + 1 := by
          have hlt := List.mem_range.mp hi
          omega
        rw [hteam, if_neg hne, List.append_nil]
      rw [Function.iterate_succ_apply, hnext]
      constructor
      · rw [List.range_succ, List.map_append, List.map_append, List.reverse_append,
          List.reverse_append, ← hrest, hbefore, List.map_singleton, List.map_singleton,
          hkept n le_rfl, hteam n, if_pos rfl]
        simp only [List.reverse_singleton, List.singleton_append, roundTwo, hfind]
      · intro i hi
        have hne : n + 1 ≠ i + 1 := by omega
        rw [hkept i (by omega), hteam, if_neg hne, List.append_nil]

/-! ### The whole draft -/

theorem underway_start (hnodup : order.Nodup) (hlength : 24 ≤ order.length) :
    Seating.Underway order { captains := order.take 8, made := [] } := by
  have htop : (order.take allianceCount).Nodup := hnodup.sublist (List.take_sublist ..)
  have hgood := good_seeded htop ((by decide : allianceCount ≤ 24).trans hlength)
  refine ⟨hgood, rfl, fun t ht => ?_⟩
  simp only [Seating.taken, List.map_nil, List.append_nil] at ht
  exact List.mem_of_mem_take ht

theorem Seating.Underway.iterate_pickFirst {listed : List String} {d : Seating}
    (h : d.Underway order) (hlisted : listed.Perm order) (hnodup : order.Nodup)
    (hlength : 24 ≤ order.length) {n : Nat} (hn : d.made.length + n ≤ 16) :
    ((Seating.pickFirst listed order)^[n] d).Underway order ∧
      ((Seating.pickFirst listed order)^[n] d).made.length = d.made.length + n := by
  induction n generalizing d with
  | zero => exact ⟨h, rfl⟩
  | succ n ih =>
      obtain ⟨team, number, -, -, hpick, -, hunder⟩ :=
        h.exists_pickFirst hlisted hnodup hlength (by omega)
      have hmade : (d.pick order team number).made.length = d.made.length + 1 := by
        simp [Seating.pick]
      rw [Function.iterate_succ_apply, hpick]
      have hrest := ih hunder (by omega)
      rw [hmade] at hrest
      exact ⟨hrest.1, by omega⟩

/-- The alliances are those of a draft in which all sixteen picks were made. -/
theorem selectAlliances_eq (hnodup : order.Nodup) (hlength : 24 ≤ order.length)
    (strength : String → Option α) : selectAlliances order strength = (List.range 8).map
      ((Seating.pickFirst (byStrength order strength) order)^[16]
        { captains := order.take 8, made := [] }).team := by
  have hstart := underway_start hnodup hlength
  have hfirst : (firstSeats order).Matches order { captains := order.take 8, made := [] } := by
    refine ⟨rfl, rfl, fun t => ?_, fun t ht => ?_⟩
    · simp [firstSeats]
    · exact List.mem_append_left _ ht
  have hone := roundOne_matches hnodup hlength strength 8 hfirst hstart rfl
  obtain ⟨hhalf, hmade⟩ := @Seating.Underway.iterate_pickFirst _ _ _ hstart
    (perm_byStrength order strength) hnodup hlength 8 (Nat.le_of_ble_eq_true rfl)
  rw [List.length_nil, Nat.zero_add] at hmade
  have hcaptains : ((Seating.pickFirst (byStrength order strength) order)^[8]
      { captains := order.take 8, made := [] }).captains.length ≤ 8 := hhalf.good.length.le
  have htwo := (roundTwo_matches hnodup hlength strength 8 hhalf (by omega) le_rfl
    fun t => by
      rw [hone.seated, hmade, List.take_of_length_le hcaptains, Seating.taken, List.mem_append]).1
  have halliances := hone.alliances
  rw [hmade] at halliances
  rw [← Function.iterate_add_apply] at htwo
  rw [selectAlliances, List.range_eq_range']
  simp only [List.length_nil] at hone halliances htwo
  rw [halliances, htwo, List.reverse_reverse]
  rfl

/-! ### The same alliances -/

/-- The same captain and the same picks, which the board has in the order of its slots. -/
def SameAlliance (alliance : Alliance) (teams : List String) : Prop :=
  ∃ captain picks, teams = captain :: picks ∧ alliance.captain = some captain ∧
    alliance.picks.Perm picks

theorem Follows.forall_sameAlliance {slots : List PicklistSlot} {d : Seating}
    (h : Follows order slots d) :
    List.Forall₂ SameAlliance (draftFromSlots slots).alliances ((List.range 8).map d.team) := by
  have hgood := h.underway.good
  refine List.forall₂_map_left_iff.mpr (List.forall₂_map_right_iff.mpr ?_)
  refine List.forall₂_same.mpr fun i hi => ?_
  have hlt : i < d.captains.length := hgood.length ▸ List.mem_range.mp hi
  have hcaptain := List.getElem?_eq_getElem hlt
  refine ⟨d.captains[i], (d.made.filter (·.2 = i + 1)).map (·.1), ?_, ?_, ?_⟩
  · rw [Seating.team, hcaptain]
    rfl
  · exact (h.shown.captainOf i).trans hcaptain
  · exact h.shown.perm_picksOf hgood (i + 1)

theorem follows_seedCaptains {list : List PicklistSlot} (hnodup : order.Nodup)
    (hlength : 24 ≤ order.length) (hdistinct : (list.map (·.teamKey)).Nodup)
    (hnone : NoneDeclined list) :
    Follows order (seedCaptains list order) { captains := order.take 8, made := [] } := by
  have htop : (order.take allianceCount).Nodup := hnodup.sublist (List.take_sublist ..)
  exact ⟨shows_seedCaptains (oneStatus_of_distinct hdistinct) htop,
    underway_start hnodup hlength, hnone.seedCaptains order⟩

/-- On at least 24 distinct ranked teams, no two as strong as each other, the draft on a
picklist whose teams have declined nothing has a strongest team to pick sixteen times, and
then its alliances are the ones of the simulation. -/
theorem selections_agree (hnodup : order.Nodup) (hlength : 24 ≤ order.length)
    (hstrict : Set.InjOn (strengthOf strength) {t | t ∈ order}) {list : List PicklistSlot}
    (hdistinct : (list.map (·.teamKey)).Nodup) (hnone : NoneDeclined list) :
    (∀ k < 16, ∃ team, strongest (strengthOf strength) order
      ((pickStrongest (strengthOf strength) order)^[k] (seedCaptains list order)) = some team) ∧
    List.Forall₂ SameAlliance
      (draftFromSlots ((pickStrongest (strengthOf strength) order)^[16]
        (seedCaptains list order))).alliances
      (selectAlliances order strength) := by
  have hstart := follows_seedCaptains hnodup hlength hdistinct hnone
  have hruns := fun {k} (hk : k ≤ 16) =>
    hstart.iterate hnodup hlength rfl (strengthOf strength) hk
  constructor
  · intro k hk
    obtain ⟨hfollows, hmade⟩ := hruns hk.le
    rw [hfollows.strongest_eq (hmade.trans_lt hk)]
    exact hfollows.underway.exists_strongest hnodup hlength (hmade.trans_lt hk) _
  · rw [selectAlliances_eq hnodup hlength, pickFirst_eq hstrict]
    exact (hruns le_rfl).1.forall_sameAlliance

end Agreement

/-! The best-ranked team is the strongest, so the captains pick each other. -/

def fullRanked : List String :=
  longRanked ++ ["frc24"]

def rankStrength (team : String) : Option Nat :=
  some (24 - fullRanked.idxOf team)

theorem rankStrength_strict : Set.InjOn (strengthOf rankStrength) {t | t ∈ fullRanked} := by
  intro t ht u hu heq
  have hlength : fullRanked.length = 24 := rfl
  have ht' : fullRanked.idxOf t < 24 := hlength ▸ List.idxOf_lt_length_of_mem ht
  have hu' : fullRanked.idxOf u < 24 := hlength ▸ List.idxOf_lt_length_of_mem hu
  simp only [strengthOf, rankStrength, Option.getD_some] at heq
  refine (List.idxOf_inj ht).mp ?_
  omega

theorem selections_agree_ranked :
    (∀ k < 16, ∃ team, strongest (strengthOf rankStrength) fullRanked
      ((pickStrongest (strengthOf rankStrength) fullRanked)^[k] (seedCaptains [] fullRanked)) =
        some team) ∧
    List.Forall₂ SameAlliance
      (draftFromSlots ((pickStrongest (strengthOf rankStrength) fullRanked)^[16]
        (seedCaptains [] fullRanked))).alliances
      (selectAlliances fullRanked rankStrength) :=
  selections_agree (by decide) (by decide) rankStrength_strict List.nodup_nil fun _ => nofun

end Frcmob.Picklists
