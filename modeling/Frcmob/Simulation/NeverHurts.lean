import Frcmob.Simulation.Totals
import Frcmob.Simulation.WhatIf
import Mathlib.Data.Rat.Floor
import Mathlib.Tactic.Linarith
import Mathlib.Tactic.NormNum
import Mathlib.Tactic.Ring

/-!
A match that is set to a win leaves the team no worse off than one that is set to a loss. Both
simulations draw the same numbers, and in every run no other team gains as much from the win as
the team itself.
-/

namespace Frcmob.Simulation

open Places Rounding

variable {K : Type} [Field K] [LinearOrder K]

/-! ### One match -/

/-- The row after `n` entries of the same match. -/
def Standing.addMany (row : Standing K) (n : Nat) (rp pts : K) : Standing K where
  rankingPoints := row.rankingPoints + n * rp
  matchCount := row.matchCount + n
  points := row.points + n * pts

omit [LinearOrder K] in
theorem Standing.add_addMany (row : Standing K) (n : Nat) (rp pts : K) :
    (row.add rp pts).addMany n rp pts = row.addMany (n + 1) rp pts := by
  simp only [addMany, add, mk.injEq]
  refine ⟨?_, ?_, ?_⟩
  · push_cast
    ring
  · omega
  · push_cast
    ring

omit [LinearOrder K] in
theorem playSide_apply (table : String → Standing K) (side : List String) (rp pts : K)
    (u : String) : playSide table side rp pts u = (table u).addMany (side.count u) rp pts := by
  unfold playSide
  induction side generalizing table with
  | nil => simp [Standing.addMany]
  | cons t rest ih =>
      rw [List.foldl_cons, ih]
      by_cases ht : t = u
      · rw [ht, Function.update_self, List.count_cons_self, Standing.add_addMany]
      · rw [Function.update_of_ne (Ne.symm ht), List.count_cons_of_ne ht]

/-- The same match, whose chance is either the same or certain, once for the team and once
against it. -/
structure Favours (team : String) (m m' : QualMatch K) : Prop where
  same : m' = { m with redWin := m'.redWin }
  lineup : (m.red ++ m.blue).Nodup
  chance : m.redWin = m'.redWin ∨ (team ∈ m.red ∧ m.redWin = 1 ∧ m'.redWin = 0) ∨
    team ∈ m.blue ∧ m.redWin = 0 ∧ m'.redWin = 1

/-- The team has gained most, and all else is the same. -/
structure Gained (team : String) (s s' : (String → Standing K) × Rng K) : Prop where
  rng : s.2 = s'.2
  matchCount : ∀ u, (s.1 u).matchCount = (s'.1 u).matchCount
  points : ∀ u, (s.1 u).points = (s'.1 u).points
  most : ∀ u, (s.1 u).rankingPoints - (s'.1 u).rankingPoints ≤
    (s.1 team).rankingPoints - (s'.1 team).rankingPoints

/-- What the winner of a match has more. -/
def winPoints (won : Bool) : K :=
  if won then 3 else 0

theorem playMatch_apply (s : (String → Standing K) × Rng K) (m : QualMatch K) (u : String) :
    (playMatch s m).1 u = ((s.1 u).addMany (m.red.count u)
      (winPoints (s.2.random < m.redWin) + (countBonus (m.redBonus.map (·.2)) s.2.next).1)
      m.redPoints).addMany (m.blue.count u)
      (winPoints (!decide (s.2.random < m.redWin)) +
        (countBonus (m.blueBonus.map (·.2)) (countBonus (m.redBonus.map (·.2)) s.2.next).2).1)
      m.bluePoints := by
  unfold playMatch
  simp only [playSide_apply, winPoints]
  congr 1
  split <;> rename_i h <;> simp [h]

theorem playMatch_rng (s : (String → Standing K) × Rng K) (m : QualMatch K) :
    (playMatch s m).2 = (countBonus (m.blueBonus.map (·.2))
      (countBonus (m.redBonus.map (·.2)) s.2.next).2).2 :=
  rfl

section
variable [IsStrictOrderedRing K] {team : String} {m m' : QualMatch K}

omit [LinearOrder K] [IsStrictOrderedRing K] in
theorem winPoints_not (won : Bool) : winPoints (!won) = (3 - winPoints won : K) := by
  cases won with
  | false => simp [winPoints]
  | true => simp [winPoints]

/-- What the teams of a side count for in a match without repeated teams. -/
theorem Favours.count_le (h : Favours team m m') (u : String) :
    (m.red.count u : K) ≤ 1 ∧ (m.blue.count u : K) ≤ 1 := by
  obtain ⟨hred, hblue, -⟩ := List.nodup_append.mp h.lineup
  exact ⟨Nat.cast_le_one.mpr (List.nodup_iff_count_le_one.mp hred u),
    Nat.cast_le_one.mpr (List.nodup_iff_count_le_one.mp hblue u)⟩

/-- The swing between the two results is largest for the team. -/
theorem Favours.swing_le (h : Favours team m m') (r : Rng K) (u : String) :
    ((m.red.count u : K) - m.blue.count u) *
        (winPoints (r.random < m.redWin) - winPoints (r.random < m'.redWin)) ≤
      ((m.red.count team : K) - m.blue.count team) *
        (winPoints (r.random < m.redWin) - winPoints (r.random < m'.redWin)) := by
  obtain ⟨hred, hblue⟩ := h.count_le u
  have hred0 : (0 : K) ≤ m.red.count u := Nat.cast_nonneg _
  have hblue0 : (0 : K) ≤ m.blue.count u := Nat.cast_nonneg _
  have hcertain : r.random < 1 := (r.unit 0).2
  have hnever : ¬ r.random < 0 := not_lt.mpr (r.unit 0).1
  obtain ⟨hrednodup, hbluenodup, hapart⟩ := List.nodup_append.mp h.lineup
  rcases h.chance with heq | ⟨hmem, hwin, hloss⟩ | ⟨hmem, hwin, hloss⟩
  · rw [heq, sub_self, mul_zero, mul_zero]
  · have hone : m.red.count team = 1 := List.count_eq_one_of_mem hrednodup hmem
    have hzero : m.blue.count team = 0 := List.count_eq_zero.mpr fun hb => hapart _ hmem _ hb rfl
    rw [hwin, hloss, hone, hzero]
    simp only [hcertain, hnever, winPoints]
    norm_num
    linarith
  · have hone : m.blue.count team = 1 := List.count_eq_one_of_mem hbluenodup hmem
    have hzero : m.red.count team = 0 := List.count_eq_zero.mpr fun hr => hapart _ hr _ hmem rfl
    rw [hwin, hloss, hone, hzero]
    simp only [hcertain, hnever, winPoints]
    norm_num
    linarith

theorem Gained.playMatch {s s' : (String → Standing K) × Rng K} (hs : Gained team s s')
    (h : Favours team m m') : Gained team (playMatch s m) (playMatch s' m') := by
  have hred : m'.red = m.red := by rw [h.same]
  have hblue : m'.blue = m.blue := by rw [h.same]
  have hredBonus : m'.redBonus = m.redBonus := by rw [h.same]
  have hblueBonus : m'.blueBonus = m.blueBonus := by rw [h.same]
  have hredPoints : m'.redPoints = m.redPoints := by rw [h.same]
  have hbluePoints : m'.bluePoints = m.bluePoints := by rw [h.same]
  constructor
  · rw [playMatch_rng, playMatch_rng, hs.rng, hredBonus, hblueBonus]
  · intro u
    simp only [playMatch_apply, Standing.addMany, hs.matchCount u, hred, hblue]
  · intro u
    simp only [playMatch_apply, Standing.addMany, hs.points u, hred, hblue, hredPoints, hbluePoints]
  · intro u
    have hmost := hs.most u
    have hswing := h.swing_le s.2 u
    simp only [playMatch_apply, Standing.addMany, winPoints_not, hred, hblue, hredBonus, hblueBonus,
      ← hs.rng]
    linarith

theorem Gained.playAll {s s' : (String → Standing K) × Rng K} {remaining remaining' : List (QualMatch K)}
    (hs : Gained team s s') (h : List.Forall₂ (Favours team) remaining remaining') :
    Gained team (remaining.foldl Simulation.playMatch s) (remaining'.foldl Simulation.playMatch s') := by
  induction h generalizing s s' with
  | nil => exact hs
  | cons hm _ ih => exact ih (hs.playMatch hm)

end

/-! ### One run -/

/-- How many matches a team has at the end. -/
def finalMatches (standings : String → Option (Standing K)) (remaining : List (QualMatch K))
    (u : String) : Nat :=
  ((standings u).getD .new).matchCount +
    (remaining.map fun m => m.red.count u + m.blue.count u).sum

theorem playAll_matchCount (s : (String → Standing K) × Rng K) (remaining : List (QualMatch K))
    (u : String) : ((remaining.foldl playMatch s).1 u).matchCount =
      (s.1 u).matchCount + (remaining.map fun m => m.red.count u + m.blue.count u).sum := by
  induction remaining generalizing s with
  | nil => rfl
  | cons m rest ih =>
      rw [List.foldl_cons, ih, playMatch_apply, List.map_cons, List.sum_cons]
      simp only [Standing.addMany]
      omega

section
variable [IsStrictOrderedRing K] {team : String}

omit [LinearOrder K] [IsStrictOrderedRing K] in
/-- The first and the other two parts of a sort key. -/
theorem rankKey_eq (table : String → Standing K) (x : String × K) :
    rankKey table x = toLex (-((table x.1).rankingPoints / (table x.1).matchCount),
      toLex (-((table x.1).points / (table x.1).matchCount), x.2)) := by
  rw [rankKey]
  split
  · rename_i h
    simp [h]
  · rfl

theorem Gained.place_le {s s' : (String → Standing K) × Rng K} (hs : Gained team s s')
    {tied : List (String × K)} (hnodup : (tied.map (·.1)).Nodup) (hteam : team ∈ tied.map (·.1))
    {n : Nat} (hequal : ∀ x ∈ tied, (s.1 x.1).matchCount = n) :
    ((sortBy (rankKey s.1) tied).map (·.1)).idxOf team ≤
      ((sortBy (rankKey s'.1) tied).map (·.1)).idxOf team := by
  obtain ⟨y, hy, rfl⟩ := List.mem_map.mp hteam
  have hplace : ∀ table : String → Standing K,
      ((sortBy (rankKey table) tied).map (·.1)).idxOf y.1 = (sortBy (rankKey table) tied).idxOf y := by
    intro table
    have hperm := perm_sortBy (rankKey table) tied
    exact idxOf_map ((hperm.map _).nodup_iff.mpr hnodup) (hperm.mem_iff.mpr hy)
  rw [hplace, hplace]
  have hmost : ∀ x ∈ tied, -((s'.1 x.1).rankingPoints / (n : K)) + (s'.1 y.1).rankingPoints / n ≤
      -((s.1 x.1).rankingPoints / n) + (s.1 y.1).rankingPoints / n := by
    intro x _
    have hx := div_le_div_of_nonneg_right (hs.most x.1) (Nat.cast_nonneg n)
    rw [sub_div, sub_div] at hx
    linarith
  have hkey : ∀ x ∈ tied, rankKey s.1 x = toLex (-((s.1 x.1).rankingPoints / (n : K)),
      toLex (-((s.1 x.1).points / (n : K)), x.2)) := by
    intro x hx
    rw [rankKey_eq, hequal x hx]
  have hkey' : ∀ x ∈ tied, rankKey s'.1 x = toLex (-((s'.1 x.1).rankingPoints / (n : K)),
      toLex (-((s.1 x.1).points / (n : K)), x.2)) := by
    intro x hx
    rw [rankKey_eq, ← hs.matchCount, hequal x hx, ← hs.points]
  apply idxOf_sortBy_le hnodup.of_map hy
  · intro x hx hlt
    have hxy := hmost x hx
    rw [hkey x hx, hkey y hy, Prod.Lex.toLex_lt_toLex] at hlt
    rw [hkey' x hx, hkey' y hy, Prod.Lex.toLex_lt_toLex]
    rcases hlt with hlt | ⟨heq, hlt⟩
    · exact .inl (by linarith)
    · have hle : -((s'.1 x.1).rankingPoints / (n : K)) ≤ -((s'.1 y.1).rankingPoints / n) := by
        linarith
      exact hle.lt_or_eq.imp_right fun hsame => ⟨hsame, hlt⟩
  · intro x hx heq
    have hxy := hmost x hx
    rw [hkey x hx, hkey y hy, toLex_inj, Prod.mk.injEq] at heq
    rw [hkey' x hx, hkey' y hy, Prod.Lex.toLex_le_toLex]
    have hle : -((s'.1 x.1).rankingPoints / (n : K)) ≤ -((s'.1 y.1).rankingPoints / n) := by
      linarith [heq.1]
    exact hle.lt_or_eq.imp_right fun hsame => ⟨hsame, heq.2.le⟩

variable {teams : List String} {standings : String → Option (Standing K)}
  {remaining remaining' : List (QualMatch K)}

theorem playQuals_place (h : List.Forall₂ (Favours team) remaining remaining')
    (hnodup : teams.Nodup) (hteam : team ∈ teams) {n : Nat}
    (hequal : ∀ t ∈ teams, finalMatches standings remaining t = n) (r : Rng K) :
    (playQuals r teams standings remaining).2 = (playQuals r teams standings remaining').2 ∧
      (playQuals r teams standings remaining).1.order.idxOf team ≤
        (playQuals r teams standings remaining').1.order.idxOf team := by
  have hstart : Gained team (fun t => (standings t).getD .new, r)
      (fun t => (standings t).getD .new, r) :=
    ⟨rfl, fun _ => rfl, fun _ => rfl, fun _ => by rw [sub_self, sub_self]⟩
  have hgained := hstart.playAll h
  have hteams := drawTies_teams teams
    (remaining.foldl playMatch (fun t => (standings t).getD .new, r)).2
  unfold playQuals
  simp only [← hgained.rng]
  refine ⟨trivial, hgained.place_le (n := n) (hteams.symm ▸ hnodup) (hteams.symm ▸ hteam) ?_⟩
  intro x hx
  have hmem : x.1 ∈ teams := hteams ▸ List.mem_map_of_mem hx
  rw [playAll_matchCount]
  exact hequal x.1 hmem

end

/-! ### Many runs -/

theorem sum_take_modify {l : List Nat} {i : Nat} (hi : i < l.length) (k : Nat) :
    ((l.modify i (· + 1)).take k).sum = (l.take k).sum + if i < k then 1 else 0 := by
  induction l generalizing i k with
  | nil => cases hi
  | cons a l ih =>
      cases k with
      | zero => rfl
      | succ k =>
          cases i with
          | zero =>
              simp
              omega
          | succ i =>
              have hl := ih (Nat.lt_of_succ_lt_succ hi) k
              rw [List.modify_succ_cons, List.take_succ_cons, List.take_succ_cons, List.sum_cons,
                List.sum_cons, hl]
              simp only [Nat.succ_lt_succ_iff]
              omega

/-- The first counts have the better ranks, of as many runs. -/
structure Better (size runs : Nat) (c c' : RankCounts) : Prop where
  length : c.counts.length = size ∧ c'.counts.length = size
  sum : c.counts.sum = runs ∧ c'.counts.sum = runs
  rankSum : c.rankSum ≤ c'.rankSum
  first : ∀ k, (c'.counts.take k).sum ≤ (c.counts.take k).sum

theorem RankCounts.sum_add {c : RankCounts} {rank : Nat} (hrank : rank < c.counts.length) :
    (c.add (rank + 1)).counts.sum = c.counts.sum + 1 := by
  have hall := sum_take_modify hrank c.counts.length
  rw [if_pos hrank, List.take_length, List.take_of_length_le (by simp)] at hall
  exact hall

theorem Better.add {size runs : Nat} {c c' : RankCounts} (h : Better size runs c c')
    {place place' : Nat} (hle : place ≤ place') (hsize : place' < size) :
    Better size (runs + 1) (c.add (place + 1)) (c'.add (place' + 1)) := by
  have hplace : place < c.counts.length := by
    rw [h.length.1]
    omega
  have hplace' : place' < c'.counts.length := by
    rw [h.length.2]
    exact hsize
  constructor
  · simp [RankCounts.add, h.length.1, h.length.2]
  · rw [RankCounts.sum_add hplace, RankCounts.sum_add hplace', h.sum.1, h.sum.2]
    exact ⟨rfl, rfl⟩
  · have hsum := h.rankSum
    simp only [RankCounts.add]
    omega
  · intro k
    have hfirst := h.first k
    simp only [RankCounts.add, Nat.add_sub_cancel]
    rw [sum_take_modify hplace, sum_take_modify hplace']
    split_ifs <;> omega

theorem length_ranks (c : RankCounts) : c.ranks.length = c.counts.sum := by
  have hlengths : (fun x : Nat × Nat => (List.replicate x.1 x.2).length) = Prod.fst := by
    funext x
    exact List.length_replicate
  rw [RankCounts.ranks, List.length_flatMap, hlengths, List.zipIdx_map_fst]

section
variable [IsStrictOrderedRing K] {team : String} {teams : List String}
  {standings : String → Option (Standing K)} {remaining remaining' : List (QualMatch K)}

theorem rankRuns_better (h : List.Forall₂ (Favours team) remaining remaining')
    (hnodup : teams.Nodup) (hteam : team ∈ teams) {n : Nat}
    (hequal : ∀ t ∈ teams, finalMatches standings remaining t = n) (runs : Nat) {done : Nat}
    {c c' : RankCounts} (hbetter : Better teams.length done c c') (r : Rng K) :
    ∃ end₁ end₂, rankRuns team teams standings remaining runs r c = .ok end₁ ∧
      rankRuns team teams standings remaining' runs r c' = .ok end₂ ∧
        Better teams.length (done + runs) end₁ end₂ := by
  induction runs generalizing done c c' r with
  | zero => exact ⟨c, c', rfl, rfl, hbetter⟩
  | succ runs ih =>
      obtain ⟨hrng, hplace⟩ := playQuals_place h hnodup hteam hequal r
      have hperm := playQuals_order r teams standings remaining
      have hperm' := playQuals_order r teams standings remaining'
      have hlast : (playQuals r teams standings remaining').1.order.idxOf team < teams.length := by
        rw [← hperm'.length_eq]
        exact List.idxOf_lt_length_of_mem (hperm'.mem_iff.mpr hteam)
      obtain ⟨end₁, end₂, hend₁, hend₂, hend⟩ := ih (hbetter.add hplace hlast)
        (playQuals r teams standings remaining).2
      refine ⟨end₁, end₂, ?_, ?_, ?_⟩
      · rw [rankRuns]
        simp only [if_pos (hperm.mem_iff.mpr hteam)]
        exact hend₁
      · rw [rankRuns]
        simp only [if_pos (hperm'.mem_iff.mpr hteam), ← hrng]
        exact hend₂
      · rwa [Nat.add_assoc, Nat.add_comm 1] at hend

theorem simulateRank_better [FloorRing K] (h : List.Forall₂ (Favours team) remaining remaining')
    (hnodup : teams.Nodup) (hteam : team ∈ teams) {n : Nat}
    (hequal : ∀ t ∈ teams, finalMatches standings remaining t = n) {runs : Nat} (hruns : 0 < runs)
    (r : Rng K) : ∃ win loss, simulateRank team teams standings remaining runs r = .ok win ∧
      simulateRank team teams standings remaining' runs r = .ok loss ∧
        win.expectedRank ≤ loss.expectedRank ∧ loss.top8 ≤ win.top8 ∧ loss.top4 ≤ win.top4 := by
  have hstart : Better teams.length 0 { counts := List.replicate teams.length 0, rankSum := 0 }
      { counts := List.replicate teams.length 0, rankSum := 0 } := by
    constructor
    · simp
    · simp
    · exact le_rfl
    · exact fun _ => le_rfl
  obtain ⟨c, c', hc, hc', hbetter⟩ := rankRuns_better h hnodup hteam hequal runs hstart r
  have hsome : ∀ (e : RankCounts), e.counts.sum = 0 + runs →
      ∃ best worst, e.ranks[(runs - 1) / 10]? = some best ∧
        e.ranks[9 * (runs - 1) / 10]? = some worst := by
    intro e hsum
    have hlength : e.ranks.length = runs := by
      rw [length_ranks, hsum, Nat.zero_add]
    exact ⟨_, _, List.getElem?_eq_getElem (by omega), List.getElem?_eq_getElem (by omega)⟩
  obtain ⟨best, worst, hbest, hworst⟩ := hsome c hbetter.sum.1
  obtain ⟨best', worst', hbest', hworst'⟩ := hsome c' hbetter.sum.2
  have hcast : (0 : K) ≤ runs := Nat.cast_nonneg runs
  unfold simulateRank
  simp only [hc, hc', if_neg hruns.ne', hbest, hworst, hbest', hworst']
  refine ⟨_, _, rfl, rfl, ?_, ?_, ?_⟩
  · exact roundTo_mono 2 (div_le_div_of_nonneg_right (Nat.cast_le.mpr hbetter.rankSum) hcast)
  · exact roundTo_mono 4 (div_le_div_of_nonneg_right (Nat.cast_le.mpr (hbetter.first 8)) hcast)
  · exact roundTo_mono 4 (div_le_div_of_nonneg_right (Nat.cast_le.mpr (hbetter.first 4)) hcast)

end

/-! ### The question -/

def force (forced : String → Option String) (key choice : String) : String → Option String :=
  Function.update forced key (some choice)

omit [LinearOrder K] in
theorem adjust_lineup (team : String) (forced : String → Option String)
    (card : String × QualMatch K) : (adjust team forced card).red = card.2.red ∧
      (adjust team forced card).blue = card.2.blue := by
  unfold adjust
  extract_lets choice
  split
  · exact ⟨rfl, rfl⟩
  · exact ⟨rfl, rfl⟩

omit [LinearOrder K] in
theorem favours_adjust (team : String) (forced : String → Option String) (key : String)
    {card : String × QualMatch K} (hlineup : (card.2.red ++ card.2.blue).Nodup) :
    Favours team (adjust team (force forced key "win") card)
      (adjust team (force forced key "loss") card) := by
  have hsame : ∀ m : QualMatch K, (m.red ++ m.blue).Nodup → Favours team m m :=
    fun m hm => ⟨rfl, hm, .inl rfl⟩
  by_cases hkey : card.1 = key
  · by_cases hred : team ∈ card.2.red
    · have hside : sideOf team card.2 = some .red := if_pos hred
      simp only [adjust, choiceOf, force, hkey, hside, Function.update_self]
      exact ⟨rfl, hlineup, .inr (.inl ⟨hred, by simp, by simp⟩)⟩
    · by_cases hblue : team ∈ card.2.blue
      · have hside : sideOf team card.2 = some .blue := by
          rw [sideOf, if_neg hred, if_pos hblue]
        simp only [adjust, choiceOf, force, hkey, hside, Function.update_self]
        exact ⟨rfl, hlineup, .inr (.inr ⟨hblue, by simp, by simp⟩)⟩
      · have hside : sideOf team card.2 = none := by
          rw [sideOf, if_neg hred, if_neg hblue]
        simp only [adjust, choiceOf, hside]
        exact hsame _ hlineup
  · have hchoice : adjust team (force forced key "win") card =
        adjust team (force forced key "loss") card := by
      simp only [adjust, choiceOf, force, Function.update_of_ne hkey]
    obtain ⟨hred, hblue⟩ := adjust_lineup team (force forced key "loss") card
    rw [hchoice]
    apply hsame
    rwa [hred, hblue]

omit [LinearOrder K] in
theorem finalMatches_adjust (standings : String → Option (Standing K)) (team : String)
    (forced : String → Option String) (remaining : List (String × QualMatch K)) (u : String) :
    finalMatches standings (remaining.map (adjust team forced)) u =
      finalMatches standings (remaining.map (·.2)) u := by
  simp only [finalMatches, List.map_map, Function.comp_def, adjust_lineup]

theorem rows_ne_nil [FloorRing K] {team key : String} {m : QualMatch K}
    {remaining : List (String × QualMatch K)} (hmem : (key, m) ∈ remaining)
    (hplays : team ∈ m.red ++ m.blue) (forced : String → Option String) :
    remaining.filterMap (rowOf team forced) ≠ [] := by
  obtain ⟨side, hside⟩ : ∃ side, sideOf team m = some side := by
    rw [sideOf]
    split
    · exact ⟨_, rfl⟩
    · rename_i hred
      rw [if_pos ((List.mem_append.mp hplays).resolve_left hred)]
      exact ⟨_, rfl⟩
  obtain ⟨row, hrow⟩ : ∃ row, rowOf team forced (key, m) = some row := by
    simp [rowOf, hside]
  exact List.ne_nil_of_mem (List.mem_filterMap.mpr ⟨_, hmem, hrow⟩)

section
variable [IsStrictOrderedRing K] [FloorRing K]

theorem winning_never_hurts (inputs : SimInputs K) (team : String)
    (forced : String → Option String) (key : String) (runs : Nat) (r : Rng K)
    (hnodup : inputs.teams.Nodup) (hteam : team ∈ inputs.teams)
    (hlineups : ∀ card ∈ inputs.remaining, (card.2.red ++ card.2.blue).Nodup)
    (hequal : ∃ n, ∀ t ∈ inputs.teams,
      finalMatches inputs.standings (inputs.remaining.map (·.2)) t = n)
    (hquals : inputs.quals ≠ [] ∧ inputs.playoffsStarted = false)
    (hplays : ∃ m, (key, m) ∈ inputs.remaining ∧ team ∈ m.red ++ m.blue) (hruns : 0 < runs) :
    ∃ rows rows' model win loss,
      whatIf inputs team (force forced key "win") runs r =
        .ok (.answer rows inputs.teams.length runs model win) ∧
      whatIf inputs team (force forced key "loss") runs r =
        .ok (.answer rows' inputs.teams.length runs model loss) ∧
      win.expectedRank ≤ loss.expectedRank ∧ loss.top8 ≤ win.top8 ∧ loss.top4 ≤ win.top4 := by
  obtain ⟨n, hequal⟩ := hequal
  obtain ⟨m, hmem, hplays⟩ := hplays
  have hequalAdjusted : ∀ t ∈ inputs.teams, finalMatches inputs.standings
      (inputs.remaining.map (adjust team (force forced key "win"))) t = n := by
    intro t ht
    rw [finalMatches_adjust, hequal t ht]
  have hfavours : List.Forall₂ (Favours team)
      (inputs.remaining.map (adjust team (force forced key "win")))
      (inputs.remaining.map (adjust team (force forced key "loss"))) := by
    rw [List.forall₂_map_left_iff, List.forall₂_map_right_iff, List.forall₂_same]
    exact fun card hcard => favours_adjust team forced key (hlineups card hcard)
  have hmodel : List.Forall₂ (Favours team) (inputs.remaining.map (·.2))
      (inputs.remaining.map (·.2)) := by
    rw [List.forall₂_map_left_iff, List.forall₂_map_right_iff, List.forall₂_same]
    exact fun card hcard => ⟨rfl, hlineups card hcard, .inl rfl⟩
  obtain ⟨model, -, hfirst, -⟩ := simulateRank_better hmodel hnodup hteam hequal hruns r
  obtain ⟨win, loss, hwin, hloss, hbetter⟩ :=
    simulateRank_better hfavours hnodup hteam hequalAdjusted hruns r
  have hopen : ¬ (inputs.quals = [] ∨ inputs.playoffsStarted = true) := by
    rw [hquals.2]
    exact fun h => h.elim hquals.1 (by simp)
  have hrun : ∀ (choice : String) (result : RankForecast K),
      simulateRank team inputs.teams inputs.standings
        (inputs.remaining.map (adjust team (force forced key choice))) runs r = .ok result →
      whatIf inputs team (force forced key choice) runs r =
        .ok (.answer (inputs.remaining.filterMap (rowOf team (force forced key choice)))
          inputs.teams.length runs model result) := by
    intro choice result hresult
    unfold whatIf
    extract_lets rows adjusted
    rw [if_neg (not_not.mpr hteam), if_neg hopen, if_neg (rows_ne_nil hmem hplays _), hfirst,
      hresult]
    rfl
  exact ⟨_, _, model, win, loss, hrun "win" win hwin, hrun "loss" loss hloss, hbetter⟩

end

/-! Six teams with one match left. -/

def lastMatch : QualMatch ℚ where
  red := ["frc1", "frc2", "frc3"]
  blue := ["frc4", "frc5", "frc6"]
  redWin := 2 / 5
  redBonus := [("energized", 1 / 3)]
  blueBonus := [("energized", 1 / 2)]
  redPoints := 90
  bluePoints := 100

def sixTeams : SimInputs ℚ where
  teams := ["frc1", "frc2", "frc3", "frc4", "frc5", "frc6"]
  quals := ["2026test_qm1"]
  standings _ := none
  remaining := [("2026test_qm1", lastMatch)]
  playoffsStarted := false

theorem winning_never_hurts_last :
    ∃ rows rows' model win loss,
      whatIf sixTeams "frc4" (force (fun _ => none) "2026test_qm1" "win") 3 evenRng =
        .ok (.answer rows 6 3 model win) ∧
      whatIf sixTeams "frc4" (force (fun _ => none) "2026test_qm1" "loss") 3 evenRng =
        .ok (.answer rows' 6 3 model loss) ∧
      win.expectedRank ≤ loss.expectedRank ∧ loss.top8 ≤ win.top8 ∧ loss.top4 ≤ win.top4 :=
  winning_never_hurts sixTeams "frc4" (fun _ => none) "2026test_qm1" 3 evenRng (by decide)
    (by decide) (by decide) ⟨1, by decide⟩ (by decide) ⟨lastMatch, by simp [sixTeams], by decide⟩
    (by decide)

end Frcmob.Simulation
