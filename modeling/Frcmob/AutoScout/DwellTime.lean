import Frcmob.AutoScout.ShiftPlay
import Mathlib.Tactic.Linarith
import Mathlib.Tactic.Ring

/-!
Dwell split at the windows of a schedule loses no time, and no robot is credited with more time
than its windows have.
-/

open Rounding

namespace Frcmob.ShiftPlay

universe u

section Split
variable {K : Type u} [Field K] [LinearOrder K]

/-- Pieces as the spans of time they stand for. -/
def spans (pieces : List (K × K)) : List (K × K) :=
  pieces.map fun p => (p.1, p.1 + p.2)

variable {windows : List ShiftWindow}

/-- No window opens between the cursor and the next boundary. -/
theorem not_contains_of_lt_nextBoundary {segmentEnd cursor t : K}
    (hnone : windowFor windows cursor = none) (hle : cursor ≤ t)
    (hlt : t < nextBoundary windows segmentEnd cursor) :
    ∀ w ∈ windows, ¬ w.Contains t := by
  intro w hw hcontains
  rcases lt_or_ge cursor (w.startSec : K) with hstart | hstart
  · have hmem : (w.startSec : K) ∈
        (windows.map fun w => (w.startSec : K)).filter (cursor < ·) :=
      List.mem_filter.mpr ⟨List.mem_map_of_mem hw, decide_eq_true hstart⟩
    unfold nextBoundary at hlt
    cases hmin : ((windows.map fun w => (w.startSec : K)).filter (cursor < ·)).min? with
    | none =>
        rw [List.min?_eq_none_iff] at hmin
        exact absurd hmem (hmin ▸ List.not_mem_nil)
    | some start =>
        rw [hmin] at hlt
        have hleast := (List.min?_eq_some_iff.mp hmin).2 _ hmem
        exact absurd (hcontains.1.trans_lt hlt) (not_lt.mpr hleast)
  · have hcursor : w.Contains cursor := ⟨hstart, hle.trans_lt hcontains.2⟩
    unfold windowFor at hnone
    exact absurd (decide_eq_true hcursor) (List.find?_eq_none.mp hnone w hw)

/-- The pieces of the segment from `cursor` to `segmentEnd`. -/
structure SplitOf (windows : List ShiftWindow) (segmentEnd cursor : K) (pieces : List (K × K)) :
    Prop where
  within : ∀ p ∈ spans pieces, cursor ≤ p.1 ∧ p.1 < p.2 ∧ p.2 ≤ segmentEnd
  ordered : Spans.Ordered (spans pieces)
  covers : ∀ t, Spans.Covers (spans pieces) t ↔
    (cursor ≤ t ∧ t < segmentEnd) ∧ ∃ w ∈ windows, w.Contains t
  window : ∀ p ∈ pieces, ∃ w, windowFor windows p.1 = some w ∧ p.1 + p.2 ≤ w.endSec

theorem splitOf_done {segmentEnd cursor : K} (h : ¬ cursor < segmentEnd) :
    SplitOf windows segmentEnd cursor [] where
  within := nofun
  ordered := List.Pairwise.nil
  covers t := by
    refine ⟨fun ht => absurd ht (Spans.not_covers_nil t), fun ht => ?_⟩
    exact absurd (ht.1.1.trans_lt ht.1.2) h
  window := nofun

theorem splitOf_gap {segmentEnd cursor : K} {pieces : List (K × K)} (h : cursor < segmentEnd)
    (hnone : windowFor windows cursor = none)
    (hrest : SplitOf windows segmentEnd
      (min segmentEnd (nextBoundary windows segmentEnd cursor)) pieces) :
    SplitOf windows segmentEnd cursor pieces where
  within p hp := by
    obtain ⟨hstart, hp⟩ := hrest.within p hp
    exact ⟨(lt_min h (lt_nextBoundary h)).le.trans hstart, hp⟩
  ordered := hrest.ordered
  covers t := by
    rw [hrest.covers]
    refine ⟨fun ht => ⟨⟨?_, ht.1.2⟩, ht.2⟩, fun ht => ⟨⟨?_, ht.1.2⟩, ht.2⟩⟩
    · exact (lt_min h (lt_nextBoundary h)).le.trans ht.1.1
    · obtain ⟨w, hw, hcontains⟩ := ht.2
      rw [min_le_iff]
      exact .inr (not_lt.mp fun hlt =>
        not_contains_of_lt_nextBoundary hnone ht.1.1 hlt w hw hcontains)
  window := hrest.window

theorem splitOf_piece {segmentEnd cursor : K} {pieces : List (K × K)} {w : ShiftWindow}
    (h : cursor < segmentEnd) (hwindow : windowFor windows cursor = some w)
    (hrest : SplitOf windows segmentEnd (min segmentEnd (w.endSec : K)) pieces) :
    SplitOf windows segmentEnd cursor
      ((cursor, min segmentEnd (w.endSec : K) - cursor) :: pieces) := by
  obtain ⟨hw, hcontains⟩ := windowFor_some hwindow
  have hlt : cursor < min segmentEnd (w.endSec : K) := lt_min h hcontains.2
  have hspans : spans ((cursor, min segmentEnd (w.endSec : K) - cursor) :: pieces) =
      (cursor, min segmentEnd (w.endSec : K)) :: spans pieces := by
    rw [spans, spans, List.map_cons]
    dsimp only
    rw [add_sub_cancel]
  refine ⟨?_, ?_, ?_, ?_⟩
  · rw [hspans, List.forall_mem_cons]
    refine ⟨⟨le_rfl, hlt, min_le_left _ _⟩, fun p hp => ?_⟩
    obtain ⟨hstart, hp⟩ := hrest.within p hp
    exact ⟨hlt.le.trans hstart, hp⟩
  · rw [hspans]
    exact List.pairwise_cons.mpr ⟨fun p hp => (hrest.within p hp).1, hrest.ordered⟩
  · intro t
    rw [hspans, Spans.covers_cons, hrest.covers]
    constructor
    · rintro (⟨hle, hend⟩ | ⟨⟨hle, hend⟩, hexists⟩)
      · exact ⟨⟨hle, hend.trans_le (min_le_left _ _)⟩, w, hw,
          hcontains.1.trans hle, hend.trans_le (min_le_right _ _)⟩
      · exact ⟨⟨hlt.le.trans hle, hend⟩, hexists⟩
    · rintro ⟨⟨hle, hend⟩, hexists⟩
      rcases lt_or_ge t (min segmentEnd (w.endSec : K)) with ht | ht
      · exact .inl ⟨hle, ht⟩
      · exact .inr ⟨⟨ht, hend⟩, hexists⟩
  · rw [List.forall_mem_cons]
    refine ⟨⟨w, hwindow, ?_⟩, hrest.window⟩
    dsimp only
    rw [add_sub_cancel]
    exact min_le_right _ _

/-- What the loop over a segment returns; that it returns is its termination. -/
theorem splitOf_splitFrom (windows : List ShiftWindow) (segmentEnd cursor : K) :
    SplitOf windows segmentEnd cursor (splitFrom windows segmentEnd cursor) := by
  fun_induction splitFrom windows segmentEnd cursor with
  | case1 cursor hlt hnone ih => exact splitOf_gap hlt hnone ih
  | case2 cursor hlt w hwindow pieceEnd ih => exact splitOf_piece hlt hwindow ih
  | case3 cursor hdone => exact splitOf_done hdone

/-! ### All segments of a track -/

variable [IsStrictOrderedRing K]

/-- The span a dwell segment stands for. -/
def dwellSpan (segment : TrackPoint K × K) : K × K :=
  (segment.1.timeSec, segment.1.timeSec + segment.2)

/-- Consecutive points of a track in order of time. -/
theorem dwell_of_sorted (ordered : List (TrackPoint K))
    (hsorted : ordered.Pairwise fun p q => p.timeSec ≤ q.timeSec) :
    let segments := (ordered.zip ordered.tail).filterMap fun (point, next) =>
      if next.timeSec - point.timeSec ≤ 0 then none
      else some (point, min (next.timeSec - point.timeSec) maxDwellDtSec)
    (∀ segment ∈ segments, segment.1 ∈ ordered ∧ 0 < segment.2) ∧
      Spans.Ordered (segments.map dwellSpan) := by
  induction ordered with
  | nil => exact ⟨nofun, List.Pairwise.nil⟩
  | cons p rest ih =>
      cases rest with
      | nil => exact ⟨nofun, List.Pairwise.nil⟩
      | cons q rest =>
          obtain ⟨hmem, hordered⟩ := ih hsorted.of_cons
          have hfirst := List.pairwise_cons.mp hsorted.of_cons
          dsimp only [List.tail_cons, List.zip_cons_cons] at hmem hordered ⊢
          rw [List.filterMap_cons]
          split
          · exact ⟨fun segment hsegment =>
              ⟨List.mem_cons_of_mem _ (hmem segment hsegment).1, (hmem segment hsegment).2⟩, hordered⟩
          · rename_i segment hsegment
            split at hsegment
            · cases hsegment
            · rename_i hdt
              cases hsegment
              refine ⟨?_, List.pairwise_cons.mpr ⟨?_, hordered⟩⟩
              · rw [List.forall_mem_cons]
                refine ⟨⟨List.mem_cons_self, lt_min (not_le.mp hdt) two_pos⟩, fun segment hsegment => ?_⟩
                exact ⟨List.mem_cons_of_mem _ (hmem segment hsegment).1, (hmem segment hsegment).2⟩
              · intro span hspan
                obtain ⟨later, hlater, rfl⟩ := List.mem_map.mp hspan
                have hq : q.timeSec ≤ later.1.timeSec := by
                  rcases List.mem_cons.mp (hmem later hlater).1 with heq | hin
                  · rw [heq]
                  · exact hfirst.1 _ hin
                have hd := min_le_left (q.timeSec - p.timeSec) (maxDwellDtSec : K)
                dsimp only [dwellSpan]
                linarith

instance : Std.Total fun p q : TrackPoint K => p.timeSec ≤ q.timeSec :=
  ⟨fun p q => le_total p.timeSec q.timeSec⟩

instance : IsTrans (TrackPoint K) fun p q => p.timeSec ≤ q.timeSec :=
  ⟨fun _ _ _ h h' => le_trans h h'⟩

theorem dwellSegments_spec (points : List (TrackPoint K)) :
    (∀ segment ∈ dwellSegments points, 0 < segment.2) ∧
      Spans.Ordered ((dwellSegments points).map dwellSpan) := by
  obtain ⟨hmem, hordered⟩ := dwell_of_sorted (sortedByTime points)
    (List.pairwise_insertionSort _ points)
  exact ⟨fun segment hsegment => (hmem segment hsegment).2, hordered⟩

/-- Pieces of a track as spans of time. -/
def pieceSpans (pieces : List (TrackPoint K × K × K)) : List (K × K) :=
  pieces.map fun piece => (piece.2.1, piece.2.1 + piece.2.2)

omit [LinearOrder K] [IsStrictOrderedRing K] in
theorem total_pieceSpans_cons (piece : TrackPoint K × K × K) (pieces : List (TrackPoint K × K × K)) :
    Spans.total (pieceSpans (piece :: pieces)) = piece.2.2 + Spans.total (pieceSpans pieces) := by
  rw [← add_sub_cancel_left piece.2.1 piece.2.2]
  rfl

omit [IsStrictOrderedRing K] in
theorem pieceSpans_split (segments : List (TrackPoint K × K)) :
    pieceSpans (splitDwellSegments segments windows) = segments.flatMap fun segment =>
      spans (splitFrom windows (segment.1.timeSec + segment.2) segment.1.timeSec) := by
  rw [pieceSpans, splitDwellSegments, List.map_flatMap]
  simp only [List.map_map]
  rfl

/-- The pieces of a track follow one another. -/
theorem ordered_pieces (points : List (TrackPoint K)) :
    Spans.Ordered (pieceSpans (splitDwellSegments (dwellSegments points) windows)) := by
  rw [pieceSpans_split, Spans.Ordered, List.pairwise_flatMap]
  refine ⟨fun segment _ => (splitOf_splitFrom ..).ordered, ?_⟩
  have hsegments := List.pairwise_map.mp (dwellSegments_spec points).2
  refine hsegments.imp fun {a b} hab p hp q hq => ?_
  exact ((splitOf_splitFrom ..).within p hp).2.2.trans
    (hab.trans ((splitOf_splitFrom ..).within q hq).1)

/-- Each piece has a length and lies in the window its start lies in. -/
theorem piece_in_window {segments : List (TrackPoint K × K)} {piece : TrackPoint K × K × K}
    (h : piece ∈ splitDwellSegments segments windows) :
    0 < piece.2.2 ∧ ∃ w, windowFor windows piece.2.1 = some w ∧
      piece.2.1 + piece.2.2 ≤ w.endSec := by
  obtain ⟨segment, -, hpiece⟩ := List.mem_flatMap.mp h
  obtain ⟨p, hp, rfl⟩ := List.mem_map.mp hpiece
  have hsplit := splitOf_splitFrom windows (segment.1.timeSec + segment.2) segment.1.timeSec
  have hlength := (hsplit.within _ (List.mem_map_of_mem hp)).2.1
  exact ⟨pos_of_lt_add_right hlength, hsplit.window p hp⟩

/-! ### Sums over the pieces -/

section Sums
variable [Hypot K] [FloorRing K] {around : Surroundings K}

/-- The robot can score in the window of the piece. -/
def eligible (alliance : Alliance) (windows : List ShiftWindow) (piece : TrackPoint K × K × K) :
    Bool :=
  (windowFor windows piece.2.1).any fun w => isAttackEligible w.active alliance

omit [LinearOrder K] [IsStrictOrderedRing K] [Hypot K] [FloorRing K] in
theorem addAttack_sums (around : Surroundings K) (s : Sums K) (point : TrackPoint K) (dt : K) :
    (s.addAttack around point dt).trackedAttackSec = s.trackedAttackSec + dt ∧
      ((s.addAttack around point dt).attackZoneSec = s.attackZoneSec ∨
        (s.addAttack around point dt).attackZoneSec = s.attackZoneSec + dt) := by
  unfold Sums.addAttack
  dsimp only
  split
  · exact ⟨rfl, .inr rfl⟩
  split
  · exact ⟨rfl, .inl rfl⟩
  · exact ⟨rfl, .inl rfl⟩

omit [IsStrictOrderedRing K] [FloorRing K] in
/-- What a piece adds to the tracked time, and to the part of it in the zone. -/
theorem add_sums (around : Surroundings K) (windows : List ShiftWindow) (s : Sums K)
    (piece : TrackPoint K × K × K) :
    (s.add around windows piece).trackedAttackSec =
        s.trackedAttackSec + (if eligible around.alliance windows piece then piece.2.2 else 0) ∧
      ((s.add around windows piece).attackZoneSec = s.attackZoneSec ∨
        (s.add around windows piece).attackZoneSec =
          s.attackZoneSec + if eligible around.alliance windows piece then piece.2.2 else 0) := by
  unfold Sums.add eligible
  cases windowFor windows piece.2.1 with
  | none => exact ⟨(add_zero _).symm, .inl rfl⟩
  | some w =>
      obtain ⟨htracked, hzone⟩ := addAttack_sums around s piece.1 piece.2.2
      by_cases hattack : isAttackEligible w.active around.alliance
      · simp only [hattack, if_true, Option.any_some]
        split
        · exact ⟨htracked, hzone⟩
        · exact ⟨htracked, hzone⟩
      · simp only [hattack, Option.any_some, Bool.false_eq_true, if_false, add_zero]
        split
        · exact ⟨rfl, .inl rfl⟩
        · exact ⟨rfl, .inl rfl⟩

omit [FloorRing K] in
/-- The sums of the loop. -/
theorem foldl_sums (around : Surroundings K) (windows : List ShiftWindow)
    (pieces : List (TrackPoint K × K × K)) (h : ∀ piece ∈ pieces, 0 < piece.2.2)
    (s : Sums K) (hs : s.attackZoneSec ≤ s.trackedAttackSec) :
    (pieces.foldl (Sums.add around windows) s).attackZoneSec ≤
        (pieces.foldl (Sums.add around windows) s).trackedAttackSec ∧
      (pieces.foldl (Sums.add around windows) s).trackedAttackSec = s.trackedAttackSec +
        Spans.total (pieceSpans (pieces.filter (eligible around.alliance windows))) := by
  induction pieces generalizing s with
  | nil => exact ⟨hs, (add_zero _).symm⟩
  | cons piece pieces ih =>
      obtain ⟨htracked, hzone⟩ := add_sums around windows s piece
      have hdt : 0 ≤ if eligible around.alliance windows piece then piece.2.2 else 0 := by
        split
        · exact (h piece List.mem_cons_self).le
        · exact le_rfl
      have hs' : (s.add around windows piece).attackZoneSec ≤
          (s.add around windows piece).trackedAttackSec := by
        rcases hzone with heq | heq <;> rw [heq, htracked] <;> linarith
      obtain ⟨hle, hsum⟩ := ih (fun q hq => h q (List.mem_cons_of_mem _ hq)) _ hs'
      refine ⟨hle, ?_⟩
      rw [List.foldl_cons, hsum, htracked, List.filter_cons]
      split
      · rw [total_pieceSpans_cons, add_assoc]
      · rw [add_zero]

end Sums

end Split

/-! ### Length -/

section Length

/-- Windows as spans of time. -/
def windowSpans (windows : List ShiftWindow) : List (ℝ × ℝ) :=
  windows.map fun w => ((w.startSec : ℝ), (w.endSec : ℝ))

theorem total_windowSpans (windows : List ShiftWindow) (p : Active → Bool) :
    Spans.total (windowSpans (windows.filter fun w => p w.active)) = windowSeconds windows p := by
  unfold windowSeconds windowSpans
  induction windows.filter fun w => p w.active with
  | nil => simp
  | cons w rest ih =>
      rw [List.map_cons, Spans.total_cons, ih, List.map_cons, List.sum_cons]
      push_cast
      rfl

theorem forward_windowSpans (windows : List ShiftWindow) : Spans.Forward (windowSpans windows) := by
  intro p hp
  obtain ⟨w, -, rfl⟩ := List.mem_map.mp hp
  exact Int.cast_le.mpr w.ordered.le

/-- The time a robot is tracked while it can score fits into the windows in which it can. -/
theorem total_eligible_le (alliance : Alliance) (points : List (TrackPoint ℝ))
    (windows : List ShiftWindow) :
    Spans.total (pieceSpans ((splitDwellSegments (dwellSegments points) windows).filter
      (eligible alliance windows))) ≤ windowSeconds windows (isAttackEligible · alliance) := by
  rw [← total_windowSpans]
  refine Spans.total_le_total ?_ ?_ (forward_windowSpans _) ?_
  · intro p hp
    obtain ⟨piece, hpiece, rfl⟩ := List.mem_map.mp hp
    exact le_add_of_nonneg_right (piece_in_window (List.mem_of_mem_filter hpiece)).1.le
  · exact (ordered_pieces points).sublist (List.filter_sublist.map _)
  · rintro t ⟨p, hp, hstart, hend⟩
    obtain ⟨piece, hpiece, rfl⟩ := List.mem_map.mp hp
    obtain ⟨hmem, heligible⟩ := List.mem_filter.mp hpiece
    obtain ⟨-, w, hw, hwend⟩ := piece_in_window hmem
    unfold eligible at heligible
    rw [hw, Option.any_some] at heligible
    obtain ⟨hmemw, hcontains⟩ := windowFor_some hw
    exact ⟨_, List.mem_map_of_mem (List.mem_filter.mpr ⟨hmemw, heligible⟩),
      hcontains.1.trans hstart, hend.trans_le hwend⟩

theorem total_spans (pieces : List (ℝ × ℝ)) :
    Spans.total (spans pieces) = (pieces.map Prod.snd).sum := by
  induction pieces with
  | nil => rfl
  | cons p pieces ih =>
      rw [List.map_cons, List.sum_cons, ← ih, ← add_sub_cancel_left p.1 p.2]
      rfl

variable [Hypot ℝ]

/-- The split of a segment returns pieces that follow one another, each within the window that
contains its start, and as long together as the segment is inside the windows. So no robot is
credited with more time in its zone than it is tracked, nor tracked longer than its windows. -/
theorem dwell_conserved :
    (∀ (windows : List ShiftWindow) (segmentStart segmentEnd : ℝ),
      Spans.Ordered (spans (splitFrom windows segmentEnd segmentStart)) ∧
      (∀ piece ∈ splitFrom windows segmentEnd segmentStart, 0 < piece.2 ∧
        ∃ w, windowFor windows piece.1 = some w ∧ piece.1 + piece.2 ≤ w.endSec) ∧
      ((splitFrom windows segmentEnd segmentStart).map Prod.snd).sum =
        Spans.length {t | (segmentStart ≤ t ∧ t < segmentEnd) ∧ ∃ w ∈ windows, w.Contains t}) ∧
    (∀ (teamKey : String) (alliance : Alliance)
      (pointsByTeam : List (String × List (TrackPoint ℝ)))
      (allianceByTeam : String → Option Alliance) (schedule : ShiftSchedule),
      (shiftTimes teamKey alliance pointsByTeam allianceByTeam schedule).attackZoneSec ≤
        (shiftTimes teamKey alliance pointsByTeam allianceByTeam schedule).trackedAttackSec ∧
      (shiftTimes teamKey alliance pointsByTeam allianceByTeam schedule).trackedAttackSec ≤
        (shiftTimes teamKey alliance pointsByTeam allianceByTeam schedule).attackEligibleSec) := by
  constructor
  · intro windows segmentStart segmentEnd
    have hsplit := splitOf_splitFrom windows segmentEnd segmentStart
    have hforward : Spans.Forward (spans (splitFrom windows segmentEnd segmentStart)) :=
      fun p hp => (hsplit.within p hp).2.1.le
    refine ⟨hsplit.ordered, fun piece hpiece => ⟨?_, hsplit.window piece hpiece⟩, ?_⟩
    · exact pos_of_lt_add_right (hsplit.within _ (List.mem_map_of_mem hpiece)).2.1
    · rw [← total_spans, ← Spans.length_covers hforward hsplit.ordered]
      exact congrArg Spans.length (Set.ext hsplit.covers)
  · intro teamKey alliance pointsByTeam allianceByTeam schedule
    have hsums := fun around : Surroundings ℝ =>
      foldl_sums around schedule.windows
        (splitDwellSegments (dwellSegments (sortedByTime ((List.lookup teamKey pointsByTeam).getD [])))
          schedule.windows) (fun piece hpiece => (piece_in_window hpiece).1) Sums.start le_rfl
    unfold shiftTimes
    dsimp only
    refine ⟨roundTo_mono 2 (hsums _).1, ?_⟩
    rw [(hsums _).2, ← roundTo_intCast 2 (windowSeconds schedule.windows _)]
    refine roundTo_mono 2 ?_
    rw [show (Sums.start : Sums ℝ).trackedAttackSec = 0 from rfl, zero_add]
    exact total_eligible_le alliance _ schedule.windows

end Length

end Frcmob.ShiftPlay
