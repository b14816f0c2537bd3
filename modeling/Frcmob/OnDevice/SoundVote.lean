import Frcmob.Lib.Double
import Frcmob.OnDevice.IdentityVote

/-!
What a similarity and a vote are worth: the matched characters are a common subsequence, only
equal strings have ratio one, and a vote is the sum of what each read gives each team.
-/

namespace Frcmob.OnDevice.Identity

open Js CommonRuns

/-! ### The recursion ends -/

/-- The first pair is one of the two that a call of `matched` on the second one goes on with. -/
inductive Calls : Str × Str → Str × Str → Prop
  | before {a b : Str} : (longestMatch a b).k ≠ 0 →
      Calls (a.take (longestMatch a b).i, b.take (longestMatch a b).j) (a, b)
  | after {a b : Str} : (longestMatch a b).k ≠ 0 →
      Calls (a.drop ((longestMatch a b).i + (longestMatch a b).k),
        b.drop ((longestMatch a b).j + (longestMatch a b).k)) (a, b)

theorem Calls.shorter {p q : Str × Str} (h : Calls p q) : p.1.length < q.1.length := by
  cases h with
  | @before a b hk =>
      have hleft := (longest_longestMatch a b).left
      simp only [List.length_take]
      omega
  | @after a b hk =>
      have hleft := (longest_longestMatch a b).left
      simp only [List.length_drop]
      omega

theorem acc_calls (p : Str × Str) : Acc Calls p :=
  (Subrelation.wf Calls.shorter (measure fun q : Str × Str => q.1.length).wf).apply p

/-! ### The characters it counts -/

/-- The characters that `matched` counts, block by block in their order. -/
def matchedText (sa sb : Str) : Str :=
  let m := longestMatch sa sb
  if m.k = 0 then []
  else
    matchedText (sa.take m.i) (sb.take m.j) ++ (sa.drop m.i).take m.k ++
      matchedText (sa.drop (m.i + m.k)) (sb.drop (m.j + m.k))
termination_by sa.length
decreasing_by
  all_goals
    have hleft := (longest_longestMatch sa sb).left
    have hk : (longestMatch sa sb).k ≠ 0 := by assumption
    simp only [List.length_take, List.length_drop]
    omega

theorem length_matchedText (a b : Str) : (matchedText a b).length = matched a b := by
  induction a, b using matchedText.induct with
  | case1 a b m hk =>
      rw [matchedText, matched, if_pos hk, if_pos hk, List.length_nil]
  | case2 a b m hk ihbefore ihafter =>
      have hblock : ((a.drop m.i).take m.k).length = m.k := by
        have hleft : m.i + m.k ≤ a.length := (longest_longestMatch a b).left
        rw [List.length_take, List.length_drop]
        omega
      rw [matchedText, matched, if_neg hk, if_neg hk, List.length_append, List.length_append,
        ihbefore, ihafter, hblock]
      ring

theorem sublist_left (a b : Str) : (matchedText a b).Sublist a := by
  induction a, b using matchedText.induct with
  | case1 a b m hk =>
      rw [matchedText, if_pos hk]
      exact List.nil_sublist a
  | case2 a b m hk ihbefore ihafter =>
      rw [matchedText, if_neg hk]
      exact sublist_of_parts m.k ihbefore ihafter

theorem sublist_right (a b : Str) : (matchedText a b).Sublist b := by
  induction a, b using matchedText.induct with
  | case1 a b m hk =>
      rw [matchedText, if_pos hk]
      exact List.nil_sublist b
  | case2 a b m hk ihbefore ihafter =>
      -- The block is the same text in the other string.
      have hsame : (a.drop m.i).take m.k = (b.drop m.j).take m.k :=
        (longest_longestMatch a b).same
      rw [matchedText, if_neg hk, hsame]
      exact sublist_of_parts m.k ihbefore ihafter

theorem matched_le (a b : Str) : matched a b ≤ a.length ∧ matched a b ≤ b.length := by
  rw [← length_matchedText]
  exact ⟨(sublist_left a b).length_le, (sublist_right a b).length_le⟩

theorem matched_self (a : Str) : matched a a = a.length := by
  have hself := (longest_longestMatch a a).self
  have hnil : matched [] [] = 0 := by
    rw [matched]
    rfl
  rw [matched, hself]
  simp only [List.take_zero, Nat.zero_add, List.drop_length, hnil]
  split
  · omega
  · omega

/-- Only equal strings are matched as a whole. -/
theorem matched_eq_half_iff (a b : Str) : 2 * matched a b = a.length + b.length ↔ a = b := by
  constructor
  · intro h
    obtain ⟨hleft, hright⟩ := matched_le a b
    have hlength := length_matchedText a b
    have ha : matchedText a b = a := (sublist_left a b).eq_of_length (by omega)
    have hb : matchedText a b = b := (sublist_right a b).eq_of_length (by omega)
    rw [← ha, hb]
  · rintro rfl
    rw [matched_self]
    ring

/-! ### The ratio -/

variable {K : Type} [Field K]

theorem similarityRatio_nil : similarityRatio (K := K) [] [] = 1 := by
  simp [similarityRatio]

theorem similarityRatio_eq {a b : Str} (h : 0 < a.length + b.length) :
    similarityRatio (K := K) a b = ((2 * matched a b : Nat) : K) / (a.length + b.length : Nat) := by
  have hboth : ¬ (a.length = 0 ∧ b.length = 0) := by omega
  rw [similarityRatio, if_neg hboth, if_neg h.ne']

theorem eq_nil_or_pos (a b : Str) : a = [] ∧ b = [] ∨ 0 < a.length + b.length := by
  rcases Nat.eq_zero_or_pos (a.length + b.length) with h | h
  · left
    simpa using h
  · exact .inr h

variable [LinearOrder K] [IsStrictOrderedRing K]

theorem similarityRatio_nonneg (a b : Str) : 0 ≤ similarityRatio (K := K) a b := by
  rcases eq_nil_or_pos a b with ⟨rfl, rfl⟩ | h
  · rw [similarityRatio_nil]
    exact zero_le_one
  · rw [similarityRatio_eq h]
    positivity

theorem similarityRatio_le_one (a b : Str) : similarityRatio (K := K) a b ≤ 1 := by
  rcases eq_nil_or_pos a b with ⟨rfl, rfl⟩ | h
  · rw [similarityRatio_nil]
  · obtain ⟨hleft, hright⟩ := matched_le a b
    have htotal : (0 : K) < (a.length + b.length : Nat) := by exact_mod_cast h
    rw [similarityRatio_eq h, div_le_one htotal]
    exact_mod_cast (by omega : 2 * matched a b ≤ a.length + b.length)

theorem similarityRatio_eq_one_iff (a b : Str) : similarityRatio (K := K) a b = 1 ↔ a = b := by
  rcases eq_nil_or_pos a b with ⟨rfl, rfl⟩ | h
  · rw [similarityRatio_nil]
    simp
  · have htotal : ((a.length + b.length : Nat) : K) ≠ 0 := by exact_mod_cast h.ne'
    rw [similarityRatio_eq h, div_eq_one_iff_eq htotal, Nat.cast_inj]
    exact matched_eq_half_iff a b

/-- A double keeps a ratio below one apart from one, as long as it counts the characters. -/
theorem round_similarityRatio {a b : Str} (hlength : a.length + b.length ≤ 2 ^ 53) :
    0 ≤ Double.round (similarityRatio a b) ∧ Double.round (similarityRatio a b) ≤ 1 ∧
      (Double.round (similarityRatio a b) = 1 ↔ a = b) := by
  have hnonneg := similarityRatio_nonneg (K := ℚ) a b
  by_cases heq : a = b
  · rw [(similarityRatio_eq_one_iff (K := ℚ) a b).mpr heq, Double.round_one]
    exact ⟨zero_le_one, le_rfl, iff_of_true rfl heq⟩
  · have hpos : 0 < a.length + b.length := by
      rcases eq_nil_or_pos a b with ⟨rfl, rfl⟩ | h
      · exact absurd rfl heq
      · exact h
    have hbelow : similarityRatio (K := ℚ) a b ≤ 1 - 1 / 2 ^ 53 := by
      have hle := matched_le a b
      have hne := mt (matched_eq_half_iff a b).mp heq
      have htotal : (0 : ℚ) < (a.length + b.length : Nat) := by exact_mod_cast hpos
      have hmatched : ((2 * matched a b : Nat) : ℚ) ≤ (a.length + b.length : Nat) - 1 := by
        have hlt : 2 * matched a b + 1 ≤ a.length + b.length := by omega
        have hcast : ((2 * matched a b + 1 : Nat) : ℚ) ≤ (a.length + b.length : Nat) := by
          exact_mod_cast hlt
        push_cast at hcast ⊢
        linarith
      have hpart : (1 : ℚ) / 2 ^ 53 ≤ 1 / (a.length + b.length : Nat) := by
        apply one_div_le_one_div_of_le htotal
        exact_mod_cast hlength
      calc similarityRatio (K := ℚ) a b
          = ((2 * matched a b : Nat) : ℚ) / (a.length + b.length : Nat) := similarityRatio_eq hpos
        _ ≤ ((a.length + b.length : Nat) - 1) / (a.length + b.length : Nat) := by gcongr
        _ = 1 - 1 / (a.length + b.length : Nat) := by rw [sub_div, div_self htotal.ne']
        _ ≤ 1 - 1 / 2 ^ 53 := by linarith
    have hlt := Double.round_lt_one hnonneg hbelow
    exact ⟨Double.round_nonneg hnonneg, hlt.le, iff_of_false hlt.ne heq⟩

/-! ### The vote -/

section
omit [IsStrictOrderedRing K]

/-- What a read gives a team, as often as the team is a candidate. -/
def points (rd : Str) (weight : K) (cand : Str) (c : Str) : K :=
  if c = cand ∧ MIN_READ_SIMILARITY ≤ similarityRatio (K := K) rd (candDigits cand) then
    similarityRatio rd (candDigits cand) * weight
  else 0

def gain (candidates : List Str) (read : OcrRead K) (c : Str) : K :=
  if digits read.text = [] ∨ max 0 (read.confidence.getD 1) ≤ 0 then 0
  else
    (candidates.map fun cand =>
      points (digits read.text) (max 0 (read.confidence.getD 1)) cand c).sum

theorem addVote_apply (rd : Str) (weight : K) (scores : Str → K) (cand c : Str) :
    addVote rd weight scores cand c = scores c + points rd weight cand c := by
  by_cases hsim : MIN_READ_SIMILARITY ≤ similarityRatio (K := K) rd (candDigits cand)
  · by_cases hc : c = cand
    · simp [addVote, points, hsim, hc]
    · simp [addVote, points, hsim, hc]
  · simp [addVote, points, hsim]

theorem foldl_addVote (rd : Str) (weight : K) (scores : Str → K) (candidates : List Str)
    (c : Str) :
    candidates.foldl (addVote rd weight) scores c =
      scores c + (candidates.map fun cand => points rd weight cand c).sum := by
  induction candidates generalizing scores with
  | nil => simp
  | cons cand candidates ih =>
      rw [List.foldl_cons, ih, addVote_apply, List.map_cons, List.sum_cons, add_assoc]

theorem addRead_apply (candidates : List Str) (scores : Str → K) (read : OcrRead K) (c : Str) :
    addRead candidates scores read c = scores c + gain candidates read c := by
  by_cases hrd : digits read.text = []
  · simp [addRead, gain, hrd]
  · by_cases hweight : max 0 (read.confidence.getD 1) ≤ 0
    · simp [addRead, gain, hrd, hweight]
    · simp only [addRead, gain, hrd, hweight, if_false, or_self]
      exact foldl_addVote ..

theorem addRead_comm (candidates : List Str) (scores : Str → K) (read read' : OcrRead K) :
    addRead candidates (addRead candidates scores read) read' =
      addRead candidates (addRead candidates scores read') read := by
  funext c
  rw [addRead_apply, addRead_apply, addRead_apply, addRead_apply]
  ring

theorem foldl_addRead_perm {reads reads' : List (OcrRead K)} (h : reads.Perm reads')
    (candidates : List Str) (scores : Str → K) :
    reads.foldl (addRead candidates) scores = reads'.foldl (addRead candidates) scores := by
  apply h.foldl_eq'
  intro read _ read' _ scores
  exact addRead_comm candidates scores read read'

theorem voteTrackIdentity_perm [FloorRing K] (lower : Lowering) {reads reads' : List (OcrRead K)}
    (h : reads.Perm reads') (candidateTeamKeys : List Str) :
    voteTrackIdentity lower reads candidateTeamKeys =
      voteTrackIdentity lower reads' candidateTeamKeys := by
  simp only [voteTrackIdentity, foldl_addRead_perm h]

end

theorem similarity_sound [FloorRing K] (a b : Str) (lower : Lowering)
    (candidateTeamKeys : List Str) :
    Acc Calls (a, b) ∧
      ((matchedText a b).length = matched a b ∧ (matchedText a b).Sublist a ∧
        (matchedText a b).Sublist b) ∧
      (0 ≤ similarityRatio (K := K) a b ∧ similarityRatio (K := K) a b ≤ 1 ∧
        (similarityRatio (K := K) a b = 1 ↔ a = b)) ∧
      (a.length + b.length ≤ 2 ^ 53 →
        0 ≤ Double.round (similarityRatio a b) ∧ Double.round (similarityRatio a b) ≤ 1 ∧
          (Double.round (similarityRatio a b) = 1 ↔ a = b)) ∧
      ∀ reads reads' : List (OcrRead K), reads.Perm reads' →
        (voteTrackIdentity lower reads candidateTeamKeys).teamKey =
          (voteTrackIdentity lower reads' candidateTeamKeys).teamKey := by
  refine ⟨acc_calls (a, b), ⟨length_matchedText a b, sublist_left a b, sublist_right a b⟩,
    ⟨similarityRatio_nonneg a b, similarityRatio_le_one a b, similarityRatio_eq_one_iff a b⟩,
    round_similarityRatio, ?_⟩
  intro reads reads' hperm
  rw [voteTrackIdentity_perm lower hperm]

theorem similarity_sound_rational :
    similarityRatio (K := ℚ) (units "12") (units "1234") ≤ 1 ∧
      (voteTrackIdentity (K := ℚ) Lowering.ascii [⟨units "12", none⟩, ⟨units "1234", some 1⟩]
          [units "frc1234", units "frc254"]).teamKey =
        (voteTrackIdentity (K := ℚ) Lowering.ascii [⟨units "1234", some 1⟩, ⟨units "12", none⟩]
          [units "frc1234", units "frc254"]).teamKey := by
  have h := similarity_sound (K := ℚ) (units "12") (units "1234") Lowering.ascii
    [units "frc1234", units "frc254"]
  exact ⟨h.2.2.1.2.1, h.2.2.2.2 _ _ (.swap ..)⟩

end Frcmob.OnDevice.Identity
