import Frcmob.Lib.Numerals
import Mathlib.MeasureTheory.Measure.Lebesgue.Basic

/-!
Lists of half-open time spans, what they cover and how long that is. In a list whose spans
follow one another the lengths add up to the measure of what is covered.
-/

namespace Spans

universe u

section Order
variable {K : Type u} [LinearOrder K]

def Covers (spans : List (K × K)) (t : K) : Prop :=
  ∃ p ∈ spans, p.1 ≤ t ∧ t < p.2

/-- No span ends before it starts. -/
def Forward (spans : List (K × K)) : Prop :=
  ∀ p ∈ spans, p.1 ≤ p.2

/-- Each span ends before the later ones start. -/
def Ordered (spans : List (K × K)) : Prop :=
  spans.Pairwise fun p q => p.2 ≤ q.1

@[simp] theorem not_covers_nil (t : K) : ¬ Covers ([] : List (K × K)) t :=
  fun ⟨_, hp, _⟩ => absurd hp List.not_mem_nil

@[simp] theorem covers_cons {p : K × K} {spans : List (K × K)} {t : K} :
    Covers (p :: spans) t ↔ (p.1 ≤ t ∧ t < p.2) ∨ Covers spans t := by
  simp [Covers]

theorem Ordered.sublist {spans spans' : List (K × K)} (h : Ordered spans)
    (hsub : spans'.Sublist spans) : Ordered spans' :=
  List.Pairwise.sublist hsub h

/-! ### The part of spans that lies in another -/

def clip (a b : K) (spans : List (K × K)) : List (K × K) :=
  (spans.map fun p => (max p.1 a, min p.2 b)).filter fun p => p.1 < p.2

theorem covers_clip {a b : K} {spans : List (K × K)} {t : K} :
    Covers (clip a b spans) t ↔ (a ≤ t ∧ t < b) ∧ Covers spans t := by
  constructor
  · rintro ⟨q, hq, hstart, hend⟩
    obtain ⟨p, hp, rfl⟩ := List.mem_map.mp (List.mem_of_mem_filter hq)
    rw [max_le_iff] at hstart
    rw [lt_min_iff] at hend
    exact ⟨⟨hstart.2, hend.2⟩, p, hp, hstart.1, hend.1⟩
  · rintro ⟨⟨ha, hb⟩, p, hp, hstart, hend⟩
    have hle : max p.1 a ≤ t := max_le hstart ha
    have hlt : t < min p.2 b := lt_min hend hb
    exact ⟨_, List.mem_filter.mpr ⟨List.mem_map_of_mem hp, decide_eq_true (hle.trans_lt hlt)⟩,
      hle, hlt⟩

theorem forward_clip (a b : K) (spans : List (K × K)) : Forward (clip a b spans) :=
  fun _ hp => (of_decide_eq_true (List.mem_filter.mp hp).2).le

theorem Ordered.clip {spans : List (K × K)} (h : Ordered spans) (a b : K) :
    Ordered (clip a b spans) := by
  refine List.Pairwise.filter _ (List.pairwise_map.mpr (h.imp fun {p q} hpq => ?_))
  exact (min_le_left _ _).trans (hpq.trans (le_max_left _ _))

end Order

/-! ### Length -/

section Length
variable {K : Type u} [AddCommGroup K]

def total (spans : List (K × K)) : K :=
  (spans.map fun p => p.2 - p.1).sum

@[simp] theorem total_nil : total ([] : List (K × K)) = 0 := rfl

@[simp] theorem total_cons (p : K × K) (spans : List (K × K)) :
    total (p :: spans) = p.2 - p.1 + total spans := rfl

end Length

/-- The length of a set of times. -/
noncomputable def length (times : Set ℝ) : ℝ :=
  (MeasureTheory.volume times).toReal

theorem total_nonneg {spans : List (ℝ × ℝ)} (h : Forward spans) : 0 ≤ total spans := by
  refine List.sum_nonneg fun x hx => ?_
  obtain ⟨p, hp, rfl⟩ := List.mem_map.mp hx
  exact sub_nonneg.mpr (h p hp)

theorem setOf_covers_cons (p : ℝ × ℝ) (spans : List (ℝ × ℝ)) :
    {t | Covers (p :: spans) t} = Set.Ico p.1 p.2 ∪ {t | Covers spans t} := by
  ext t
  exact covers_cons

theorem measurableSet_covers (spans : List (ℝ × ℝ)) : MeasurableSet {t | Covers spans t} := by
  induction spans with
  | nil => simp
  | cons p spans ih =>
      rw [setOf_covers_cons]
      exact measurableSet_Ico.union ih

theorem volume_covers {spans : List (ℝ × ℝ)} (hforward : Forward spans)
    (hordered : Ordered spans) :
    MeasureTheory.volume {t | Covers spans t} = ENNReal.ofReal (total spans) := by
  induction spans with
  | nil => simp
  | cons p spans ih =>
      have hrest : Forward spans := fun q hq => hforward q (List.mem_cons_of_mem _ hq)
      have hp := hforward p List.mem_cons_self
      have hordered' := List.pairwise_cons.mp hordered
      have hdisjoint : Disjoint (Set.Ico p.1 p.2) {t | Covers spans t} := by
        rw [Set.disjoint_left]
        rintro t ht ⟨q, hq, hqt⟩
        exact absurd ((hordered'.1 q hq).trans hqt.1) (not_le.mpr ht.2)
      rw [setOf_covers_cons, MeasureTheory.measure_union hdisjoint (measurableSet_covers spans),
        Real.volume_Ico, ih hrest hordered'.2, total_cons,
        ENNReal.ofReal_add (sub_nonneg.mpr hp) (total_nonneg hrest)]

/-- Spans that follow one another are as long as what they cover. -/
theorem length_covers {spans : List (ℝ × ℝ)} (hforward : Forward spans)
    (hordered : Ordered spans) : length {t | Covers spans t} = total spans := by
  rw [length, volume_covers hforward hordered, ENNReal.toReal_ofReal (total_nonneg hforward)]

/-- What spans cover is at most as long as they are together. -/
theorem volume_covers_le {spans : List (ℝ × ℝ)} (hforward : Forward spans) :
    MeasureTheory.volume {t | Covers spans t} ≤ ENNReal.ofReal (total spans) := by
  induction spans with
  | nil => simp
  | cons p spans ih =>
      have hrest : Forward spans := fun q hq => hforward q (List.mem_cons_of_mem _ hq)
      have hp := hforward p List.mem_cons_self
      calc MeasureTheory.volume {t | Covers (p :: spans) t}
          ≤ MeasureTheory.volume (Set.Ico p.1 p.2) + MeasureTheory.volume {t | Covers spans t} := by
            rw [setOf_covers_cons]
            exact MeasureTheory.measure_union_le _ _
        _ ≤ ENNReal.ofReal (p.2 - p.1) + ENNReal.ofReal (total spans) := by
            rw [Real.volume_Ico]
            exact add_le_add le_rfl (ih hrest)
        _ = ENNReal.ofReal (total (p :: spans)) :=
            (ENNReal.ofReal_add (sub_nonneg.mpr hp) (total_nonneg hrest)).symm

/-- Spans that follow one another within others are together no longer. -/
theorem total_le_total {spans spans' : List (ℝ × ℝ)} (hforward : Forward spans)
    (hordered : Ordered spans) (hforward' : Forward spans')
    (h : ∀ t, Covers spans t → Covers spans' t) : total spans ≤ total spans' := by
  have hvolume : ENNReal.ofReal (total spans) ≤ ENNReal.ofReal (total spans') := by
    rw [← volume_covers hforward hordered]
    exact (MeasureTheory.measure_mono h).trans (volume_covers_le hforward')
  exact (ENNReal.ofReal_le_ofReal_iff (total_nonneg hforward')).mp hvolume

end Spans
