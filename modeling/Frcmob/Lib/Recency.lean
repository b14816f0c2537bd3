import Frcmob.Lib.Table

/-!
Tables in the order of last use: a row that is written or read goes to the end, and the oldest
rows are dropped when there are too many. An `OrderedDict` with `move_to_end` and
`popitem(last=False)` is one.
-/

universe u v

namespace Table

variable {α : Type u} {κ : Type v} {key : α → κ}

/-- Keep the last `n` rows. -/
def newest (t : Table key) (n : Nat) : Table key :=
  t.drop (t.rows.length - n)

theorem length_newest_le (t : Table key) (n : Nat) : (t.newest n).rows.length ≤ n := by
  have hlength : (t.newest n).rows.length = t.rows.length - (t.rows.length - n) :=
    List.length_drop
  omega

theorem mem_of_mem_newest {t : Table key} {n : Nat} {x : α} (h : x ∈ t.newest n) : x ∈ t :=
  mem_of_mem_drop h

theorem length_filter_le (t : Table key) (p : α → Bool) :
    (t.filter p).rows.length ≤ t.rows.length :=
  List.length_filter_le p t.rows

variable [DecidableEq κ]

/-- Write a row and make it the one used last. -/
def touch (t : Table key) (x : α) : Table key :=
  (t.erase (key x)).put x

@[simp] theorem mem_touch {t : Table key} {x y : α} :
    y ∈ t.touch x ↔ y = x ∨ (y ∈ t ∧ key y ≠ key x) := by
  rw [touch, mem_put, mem_erase]
  constructor
  · rintro (rfl | ⟨⟨hy, hk⟩, -⟩)
    · exact .inl rfl
    · exact .inr ⟨hy, hk⟩
  · rintro (rfl | ⟨hy, hk⟩)
    · exact .inl rfl
    · exact .inr ⟨⟨hy, hk⟩, hk⟩

theorem rows_touch (t : Table key) (x : α) : (t.touch x).rows = (t.erase (key x)).rows ++ [x] := by
  have hnone : ¬ ∃ y ∈ (t.erase (key x)).rows, key y = key x := by
    rintro ⟨y, hy, hk⟩
    exact (mem_erase.mp hy).2 hk
  rw [touch, put, dif_neg hnone]

/-- The row used last is kept, however few are. -/
theorem mem_newest_touch (t : Table key) (x : α) {n : Nat} (h : n ≠ 0) :
    x ∈ (t.touch x).newest n := by
  change x ∈ (t.touch x).rows.drop ((t.touch x).rows.length - n)
  rw [rows_touch, List.length_append, List.length_singleton, List.drop_append_of_le_length]
  · exact List.mem_append_right _ (List.mem_singleton_self x)
  · omega

-- The size may be a large literal, which unification must not count down.
attribute [irreducible] newest

theorem length_touch_of_mem {t : Table key} {x : α} (h : x ∈ t) :
    (t.touch x).rows.length ≤ t.rows.length := by
  have herase : (t.erase (key x)).rows.length + 1 ≤ t.rows.length := by
    refine Nat.succ_le_of_lt (Nat.lt_of_le_of_ne (List.length_filter_le _ _) fun heq => ?_)
    have hall := List.length_filter_eq_length_iff.mp heq x h
    simp at hall
  rw [rows_touch, List.length_append, List.length_singleton]
  exact herase

end Table
