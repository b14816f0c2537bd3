import Mathlib.Data.List.Basic
import Mathlib.Data.List.Nodup

/-!
Tables with a primary key: a list of rows no two of which share a key, in the order
of their first insertion. `put` is the upsert of a database row, of an IndexedDB
object store and of a JavaScript `Map`: it replaces in place or appends.
-/

universe u v

/-- Rows with distinct keys; `key` reads the key off a row. -/
structure Table {α : Type u} {κ : Type v} (key : α → κ) where
  rows : List α
  unique : (rows.map key).Nodup

namespace Table

variable {α : Type u} {κ : Type v} {key : α → κ}

instance : Membership α (Table key) := ⟨fun t x => x ∈ t.rows⟩

theorem mem_def {t : Table key} {x : α} : x ∈ t ↔ x ∈ t.rows := Iff.rfl

instance [DecidableEq α] (t : Table key) (x : α) : Decidable (x ∈ t) :=
  inferInstanceAs (Decidable (x ∈ t.rows))

def empty : Table key := ⟨[], List.nodup_nil⟩

@[simp] theorem notMem_empty (x : α) : x ∉ (empty : Table key) :=
  List.not_mem_nil

/-- A row is determined by its key. -/
theorem eq_of_key {t : Table key} {x y : α} (hx : x ∈ t) (hy : y ∈ t)
    (h : key x = key y) : x = y :=
  List.inj_on_of_nodup_map t.unique hx hy h

/-- Keep the rows that `p` accepts. -/
def filter (t : Table key) (p : α → Bool) : Table key :=
  ⟨t.rows.filter p, (List.filter_sublist.map key).nodup t.unique⟩

@[simp] theorem mem_filter {t : Table key} {p : α → Bool} {x : α} :
    x ∈ t.filter p ↔ x ∈ t ∧ p x = true :=
  List.mem_filter

/-- Forget the first `n` rows. -/
def drop (t : Table key) (n : Nat) : Table key :=
  ⟨t.rows.drop n, ((List.drop_sublist n t.rows).map key).nodup t.unique⟩

theorem mem_of_mem_drop {t : Table key} {n : Nat} {x : α} (h : x ∈ t.drop n) : x ∈ t :=
  List.mem_of_mem_drop h

/-- Change rows without changing their keys. -/
def mapRows (t : Table key) (f : α → α) (hf : ∀ x, key (f x) = key x) : Table key :=
  ⟨t.rows.map f, by
    rw [List.map_map, show key ∘ f = key from funext hf]
    exact t.unique⟩

@[simp] theorem mem_mapRows {t : Table key} {f : α → α} {hf : ∀ x, key (f x) = key x}
    {y : α} : y ∈ t.mapRows f hf ↔ ∃ x ∈ t, f x = y :=
  List.mem_map

variable [DecidableEq κ]

def get? (t : Table key) (k : κ) : Option α :=
  t.rows.find? fun x => key x = k

theorem get?_eq_some {t : Table key} {k : κ} {x : α} :
    t.get? k = some x ↔ x ∈ t ∧ key x = k := by
  constructor
  · intro h
    exact ⟨List.mem_of_find?_eq_some h, by simpa using List.find?_some h⟩
  · rintro ⟨hx, rfl⟩
    obtain ⟨y, hy⟩ : ∃ y, t.get? (key x) = some y :=
      Option.isSome_iff_exists.mp (List.find?_isSome.mpr ⟨x, hx, by simp⟩)
    have hky : key y = key x := by simpa using List.find?_some hy
    rw [hy, eq_of_key (List.mem_of_find?_eq_some hy) hx hky]

theorem get?_eq_none {t : Table key} {k : κ} : t.get? k = none ↔ ∀ x ∈ t, key x ≠ k := by
  simp [get?, mem_def]

theorem get?_isSome {t : Table key} {k : κ} : (t.get? k).isSome ↔ ∃ x ∈ t, key x = k := by
  simp [get?, mem_def]

def replaced (key : α → κ) (x y : α) : α :=
  if key y = key x then x else y

theorem key_replaced (x y : α) : key (replaced key x y) = key y := by
  unfold replaced; split <;> simp_all

/-- Replace the row with `x`'s key, or append `x`. -/
def put (t : Table key) (x : α) : Table key :=
  if h : ∃ y ∈ t.rows, key y = key x then
    ⟨t.rows.map (replaced key x), by
      rw [List.map_map, show key ∘ replaced key x = key from funext (key_replaced x)]
      exact t.unique⟩
  else
    ⟨t.rows ++ [x], by
      rw [List.map_append, List.nodup_append]
      refine ⟨t.unique, by simp, ?_⟩
      intro a ha b hb hab
      obtain ⟨y, hy, rfl⟩ := List.mem_map.mp ha
      have hbx : b = key x := by simpa using hb
      exact h ⟨y, hy, hab.trans hbx⟩⟩

@[simp] theorem mem_put {t : Table key} {x y : α} :
    y ∈ t.put x ↔ y = x ∨ (y ∈ t ∧ key y ≠ key x) := by
  rw [put]
  split
  · rename_i h
    obtain ⟨z, hz, hzk⟩ := h
    simp only [mem_def, List.mem_map, replaced]
    constructor
    · rintro ⟨w, hw, rfl⟩
      by_cases hk : key w = key x
      · simp [hk]
      · simp [hk, hw]
    · rintro (rfl | ⟨hy, hk⟩)
      · exact ⟨z, hz, by simp [hzk]⟩
      · exact ⟨y, hy, by simp [hk]⟩
  · rename_i h
    simp only [mem_def, List.mem_append, List.mem_singleton]
    constructor
    · rintro (hy | rfl)
      · exact .inr ⟨hy, fun hk => h ⟨y, hy, hk⟩⟩
      · exact .inl rfl
    · rintro (rfl | ⟨hy, -⟩)
      · exact .inr rfl
      · exact .inl hy

theorem map_key_put_of_mem {t : Table key} {x : α} (h : ∃ y ∈ t, key y = key x) :
    (t.put x).rows.map key = t.rows.map key := by
  have h' : ∃ y ∈ t.rows, key y = key x := h
  rw [put, dif_pos h', List.map_map, show key ∘ replaced key x = key from funext (key_replaced x)]

theorem map_key_put_of_notMem {t : Table key} {x : α} (h : ∀ y ∈ t, key y ≠ key x) :
    (t.put x).rows.map key = t.rows.map key ++ [key x] := by
  have h' : ¬ ∃ y ∈ t.rows, key y = key x := fun ⟨y, hy, hk⟩ => h y hy hk
  rw [put, dif_neg h', List.map_append, List.map_cons, List.map_nil]

theorem length_put_le (t : Table key) (x : α) : (t.put x).rows.length ≤ t.rows.length + 1 := by
  rw [put]
  split <;> simp

theorem mem_put_self (t : Table key) (x : α) : x ∈ t.put x :=
  mem_put.mpr (.inl rfl)

theorem mem_put_of_ne {t : Table key} {x y : α} (hy : y ∈ t) (h : key y ≠ key x) :
    y ∈ t.put x :=
  mem_put.mpr (.inr ⟨hy, h⟩)

def erase (t : Table key) (k : κ) : Table key :=
  t.filter fun x => key x ≠ k

@[simp] theorem mem_erase {t : Table key} {k : κ} {x : α} :
    x ∈ t.erase k ↔ x ∈ t ∧ key x ≠ k := by
  simp [erase]

theorem map_key_erase (t : Table key) (k : κ) :
    ((t.erase k).rows.map key).Sublist (t.rows.map key) :=
  List.filter_sublist.map key

/-- Upsert a list of rows from the left, so the last row of a key stays. -/
def putAll (t : Table key) (xs : List α) : Table key :=
  xs.foldl put t

@[simp] theorem putAll_cons (t : Table key) (x : α) (xs : List α) :
    t.putAll (x :: xs) = (t.put x).putAll xs := rfl

theorem length_putAll_le (t : Table key) (xs : List α) :
    (t.putAll xs).rows.length ≤ t.rows.length + xs.length := by
  induction xs generalizing t with
  | nil => exact Nat.le_refl _
  | cons x xs ih =>
      have hput := t.length_put_le x
      have hrest := ih (t.put x)
      simp only [putAll_cons, List.length_cons] at hrest ⊢
      omega

/-- A write is not seen among rows of which none has its key. -/
theorem filter_rows_put (t : Table key) {x : α} {p : α → Bool}
    (h : ∀ y, key y = key x → p y = false) : (t.put x).rows.filter p = t.rows.filter p := by
  rw [put]
  split
  · rw [List.filter_map]
    have hp : p ∘ replaced key x = p := by
      funext y
      rw [Function.comp_apply, replaced]
      split
      · rename_i hk
        rw [h x rfl, h y hk]
      · rfl
    have hsame : ∀ y ∈ t.rows.filter p, replaced key x y = y := by
      intro y hy
      apply if_neg
      intro hk
      rw [List.mem_filter, h y hk] at hy
      cases hy.2
    rw [hp, List.map_congr_left hsame, List.map_id']
  · rw [List.filter_append, List.filter_singleton, h x rfl]
    simp

theorem filter_rows_putAll {xs : List α} (t : Table key) {p : α → Bool}
    (h : ∀ x ∈ xs, ∀ y, key y = key x → p y = false) :
    (t.putAll xs).rows.filter p = t.rows.filter p := by
  induction xs generalizing t with
  | nil => rfl
  | cons x xs ih =>
      rw [putAll_cons, ih _ fun z hz => h z (List.mem_cons_of_mem _ hz),
        filter_rows_put t (h x List.mem_cons_self)]

/-- Among the rows that share a property with its key's rows, a write is a write. -/
theorem filter_rows_put_of_pos (t : Table key) {x : α} {p : α → Bool}
    (h : ∀ y, key y = key x → p y = true) :
    (t.put x).rows.filter p =
      if ∃ y ∈ t.rows.filter p, key y = key x then (t.rows.filter p).map (replaced key x)
      else t.rows.filter p ++ [x] := by
  have hiff : (∃ y ∈ t.rows.filter p, key y = key x) ↔ ∃ y ∈ t.rows, key y = key x := by
    constructor
    · rintro ⟨y, hy, hk⟩
      exact ⟨y, (List.mem_filter.mp hy).1, hk⟩
    · rintro ⟨y, hy, hk⟩
      exact ⟨y, List.mem_filter.mpr ⟨hy, h y hk⟩, hk⟩
  rw [put]
  by_cases hx : ∃ y ∈ t.rows, key y = key x
  · rw [dif_pos hx, if_pos (hiff.mpr hx), List.filter_map]
    have hp : p ∘ replaced key x = p := by
      funext y
      rw [Function.comp_apply, replaced]
      split
      · rename_i hk
        rw [h x rfl, h y hk]
      · rfl
    rw [hp]
  · rw [dif_neg hx, if_neg (hx ∘ hiff.mp), List.filter_append, List.filter_singleton, h x rfl]
    rfl

theorem filter_rows_putAll_congr {xs : List α} {t t' : Table key} {p : α → Bool}
    (h : ∀ x ∈ xs, ∀ y, key y = key x → p y = true)
    (heq : t.rows.filter p = t'.rows.filter p) :
    (t.putAll xs).rows.filter p = (t'.putAll xs).rows.filter p := by
  induction xs generalizing t t' with
  | nil => exact heq
  | cons x xs ih =>
      rw [putAll_cons, putAll_cons]
      apply ih fun z hz => h z (List.mem_cons_of_mem _ hz)
      rw [filter_rows_put_of_pos t (h x List.mem_cons_self),
        filter_rows_put_of_pos t' (h x List.mem_cons_self), heq]

theorem mem_putAll {xs : List α} {t : Table key} {y : α} (h : y ∈ t.putAll xs) :
    y ∈ t ∨ y ∈ xs := by
  induction xs generalizing t with
  | nil => exact .inl h
  | cons x xs ih =>
      rcases ih h with hin | hin
      · rcases mem_put.mp hin with rfl | ⟨hy, -⟩
        · exact .inr List.mem_cons_self
        · exact .inl hy
      · exact .inr (List.mem_cons_of_mem _ hin)

theorem mem_putAll_of_notMem {xs : List α} {t : Table key} {y : α} (hy : y ∈ t)
    (h : ∀ x ∈ xs, key x ≠ key y) : y ∈ t.putAll xs := by
  induction xs generalizing t with
  | nil => exact hy
  | cons x xs ih =>
      refine ih (mem_put_of_ne hy fun he => h x List.mem_cons_self he.symm) ?_
      exact fun z hz => h z (List.mem_cons_of_mem _ hz)

/-! ### What a key holds after a write -/

@[simp] theorem get?_put_self (t : Table key) (x : α) : (t.put x).get? (key x) = some x :=
  get?_eq_some.mpr ⟨mem_put_self t x, rfl⟩

theorem get?_put_of_ne {t : Table key} {x : α} {k : κ} (h : k ≠ key x) :
    (t.put x).get? k = t.get? k := by
  apply Option.ext
  intro y
  rw [get?_eq_some, get?_eq_some, mem_put]
  constructor
  · rintro ⟨rfl | ⟨hy, -⟩, hk⟩
    · exact absurd hk.symm h
    · exact ⟨hy, hk⟩
  · rintro ⟨hy, rfl⟩
    exact ⟨.inr ⟨hy, h⟩, rfl⟩

@[simp] theorem get?_erase_self (t : Table key) (k : κ) : (t.erase k).get? k = none :=
  get?_eq_none.mpr fun _ hx => (mem_erase.mp hx).2

theorem get?_erase_of_ne {t : Table key} {k k' : κ} (h : k' ≠ k) :
    (t.erase k).get? k' = t.get? k' := by
  apply Option.ext
  intro y
  rw [get?_eq_some, get?_eq_some, mem_erase]
  constructor
  · rintro ⟨⟨hy, -⟩, hk⟩
    exact ⟨hy, hk⟩
  · rintro ⟨hy, rfl⟩
    exact ⟨⟨hy, h⟩, rfl⟩

theorem get?_filter (t : Table key) (p : α → Bool) (k : κ) :
    (t.filter p).get? k = (t.get? k).filter p := by
  apply Option.ext
  intro y
  rw [get?_eq_some, Option.filter_eq_some_iff, get?_eq_some, mem_filter]
  exact and_right_comm

/-- The last row of a key wins. -/
theorem get?_putAll (t : Table key) (xs : List α) (k : κ) :
    (t.putAll xs).get? k = (xs.reverse.find? fun x => key x = k).or (t.get? k) := by
  induction xs generalizing t with
  | nil => rfl
  | cons x xs ih =>
      rw [putAll_cons, ih, List.reverse_cons, List.find?_append, Option.or_assoc]
      congr 1
      by_cases hk : key x = k
      · subst hk
        simp
      · rw [get?_put_of_ne (Ne.symm hk)]
        simp [hk]

theorem map_some_rows (t : Table key) : t.rows.map some = (t.rows.map key).map t.get? := by
  rw [List.map_map]
  exact List.map_congr_left fun x hx => (get?_eq_some.mpr ⟨hx, rfl⟩).symm

/-- Two tables with the same keys in one order and the same row under each key. -/
theorem ext_get? {t t' : Table key} (hkeys : t.rows.map key = t'.rows.map key)
    (hget : ∀ k, t.get? k = t'.get? k) : t = t' := by
  have hrows : t.rows.map some = t'.rows.map some := by
    rw [map_some_rows, map_some_rows, hkeys, funext hget]
  have heq := List.map_injective_iff.mpr (fun _ _ h => Option.some.inj h) hrows
  cases t
  cases t'
  cases heq
  rfl

theorem map_key_putAll_of_mem {xs : List α} {t : Table key}
    (h : ∀ x ∈ xs, ∃ y ∈ t, key y = key x) : (t.putAll xs).rows.map key = t.rows.map key := by
  induction xs generalizing t with
  | nil => rfl
  | cons x xs ih =>
      have hput := map_key_put_of_mem (h x List.mem_cons_self)
      rw [putAll_cons, ih, hput]
      intro z hz
      have hmem : key z ∈ t.rows.map key := by
        obtain ⟨y, hy, hk⟩ := h z (List.mem_cons_of_mem _ hz)
        exact List.mem_map.mpr ⟨y, hy, hk⟩
      rw [← hput] at hmem
      exact List.mem_map.mp hmem

theorem exists_key_putAll (t : Table key) {xs : List α} {x : α} (hx : x ∈ xs) :
    ∃ y ∈ t.putAll xs, key y = key x := by
  rw [← get?_isSome, get?_putAll, Option.isSome_or, Bool.or_eq_true]
  exact .inl (List.find?_isSome.mpr ⟨x, List.mem_reverse.mpr hx, by simp⟩)

/-- Upserting the same rows again changes nothing. -/
theorem putAll_putAll (t : Table key) (xs : List α) :
    (t.putAll xs).putAll xs = t.putAll xs := by
  refine ext_get? (map_key_putAll_of_mem fun x hx => exists_key_putAll t hx) fun k => ?_
  rw [get?_putAll, get?_putAll, ← Option.or_assoc, Option.or_self]

/-- Dictionary from rows with distinct keys. -/
theorem rows_putAll {t : Table key} {xs : List α}
    (h : ((t.rows ++ xs).map key).Nodup) : (t.putAll xs).rows = t.rows ++ xs := by
  induction xs generalizing t with
  | nil => exact (List.append_nil _).symm
  | cons x xs ih =>
      have hnew : ¬ ∃ y ∈ t.rows, key y = key x := by
        rintro ⟨y, hy, hk⟩
        rw [List.map_append, List.map_cons, List.nodup_append] at h
        exact h.2.2 _ (List.mem_map_of_mem hy) _ List.mem_cons_self hk
      have hput : (t.put x).rows = t.rows ++ [x] := by rw [put, dif_neg hnew]
      rw [putAll_cons, ih (by rw [hput, List.append_assoc]; exact h), hput, List.append_assoc]
      rfl

/-- Writes one after another, each of which sets its own key and no other. -/
theorem lookup_foldl {σ : Type*} {β : Type*} {write : σ → α → σ} {look : σ → κ → β}
    {value : α → β} {xs : List α} (hunique : (xs.map key).Nodup)
    (hself : ∀ s, ∀ x ∈ xs, look (write s x) (key x) = value x)
    (hother : ∀ s, ∀ x ∈ xs, ∀ k, k ≠ key x → look (write s x) k = look s k) (s : σ) (k : κ) :
    look (xs.foldl write s) k = ((xs.find? fun x => key x = k).map value).getD (look s k) := by
  induction xs generalizing s with
  | nil => rfl
  | cons x xs ih =>
      rw [List.map_cons, List.nodup_cons] at hunique
      rw [List.foldl_cons, ih hunique.2 (fun s y hy => hself s y (List.mem_cons_of_mem _ hy))
        fun s y hy => hother s y (List.mem_cons_of_mem _ hy)]
      by_cases hk : key x = k
      · subst hk
        have hnone : (xs.find? fun y => key y = key x) = none := by
          rw [List.find?_eq_none]
          intro y hy hyk
          exact hunique.1 (of_decide_eq_true hyk ▸ List.mem_map_of_mem hy)
        rw [hnone, List.find?_cons_of_pos (by simp)]
        exact hself s x List.mem_cons_self
      · rw [List.find?_cons_of_neg (by simpa using hk)]
        cases xs.find? fun y => key y = k with
        | none => exact hother s x List.mem_cons_self k (Ne.symm hk)
        | some y => rfl

theorem get?_putAll_of_nodup {xs : List α} (hunique : (xs.map key).Nodup) (t : Table key) (k : κ) :
    (t.putAll xs).get? k = (xs.find? fun x => key x = k).or (t.get? k) := by
  have hlookup := @lookup_foldl _ _ key _ _ _ put get? some _ hunique (fun t x _ => get?_put_self t x)
    (fun _ _ _ _ hk => get?_put_of_ne hk) t k
  rw [putAll, hlookup]
  cases xs.find? fun x => key x = k with
  | none => rfl
  | some x => rfl

end Table
