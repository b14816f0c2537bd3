import Mathlib.Data.List.Basic

/-!
A document that is replaced as a whole, one version after another. A writer names the version
its content was made on; the store takes the content if that version is still the current one,
and answers with the current one otherwise. Version `n + 1` is the entry `n` of the history.
-/

namespace Versioned

universe u v
variable {κ : Type u} {α : Type v}

structure Version (κ : Type u) (α : Type v) where
  author : κ
  basedOn : Nat
  content : α
deriving DecidableEq

abbrev Store (κ : Type u) (α : Type v) := List (Version κ α)

structure Answer (α : Type v) where
  conflict : Bool
  version : Nat
  content : α
deriving DecidableEq

/-- The content of the current version; `blank` before the first. -/
def current (blank : α) (store : Store κ α) : α :=
  match store.getLast? with
  | some v => v.content
  | none => blank

def put (blank : α) (store : Store κ α) (author : κ) (basedOn : Nat) (content : α) :
    Store κ α × Answer α :=
  if basedOn ≠ store.length then (store, ⟨true, store.length, current blank store⟩)
  else (store ++ [⟨author, basedOn, content⟩], ⟨false, store.length + 1, content⟩)

/-- `content` is what the version `n` holds. -/
def Holds (store : Store κ α) (n : Nat) (content : α) : Prop :=
  ∃ i v, n = i + 1 ∧ store[i]? = some v ∧ v.content = content

/-- A version after `n` is by somebody else than `author`. -/
def OtherAfter (store : Store κ α) (author : κ) (n : Nat) : Prop :=
  ∃ i v, n ≤ i ∧ store[i]? = some v ∧ v.author ≠ author

/-- No version was replaced by content made on another one. -/
def WellBased (store : Store κ α) : Prop :=
  ∀ (i : Nat) (v : Version κ α), store[i]? = some v → v.basedOn = i

section Lemmas
variable {blank : α} {store store' : Store κ α} {author : κ} {basedOn n : Nat} {content : α}

theorem getElem?_of_grown (h : store <+: store') {i : Nat} {v : Version κ α}
    (hv : store[i]? = some v) : store'[i]? = some v := by
  obtain ⟨hi, hentry⟩ := List.getElem?_eq_some_iff.mp hv
  rw [List.prefix_iff_getElem?.mp h i hi, hentry]

theorem Holds.of_grown (h : store <+: store') (hn : Holds store n content) :
    Holds store' n content := by
  obtain ⟨i, v, hi, hv, hcontent⟩ := hn
  exact ⟨i, v, hi, getElem?_of_grown h hv, hcontent⟩

theorem OtherAfter.of_grown (h : store <+: store') (hn : OtherAfter store author n) :
    OtherAfter store' author n := by
  obtain ⟨i, v, hi, hv, hauthor⟩ := hn
  exact ⟨i, v, hi, getElem?_of_grown h hv, hauthor⟩

theorem OtherAfter.mono {m : Nat} (hle : m ≤ n) (h : OtherAfter store author n) :
    OtherAfter store author m := by
  obtain ⟨i, v, hi, hv, hauthor⟩ := h
  exact ⟨i, v, Nat.le_trans hle hi, hv, hauthor⟩

theorem put_grown : store <+: (put blank store author basedOn content).1 := by
  unfold put
  split
  · exact List.prefix_refl _
  · exact List.prefix_append _ _

/-- A put adds at most one entry, its own, and that one on the current version. -/
theorem put_getElem? {i : Nat} {v : Version κ α}
    (h : (put blank store author basedOn content).1[i]? = some v) :
    store[i]? = some v ∨
      (i = store.length ∧ v = ⟨author, basedOn, content⟩ ∧ basedOn = store.length) := by
  unfold put at h
  split at h
  · exact .inl h
  next hbased =>
    simp only [ne_eq, Decidable.not_not] at hbased
    by_cases hi : i < store.length
    · rw [List.getElem?_append_left hi] at h
      exact .inl h
    · rw [List.getElem?_append_right (Nat.le_of_not_lt hi)] at h
      cases hsub : i - store.length with
      | zero =>
          rw [hsub] at h
          simp only [List.getElem?_cons_zero, Option.some.injEq] at h
          exact .inr ⟨by omega, h.symm, hbased⟩
      | succ k =>
          rw [hsub] at h
          simp at h

theorem WellBased.put (h : WellBased store) :
    WellBased (put blank store author basedOn content).1 := by
  intro i v hv
  cases put_getElem? hv with
  | inl hold => exact h i v hold
  | inr hnew =>
      obtain ⟨hi, hv, hbased⟩ := hnew
      rw [hv, hi, ← hbased]

theorem wellBased_nil : WellBased ([] : Store κ α) := by
  intro i v hv
  simp at hv

end Lemmas

end Versioned
