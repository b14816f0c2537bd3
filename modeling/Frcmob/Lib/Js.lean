import Mathlib.Data.List.Chain
import Mathlib.Data.Rat.Floor

/-!
JavaScript values as JSON carries them. A string is its UTF-16 code units, which is what
`slice` and `length` count; white space is ECMAScript's, for `trim` and for `\s`. A finite
number is its rational value.
-/

namespace Js

abbrev Str := List UInt16

instance : LawfulBEq Str := inferInstance

/-- An ASCII literal. -/
def units (s : String) : Str :=
  s.toList.map fun c => UInt16.ofNat c.toNat

def space : UInt16 := 32

def spaces : List UInt16 :=
  [9, 10, 11, 12, 13, 32, 0xA0, 0x1680, 0x2000, 0x2001, 0x2002, 0x2003, 0x2004, 0x2005, 0x2006,
    0x2007, 0x2008, 0x2009, 0x200A, 0x2028, 0x2029, 0x202F, 0x205F, 0x3000, 0xFEFF]

def isSpace (u : UInt16) : Bool :=
  spaces.contains u

/-! ### Trimming -/

def dropSpaces (s : Str) : Str :=
  s.dropWhile isSpace

/-- `s.trim()` -/
def trim (s : Str) : Str :=
  (dropSpaces (dropSpaces s).reverse).reverse

def startsWithSpace (s : Str) : Bool :=
  s.head?.any isSpace

def endsWithSpace (s : Str) : Bool :=
  s.getLast?.any isSpace

structure Trimmed (s : Str) : Prop where
  start : startsWithSpace s = false
  finish : endsWithSpace s = false

theorem endsWithSpace_eq (s : Str) : endsWithSpace s = startsWithSpace s.reverse := by
  rw [startsWithSpace, List.head?_reverse, endsWithSpace]

theorem startsWithSpace_dropSpaces (s : Str) : startsWithSpace (dropSpaces s) = false := by
  induction s with
  | nil => rfl
  | cons u s ih =>
      by_cases hu : isSpace u
      · rw [dropSpaces, List.dropWhile_cons_of_pos hu]
        exact ih
      · rw [dropSpaces, List.dropWhile_cons_of_neg hu]
        simpa [startsWithSpace] using hu

theorem dropSpaces_eq_self {s : Str} (h : startsWithSpace s = false) : dropSpaces s = s := by
  cases s with
  | nil => rfl
  | cons u s =>
      rw [dropSpaces, List.dropWhile_cons_of_neg]
      simpa [startsWithSpace] using h

theorem trimmed_trim (s : Str) : Trimmed (trim s) := by
  constructor
  case start =>
    -- Dropping from the end leaves the first unit, if any unit is left.
    have hsuffix : trim s <+: dropSpaces s := by
      rw [← List.reverse_suffix, trim, List.reverse_reverse]
      exact List.dropWhile_suffix isSpace
    obtain ⟨rest, hrest⟩ := hsuffix
    have hstart := startsWithSpace_dropSpaces s
    cases htrim : trim s with
    | nil => rfl
    | cons u t =>
        rw [← hrest, htrim] at hstart
        exact hstart
  case finish =>
    rw [endsWithSpace_eq, trim, List.reverse_reverse]
    exact startsWithSpace_dropSpaces _

theorem trim_eq_self {s : Str} (h : Trimmed s) : trim s = s := by
  rw [trim, dropSpaces_eq_self h.start, dropSpaces_eq_self, List.reverse_reverse]
  rw [← endsWithSpace_eq]
  exact h.finish

theorem trimmed_of_forall {s : Str} (h : ∀ u ∈ s, isSpace u = false) : Trimmed s := by
  constructor
  case start =>
    cases s with
    | nil => rfl
    | cons u s => exact h u List.mem_cons_self
  case finish =>
    cases hlast : s.getLast? with
    | none => rw [endsWithSpace, hlast, Option.any_none]
    | some u =>
        rw [endsWithSpace, hlast, Option.any_some]
        exact h u (List.mem_of_getLast? hlast)

theorem length_dropSpaces_lt {s : Str} (h : startsWithSpace s = true) :
    (dropSpaces s).length < s.length := by
  cases s with
  | nil => cases h
  | cons u s =>
      have hu : isSpace u = true := by simpa [startsWithSpace] using h
      rw [dropSpaces, List.dropWhile_cons_of_pos hu, List.length_cons]
      have hle := (List.dropWhile_suffix (l := s) isSpace).length_le
      omega

theorem length_trim_lt {s : Str} (h : endsWithSpace s = true) (hstart : startsWithSpace s = false) :
    (trim s).length < s.length := by
  rw [endsWithSpace_eq] at h
  have hshorter := length_dropSpaces_lt h
  rw [List.length_reverse] at hshorter
  rw [trim, dropSpaces_eq_self hstart, List.length_reverse]
  exact hshorter

/-! ### Runs of white space -/

/-- `s.replace(/\s+/g, ' ')`; a run is written where it ends. -/
def collapse : Str → Str
  | [] => []
  | u :: s =>
      if isSpace u then
        if startsWithSpace s then collapse s else space :: collapse s
      else u :: collapse s

/-- Single blanks only. -/
structure Squeezed (s : Str) : Prop where
  blank : ∀ u ∈ s, isSpace u = true → u = space
  apart : s.IsChain fun u v => isSpace u = true → isSpace v = false

theorem length_collapse_le (s : Str) : (collapse s).length ≤ s.length := by
  induction s with
  | nil => exact Nat.le_refl _
  | cons u s ih =>
      rw [collapse]
      split
      · split
        · exact Nat.le_succ_of_le ih
        · exact Nat.succ_le_succ ih
      · exact Nat.succ_le_succ ih

theorem startsWithSpace_collapse (s : Str) : startsWithSpace (collapse s) = startsWithSpace s := by
  induction s with
  | nil => rfl
  | cons u s ih =>
      rw [collapse]
      split
      · rename_i hu
        have hstart : startsWithSpace (u :: s) = true := hu
        split
        · rename_i hs
          rw [ih, hs, hstart]
        · rw [hstart]
          rfl
      · rfl

theorem squeezed_cons {u : UInt16} {s : Str} (hs : Squeezed s) (hu : isSpace u = true → u = space)
    (hnext : isSpace u = true → startsWithSpace s = false) : Squeezed (u :: s) := by
  constructor
  case blank =>
    intro v hv
    cases hv with
    | head => exact hu
    | tail _ hin => exact hs.blank v hin
  case apart =>
    cases s with
    | nil => exact .singleton u
    | cons v s => exact List.isChain_cons_cons.mpr ⟨hnext, hs.apart⟩

theorem squeezed_collapse (s : Str) : Squeezed (collapse s) := by
  induction s with
  | nil => exact ⟨fun _ h => (List.not_mem_nil h).elim, .nil⟩
  | cons u s ih =>
      rw [collapse]
      split
      · split
        · exact ih
        · rename_i hs
          apply squeezed_cons ih (fun _ => rfl)
          intro _
          rw [startsWithSpace_collapse]
          exact Bool.eq_false_iff.mpr hs
      · rename_i hu
        exact squeezed_cons ih (fun h => absurd h hu) fun h => absurd h hu

theorem Squeezed.take {s : Str} (h : Squeezed s) (n : Nat) : Squeezed (s.take n) :=
  ⟨fun u hu => h.blank u (List.mem_of_mem_take hu), h.apart.take n⟩

theorem collapse_eq_self {s : Str} (h : Squeezed s) : collapse s = s := by
  induction s with
  | nil => rfl
  | cons u s ih =>
      have hrest : Squeezed s := ⟨fun v hv => h.blank v (List.mem_cons_of_mem _ hv), h.apart.tail⟩
      rw [collapse, ih hrest]
      split
      · rename_i hu
        have hnext : ¬ startsWithSpace s = true := by
          cases s with
          | nil => exact Bool.false_ne_true
          | cons v s =>
              have hv := (List.isChain_cons_cons.mp h.apart).1 hu
              exact fun hstart => Bool.false_ne_true (hv.symm.trans hstart)
        rw [if_neg hnext, h.blank u List.mem_cons_self hu]
      · rfl

theorem collapse_ne_nil {s : Str} (h : s ≠ []) : collapse s ≠ [] := by
  induction s with
  | nil => exact absurd rfl h
  | cons u s ih =>
      rw [collapse]
      split
      · split
        · rename_i hs
          apply ih
          intro hnil
          rw [hnil] at hs
          cases hs
        · exact List.cons_ne_nil _ _
      · exact List.cons_ne_nil _ _

theorem endsWithSpace_cons {s : Str} (h : s ≠ []) (u : UInt16) :
    endsWithSpace (u :: s) = endsWithSpace s := by
  rw [endsWithSpace, endsWithSpace, List.getLast?_cons, List.getLast?_eq_some_getLast h,
    Option.getD_some]

theorem endsWithSpace_collapse (s : Str) : endsWithSpace (collapse s) = endsWithSpace s := by
  induction s with
  | nil => rfl
  | cons u s ih =>
      cases hs : s with
      | nil =>
          by_cases hu : isSpace u = true
          · have hcollapse : collapse [u] = [space] := by simp [collapse, hu, startsWithSpace]
            rw [hcollapse]
            exact hu.symm
          · have hcollapse : collapse [u] = [u] := by simp [collapse, hu]
            rw [hcollapse]
      | cons v t =>
          rw [← hs]
          have hne : s ≠ [] := by
            rw [hs]
            exact List.cons_ne_nil v t
          rw [endsWithSpace_cons hne, collapse]
          split
          · split
            · exact ih
            · rw [endsWithSpace_cons (collapse_ne_nil hne), ih]
          · rw [endsWithSpace_cons (collapse_ne_nil hne), ih]

/-- Where a trimmed text with single blanks only is cut behind a blank. -/
theorem endsWithSpace_take {s : Str} (hend : endsWithSpace s = false) (hs : Squeezed s) (n : Nat) :
    endsWithSpace (s.take (n + 1)) = true ↔ n + 1 < s.length ∧ s[n]? = some space := by
  by_cases hlength : s.length ≤ n + 1
  · rw [List.take_of_length_le hlength, hend]
    exact iff_of_false Bool.false_ne_true fun h => absurd h.1 (by omega)
  · have hn : n < s.length := by omega
    have hlast : (s.take (n + 1)).getLast? = some s[n] := by
      rw [List.getLast?_take, if_neg (Nat.succ_ne_zero n), Nat.add_sub_cancel,
        List.getElem?_eq_getElem hn, Option.some_or]
    rw [endsWithSpace, hlast, Option.any_some, List.getElem?_eq_getElem hn, Option.some_inj]
    constructor
    · exact fun hspace => ⟨by omega, hs.blank _ (List.getElem_mem hn) hspace⟩
    · rintro ⟨-, hspace⟩
      rw [hspace]
      decide

/-! ### Line ends -/

def carriageReturn : UInt16 := 13
def lineFeed : UInt16 := 10

/-- `s.replace(/\r\n/g, '\n')` -/
def replaceCrLf : Str → Str
  | [] => []
  | [u] => [u]
  | u :: v :: s =>
      if u = carriageReturn ∧ v = lineFeed then lineFeed :: replaceCrLf s
      else u :: replaceCrLf (v :: s)

def hasCrLf : Str → Bool
  | [] => false
  | [_] => false
  | u :: v :: s => (u == carriageReturn && v == lineFeed) || hasCrLf (v :: s)

theorem length_replaceCrLf_le (s : Str) : (replaceCrLf s).length ≤ s.length := by
  fun_induction replaceCrLf s with
  | case1 => exact Nat.le_refl _
  | case2 u => exact Nat.le_refl _
  | case3 u v s h ih =>
      simp only [List.length_cons]
      omega
  | case4 u v s h ih =>
      simp only [List.length_cons] at ih ⊢
      omega

theorem replaceCrLf_eq_self_iff (s : Str) : replaceCrLf s = s ↔ hasCrLf s = false := by
  fun_induction replaceCrLf s with
  | case1 => simp [hasCrLf]
  | case2 u => simp [hasCrLf]
  | case3 u v s h ih =>
      have hlength := length_replaceCrLf_le s
      constructor
      · intro heq
        have hlist := congrArg List.length heq
        simp only [List.length_cons] at hlist
        omega
      · intro hnone
        simp [hasCrLf, h] at hnone
  | case4 u v s h ih =>
      rw [hasCrLf, List.cons.injEq, ih]
      have hpair : (u == carriageReturn && v == lineFeed) = false := by
        rw [Bool.and_eq_false_iff, beq_eq_false_iff_ne, beq_eq_false_iff_ne]
        exact not_and_or.mp h
      rw [hpair, Bool.false_or]
      exact ⟨fun hboth => hboth.2, fun hnone => ⟨rfl, hnone⟩⟩

theorem hasCrLf_iff (s : Str) :
    hasCrLf s = true ↔ ∃ before after, s = before ++ carriageReturn :: lineFeed :: after := by
  fun_induction hasCrLf s with
  | case1 => simp
  | case2 u =>
      refine iff_of_false Bool.false_ne_true ?_
      rintro ⟨before, after, heq⟩
      have hlength := congrArg List.length heq
      simp only [List.length_append, List.length_cons, List.length_nil] at hlength
      omega
  | case3 u v s ih =>
      rw [Bool.or_eq_true, ih, Bool.and_eq_true, beq_iff_eq, beq_iff_eq]
      constructor
      · intro h
        cases h with
        | inl hpair => exact ⟨[], s, by rw [hpair.1, hpair.2, List.nil_append]⟩
        | inr hlater =>
            obtain ⟨before, after, heq⟩ := hlater
            exact ⟨u :: before, after, by rw [heq, List.cons_append]⟩
      · rintro ⟨before, after, heq⟩
        cases before with
        | nil =>
            rw [List.nil_append, List.cons.injEq, List.cons.injEq] at heq
            exact .inl ⟨heq.1, heq.2.1⟩
        | cons w before =>
            rw [List.cons_append, List.cons.injEq] at heq
            exact .inr ⟨before, after, heq.2⟩

/-- The pairs that a cut leaves. -/
theorem hasCrLf_take (s : Str) (n : Nat) : hasCrLf (s.take n) = true ↔
    ∃ before after, s = before ++ carriageReturn :: lineFeed :: after ∧ before.length + 2 ≤ n := by
  rw [hasCrLf_iff]
  constructor
  · rintro ⟨before, after, heq⟩
    refine ⟨before, after ++ s.drop n, ?_, ?_⟩
    · rw [← List.cons_append, ← List.cons_append, ← List.append_assoc, ← heq, List.take_append_drop]
    · have hlength := congrArg List.length heq
      rw [List.length_take, List.length_append, List.length_cons, List.length_cons] at hlength
      omega
  · rintro ⟨before, after, rfl, hle⟩
    refine ⟨before, after.take (n - before.length - 2), ?_⟩
    obtain ⟨k, rfl⟩ := Nat.exists_eq_add_of_le hle
    have hrest : before.length + 2 + k - before.length = k + 1 + 1 := by omega
    have hlast : k + 1 + 1 - 2 = k := by omega
    rw [List.take_append, List.take_of_length_le (by omega), hrest, List.take_succ_cons,
      List.take_succ_cons, hlast]

theorem replaceCrLf_cons {u : UInt16} {s : Str} (h : u ≠ carriageReturn ∨ s.head? ≠ some lineFeed) :
    replaceCrLf (u :: s) = u :: replaceCrLf s := by
  cases s with
  | nil => rfl
  | cons v s =>
      rw [replaceCrLf, if_neg]
      rintro ⟨hu, hv⟩
      exact h.elim (fun hne => hne hu) fun hne => hne (by rw [hv]; rfl)

theorem carriageReturn_ne (s : Str) : (carriageReturn :: s).head? ≠ some lineFeed :=
  fun heq => absurd (Option.some.inj heq) (by decide)

theorem replaceCrLf_append (before after : Str) :
    replaceCrLf (before ++ carriageReturn :: carriageReturn :: lineFeed :: after) =
      replaceCrLf before ++ carriageReturn :: lineFeed :: replaceCrLf after := by
  have hpair :
      replaceCrLf (carriageReturn :: lineFeed :: after) = lineFeed :: replaceCrLf after := by
    rw [replaceCrLf, if_pos ⟨rfl, rfl⟩]
  have hnil : replaceCrLf (carriageReturn :: carriageReturn :: lineFeed :: after) =
      carriageReturn :: lineFeed :: replaceCrLf after := by
    rw [replaceCrLf_cons (.inr (carriageReturn_ne _)), hpair]
  fun_induction replaceCrLf before with
  | case1 => exact hnil
  | case2 u =>
      rw [List.singleton_append, replaceCrLf_cons (.inr (carriageReturn_ne _)), hnil,
        List.singleton_append]
  | case3 u v s h ih =>
      rw [List.cons_append, List.cons_append, replaceCrLf, if_pos h, ih, List.cons_append]
  | case4 u v s h ih =>
      rw [List.cons_append, List.cons_append, replaceCrLf, if_neg h, ← List.cons_append, ih,
        List.cons_append]

/-- A pair that replacing makes was two carriage returns before a line feed. -/
theorem exists_of_replaceCrLf {s before after : Str}
    (h : replaceCrLf s = before ++ carriageReturn :: lineFeed :: after) :
    ∃ first last, s = first ++ carriageReturn :: carriageReturn :: lineFeed :: last ∧
      replaceCrLf first = before := by
  fun_induction replaceCrLf s generalizing before with
  | case1 => simp at h
  | case2 u =>
      have hlength := congrArg List.length h
      simp only [List.length_append, List.length_cons, List.length_nil] at hlength
      omega
  | case3 u v s hpair ih =>
      cases before with
      | nil => exact absurd (List.cons.inj h).1 (by decide)
      | cons w before =>
          rw [List.cons_append, List.cons.injEq] at h
          obtain ⟨first, last, rfl, hfirst⟩ := ih h.2
          refine ⟨u :: v :: first, last, rfl, ?_⟩
          rw [replaceCrLf, if_pos hpair, hfirst, h.1]
  | case4 u v s hpair ih =>
      cases before with
      | nil =>
          rw [List.nil_append, List.cons.injEq] at h
          obtain ⟨rfl, hrest⟩ := h
          have hv : v ≠ lineFeed := fun heq => hpair ⟨rfl, heq⟩
          cases s with
          | nil => exact absurd (List.cons.inj hrest).1 hv
          | cons w t =>
              rw [replaceCrLf] at hrest
              split at hrest
              · rename_i hnext
                exact ⟨[], t, by rw [hnext.1, hnext.2, List.nil_append], rfl⟩
              · exact absurd (List.cons.inj hrest).1 hv
      | cons w before =>
          rw [List.cons_append, List.cons.injEq] at h
          obtain ⟨first, last, hs, hfirst⟩ := ih h.2
          refine ⟨u :: first, last, by rw [hs, List.cons_append], ?_⟩
          rw [replaceCrLf_cons, hfirst, h.1]
          by_cases hu : u = carriageReturn
          · refine .inr fun hhead => ?_
            obtain ⟨rest, rfl⟩ := List.head?_eq_some_iff.mp hhead
            exact hpair ⟨hu, (List.cons.inj hs).1⟩
          · exact .inl hu

/-- What is cleaned and cut has a line end to clean again where two carriage returns stood
before a line feed, ahead of the cut. -/
theorem hasCrLf_take_replaceCrLf (s : Str) (n : Nat) :
    hasCrLf ((replaceCrLf s).take n) = true ↔ ∃ before after,
      s = before ++ carriageReturn :: carriageReturn :: lineFeed :: after ∧
        (replaceCrLf before).length + 2 ≤ n := by
  rw [hasCrLf_take]
  constructor
  · rintro ⟨before, after, heq, hle⟩
    obtain ⟨first, last, hs, rfl⟩ := exists_of_replaceCrLf heq
    exact ⟨first, last, hs, hle⟩
  · rintro ⟨before, after, rfl, hle⟩
    exact ⟨_, _, replaceCrLf_append before after, hle⟩

/-! ### Lower case -/

/-- `s.toLowerCase()`: lower-case text is left as it is, and no white space comes or goes at
the ends. -/
structure Lowering where
  run : Str → Str
  idem : ∀ s, run (run s) = run s
  trimmed : ∀ s, Trimmed s → Trimmed (run s)

/-- `s.trim().toLowerCase()` -/
def Lowering.key (lower : Lowering) (s : Str) : Str :=
  lower.run (trim s)

theorem Lowering.key_key (lower : Lowering) (s : Str) : lower.key (lower.key s) = lower.key s := by
  rw [key, key, trim_eq_self (lower.trimmed _ (trimmed_trim s)), lower.idem]

def lowerUnit (u : UInt16) : UInt16 :=
  if 65 ≤ u ∧ u ≤ 90 then u + 32 else u

private theorem upper_cases {u : UInt16} (hu : 65 ≤ u ∧ u ≤ 90) :
    ∃ n < 91, 65 ≤ n ∧ UInt16.ofNat n = u := by
  have hlow : 65 ≤ u.toNat := hu.1
  have hhigh : u.toNat ≤ 90 := hu.2
  exact ⟨u.toNat, by omega, hlow, UInt16.ofNat_toNat⟩

theorem lowerUnit_lowerUnit (u : UInt16) : lowerUnit (lowerUnit u) = lowerUnit u := by
  by_cases hu : 65 ≤ u ∧ u ≤ 90
  · have hall : ∀ n < 91, 65 ≤ n →
        lowerUnit (lowerUnit (UInt16.ofNat n)) = lowerUnit (UInt16.ofNat n) := by decide
    obtain ⟨n, hn, hlow, rfl⟩ := upper_cases hu
    exact hall n hn hlow
  · have hsame : lowerUnit u = u := if_neg hu
    rw [hsame, hsame]

theorem isSpace_lowerUnit (u : UInt16) : isSpace (lowerUnit u) = isSpace u := by
  by_cases hu : 65 ≤ u ∧ u ≤ 90
  · have hall : ∀ n < 91, 65 ≤ n →
        isSpace (lowerUnit (UInt16.ofNat n)) = isSpace (UInt16.ofNat n) := by decide
    obtain ⟨n, hn, hlow, rfl⟩ := upper_cases hu
    exact hall n hn hlow
  · rw [lowerUnit, if_neg hu]

theorem startsWithSpace_lower (s : Str) :
    startsWithSpace (s.map lowerUnit) = startsWithSpace s := by
  cases s with
  | nil => rfl
  | cons u s => exact isSpace_lowerUnit u

/-- Lower case of ASCII text. -/
def Lowering.ascii : Lowering where
  run s := s.map lowerUnit
  idem s := by
    rw [List.map_map]
    exact List.map_congr_left fun u _ => lowerUnit_lowerUnit u
  trimmed s h := by
    constructor
    case start =>
      rw [startsWithSpace_lower]
      exact h.start
    case finish =>
      rw [endsWithSpace_eq, ← List.map_reverse, startsWithSpace_lower, ← endsWithSpace_eq]
      exact h.finish

/-! ### Values -/

inductive Number
  | finite (q : ℚ)
  | nan
  | posInf
  | negInf
deriving DecidableEq

inductive Value
  | null
  | bool (b : Bool)
  | num (n : Number)
  | str (s : Str)
  | arr (items : List Value)
  | obj (fields : List (String × Value))

abbrev Record := List (String × Value)

/-- `row[key]`; `none` is `undefined`. -/
def Record.get (row : Record) (key : String) : Option Value :=
  List.lookup key row

theorem Record.get_of_mem {row : Record} {key : String} {v : Value}
    (hnodup : (row.map (·.1)).Nodup) (h : (key, v) ∈ row) : row.get key = some v := by
  induction row with
  | nil => cases h
  | cons field row ih =>
      rw [List.map_cons, List.nodup_cons] at hnodup
      rw [Record.get, List.lookup_cons]
      cases h with
      | head => rw [beq_self_eq_true]
      | tail _ hmem =>
          have hne : (key == field.1) = false := by
            rw [beq_eq_false_iff_ne]
            rintro rfl
            exact hnodup.1 (List.mem_map.mpr ⟨_, hmem, rfl⟩)
          rw [hne]
          exact ih hnodup.2 hmem

def Number.truthy : Number → Bool
  | .finite q => decide (q ≠ 0)
  | .nan => false
  | .posInf => true
  | .negInf => true

def truthy : Option Value → Bool
  | none => false
  | some .null => false
  | some (.bool b) => b
  | some (.num n) => n.truthy
  | some (.str s) => !s.isEmpty
  | some (.arr _) => true
  | some (.obj _) => true

/-- `asRecord` keeps objects and nothing else. -/
def asRecord : Option Value → Option Record
  | some (.obj fields) => some fields
  | _ => none

/-- A number that is not finite is written as `null`. -/
def Number.json : Number → Value
  | .finite q => .num (.finite q)
  | _ => .null

mutual

/-- What is left of a value after JSON. -/
def Value.json : Value → Value
  | .num n => n.json
  | .arr items => .arr (jsonItems items)
  | .obj fields => .obj (jsonFields fields)
  | v => v

def jsonItems : List Value → List Value
  | [] => []
  | v :: items => v.json :: jsonItems items

def jsonFields : List (String × Value) → List (String × Value)
  | [] => []
  | (key, v) :: fields => (key, v.json) :: jsonFields fields

end

theorem jsonItems_eq (items : List Value) : jsonItems items = items.map Value.json := by
  induction items with
  | nil => rfl
  | cons v items ih => rw [jsonItems, ih, List.map_cons]

end Js
