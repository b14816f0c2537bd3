import Mathlib.Data.String.Basic

/-!
The few string operations the modelled code uses, on character lists so that they
evaluate. Keys of events, matches, teams and rooms are ASCII, where these agree
with Python's `strip` and `lower` and with JavaScript's `trim` and `toLowerCase`.
-/

namespace Frcmob

def dropSpaces (cs : List Char) : List Char :=
  cs.dropWhile Char.isWhitespace

def strip (s : String) : String :=
  String.ofList (dropSpaces (dropSpaces s.toList).reverse).reverse

def lower (s : String) : String :=
  String.ofList (s.toList.map Char.toLower)

/-- `str(raw or "").strip().lower()` -/
def normalizeKey (raw : String) : String :=
  lower (strip raw)

/-- `" ".join(raw.split())` -/
def collapseSpaces (raw : String) : String :=
  String.ofList (List.intercalate [' ']
    ((raw.toList.splitOnP Char.isWhitespace).filter fun w => !w.isEmpty))

/-- `raw[:n]` -/
def takeChars (n : Nat) (raw : String) : String :=
  String.ofList (raw.toList.take n)

/-- Python's `str.removeprefix`. -/
def removeprefix (s pre : String) : String :=
  if pre.toList.isPrefixOf s.toList then String.ofList (s.toList.drop pre.length) else s

theorem dropSpaces_of_plain {cs : List Char} (h : ∀ c ∈ cs, c.isWhitespace = false) :
    dropSpaces cs = cs := by
  cases cs with
  | nil => rfl
  | cons c cs => rw [dropSpaces, List.dropWhile_cons_of_neg (by simp [h c List.mem_cons_self])]

/-- Lower-case text without spaces is left as it is. -/
theorem normalizeKey_of_plain {s : String} (hspace : ∀ c ∈ s.toList, c.isWhitespace = false)
    (hlower : ∀ c ∈ s.toList, c.toLower = c) : normalizeKey s = s := by
  have hstrip : strip s = s := by
    rw [strip, dropSpaces_of_plain hspace, dropSpaces_of_plain, List.reverse_reverse,
      String.ofList_toList]
    exact fun c hc => hspace c (List.mem_reverse.mp hc)
  rw [normalizeKey, hstrip, lower, List.map_congr_left hlower, List.map_id', String.ofList_toList]

/-! ### Decimal numbers -/

theorem toDigits_inj {m n : Nat} (h : Nat.toDigits 10 m = Nat.toDigits 10 n) : m = n := by
  rw [← Nat.ofDigitChars_ten_toDigits (n := m), h, Nat.ofDigitChars_ten_toDigits]

theorem minus_notMem_toDigits (n : Nat) : '-' ∉ Nat.toDigits 10 n := by
  intro h
  exact absurd (Nat.isDigit_of_mem_toDigits (by omega) (by omega) h) (by decide)

theorem toString_int_inj {a b : Int} (h : toString a = toString b) : a = b := by
  have hlist := congrArg String.toList h
  have hnat : ∀ n : Nat, (toString (Int.ofNat n)).toList = Nat.toDigits 10 n :=
    fun n => Nat.toList_repr
  have hneg : ∀ n : Nat, (toString (Int.negSucc n)).toList = '-' :: Nat.toDigits 10 (n + 1) := by
    intro n
    have hrepr : toString (Int.negSucc n) = "-" ++ Nat.repr (n + 1) := rfl
    rw [hrepr, String.toList_append, Nat.toList_repr]
    rfl
  cases a with
  | ofNat m =>
      cases b with
      | ofNat n =>
          rw [hnat, hnat] at hlist
          rw [toDigits_inj hlist]
      | negSucc n =>
          rw [hnat, hneg] at hlist
          exact absurd (hlist ▸ List.mem_cons_self) (minus_notMem_toDigits m)
  | negSucc m =>
      cases b with
      | ofNat n =>
          rw [hnat, hneg] at hlist
          exact absurd (hlist ▸ List.mem_cons_self) (minus_notMem_toDigits n)
      | negSucc n =>
          rw [hneg, hneg] at hlist
          have hsame := toDigits_inj (List.cons.inj hlist).2
          rw [Nat.succ.inj hsame]

end Frcmob
