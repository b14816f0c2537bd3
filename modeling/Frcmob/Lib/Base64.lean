import Mathlib.Data.List.Basic
import Mathlib.Data.UInt

/-!
Base64 as `btoa` and `atob` read it: three bytes are four letters, and a shorter last group
is filled up with `=`. Letters are UTF-16 code units. Letters without their filling still say
how many bytes there were.
-/

namespace Base64

/-- The letters' values of a list of bytes. -/
def sextets : List UInt8 → List Nat
  | [] => []
  | [a] => [a.toNat / 4, a.toNat % 4 * 16]
  | [a, b] => [a.toNat / 4, a.toNat % 4 * 16 + b.toNat / 16, b.toNat % 16 * 4]
  | a :: b :: c :: bytes =>
      a.toNat / 4 :: (a.toNat % 4 * 16 + b.toNat / 16) :: (b.toNat % 16 * 4 + c.toNat / 64) ::
        c.toNat % 64 :: sextets bytes

/-- Bits beyond the last byte are dropped; a single letter is no byte. -/
def ofSextets : List Nat → Option (List UInt8)
  | [] => some []
  | [_] => none
  | [w, x] => some [UInt8.ofNat (w * 4 + x / 16)]
  | [w, x, y] => some [UInt8.ofNat (w * 4 + x / 16), UInt8.ofNat (x % 16 * 16 + y / 4)]
  | w :: x :: y :: z :: rest =>
      (ofSextets rest).map fun bytes =>
        UInt8.ofNat (w * 4 + x / 16) :: UInt8.ofNat (x % 16 * 16 + y / 4) ::
          UInt8.ofNat (y % 4 * 64 + z) :: bytes

def filling : List UInt8 → Nat
  | [] => 0
  | [_] => 2
  | [_, _] => 1
  | _ :: _ :: _ :: bytes => filling bytes

theorem byte_eq {a : UInt8} {n : Nat} (h : n = a.toNat) : UInt8.ofNat n = a := by
  rw [h, UInt8.ofNat_toNat]

theorem ofSextets_sextets (bytes : List UInt8) : ofSextets (sextets bytes) = some bytes := by
  fun_induction sextets bytes with
  | case1 => rfl
  | case2 a =>
      have ha : UInt8.ofNat (a.toNat / 4 * 4 + a.toNat % 4 * 16 / 16) = a := byte_eq (by omega)
      rw [ofSextets, ha]
  | case3 a b =>
      have hb := b.toNat_lt
      have ha : UInt8.ofNat (a.toNat / 4 * 4 + (a.toNat % 4 * 16 + b.toNat / 16) / 16) = a :=
        byte_eq (by omega)
      have hb' : UInt8.ofNat ((a.toNat % 4 * 16 + b.toNat / 16) % 16 * 16 +
          b.toNat % 16 * 4 / 4) = b := byte_eq (by omega)
      rw [ofSextets, ha, hb']
  | case4 a b c bytes ih =>
      have hb := b.toNat_lt
      have hc := c.toNat_lt
      have ha : UInt8.ofNat (a.toNat / 4 * 4 + (a.toNat % 4 * 16 + b.toNat / 16) / 16) = a :=
        byte_eq (by omega)
      have hb' : UInt8.ofNat ((a.toNat % 4 * 16 + b.toNat / 16) % 16 * 16 +
          (b.toNat % 16 * 4 + c.toNat / 64) / 4) = b := byte_eq (by omega)
      have hc' : UInt8.ofNat ((b.toNat % 16 * 4 + c.toNat / 64) % 4 * 64 + c.toNat % 64) = c :=
        byte_eq (by omega)
      rw [ofSextets, ih, ha, hb', hc', Option.map_some]

theorem sextets_lt (bytes : List UInt8) : ∀ n ∈ sextets bytes, n < 64 := by
  fun_induction sextets bytes with
  | case1 => exact fun _ h => (List.not_mem_nil h).elim
  | case2 a =>
      have ha := a.toNat_lt
      intro n hn
      simp only [List.mem_cons, List.not_mem_nil, or_false] at hn
      omega
  | case3 a b =>
      have ha := a.toNat_lt
      have hb := b.toNat_lt
      intro n hn
      simp only [List.mem_cons, List.not_mem_nil, or_false] at hn
      omega
  | case4 a b c bytes ih =>
      have ha := a.toNat_lt
      have hb := b.toNat_lt
      have hc := c.toNat_lt
      intro n hn
      simp only [List.mem_cons] at hn
      rcases hn with rfl | rfl | rfl | rfl | hrest
      · omega
      · omega
      · omega
      · omega
      · exact ih n hrest

theorem length_sextets (bytes : List UInt8) : ((sextets bytes).length + filling bytes) % 4 = 0 := by
  fun_induction sextets bytes with
  | case1 => simp [filling]
  | case2 a => simp [filling]
  | case3 a b => simp [filling]
  | case4 a b c bytes ih =>
      simp only [List.length_cons, filling]
      omega

/-! ### Letters -/

def pad : UInt16 := 61

/-- `A` to `Z`, `a` to `z`, `0` to `9`, `+` and `/`. -/
def letter (n : Nat) : UInt16 :=
  if n < 26 then UInt16.ofNat (65 + n)
  else if n < 52 then UInt16.ofNat (71 + n)
  else if n < 62 then UInt16.ofNat (n - 4)
  else if n = 62 then 43
  else 47

def letterValue (u : UInt16) : Option Nat :=
  (List.range 64).find? fun n => letter n == u

theorem letterValue_letter {n : Nat} (h : n < 64) : letterValue (letter n) = some n := by
  have hall : ∀ m < 64, letterValue (letter m) = some m := by decide
  exact hall n h

theorem letter_ne_pad {n : Nat} (h : n < 64) : letter n ≠ pad := by
  have hall : ∀ m < 64, letter m ≠ pad := by decide
  exact hall n h

/-- `btoa` of a binary string. -/
def btoa (bytes : List UInt8) : List UInt16 :=
  (sextets bytes).map letter ++ List.replicate (filling bytes) pad

/-- Values of the letters; `none` where one is not of the alphabet. -/
def values (text : List UInt16) : Option (List Nat) :=
  text.mapM letterValue

def dropOnePad (text : List UInt16) : List UInt16 :=
  if text.getLast? = some pad then text.dropLast else text

/-- Up to two `=` end a text of whole groups. -/
def withoutFilling (text : List UInt16) : List UInt16 :=
  if text.length % 4 = 0 then dropOnePad (dropOnePad text) else text

/-- `atob` of a text without white space; `none` where it throws. -/
def atob (text : List UInt16) : Option (List UInt8) :=
  (values (withoutFilling text)).bind ofSextets

theorem values_letters {ns : List Nat} (h : ∀ n ∈ ns, n < 64) : values (ns.map letter) = some ns := by
  induction ns with
  | nil => rfl
  | cons n ns ih =>
      have hn := letterValue_letter (h n List.mem_cons_self)
      have hns := ih fun m hm => h m (List.mem_cons_of_mem _ hm)
      rw [values] at hns ⊢
      rw [List.map_cons, List.mapM_cons, hn, hns]
      rfl

theorem dropOnePad_letters {ns : List Nat} (h : ∀ n ∈ ns, n < 64) :
    dropOnePad (ns.map letter) = ns.map letter := by
  apply if_neg
  intro hlast
  obtain ⟨n, hn, heq⟩ := List.mem_map.mp (List.mem_of_getLast? hlast)
  exact letter_ne_pad (h n hn) heq

theorem dropOnePad_concat (text : List UInt16) : dropOnePad (text ++ [pad]) = text := by
  rw [dropOnePad, if_pos List.getLast?_concat, List.dropLast_concat]

theorem filling_le (bytes : List UInt8) : filling bytes ≤ 2 := by
  fun_induction filling bytes with
  | case1 => exact Nat.zero_le _
  | case2 => exact Nat.le_refl _
  | case3 => exact Nat.le_succ 1
  | case4 a b c bytes ih => exact ih

theorem withoutFilling_btoa (bytes : List UInt8) :
    withoutFilling (btoa bytes) = (sextets bytes).map letter := by
  have hlength : (btoa bytes).length % 4 = 0 := by
    rw [btoa, List.length_append, List.length_map, List.length_replicate]
    exact length_sextets bytes
  have hlt := sextets_lt bytes
  have hfill : filling bytes = 0 ∨ filling bytes = 1 ∨ filling bytes = 2 := by
    have hle := filling_le bytes
    omega
  rw [withoutFilling, if_pos hlength, btoa]
  rcases hfill with hzero | hone | htwo
  · rw [hzero, List.replicate_zero, List.append_nil, dropOnePad_letters hlt,
      dropOnePad_letters hlt]
  · rw [hone, List.replicate_one, dropOnePad_concat, dropOnePad_letters hlt]
  · rw [htwo, List.replicate_succ', List.replicate_one, ← List.append_assoc, dropOnePad_concat,
      dropOnePad_concat]

theorem atob_btoa (bytes : List UInt8) : atob (btoa bytes) = some bytes := by
  rw [atob, withoutFilling_btoa, values_letters (sextets_lt bytes), Option.bind_some,
    ofSextets_sextets]

end Base64
