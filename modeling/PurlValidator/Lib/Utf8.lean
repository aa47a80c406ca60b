import PurlValidator.Lib.OrderCode
import Mathlib.Data.Char

/-!
# UTF-8 as an order-preserving code

`String.utf8EncodeChar` gives the one to four bytes of a Unicode scalar value.
It is an order-preserving code, so UTF-8 turns the order of texts by scalar
values into the lexicographic order of unsigned bytes.  Texts are lists of
characters and byte strings lists of `UInt8`.
-/

/-- Bytes are compared as unsigned numbers. -/
instance UInt8.linearOrder : LinearOrder UInt8 where
  le_refl a := UInt8.le_refl a
  le_trans _ _ _ := UInt8.le_trans
  le_antisymm _ _ := UInt8.le_antisymm
  le_total := UInt8.le_total
  lt_iff_le_not_ge a b := by
    rw [UInt8.lt_iff_toNat_lt, UInt8.le_iff_toNat_le, UInt8.le_iff_toNat_le]
    omega
  toDecidableLE := inferInstance
  toDecidableLT := inferInstance
  toDecidableEq := inferInstance

namespace Utf8

/-- A byte string. -/
abbrev Bytes := List UInt8

/-- The UTF-8 bytes of a text. -/
def encode (s : List Char) : Bytes := s.flatMap String.utf8EncodeChar

theorem length_encode_le (s : List Char) : (encode s).length ≤ 4 * s.length := by
  induction s with
  | nil => exact Nat.le_refl _
  | cons c s ih =>
      have hc : (String.utf8EncodeChar c).length ≤ 4 := by
        rw [String.length_utf8EncodeChar]
        exact Char.utf8Size_le_four c
      rw [encode, List.flatMap_cons, List.length_append, List.length_cons]
      rw [encode] at ih
      omega

/-! ## The code of one character -/

/-- Numbers in order differ first in the quotient or, with equal quotients, in the
remainder. -/
theorem div_lt_or_mod_lt (k : Nat) {m n : Nat} (h : m < n) :
    m / k < n / k ∨ m / k = n / k ∧ m % k < n % k := by
  rcases Nat.lt_or_eq_of_le (Nat.div_le_div_right (c := k) h.le) with hlt | heq
  · exact Or.inl hlt
  · have hm := Nat.div_add_mod m k
    have hn := Nat.div_add_mod n k
    rw [heq] at hm
    exact Or.inr ⟨heq, by omega⟩

/-- The groups of three and three times six bits of a four-byte character decide its
order, from the highest group down. -/
theorem groups_lt {m n : Nat} (h : m < n) :
    m / 262144 < n / 262144 ∨ m / 262144 = n / 262144 ∧
      (m / 4096 % 64 < n / 4096 % 64 ∨ m / 4096 % 64 = n / 4096 % 64 ∧
        (m / 64 % 64 < n / 64 % 64 ∨ m / 64 % 64 = n / 64 % 64 ∧ m % 64 < n % 64)) := by
  rcases div_lt_or_mod_lt 64 h with h1 | ⟨h1, h1'⟩
  · rcases div_lt_or_mod_lt 64 h1 with h2 | ⟨h2, h2'⟩
    · rcases div_lt_or_mod_lt 64 h2 with h3 | ⟨h3, h3'⟩ <;>
        simp only [Nat.div_div_eq_div_mul, Nat.reduceMul] at * <;> omega
    · simp only [Nat.div_div_eq_div_mul, Nat.reduceMul] at *
      omega
  · omega

/-- Two characters in order have code words in order, at a byte that both words
have.  A shorter word has a smaller first byte.  In words of one length the first
byte that differs holds the first group of bits that differs. -/
theorem utf8EncodeChar_decided {c d : Char} (h : c < d) :
    OrderCode.DecidedLt (String.utf8EncodeChar c) (String.utf8EncodeChar d) := by
  have hlt : c.val.toNat < d.val.toNat := h
  have hd : d.val.toNat < 0x110000 := by
    have := d.valid
    unfold UInt32.isValidChar Nat.isValidChar at this
    omega
  simp only [String.utf8EncodeChar]
  generalize c.val.toNat = m at *
  generalize d.val.toNat = n at *
  by_cases hm : m ≤ 0xffff
  · -- one case for each pair of lengths; a longer word before a shorter one contradicts `hlt`
    split_ifs <;>
      simp only [OrderCode.DecidedLt, UInt8.lt_iff_toNat_lt, ← UInt8.toNat_inj,
        UInt8.toNat_ofNat', Nat.reducePow] <;> omega
  · rw [if_neg (by omega), if_neg (by omega), if_neg hm, if_neg (by omega), if_neg (by omega),
      if_neg (by omega)]
    simp (disch := omega) only [OrderCode.DecidedLt, UInt8.lt_iff_toNat_lt, ← UInt8.toNat_inj,
      UInt8.toNat_ofNat', Nat.reducePow, Nat.mod_eq_of_lt (b := 256),
      Nat.mod_eq_of_lt (b := 8), Nat.add_lt_add_iff_right, Nat.add_right_cancel_iff,
      and_false, or_false]
    exact groups_lt hlt

/-- A byte below 128 is a character of its own. -/
theorem toNat_eq_of_mem_utf8EncodeChar {c : Char} {b : UInt8} (hb : b.toNat < 128)
    (h : b ∈ String.utf8EncodeChar c) : c.val.toNat = b.toNat := by
  simp only [String.utf8EncodeChar] at h
  split_ifs at h <;>
    simp only [List.mem_cons, List.not_mem_nil, or_false, ← UInt8.toNat_inj,
      UInt8.toNat_ofNat', Nat.reducePow] at h <;> omega

theorem orderCode : OrderCode String.utf8EncodeChar where
  ne_nil _ := String.utf8EncodeChar_ne_nil
  decided := utf8EncodeChar_decided

/-! ## Texts -/

/-- Byte order is the order of scalar values. -/
@[simp] theorem encode_le_iff {s t : List Char} : encode s ≤ encode t ↔ s ≤ t :=
  orderCode.flatMap_le_iff

theorem encode_injective : Function.Injective encode := orderCode.flatMap_injective

@[simp] theorem encode_inj {s t : List Char} : encode s = encode t ↔ s = t :=
  encode_injective.eq_iff

/-- Encoding a strictly sorted list of texts needs no new sort. -/
theorem sortedLT_map_encode {ls : List (List Char)} (h : ls.SortedLT) :
    (ls.map encode).SortedLT :=
  orderCode.sortedLT_map_flatMap h

end Utf8
