import Irstessi.Text
import Mathlib.Algebra.Order.Group.Nat

/-!
# Decimal numerals

* `decimal`: the bytes of a decimal numeral; `ofNat_eq`: they are what a number is converted to.
* `numeral_decimal`: reading a numeral back, with base 0 as the source does, gives the number.
* `toUint_decimal`: the conversion to `unsigned int` gives the number iff it fits.
* `ofNat_inj`, `ofNat_ne_max`: texts of numbers are told from one another and from `max`.

Numbers are written by `snprintf` and by streams, read back by `strtoul` with base 0 and cut to 32 bits.
A numeral of `Nat.toDigits` has no leading zero unless it is the zero itself, and thus is not read as an
octal number. Everything is about bytes, as the strings of the source are; where a numeral is compared
with other texts, what is used is only that its bytes are digits.
-/

namespace Irstessi

/-- The digits of a number, without leading zeros. -/
def decimal (n : Nat) : List UInt8 := (Nat.toDigits 10 n).map fun c => c.toNat.toUInt8

/-- The byte of a digit. -/
theorem toUInt8_digit {c : Char} (hc : c.isDigit) :
    c.toNat.toUInt8.toNat = c.toNat ∧ 48 ≤ c.toNat ∧ c.toNat ≤ 57 := by
  simp only [Char.isDigit, Bool.and_eq_true, decide_eq_true_eq, ge_iff_le, UInt32.le_iff_toNat_le]
    at hc
  have hlow : 48 ≤ c.toNat := hc.1
  have hhigh : c.toNat ≤ 57 := hc.2
  refine ⟨?_, hlow, hhigh⟩
  rw [Nat.toUInt8, UInt8.toNat_ofNat']
  omega

/-- The characters of a decimal numeral are digits. -/
theorem isDigit_of_mem_toDigits {n : Nat} {c : Char} (hc : c ∈ Nat.toDigits 10 n) : c.isDigit :=
  Nat.isDigit_of_mem_toDigits (by decide) (by decide) hc

/-- Every byte of a numeral is a digit. -/
theorem digit_of_mem_decimal {n : Nat} {b : UInt8} (hb : b ∈ decimal n) :
    48 ≤ b.toNat ∧ b.toNat ≤ 57 := by
  obtain ⟨c, hc, rfl⟩ := List.mem_map.mp hb
  obtain ⟨heq, hlow, hhigh⟩ := toUInt8_digit (isDigit_of_mem_toDigits hc)
  rw [heq]
  exact ⟨hlow, hhigh⟩

/-- A decimal numeral consists of single-byte characters, so that its bytes and characters are counted
alike. -/
theorem singleBytes_decimal (n : Nat) : SingleBytes (decimal n) := by
  intro b hb
  obtain ⟨-, hhigh⟩ := digit_of_mem_decimal hb
  rw [UInt8.lt_iff_toNat_lt]
  have hbound : (0x7f : UInt8).toNat = 127 := rfl
  omega

/-- A numeral has at least one digit. -/
theorem decimal_ne_nil (n : Nat) : decimal n ≠ [] := by
  intro h
  exact Nat.toDigits_ne_nil (List.map_eq_nil_iff.mp h)

/-- A byte that is no digit does not occur. -/
theorem not_mem_decimal {b : UInt8} (hb : b.toNat < 48 ∨ 57 < b.toNat) (n : Nat) :
    b ∉ decimal n := by
  intro hmem
  have hdigit := digit_of_mem_decimal hmem
  omega

/-- A number other than 0 has no leading zero. -/
theorem head_decimal {n : Nat} (hn : 0 < n) : ∀ b ∈ (decimal n).head?, b ≠ 48 := by
  induction n using Nat.strongRecOn with
  | ind n ih =>
      unfold decimal
      rw [Nat.toDigits_eq_if (by decide)]
      split
      next hlt =>
        intro b hb
        simp only [List.map_cons, List.map_nil, List.head?_cons, Option.mem_some_iff] at hb
        have hdigit := Nat.toNat_digitChar_of_lt_ten hlt
        have hnat : b.toNat = 48 + n := by
          rw [← hb, hdigit, Nat.toUInt8, UInt8.toNat_ofNat']
          omega
        intro h
        rw [h] at hnat
        have hzero : (48 : UInt8).toNat = 48 := rfl
        omega
      next hge =>
        have hdiv := ih (n / 10) (by omega) (by omega)
        unfold decimal at hdiv
        rw [List.map_append, List.head?_append_of_ne_nil _
          (by simp)]
        exact hdiv

namespace Str

/-- The digits add up to the number. -/
theorem digits_map {cs : List Char} (h : ∀ c ∈ cs, c.isDigit) (acc : Nat) :
    digits 10 acc (cs.map fun c => c.toNat.toUInt8) = Nat.ofDigitChars 10 cs acc := by
  induction cs generalizing acc with
  | nil => simp [digits]
  | cons c cs ih =>
      obtain ⟨heq, hlow, hhigh⟩ := toUInt8_digit (h c List.mem_cons_self)
      have hvalue : digitValue 10 c.toNat.toUInt8 = some (c.toNat - 48) := by
        have h48 : (48 : UInt8).toNat = 48 := rfl
        have h57 : (57 : UInt8).toNat = 57 := rfl
        unfold digitValue
        simp only [UInt8.le_iff_toNat_le, heq, h48, h57, hlow, hhigh, and_self, if_true]
        rw [if_pos (by omega)]
      rw [List.map_cons, digits, hvalue, Nat.ofDigitChars_cons]
      simp only
      rw [ih fun c hc => h c (List.mem_cons_of_mem _ hc), Nat.mul_comm]
      rfl

/-- Reading the digits of a numeral from the left gives its number back. -/
theorem digits_decimal (n : Nat) : digits 10 0 (decimal n) = n := by
  rw [decimal, digits_map fun c hc => isDigit_of_mem_toDigits hc, Nat.ofDigitChars_ten_toDigits]

/-- No digit is a blank, so that trimming leaves a numeral alone. -/
theorem isSpace_of_digit {b : UInt8} (hb : 48 ≤ b.toNat ∧ b.toNat ≤ 57) : isSpace b = false := by
  have h9 : (9 : UInt8).toNat = 9 := rfl
  have h13 : (13 : UInt8).toNat = 13 := rfl
  have h32 : (32 : UInt8).toNat = 32 := rfl
  unfold isSpace
  simp only [UInt8.le_iff_toNat_le, ← UInt8.toNat_inj, h9, h13, h32, decide_eq_false_iff_not]
  omega

/-- Base 0 reads a decimal numeral as one. -/
theorem numeral_decimal (n : Nat) : numeral (decimal n) = (false, n) := by
  rcases Nat.eq_zero_or_pos n with rfl | hn
  · decide
  · obtain ⟨b, rest, hcons⟩ := List.exists_cons_of_ne_nil (decimal_ne_nil n)
    obtain ⟨hlow, hhigh⟩ := digit_of_mem_decimal (n := n) (b := b) (by rw [hcons]; simp)
    have hzero : b ≠ 48 := head_decimal hn b (by rw [hcons]; rfl)
    have hspace := isSpace_of_digit ⟨hlow, hhigh⟩
    have hminus : b ≠ 45 := by rintro rfl; exact absurd hlow (by simp)
    have hplus : b ≠ 43 := by rintro rfl; exact absurd hlow (by simp)
    have hvalue := digits_decimal n
    unfold numeral
    rw [hcons] at hvalue ⊢
    rw [List.dropWhile_cons_of_neg (by simp [hspace])]
    simp [hminus, hplus, hzero, hvalue]

/-- `strtoul` reads a numeral back up to the greatest 64-bit number, where it saturates. -/
theorem strtoul_decimal (n : Nat) : strtoul (decimal n) = min n (2 ^ 64 - 1) := by
  unfold strtoul
  rw [numeral_decimal]
  simp only [Bool.false_eq_true, if_false]
  split <;> omega

/-- The conversion to `unsigned int` gives the number iff it fits. -/
theorem toUint_decimal (n : Nat) : (Str.ofBytes (decimal n)).toUint = n ↔ n < 2 ^ 32 := by
  unfold toUint
  rw [ofBytes_buffer (singleBytes_decimal n).wellFormed, strtoul_decimal]
  omega

/-! ## The text of a number -/

/-- The text that the class makes of a number is its numeral. -/
theorem buffer_ofNat (n : Nat) : (ofNat n).m_buffer = decimal n :=
  ofBytes_buffer (singleBytes_decimal n).wellFormed

/-- Different numbers have different texts. -/
theorem ofNat_inj {n m : Nat} (h : ofNat n = ofNat m) : n = m := by
  have hbuffer := congrArg m_buffer h
  rw [buffer_ofNat, buffer_ofNat] at hbuffer
  rw [← digits_decimal n, hbuffer, digits_decimal]

/-- No number is written as `max`. -/
theorem ofNat_ne_max (n : Nat) : ofNat n ≠ .ofLit "max" := by
  intro h
  have hmem : (109 : UInt8) ∈ (ofNat n).m_buffer := by
    rw [h]
    decide
  rw [buffer_ofNat] at hmem
  exact not_mem_decimal (by decide) n hmem

end Str

end Irstessi
