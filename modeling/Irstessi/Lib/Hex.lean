import Mathlib.Data.Nat.Digits.Lemmas
import Mathlib.Tactic.IntervalCases

/-!
# Hexadecimal texts

* `digit`, `value`: the lower-case digit of a value below sixteen, and back.
* `fixed`, `number`: a number in a fixed count of digits; `number_fixed` reads it back.
* `ofBytes`, `little`: the number of some bytes, the lowest byte first; `little_ofBytes`.
* `fixed_ofBytes`: the digits of a number are those of its bytes, the highest byte first;
  `readBytes_ofBytes` reads them back.

Numbers are written with a fixed count of digits or with as many as they need, and bytes are put
together in both orders. What is proved are the inverses and how the two ways of writing fit together,
so that the text of a record with fields of several widths can be compared with the text of its bytes.
-/

namespace Hex

/-! ## Digits -/

def digit (d : Nat) : UInt8 := .ofNat (if d < 10 then 48 + d else 87 + d)

def value (c : UInt8) : Option Nat :=
  if 48 ≤ c ∧ c ≤ 57 then some (c.toNat - 48)
  else if 97 ≤ c ∧ c ≤ 102 then some (c.toNat - 87)
  else none

/-- A digit has the value that it was made from. -/
theorem value_digit {d : Nat} (h : d < 16) : value (digit d) = some d := by
  interval_cases d <;> rfl

/-- The lowest `k` digits of a number, the highest first. -/
def fixed : Nat → Nat → List UInt8
  | 0, _ => []
  | k + 1, n => fixed k (n / 16) ++ [digit (n % 16)]

/-- The number that a text of digits stands for. -/
def number (text : List UInt8) : Option Nat :=
  text.foldlM (fun n c => (value c).map fun d => n * 16 + d) 0

/-- The fixed count of digits is the length of the text. -/
@[simp] theorem length_fixed (k n : Nat) : (fixed k n).length = k := by
  induction k generalizing n with
  | zero => rfl
  | succ k ih => rw [fixed, List.length_append, ih, List.length_singleton]

/-- A text is read from the left: the last digit comes to sixteen times the number before it. -/
theorem number_concat (text : List UInt8) (c : UInt8) :
    number (text ++ [c]) = (number text).bind fun n => (value c).map fun d => n * 16 + d := by
  simp [number, List.foldlM_append]

/-- A number that fits is read back from its digits. -/
theorem number_fixed {k n : Nat} (h : n < 16 ^ k) : number (fixed k n) = some n := by
  induction k generalizing n with
  | zero =>
      obtain rfl : n = 0 := by simpa using h
      rfl
  | succ k ih =>
      have hhigh : n / 16 < 16 ^ k := by
        rw [Nat.div_lt_iff_lt_mul (by omega), ← Nat.pow_succ]
        exact h
      rw [fixed, number_concat, ih hhigh, Option.bind_some, value_digit (Nat.mod_lt n (by omega)),
        Option.map_some]
      congr 1
      omega

/-- What is not a digit does not occur. -/
theorem not_mem_fixed {c : UInt8} (h : value c = none) (k n : Nat) : c ∉ fixed k n := by
  induction k generalizing n with
  | zero => exact List.not_mem_nil
  | succ k ih =>
      rw [fixed, List.mem_append, List.mem_singleton, not_or]
      refine ⟨ih (n / 16), ?_⟩
      rintro rfl
      rw [value_digit (Nat.mod_lt n (by omega))] at h
      exact absurd h (by simp)

/-- The digits of a number in two parts. -/
theorem fixed_add (j m : Nat) {k n : Nat} (h : n < 16 ^ k) :
    fixed (j + k) (m * 16 ^ k + n) = fixed j m ++ fixed k n := by
  induction k generalizing n with
  | zero =>
      obtain rfl : n = 0 := by simpa using h
      simp [fixed]
  | succ k ih =>
      have hhigh : n / 16 < 16 ^ k := by
        rw [Nat.div_lt_iff_lt_mul (by omega), ← Nat.pow_succ]
        exact h
      have hpow : m * 16 ^ (k + 1) = 16 * (m * 16 ^ k) := by ring
      have hdiv : (m * 16 ^ (k + 1) + n) / 16 = m * 16 ^ k + n / 16 := by omega
      have hmod : (m * 16 ^ (k + 1) + n) % 16 = n % 16 := by omega
      rw [← Nat.add_assoc, fixed, hdiv, hmod, ih hhigh, List.append_assoc]
      rfl

/-! ## Bytes -/

/-- The number of some bytes, the lowest byte first. -/
def ofBytes (bytes : List UInt8) : Nat := Nat.ofDigits 256 (bytes.map UInt8.toNat)

/-- The lowest `k` bytes of a number, the lowest first. -/
def little : Nat → Nat → List UInt8
  | 0, _ => []
  | k + 1, n => .ofNat n :: little k (n / 256)

/-- No bytes have the number 0. -/
@[simp] theorem ofBytes_nil : ofBytes [] = 0 := rfl

/-- The first byte is the lowest one. -/
theorem ofBytes_cons (b : UInt8) (bytes : List UInt8) :
    ofBytes (b :: bytes) = b.toNat + 256 * ofBytes bytes := by
  simp [ofBytes, Nat.ofDigits_cons]

/-- The number of so many bytes fits into twice as many digits. -/
theorem ofBytes_lt (bytes : List UInt8) : ofBytes bytes < 16 ^ (2 * bytes.length) := by
  have hlt := Nat.ofDigits_lt_base_pow_length (b := 256) (l := bytes.map UInt8.toNat) (by omega)
    (fun d hd => by
      obtain ⟨b, -, rfl⟩ := List.mem_map.mp hd
      exact b.toNat_lt)
  rw [List.length_map] at hlt
  rwa [Nat.pow_mul]

/-- The bytes of a number of bytes are those bytes. -/
theorem little_ofBytes (bytes : List UInt8) : little bytes.length (ofBytes bytes) = bytes := by
  induction bytes with
  | nil => rfl
  | cons b bytes ih =>
      have hb := b.toNat_lt
      have hdiv : (b.toNat + 256 * ofBytes bytes) / 256 = ofBytes bytes := by omega
      have hlow : UInt8.ofNat (b.toNat + 256 * ofBytes bytes) = b := by
        apply UInt8.toNat_inj.mp
        rw [UInt8.toNat_ofNat']
        omega
      rw [ofBytes_cons, List.length_cons, little, hdiv, hlow, ih]

/-- The digits of the bytes, the highest byte first. -/
theorem fixed_ofBytes (bytes : List UInt8) :
    fixed (2 * bytes.length) (ofBytes bytes) = bytes.reverse.flatMap fun b => fixed 2 b.toNat := by
  induction bytes with
  | nil => rfl
  | cons b bytes ih =>
      have hsum : b.toNat + 256 * ofBytes bytes = ofBytes bytes * 16 ^ 2 + b.toNat := by ring
      rw [ofBytes_cons, hsum, List.length_cons, Nat.mul_succ, fixed_add _ _ b.toNat_lt, ih,
        List.reverse_cons, List.flatMap_append, List.flatMap_singleton]

/-- The lowest byte by a mask. -/
theorem and_255 (n : Nat) : n &&& 255 = n % 256 := Nat.and_two_pow_sub_one_eq_mod n 8

/-- The bytes of a word, taken off by shifts. -/
theorem ofBytes_UInt32 (a : UInt32) :
    ofBytes [(a &&& 0xff).toUInt8, ((a >>> 8) &&& 0xff).toUInt8, ((a >>> 16) &&& 0xff).toUInt8,
      ((a >>> 24) &&& 0xff).toUInt8] = a.toNat := by
  have hlt := a.toNat_lt
  simp only [ofBytes_cons, ofBytes_nil, UInt32.toNat_toUInt8, UInt32.toNat_and,
    UInt32.toNat_shiftRight, UInt32.reduceToNat, and_255, Nat.shiftRight_eq_div_pow, Nat.reduceMod,
    Nat.reducePow]
  omega

/-- A word of 16 bits is the number of its two bytes, as shifts and masks give them. -/
theorem ofBytes_UInt16 (b : UInt16) :
    ofBytes [(b &&& 0xff).toUInt8, ((b >>> 8) &&& 0xff).toUInt8] = b.toNat := by
  have hlt := b.toNat_lt
  simp only [ofBytes_cons, ofBytes_nil, UInt16.toNat_toUInt8, UInt16.toNat_and,
    UInt16.toNat_shiftRight, UInt16.reduceToNat, and_255, Nat.shiftRight_eq_div_pow, Nat.reduceMod,
    Nat.reducePow]
  omega

/-- The `k` bytes, the lowest first, of a text of two digits for each. -/
def readBytes (k : Nat) (text : List UInt8) : Option (List UInt8) :=
  if text.length = 2 * k then (number text).map (little k) else none

/-- Each byte is read from two digits. -/
theorem length_of_readBytes {k : Nat} {text bytes : List UInt8} (h : readBytes k text = some bytes) :
    text.length = 2 * k := by
  unfold readBytes at h
  split at h
  next hlength => exact hlength
  next => exact absurd h (by simp)

/-- The bytes are read back from the digits of their number. -/
theorem readBytes_ofBytes (bytes : List UInt8) :
    readBytes bytes.length (fixed (2 * bytes.length) (ofBytes bytes)) = some bytes := by
  rw [readBytes, if_pos (length_fixed _ _), number_fixed (ofBytes_lt bytes), Option.map_some,
    little_ofBytes]

/-- Bytes are determined by their digits. -/
theorem flatMap_fixed_inj {l l' : List UInt8} (hlength : l.length = l'.length) :
    (l.flatMap fun b => fixed 2 b.toNat) = (l'.flatMap fun b => fixed 2 b.toNat) ↔ l = l' := by
  refine ⟨fun h => ?_, fun h => by rw [h]⟩
  have hl := readBytes_ofBytes l.reverse
  have hl' := readBytes_ofBytes l'.reverse
  rw [fixed_ofBytes, List.reverse_reverse, List.length_reverse] at hl hl'
  rw [h, hlength, hl'] at hl
  exact (List.reverse_inj.mp (Option.some.inj hl)).symm

end Hex
