import Mathlib.Algebra.Group.Nat.Defs
import Mathlib.Order.Basic
import Mathlib.Order.MinMax
import Mathlib.Order.Nat

/-!
# 64-bit words as numbers

* `toNat_add_of_lt`, `toNat_mul_of_lt`, `toNat_shiftLeft_ten`: sums and products without overflow.
* `toNat_mul_div_lt`: a product with overflow has a smaller quotient.
* `toNat_min`, `toNat_foldl_min`: the smaller of two words, and the least of a list.
* `toNat_sub_or_zero`, `toNat_zeroBelow`: differences and sizes that are 0 instead.

Each lemma says under which condition an operation on words is that of natural numbers, with the numbers
on the right-hand side. With them a computation on words is rewritten from the inside, and what is left
goes to `omega` or to the lemmas on natural numbers.
-/

namespace Words

variable {α : Type}

/-- Without overflow sums and products of words are those of the numbers. -/
theorem toNat_add_of_lt {a b : UInt64} (h : a.toNat + b.toNat < 2 ^ 64) :
    (a + b).toNat = a.toNat + b.toNat := by
  rw [UInt64.toNat_add, Nat.mod_eq_of_lt h]

/-- A product that fits is the product of the numbers. -/
theorem toNat_mul_of_lt {a b : UInt64} (h : a.toNat * b.toNat < 2 ^ 64) :
    (a * b).toNat = a.toNat * b.toNat := by
  rw [UInt64.toNat_mul, Nat.mod_eq_of_lt h]

/-- With overflow a product is so much smaller that every quotient by a word is. -/
theorem toNat_mul_div_lt {a b : UInt64} {d : Nat} (h : 2 ^ 64 ≤ a.toNat * b.toNat) (hd : 0 < d)
    (hword : d ≤ 2 ^ 64) : (a * b).toNat / d < a.toNat * b.toNat / d := by
  have hsplit := Nat.div_add_mod (a.toNat * b.toNat) (2 ^ 64)
  have hwraps : 1 ≤ a.toNat * b.toNat / 2 ^ 64 := (Nat.one_le_div_iff (by decide)).mpr h
  have hless : (a * b).toNat + d ≤ a.toNat * b.toNat := by
    rw [UInt64.toNat_mul]
    omega
  calc (a * b).toNat / d < (a * b).toNat / d + 1 := Nat.lt_succ_self _
    _ = ((a * b).toNat + d) / d := (Nat.add_div_right _ hd).symm
    _ ≤ a.toNat * b.toNat / d := Nat.div_le_div_right hless

/-- The shift by 10 bits is the multiplication by 1024. -/
theorem toNat_shiftLeft_ten {a : UInt64} (h : a.toNat * 1024 < 2 ^ 64) :
    (a <<< (10 : UInt64)).toNat = a.toNat * 1024 := by
  have hshift : a.toNat <<< ((10 : UInt64).toNat % 64) = a.toNat * 1024 := Nat.shiftLeft_eq _ _
  rw [UInt64.toNat_shiftLeft, hshift, Nat.mod_eq_of_lt h]

/-- The smaller of two words is that of the smaller number. -/
theorem toNat_min (a b : UInt64) : (min a b).toNat = min a.toNat b.toNat := by
  show (if a ≤ b then a else b).toNat = _
  split
  next hle => exact (min_eq_left (UInt64.le_iff_toNat_le.mp hle)).symm
  next hlt => exact (min_eq_right (Nat.le_of_lt (UInt64.lt_iff_toNat_lt.mp (UInt64.not_le.mp hlt)))).symm

/-- The smaller of a bound and the least value of a list. -/
theorem toNat_foldl_min (f : α → UInt64) (l : List α) (bound : UInt64) :
    (l.foldl (fun least x => min least (f x)) bound).toNat =
      l.foldl (fun least x => min least (f x).toNat) bound.toNat := by
  induction l generalizing bound with
  | nil => rfl
  | cons x l ih => rw [List.foldl_cons, List.foldl_cons, ih, toNat_min]

/-- The least value of a list is not above any value of it. -/
theorem foldl_min_le (f : α → Nat) {l : List α} {x : α} (hx : x ∈ l) (bound : Nat) :
    l.foldl (fun least x => min least (f x)) bound ≤ f x := by
  have hbound : ∀ (l : List α) (bound : Nat),
      l.foldl (fun least x => min least (f x)) bound ≤ bound := by
    intro l
    induction l with
    | nil => exact fun bound => Nat.le_refl bound
    | cons y l ih => exact fun bound => (ih _).trans (min_le_left _ _)
  induction l generalizing bound with
  | nil => simp at hx
  | cons y l ih =>
      rw [List.foldl_cons]
      rcases List.mem_cons.mp hx with rfl | hx
      · exact (hbound l _).trans (min_le_right _ _)
      · exact ih hx _

/-- A difference that is 0 where it would be negative. -/
theorem toNat_sub_or_zero (a b : UInt64) : (if b > a then 0 else a - b).toNat = a.toNat - b.toNat := by
  split
  next h => exact (Nat.sub_eq_zero_of_le (Nat.le_of_lt (UInt64.lt_iff_toNat_lt.mp h))).symm
  next h => exact UInt64.toNat_sub_of_le _ _ (UInt64.not_lt.mp h)

/-- A size is 0 where it is below a strip or there are several volumes. -/
theorem toNat_zeroBelow {free strip : UInt64} {f volumes : Nat} (hfree : free.toNat = f)
    (hvolumes : ¬ volumes > 1) :
    (if free < strip ∨ volumes > 1 then 0 else free).toNat = if f < strip.toNat then 0 else f := by
  rw [apply_ite UInt64.toNat, hfree]
  refine if_congr ?_ rfl rfl
  rw [or_iff_left hvolumes, UInt64.lt_iff_toNat_lt, hfree]

end Words
