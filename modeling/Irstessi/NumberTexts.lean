import Irstessi.Ascii
import Irstessi.Numerals
import Irstessi.StringAppend

/-!
# Numbers as strings

Ten types of integers are converted to `long long` or to `unsigned long long`, written by `snprintf`, and
read back by the functions of the C library.

* `IntegerType`, `Number`: the types that a string is made from, and their values.
* `StringObject.assignNumber`, `appendNumber`, `convert`: the functions.
* `numberText_eq`: `snprintf` writes the whole numeral; `convert_numeral`: what it is read back as.
* `Survives`: the text of a number is its numeral, appending appends it, and reading gives the number.
* **`survives_iff`**: this holds iff the number is no negative `long`, and the string that it is appended
  to has characters of single bytes only and leaves room.

The functions differ in the type that they convert to and in the function that reads the text back;
`IntegerType` names the types, so that all ten are covered by one definition and one theorem. A `long`
is converted to `unsigned long long` by the source, and a negative one is therefore written as a large
number; this is the only type whose values change. The text of a value is its numeral in base 10, which
has no characters but digits and a sign. Reading it back is the converse on the values of the type, and
the appended text is what the appending of `StringAppend` makes of a string of single-byte characters.
-/

namespace Irstessi

/-- The integral types that a `String` is constructed from. -/
inductive IntegerType
  | char | uchar | short | ushort | int | uint | long | ulong | longlong | ulonglong
  deriving DecidableEq, Repr

namespace IntegerType

/-- Source: the data model of the library, LP64 with a signed `char` -/
def bits : IntegerType → Nat
  | char | uchar => 8
  | short | ushort => 16
  | int | uint => 32
  | long | ulong | longlong | ulonglong => 64

def isSigned : IntegerType → Bool
  | char | short | int | long | longlong => true
  | uchar | ushort | uint | ulong | ulonglong => false

/-- The values of a type. -/
def Has (T : IntegerType) (value : Int) : Prop :=
  if T.isSigned then -2 ^ (T.bits - 1) ≤ value ∧ value < 2 ^ (T.bits - 1)
  else 0 ≤ value ∧ value < 2 ^ T.bits

instance (T : IntegerType) (value : Int) : Decidable (T.Has value) :=
  inferInstanceAs (Decidable (if T.isSigned = true then
    -2 ^ (T.bits - 1) ≤ value ∧ value < 2 ^ (T.bits - 1) else 0 ≤ value ∧ value < 2 ^ T.bits))

/-- The value that is passed to `assign(long long)` or to `assign(unsigned long long)`. A `long` is passed
to the latter.
Source: `string.h` `String::assign` -/
def passed (T : IntegerType) (value : Int) : Int :=
  match T with
  | char => value.bmod (2 ^ 64)
  | uchar => value % 2 ^ 64
  | int => value.bmod (2 ^ 64)
  | uint => value % 2 ^ 64
  | ulong => value % 2 ^ 64
  | long => value % 2 ^ 64
  | short => value.bmod (2 ^ 64)
  | ushort => value % 2 ^ 64
  | longlong => value
  | ulonglong => value

end IntegerType

/-! ## The functions -/

namespace StringObject

variable (s : StringObject) (T : IntegerType)

/-- Source: `string.h` `String::assign` of a number, `string.cpp` `String::assign` -/
def assignNumber (value : Int) (junk : Nat → UInt8) : Option StringObject :=
  s.assign junk (some (cstring (numberText (T.passed value)))) uintMax

/-- Source: `string.h` `String::append` of a number -/
def appendNumber (value : Int) (junk : Nat → UInt8) : Option StringObject :=
  (new.assignNumber T value junk).bind fun t => s.append t junk uintMax

/-- The conversion to a type, where there is one.
Source: `string.h` the conversion operators, `string.cpp` `String::__internal_to_ulonglong` and its like -/
def convert : Option Int :=
  match T with
  | .ulonglong => some (Str.strtoul s.text)
  | .longlong => some (Str.strtoll s.text)
  | .uint => some (Str.strtoul s.text % 2 ^ 32 : Nat)
  | .int => some (Str.atoi s.text)
  | .ushort => some (Str.strtoul s.text % 2 ^ 16 : Nat)
  | .short => some ((Str.atoi s.text).bmod (2 ^ 16))
  | .uchar => some (Str.strtoul s.text % 2 ^ 8 : Nat)
  | .char => none
  | .long => none
  | .ulong => none

end StringObject

/-! ## Signed numerals -/

/-- The decimal numeral of a number, with a minus sign if it is negative. -/
def signedDecimal (value : Int) : List UInt8 :=
  if value < 0 then 45 :: decimal value.natAbs else decimal value.natAbs

/-- The text of a number is of single-byte characters. -/
theorem singleBytes_signedDecimal (value : Int) : SingleBytes (signedDecimal value) := by
  have hdigits := singleBytes_decimal value.natAbs
  unfold signedDecimal
  split
  · exact List.forall_mem_cons.mpr ⟨by decide, hdigits⟩
  · exact hdigits

/-- The text of a number is not empty. -/
theorem signedDecimal_ne_nil (value : Int) : signedDecimal value ≠ [] := by
  unfold signedDecimal
  split
  · exact List.cons_ne_nil _ _
  · exact decimal_ne_nil _

/-- The text of a number has no NUL in it. -/
theorem ne_zero_of_mem_signedDecimal {value : Int} {b : UInt8} (hb : b ∈ signedDecimal value) : b ≠ 0 := by
  rintro rfl
  unfold signedDecimal at hb
  have hzero : (0 : UInt8) ∉ decimal value.natAbs := not_mem_decimal (.inl (by decide)) _
  split at hb
  · rcases List.mem_cons.mp hb with h | h
    · exact absurd h (by decide)
    · exact hzero h
  · exact hzero hb

/-- A sign tells a negative number from the others. -/
theorem signedDecimal_ne {value n : Int} (hneg : value < 0) (hn : 0 ≤ n) :
    signedDecimal n ≠ signedDecimal value := by
  intro h
  have hmem : (45 : UInt8) ∈ signedDecimal n := by
    rw [h, signedDecimal, if_pos hneg]
    exact List.mem_cons_self
  rw [signedDecimal, if_neg (by omega)] at hmem
  exact not_mem_decimal (.inl (by decide)) _ hmem

/-- A number of at most twenty digits is written in at most twenty-one bytes, sign included, and so fits
into the buffer. -/
theorem length_signedDecimal_le {value : Int} (h : value.natAbs < 10 ^ 20) :
    (signedDecimal value).length ≤ 21 := by
  have hdigits := (Nat.length_toDigits_le_iff (by decide) (by decide)).mpr h
  have hlength : (decimal value.natAbs).length ≤ 20 := by
    rw [decimal, List.length_map]
    exact hdigits
  unfold signedDecimal
  split
  · rw [List.length_cons]
    omega
  · omega

/-- The whole numeral fits into the 42 bytes. -/
theorem numberText_eq {value : Int} (h : value.natAbs < 10 ^ 20) :
    numberText value = signedDecimal value := by
  have hlength := length_signedDecimal_le h
  have hwhole : numberText value = (signedDecimal value).take 41 := rfl
  rw [hwhole, List.take_of_length_le (by omega)]

/-- A text without NUL is its own C string. -/
theorem cstring_of_ne_zero {u : List UInt8} (hu : ∀ b ∈ u, b ≠ 0) : cstring u = u := by
  unfold cstring
  rw [List.takeWhile_eq_self_iff]
  simpa using hu

/-! ### Reading -/

namespace Str

section reading

variable (value : Int)

/-- A numeral begins with a minus sign or with a digit. -/
theorem signedDecimal_cases :
    (value < 0 ∧ signedDecimal value = 45 :: decimal value.natAbs) ∨
    (0 ≤ value ∧ ∃ b rest, signedDecimal value = b :: rest ∧ decimal value.natAbs = b :: rest ∧
      48 ≤ b.toNat ∧ b.toNat ≤ 57) := by
  unfold signedDecimal
  rcases lt_or_ge value 0 with hneg | hpos
  · exact .inl ⟨hneg, if_pos hneg⟩
  · obtain ⟨b, rest, hcons⟩ := List.exists_cons_of_ne_nil (decimal_ne_nil value.natAbs)
    have hdigit := digit_of_mem_decimal (n := value.natAbs) (b := b) (by rw [hcons]; simp)
    exact .inr ⟨hpos, b, rest, (if_neg (by omega)).trans hcons, hcons, hdigit⟩

/-- There are no blanks in front of a number's text. -/
theorem dropWhile_signedDecimal : (signedDecimal value).dropWhile isSpace = signedDecimal value := by
  rcases signedDecimal_cases value with ⟨-, hcons⟩ | ⟨-, b, rest, hcons, -, hdigit⟩
  · rw [hcons]
    exact List.dropWhile_cons_of_neg (by decide)
  · rw [hcons]
    exact List.dropWhile_cons_of_neg (by simp [isSpace_of_digit hdigit])

/-- The sign stands in front of negative numbers only. -/
theorem head_signedDecimal : (signedDecimal value).head? = some 45 ↔ value < 0 := by
  rcases signedDecimal_cases value with ⟨hneg, hcons⟩ | ⟨hpos, b, rest, hcons, -, hdigit⟩
  · rw [hcons]
    exact iff_of_true rfl hneg
  · rw [hcons, List.head?_cons, Option.some.injEq]
    refine iff_of_false ?_ (by omega)
    rintro rfl
    exact absurd hdigit.1 (by decide)

/-- Behind the sign there are the digits. -/
theorem tail_signedDecimal :
    (if (signedDecimal value).head? = some 45 ∨ (signedDecimal value).head? = some 43 then
      (signedDecimal value).tail else signedDecimal value) = decimal value.natAbs := by
  rcases signedDecimal_cases value with ⟨-, hcons⟩ | ⟨-, b, rest, hcons, hdecimal, hdigit⟩
  · rw [hcons, if_pos (.inl rfl), List.tail_cons]
  · rw [hcons, hdecimal]
    apply if_neg
    rintro (⟨⟨⟩⟩ | ⟨⟨⟩⟩)
    · exact absurd hdigit.1 (by decide)
    · exact absurd hdigit.1 (by decide)

/-- A number without a sign is written as its decimal numeral. -/
theorem signedDecimal_natCast (n : Nat) : signedDecimal n = decimal n := by
  rw [signedDecimal, if_neg (by omega), Int.natAbs_natCast]

/-- Base 0 reads a numeral with a sign as a decimal one. -/
theorem numeral_signedDecimal :
    numeral (signedDecimal value) = (decide (value < 0), value.natAbs) := by
  have hdigits := numeral_decimal value.natAbs
  unfold numeral at hdigits ⊢
  rw [← signedDecimal_natCast] at hdigits
  dsimp only at hdigits ⊢
  rw [dropWhile_signedDecimal, tail_signedDecimal, Int.natAbs_natCast] at hdigits
  rw [dropWhile_signedDecimal, tail_signedDecimal]
  have hsign : decide ((signedDecimal value).head? = some 45) = decide (value < 0) :=
    decide_eq_decide.mpr (head_signedDecimal value)
  have hvalue := congrArg Prod.snd hdigits
  exact Prod.ext hsign hvalue

end reading

/-- Every unsigned 64-bit number is read back by `strtoul`. -/
theorem strtoul_signedDecimal {value : Int} (h : 0 ≤ value) (hlt : value < 2 ^ 64) :
    (strtoul (signedDecimal value) : Int) = value := by
  unfold strtoul
  rw [numeral_signedDecimal]
  simp only [decide_eq_true_eq]
  split_ifs <;> omega

/-- Every signed 64-bit number is read back by `strtoll`. -/
theorem strtoll_signedDecimal {value : Int} (h : -2 ^ 63 ≤ value) (hlt : value < 2 ^ 63) :
    strtoll (signedDecimal value) = value := by
  unfold strtoll
  rw [numeral_signedDecimal]
  simp only [decide_eq_true_eq]
  split_ifs <;> omega

/-- Every `int` is read back by `atoi`. -/
theorem atoi_signedDecimal {value : Int} (h : -2 ^ 31 ≤ value) (hlt : value < 2 ^ 31) :
    atoi (signedDecimal value) = value := by
  have hread : (if value < 0 then max (-(2 ^ 63)) (-(value.natAbs : Int))
      else min (2 ^ 63 - 1) (value.natAbs : Int)) = value := by
    split_ifs <;> omega
  unfold atoi
  dsimp only
  rw [dropWhile_signedDecimal, tail_signedDecimal, digits_decimal]
  simp only [head_signedDecimal]
  rw [hread]
  exact Int.bmod_eq_of_le_mul_two (by omega) (by omega)

end Str

/-! ## The types -/

namespace IntegerType

variable {T : IntegerType} {value : Int} (h : T.Has value)

include h

/-- The values of a signed type are those of the 64-bit one at most. -/
theorem signed_of_has (hT : T.isSigned = true) : -2 ^ 63 ≤ value ∧ value < 2 ^ 63 := by
  unfold Has at h
  rw [if_pos hT] at h
  cases T <;> simp only [bits] at h <;> omega

/-- The values of an unsigned type are those of the 64-bit one at most. -/
theorem unsigned_of_has (hT : T.isSigned = false) : 0 ≤ value ∧ value < 2 ^ 64 := by
  unfold Has at h
  rw [if_neg (by simp [hT])] at h
  cases T <;> simp only [bits] at h <;> omega

/-- The casts change a negative `long` only. -/
theorem passed_eq (hlong : T = .long → 0 ≤ value) : T.passed value = value := by
  cases hsigned : T.isSigned with
  | true =>
      obtain ⟨hlow, hhigh⟩ := signed_of_has h hsigned
      have hsame : value.bmod (2 ^ 64) = value := Int.bmod_eq_of_le_mul_two (by omega) (by omega)
      cases T
      case long => exact Int.emod_eq_of_lt (hlong rfl) (by omega)
      case longlong => rfl
      all_goals first | exact hsame | exact absurd hsigned (by decide)
  | false =>
      obtain ⟨hlow, hhigh⟩ := unsigned_of_has h hsigned
      have hsame : value % 2 ^ 64 = value := Int.emod_eq_of_lt hlow hhigh
      cases T
      case ulonglong => rfl
      all_goals first | exact hsame | exact absurd hsigned (by decide)

/-- What is handed to `sprintf` has at most twenty digits, which keeps it within the buffer. -/
theorem natAbs_passed_lt : (T.passed value).natAbs < 10 ^ 20 := by
  by_cases hlong : T = .long
  · subst hlong
    have hpassed : IntegerType.passed .long value = value % 2 ^ 64 := rfl
    rw [hpassed]
    omega
  · rw [passed_eq h fun hT => absurd hT hlong]
    cases hsigned : T.isSigned with
    | true =>
        obtain ⟨hlow, hhigh⟩ := signed_of_has h hsigned
        omega
    | false =>
        obtain ⟨hlow, hhigh⟩ := unsigned_of_has h hsigned
        omega

/-- A numeral is read back as the number by every conversion that there is. -/
theorem convert_numeral {s : StringObject} (htext : s.text = signedDecimal value) :
    ∀ v ∈ s.convert T, v = value := by
  have hunsigned : T.isSigned = false → (Str.strtoul (signedDecimal value) : Int) = value := by
    intro hsigned
    obtain ⟨hlow, hhigh⟩ := unsigned_of_has h hsigned
    exact Str.strtoul_signedDecimal hlow hhigh
  unfold Has at h
  unfold StringObject.convert
  rw [htext]
  cases T with
  | char => exact nofun
  | long => exact nofun
  | ulong => exact nofun
  | ulonglong =>
      rintro v ⟨⟩
      exact hunsigned rfl
  | longlong =>
      rintro v ⟨⟩
      obtain ⟨hlow, hhigh⟩ := h
      exact Str.strtoll_signedDecimal hlow hhigh
  | uint =>
      rintro v ⟨⟩
      have hread := hunsigned rfl
      obtain ⟨-, hhigh⟩ := h
      change value < 2 ^ 32 at hhigh
      omega
  | ushort =>
      rintro v ⟨⟩
      have hread := hunsigned rfl
      obtain ⟨-, hhigh⟩ := h
      change value < 2 ^ 16 at hhigh
      omega
  | uchar =>
      rintro v ⟨⟩
      have hread := hunsigned rfl
      obtain ⟨-, hhigh⟩ := h
      change value < 2 ^ 8 at hhigh
      omega
  | int =>
      rintro v ⟨⟩
      obtain ⟨hlow, hhigh⟩ := h
      exact Str.atoi_signedDecimal hlow hhigh
  | short =>
      rintro v ⟨⟩
      obtain ⟨hlow, hhigh⟩ := h
      change -2 ^ 15 ≤ value at hlow
      change value < 2 ^ 15 at hhigh
      rw [Str.atoi_signedDecimal (by omega) (by omega)]
      exact Int.bmod_eq_of_le_mul_two (by omega) (by omega)

end IntegerType

/-! ## Main result -/

/-- A number of one of the types. -/
structure Number where
  type : IntegerType
  value : Int
  has : type.Has value

namespace Number

variable (n : Number) (s : StringObject) (junk : Nat → UInt8)

/-- What is constructed from the number holds its numeral and is read back as the number where there is a
conversion, and appending the number appends the numeral. -/
structure Survives : Prop where
  constructed : ∃ t, StringObject.new.assignNumber n.type n.value junk = some t ∧
    t.text = signedDecimal n.value ∧ ∀ v ∈ t.convert n.type, v = n.value
  appended : ∃ s', s.appendNumber n.type n.value junk = some s' ∧
    s'.text = s.text ++ signedDecimal n.value

/-- The number is no negative `long`, and the text that it is appended to is one of single-byte characters
and leaves room for the numeral. -/
def WrittenPlainly : Prop :=
  (n.type = .long → 0 ≤ n.value) ∧ SingleBytes s.text ∧
    s.text.length + (signedDecimal n.value).length + 1 < 2 ^ 32

/-- Assigning a number succeeds and leaves its text, for every type and every value of it. -/
theorem exists_assignNumber :
    ∃ t, StringObject.new.assignNumber n.type n.value junk = some t ∧ t.Valid ∧
      t.bytes = signedDecimal (n.type.passed n.value) := by
  have hnumeral := numberText_eq (IntegerType.natAbs_passed_lt n.has)
  have hlength := length_signedDecimal_le (IntegerType.natAbs_passed_lt n.has)
  have hne : ∀ b ∈ signedDecimal (n.type.passed n.value), b ≠ 0 :=
    fun _ => ne_zero_of_mem_signedDecimal
  have hwell := (singleBytes_signedDecimal (n.type.passed n.value)).wellFormed
  obtain ⟨t, hassign, hvalid, hstr⟩ := StringObject.allocated_new.toStr_assign junk hne (by
    unfold uintMax
    omega)
  refine ⟨t, ?_, hvalid, (congrArg Str.m_buffer hstr).trans (Str.ofBytes_buffer hwell)⟩
  rw [StringObject.assignNumber, hnumeral, cstring_of_ne_zero hne]
  exact hassign

/-- The text that is constructed is the numeral iff the number is no negative `long`. -/
theorem passed_numeral_iff :
    signedDecimal (n.type.passed n.value) = signedDecimal n.value ↔ (n.type = .long → 0 ≤ n.value) := by
  constructor
  · intro hsame hlong
    by_contra hneg
    have hpassed : 0 ≤ n.type.passed n.value := by
      rw [hlong]
      exact Int.emod_nonneg _ (by decide)
    exact signedDecimal_ne (not_le.mp hneg) hpassed hsame
  · intro hlong
    rw [IntegerType.passed_eq n.has hlong]

end Number

/-- For every number of the ten types and every object whose fields agree: the text of the number is its
numeral, appending appends it, and reading gives the number iff it is no negative `long` and the object
holds single-byte characters and leaves room. -/
theorem survives_iff (n : Number) (s : {s : StringObject // s.Valid}) (junk : Nat → UInt8) :
    n.Survives s junk ↔ n.WrittenPlainly s := by
  obtain ⟨t, hassign, hvalid, hbytes⟩ := n.exists_assignNumber junk
  have htext : t.text = signedDecimal (n.type.passed n.value) := hvalid.text_eq.trans hbytes
  have hwell : WellFormed t.bytes := by
    rw [hbytes]
    exact (singleBytes_signedDecimal _).wellFormed
  have hne : t.bytes ≠ [] := by
    rw [hbytes]
    exact signedDecimal_ne_nil _
  have happend := s.property.exists_append_iff hvalid hwell hne junk
  have hnumber : s.val.appendNumber n.type n.value junk = s.val.append t junk uintMax := by
    rw [StringObject.appendNumber, hassign, Option.bind_some]
  have hiff := n.passed_numeral_iff
  rw [← htext] at hiff
  constructor
  · rintro ⟨⟨t', hassign', hnumeral, -⟩, happended⟩
    obtain rfl := Option.some.inj (hassign.symm.trans hassign')
    rw [hnumber] at happended
    rw [hnumeral] at happend
    exact ⟨hiff.mp hnumeral, happend.mp happended⟩
  · rintro ⟨hlong, hroom⟩
    have hnumeral := hiff.mpr hlong
    rw [hnumeral] at happend
    refine ⟨⟨t, hassign, hnumeral, IntegerType.convert_numeral n.has hnumeral⟩, ?_⟩
    rw [hnumber]
    exact happend.mpr hroom

/-- The `long` -1. -/
def minusOne : Number := ⟨.long, -1, by decide⟩

/-- -1 is written as 18446744073709551615. -/
theorem not_survives_minusOne :
    ¬ ∀ (n : Number) (s : {s : StringObject // s.Valid}) (junk : Nat → UInt8), n.Survives s junk := by
  intro h
  obtain ⟨t, hassign, htext, -⟩ := (h minusOne ⟨eAcute.object, eAcute.valid⟩ fun _ => 0).constructed
  have hwritten : (StringObject.new.assignNumber .long (-1) fun _ => 0).map StringObject.text =
      some (lit "18446744073709551615") := by
    decide +kernel
  have hnumeral : signedDecimal (-1) = lit "-1" := by decide +kernel
  change StringObject.new.assignNumber .long (-1) (fun _ => 0) = some t at hassign
  change t.text = signedDecimal (-1) at htext
  rw [hassign, Option.map_some, Option.some.injEq, htext, hnumeral] at hwritten
  exact absurd hwritten (by decide)

end Irstessi
