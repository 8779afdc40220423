import Irstessi.Characters

/-!
# Comparing strings

`==`, `!=` and `<` rest on one function, which joins a `strncmp` of the common length with the difference
of the lengths. A string that is made of the right operand is what is compared with.

* `StringObject.compareObject`, `equal`, `different`, `less` and the operators on texts.
* `lt_iff_take`: the order of lists by the common length.
* `compareObject_lt_zero_iff`, `compareObject_eq_zero_iff`: what the function decides.
* `EqualDecides`, `LessOrders`: `==` is equality of the bytes, `<` their order.
* **`comparesTotally`**: both hold of all strings of fewer than 2^31 bytes.

`strncmp` is a parameter of which only the sign is used, as the C standard promises no more. The
comparison of two objects is a number with a sign of its own, made of the sign of `strncmp` and of the
difference of two sizes as a 32-bit integer; with fewer than 2^31 bytes this difference has the right
sign. `lt_iff_take` reduces the lexicographic order of two lists to their common length, so that the two
cases of the function are the two cases of the lemma. The operators are then read off: each makes a
`String` of its right operand, which gives back the bytes of a well-formed text.
-/

namespace Irstessi

/-! ## The functions -/

namespace StringObject

variable (strncmp : Strncmp) (s : StringObject) (junk : Nat → UInt8)

/-- An `int` and an `unsigned int` are the branches of the conditional expression, which is the latter and
is returned as the former.
Source: `string.cpp` `String::__compare` -/
def compareObject (t : StringObject) : Int :=
  let minSize := if t.m_size > s.m_size then s.m_size else t.m_size
  let rv := strncmp.cmp s.text t.text minSize
  (if rv ≠ 0 then rv else (s.m_size : Int) - t.m_size).bmod (2 ^ 32)

/-- `__compare` of a pointer, of which a string is made. -/
def compareText (buf : Option (List UInt8)) : Option Int :=
  (new.assign junk buf uintMax).map (s.compareObject strncmp)

/-- Source: `string.h` `String::compare` -/
def compare (t : StringObject) : Option Int := s.compareText strncmp junk (some t.text)

/-- There is no other object where the object is compared with itself.
Source: `string.h` `String::equal` -/
def equal (t : Option StringObject) : Option Bool :=
  match t with
  | none => some true
  | some t => (s.compareText strncmp junk (some t.text)).map fun rv => rv = 0

/-- Source: `string.h` `String::different` -/
def different (t : Option StringObject) : Option Bool :=
  match t with
  | none => some false
  | some t => (s.compareText strncmp junk (some t.text)).map fun rv => rv ≠ 0

/-- Source: `string.h` `String::equal` of a pointer -/
def equalText (buf : Option (List UInt8)) : Option Bool :=
  match buf with
  | none => some false
  | some buf => (s.compareText strncmp junk (some buf)).map fun rv => rv = 0

/-- Source: `string.h` `String::different` of a pointer -/
def differentText (buf : Option (List UInt8)) : Option Bool :=
  match buf with
  | none => some false
  | some buf => (s.compareText strncmp junk (some buf)).map fun rv => rv ≠ 0

/-- Source: `string.h` `operator ==` of a pointer and a string -/
def textEqual (buf : Option (List UInt8)) : Option Bool :=
  (new.assign junk buf uintMax).bind fun left => left.equal strncmp junk (some s)

/-- Source: `string.h` `operator !=` of a pointer and a string -/
def textDifferent (buf : Option (List UInt8)) : Option Bool :=
  (new.assign junk buf uintMax).bind fun left => left.different strncmp junk (some s)

/-- Source: `string.h` `operator <` -/
def less (t : StringObject) : Option Bool := (s.compare strncmp junk t).map fun rv => rv < 0

end StringObject

/-! ## The order of lists -/

section lists

variable {α : Type*} [LT α] {u v : List α} {n : Nat}

omit [LT α] in
/-- Equality up to the shorter length, with equal lengths, is equality. -/
theorem eq_iff_take (hn : n = min u.length v.length) :
    u = v ↔ u.take n = v.take n ∧ u.length = v.length := by
  constructor
  · rintro rfl
    exact ⟨rfl, rfl⟩
  · rintro ⟨htake, hlength⟩
    rwa [hn, hlength, Nat.min_self, List.take_of_length_le hlength.le, List.take_length] at htake

/-- The common length decides, or else the lengths do. -/
theorem lt_iff_take (hn : n = min u.length v.length) :
    u < v ↔ u.take n < v.take n ∨ u.take n = v.take n ∧ u.length < v.length := by
  induction u generalizing v n with
  | nil =>
      obtain rfl : n = 0 := by simpa using hn
      cases v <;> simp
  | cons a u ih =>
      cases v with
      | nil =>
          obtain rfl : n = 0 := by simpa using hn
          simp
      | cons b v =>
          obtain rfl : n = min u.length v.length + 1 := by simpa [Nat.succ_min_succ] using hn
          rw [List.take_succ_cons, List.take_succ_cons, List.cons_lt_cons_iff, List.cons_lt_cons_iff,
            ih rfl, List.cons.injEq, List.length_cons, List.length_cons, Nat.succ_lt_succ_iff]
          tauto

/-- A proper prefix is less. -/
theorem lt_append {w : List α} (hw : w ≠ []) : u < u ++ w := by
  rw [lt_iff_take (n := u.length) (by simp)]
  have hpos := List.length_pos_iff.mpr hw
  exact .inr ⟨by simp, by rw [List.length_append]; omega⟩

end lists

/-- The sign of the result is negative where the bytes are smaller. -/
theorem Strncmp.lt_zero_iff (strncmp : Strncmp) {u v : List UInt8} {n : Nat} (hu : n ≤ u.length)
    (hv : n ≤ v.length) : strncmp.cmp u v n < 0 ↔ u.take n < v.take n := by
  have hzero := strncmp.zero_iff hu hv
  have hpos := strncmp.pos_iff hu hv
  constructor
  · intro hneg
    by_contra hnot
    have hge : ¬ v.take n < u.take n := fun hlt => absurd (hpos.mpr hlt) (by omega)
    have heq : u.take n = v.take n := List.le_antisymm (List.not_lt.mp hge) (List.not_lt.mp hnot)
    exact absurd (hzero.mpr heq) (by omega)
  · intro hlt
    have hne : strncmp.cmp u v n ≠ 0 := by
      intro h
      rw [hzero.mp h] at hlt
      exact List.lt_irrefl _ hlt
    have hle : ¬ 0 < strncmp.cmp u v n := fun h => List.lt_asymm hlt (hpos.mp h)
    omega

/-! ## Strings of fewer than 2^31 bytes -/

/-- A string with a text of whole characters, the number of whose bytes is an `int`. -/
structure ShortValue extends StringValue where
  short : object.bytes.length < 2 ^ 31

/-- What is constructed from fewer than 2^31 bytes of UTF-8 as the walk reads it is such a string. -/
theorem exists_shortValue {buf : List UInt8} (hne : ∀ b ∈ buf, b ≠ 0) (hwell : WellFormed buf)
    (hshort : buf.length < 2 ^ 31) (junk : Nat → UInt8) :
    ∃ a : ShortValue, StringObject.new.assign junk (some buf) uintMax = some a.object ∧ a.bytes = buf := by
  have hlength : buf.length < uintMax := by
    unfold uintMax
    omega
  obtain ⟨s, hassign, hvalid, hstr⟩ := StringObject.allocated_new.toStr_assign junk hne hlength
  have hbytes : s.bytes = buf := (congrArg Str.m_buffer hstr).trans (Str.ofBytes_buffer hwell)
  exact ⟨⟨⟨s, hvalid, hbytes ▸ hwell⟩, hbytes ▸ hshort⟩, hassign, hbytes⟩

/-- It is UTF-8 without U+007F. -/
theorem exists_shortValue_utf8 {u : Utf8Text} (hDEL : ∀ c ∈ u.chars, c ≠ DEL)
    (hshort : u.bytes.length < 2 ^ 31) (junk : Nat → UInt8) :
    ∃ a : ShortValue, StringObject.new.assign junk (some u.bytes) uintMax = some a.object ∧
      a.bytes = u.bytes :=
  exists_shortValue (fun _ => u.ne_zero) ((wellFormed_encode_iff _).mpr hDEL) hshort junk

section compare

variable (strncmp : Strncmp) (a b c : ShortValue) (junk : Nat → UInt8)

/-- The conversions change nothing. -/
theorem compareObject_eq :
    a.object.compareObject strncmp b.object =
      let rv := strncmp.cmp a.bytes b.bytes (min a.bytes.length b.bytes.length)
      if rv ≠ 0 then rv else (a.bytes.length : Int) - b.bytes.length := by
  have hmin : (if b.object.bytes.length > a.object.bytes.length then a.object.bytes.length
      else b.object.bytes.length) = min a.object.bytes.length b.object.bytes.length := by
    split <;> omega
  have hshort := a.short
  have hshort' := b.short
  have hint := strncmp.range a.object.bytes b.object.bytes
    (min a.object.bytes.length b.object.bytes.length)
  unfold StringObject.compareObject StringValue.bytes
  dsimp only
  rw [a.valid.text_eq, b.valid.text_eq, ← a.valid.length_bytes, ← b.valid.length_bytes, hmin]
  apply Int.bmod_eq_of_le_mul_two
  · split <;> omega
  · split <;> omega

/-- The comparison of two string values is negative exactly in the lexicographic order of their
bytes. -/
theorem compareObject_lt_zero_iff : a.object.compareObject strncmp b.object < 0 ↔ a.bytes < b.bytes := by
  have hlt := strncmp.lt_zero_iff (Nat.min_le_left a.bytes.length b.bytes.length) (Nat.min_le_right _ _)
  have hzero := strncmp.zero_iff (Nat.min_le_left a.bytes.length b.bytes.length) (Nat.min_le_right _ _)
  rw [compareObject_eq, lt_iff_take rfl, ← hlt, ← hzero]
  dsimp only
  split <;> omega

/-- The comparison of two string values is 0 exactly for equal bytes. -/
theorem compareObject_eq_zero_iff : a.object.compareObject strncmp b.object = 0 ↔ a.bytes = b.bytes := by
  have hzero := strncmp.zero_iff (Nat.min_le_left a.bytes.length b.bytes.length) (Nat.min_le_right _ _)
  rw [compareObject_eq, eq_iff_take rfl, ← hzero]
  dsimp only
  split <;> omega

/-- What is made of the text of a string compares as the string does. -/
theorem exists_copy :
    ∃ b' : ShortValue, StringObject.new.assign junk (some b.object.text) uintMax = some b'.object ∧
      b'.bytes = b.bytes := by
  have hbytes : b.object.text = b.bytes := b.valid.text_eq
  rw [hbytes]
  exact exists_shortValue b.valid.ne_zero b.wellFormed b.short junk

/-- A comparison of a string is one with its copy. -/
theorem exists_compareText :
    ∃ b' : ShortValue, a.object.compareText strncmp junk (some b.object.text) =
      some (a.object.compareObject strncmp b'.object) ∧ b'.bytes = b.bytes := by
  obtain ⟨b', hassign, hbytes⟩ := exists_copy b junk
  refine ⟨b', ?_, hbytes⟩
  rw [StringObject.compareText, hassign, Option.map_some]

/-- `operator ==` answers, and answers with equality of the bytes. -/
theorem equal_eq : a.object.equal strncmp junk (some b.object) = some (decide (a.bytes = b.bytes)) := by
  obtain ⟨b', hcompare, hbytes⟩ := exists_compareText strncmp a b junk
  rw [StringObject.equal, hcompare, Option.map_some, ← hbytes]
  congr 1
  exact decide_eq_decide.mpr (compareObject_eq_zero_iff strncmp a b')

/-- `operator !=` is the negation of `==`, which is not by definition in the source. -/
theorem different_eq :
    a.object.different strncmp junk (some b.object) = some (decide (a.bytes ≠ b.bytes)) := by
  obtain ⟨b', hcompare, hbytes⟩ := exists_compareText strncmp a b junk
  rw [StringObject.different, hcompare, Option.map_some, ← hbytes]
  congr 1
  exact decide_eq_decide.mpr (not_congr (compareObject_eq_zero_iff strncmp a b'))

/-- `operator <` answers with the lexicographic order of the bytes. -/
theorem less_eq : a.object.less strncmp junk b.object = some (decide (a.bytes < b.bytes)) := by
  obtain ⟨b', hcompare, hbytes⟩ := exists_compareText strncmp a b junk
  rw [StringObject.less, StringObject.compare, hcompare, Option.map_some, ← hbytes]
  congr 1
  exact decide_eq_decide.mpr (compareObject_lt_zero_iff strncmp a b')

end compare

/-! ## Main result -/

namespace ShortValue

variable (a b c : ShortValue) (strncmp : Strncmp) (junk : Nat → UInt8)

/-- `==` is equality of the bytes and `!=` its negation, of two strings, of a string and itself, of a
string and a text and of a text and a string. -/
structure EqualDecides : Prop where
  strings : a.object.equal strncmp junk (some b.object) = some (decide (a.bytes = b.bytes)) ∧
    a.object.different strncmp junk (some b.object) = some (decide (a.bytes ≠ b.bytes))
  itself : a.object.equal strncmp junk none = some true ∧ a.object.different strncmp junk none = some false
  stringText : a.object.equalText strncmp junk (some b.object.text) = some (decide (a.bytes = b.bytes)) ∧
    a.object.differentText strncmp junk (some b.object.text) = some (decide (a.bytes ≠ b.bytes))
  textString : b.object.textEqual strncmp junk (some a.object.text) = some (decide (a.bytes = b.bytes)) ∧
    b.object.textDifferent strncmp junk (some a.object.text) = some (decide (a.bytes ≠ b.bytes))

/-- `a < b` -/
def Less : Prop := a.object.less strncmp junk b.object = some true

/-- `a == b` -/
def Equal : Prop := a.object.equal strncmp junk (some b.object) = some true

/-- `<` is the order of the bytes, in which a proper beginning is smaller. It is irreflexive and
transitive, and exactly one of `a < b`, `a == b` and `b < a` holds. -/
structure LessOrders : Prop where
  lexicographic : a.object.less strncmp junk b.object = some (decide (a.bytes < b.bytes))
  beginning : ∀ w, w ≠ [] → a.bytes ++ w = b.bytes → a.Less b strncmp junk
  irreflexive : a.object.less strncmp junk a.object = some false
  transitive : a.Less b strncmp junk → b.Less c strncmp junk → a.Less c strncmp junk
  trichotomous : a.Less b strncmp junk ∨ a.Equal b strncmp junk ∨ b.Less a strncmp junk
  less_unequal : a.Less b strncmp junk → ¬ a.Equal b strncmp junk
  less_asymmetric : a.Less b strncmp junk → ¬ b.Less a strncmp junk

/-- The relation that `operator <` decides is the lexicographic order. -/
theorem less_iff : a.Less b strncmp junk ↔ a.bytes < b.bytes := by
  simp [Less, less_eq]

/-- The relation that `operator ==` decides is equality of the bytes. -/
theorem equal_iff_bytes : a.Equal b strncmp junk ↔ a.bytes = b.bytes := by
  simp [Equal, equal_eq]

/-- Equality is decided for all values, whatever sign `strncmp` gives. -/
theorem equalDecides : a.EqualDecides b strncmp junk := by
  obtain ⟨b', hassign, hbytes⟩ := exists_copy b junk
  obtain ⟨a', hassign', hbytes'⟩ := exists_copy a junk
  refine ⟨⟨equal_eq strncmp a b junk, different_eq strncmp a b junk⟩, ⟨rfl, rfl⟩,
    ⟨equal_eq strncmp a b junk, different_eq strncmp a b junk⟩, ?_, ?_⟩
  · rw [StringObject.textEqual, hassign', Option.bind_some, equal_eq, hbytes']
  · rw [StringObject.textDifferent, hassign', Option.bind_some, different_eq, hbytes']

/-- The order is irreflexive, transitive and total up to equality, for all values. -/
theorem lessOrders : a.LessOrders b c strncmp junk where
  lexicographic := less_eq strncmp a b junk
  beginning := by
    intro w hw happend
    rw [less_iff, ← happend]
    exact lt_append hw
  irreflexive := by
    rw [less_eq]
    simp
  transitive := by
    rw [less_iff, less_iff, less_iff]
    exact List.lt_trans
  trichotomous := by
    rw [less_iff, less_iff, equal_iff_bytes]
    by_contra hnot
    push Not at hnot
    exact hnot.2.1 (List.le_antisymm hnot.2.2 hnot.1)
  less_unequal := by
    rw [less_iff, equal_iff_bytes]
    intro hlt heq
    rw [heq] at hlt
    exact List.lt_irrefl _ hlt
  less_asymmetric := by
    rw [less_iff, less_iff]
    exact List.lt_asymm

/-- For every `strncmp` and all strings of fewer than 2^31 bytes: `==` decides whether the bytes are
equal, and `<` is a total order consistent with it. The conversion of the sizes to `int` is what the
bound on the bytes is for, since a difference of sizes is used where one text begins the other. -/
theorem comparesTotally : a.EqualDecides b strncmp junk ∧ a.LessOrders b c strncmp junk :=
  ⟨a.equalDecides b strncmp junk, a.lessOrders b c strncmp junk⟩

end ShortValue

end Irstessi
