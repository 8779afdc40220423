import Irstessi.Occurrences
import Irstessi.StringAppend

/-!
# The characters of a string

A string whose text is UTF-8 to its end is a row of characters. The functions that search, cut and trim
count in characters, so their results are stated over the row; this module leads from the bytes to it
and says which strings have one.

* `Row`: the characters of a string; `exists_row`.
* `exists_assign`: what is constructed from characters, and from some of them.
* `wellFormed_of_assign`: a string that is constructed from UTF-8 without U+007F and with fewer than
  2^32 - 1 bytes holds whole characters.
* `cutString`: what is constructed from a longer text, of which half a character is held.

Between bytes and characters stands the row: the list of the sequences that a text is made of, each with
its bytes. `Row t L` says that the object `t` holds the concatenation of `L`; from it follow its length,
the start of each character and what the walks of `string.cpp` get to. The searches and cuts are then
proved on `L`, a list, and every statement about bytes at the end comes from `flatten`. The sample at
the end of the module shows why the number of bytes has to be below 2^32 - 1: the size is computed
modulo 2^32, and an object of a few bytes with half a character is made of four gigabytes.
-/

namespace Irstessi

/-- The characters of a string. -/
structure Row (t : StringValue) (L : List (List UInt8)) : Prop where
  sequences : ∀ c ∈ L, IsSequence c
  flatten : t.bytes = L.flatten
  length : t.object.m_length = L.length

/-- Every string value that the class can hold is a row of characters, found by walking its bytes
once. -/
theorem StringValue.exists_row (t : StringValue) : ∃ L, Row t L := by
  obtain ⟨L, hL, hflatten⟩ := t.wellFormed
  refine ⟨L, hL, hflatten, ?_⟩
  have hcount := utf8Length_of_le hL (.inl rfl) (Nat.le_refl L.flatten.length)
  rw [List.append_nil, ← hflatten] at hcount
  exact t.valid.length_eq.trans hcount

section row

variable {t : StringValue} {L : List (List UInt8)} (hL : Row t L)

include hL

/-- The text of the object is the concatenation of the row. -/
theorem Row.text_eq : t.object.text = L.flatten := t.valid.text_eq.trans hL.flatten

/-- No byte of a character is the NUL, which ends the text. -/
theorem Row.ne_zero : ∀ c ∈ L, ∀ b ∈ c, b ≠ 0 := by
  intro c hc b hb
  refine t.valid.ne_zero b ?_
  have hmem : b ∈ L.flatten := List.mem_flatten.mpr ⟨c, hc, hb⟩
  rwa [← hL.flatten] at hmem

/-- There are fewer characters than the 32-bit length can count. -/
theorem Row.length_lt : L.length < uintMax := by
  have hle := t.valid.length_le
  have hsize := t.valid.size_le
  rw [← hL.length]
  unfold uintMax
  omega

/-- Walking k characters from the start leads to the place where the k-th character starts. -/
theorem Row.distance_eq (k : Nat) :
    distance t.object.bytes (utf8Offset t.object.bytes k) = startOf L k := by
  have hwalk := distance_utf8Offset hL.sequences (.inl rfl) k
  rwa [List.append_nil, ← hL.flatten] at hwalk

/-- Counting the characters up to the start of the i-th one gives i. -/
theorem Row.utf8Length_eq {i : Nat} (hi : i ≤ L.length) :
    utf8Length t.object.bytes (startOf L i) = i := by
  have hwalk := utf8Length_startOf hL.sequences (.inl rfl) i
  rwa [List.append_nil, ← hL.flatten, Nat.min_eq_left hi] at hwalk

end row

/-! ## Construction -/

section construction

variable {D : List (List UInt8)} (hD : ∀ c ∈ D, IsSequence c)

include hD

/-- The walk over a row of characters drops one character a step. -/
theorem utf8Offset_flatten (k : Nat) : utf8Offset D.flatten k = (D.drop k).flatten := by
  have hwalk := utf8Offset_sequences hD (.inl rfl) k
  rwa [List.append_nil, List.append_nil] at hwalk

/-- The bytes of the first k characters are those in front of the k-th one. -/
theorem bytesOf_flatten (hlength : D.flatten.length < uintMax) (k : Nat) :
    StringObject.bytesOf D.flatten k = startOf D k := by
  have hwalk := distance_utf8Offset hD (.inl rfl) k
  rw [List.append_nil] at hwalk
  have hle := distance_le D.flatten (utf8Offset D.flatten k)
  unfold StringObject.bytesOf
  split
  next =>
    rw [hwalk] at hle ⊢
    unfold uintMax at hlength
    exact Nat.mod_eq_of_lt (by omega)
  next hk =>
    obtain rfl : k = 0 := by omega
    rfl

/-- The first `k` characters are assigned to an object. -/
theorem exists_assign {s : StringObject} (hs : s.Allocated) (junk : Nat → UInt8)
    (hne : ∀ c ∈ D, ∀ b ∈ c, b ≠ 0) (hlength : D.flatten.length < uintMax) (k : Nat) :
    ∃ s', s.assign junk (some D.flatten) k = some s' ∧ s'.Valid ∧ s'.bytes = (D.take k).flatten := by
  have hcount := bytesOf_flatten hD hlength k
  have hzero : ∀ b ∈ D.flatten, b ≠ 0 := by
    intro b hb
    obtain ⟨c, hc, hb⟩ := List.mem_flatten.mp hb
    exact hne c hc b hb
  have hcut : D.flatten = (D.take k).flatten ++ (D.drop k).flatten := by
    rw [← List.flatten_append, List.take_append_drop]
  have hle : startOf D k ≤ D.flatten.length := by
    rw [hcut, List.length_append]
    exact Nat.le_add_right _ _
  obtain ⟨s', hassign, hvalid, hbytes⟩ := hs.assign junk (some D.flatten) k
    (fun u hu => Option.some.inj hu ▸ hzero)
    (fun u hu => Option.some.inj hu ▸ (by omega))
  refine ⟨s', hassign, hvalid, hbytes.trans ?_⟩
  rw [takenText, hcount]
  nth_rewrite 1 [hcut]
  exact List.take_left

end construction

/-- What is constructed from fewer than 2^32-1 bytes of UTF-8 without U+007F holds whole characters. -/
theorem wellFormed_of_assign {u : Utf8Text} (hDEL : ∀ c ∈ u.chars, c ≠ DEL)
    (hlength : u.bytes.length < uintMax) {junk : Nat → UInt8} {k : Nat} {s : StringObject}
    (hassign : StringObject.new.assign junk (some u.bytes) k = some s) :
    s.Valid ∧ s.bytes = encode (u.chars.take k) ∧ WellFormed s.bytes := by
  have htake : ∀ c ∈ u.chars.take k, c ≠ DEL := fun c hc => hDEL c (List.mem_of_mem_take hc)
  have hcut : (encode (u.chars.take k)).length ≤ u.bytes.length := by
    have happend : u.bytes = encode (u.chars.take k) ++ encode (u.chars.drop k) := by
      rw [← encode_append, List.take_append_drop]
      rfl
    rw [happend, List.length_append]
    exact Nat.le_add_right _ _
  obtain ⟨s', hassign', htext⟩ := (keepsFirst_iff u junk k).mpr ⟨htake, by omega⟩
  obtain rfl := Option.some.inj (hassign.symm.trans hassign')
  obtain ⟨hvalid, -, -⟩ := StringObject.valid_of_assign (fun _ => u.ne_zero) hassign
  rw [hvalid.text_eq] at htext
  refine ⟨hvalid, htext, ?_⟩
  rw [htext, wellFormed_encode_iff]
  exact htake

/-! ## Half a character -/

/-- "aé…éa" with `n` accents. -/
def accentChars (n : Nat) : List Char := 'a' :: (List.replicate n 'é' ++ ['a'])

/-- The sample text has two characters only, of one byte and of two. -/
theorem eq_or_eq_of_mem_accentChars {n : Nat} {c : Char} (hc : c ∈ accentChars n) :
    c = 'a' ∨ c = 'é' := by
  simp only [accentChars, List.mem_cons, List.mem_append, List.mem_replicate, List.not_mem_nil,
    or_false] at hc
  rcases hc with rfl | ⟨-, rfl⟩ | rfl
  · exact .inl rfl
  · exact .inr rfl
  · exact .inl rfl

/-- The text of these characters. -/
def accents (n : Nat) : Utf8Text where
  chars := accentChars n
  nonzero := by
    intro c hc
    rcases eq_or_eq_of_mem_accentChars hc with rfl | rfl <;> decide

/-- The bytes of the sample: an `a`, n times the two bytes of the accent, and an `a`. -/
theorem bytes_accents (n : Nat) :
    (accents n).bytes = 97 :: ((List.replicate n [0xc3, 0xa9]).flatten ++ [97]) := by
  have hletter : String.utf8EncodeChar 'a' = [97] := by decide
  have haccent : String.utf8EncodeChar 'é' = [0xc3, 0xa9] := by decide
  unfold Utf8Text.bytes accents accentChars
  rw [encode_cons, encode_append, hletter, encode_eq_flatten, List.map_replicate, haccent,
    encode_cons, hletter, encode_nil]
  rfl

/-- Its length in bytes is almost twice that in characters, which is what makes the 32-bit sizes
wrap. -/
theorem length_accents (n : Nat) : (accents n).bytes.length = 2 * n + 2 := by
  simp [bytes_accents, Nat.mul_comm]

/-- The sample avoids U+007F, which the class does not read as a character. -/
theorem not_DEL_of_mem_accents (n : Nat) : ∀ c ∈ (accents n).chars, c ≠ DEL := by
  intro c hc
  rcases eq_or_eq_of_mem_accentChars hc with rfl | rfl <;> decide

/-- The number of bytes is 2 as an `unsigned int`. -/
theorem bytesOf_accents {n : Nat} (hn : n = 2 ^ 31) :
    StringObject.bytesOf (accents n).bytes uintMax = 2 := by
  have hcount := bytesOf_encode (accents n).chars uintMax
  have hall : (accents n).chars.take uintMax = (accents n).chars := by
    apply List.take_of_length_le
    unfold uintMax
    simp only [accents, accentChars, List.length_cons, List.length_append, List.length_replicate,
      List.length_nil]
    omega
  have hself : (accents n).chars.takeWhile (· ≠ DEL) = (accents n).chars :=
    List.takeWhile_eq_self_iff.mpr (by simpa using not_DEL_of_mem_accents n)
  have hlength := length_accents n
  unfold Utf8Text.bytes at hlength ⊢
  rw [hcount, hall, hself, hlength, hn]
  decide

/-- At 2^31 accents the size in bytes wraps around to 2, and an object of two bytes is made. -/
theorem assign_accents {n : Nat} (hn : n = 2 ^ 31) :
    StringObject.new.assign (fun _ => 0) (some (accents n).bytes) uintMax =
      some ⟨[97, 0xc3, 0], 1, 2, 3⟩ := by
  obtain ⟨m, hm⟩ : ∃ m, n = m + 1 := ⟨n - 1, by omega⟩
  have htake : (accents n).bytes.take 2 = [97, 0xc3] := by
    rw [bytes_accents, hm, List.replicate_succ]
    rfl
  unfold StringObject.assign
  dsimp only
  rw [bytesOf_accents hn]
  have hcopy : ∀ s : StringObject, s.copy (accents n).bytes 0 2 = s.copy [97, 0xc3] 0 2 := by
    intro s
    unfold StringObject.copy
    rw [htake]
    rfl
  simp only [hcopy]
  decide +kernel

/-- The string that is constructed from 2^32+2 bytes and holds two of them, "a" and half a character. -/
def cutString : PlainString where
  toStringObject := ⟨[97, 0xc3, 0], 1, 2, 3⟩
  constructed :=
    ⟨accents (2 ^ 31), fun _ => 0, 0xffffffff, not_DEL_of_mem_accents _, assign_accents rfl⟩

/-- The string "a". -/
def letterA : PlainString where
  toStringObject := ⟨[97, 0], 1, 1, 2⟩
  constructed := ⟨⟨['a'], by simp⟩, fun _ => 0, 0xffffffff, by simp [DEL], by decide +kernel⟩

end Irstessi
