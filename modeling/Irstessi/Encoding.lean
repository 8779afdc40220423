import Irstessi.StringObject

/-!
# Construction from UTF-8

A well-formed text is the encoding of characters. The walk of `string.cpp` reads the encoding of every
character but U+007F.

* `Utf8Text`: characters without NUL; `Utf8Text.bytes`: their encoding.
* `isSequence_utf8EncodeChar`: the encoding of a character but U+007F is a sequence of the walk.
* `utf8Offset_encode`: where the walk over an encoding gets to.
* **`keepsCharacters_iff`**: `String(t, k)` holds the bytes of the first `k` characters iff U+007F is
  not among them and they take fewer than 2^32-1 bytes.

Lean's own characters and their encoding `String.utf8EncodeChar` stand for well-formed UTF-8, so that no
second definition of the encoding is needed. The walk of the source is compared with it character by
character: the lead byte announces as many bytes as the encoding has, and each of the others is a
continuation. U+007F is the one exception: the comparison in the source is with 0x7f and not with 0x80.
A construction from `k` characters then holds the bytes of these characters, as long as their number of
bytes fits into the 32-bit size.
-/

namespace Irstessi

/-- The bytes of a text in UTF-8. -/
def encode (cs : List Char) : List UInt8 := cs.flatMap String.utf8EncodeChar

/-- The character whose byte begins no sequence. -/
def DEL : Char := '\x7f'

/-- A text without NUL. -/
structure Utf8Text where
  chars : List Char
  nonzero : ∀ c ∈ chars, c ≠ '\x00'

/-- The bytes of the text. -/
def Utf8Text.bytes (t : Utf8Text) : List UInt8 := encode t.chars

/-- No characters are no bytes. -/
@[simp] theorem encode_nil : encode [] = [] := rfl

/-- The first character's bytes come first. -/
@[simp] theorem encode_cons (c : Char) (cs : List Char) :
    encode (c :: cs) = String.utf8EncodeChar c ++ encode cs := rfl

/-- Rows of characters are encoded one behind the other. -/
@[simp] theorem encode_append (cs ds : List Char) : encode (cs ++ ds) = encode cs ++ encode ds :=
  List.flatMap_append

/-- The bytes of a text are the rows of bytes of its characters, one after the other. -/
theorem encode_eq_flatten (cs : List Char) : encode cs = (cs.map String.utf8EncodeChar).flatten :=
  List.flatMap_def ..

/-! ## Encodings as sequences -/

section classes

variable {n : Nat}

/-- The lead byte of two announces two bytes. -/
theorem utf8SequenceType_ofNat_two (h : n < 0x20) : utf8SequenceType (.ofNat (n + 0xc0)) = 2 := by
  have hall : ∀ n < 0x20, utf8SequenceType (.ofNat (n + 0xc0)) = 2 := by decide
  exact hall n h

/-- The lead byte of three announces three bytes. -/
theorem utf8SequenceType_ofNat_three (h : n < 0x10) : utf8SequenceType (.ofNat (n + 0xe0)) = 3 := by
  have hall : ∀ n < 0x10, utf8SequenceType (.ofNat (n + 0xe0)) = 3 := by decide
  exact hall n h

/-- The lead byte of four announces four bytes. -/
theorem utf8SequenceType_ofNat_four (h : n < 0x08) : utf8SequenceType (.ofNat (n + 0xf0)) = 4 := by
  have hall : ∀ n < 0x08, utf8SequenceType (.ofNat (n + 0xf0)) = 4 := by decide
  exact hall n h

/-- Six bits behind the mark are a continuation byte. -/
theorem isContinuation_ofNat (h : n < 0x40) : IsContinuation (.ofNat (n + 0x80)) := by
  have hall : ∀ n < 0x40, IsContinuation (.ofNat (n + 0x80)) := by decide
  exact hall n h

end classes

/-- The encoding of a character but U+007F is a sequence, one case for each number of bytes. -/
theorem isSequence_utf8EncodeChar {c : Char} (hc : c ≠ DEL) : IsSequence (String.utf8EncodeChar c) := by
  have hne : c.val.toNat ≠ 0x7f := by
    intro h
    exact hc (Char.ext (UInt32.toNat_inj.mp h))
  unfold String.utf8EncodeChar
  dsimp only
  split_ifs with hone htwo hthree
  · apply isSequence_singleton
    rw [UInt8.lt_iff_toNat_lt, UInt8.toNat_ofNat']
    have hbound : (0x7f : UInt8).toNat = 0x7f := rfl
    omega
  · refine ⟨_, _, rfl, utf8SequenceType_ofNat_two (Nat.mod_lt _ (by simp)), ?_⟩
    rw [List.forall_mem_singleton]
    exact isContinuation_ofNat (Nat.mod_lt _ (by simp))
  · refine ⟨_, _, rfl, utf8SequenceType_ofNat_three (Nat.mod_lt _ (by simp)), ?_⟩
    rw [List.forall_mem_cons, List.forall_mem_singleton]
    exact ⟨isContinuation_ofNat (Nat.mod_lt _ (by simp)),
      isContinuation_ofNat (Nat.mod_lt _ (by simp))⟩
  · refine ⟨_, _, rfl, utf8SequenceType_ofNat_four (Nat.mod_lt _ (by simp)), ?_⟩
    rw [List.forall_mem_cons, List.forall_mem_cons, List.forall_mem_singleton]
    exact ⟨isContinuation_ofNat (Nat.mod_lt _ (by simp)),
      isContinuation_ofNat (Nat.mod_lt _ (by simp)), isContinuation_ofNat (Nat.mod_lt _ (by simp))⟩

/-- The characters of a text without U+007F are sequences that the walk reads. -/
theorem isSequence_map {cs : List Char} (hcs : ∀ c ∈ cs, c ≠ DEL) :
    ∀ u ∈ cs.map String.utf8EncodeChar, IsSequence u := by
  intro u hu
  obtain ⟨c, hc, rfl⟩ := List.mem_map.mp hu
  exact isSequence_utf8EncodeChar (hcs c hc)

/-- Without U+007F a text is read to its end. -/
theorem wellFormed_encode_iff (cs : List Char) : WellFormed (encode cs) ↔ ∀ c ∈ cs, c ≠ DEL := by
  constructor
  · rintro hwell c hc rfl
    exact hwell.not_mem_del (List.mem_flatMap.mpr ⟨DEL, hc, by decide⟩)
  · exact fun hcs => ⟨_, isSequence_map hcs, encode_eq_flatten cs⟩

/-- A character has at least one byte. -/
theorem utf8EncodeChar_ne_nil (c : Char) : String.utf8EncodeChar c ≠ [] := by
  unfold String.utf8EncodeChar
  dsimp only
  split_ifs <;> exact List.cons_ne_nil _ _

/-- A sum without a carry out of the byte. -/
theorem ofNat_add_ne_zero {n m : Nat} (hm : 0 < m) (h : n + m < 256) : UInt8.ofNat (n + m) ≠ 0 := by
  rw [ne_eq, ← UInt8.toNat_inj, UInt8.toNat_ofNat', Nat.mod_eq_of_lt h]
  have hzero : (0 : UInt8).toNat = 0 := rfl
  omega

/-- Only NUL is encoded with a NUL. -/
theorem ne_zero_of_mem_utf8EncodeChar {c : Char} (hc : c ≠ '\x00') {b : UInt8}
    (hb : b ∈ String.utf8EncodeChar c) : b ≠ 0 := by
  have hne : c.val.toNat ≠ 0 := by
    intro h
    exact hc (Char.ext (UInt32.toNat_inj.mp h))
  unfold String.utf8EncodeChar at hb
  dsimp only at hb
  split_ifs at hb with hone htwo hthree
  · rw [List.mem_singleton] at hb
    rw [hb, ne_eq, ← UInt8.toNat_inj, UInt8.toNat_ofNat', Nat.mod_eq_of_lt (by omega)]
    exact hne
  all_goals
    simp only [List.mem_cons, List.not_mem_nil, or_false] at hb
    rcases hb with rfl | rfl | rfl | rfl <;> exact ofNat_add_ne_zero (by simp) (by omega)

/-- The bytes of a text without the NUL character have no NUL byte. -/
theorem Utf8Text.ne_zero (t : Utf8Text) {b : UInt8} (hb : b ∈ t.bytes) : b ≠ 0 := by
  obtain ⟨c, hc, hb⟩ := List.mem_flatMap.mp hb
  exact ne_zero_of_mem_utf8EncodeChar (t.nonzero c hc) hb

/-- There are no more characters than bytes. -/
theorem length_le_length_encode (cs : List Char) : cs.length ≤ (encode cs).length := by
  induction cs with
  | nil => simp
  | cons c cs ih =>
      have hpos := List.length_pos_iff.mpr (utf8EncodeChar_ne_nil c)
      rw [encode_cons, List.length_append, List.length_cons]
      omega

/-! ## The walk over an encoding -/

/-- At U+007F the walk stops. -/
theorem stuck_encode {cs : List Char} (h : ∀ c ∈ cs.head?, c = DEL) : Stuck (encode cs) := by
  cases cs with
  | nil => exact .inl rfl
  | cons c cs =>
      have hDEL : String.utf8EncodeChar DEL = [0x7f] := by decide
      have htype : utf8SequenceType 0x7f = 0 := by decide
      right
      rw [h c rfl, encode_cons, hDEL, List.singleton_append, utf8SkipSequence, List.headD_cons, htype]
      rfl

/-- The walk goes as far as asked for, and not beyond the first U+007F. -/
theorem utf8Offset_encode (cs : List Char) (k : Nat) :
    utf8Offset (encode cs) k =
      encode ((cs.takeWhile (· ≠ DEL)).drop k ++ cs.dropWhile (· ≠ DEL)) := by
  have hseq : ∀ c ∈ (cs.takeWhile (· ≠ DEL)).map String.utf8EncodeChar, IsSequence c := by
    intro u hu
    obtain ⟨c, hc, rfl⟩ := List.mem_map.mp hu
    exact isSequence_utf8EncodeChar (by simpa using List.mem_takeWhile_imp hc)
  have hstuck : Stuck (encode (cs.dropWhile (· ≠ DEL))) := by
    apply stuck_encode
    intro c hc
    have hhead := List.head?_dropWhile_not (· ≠ DEL) cs
    rw [Option.mem_def.mp hc] at hhead
    simpa using hhead
  have hwalk := utf8Offset_sequences hseq hstuck k
  rw [← encode_eq_flatten, ← encode_append, List.takeWhile_append_dropWhile, ← List.map_drop,
    ← encode_eq_flatten, ← encode_append] at hwalk
  exact hwalk

/-- The number of bytes that are taken. -/
theorem bytesOf_encode (cs : List Char) (k : Nat) :
    StringObject.bytesOf (encode cs) k =
      toUnsigned (encode ((cs.take k).takeWhile (· ≠ DEL))).length := by
  have hcut : cs = (cs.takeWhile (· ≠ DEL)).take k ++
      ((cs.takeWhile (· ≠ DEL)).drop k ++ cs.dropWhile (· ≠ DEL)) := by
    rw [← List.append_assoc, List.take_append_drop, List.takeWhile_append_dropWhile]
  have hlength := congrArg List.length (congrArg encode hcut)
  rw [encode_append, List.length_append] at hlength
  unfold StringObject.bytesOf
  split
  next hk =>
    rw [utf8Offset_encode, distance, hlength, Nat.add_sub_cancel, List.take_takeWhile]
  next hk =>
    obtain rfl : k = 0 := by omega
    rfl

/-! ## What is kept -/

/-- Characters whose encoding is as long as that of all of them are all. -/
theorem takeWhile_eq_self {cs : List Char} {p : Char → Bool}
    (h : (encode cs).length ≤ (encode (cs.takeWhile p)).length) : cs.takeWhile p = cs := by
  have hcut : (encode (cs.takeWhile p ++ cs.dropWhile p)).length = (encode cs).length := by
    rw [List.takeWhile_append_dropWhile]
  rw [encode_append, List.length_append] at hcut
  have hnone : cs.dropWhile p = [] := by
    have hle := length_le_length_encode (cs.dropWhile p)
    exact List.eq_nil_of_length_eq_zero (by omega)
  have hself := List.takeWhile_append_dropWhile (p := p) (l := cs)
  rwa [hnone, List.append_nil] at hself

/-- An object that has been constructed is valid and holds the bytes that are taken. -/
theorem StringObject.valid_of_assign {junk : Nat → UInt8} {u : List UInt8} {k : Nat}
    {s : StringObject} (hu : ∀ b ∈ u, b ≠ 0)
    (hassign : StringObject.new.assign junk (some u) k = some s) :
    s.Valid ∧ s.bytes = u.take (StringObject.bytesOf u k) ∧ StringObject.bytesOf u k ≠ uintMax := by
  have hfits : StringObject.bytesOf u k ≠ uintMax := by
    intro hmax
    rw [StringObject.allocated_new.assign_of_eq hmax] at hassign
    simp at hassign
  obtain ⟨s', hassign', hvalid, hbytes⟩ := StringObject.allocated_new.assign junk (some u) k
    (fun v hv => Option.some.inj hv ▸ hu) fun v hv => Option.some.inj hv ▸ hfits
  obtain rfl := Option.some.inj (hassign.symm.trans hassign')
  exact ⟨hvalid, hbytes, hfits⟩

/-- The first `k` characters are kept iff the walk reads them all and they fit. -/
theorem keepsFirst_iff (t : Utf8Text) (junk : Nat → UInt8) (k : Nat) :
    (∃ s, StringObject.new.assign junk (some t.bytes) k = some s ∧ s.text = encode (t.chars.take k)) ↔
      (∀ c ∈ t.chars.take k, c ≠ DEL) ∧ (encode (t.chars.take k)).length < uintMax := by
  have hcount := bytesOf_encode t.chars k
  have htaken : (encode (t.chars.take k)) = t.bytes.take (encode (t.chars.take k)).length := by
    have hcut : t.bytes = encode (t.chars.take k) ++ encode (t.chars.drop k) := by
      rw [← encode_append, List.take_append_drop]
      rfl
    rw [hcut, List.take_left]
  constructor
  · rintro ⟨s, hassign, htext⟩
    obtain ⟨hvalid, hbytes, hfits⟩ := StringObject.valid_of_assign (fun _ => t.ne_zero) hassign
    have hlength : (encode (t.chars.take k)).length = StringObject.bytesOf t.bytes k := by
      rw [← htext, hvalid.text_eq, hbytes, List.length_take]
      exact Nat.min_eq_left (bytesOf_le _ _)
    have hmod : (encode (t.chars.take k)).length =
        toUnsigned (encode ((t.chars.take k).takeWhile (· ≠ DEL))).length := hlength.trans hcount
    have hall : (t.chars.take k).takeWhile (· ≠ DEL) = t.chars.take k := by
      apply takeWhile_eq_self
      rw [hmod]
      exact Nat.mod_le _ _
    constructor
    · intro c hc
      rw [← hall] at hc
      simpa using List.mem_takeWhile_imp hc
    · have hle := bytesOf_le_uintMax t.bytes k
      omega
  · rintro ⟨hall, hfew⟩
    have hself : (t.chars.take k).takeWhile (· ≠ DEL) = t.chars.take k :=
      List.takeWhile_eq_self_iff.mpr (by simpa using hall)
    have hbytesOf : StringObject.bytesOf t.bytes k = (encode (t.chars.take k)).length := by
      rw [hself] at hcount
      refine hcount.trans (Nat.mod_eq_of_lt ?_)
      unfold uintMax at hfew
      omega
    obtain ⟨s, hassign, hvalid, hbytes⟩ := StringObject.allocated_new.assign junk
      (some t.bytes) k (fun u hu => Option.some.inj hu ▸ fun _ => t.ne_zero)
      fun u hu => Option.some.inj hu ▸ (by omega)
    refine ⟨s, hassign, ?_⟩
    rw [hvalid.text_eq, hbytes, takenText, hbytesOf, ← htaken]

/-- For every text `t` without NUL and every `k`: `String(t, k)` holds the bytes of the first `k`
characters iff U+007F is not among them and they fit; `String(t)` holds all bytes iff no character is
U+007F and they fit. -/
theorem keepsCharacters_iff (t : Utf8Text) (junk : Nat → UInt8) (k : UInt32) :
    ((∃ s, StringObject.new.assign junk (some t.bytes) k.toNat = some s ∧
        s.text = encode (t.chars.take k.toNat)) ↔
      (∀ c ∈ t.chars.take k.toNat, c ≠ DEL) ∧ (encode (t.chars.take k.toNat)).length < uintMax) ∧
    ((∃ s, StringObject.new.assign junk (some t.bytes) uintMax = some s ∧ s.text = t.bytes) ↔
      (∀ c ∈ t.chars, c ≠ DEL) ∧ t.bytes.length < uintMax) := by
  refine ⟨keepsFirst_iff t junk k.toNat, ?_⟩
  have hlength := length_le_length_encode t.chars
  by_cases hfew : t.chars.length ≤ uintMax
  · have hfirst := keepsFirst_iff t junk uintMax
    rw [List.take_of_length_le hfew] at hfirst
    exact hfirst
  · refine iff_of_false ?_ fun hfits => hfew ?_
    · rintro ⟨s, hassign, htext⟩
      obtain ⟨hvalid, -, -⟩ := StringObject.valid_of_assign (fun _ => t.ne_zero) hassign
      have hsize := hvalid.size_le
      rw [← hvalid.length_bytes, ← hvalid.text_eq, htext] at hsize
      unfold Utf8Text.bytes at hsize
      unfold uintMax at hfew
      omega
    · exact hlength.trans hfits.2.le

/-- U+007F alone. -/
def delText : Utf8Text := ⟨[DEL], by simp [DEL]⟩

/-- Nothing is held of the text. -/
theorem not_keepsCharacters_DEL :
    ¬ ∀ (t : Utf8Text) (junk : Nat → UInt8) (k : UInt32),
      ∃ s, StringObject.new.assign junk (some t.bytes) k.toNat = some s ∧
        s.text = encode (t.chars.take k.toNat) := by
  intro h
  obtain ⟨s, hassign, htext⟩ := h delText (fun _ => 0) 0xffffffff
  have hnew : StringObject.new.assign (fun _ => 0) (some delText.bytes) (0xffffffff : UInt32).toNat =
      some ⟨[0], 0, 0, 1⟩ := by decide +kernel
  obtain rfl := Option.some.inj (hnew.symm.trans hassign)
  exact absurd htext (by decide +kernel)

end Irstessi
