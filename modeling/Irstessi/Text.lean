import Irstessi.Str

/-!
# Well-formed texts in a `Str`

What the operations of `class String` do on texts that the UTF-8 walk reads to the end, and what
the plain search does on any object.

* `ofBytes_sequences`, `ofBytes_buffer`: construction stores a well-formed text as it is.
* `wellFormed_append_cons_iff`: a single-byte separator cuts a well-formed text into two.
* `leftOf_separator`, `after_separator`, `reverseLeft_separator`, `reverseAfter_separator`: the
  bytes that the cutting operations return.
* `find_isSome_iff`: `find` from the beginning succeeds exactly where the bytes occur.
* `trim_line`: trimming takes the line end off a text.
* `append_eq_ofBytes`: appending to a text of single-byte characters is concatenation.
* `equal_iff`: `==` compares bytes.
* `Strncmp`: an implementation of `strncmp`, of which only the sign is known; `byteDifference` is one.
* `shellCap`: the capture of a command's output, `shellCap_of_singleBytes`.

The operations count characters, and for well-formed texts this comes to the bytes: a position behind a
row of sequences is found by their number. A separator is a byte below 127, which is a sequence by
itself and within no other, so that a text can be cut there. With these lemmas no later proof has to
look at the walk over the characters. Two cases are kept apart: texts that are well-formed, for cutting
and comparing, and those of single-byte characters, where the count is the number of bytes and appending
is concatenation.
-/

namespace Irstessi

open Occurrence Blocks

/-! ## Well-formed texts -/

/-- The empty text is well-formed. -/
theorem wellFormed_nil : WellFormed [] := ⟨[], by simp, rfl⟩

/-- Well-formed texts are concatenated to one. -/
theorem WellFormed.append {u v : List UInt8} (hu : WellFormed u) (hv : WellFormed v) :
    WellFormed (u ++ v) := by
  obtain ⟨l, hl, rfl⟩ := hu
  obtain ⟨r, hr, rfl⟩ := hv
  exact ⟨l ++ r, List.forall_mem_append.mpr ⟨hl, hr⟩, List.flatten_append.symm⟩

/-- Bytes below `0x7f` are characters of their own. -/
def SingleBytes (t : List UInt8) : Prop := ∀ b ∈ t, b < 0x7f

instance (t : List UInt8) : Decidable (SingleBytes t) :=
  decidable_of_iff (t.all fun b => b.toNat < 0x7f)
    (by simp [SingleBytes, UInt8.lt_iff_toNat_lt])

/-- A text of single-byte characters, cut into its characters. -/
theorem SingleBytes.flatten_map_singleton (t : List UInt8) : (t.map fun b => [b]).flatten = t := by
  induction t with
  | nil => rfl
  | cons b t ih => simp [ih]

/-- A single-byte text is a row of sequences of one byte. -/
theorem SingleBytes.isSequence {t : List UInt8} (h : SingleBytes t) :
    ∀ c ∈ t.map fun b => [b], IsSequence c := by
  intro c hc
  obtain ⟨b, hb, rfl⟩ := List.mem_map.mp hc
  exact isSequence_singleton (h b hb)

/-- A single-byte text is well-formed. -/
theorem SingleBytes.wellFormed {t : List UInt8} (h : SingleBytes t) : WellFormed t :=
  ⟨_, h.isSequence, (flatten_map_singleton t).symm⟩

/-- Single-byte texts are concatenated to one. -/
theorem SingleBytes.append {u v : List UInt8} (hu : SingleBytes u) (hv : SingleBytes v) :
    SingleBytes (u ++ v) := List.forall_mem_append.mpr ⟨hu, hv⟩

/-- A sequence that begins with a byte below `0x7f` is that byte. -/
theorem IsSequence.eq_singleton {b : UInt8} {t : List UInt8} (hb : b < 0x7f)
    (h : IsSequence (b :: t)) : t = [] := by
  obtain ⟨b', t', heq, htype, -⟩ := h
  obtain ⟨rfl, rfl⟩ := List.cons.inj heq
  rw [utf8SequenceType_of_lt hb] at htype
  exact List.eq_nil_of_length_eq_zero (by omega)

/-- The byte of U+007F is in no sequence. -/
theorem IsSequence.not_mem_del {c : List UInt8} (hc : IsSequence c) : (0x7f : UInt8) ∉ c := by
  obtain ⟨b, t, rfl, htype, ht⟩ := hc
  intro hmem
  rcases List.mem_cons.mp hmem with rfl | hmem
  · have hzero : utf8SequenceType 0x7f = 0 := by decide
    omega
  · exact absurd (ht _ hmem) (by decide)

/-- A well-formed text has no U+007F, which the class takes for no character. -/
theorem WellFormed.not_mem_del {t : List UInt8} (ht : WellFormed t) : (0x7f : UInt8) ∉ t := by
  obtain ⟨cs, hcs, rfl⟩ := ht
  intro hmem
  obtain ⟨c, hc, hmem⟩ := List.mem_flatten.mp hmem
  exact (hcs c hc).not_mem_del hmem

/-- The ASCII characters of a text are single bytes. -/
theorem WellFormed.lt_of_mem {t : List UInt8} (ht : WellFormed t) {b : UInt8} (hb : b ∈ t)
    (hascii : b < 0x80) : b < 0x7f := by
  have hne : b ≠ 0x7f := ne_of_mem_of_not_mem hb ht.not_mem_del
  rw [ne_eq, ← UInt8.toNat_inj] at hne
  rw [UInt8.lt_iff_toNat_lt] at hascii ⊢
  change b.toNat < 128 at hascii
  change ¬ b.toNat = 127 at hne
  change b.toNat < 127
  omega

/-! ### Separators -/

/-- The newline is a byte that can separate texts. -/
theorem newline_lt : (10 : UInt8) < 0x7f := by decide

/-- So is the blank. -/
theorem blank_lt : (32 : UInt8) < 0x7f := by decide

/-- So is the dot. -/
theorem dot_lt : (46 : UInt8) < 0x7f := by decide

/-- So is the slash. -/
theorem slash_lt : (47 : UInt8) < 0x7f := by decide

/-- So is the colon. -/
theorem colon_lt : (58 : UInt8) < 0x7f := by decide

/-- A single byte continues no sequence. -/
theorem not_isContinuation_of_lt {b : UInt8} (hb : b < 0x7f) : ¬ IsContinuation b :=
  not_isContinuation_of_sequenceType (by rw [utf8SequenceType_of_lt hb]; omega)

/-- The sequences of a text are split by a single-byte separator. -/
theorem exists_split_separator {cs : List (List UInt8)} (hcs : ∀ c ∈ cs, IsSequence c) {b : UInt8}
    (hb : b < 0x7f) {u v : List UInt8} (h : cs.flatten = u ++ b :: v) :
    ∃ l r, cs = l ++ [b] :: r ∧ l.flatten = u ∧ r.flatten = v := by
  obtain ⟨l, r, rfl, hl, hr⟩ :=
    exists_split (allBlocks_of_isSequence hcs) (not_isContinuation_of_lt hb) h
  rcases r with _ | ⟨c, r⟩
  · simp at hr
  · have hc := hcs c (by simp)
    obtain ⟨a, t, rfl, -, -⟩ := hc.isBlock
    simp only [List.flatten_cons, List.cons_append, List.cons.injEq] at hr
    obtain ⟨rfl, hr⟩ := hr
    obtain rfl := hc.eq_singleton hb
    exact ⟨l, r, rfl, hl, hr⟩

/-- A single-byte separator cuts a well-formed text into two. -/
theorem wellFormed_append_cons_iff {b : UInt8} (hb : b < 0x7f) {u v : List UInt8} :
    WellFormed (u ++ b :: v) ↔ WellFormed u ∧ WellFormed v := by
  constructor
  · rintro ⟨cs, hcs, h⟩
    obtain ⟨l, r, rfl, rfl, rfl⟩ := exists_split_separator hcs hb h.symm
    exact ⟨⟨l, fun c hc => hcs c (by simp [hc]), rfl⟩, ⟨r, fun c hc => hcs c (by simp [hc]), rfl⟩⟩
  · rintro ⟨hu, hv⟩
    have hcons : WellFormed ([b] ++ v) :=
      WellFormed.append ⟨[[b]], by simpa using isSequence_singleton hb, rfl⟩ hv
    exact hu.append hcons

namespace Str

/-! ## Construction -/

/-- `assign` stores as many of the sequences as asked for. -/
theorem assign_sequences {cs : List (List UInt8)} {tail : List UInt8}
    (hcs : ∀ c ∈ cs, IsSequence c) (htail : Stuck tail) (k : Nat) :
    assign (cs.flatten ++ tail) k = ⟨(cs.take k).flatten, (cs.take k).length⟩ := by
  have hcut : cs.flatten = (cs.take k).flatten ++ (cs.drop k).flatten := by
    rw [← List.flatten_append, List.take_append_drop]
  have hcount : (if 0 < k then distance (cs.flatten ++ tail) (utf8Offset (cs.flatten ++ tail) k)
      else 0) = (cs.take k).flatten.length := by
    split
    · rw [utf8Offset_sequences hcs htail, distance, hcut]
      simp only [List.length_append]
      omega
    · rw [show k = 0 by omega]
      rfl
  have hbytes : (cs.flatten ++ tail).take (cs.take k).flatten.length = (cs.take k).flatten := by
    rw [hcut, List.append_assoc, List.take_left']
    rfl
  have htake : ∀ c ∈ cs.take k, IsSequence c := fun c hc => hcs c (List.mem_of_mem_take hc)
  have hlen := utf8Length_sequences htake (.inl rfl) (cs.take k).length
  rw [List.append_nil, List.take_length] at hlen
  simp only [assign, hcount, copy, empty, List.take_nil, List.nil_append, hbytes, npos, hlen]

/-- Construction stores the sequences before the walk stops. -/
theorem ofBytes_sequences {cs : List (List UInt8)} {tail : List UInt8}
    (hcs : ∀ c ∈ cs, IsSequence c) (htail : Stuck tail) :
    ofBytes (cs.flatten ++ tail) = ⟨cs.flatten, cs.length⟩ := by
  have hle := length_le_length_flatten (allBlocks_of_isSequence hcs)
  rw [ofBytes, assign_sequences hcs htail, npos, List.length_append,
    List.take_of_length_le (by omega)]

/-- A row of sequences is held as it is, with as many characters. -/
theorem ofBytes_flatten {cs : List (List UInt8)} (hcs : ∀ c ∈ cs, IsSequence c) :
    ofBytes cs.flatten = ⟨cs.flatten, cs.length⟩ := by
  simpa using ofBytes_sequences hcs (.inl rfl)

/-- The empty text makes the empty string. -/
@[simp] theorem ofBytes_nil : ofBytes [] = empty := rfl

/-- Construction stores a well-formed text as it is. -/
theorem ofBytes_buffer {t : List UInt8} (h : WellFormed t) : (ofBytes t).m_buffer = t := by
  obtain ⟨cs, hcs, rfl⟩ := h
  rw [ofBytes_flatten hcs]

/-- What an assignment stores is well formed. -/
theorem wellFormed_assign (t : List UInt8) (k : Nat) : WellFormed (assign t k).m_buffer := by
  obtain ⟨cs, tail, hcs, htail, rfl⟩ := exists_sequences t
  rw [assign_sequences hcs htail]
  exact ⟨cs.take k, fun c hc => hcs c (List.mem_of_mem_take hc), rfl⟩

/-- Whatever bytes it is given, the class holds a well-formed text. -/
theorem wellFormed_ofBytes (t : List UInt8) : WellFormed (ofBytes t).m_buffer := wellFormed_assign t _

/-- Constructing again changes nothing. -/
theorem ofBytes_ofBytes (t : List UInt8) : ofBytes (ofBytes t).m_buffer = ofBytes t := by
  obtain ⟨cs, tail, hcs, htail, rfl⟩ := exists_sequences t
  rw [ofBytes_sequences hcs htail]
  exact ofBytes_flatten hcs

/-- A text of single-byte characters has as many characters as bytes. -/
theorem ofBytes_of_singleBytes {t : List UInt8} (h : SingleBytes t) : ofBytes t = ⟨t, t.length⟩ := by
  have hof := ofBytes_flatten h.isSequence
  rwa [SingleBytes.flatten_map_singleton, List.length_map] at hof

/-- As many characters as there are single bytes in front are these bytes, whatever follows. -/
theorem assign_append_of_singleBytes {u : List UInt8} (hu : SingleBytes u) (x : List UInt8) :
    assign (u ++ x) u.length = ofBytes u := by
  obtain ⟨cs, tail, hcs, htail, rfl⟩ := exists_sequences x
  have hall : ∀ c ∈ (u.map fun b => [b]) ++ cs, IsSequence c :=
    List.forall_mem_append.mpr ⟨hu.isSequence, hcs⟩
  have htext : u ++ (cs.flatten ++ tail) = ((u.map fun b => [b]) ++ cs).flatten ++ tail := by
    rw [List.flatten_append, SingleBytes.flatten_map_singleton, List.append_assoc]
  have hcount : u.length = (u.map fun b => [b]).length := List.length_map _ |>.symm
  rw [htext, assign_sequences hall htail, hcount, List.take_left, SingleBytes.flatten_map_singleton,
    ← hcount, ofBytes_of_singleBytes hu]

/-! ## Reading -/

section read

variable {u : List UInt8} (hnul : 0 ∉ u) (hlength : u.length < 2 ^ 32)

include hnul in
/-- The buffer of a read ends at the first NUL behind what has been read. -/
theorem takeWhile_read (behind : List UInt8) :
    (u ++ behind).takeWhile (· ≠ 0) = u ++ behind.takeWhile (· ≠ 0) := by
  refine List.takeWhile_append_of_pos fun b hb => ?_
  rw [decide_eq_true_iff]
  rintro rfl
  exact hnul hb

include hnul hlength

/-- Single-byte characters are read as they are, whatever stands behind them. -/
theorem ofRead_of_singleBytes (hu : SingleBytes u) (behind : List UInt8) :
    ofRead u behind = ofBytes u := by
  rw [ofRead, takeWhile_read hnul, Nat.mod_eq_of_lt hlength, assign_append_of_singleBytes hu]

end read

/-! ## Search -/

/-- A walk over no characters stays where it is. -/
theorem distance_utf8Offset_zero (buf : List UInt8) : distance buf (utf8Offset buf 0) = 0 := by
  cases buf <;> simp [utf8Offset, distance]

/-- A search from the start gives the position in characters of the first occurrence in bytes. -/
theorem find_zero (s : Str) (pat : List UInt8) :
    s.find pat 0 = (findPos pat s.m_buffer).map fun p => utf8Length s.m_buffer p := by
  rw [find, distance_utf8Offset_zero, findByte, List.drop_zero, Option.map_map]
  congr 1
  funext p
  simp

/-- `find` from the beginning succeeds exactly where the bytes occur. -/
theorem find_isSome_iff (s : Str) (pat : List UInt8) :
    (s.find pat 0).isSome ↔ pat <:+: s.m_buffer := by
  rw [find_zero, Option.isSome_map, findPos_isSome_iff]

section separator

variable {b : UInt8} {l r : List (List UInt8)}

/-- The text `l`, the separator, the text `r`, as a row of sequences. -/
theorem isSequence_separator (hb : b < 0x7f) (hl : ∀ c ∈ l, IsSequence c)
    (hr : ∀ c ∈ r, IsSequence c) : ∀ c ∈ l ++ [b] :: r, IsSequence c := by
  intro c hc
  rcases List.mem_append.mp hc with hc | hc
  · exact hl c hc
  · rcases List.mem_cons.mp hc with rfl | hc
    · exact isSequence_singleton hb
    · exact hr c hc

/-- The bytes of a row with a separator in it. -/
theorem flatten_separator : (l ++ [b] :: r).flatten = l.flatten ++ b :: r.flatten := by simp

/-- The characters in front of the separator are counted. -/
theorem utf8Length_separator (hb : b < 0x7f) (hl : ∀ c ∈ l, IsSequence c)
    (hr : ∀ c ∈ r, IsSequence c) :
    utf8Length (l.flatten ++ b :: r.flatten) l.flatten.length = l.length := by
  have h := utf8Length_sequences (isSequence_separator hb hl hr) (.inl rfl) l.length
  rwa [List.append_nil, List.take_left, flatten_separator] at h

/-- The first separator is found behind the characters in front of it. -/
theorem find_separator (hb : b < 0x7f) (hl : ∀ c ∈ l, IsSequence c) (hr : ∀ c ∈ r, IsSequence c)
    (hmem : b ∉ l.flatten) :
    (ofBytes (l.flatten ++ b :: r.flatten)).find [b] 0 = some l.length := by
  have hseq := isSequence_separator hb hl hr
  rw [find_zero, ← flatten_separator, ofBytes_flatten hseq, flatten_separator,
    findPos_singleton hmem, Option.map_some, utf8Length_separator hb hl hr]

/-- The last separator is found behind the characters in front of it. -/
theorem reverseFind_separator (hb : b < 0x7f) (hl : ∀ c ∈ l, IsSequence c)
    (hr : ∀ c ∈ r, IsSequence c) (hmem : b ∉ r.flatten) :
    (ofBytes (l.flatten ++ b :: r.flatten)).reverseFind [b]
      (npos (ofBytes (l.flatten ++ b :: r.flatten)).m_buffer) = some l.length := by
  have hseq := isSequence_separator hb hl hr
  have hle := length_le_length_flatten (allBlocks_of_isSequence hseq)
  have hof := ofBytes_flatten hseq
  have hoff := utf8Offset_sequences hseq (.inl rfl) (l ++ [b] :: r).flatten.length
  rw [List.append_nil, List.append_nil, List.drop_eq_nil_of_le hle, List.flatten_nil] at hoff
  have hone : distance [b] (utf8Offset [b] (npos [b])) = 1 := by
    have hbs : ∀ c ∈ [[b]], IsSequence c := by simpa using isSequence_singleton hb
    have hb1 := utf8Offset_sequences hbs (.inl rfl) 1
    simp only [List.flatten_cons, List.flatten_nil, List.append_nil] at hb1
    simp [npos, hb1, distance]
  rw [← flatten_separator, hof, reverseFind]
  simp only [npos, hoff, distance, List.length_nil, Nat.sub_zero, reverseFindByte]
  simp only [distance, npos] at hone
  rw [hone, flatten_separator, if_neg (by simp), rfindPos_singleton hmem (by simp) (by simp),
    Option.map_some, utf8Length_separator hb hl hr]

/-- The first `l.length` characters are `l`. -/
theorem left_separator (hb : b < 0x7f) (hl : ∀ c ∈ l, IsSequence c) (hr : ∀ c ∈ r, IsSequence c) :
    (ofBytes (l.flatten ++ b :: r.flatten)).left l.length = ofBytes l.flatten := by
  have hseq := isSequence_separator hb hl hr
  have hassign := assign_sequences hseq (.inl rfl) l.length
  rw [List.append_nil, List.take_left] at hassign
  rw [← flatten_separator, left, ofBytes_flatten hseq, ofBytes_flatten hl, hassign]

/-- The characters behind the separator are `r`. -/
theorem right_separator (hb : b < 0x7f) (hl : ∀ c ∈ l, IsSequence c) (hr : ∀ c ∈ r, IsSequence c) :
    (ofBytes (l.flatten ++ b :: r.flatten)).right (l.length + 1) = ofBytes r.flatten := by
  have hseq := isSequence_separator hb hl hr
  have hoff := utf8Offset_sequences hseq (.inl rfl) (l.length + 1)
  rw [List.append_nil, List.append_nil] at hoff
  rw [← flatten_separator, right, get, ofBytes_flatten hseq, if_neg (by simp), hoff]
  simp

end separator

section cutting

variable {b : UInt8} {u v : List UInt8}

/-- `left` of a separator: the text before its first occurrence. -/
theorem leftOf_separator (hb : b < 0x7f) (hu : WellFormed u) (hv : WellFormed v) (hmem : b ∉ u) :
    (ofBytes (u ++ b :: v)).leftOf [b] = ofBytes u := by
  obtain ⟨l, hl, rfl⟩ := hu
  obtain ⟨r, hr, rfl⟩ := hv
  rw [leftOf, find_separator hb hl hr hmem]
  exact left_separator hb hl hr

/-- `after` a separator: the text behind its first occurrence. -/
theorem after_separator (hb : b < 0x7f) (hu : WellFormed u) (hv : WellFormed v) (hmem : b ∉ u) :
    (ofBytes (u ++ b :: v)).after (ofBytes [b]) = ofBytes v := by
  obtain ⟨l, hl, rfl⟩ := hu
  obtain ⟨r, hr, rfl⟩ := hv
  have hsep : ofBytes [b] = ⟨[b], 1⟩ := ofBytes_of_singleBytes (by simpa [SingleBytes] using hb)
  rw [after, hsep, find_separator hb hl hr hmem]
  exact right_separator hb hl hr

/-- `reverse_left` of a separator: the text before its last occurrence. -/
theorem reverseLeft_separator (hb : b < 0x7f) (hu : WellFormed u) (hv : WellFormed v)
    (hmem : b ∉ v) : (ofBytes (u ++ b :: v)).reverseLeft [b] = ofBytes u := by
  obtain ⟨l, hl, rfl⟩ := hu
  obtain ⟨r, hr, rfl⟩ := hv
  rw [reverseLeft, reverseFind_separator hb hl hr hmem]
  exact left_separator hb hl hr

/-- `reverse_after` a separator: the text behind its last occurrence. -/
theorem reverseAfter_separator (hb : b < 0x7f) (hu : WellFormed u) (hv : WellFormed v)
    (hmem : b ∉ v) : (ofBytes (u ++ b :: v)).reverseAfter (ofBytes [b]) = ofBytes v := by
  obtain ⟨l, hl, rfl⟩ := hu
  obtain ⟨r, hr, rfl⟩ := hv
  have hsep : ofBytes [b] = ⟨[b], 1⟩ := ofBytes_of_singleBytes (by simpa [SingleBytes] using hb)
  rw [reverseAfter, hsep, reverseFind_separator hb hl hr hmem]
  exact right_separator hb hl hr

end cutting

/-! ## Trimming -/

/-- A character of its own that trimming keeps. -/
def IsInk (b : UInt8) : Prop := b < 0x7f ∧ isSpace b = false ∧ isPrint b = true

instance (b : UInt8) : Decidable (IsInk b) :=
  inferInstanceAs (Decidable (b < 0x7f ∧ isSpace b = false ∧ isPrint b = true))

/-- Trimming stops at a byte that is neither blank nor unprintable. -/
theorem utf8TrimLeft_of_isInk {b : UInt8} (hb : IsInk b) (rest : List UInt8) :
    utf8TrimLeft (b :: rest) = b :: rest := by
  rw [utf8TrimLeft, if_pos (utf8SequenceType_of_lt hb.1), if_pos hb.2]

/-- Downwards from the last character that trimming keeps, the loop stays there. -/
theorem utf8TrimRightLoop_of_isInk {u rest : List UInt8} {z : UInt8} (hz : IsInk z) (count : Nat) :
    utf8TrimRightLoop (u ++ z :: rest) u.length count = u.length := by
  rcases hu : u.length with _ | i
  · rfl
  · have hget : (u ++ z :: rest).getD (i + 1) 0 = z := by
      rw [← hu]
      simp
    rw [utf8TrimRightLoop, hget]
    simp only [hz.1, hz.2.1, hz.2.2, and_self, if_true]

/-- A line end behind the last character that trimming keeps is passed. -/
theorem utf8TrimRightLoop_line {u : List UInt8} {z : UInt8} (hz : IsInk z) :
    utf8TrimRightLoop (u ++ [z, 10]) (u.length + 1) 0 = u.length := by
  have hget : (u ++ [z, 10]).getD (u.length + 1) 0 = 10 := by simp
  rw [utf8TrimRightLoop, hget]
  simp only [show (10 : UInt8) < 0x7f by decide, if_true, show isSpace 10 = true by decide,
    Bool.true_eq_false, false_and, if_false]
  exact utf8TrimRightLoop_of_isInk hz 0

/-- The loop begins at the last byte of a well-formed text. -/
theorem distance_utf8Offset_npos {t : List UInt8} (h : WellFormed t) :
    distance t (utf8Offset t (npos t)) = t.length := by
  obtain ⟨cs, hcs, rfl⟩ := h
  have hle := length_le_length_flatten (allBlocks_of_isSequence hcs)
  have hoff := utf8Offset_sequences hcs (.inl rfl) cs.flatten.length
  rw [List.append_nil, List.append_nil, List.drop_eq_nil_of_le hle, List.flatten_nil] at hoff
  rw [npos, hoff, distance, List.length_nil, Nat.sub_zero]

/-- A text between characters that trimming keeps, with or without a line end, is trimmed to
itself. -/
theorem trim_line {u blanks : List UInt8} {z : UInt8} (h : WellFormed (u ++ [z]))
    (hfirst : ∀ b ∈ (u ++ [z]).head?, IsInk b) (hz : IsInk z) (hblanks : blanks = [] ∨ blanks = [10]) :
    (ofBytes (u ++ [z] ++ blanks)).trim = ofBytes (u ++ [z]) := by
  obtain ⟨ds, hds, hdsflat⟩ : WellFormed blanks := by
    rcases hblanks with rfl | rfl
    · exact wellFormed_nil
    · exact SingleBytes.wellFormed (by decide)
  obtain ⟨cs, hcs, hcsflat⟩ := h
  have hseq : ∀ c ∈ cs ++ ds, IsSequence c := List.forall_mem_append.mpr ⟨hcs, hds⟩
  have hall : WellFormed (u ++ [z] ++ blanks) :=
    ⟨cs ++ ds, hseq, by rw [hcsflat, hdsflat, List.flatten_append]⟩
  have hleft : utf8TrimLeft (u ++ [z] ++ blanks) = u ++ [z] ++ blanks := by
    obtain ⟨b, rest, hcons⟩ := List.exists_cons_of_ne_nil (show u ++ [z] ≠ [] by simp)
    rw [hcons, List.cons_append]
    exact utf8TrimLeft_of_isInk (hfirst b (by rw [hcons]; rfl)) _
  have hloop : utf8TrimRightLoop (u ++ [z] ++ blanks) ((u ++ [z] ++ blanks).length - 1) 0 =
      u.length := by
    rcases hblanks with rfl | rfl
    · have hlen : (u ++ [z] ++ []).length - 1 = u.length := by simp
      rw [hlen, List.append_nil]
      exact utf8TrimRightLoop_of_isInk hz 0
    · have hlen : (u ++ [z] ++ [10]).length - 1 = u.length + 1 := by simp
      rw [hlen, List.append_assoc]
      exact utf8TrimRightLoop_line hz
  have hright : utf8TrimRight (u ++ [z] ++ blanks) = blanks := by
    rw [utf8TrimRight, distance_utf8Offset_npos hall, hloop, List.append_assoc, List.drop_left,
      utf8SkipSequence_append (isSequence_singleton hz.1)]
    rfl
  have hcount : ¬ (u ++ [z] ++ blanks).length < blanks.length := by
    rw [List.length_append]
    omega
  have hdist : distance (u ++ [z] ++ blanks) blanks = (u ++ [z]).length := by
    rw [distance, List.length_append, Nat.add_sub_cancel]
  have hlen := utf8Length_sequences hseq (.inl rfl) cs.length
  have hassign := assign_sequences hseq (.inl rfl) cs.length
  rw [List.append_nil, List.flatten_append, ← hcsflat, ← hdsflat, List.take_left] at hassign hlen
  rw [← hcsflat] at hassign hlen
  rw [trim, ofBytes_buffer hall, hleft, hright, if_neg hcount, hdist, hlen, hassign]

/-! ## Appending and comparing -/

/-- Appending a well-formed text to one of single-byte characters is concatenation. -/
theorem append_eq_ofBytes {u v : List UInt8} (hu : SingleBytes u) (hv : WellFormed v) :
    ofBytes u ++ ofBytes v = ofBytes (u ++ v) := by
  have huv := hu.wellFormed.append hv
  obtain ⟨cs, hcs, hcat⟩ := huv
  obtain ⟨r, hr, rfl⟩ := hv
  have hle := length_le_length_flatten (allBlocks_of_isSequence hr)
  have hoff := utf8Offset_sequences hr (.inl rfl) r.flatten.length
  rw [List.append_nil, List.append_nil, List.drop_eq_nil_of_le hle, List.flatten_nil] at hoff
  have hlen := utf8Length_sequences hcs (.inl rfl) cs.length
  rw [List.append_nil, List.take_length] at hlen
  show append _ _ _ = _
  rw [ofBytes_flatten hr, ofBytes_of_singleBytes hu, hcat, ofBytes_flatten hcs, append]
  simp only [size, npos, hoff, distance, List.length_nil, Nat.sub_zero, gt_iff_lt, lt_irrefl,
    if_false, copy, List.take_length, hcat, hlen]
  split
  next => rfl
  next h =>
    have hnil : r.flatten = [] := List.eq_nil_of_length_eq_zero (by omega)
    rw [hnil, List.append_nil] at hcat
    have huc := ofBytes_of_singleBytes hu
    rw [hcat, ofBytes_flatten hcs] at huc
    rw [hcat, huc]

/-- A text of single-byte characters, which are counted as such. -/
def Counted (s : Str) : Prop := SingleBytes s.m_buffer ∧ s.m_length = s.m_buffer.length

instance (s : Str) : Decidable s.Counted := inferInstanceAs (Decidable (_ ∧ _))

/-- A text that is counted as its bytes is the value of its bytes. -/
theorem Counted.eq_ofBytes {s : Str} (hs : s.Counted) : s = ofBytes s.m_buffer := by
  rw [ofBytes_of_singleBytes hs.1, ← hs.2]

/-- Behind a text that is counted as its bytes a single-byte text is appended byte by byte. -/
theorem append_counted {s t : Str} (hs : s.Counted) (ht : SingleBytes t.m_buffer) :
    s ++ t = ofBytes (s.m_buffer ++ t.m_buffer) := by
  have hbytes : s ++ t = s ++ ofBytes t.m_buffer := by
    show append _ _ _ = append _ _ _
    rw [append, append, size, size, ofBytes_buffer ht.wellFormed]
  rw [hbytes]
  nth_rewrite 1 [hs.eq_ofBytes]
  exact append_eq_ofBytes hs.1 ht.wellFormed

/-- A single-byte text is counted as its bytes. -/
theorem counted_ofBytes {u : List UInt8} (hu : SingleBytes u) : (ofBytes u).Counted := by
  rw [ofBytes_of_singleBytes hu]
  exact ⟨hu, rfl⟩

/-- A literal is stored as it is written. -/
theorem buffer_ofLit {s : String} (h : SingleBytes (lit s)) : (ofLit s).m_buffer = lit s :=
  ofBytes_buffer h.wellFormed

/-- So is a literal of single bytes. -/
theorem counted_ofLit {s : String} (h : SingleBytes (lit s)) : (ofLit s).Counted :=
  counted_ofBytes h

/-- Appending single bytes keeps a text counted as its bytes. -/
theorem Counted.append {s t : Str} (hs : s.Counted) (ht : SingleBytes t.m_buffer) :
    (s ++ t).Counted ∧ (s ++ t).m_buffer = s.m_buffer ++ t.m_buffer := by
  have hst := hs.1.append ht
  rw [append_counted hs ht]
  exact ⟨counted_ofBytes hst, ofBytes_buffer hst.wellFormed⟩

/-- The comparison of n bytes is 0 iff they are the same. -/
theorem strncmp_eq_zero_iff {a b : List UInt8} {n : Nat} (ha : n ≤ a.length) (hb : n ≤ b.length) :
    strncmp a b n = 0 ↔ a.take n = b.take n := by
  induction n generalizing a b with
  | zero => cases a <;> simp [strncmp]
  | succ n ih =>
      obtain ⟨x, a, rfl⟩ := List.exists_cons_of_length_pos (show 0 < a.length by omega)
      obtain ⟨y, b, rfl⟩ := List.exists_cons_of_length_pos (show 0 < b.length by omega)
      rw [strncmp, List.take_succ_cons, List.take_succ_cons, List.cons.injEq]
      simp only [List.length_cons] at ha hb
      split
      next hxy => rw [ih (by omega) (by omega)]; simp [hxy]
      next hxy =>
        have hne : x.toNat ≠ y.toNat := fun h => hxy (UInt8.toNat_inj.mp h)
        simp only [hxy, false_and, iff_false]
        omega

/-- `__compare` is zero on equal bytes only. -/
theorem compare_eq_zero_iff (s t : Str) : s.compare t = 0 ↔ s.m_buffer = t.m_buffer := by
  have hcmp := strncmp_eq_zero_iff (a := s.m_buffer) (b := t.m_buffer) (n := min s.size t.size)
    (by simp [size]) (by simp [size])
  rw [compare]
  split
  next hrv =>
    rw [ne_eq, hcmp] at hrv
    refine ⟨fun h => absurd (hcmp.mp h) hrv, fun h => absurd (by rw [h]) hrv⟩
  next hrv =>
    rw [ne_eq, not_not, hcmp] at hrv
    constructor
    · intro hsize
      have hlen : s.size = t.size := by omega
      have hs : s.m_buffer.take t.size = s.m_buffer := List.take_of_length_le (le_of_eq hlen)
      have ht : t.m_buffer.take t.size = t.m_buffer := List.take_length
      rwa [hlen, min_self, hs, ht] at hrv
    · intro h
      simp [size, h]

/-- `==` compares the bytes. -/
theorem equal_iff {s t : Str} (ht : WellFormed t.m_buffer) :
    s.equal t ↔ s.m_buffer = t.m_buffer := by
  rw [equal, decide_eq_true_iff, compare_eq_zero_iff, ofBytes_buffer ht]

/-- Only the empty text is equal to the empty one. -/
theorem equal_empty_iff (s : Str) : s.equal .empty ↔ s.m_buffer = [] := equal_iff wellFormed_nil

/-- What is appended stands behind the first `m_length` bytes. -/
theorem append_ne_empty {s : Str} (h : s.m_buffer.take s.m_length ≠ []) (t : Str) :
    ¬ (s ++ t).equal .empty := by
  rw [equal_empty_iff]
  show (append s t _).m_buffer ≠ []
  unfold append
  split
  next => exact List.append_ne_nil_of_left_ne_nil h _
  next =>
    intro hnil
    rw [hnil, List.take_nil] at h
    exact h rfl

end Str

/-! ## `strncmp` -/

/-- An implementation of `strncmp` for texts of at least `n` bytes: it returns an `int` whose sign is
that of the comparison. -/
structure Strncmp where
  cmp : List UInt8 → List UInt8 → Nat → Int
  range : ∀ a b n, -2 ^ 31 ≤ cmp a b n ∧ cmp a b n < 2 ^ 31
  zero_iff : ∀ {a b : List UInt8} {n : Nat}, n ≤ a.length → n ≤ b.length →
    (cmp a b n = 0 ↔ a.take n = b.take n)
  pos_iff : ∀ {a b : List UInt8} {n : Nat}, n ≤ a.length → n ≤ b.length →
    (0 < cmp a b n ↔ b.take n < a.take n)

/-- The result of the comparison is an `int`. -/
theorem strncmp_range (a b : List UInt8) (n : Nat) :
    -2 ^ 31 ≤ Str.strncmp a b n ∧ Str.strncmp a b n < 2 ^ 31 := by
  induction n generalizing a b with
  | zero => cases a <;> simp [Str.strncmp]
  | succ n ih =>
      cases a with
      | nil => simp [Str.strncmp]
      | cons x a =>
          cases b with
          | nil => simp [Str.strncmp]
          | cons y b =>
              rw [Str.strncmp]
              have hx := x.toNat_lt
              have hy := y.toNat_lt
              split
              next => exact ih a b
              next => omega

/-- The result is positive iff the second text comes first in the order of the bytes. -/
theorem strncmp_pos_iff {a b : List UInt8} {n : Nat} (ha : n ≤ a.length) (hb : n ≤ b.length) :
    0 < Str.strncmp a b n ↔ b.take n < a.take n := by
  induction n generalizing a b with
  | zero => cases a <;> simp [Str.strncmp]
  | succ n ih =>
      obtain ⟨x, a, rfl⟩ := List.exists_cons_of_length_pos (show 0 < a.length by omega)
      obtain ⟨y, b, rfl⟩ := List.exists_cons_of_length_pos (show 0 < b.length by omega)
      simp only [List.length_cons] at ha hb
      rw [Str.strncmp, List.take_succ_cons, List.take_succ_cons, List.cons_lt_cons_iff]
      split
      next hxy => simp [hxy, ih (show n ≤ a.length by omega) (show n ≤ b.length by omega)]
      next hxy =>
        rw [UInt8.lt_iff_toNat_lt, or_iff_left (fun h => hxy h.1.symm)]
        omega

/-- The implementation that returns the difference of the first two bytes that differ. -/
def Strncmp.byteDifference : Strncmp :=
  ⟨Str.strncmp, strncmp_range, Str.strncmp_eq_zero_iff, strncmp_pos_iff⟩

/-! ## The capture of an output -/

/-- The output in pieces of `size` bytes, as `fread` returns them; `rounds` bounds their number. -/
def cut (size : Nat) : Nat → List UInt8 → List (List UInt8)
  | 0, _ => []
  | rounds + 1, output =>
      if output.isEmpty then [] else output.take size :: cut size rounds (output.drop size)

/-- `r.append(buffer, count)`, `count` being the number of bytes read.
Source: `utils.cpp` `shell_cap`, the loop -/
def appendBuffer (r : Str) (buffer : List UInt8) : Str := r.append (.ofBytes buffer) buffer.length

/-- Source: `utils.cpp` `shell_cap` -/
def shellCap (output : List UInt8) : Str :=
  (cut 1023 output.length output).foldl appendBuffer .empty

/-- Cutting an output into pieces loses nothing. -/
theorem flatten_cut {size : Nat} (hsize : 0 < size) {rounds : Nat} {output : List UInt8}
    (h : output.length ≤ rounds) : (cut size rounds output).flatten = output := by
  induction rounds generalizing output with
  | zero =>
      obtain rfl : output = [] := List.eq_nil_of_length_eq_zero (by omega)
      rfl
  | succ rounds ih =>
      unfold cut
      rcases output with _ | ⟨b, output⟩
      · rfl
      · have hlen : ((b :: output).drop size).length ≤ rounds := by
          rw [List.length_drop]
          simp only [List.length_cons] at h ⊢
          omega
        rw [if_neg (by simp), List.flatten_cons, ih hlen, List.take_append_drop]

/-- Pieces of single-byte characters are put together again. -/
theorem foldl_append_pieces {pieces : List (List UInt8)} {done : List UInt8}
    (hdone : SingleBytes done) (h : SingleBytes pieces.flatten) :
    pieces.foldl appendBuffer (.ofBytes done) = .ofBytes (done ++ pieces.flatten) := by
  induction pieces generalizing done with
  | nil => rw [List.flatten_nil, List.append_nil]; rfl
  | cons piece pieces ih =>
      rw [List.flatten_cons] at h ⊢
      have hpiece : SingleBytes piece := fun b hb => h b (List.mem_append_left _ hb)
      have hrest : SingleBytes pieces.flatten := fun b hb => h b (List.mem_append_right _ hb)
      have hstep : appendBuffer (.ofBytes done) piece = .ofBytes (done ++ piece) := by
        rw [← Str.append_eq_ofBytes hdone hpiece.wellFormed]
        show _ = Str.append _ _ (npos (Str.ofBytes piece).m_buffer)
        rw [Str.ofBytes_buffer hpiece.wellFormed, npos, appendBuffer]
      rw [List.foldl_cons, hstep, ih (hdone.append hpiece) hrest, List.append_assoc]

/-- An output of single-byte characters is captured as it is. -/
theorem shellCap_of_singleBytes {output : List UInt8} (h : SingleBytes output) :
    shellCap output = .ofBytes output := by
  have hflat : (cut 1023 output.length output).flatten = output :=
    flatten_cut (by omega) (le_refl output.length)
  have hpieces : SingleBytes (cut 1023 output.length output).flatten := by rwa [hflat]
  have hfold : (cut 1023 output.length output).foldl appendBuffer (.ofBytes []) =
      .ofBytes ([] ++ (cut 1023 output.length output).flatten) :=
    foldl_append_pieces (by decide) hpieces
  rwa [hflat, Str.ofBytes_nil, List.nil_append] at hfold

end Irstessi
