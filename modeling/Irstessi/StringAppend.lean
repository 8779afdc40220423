import Irstessi.StringObject

/-!
# Appending strings

`append` stores the bytes of the other text at the byte `m_length`, which is the number of the
characters and not of the bytes that are there.

* `StringObject.toStr`: the text and the characters of an object; `toStr_assign`, `toStr_append`: valid
  objects do what `Str` does.
* `StringObject.Valid.append_cases`, `exists_append_iff`: what is appended, and when it is a
  concatenation.
* `plusAssign`, `plus`: `+=` and `+`, the latter with the copies that it makes.
* `StringValue`: a valid object with a well-formed text.
* **`appendConcatenates_iff`**: `a += b` is concatenation iff `b` is empty or `a` has single-byte
  characters only; where it is, `+` is associative.

For well-formed texts the object and its `Str` agree through every operation, so that the statement
about objects becomes one about texts. A text that is appended goes over whatever stands behind the byte
`m_length`: if the text before it has single-byte characters only this is its end, and otherwise some of
its last bytes are overwritten. `append_cases` says which bytes there are afterwards, and
`exists_append_iff` when they are those of the concatenation. `+` constructs three objects and copies
each, which changes nothing in valid ones.
-/

namespace Irstessi

open Memory

/-! ## Texts -/

namespace Str

/-- The walk over as many characters as a well-formed text can have gets to its end. -/
theorem distance_npos {t : List UInt8} (ht : WellFormed t) :
    distance t (utf8Offset t (npos t)) = t.length := distance_utf8Offset_npos ht

/-- The bytes of a well-formed text are stored at the byte `m_length`. -/
theorem append_buffer (s : Str) {t : Str} (ht : WellFormed t.m_buffer) (hne : t.m_buffer ≠ []) :
    (s ++ t).m_buffer = s.m_buffer.take s.m_length ++ t.m_buffer := by
  have hlength : t.m_buffer.length ≠ 0 := fun hzero => hne (List.eq_nil_of_length_eq_zero hzero)
  show (s.append t (npos t.m_buffer)).m_buffer = _
  unfold append
  rw [if_pos ⟨hlength, hlength⟩, distance_npos ht]
  simp [copy, size]

/-- The characters are counted anew. -/
theorem length_append (s : Str) {t : Str} (ht : WellFormed t.m_buffer) (hne : t.m_buffer ≠ []) :
    (s ++ t).m_length = utf8Length (s ++ t).m_buffer (s ++ t).m_buffer.length := by
  have hlength : t.m_buffer.length ≠ 0 := fun hzero => hne (List.eq_nil_of_length_eq_zero hzero)
  have happend : s ++ t = s.copy t.m_buffer s.m_length t.size := by
    show s.append t (npos t.m_buffer) = _
    unfold append
    rw [if_pos ⟨hlength, hlength⟩, distance_npos ht]
    simp [size]
  rw [happend]
  rfl

/-- Appending the empty text changes nothing. -/
theorem append_of_eq_nil (s : Str) {t : Str} (ht : t.m_buffer = []) : s ++ t = s := by
  show s.append t (npos t.m_buffer) = s
  unfold append
  rw [if_neg]
  rintro ⟨hsize, -⟩
  exact hsize (by rw [size, ht]; rfl)

/-- A text has as many characters as bytes iff they are single bytes. -/
theorem length_ofBytes_eq_iff {u : List UInt8} (hu : WellFormed u) :
    (ofBytes u).m_length = u.length ↔ SingleBytes u := by
  constructor
  · obtain ⟨cs, hcs, rfl⟩ := hu
    rw [ofBytes_flatten hcs]
    intro hlength
    induction cs with
    | nil => exact fun b hb => absurd hb List.not_mem_nil
    | cons c cs ih =>
        have hrest : ∀ d ∈ cs, IsSequence d := fun d hd => hcs d (List.mem_cons_of_mem _ hd)
        have hle := Blocks.length_le_length_flatten (allBlocks_of_isSequence hrest)
        obtain ⟨b, t, rfl, htype, -⟩ := hcs c List.mem_cons_self
        simp only [List.length_cons, List.flatten_cons, List.length_append] at hlength
        obtain rfl : t = [] := List.eq_nil_of_length_eq_zero (by omega)
        have hb : b < 0x7f := by
          by_contra hge
          have hother : utf8SequenceType b ≠ 1 := by
            unfold utf8SequenceType
            rw [if_neg hge]
            split_ifs <;> decide
          exact hother htype
        intro x hx
        rcases List.mem_cons.mp hx with rfl | hx
        · exact hb
        · exact ih hrest (by simp only [List.length_nil] at hlength ⊢; omega) x hx
  · intro hsingle
    rw [ofBytes_of_singleBytes hsingle]

/-- A text has no more characters than bytes. -/
theorem length_ofBytes_le {u : List UInt8} (hu : WellFormed u) : (ofBytes u).m_length ≤ u.length := by
  obtain ⟨cs, hcs, rfl⟩ := hu
  rw [ofBytes_flatten hcs]
  exact Blocks.length_le_length_flatten (allBlocks_of_isSequence hcs)

/-- What construction stores begins the text. -/
theorem ofBytes_isPrefixOf (u : List UInt8) : (ofBytes u).m_buffer <+: u := by
  obtain ⟨cs, tail, hcs, htail, rfl⟩ := exists_sequences u
  rw [ofBytes_sequences hcs htail]
  exact List.prefix_append _ _

/-- The class keeps no more bytes than it is given. -/
theorem length_buffer_ofBytes_le (u : List UInt8) : (ofBytes u).m_buffer.length ≤ u.length :=
  (ofBytes_isPrefixOf u).length_le

/-- Behind single-byte characters a text is read as it is alone. -/
theorem ofBytes_append {u : List UInt8} (hu : SingleBytes u) (x : List UInt8) :
    ofBytes (u ++ x) = ⟨u ++ (ofBytes x).m_buffer, u.length + (ofBytes x).m_length⟩ := by
  obtain ⟨cs, tail, hcs, htail, rfl⟩ := exists_sequences x
  have hall : ∀ c ∈ (u.map fun b => [b]) ++ cs, IsSequence c :=
    List.forall_mem_append.mpr ⟨hu.isSequence, hcs⟩
  have htext : u ++ (cs.flatten ++ tail) = ((u.map fun b => [b]) ++ cs).flatten ++ tail := by
    rw [List.flatten_append, SingleBytes.flatten_map_singleton, List.append_assoc]
  rw [htext, ofBytes_sequences hall htail, ofBytes_sequences hcs htail, List.flatten_append,
    SingleBytes.flatten_map_singleton, List.length_append, List.length_map]

/-- Behind single-byte characters a sum begins the two texts, whatever the second one is. -/
theorem plus_isPrefixOf {u : List UInt8} (hu : SingleBytes u) (t : Str) :
    ((ofBytes u).plus t).m_buffer <+: u ++ t.m_buffer := by
  rw [plus, ofBytes_ofBytes]
  refine (ofBytes_isPrefixOf _).trans ?_
  rw [ofBytes_of_singleBytes hu]
  show (append _ _ _).m_buffer <+: _
  unfold append
  split
  next =>
    simp only [copy, List.take_length]
    exact (List.prefix_append_right_inj u).mpr (List.take_prefix _ _)
  next => exact List.prefix_append _ _

/-- A concatenation is no longer than its parts together. -/
theorem length_plus_le (s : Str) {t : Str} (ht : WellFormed t.m_buffer) :
    (s.plus t).m_buffer.length ≤ s.m_buffer.length + t.m_buffer.length := by
  have hcopy := length_buffer_ofBytes_le s.m_buffer
  refine (length_buffer_ofBytes_le _).trans ?_
  by_cases hnil : t.m_buffer = []
  · rw [append_of_eq_nil _ hnil]
    omega
  · rw [append_buffer _ ht hnil, List.length_append, List.length_take]
    omega

/-- The empty text is neutral from the right. -/
theorem plus_empty {u : List UInt8} : (ofBytes u).plus .empty = ofBytes u := by
  rw [plus, append_of_eq_nil _ rfl, ofBytes_ofBytes, ofBytes_ofBytes]

/-- The empty text is neutral from the left. -/
theorem empty_plus {v : List UInt8} (hv : WellFormed v) : empty.plus (ofBytes v) = ofBytes v := by
  rw [plus]
  have happend := append_eq_ofBytes (u := []) (fun b hb => absurd hb List.not_mem_nil) hv
  have hempty : ofBytes empty.m_buffer = ofBytes [] := rfl
  rw [hempty, happend, List.nil_append, ofBytes_ofBytes]

/-- A text of single-byte characters in front of a sum. -/
theorem plus_append {u v w : List UInt8} (hu : SingleBytes u) (hv : WellFormed v) (hw : WellFormed w) :
    (ofBytes (u ++ v)).plus (ofBytes w) =
      ofBytes (u ++ ((ofBytes v).plus (ofBytes w)).m_buffer) := by
  have huv : WellFormed (u ++ v) := hu.wellFormed.append hv
  unfold plus
  rw [ofBytes_ofBytes, ofBytes_ofBytes]
  by_cases hnil : w = []
  · subst hnil
    rw [append_of_eq_nil _ rfl, append_of_eq_nil _ rfl, ofBytes_buffer huv, ofBytes_buffer hv,
      ofBytes_buffer hv]
  · have hright : WellFormed (ofBytes w).m_buffer := wellFormed_ofBytes w
    have hne : (ofBytes w).m_buffer ≠ [] := by rwa [ofBytes_buffer hw]
    have hlength : (ofBytes (u ++ v)).m_length = u.length + (ofBytes v).m_length := by
      rw [ofBytes_append hu]
    rw [append_buffer _ hright hne, append_buffer _ hright hne, hlength, ofBytes_buffer huv,
      ofBytes_buffer hv, ofBytes_buffer hw, List.take_length_add_append, List.append_assoc,
      ofBytes_append hu, ofBytes_append hu, ofBytes_ofBytes]

/-- Behind a text of single-byte characters the copies of `+` make no difference. -/
theorem plus_eq_append {u x : List UInt8} (hu : SingleBytes u) (hx : WellFormed x) :
    (ofBytes u).plus (ofBytes x) = ofBytes u ++ ofBytes x := by
  rw [plus, ofBytes_ofBytes, append_eq_ofBytes hu hx, ofBytes_ofBytes]

/-- `+` is associative behind a text of single-byte characters. -/
theorem plus_assoc {u v w : List UInt8} (hu : SingleBytes u) (hv : WellFormed v) (hw : WellFormed w) :
    ((ofBytes u).plus (ofBytes v)).plus (ofBytes w) =
      (ofBytes u).plus ((ofBytes v).plus (ofBytes w)) := by
  have hsum : ∀ x, WellFormed x → (ofBytes u).plus (ofBytes x) = ofBytes (u ++ x) := by
    intro x hx
    rw [plus_eq_append hu hx, append_eq_ofBytes hu hx]
  have hinner : WellFormed ((ofBytes v).plus (ofBytes w)).m_buffer := wellFormed_ofBytes _
  have hself : ofBytes ((ofBytes v).plus (ofBytes w)).m_buffer = (ofBytes v).plus (ofBytes w) :=
    ofBytes_ofBytes _
  rw [hsum v hv, plus_append hu hv hw, ← hsum _ hinner, hself]

end Str

/-! ## Objects -/

/-- A text has as many characters as bytes iff they are single bytes. -/
theorem utf8Length_eq_length_iff (buf : List UInt8) :
    utf8Length buf buf.length = buf.length ↔ SingleBytes buf := by
  constructor
  · intro h
    obtain ⟨cs, tail, hcs, htail, rfl⟩ := exists_sequences buf
    have hle := Blocks.length_le_length_flatten (allBlocks_of_isSequence hcs)
    rw [utf8Length_of_le hcs htail (by simp), List.length_append] at h
    obtain rfl : tail = [] := List.eq_nil_of_length_eq_zero (by omega)
    rw [List.append_nil]
    refine (Str.length_ofBytes_eq_iff ⟨cs, hcs, rfl⟩).mp ?_
    rw [Str.ofBytes_flatten hcs, h, List.length_nil, Nat.add_zero]
  · intro hsingle
    obtain ⟨cs, hcs, rfl⟩ := hsingle.wellFormed
    have hcount : utf8Length (cs.flatten ++ []) cs.flatten.length = cs.length :=
      utf8Length_of_le hcs (.inl rfl) le_rfl
    have hlength := (Str.length_ofBytes_eq_iff ⟨cs, hcs, rfl⟩).mpr hsingle
    rw [List.append_nil] at hcount
    rw [Str.ofBytes_flatten hcs] at hlength
    exact hcount.trans hlength

/-- The default count goes over every text that fits. -/
theorem utf8Offset_uintMax {cs : List (List UInt8)} {tail : List UInt8}
    (hcs : ∀ c ∈ cs, IsSequence c) (htail : Stuck tail)
    (hlength : (cs.flatten ++ tail).length < uintMax) :
    utf8Offset (cs.flatten ++ tail) uintMax = tail := by
  have hle := Blocks.length_le_length_flatten (allBlocks_of_isSequence hcs)
  rw [List.length_append] at hlength
  rw [utf8Offset_sequences hcs htail, List.drop_eq_nil_of_le (by omega)]
  rfl

/-- An object that is assigned a text holds what `Str` does. -/
theorem takenText_eq {buf : List UInt8} (hlength : buf.length < uintMax) :
    takenText (some buf) uintMax = (Str.ofBytes buf).m_buffer := by
  obtain ⟨cs, tail, hcs, htail, rfl⟩ := exists_sequences buf
  have hdistance : distance (cs.flatten ++ tail) tail = cs.flatten.length := by
    rw [distance, List.length_append, Nat.add_sub_cancel]
  have hpos : 0 < uintMax := by decide
  rw [List.length_append] at hlength
  have hmod : toUnsigned cs.flatten.length = cs.flatten.length := by
    unfold toUnsigned
    unfold uintMax at hlength
    exact Nat.mod_eq_of_lt (by omega)
  rw [Str.ofBytes_sequences hcs htail, takenText, StringObject.bytesOf, if_pos hpos,
    utf8Offset_uintMax hcs htail (by rwa [List.length_append]), hdistance, hmod, List.take_left]

namespace StringObject

variable {s t : StringObject}

/-- The text and the number of its characters. -/
def toStr (s : StringObject) : Str := ⟨s.bytes, s.m_length⟩

/-- A valid object of well-formed bytes is the value of these bytes. -/
theorem Valid.toStr_eq (h : s.Valid) (hs : WellFormed s.bytes) : s.toStr = Str.ofBytes s.bytes := by
  have hlength := h.length
  rw [← bytes] at hlength
  obtain ⟨cs, hcs, hbytes⟩ := hs
  have hsize := h.length_bytes
  rw [toStr, hlength, hbytes, Str.ofBytes_flatten hcs]
  have hcount : utf8Length (cs.flatten ++ []) s.m_size = cs.length :=
    utf8Length_of_le hcs (.inl rfl) (by rw [← hsize, hbytes])
  rw [List.append_nil] at hcount
  rw [hcount]

/-- The bytes of a valid object can be counted in 32 bits. -/
theorem Valid.length_lt (h : s.Valid) : s.bytes.length < uintMax := by
  have hlength := h.length_bytes
  have hsize := h.size_le
  unfold uintMax
  omega

/-- The characters are as many as the bytes iff they are single bytes. -/
theorem Valid.length_eq_iff (h : s.Valid) : s.m_length = s.m_size ↔ SingleBytes s.bytes := by
  rw [← utf8Length_eq_length_iff, h.length_bytes]
  exact Eq.congr_left h.length

/-- Assigning a text to an object. -/
theorem Allocated.toStr_assign (h : s.Allocated) (junk : Nat → UInt8) {buf : List UInt8}
    (hbuf : ∀ b ∈ buf, b ≠ 0) (hlength : buf.length < uintMax) :
    ∃ s', s.assign junk (some buf) uintMax = some s' ∧ s'.Valid ∧ s'.toStr = Str.ofBytes buf := by
  obtain ⟨s', hassign, hvalid, hbytes⟩ := h.assign junk (some buf) uintMax
    (by
      rintro u ⟨rfl⟩
      exact hbuf)
    (by
      rintro u ⟨rfl⟩
      exact ((bytesOf_le buf uintMax).trans_lt hlength).ne)
  rw [takenText_eq hlength] at hbytes
  refine ⟨s', hassign, hvalid, ?_⟩
  have hwell : WellFormed s'.bytes := by
    rw [hbytes]
    exact Str.wellFormed_ofBytes buf
  rw [hvalid.toStr_eq hwell, hbytes, Str.ofBytes_ofBytes]

/-- All bytes of a well-formed text are appended where no limit is given. -/
theorem appendedBytes_of_wellFormed {u : List UInt8} (hu : WellFormed u) (hlength : u.length < uintMax) :
    appendedBytes u uintMax = u.length := by
  obtain ⟨cs, hcs, rfl⟩ := hu
  have hoffset := utf8Offset_uintMax hcs (.inl rfl) (by rwa [List.append_nil])
  rw [List.append_nil] at hoffset
  have hmod : toUnsigned cs.flatten.length = cs.flatten.length := by
    unfold toUnsigned
    unfold uintMax at hlength
    exact Nat.mod_eq_of_lt (by omega)
  rw [appendedBytes, hoffset, distance, List.length_nil, Nat.sub_zero, hmod, Nat.min_self]

/-- A text is stored at the byte `m_length`, if there is room for it. -/
theorem Valid.append_cases (h : s.Valid) (ht : t.Valid) (hwell : WellFormed t.bytes)
    (hne : t.bytes ≠ []) (junk : Nat → UInt8) :
    (∃ s', s.append t junk uintMax = some s' ∧ s'.Valid ∧
      s'.bytes = s.bytes.take s.m_length ++ t.bytes) ∨
    (s.append t junk uintMax = none ∧ ¬ s.HasRoom t.bytes.length) := by
  have hall := appendedBytes_of_wellFormed hwell ht.length_lt
  have hsome : t.bytes ≠ [] ∧ uintMax ≠ 0 := ⟨hne, by decide⟩
  by_cases hroom : s.HasRoom t.bytes.length
  · obtain ⟨s', happend, hvalid, hbytes⟩ := h.append ht junk hsome (by rwa [hall])
    rw [hall, List.take_length] at hbytes
    exact .inl ⟨s', happend, hvalid, hbytes⟩
  · exact .inr ⟨h.append_of_not_hasRoom ht junk hsome (by rwa [hall]), hroom⟩

/-- Appending a well-formed text to an object for which there is room. -/
theorem Valid.toStr_append (h : s.Valid) (ht : t.Valid) (hwell : WellFormed t.bytes)
    (junk : Nat → UInt8) (hroom : t.bytes ≠ [] → s.HasRoom t.bytes.length) :
    ∃ s', s.append t junk uintMax = some s' ∧ s'.Valid ∧ s'.toStr = s.toStr ++ t.toStr := by
  by_cases hnil : t.bytes = []
  · have hempty : ¬ (t.bytes ≠ [] ∧ uintMax ≠ 0) := fun hsome => hsome.1 hnil
    exact ⟨s, ht.append_of_empty hempty, h, (Str.append_of_eq_nil s.toStr hnil).symm⟩
  · obtain ⟨s', happend, hvalid, hbytes⟩ :=
      (h.append_cases ht hwell hnil junk).resolve_right fun hnone => hnone.2 (hroom hnil)
    refine ⟨s', happend, hvalid, ?_⟩
    have hbuffer := Str.append_buffer s.toStr (t := t.toStr) hwell hnil
    have hcount := Str.length_append s.toStr (t := t.toStr) hwell hnil
    have hlength := hvalid.length
    rw [← bytes, ← hvalid.length_bytes] at hlength
    have hsame : s'.bytes = (s.toStr ++ t.toStr).m_buffer := hbytes.trans hbuffer.symm
    rw [hsame, ← hcount] at hlength
    rw [toStr, hsame, hlength]

/-- Appending a text is concatenation iff the text before it is one of single-byte characters and there is
room for both. -/
theorem Valid.exists_append_iff (h : s.Valid) (ht : t.Valid) (hwell : WellFormed t.bytes)
    (hne : t.bytes ≠ []) (junk : Nat → UInt8) :
    (∃ s', s.append t junk uintMax = some s' ∧ s'.text = s.text ++ t.text) ↔
      SingleBytes s.text ∧ s.text.length + t.text.length + 1 < 2 ^ 32 := by
  have hle := h.length_le
  have hsize := h.length_bytes
  rw [h.text_eq, ht.text_eq, ← h.length_eq_iff]
  rcases h.append_cases ht hwell hne junk with ⟨s', happend, hvalid, hbytes⟩ | ⟨hnone, hnot⟩
  · constructor
    · rintro ⟨s'', happend', hsum⟩
      obtain rfl := Option.some.inj (happend.symm.trans happend')
      -- the sum is in a block, with its NUL
      have hlt := hvalid.length_lt
      rw [← hvalid.text_eq, hsum, List.length_append] at hlt
      rw [hvalid.text_eq, hbytes, List.append_cancel_right_eq, List.take_eq_self_iff] at hsum
      unfold uintMax at hlt
      exact ⟨by omega, by omega⟩
    · rintro ⟨hsame, -⟩
      refine ⟨s', happend, ?_⟩
      rw [hvalid.text_eq, hbytes, hsame, ← hsize, List.take_length]
  · rw [hnone]
    refine iff_of_false ?_ fun ⟨_, hfits⟩ => hnot (.inl ?_)
    · simp
    · rwa [← hsize]

/-- `a += b`, the argument being none where it is the object itself.
Source: `string.h` `operator +=`, `string.cpp` `String::append` -/
def plusAssign (s : StringObject) (t : Option StringObject) (junk : Nat → UInt8) :
    Option StringObject :=
  match t with
  | none => some s
  | some t => s.append t junk uintMax

/-- `a + b`
Source: `string.h` `operator +` -/
def plus (s t : StringObject) (junk : Nat → UInt8) : Option StringObject :=
  (new.assign junk (some s.text) uintMax).bind fun left =>
    (left.append t junk uintMax).bind fun left => new.assign junk (some left.text) uintMax

/-- The text of a valid object has no NUL. -/
theorem Valid.text_ne_zero (h : s.Valid) : ∀ b ∈ s.text, b ≠ 0 := by
  rw [h.text_eq]
  exact h.text

/-- The text of a valid object is short enough for the 32-bit sizes. -/
theorem Valid.length_text_lt (h : s.Valid) : s.text.length < uintMax := by
  rw [h.text_eq]
  exact h.length_lt

/-- Below 4 GiB, `+` does what it does on `Str`. -/
theorem Valid.toStr_plus (h : s.Valid) (ht : t.Valid) (hwell : WellFormed t.bytes)
    (junk : Nat → UInt8) (hsize : s.bytes.length + t.bytes.length + 1 < 2 ^ 32) :
    ∃ s', s.plus t junk = some s' ∧ s'.Valid ∧ s'.toStr = s.toStr.plus t.toStr := by
  obtain ⟨left, hleft, hleftValid, hleftStr⟩ :=
    allocated_new.toStr_assign junk h.text_ne_zero h.length_text_lt
  have hroom : t.bytes ≠ [] → left.HasRoom t.bytes.length := by
    intro _
    have hle : left.bytes.length ≤ s.bytes.length := by
      have hbytes := congrArg Str.m_buffer hleftStr
      rw [h.text_eq] at hbytes
      rw [show left.bytes = _ from hbytes]
      exact Str.length_buffer_ofBytes_le _
    have hleftSize := hleftValid.length_bytes
    exact .inl (by omega)
  obtain ⟨sum, hsum, hsumValid, hsumStr⟩ := hleftValid.toStr_append ht hwell junk hroom
  obtain ⟨s', hcopy, hvalid, hcopyStr⟩ :=
    allocated_new.toStr_assign junk hsumValid.text_ne_zero hsumValid.length_text_lt
  refine ⟨s', ?_, hvalid, ?_⟩
  · rw [plus, hleft, Option.bind_some, hsum, Option.bind_some, hcopy]
  · have hsumText : sum.text = (left.toStr ++ t.toStr).m_buffer := by
      rw [hsumValid.text_eq, ← hsumStr]
      rfl
    have hsText : s.text = s.toStr.m_buffer := h.text_eq
    rw [hcopyStr, hsumText, hleftStr, hsText]
    rfl

end StringObject

/-- A string whose fields agree, with a text that is UTF-8 to its end. -/
structure StringValue where
  object : StringObject
  valid : object.Valid
  wellFormed : WellFormed object.bytes

namespace StringValue

/-- The bytes of the text. -/
def bytes (a : StringValue) : List UInt8 := a.object.bytes

/-- After `a += b` the bytes are those of `a` followed by those of `b`. -/
def Concatenates (a : StringValue) (b : Option StringValue) (junk : Nat → UInt8) : Prop :=
  (a.object.plusAssign (b.map object) junk).map StringObject.bytes =
    some (a.bytes ++ (b.getD a).bytes)

/-- `(a + b) + c` and `a + (b + c)` have the same bytes. -/
def PlusAssociates (a b c : StringValue) (junk : Nat → UInt8) : Prop :=
  ∃ ab abc bc abc', a.object.plus b.object junk = some ab ∧ ab.plus c.object junk = some abc ∧
    b.object.plus c.object junk = some bc ∧ a.object.plus bc junk = some abc' ∧
    abc.bytes = abc'.bytes

/-- `a + ""` and `"" + a` have the bytes of `a`. -/
def EmptyIsUnit (a : StringValue) (junk : Nat → UInt8) : Prop :=
  ∃ empty, StringObject.new.assign junk (some []) uintMax = some empty ∧
    (a.object.plus empty junk).map StringObject.bytes = some a.bytes ∧
    (empty.plus a.object junk).map StringObject.bytes = some a.bytes

/-- Where `a += b` is concatenation: `b` is empty, or `a` is another object with characters of single
bytes and the sum has fewer than 2^32-1 bytes. -/
def AppendsPlainly (a : StringValue) (b : Option StringValue) : Prop :=
  (b.getD a).bytes = [] ∨
    ∃ b' ∈ b, SingleBytes a.bytes ∧ a.bytes.length + b'.bytes.length + 1 < 2 ^ 32

variable (a b c : StringValue) (junk : Nat → UInt8)

/-- The value of a string object, read off its bytes. -/
theorem toStr_eq : a.object.toStr = Str.ofBytes a.bytes := a.valid.toStr_eq a.wellFormed

/-- `+` concatenates exactly where the appending is a plain one: nothing is appended, or the first text
has single-byte characters only and the sizes fit. -/
theorem concatenates_iff (b : Option StringValue) : a.Concatenates b junk ↔ a.AppendsPlainly b := by
  rcases b with _ | b
  · show some a.bytes = some (a.bytes ++ a.bytes) ↔ a.bytes = [] ∨ _
    simp
  show (a.object.append b.object junk uintMax).map StringObject.bytes = some (a.bytes ++ b.bytes) ↔
    b.bytes = [] ∨ ∃ b' ∈ some b, SingleBytes a.bytes ∧ a.bytes.length + b'.bytes.length + 1 < 2 ^ 32
  simp only [Option.mem_def, Option.some.injEq, exists_eq_left']
  by_cases hnil : b.bytes = []
  · have hempty : ¬ (b.object.bytes ≠ [] ∧ uintMax ≠ 0) := fun hsome => hsome.1 hnil
    rw [b.valid.append_of_empty hempty, hnil, List.append_nil]
    exact iff_of_true rfl (.inl rfl)
  · have hiff := a.valid.exists_append_iff b.valid b.wellFormed hnil junk
    rw [a.valid.text_eq, b.valid.text_eq] at hiff
    have hsum : (a.object.append b.object junk uintMax).map StringObject.bytes =
        some (a.bytes ++ b.bytes) ↔
        ∃ s', a.object.append b.object junk uintMax = some s' ∧ s'.text = a.bytes ++ b.bytes := by
      rcases a.valid.append_cases b.valid b.wellFormed hnil junk with ⟨s, happend, hvalid, -⟩ |
        ⟨hnone, -⟩
      · rw [happend]
        simp [hvalid.text_eq]
      · rw [hnone]
        simp
    rw [hsum, or_iff_right hnil]
    exact hiff

/-- The empty text is a unit of `+` from both sides, for all values. -/
theorem emptyIsUnit : a.EmptyIsUnit junk := by
  obtain ⟨empty, hempty, hvalid, hstr⟩ := StringObject.allocated_new.toStr_assign junk
    (show ∀ b ∈ ([] : List UInt8), b ≠ 0 from fun b hb => absurd hb List.not_mem_nil) (by decide)
  have hnil : empty.bytes = [] := congrArg Str.m_buffer hstr
  have hlt := a.valid.length_lt
  unfold uintMax at hlt
  have hwell : WellFormed empty.bytes := by
    rw [hnil]
    exact wellFormed_nil
  obtain ⟨right, hright, -, hrightStr⟩ := a.valid.toStr_plus hvalid hwell junk
    (by rw [hnil, List.length_nil]; omega)
  obtain ⟨left, hleft, -, hleftStr⟩ := hvalid.toStr_plus a.valid a.wellFormed junk
    (by rw [hnil, List.length_nil]; omega)
  have hself : (Str.ofBytes a.bytes).m_buffer = a.bytes := Str.ofBytes_buffer a.wellFormed
  refine ⟨empty, hempty, ?_, ?_⟩
  · rw [hstr, Str.ofBytes_nil, toStr_eq, Str.plus_empty] at hrightStr
    rw [hright, Option.map_some, ← hself, ← hrightStr]
    rfl
  · have hplus : Str.empty.plus (Str.ofBytes a.bytes) = Str.ofBytes a.bytes :=
      Str.empty_plus a.wellFormed
    rw [hstr, Str.ofBytes_nil, toStr_eq, hplus] at hleftStr
    rw [hleft, Option.map_some, ← hself, ← hleftStr]
    rfl

/-- `+` is associative where the text in the middle is empty or the first one has single-byte
characters, and the sizes fit. -/
theorem plusAssociates (hplain : b.bytes = [] ∨ SingleBytes a.bytes)
    (hsize : a.bytes.length + b.bytes.length + c.bytes.length + 1 < 2 ^ 32) :
    PlusAssociates a b c junk := by
  have hlength : ∀ {s t u : StringObject}, t.Valid → WellFormed t.bytes →
      u.toStr = s.toStr.plus t.toStr → WellFormed u.bytes ∧
        u.bytes.length ≤ s.bytes.length + t.bytes.length := by
    intro s t u ht hwell hu
    have hbytes : u.bytes = (s.toStr.plus t.toStr).m_buffer := congrArg Str.m_buffer hu
    rw [hbytes]
    exact ⟨Str.wellFormed_ofBytes _, Str.length_plus_le s.toStr (t := t.toStr) hwell⟩
  obtain ⟨ab, hab, habValid, habStr⟩ := a.valid.toStr_plus b.valid b.wellFormed junk
    (by change a.bytes.length + b.bytes.length + 1 < _; omega)
  obtain ⟨bc, hbc, hbcValid, hbcStr⟩ := b.valid.toStr_plus c.valid c.wellFormed junk
    (by change b.bytes.length + c.bytes.length + 1 < _; omega)
  obtain ⟨-, hablen⟩ := hlength b.valid b.wellFormed habStr
  obtain ⟨hbcwell, hbclen⟩ := hlength c.valid c.wellFormed hbcStr
  change ab.bytes.length ≤ a.bytes.length + b.bytes.length at hablen
  change bc.bytes.length ≤ b.bytes.length + c.bytes.length at hbclen
  obtain ⟨abc, habc, -, habcStr⟩ := habValid.toStr_plus c.valid c.wellFormed junk
    (by change ab.bytes.length + c.bytes.length + 1 < _; omega)
  obtain ⟨abc', habc', -, habcStr'⟩ := a.valid.toStr_plus hbcValid hbcwell junk
    (by change a.bytes.length + bc.bytes.length + 1 < _; omega)
  refine ⟨ab, abc, bc, abc', hab, habc, hbc, habc', ?_⟩
  have hsame : abc.toStr = abc'.toStr := by
    rw [habcStr, habStr, habcStr', hbcStr, toStr_eq, toStr_eq, toStr_eq]
    rcases hplain with hnil | hsingle
    · have hempty : (Str.empty).plus (Str.ofBytes c.bytes) = Str.ofBytes c.bytes :=
        Str.empty_plus c.wellFormed
      rw [hnil, Str.ofBytes_nil, Str.plus_empty, hempty]
    · exact Str.plus_assoc hsingle b.wellFormed c.wellFormed
  exact congrArg Str.m_buffer hsame

end StringValue

/-- For all strings `a`, `b` and `c`, `b` being none where it is the same object as `a`, and any content
of fresh memory: `a += b` is concatenation, `+` associates (below 4 GiB) and the empty string is a
unit iff `b` is empty, or `a` is another object with characters of single bytes only and the sum
fits. -/
theorem appendConcatenates_iff (a c : StringValue) (b : Option StringValue) (junk : Nat → UInt8) :
    (a.Concatenates b junk ∧
        (a.bytes.length + (b.getD a).bytes.length + c.bytes.length + 1 < 2 ^ 32 →
          StringValue.PlusAssociates a (b.getD a) c junk) ∧
        a.EmptyIsUnit junk) ↔
      a.AppendsPlainly b := by
  rw [a.concatenates_iff junk b]
  refine ⟨And.left, fun hplain => ⟨hplain, fun hsize => ?_, a.emptyIsUnit junk⟩⟩
  refine StringValue.plusAssociates a (b.getD a) c junk ?_ hsize
  rcases hplain with hnil | ⟨_, -, hsingle, -⟩
  · exact .inl hnil
  · exact .inr hsingle

/-- The text of `c3 a9`, one character. -/
def eAcute : StringValue where
  object := ⟨[0xc3, 0xa9, 0], 1, 2, 3⟩
  valid := ⟨rfl, by decide, by decide, rfl, by decide +kernel, by decide⟩
  wellFormed := by
    refine ⟨[[0xc3, 0xa9]], fun c hc => ?_, rfl⟩
    rw [List.mem_singleton.mp hc]
    exact ⟨0xc3, [0xa9], rfl, by decide, by decide +kernel⟩

/-- The text "x". -/
def letterX : StringValue where
  object := ⟨[120, 0], 1, 1, 2⟩
  valid := ⟨rfl, by decide, by decide, rfl, by decide +kernel, by decide⟩
  wellFormed := by
    refine ⟨[[120]], fun c hc => ?_, rfl⟩
    rw [List.mem_singleton.mp hc]
    exact isSequence_singleton (by decide)

/-- "x" is stored over the second byte of the character; `(a + b) + c` is "x" and `a + (b + c)` is
empty; and a string is not appended to itself. -/
theorem not_appendConcatenates_eAcute :
    ¬ eAcute.Concatenates (some letterX) (fun _ => 0) ∧
      ¬ StringValue.PlusAssociates eAcute letterX letterX (fun _ => 0) ∧
      ¬ letterX.Concatenates none (fun _ => 0) := by
  refine ⟨?_, ?_, ?_⟩
  · unfold StringValue.Concatenates
    decide +kernel
  · rintro ⟨ab, abc, bc, abc', hab, habc, hbc, habc', hsame⟩
    have hleft : (eAcute.object.plus letterX.object (fun _ => 0)).bind
        (fun ab => ab.plus letterX.object (fun _ => 0)) = some ⟨[120, 0], 1, 1, 2⟩ := by
      decide +kernel
    have hright : (letterX.object.plus letterX.object (fun _ => 0)).bind
        (fun bc => eAcute.object.plus bc (fun _ => 0)) = some ⟨[0], 0, 0, 1⟩ := by
      decide +kernel
    rw [hab, Option.bind_some, habc] at hleft
    rw [hbc, Option.bind_some, habc'] at hright
    rw [Option.some.inj hleft, Option.some.inj hright] at hsame
    exact absurd hsame (by decide)
  · unfold StringValue.Concatenates
    decide +kernel

end Irstessi
