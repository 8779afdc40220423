import Irstessi.Lib.History
import Irstessi.Lib.Memory
import Irstessi.Text
import Irstessi.Types
import Mathlib.Data.List.TakeWhile

/-!
# The four fields of a `String`

A string object keeps a block of memory with a text and its NUL, the number of bytes of the text, the
number of its characters and the size of the block. The fields are set by different functions.

* `StringObject`, `StringObject.assign`, `append`, `trim`, `popBack`: the functions on the fields,
  with 32-bit numbers, fresh memory with any content and stores that may leave the block.
* `Valid`: the fields agree with the block.
* `StringOp`, `perform`, `actObjects`: operations on several objects.
* `KeepsValid`: the condition on an operation.
* **`objectsValid_iff`**: in a history of operations all objects stay valid and no store leaves its
  block iff all operations meet the condition.

The functions are written on the four fields, and what they store may not fit the block: then the result
is a fault. `Valid` says what the fields mean, and each function has a lemma that it keeps this, with
the condition that it needs. For texts that are taken or appended these are bounds near 2^32, where the
numbers wrap around; `popBack` leaves the number of characters as it is, which is right only for a text
that the walk does not read to its end. The history theorem is `History.good_iff` with the lemma that an
operation which does not meet its condition leaves some object invalid or stores outside of its block.
-/

namespace Irstessi

open Memory

/-- A value as an `unsigned int`. -/
def toUnsigned (n : Nat) : Nat := n % 2 ^ 32

/-- `-1U` -/
def uintMax : Nat := 2 ^ 32 - 1

/-- What goes wrong in a function of `String`. -/
inductive StringFault
  /-- `E_UNDERFLOW` -/
  | underflow
  /-- A store outside of the block. -/
  | outOfBounds
  deriving DecidableEq, Repr

/-- A `String` with its block of memory, which has `m_capacity` bytes.
Source: `string.h` `String` -/
structure StringObject where
  m_buffer : List UInt8
  m_length : Nat
  m_size : Nat
  m_capacity : Nat
  deriving DecidableEq, Repr

/-- The bytes before the NUL. -/
def cstring (buf : List UInt8) : List UInt8 := buf.takeWhile (· ≠ 0)

namespace StringObject

/-- The fields that the constructors start from. -/
def new : StringObject := ⟨[], 0, 0, 0⟩

variable (s : StringObject)

/-- The text that `m_buffer` points to. -/
def text : List UInt8 := cstring s.m_buffer

/-- Source: `string.cpp` `String::__duplicate` -/
def duplicate (buf : List UInt8) : Option (List UInt8) :=
  storeAll buf 0 (s.m_buffer.take s.m_size ++ [0])

/-- A greater block is allocated, with whatever is in it.
Source: `string.cpp` `String::__realloc` -/
def realloc (junk : Nat → UInt8) (bufSize : Nat) (bufCopy : Bool) : Option StringObject :=
  if bufSize > s.m_capacity then
    let buf := (List.range bufSize).map junk
    let copied := if bufCopy then s.duplicate buf else some buf
    copied.map fun buf => { s with m_buffer := buf, m_capacity := bufSize }
  else some s

/-- The bytes of a text are stored, then the NUL.
Source: `string.cpp` `String::__copy` -/
def copy (buf : List UInt8) (offset count : Nat) : Option StringObject :=
  let bytes := buf.take count
  (storeAll s.m_buffer offset (bytes ++ [0])).map fun buffer =>
    { s with
      m_buffer := buffer
      m_size := offset + bytes.length
      m_length := utf8Length (cstring buffer) uintMax }

/-- The number of bytes that `count` characters of a text take. -/
def bytesOf (buf : List UInt8) (count : Nat) : Nat :=
  if 0 < count then toUnsigned (distance buf (utf8Offset buf count)) else 0

/-- The text is none where the pointer is NULL.
Source: `string.cpp` `String::assign` -/
def assign (junk : Nat → UInt8) (buf : Option (List UInt8)) (count : Nat) : Option StringObject :=
  match buf with
  | some buf =>
      let count := bytesOf buf count
      (s.realloc junk (toUnsigned (count + 1)) false).bind fun s => s.copy buf 0 count
  | none =>
      (s.realloc junk 1 false).bind fun s =>
        (store s.m_buffer 0 0).map fun buffer =>
          { s with m_buffer := buffer, m_size := 0, m_length := 0 }

/-- Another object is appended: its text is stored at the byte `m_length`.
Source: `string.cpp` `String::append`, `string.h` `String::__append` -/
def append (t : StringObject) (junk : Nat → UInt8) (count : Nat) : Option StringObject :=
  if t.m_size ≠ 0 ∧ count ≠ 0 then
    let size := min t.m_size (toUnsigned (distance t.text (utf8Offset t.text count)))
    (s.realloc junk (toUnsigned (s.m_size + size + 1)) true).bind fun s =>
      s.copy t.text s.m_length size
  else some s

/-- `t - p` is taken for an `unsigned int`.
Source: `string.cpp` `String::trim` -/
def trim (junk : Nat → UInt8) : Option StringObject :=
  let p := Str.utf8TrimLeft s.text
  let t := Str.utf8TrimRight s.text
  let count := toUnsigned (2 ^ 32 + p.length - t.length)
  (new.assign junk (some p) (utf8Length p count)).bind fun trimmed =>
    s.assign junk (some trimmed.text) uintMax

/-- Source: `string.h` `String::isEmpty` -/
def isEmpty : Bool := s.m_buffer.getD 0 0 = 0 || s.m_length = 0

/-- Source: `string.cpp` `String::pop_back` -/
def popBack : Except StringFault StringObject :=
  if s.isEmpty then .error .underflow
  else match store s.m_buffer (s.m_size - 1) 0 with
    | some buffer => .ok { s with m_buffer := buffer, m_size := s.m_size - 1 }
    | none => .error .outOfBounds

/-- The fields agree with the block: the text ends at `m_size`, and its characters are `m_length`. -/
structure Valid (s : StringObject) : Prop where
  capacity : s.m_buffer.length = s.m_capacity
  unsigned : s.m_capacity < 2 ^ 32
  size_lt : s.m_size < s.m_capacity
  terminated : s.m_buffer[s.m_size]? = some 0
  text : ∀ b ∈ s.m_buffer.take s.m_size, b ≠ 0
  length : s.m_length = utf8Length (s.m_buffer.take s.m_size) s.m_size

end StringObject

/-! ## Operations on several objects -/

/-- An argument of a constructor, of `assign` or of `append`. -/
inductive StringSource
  | null
  /-- A text with the number of its characters to take. -/
  | text (buf : List UInt8) (count : UInt32)
  | number (value : Int)
  /-- Another object with the number of its characters to take. -/
  | object (j : Nat) (count : UInt32)
  deriving DecidableEq, Repr

/-- An operation on the object with the number `i`. -/
inductive StringOp
  | construct (i : Nat) (source : StringSource)
  | assign (i : Nat) (source : StringSource)
  | append (i : Nat) (source : StringSource)
  | trim (i : Nat)
  | popBack (i : Nat)
  | clear (i : Nat)
  deriving DecidableEq, Repr

/-- The text that `snprintf` writes for a number into 42 bytes. -/
def numberText (value : Int) : List UInt8 :=
  let digits := (Nat.toDigits 10 value.natAbs).map fun c => c.toNat.toUInt8
  (if value < 0 then 45 :: digits else digits).take 41

namespace StringSource

/-- The pointer to the text, with the number of characters; there may be no such object. -/
def pointer (objects : Nat → Option StringObject) :
    StringSource → Option (Option (List UInt8) × Nat)
  | null => some (none, uintMax)
  | text buf count => some (some (cstring buf), count.toNat)
  | number value => some (some (cstring (numberText value)), uintMax)
  | object j count => (objects j).map fun s => (some s.text, count.toNat)

end StringSource

/-- What a store outside of the block means. -/
def inBlock (s : Option StringObject) : Except StringFault StringObject :=
  match s with
  | some s => .ok s
  | none => .error .outOfBounds

/-- The object that an operation changes, with what becomes of it. Operations with objects that are
not there do nothing, assigning or appending an object to itself leaves it, and a text or a number is
appended by way of an object of its own.
Source: `string.h` `String` -/
def perform (objects : Nat → Option StringObject) (junk : Nat → UInt8) :
    StringOp → Option (Nat × Except StringFault StringObject)
  | .construct i source =>
      (source.pointer objects).map fun (buf, count) => (i, inBlock (StringObject.new.assign junk buf count))
  | .assign i source =>
      match objects i, source.pointer objects with
      | some s, some (buf, count) =>
          match source with
          | .object j _ => if j = i then none else some (i, inBlock (s.assign junk buf count))
          | _ => some (i, inBlock (s.assign junk buf count))
      | _, _ => none
  | .append i source =>
      match objects i, source.pointer objects with
      | some s, some (buf, count) =>
          match source with
          | .object j _ =>
              if j = i then none
              else (objects j).map fun t => (i, inBlock (s.append t junk count))
          | _ =>
              some (i, inBlock ((StringObject.new.assign junk buf count).bind fun t =>
                s.append t junk uintMax))
      | _, _ => none
  | .trim i => (objects i).map fun s => (i, inBlock (s.trim junk))
  | .popBack i => (objects i).map fun s => (i, s.popBack)
  | .clear i => (objects i).map fun s => (i, inBlock (s.assign junk (some []) uintMax))

/-- The objects after an operation, with the content of the memory that it allocates. An object at
which something goes wrong stays as it is. -/
def actObjects (objects : Nat → Option StringObject) (action : StringOp × (Nat → UInt8)) :
    Nat → Option StringObject :=
  match perform objects action.2 action.1 with
  | some (i, .ok s) => Function.update objects i (some s)
  | _ => objects

/-- All objects are valid. -/
def ObjectsValid (objects : Nat → Option StringObject) : Prop :=
  ∀ i s, objects i = some s → s.Valid

/-- No byte is stored outside of the block of the object. -/
def StaysInBlock (step : (Nat → Option StringObject) × StringOp × (Nat → UInt8)) : Prop :=
  ∀ i, perform step.1 step.2.2 step.2.1 ≠ some (i, .error .outOfBounds)

/-! ## The condition on an operation -/

/-- The text that an object holds which is assigned a text. -/
def takenText (buf : Option (List UInt8)) (count : Nat) : List UInt8 :=
  match buf with
  | some buf => buf.take (StringObject.bytesOf buf count)
  | none => []

/-- The number of bytes that are stored when an object with the text is appended. -/
def appendedBytes (text : List UInt8) (count : Nat) : Nat :=
  min text.length (toUnsigned (distance text (utf8Offset text count)))

/-- The block is made large enough for the bytes, or is so. -/
def StringObject.HasRoom (s : StringObject) (size : Nat) : Prop :=
  s.m_size + size + 1 < 2 ^ 32 ∨ s.m_length + size < s.m_capacity

/-- The number of bytes of the text is not 2^32-1, for which the NUL would be no byte more. -/
def StringSource.Fits (objects : Nat → Option StringObject) (source : StringSource) : Prop :=
  ∀ pointer ∈ source.pointer objects, ∀ buf ∈ pointer.1,
    StringObject.bytesOf buf pointer.2 ≠ uintMax

/-- What an object would have to be appended for the text to be. -/
def AppendsInBlock (s : StringObject) (text : List UInt8) (count : Nat) : Prop :=
  text ≠ [] → count ≠ 0 → s.HasRoom (appendedBytes text count)

/-- Texts fit, appended ones have room in the block, and `pop_back` is called on empty strings or on
texts that are not UTF-8 to their end. -/
def KeepsValid (objects : Nat → Option StringObject) : StringOp → Prop
  | .construct _ source => source.Fits objects
  | .assign i source => ∀ s ∈ objects i, source.Fits objects
  | .append i (.object j count) =>
      ∀ s ∈ objects i, ∀ t ∈ objects j, j ≠ i → AppendsInBlock s t.text count.toNat
  | .append i source =>
      ∀ s ∈ objects i, source.Fits objects ∧
        ∀ pointer ∈ source.pointer objects,
          AppendsInBlock s (takenText pointer.1 pointer.2) uintMax
  | .trim _ => True
  | .popBack i => ∀ s ∈ objects i, s.isEmpty = false → ¬ WellFormed s.text
  | .clear _ => True

/-! ## Walks -/

/-- A buffer is read up to its end at most. -/
theorem bytesOf_le (buf : List UInt8) (count : Nat) : StringObject.bytesOf buf count ≤ buf.length := by
  unfold StringObject.bytesOf toUnsigned distance
  split
  · exact (Nat.mod_le _ _).trans (Nat.sub_le _ _)
  · exact Nat.zero_le _

/-- What is read fits into 32 bits, by the conversion. -/
theorem bytesOf_le_uintMax (buf : List UInt8) (count : Nat) :
    StringObject.bytesOf buf count ≤ uintMax := by
  unfold StringObject.bytesOf toUnsigned uintMax
  split
  · have hlt := Nat.mod_lt (distance buf (utf8Offset buf count)) (show 0 < 2 ^ 32 by simp)
    omega
  · exact Nat.zero_le _

section walks

variable {cs : List (List UInt8)} {tail : List UInt8}

/-- A count that reaches over all sequences counts them all. -/
theorem utf8LengthLoop_of_le (hcs : ∀ c ∈ cs, IsSequence c) (htail : Stuck tail) {rounds count : Nat}
    (hrounds : cs.length ≤ rounds) (hcount : cs.flatten.length ≤ count) :
    utf8LengthLoop rounds (cs.flatten ++ tail) count = cs.length := by
  induction cs generalizing rounds count with
  | nil => exact utf8LengthLoop_of_stuck htail rounds count
  | cons c cs ih =>
      obtain ⟨rounds, rfl⟩ : ∃ n, rounds = n + 1 :=
        ⟨rounds - 1, by simp only [List.length_cons] at hrounds; omega⟩
      have hskip := utf8SkipSequence_append (hcs c List.mem_cons_self) (cs.flatten ++ tail)
      obtain ⟨b, t, rfl, htype, -⟩ := hcs c List.mem_cons_self
      simp only [List.flatten_cons, List.length_append, List.length_cons] at hcount hrounds ⊢
      rw [utf8SkipSequence, List.cons_append, List.headD_cons] at hskip
      have hne : count ≠ 0 := by omega
      rw [List.append_assoc, List.cons_append, utf8LengthLoop, if_neg hne]
      simp only [hskip]
      rw [ih (fun d hd => hcs d (List.mem_cons_of_mem _ hd)) (by omega)]
      rw [htype]
      split <;> omega

/-- Counting over all bytes gives the number of characters up to where the walk stops. -/
theorem utf8Length_of_le (hcs : ∀ c ∈ cs, IsSequence c) (htail : Stuck tail) {count : Nat}
    (hcount : cs.flatten.length ≤ count) : utf8Length (cs.flatten ++ tail) count = cs.length := by
  refine utf8LengthLoop_of_le hcs htail ?_ hcount
  have hle := Blocks.length_le_length_flatten (allBlocks_of_isSequence hcs)
  rw [List.length_append]
  omega

end walks

/-- All counts from the length of the text on count the same. -/
theorem utf8Length_eq_of_le {buf : List UInt8} {count : Nat} (h : buf.length ≤ count) :
    utf8Length buf count = utf8Length buf buf.length := by
  obtain ⟨cs, tail, hcs, htail, rfl⟩ := exists_sequences buf
  have hflatten : cs.flatten.length ≤ (cs.flatten ++ tail).length := by simp
  rw [utf8Length_of_le hcs htail (hflatten.trans h), utf8Length_of_le hcs htail hflatten]

/-- There are no more characters than bytes. -/
theorem utf8Length_le (buf : List UInt8) : utf8Length buf buf.length ≤ buf.length := by
  obtain ⟨cs, tail, hcs, htail, rfl⟩ := exists_sequences buf
  have hle := Blocks.length_le_length_flatten (allBlocks_of_isSequence hcs)
  rw [utf8Length_of_le hcs htail (by simp), List.length_append]
  omega

/-- A text is read to the end iff nothing is left at which the walk stops. -/
theorem wellFormed_iff_tail_eq_nil {cs : List (List UInt8)} {tail : List UInt8}
    (hcs : ∀ c ∈ cs, IsSequence c) (htail : Stuck tail) :
    WellFormed (cs.flatten ++ tail) ↔ tail = [] := by
  constructor
  · rintro ⟨ds, hds, heq⟩
    have hwalk := utf8Offset_sequences hcs htail (cs.length + ds.length)
    have hwalk' := utf8Offset_sequences hds (.inl rfl) (cs.length + ds.length)
    rw [List.append_nil, ← heq, hwalk, List.drop_eq_nil_of_le (by omega),
      List.drop_eq_nil_of_le (by omega)] at hwalk'
    simpa using hwalk'
  · rintro rfl
    exact ⟨cs, hcs, List.append_nil _⟩

/-- Taking the last byte off leaves the walk where it stops. -/
theorem stuck_dropLast {tail : List UInt8} (h : Stuck tail) : Stuck tail.dropLast := by
  rcases List.eq_nil_or_concat tail with rfl | ⟨u, x, rfl⟩
  · exact .inl rfl
  · rw [List.concat_eq_append] at h ⊢
    rw [List.dropLast_concat]
    rcases h with h | h
    · simp at h
    · rcases u with _ | ⟨b, u⟩
      · exact .inl rfl
      · right
        by_contra hsome
        obtain ⟨p, hp⟩ := Option.ne_none_iff_exists'.mp hsome
        obtain ⟨c, hc, heq⟩ := utf8SkipSequence_eq_some hp
        have hskip := utf8SkipSequence_append hc (p ++ [x])
        rw [← List.append_assoc, ← heq, h] at hskip
        simp at hskip

/-- A sequence without its last byte is none. -/
theorem IsSequence.stuck_dropLast {c : List UInt8} (h : IsSequence c) : Stuck c.dropLast := by
  obtain ⟨b, t, rfl, htype, -⟩ := h
  rcases List.eq_nil_or_concat t with rfl | ⟨u, x, rfl⟩
  · exact .inl rfl
  · right
    have hdrop : (b :: (u ++ [x])).dropLast = b :: u := by
      rw [← List.cons_append, List.dropLast_concat]
    rw [List.concat_eq_append, hdrop]
    by_contra hsome
    obtain ⟨p, hp⟩ := Option.ne_none_iff_exists'.mp hsome
    obtain ⟨d, ⟨b', t', rfl, htype', -⟩, heq⟩ := utf8SkipSequence_eq_some hp
    rw [List.cons_append] at heq
    obtain ⟨rfl, hu⟩ := List.cons.inj heq
    have hlength := congrArg List.length hu
    simp only [List.concat_eq_append, List.length_append, List.length_singleton] at htype hlength
    omega

/-- A text without its last byte has as many characters iff the walk does not reach its end. -/
theorem utf8Length_dropLast_iff {buf : List UInt8} (hne : buf ≠ []) :
    utf8Length buf.dropLast buf.dropLast.length = utf8Length buf buf.length ↔ ¬ WellFormed buf := by
  obtain ⟨cs, tail, hcs, htail, rfl⟩ := exists_sequences buf
  rw [wellFormed_iff_tail_eq_nil hcs htail, utf8Length_of_le hcs htail (by simp)]
  by_cases hnil : tail = []
  · subst hnil
    simp only [List.append_nil] at hne ⊢
    rcases List.eq_nil_or_concat cs with rfl | ⟨ds, c, rfl⟩
    · exact absurd rfl hne
    · rw [List.concat_eq_append] at hcs ⊢
      have hc := hcs c (by simp)
      have hflatten : (ds ++ [c]).flatten.dropLast = ds.flatten ++ c.dropLast := by
        rw [List.flatten_append, List.flatten_singleton, List.dropLast_append_of_ne_nil hc.ne_nil]
      rw [hflatten, utf8Length_of_le (fun d hd => hcs d (List.mem_append_left _ hd))
        hc.stuck_dropLast (by simp)]
      simp
  · rw [List.dropLast_append_of_ne_nil hnil, utf8Length_of_le hcs (stuck_dropLast htail) (by simp)]
    exact iff_of_true rfl hnil

/-! ## What the functions do -/

/-- A NUL ends the text in front of it. -/
theorem cstring_append_nul {u : List UInt8} (hu : ∀ b ∈ u, b ≠ 0) (v : List UInt8) :
    cstring (u ++ 0 :: v) = u := by
  unfold cstring
  rw [List.takeWhile_append_of_pos (by simpa using hu)]
  simp

/-- A C string has no NUL within it. -/
theorem ne_zero_of_mem_cstring {buf : List UInt8} {b : UInt8} (h : b ∈ cstring buf) : b ≠ 0 := by
  simpa using List.mem_takeWhile_imp h

namespace StringObject

variable {s t : StringObject} {junk : Nat → UInt8}

/-- The bytes of the text. -/
def bytes (s : StringObject) : List UInt8 := s.m_buffer.take s.m_size

namespace Valid

variable (h : s.Valid)

include h

/-- The bytes of a valid object are as many as its size says. -/
theorem length_bytes : s.bytes.length = s.m_size := by
  rw [bytes, List.length_take, h.capacity]
  exact Nat.min_eq_left h.size_lt.le

/-- The buffer of a valid object: its bytes, the NUL, and what is left of the capacity. -/
theorem buffer_eq : s.m_buffer = s.bytes ++ 0 :: s.m_buffer.drop (s.m_size + 1) := by
  have hlt : s.m_size < s.m_buffer.length := by
    rw [h.capacity]
    exact h.size_lt
  have hnul : s.m_buffer[s.m_size] = 0 :=
    Option.some.inj ((List.getElem?_eq_getElem hlt).symm.trans h.terminated)
  rw [bytes, ← hnul, List.getElem_cons_drop, List.take_append_drop]

/-- The pointer to the text is one to its bytes. -/
theorem text_eq : s.text = s.bytes := by
  unfold StringObject.text
  rw [h.buffer_eq]
  exact cstring_append_nul h.text _

/-- A valid object has no more characters than bytes. -/
theorem length_le : s.m_length ≤ s.m_size := by
  have hle := utf8Length_le s.bytes
  rw [h.length_bytes] at hle
  rw [h.length]
  exact hle

/-- The size of a valid object leaves room for the NUL in 32 bits. -/
theorem size_le : s.m_size ≤ 2 ^ 32 - 2 := by
  have hlt := h.size_lt
  have hunsigned := h.unsigned
  omega

/-- `isEmpty` looks at the first byte and at the length. -/
theorem isEmpty_iff : s.isEmpty = true ↔ s.bytes = [] ∨ s.m_length = 0 := by
  unfold isEmpty
  rw [Bool.or_eq_true, decide_eq_true_iff, decide_eq_true_iff, h.buffer_eq]
  apply or_congr_left
  rcases hbytes : s.bytes with _ | ⟨b, u⟩
  · simp
  · have hb : b ≠ 0 := h.text b (by
      show b ∈ s.bytes
      rw [hbytes]
      exact List.mem_cons_self)
    simpa using hb

end Valid

/-- Storing bytes and a NUL behind a text without a NUL leaves a valid object. -/
theorem copy_of_lt (s : StringObject) (buf : List UInt8) (offset count : Nat)
    (hcapacity : s.m_buffer.length = s.m_capacity) (hunsigned : s.m_capacity < 2 ^ 32)
    (hfront : ∀ b ∈ s.m_buffer.take offset, b ≠ 0) (hbuf : ∀ b ∈ buf, b ≠ 0)
    (hroom : offset + (buf.take count).length < s.m_capacity) :
    ∃ s', s.copy buf offset count = some s' ∧ s'.Valid ∧ s'.m_capacity = s.m_capacity ∧
      s'.bytes = s.m_buffer.take offset ++ buf.take count := by
  have hoffset : (s.m_buffer.take offset).length = offset := by
    rw [List.length_take]
    exact Nat.min_eq_left (by omega)
  have hall : ∀ b ∈ s.m_buffer.take offset ++ buf.take count, b ≠ 0 :=
    List.forall_mem_append.mpr ⟨hfront, fun b hb => hbuf b (List.mem_of_mem_take hb)⟩
  have hsize : (s.m_buffer.take offset ++ buf.take count).length = offset + (buf.take count).length := by
    rw [List.length_append, hoffset]
  have hfits : offset + (buf.take count ++ [0]).length ≤ s.m_buffer.length := by
    rw [List.length_append, List.length_singleton]
    omega
  have hstores := storeAll_of_le _ hfits
  obtain ⟨rest, hrest⟩ : ∃ rest, rest = s.m_buffer.drop (offset + (buf.take count ++ [0]).length) :=
    ⟨_, rfl⟩
  have hbuffer : s.m_buffer.take offset ++ (buf.take count ++ [0]) ++
      s.m_buffer.drop (offset + (buf.take count ++ [0]).length) =
      (s.m_buffer.take offset ++ buf.take count) ++ 0 :: rest := by
    rw [hrest]
    simp
  rw [hbuffer] at hstores
  have hlength : ((s.m_buffer.take offset ++ buf.take count) ++ 0 :: rest).length = s.m_capacity := by
    rw [← hbuffer, ← hcapacity]
    simp only [List.length_append, List.length_take, List.length_drop, List.length_singleton] at hroom ⊢
    omega
  have hcopy : s.copy buf offset count =
      some ⟨s.m_buffer.take offset ++ buf.take count ++ 0 :: rest,
        utf8Length (cstring (s.m_buffer.take offset ++ buf.take count ++ 0 :: rest)) uintMax,
        offset + (buf.take count).length, s.m_capacity⟩ := by
    rw [copy, hstores]
    rfl
  refine ⟨_, hcopy, ⟨hlength, hunsigned, hroom, ?_, ?_, ?_⟩, rfl, ?_⟩
  · dsimp only
    rw [← hsize, List.getElem?_append_right le_rfl, Nat.sub_self]
    rfl
  · dsimp only
    rw [← hsize, List.take_left]
    exact hall
  · dsimp only
    rw [cstring_append_nul hall, ← hsize, List.take_left, utf8Length_eq_of_le]
    rw [hsize]
    unfold uintMax
    omega
  · rw [bytes]
    dsimp only
    rw [← hsize, List.take_left]

/-- A copy that needs the whole capacity leaves no room for the NUL, which is written outside. -/
theorem copy_of_le {buf : List UInt8} {offset count : Nat} (hcapacity : s.m_buffer.length = s.m_capacity)
    (hoffset : offset ≤ s.m_capacity) (hroom : s.m_capacity ≤ offset + (buf.take count).length) :
    s.copy buf offset count = none := by
  rw [copy, storeAll_of_lt _ (by omega) (by rw [List.length_append, List.length_singleton]; omega)]
  rfl

/-- Without copying, what matters of the block is its size. -/
theorem realloc_of_allocated (junk : Nat → UInt8) (hcapacity : s.m_buffer.length = s.m_capacity)
    (bufSize : Nat) :
    ∃ buffer, s.realloc junk bufSize false =
        some { s with m_buffer := buffer, m_capacity := max s.m_capacity bufSize } ∧
      buffer.length = max s.m_capacity bufSize := by
  unfold realloc
  split
  next hlt =>
    rw [max_eq_right hlt.le]
    exact ⟨(List.range bufSize).map junk, rfl, by simp⟩
  next hle =>
    rw [max_eq_left (by omega)]
    exact ⟨s.m_buffer, rfl, hcapacity⟩

/-- With copying, the text stays. -/
theorem Valid.realloc (h : s.Valid) (junk : Nat → UInt8) (bufSize : Nat) :
    ∃ buffer, s.realloc junk bufSize true =
        some { s with m_buffer := buffer, m_capacity := max s.m_capacity bufSize } ∧
      buffer.length = max s.m_capacity bufSize ∧ buffer.take s.m_size = s.bytes := by
  unfold StringObject.realloc
  split
  next hlt =>
    rw [max_eq_right hlt.le]
    have hsize := h.size_lt
    have hlength := h.length_bytes
    have hfits : 0 + (s.bytes ++ [0]).length ≤ ((List.range bufSize).map junk).length := by
      simp only [List.length_append, List.length_singleton, List.length_map, List.length_range]
      omega
    have hstores := storeAll_of_le _ hfits
    rw [List.take_zero, List.nil_append] at hstores
    dsimp only
    rw [if_pos rfl, duplicate, ← bytes, hstores]
    refine ⟨_, rfl, ?_, ?_⟩
    · simp only [List.length_append, List.length_singleton, List.length_drop, List.length_map,
        List.length_range]
      omega
    · rw [List.append_assoc, ← hlength, List.take_left]
  next hle =>
    rw [max_eq_left (by omega)]
    exact ⟨s.m_buffer, rfl, h.capacity, rfl⟩

/-- What assigning needs of an object: the block has the size that is recorded. -/
structure Allocated (s : StringObject) : Prop where
  capacity : s.m_buffer.length = s.m_capacity
  unsigned : s.m_capacity < 2 ^ 32

/-- A new object has no block, and may be assigned to. -/
theorem allocated_new : new.Allocated := ⟨rfl, by decide⟩

/-- A valid object may be assigned to. -/
theorem Valid.allocated (h : s.Valid) : s.Allocated := ⟨h.capacity, h.unsigned⟩

/-- Assigning sets all fields. -/
theorem Allocated.assign (h : s.Allocated) (junk : Nat → UInt8) (buf : Option (List UInt8)) (count : Nat)
    (hbuf : ∀ u ∈ buf, ∀ b ∈ u, b ≠ 0) (hfits : ∀ u ∈ buf, bytesOf u count ≠ uintMax) :
    ∃ s', s.assign junk buf count = some s' ∧ s'.Valid ∧ s'.bytes = takenText buf count := by
  rcases buf with _ | buf
  · obtain ⟨buffer, hrealloc, hlength⟩ := realloc_of_allocated junk h.capacity 1
    have hstore : store buffer 0 0 = some (buffer.set 0 0) := store_of_lt (by omega)
    have hunsigned := h.unsigned
    have hassign : s.assign junk none count =
        some ⟨buffer.set 0 0, 0, 0, max s.m_capacity 1⟩ := by
      unfold StringObject.assign
      dsimp only
      rw [hrealloc, Option.bind_some, hstore]
      rfl
    refine ⟨_, hassign, ⟨?_, ?_, ?_, ?_, ?_, ?_⟩, rfl⟩
    · rw [List.length_set, hlength]
    · show max s.m_capacity 1 < 2 ^ 32
      omega
    · show 0 < max s.m_capacity 1
      omega
    · exact List.getElem?_set_self (by omega)
    · simp
    · rfl
  · have hbufle := bytesOf_le buf count
    have hmax := bytesOf_le_uintMax buf count
    have hne := hfits buf rfl
    unfold uintMax at hmax hne
    have hsize : toUnsigned (bytesOf buf count + 1) = bytesOf buf count + 1 := by
      unfold toUnsigned
      exact Nat.mod_eq_of_lt (by omega)
    obtain ⟨buffer, hrealloc, hlength⟩ :=
      realloc_of_allocated junk h.capacity (bytesOf buf count + 1)
    have hunsigned := h.unsigned
    obtain ⟨s', hcopy, hvalid, -, hbytes⟩ := copy_of_lt
      { s with m_buffer := buffer, m_capacity := max s.m_capacity (bytesOf buf count + 1) }
      buf 0 (bytesOf buf count) hlength (by dsimp only; omega) (by simp) (hbuf buf rfl)
      (by rw [List.length_take, Nat.min_eq_left hbufle]; dsimp only; omega)
    refine ⟨s', ?_, hvalid, hbytes⟩
    unfold StringObject.assign
    dsimp only
    rw [hsize, hrealloc, Option.bind_some, hcopy]

/-- A text of 2^32-1 bytes does not fit. -/
theorem Allocated.assign_of_eq (h : s.Allocated) {buf : List UInt8} {count : Nat}
    (hfits : bytesOf buf count = uintMax) : s.assign junk (some buf) count = none := by
  have hbufle := bytesOf_le buf count
  have hunsigned := h.unsigned
  have hsize : toUnsigned (bytesOf buf count + 1) = 0 := by
    rw [hfits]
    rfl
  unfold StringObject.assign
  dsimp only
  rw [hsize, realloc, if_neg (Nat.not_lt_zero _), Option.bind_some]
  apply copy_of_le h.capacity (Nat.zero_le _)
  rw [List.length_take, Nat.min_eq_left hbufle, hfits]
  unfold uintMax
  omega

/-- There is room for a text iff length and size stay below the capacity, or below the one that is asked
for modulo 2^32. -/
theorem Valid.hasRoom_iff (h : s.Valid) (size : Nat) (hsize : size < 2 ^ 32 - 1) :
    s.HasRoom size ↔ s.m_length + size < max s.m_capacity (toUnsigned (s.m_size + size + 1)) := by
  have hlength := h.length_le
  have hlt := h.size_lt
  have hunsigned := h.unsigned
  unfold HasRoom toUnsigned
  by_cases hwrap : s.m_size + size + 1 < 2 ^ 32
  · rw [Nat.mod_eq_of_lt hwrap]
    omega
  · have hmod : (s.m_size + size + 1) % 2 ^ 32 = s.m_size + size + 1 - 2 ^ 32 := by
      rw [Nat.mod_eq_sub_mod (by omega), Nat.mod_eq_of_lt (by omega)]
    rw [hmod]
    omega

/-- Nothing is appended of an empty text. -/
theorem Valid.append_of_empty (ht : t.Valid) {count : Nat} (hsome : ¬ (t.bytes ≠ [] ∧ count ≠ 0)) :
    s.append t junk count = some s := by
  apply if_neg
  rintro ⟨hsize, hcount⟩
  refine hsome ⟨fun hnil => hsize ?_, hcount⟩
  rw [← ht.length_bytes, hnil]
  rfl

/-- The block in which an appended text is stored. -/
theorem Valid.append_eq (h : s.Valid) (ht : t.Valid) (junk : Nat → UInt8) {count : Nat}
    (hsome : t.bytes ≠ [] ∧ count ≠ 0) :
    ∃ buffer, s.append t junk count = StringObject.copy
        ⟨buffer, s.m_length, s.m_size,
          max s.m_capacity (toUnsigned (s.m_size + appendedBytes t.bytes count + 1))⟩
        t.bytes s.m_length (appendedBytes t.bytes count) ∧
      buffer.length =
        max s.m_capacity (toUnsigned (s.m_size + appendedBytes t.bytes count + 1)) ∧
      buffer.take s.m_length = s.bytes.take s.m_length := by
  have hsize : t.m_size ≠ 0 := by
    rw [← ht.length_bytes]
    exact fun hzero => hsome.1 (List.eq_nil_of_length_eq_zero hzero)
  obtain ⟨buffer, hrealloc, hlength, htake⟩ :=
    h.realloc junk (toUnsigned (s.m_size + appendedBytes t.bytes count + 1))
  refine ⟨buffer, ?_, hlength, ?_⟩
  · unfold StringObject.append
    rw [if_pos ⟨hsize, hsome.2⟩]
    dsimp only
    rw [ht.text_eq, ← ht.length_bytes]
    rw [appendedBytes] at hrealloc ⊢
    rw [hrealloc, Option.bind_some]
  · rw [← htake, List.take_take, Nat.min_eq_left h.length_le]

/-- As many bytes are appended as the walk over the characters has got to. -/
theorem Valid.length_take (ht : t.Valid) (count : Nat) :
    (t.bytes.take (appendedBytes t.bytes count)).length = appendedBytes t.bytes count ∧
      appendedBytes t.bytes count < 2 ^ 32 - 1 := by
  have hle : appendedBytes t.bytes count ≤ t.bytes.length := Nat.min_le_left _ _
  have hlength := ht.length_bytes
  have hsize := ht.size_le
  refine ⟨?_, by omega⟩
  rw [List.length_take]
  exact Nat.min_eq_left hle

/-- Appending stores the bytes at the byte `m_length`, if there is room. -/
theorem Valid.append (h : s.Valid) (ht : t.Valid) (junk : Nat → UInt8) {count : Nat}
    (hsome : t.bytes ≠ [] ∧ count ≠ 0) (hroom : s.HasRoom (appendedBytes t.bytes count)) :
    ∃ s', s.append t junk count = some s' ∧ s'.Valid ∧
      s'.bytes = s.bytes.take s.m_length ++ t.bytes.take (appendedBytes t.bytes count) := by
  obtain ⟨hbuflen, hfew⟩ := ht.length_take count
  rw [h.hasRoom_iff _ hfew] at hroom
  obtain ⟨buffer, happend, hlength, htake⟩ := h.append_eq ht junk hsome
  have hunsigned : max s.m_capacity (toUnsigned (s.m_size + appendedBytes t.bytes count + 1)) <
      2 ^ 32 := max_lt h.unsigned (Nat.mod_lt _ (by simp))
  have hfront : ∀ b ∈ buffer.take s.m_length, b ≠ 0 := by
    rw [htake]
    exact fun b hb => h.text b (List.mem_of_mem_take hb)
  obtain ⟨s', hcopy, hvalid, -, hresult⟩ := copy_of_lt
    ⟨buffer, s.m_length, s.m_size,
      max s.m_capacity (toUnsigned (s.m_size + appendedBytes t.bytes count + 1))⟩
    t.bytes s.m_length (appendedBytes t.bytes count) hlength hunsigned hfront ht.text
    (by rw [hbuflen]; exact hroom)
  refine ⟨s', happend.trans hcopy, hvalid, ?_⟩
  rw [hresult, htake]

/-- Without room the bytes run out of the block. -/
theorem Valid.append_of_not_hasRoom (h : s.Valid) (ht : t.Valid) (junk : Nat → UInt8) {count : Nat}
    (hsome : t.bytes ≠ [] ∧ count ≠ 0) (hroom : ¬ s.HasRoom (appendedBytes t.bytes count)) :
    s.append t junk count = none := by
  obtain ⟨hbuflen, hfew⟩ := ht.length_take count
  rw [h.hasRoom_iff _ hfew] at hroom
  obtain ⟨buffer, happend, hlength, -⟩ := h.append_eq ht junk hsome
  have hlt := h.size_lt
  have hslength := h.length_le
  rw [happend]
  refine copy_of_le hlength ?_ ?_
  · dsimp only
    omega
  · rw [hbuflen]
    dsimp only
    omega

/-- Trimming from the left leaves the end of the text. -/
theorem utf8TrimLeft_suffix (buf : List UInt8) : Str.utf8TrimLeft buf <:+ buf := by
  induction buf with
  | nil => exact List.suffix_rfl
  | cons b buf ih =>
      rw [Str.utf8TrimLeft]
      split_ifs
      · exact List.suffix_rfl
      · exact ih.trans (List.suffix_cons b buf)
      · exact List.suffix_rfl
      · exact ih.trans (List.suffix_cons b buf)

/-- Trimming a valid object succeeds and gives a valid one. -/
theorem Valid.trim (h : s.Valid) (junk : Nat → UInt8) : ∃ s', s.trim junk = some s' ∧ s'.Valid := by
  have hsuffix := utf8TrimLeft_suffix s.text
  have hsize := h.size_le
  have htextlen : s.text.length = s.m_size := by rw [h.text_eq, h.length_bytes]
  have hne : ∀ b ∈ Str.utf8TrimLeft s.text, b ≠ 0 := by
    intro b hb
    have hmem := hsuffix.mem hb
    rw [h.text_eq] at hmem
    exact h.text b hmem
  unfold StringObject.trim
  dsimp only
  obtain ⟨trimmed, hassign, hvalid, hbytes⟩ := allocated_new.assign junk
    (some (Str.utf8TrimLeft s.text)) (utf8Length (Str.utf8TrimLeft s.text)
      (toUnsigned (2 ^ 32 + (Str.utf8TrimLeft s.text).length - (Str.utf8TrimRight s.text).length)))
    (by
      rintro u ⟨rfl⟩
      exact hne)
    (by
      rintro u ⟨rfl⟩
      have hle := bytesOf_le (Str.utf8TrimLeft s.text) (utf8Length (Str.utf8TrimLeft s.text)
        (toUnsigned (2 ^ 32 + (Str.utf8TrimLeft s.text).length - (Str.utf8TrimRight s.text).length)))
      have hlen := hsuffix.length_le
      unfold uintMax
      omega)
  rw [hassign, Option.bind_some]
  obtain ⟨s', hassign', hvalid', -⟩ := h.allocated.assign junk (some trimmed.text) uintMax
    (by
      rintro u ⟨rfl⟩
      rw [hvalid.text_eq]
      exact hvalid.text)
    (by
      rintro u ⟨rfl⟩
      have hle := bytesOf_le trimmed.text uintMax
      have hlen : trimmed.text.length = trimmed.m_size := by rw [hvalid.text_eq, hvalid.length_bytes]
      have htrimmed := hvalid.size_le
      unfold uintMax at hle ⊢
      omega)
  exact ⟨s', hassign', hvalid'⟩

/-- Taking the last byte off keeps all fields right iff the walk does not reach the end. -/
theorem Valid.popBack (h : s.Valid) (hempty : s.isEmpty = false) :
    ∃ s', s.popBack = .ok s' ∧ (s'.Valid ↔ ¬ WellFormed s.bytes) := by
  have hnot : ¬ (s.bytes = [] ∨ s.m_length = 0) := by
    rw [← h.isEmpty_iff, hempty]
    exact Bool.false_ne_true
  have hne : s.bytes ≠ [] := fun hnil => hnot (.inl hnil)
  have hpos : 0 < s.m_size := by
    rw [← h.length_bytes]
    exact List.length_pos_iff.mpr hne
  have hlt := h.size_lt
  have hcapacity := h.capacity
  have hstore : store s.m_buffer (s.m_size - 1) 0 = some (s.m_buffer.set (s.m_size - 1) 0) :=
    store_of_lt (by omega)
  have htake : (s.m_buffer.set (s.m_size - 1) 0).take (s.m_size - 1) = s.bytes.dropLast := by
    rw [List.take_set_of_le le_rfl, List.dropLast_eq_take, h.length_bytes, bytes, List.take_take,
      Nat.min_eq_left (Nat.sub_le _ _)]
  refine ⟨{ s with m_buffer := s.m_buffer.set (s.m_size - 1) 0, m_size := s.m_size - 1 }, ?_, ?_⟩
  · unfold StringObject.popBack
    rw [hempty, hstore]
    rfl
  · have hlength := h.length
    rw [← bytes, ← h.length_bytes] at hlength
    have hdrop : s.bytes.dropLast.length = s.m_size - 1 := by rw [List.length_dropLast, h.length_bytes]
    rw [← utf8Length_dropLast_iff hne, ← hlength, hdrop]
    constructor
    · intro hvalid
      have hnew := hvalid.length
      dsimp only at hnew
      rw [htake] at hnew
      exact hnew.symm
    · intro hnew
      refine ⟨?_, h.unsigned, ?_, ?_, ?_, ?_⟩
      · rw [List.length_set, h.capacity]
      · dsimp only
        omega
      · exact List.getElem?_set_self (by omega)
      · dsimp only
        rw [htake]
        exact fun b hb => h.text b (List.dropLast_subset _ hb)
      · dsimp only
        rw [htake]
        exact hnew.symm

end StringObject

/-! ## Histories -/

open StringObject

/-- What an operation is to do with its object: leave it valid, or throw. -/
def GoodResult (result : Except StringFault StringObject) : Prop :=
  (∃ s, result = .ok s ∧ s.Valid) ∨ result = .error .underflow

/-- A result is good iff it is a valid object. -/
theorem goodResult_ok_iff {s : StringObject} : GoodResult (.ok s) ↔ s.Valid := by
  simp [GoodResult]

/-- Leaving the block is no good result. -/
theorem not_goodResult_outOfBounds : ¬ GoodResult (.error .outOfBounds) := by
  simp [GoodResult]

section good

variable {s t : StringObject} {objects : Nat → Option StringObject} (junk : Nat → UInt8)

/-- An assignment is good iff its size is not the one that wraps around to 0. -/
theorem goodResult_assign_iff (h : s.Allocated) {buf : Option (List UInt8)} (count : Nat)
    (hbuf : ∀ u ∈ buf, ∀ b ∈ u, b ≠ 0) :
    GoodResult (inBlock (s.assign junk buf count)) ↔ ∀ u ∈ buf, bytesOf u count ≠ uintMax := by
  constructor
  · rintro hgood u rfl hmax
    rw [h.assign_of_eq hmax] at hgood
    exact not_goodResult_outOfBounds hgood
  · intro hfits
    obtain ⟨s', hassign, hvalid, -⟩ := h.assign junk buf count hbuf hfits
    rw [hassign]
    exact goodResult_ok_iff.mpr hvalid

/-- Appending is good iff it stays within the block. -/
theorem goodResult_append_iff (h : s.Valid) (ht : t.Valid) {count : Nat} :
    GoodResult (inBlock (s.append t junk count)) ↔ AppendsInBlock s t.bytes count := by
  by_cases hsome : t.bytes ≠ [] ∧ count ≠ 0
  · by_cases hroom : s.HasRoom (appendedBytes t.bytes count)
    · obtain ⟨s', happend, hvalid, -⟩ := h.append ht junk hsome hroom
      rw [happend]
      exact iff_of_true (goodResult_ok_iff.mpr hvalid) fun _ _ => hroom
    · rw [h.append_of_not_hasRoom ht junk hsome hroom]
      exact iff_of_false not_goodResult_outOfBounds fun happends => hroom (happends hsome.1 hsome.2)
  · rw [ht.append_of_empty hsome]
    exact iff_of_true (goodResult_ok_iff.mpr h) fun htext hcount => absurd ⟨htext, hcount⟩ hsome

/-- Of a text that is not empty a character is dropped well exactly where the text is not well-formed;
of an empty one nothing is dropped. -/
theorem goodResult_popBack_iff (h : s.Valid) :
    GoodResult s.popBack ↔ (s.isEmpty = false → ¬ WellFormed s.text) := by
  rw [h.text_eq]
  by_cases hempty : s.isEmpty = true
  · have hunderflow : s.popBack = .error .underflow := if_pos hempty
    rw [hunderflow]
    exact iff_of_true (.inr rfl) fun hfalse => absurd (hempty.symm.trans hfalse) (by simp)
  · rw [Bool.not_eq_true] at hempty
    obtain ⟨s', hpop, hvalid⟩ := h.popBack hempty
    rw [hpop, goodResult_ok_iff, hvalid]
    exact ⟨fun hnot _ => hnot, fun hnot => hnot hempty⟩

/-- What a source points to has no NUL before its end. -/
theorem ne_zero_of_pointer {source : StringSource} {pointer : Option (List UInt8) × Nat}
    (h : pointer ∈ source.pointer objects) : ∀ u ∈ pointer.1, ∀ b ∈ u, b ≠ 0 := by
  cases source with
  | null =>
      obtain rfl := Option.some.inj h
      exact nofun
  | text buf count =>
      obtain rfl := Option.some.inj h
      rintro u ⟨rfl⟩ b hb
      exact ne_zero_of_mem_cstring hb
  | number value =>
      obtain rfl := Option.some.inj h
      rintro u ⟨rfl⟩ b hb
      exact ne_zero_of_mem_cstring hb
  | object j count =>
      obtain ⟨s, -, rfl⟩ := Option.map_eq_some_iff.mp h
      rintro u ⟨rfl⟩ b hb
      exact ne_zero_of_mem_cstring hb

/-- The text of another object always fits. -/
theorem fits_object (hobjects : ObjectsValid objects) (j : Nat) (count : UInt32) :
    (StringSource.object j count).Fits objects := by
  intro pointer hpointer u hu
  obtain ⟨t, ht, rfl⟩ := Option.map_eq_some_iff.mp hpointer
  obtain rfl := Option.some.inj hu
  have hvalid := hobjects j t ht
  have hle := bytesOf_le t.text count.toNat
  have hlength := hvalid.length_bytes
  have hsize := hvalid.size_le
  rw [← hvalid.text_eq] at hlength
  dsimp only
  unfold uintMax
  omega

/-- A source fits iff what is read of it does not wrap around. -/
theorem fits_iff {source : StringSource} {pointer : Option (List UInt8) × Nat}
    (h : source.pointer objects = some pointer) :
    source.Fits objects ↔ ∀ u ∈ pointer.1, bytesOf u pointer.2 ≠ uintMax := by
  unfold StringSource.Fits
  rw [h]
  simp

/-- No object is needed where nothing is done. -/
theorem goodResult_of_none {op : StringOp} (h : perform objects junk op = none) :
    ∀ x ∈ perform objects junk op, GoodResult x.2 := by
  rw [h]
  exact nofun

/-- Where an operation has one result the condition is about this one. -/
theorem goodResult_of_some {op : StringOp} {x : Nat × Except StringFault StringObject}
    (h : perform objects junk op = some x) :
    (∀ x ∈ perform objects junk op, GoodResult x.2) ↔ GoodResult x.2 := by
  rw [h]
  simp

/-- Among valid objects an assignment is good exactly under the condition of the claim on its source. -/
theorem goodResult_performAssign_iff (hobjects : ObjectsValid objects) (i : Nat)
    (source : StringSource) :
    (∀ x ∈ perform objects junk (.assign i source), GoodResult x.2) ↔
      KeepsValid objects (.assign i source) := by
  rcases hs : objects i with _ | s
  · apply iff_of_true (goodResult_of_none junk (by simp [perform, hs]))
    intro s hs'
    rw [hs] at hs'
    simp at hs'
  · have hkeeps : KeepsValid objects (.assign i source) ↔ source.Fits objects := by
      simp [KeepsValid, hs]
    rw [hkeeps]
    rcases hpointer : source.pointer objects with _ | pointer
    · apply iff_of_true (goodResult_of_none junk (by simp [perform, hs, hpointer]))
      intro pointer hpointer'
      rw [hpointer] at hpointer'
      simp at hpointer'
    · have hassign : perform objects junk (.assign i source) =
            some (i, inBlock (s.assign junk pointer.1 pointer.2)) →
          ((∀ x ∈ perform objects junk (.assign i source), GoodResult x.2) ↔ source.Fits objects) := by
        intro h
        rw [goodResult_of_some junk h, fits_iff hpointer]
        exact goodResult_assign_iff junk (hobjects i s hs).allocated _ (ne_zero_of_pointer hpointer)
      cases source with
      | object j count =>
          by_cases hself : j = i
          · subst hself
            refine iff_of_true (goodResult_of_none junk ?_) (fits_object hobjects j count)
            simp [perform, hs, hpointer]
          · exact hassign (by simp [perform, hs, hpointer, hself])
      | null => exact hassign (by simp [perform, hs, hpointer])
      | text buf count => exact hassign (by simp [perform, hs, hpointer])
      | number value => exact hassign (by simp [perform, hs, hpointer])

/-- A text or a number is appended by way of an object that is assigned it. -/
theorem goodResult_appendText_iff (h : s.Valid) {buf : Option (List UInt8)} (count : Nat)
    (hbuf : ∀ u ∈ buf, ∀ b ∈ u, b ≠ 0) :
    GoodResult (inBlock ((StringObject.new.assign junk buf count).bind fun t =>
        s.append t junk uintMax)) ↔
      (∀ u ∈ buf, bytesOf u count ≠ uintMax) ∧ AppendsInBlock s (takenText buf count) uintMax := by
  by_cases hfits : ∀ u ∈ buf, bytesOf u count ≠ uintMax
  · obtain ⟨t, hassign, hvalid, hbytes⟩ := allocated_new.assign junk buf count hbuf hfits
    rw [hassign, Option.bind_some, goodResult_append_iff junk h hvalid, hbytes]
    exact (and_iff_right hfits).symm
  · refine iff_of_false ?_ fun hboth => hfits hboth.1
    obtain ⟨u, hu⟩ := not_forall.mp hfits
    obtain ⟨rfl, hmax⟩ := Classical.not_imp.mp hu
    rw [allocated_new.assign_of_eq (not_not.mp hmax), Option.bind_none]
    exact not_goodResult_outOfBounds

/-- Among valid objects appending is good exactly under the condition on the two texts. -/
theorem goodResult_performAppend_iff (hobjects : ObjectsValid objects) (i : Nat)
    (source : StringSource) :
    (∀ x ∈ perform objects junk (.append i source), GoodResult x.2) ↔
      KeepsValid objects (.append i source) := by
  rcases hs : objects i with _ | s
  · apply iff_of_true (goodResult_of_none junk (by simp [perform, hs]))
    cases source <;> simp [KeepsValid, hs]
  · have htext : (∀ pointer, source.pointer objects = some pointer →
        perform objects junk (.append i source) =
          some (i, inBlock ((StringObject.new.assign junk pointer.1 pointer.2).bind fun t =>
            s.append t junk uintMax))) → (source.pointer objects).isSome →
        ((∀ x ∈ perform objects junk (.append i source), GoodResult x.2) ↔
          source.Fits objects ∧ ∀ pointer ∈ source.pointer objects,
            AppendsInBlock s (takenText pointer.1 pointer.2) uintMax) := by
      intro h hsome
      obtain ⟨pointer, hpointer⟩ := Option.isSome_iff_exists.mp hsome
      rw [goodResult_of_some junk (h pointer hpointer), fits_iff hpointer]
      have hgood := goodResult_appendText_iff junk (hobjects i s hs) pointer.2
        (ne_zero_of_pointer hpointer)
      rw [hgood, hpointer]
      simp
    cases source with
    | null => simpa [KeepsValid, hs] using htext (by intro p hp; simp [perform, hs, hp]) rfl
    | text buf count => simpa [KeepsValid, hs] using htext (by intro p hp; simp [perform, hs, hp]) rfl
    | number value => simpa [KeepsValid, hs] using htext (by intro p hp; simp [perform, hs, hp]) rfl
    | object j count =>
        rcases ht : objects j with _ | t
        · refine iff_of_true (goodResult_of_none junk ?_) ?_
          · simp [perform, hs, StringSource.pointer, ht]
          · simp [KeepsValid, ht]
        · by_cases hself : j = i
          · refine iff_of_true (goodResult_of_none junk ?_) ?_
            · simp [perform, hs, StringSource.pointer, hself]
            · intro s _ t _ hne
              exact absurd hself hne
          · have hperform : perform objects junk (.append i (.object j count)) =
                some (i, inBlock (s.append t junk count.toNat)) := by
              simp [perform, hs, StringSource.pointer, ht, hself]
            have hvalid := hobjects j t ht
            rw [goodResult_of_some junk hperform, goodResult_append_iff junk (hobjects i s hs) hvalid,
              ← hvalid.text_eq]
            simp [KeepsValid, hs, ht, hself]

/-- An operation is good iff it meets the condition. -/
theorem goodResult_perform_iff (hobjects : ObjectsValid objects) (op : StringOp) :
    (∀ x ∈ perform objects junk op, GoodResult x.2) ↔ KeepsValid objects op := by
  cases op with
  | construct i source =>
      rcases hpointer : source.pointer objects with _ | pointer
      · simp [perform, KeepsValid, StringSource.Fits, hpointer]
      · have hassign := goodResult_assign_iff junk allocated_new pointer.2
          (ne_zero_of_pointer hpointer)
        simp only [perform, hpointer, Option.map_some, Option.mem_def, Option.some.injEq,
          forall_eq', KeepsValid]
        rw [fits_iff hpointer]
        exact hassign
  | assign i source => exact goodResult_performAssign_iff junk hobjects i source
  | append i source => exact goodResult_performAppend_iff junk hobjects i source
  | trim i =>
      refine iff_of_true ?_ trivial
      rintro x hx
      obtain ⟨s, hs, rfl⟩ := Option.map_eq_some_iff.mp hx
      obtain ⟨s', htrim, hvalid⟩ := (hobjects i s hs).trim junk
      dsimp only
      rw [htrim]
      exact goodResult_ok_iff.mpr hvalid
  | popBack i =>
      constructor
      · intro hgood s hs
        have hpop := hgood (i, s.popBack) (Option.map_eq_some_iff.mpr ⟨s, hs, rfl⟩)
        exact (goodResult_popBack_iff (hobjects i s hs)).mp hpop
      · rintro hkeeps x hx
        obtain ⟨s, hs, rfl⟩ := Option.map_eq_some_iff.mp hx
        exact (goodResult_popBack_iff (hobjects i s hs)).mpr (hkeeps s hs)
  | clear i =>
      refine iff_of_true ?_ trivial
      rintro x hx
      obtain ⟨s, hs, rfl⟩ := Option.map_eq_some_iff.mp hx
      refine (goodResult_assign_iff junk (hobjects i s hs).allocated _ ?_).mpr ?_
      · rintro u ⟨rfl⟩ b hb
        exact absurd hb List.not_mem_nil
      · rintro u ⟨rfl⟩
        decide

end good

/-- The conditions on a step. -/
def StepKeepsValid (step : (Nat → Option StringObject) × StringOp × (Nat → UInt8)) : Prop :=
  KeepsValid step.1 step.2.1

/-- For every history of operations on string objects, with any content of the memory that is
allocated: all objects are valid all along and no store leaves its block iff all operations meet the
condition. -/
theorem objectsValid_iff (actions : List (StringOp × (Nat → UInt8))) :
    ((∀ objects ∈ History.states actObjects (fun _ => none) actions, ObjectsValid objects) ∧
        ∀ step ∈ History.steps actObjects (fun _ => none) actions, StaysInBlock step) ↔
      ∀ step ∈ History.steps actObjects (fun _ => none) actions, StepKeepsValid step := by
  refine History.good_iff (I := fun _ => True) (fun _ _ _ => trivial) ?_ ?_ trivial
    fun i s hs => nomatch hs
  · rintro objects ⟨op, junk⟩ - hobjects hkeeps
    have hgood := (goodResult_perform_iff junk hobjects op).mpr hkeeps
    constructor
    · intro i s hs
      unfold actObjects at hs
      rcases hperform : perform objects junk op with _ | ⟨i', fault | s'⟩
      · rw [hperform] at hs
        exact hobjects i s hs
      · rw [hperform] at hs
        exact hobjects i s hs
      · rw [hperform] at hs
        dsimp only at hs
        by_cases hi : i = i'
        · rw [hi, Function.update_self] at hs
          obtain rfl := Option.some.inj hs
          exact goodResult_ok_iff.mp (hgood _ hperform)
        · rw [Function.update_of_ne hi] at hs
          exact hobjects i s hs
    · intro i hperform
      exact not_goodResult_outOfBounds (hgood _ hperform)
  · rintro objects ⟨op, junk⟩ - hobjects hbreaks hafter hstays
    refine hbreaks ((goodResult_perform_iff junk hobjects op).mp ?_)
    rintro ⟨i, result⟩ hperform
    rcases result with fault | s
    · cases fault with
      | underflow => exact .inr rfl
      | outOfBounds => exact absurd hperform (hstays i)
    · refine goodResult_ok_iff.mpr (hafter i s ?_)
      have hact : actObjects objects (op, junk) = Function.update objects i (some s) := by
        unfold actObjects
        dsimp only
        rw [show perform objects junk op = some (i, .ok s) from hperform]
      rw [hact, Function.update_self]

/-- The object holds "ab", its last byte is taken off, and "c" is appended: `m_length` is still 2, and
the NUL is stored behind the block of 3 bytes. -/
theorem not_objectsValid_popBack :
    ¬ ((∀ objects ∈ History.states actObjects (fun _ => none)
            [(.construct 0 (.text [97, 98] 0xffffffff), fun _ => 0), (.popBack 0, fun _ => 0),
              (.append 0 (.text [99] 0xffffffff), fun _ => 0)], ObjectsValid objects) ∧
        ∀ step ∈ History.steps actObjects (fun _ => none)
            [(.construct 0 (.text [97, 98] 0xffffffff), fun _ => 0), (.popBack 0, fun _ => 0),
              (.append 0 (.text [99] 0xffffffff), fun _ => 0)], StaysInBlock step) := by
  rintro ⟨-, hstays⟩
  have hlast := hstays _ (List.mem_cons_of_mem _ (List.mem_cons_of_mem _ List.mem_cons_self)) 0
  exact hlast (by decide +kernel)

end Irstessi
