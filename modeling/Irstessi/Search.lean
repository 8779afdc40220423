import Irstessi.StringObject

/-!
# Searching byte by byte

`String::find` and `String::reverse_find` on the block of memory of a string: what they read behind the
NUL of a text is a fault.

* `load`, `utf8OffsetAt`, `utf8LengthAt`, `findAt`, `reverseFindAt`: the functions on positions.
* `utf8OffsetAt_distance`, `utf8LengthAt_distance`, `findAt_eq`, `reverseFindAt_eq`: they do what the
  functions on pointers do.
* **`find_eq`**, **`reverseFind_eq`**: on valid objects the searches are those of `Str`, and read
  nothing behind the NUL.

The functions are given twice. On positions, a read at a position outside of the cells is a fault, as
the source would read behind the block. On pointers, which are suffixes of the text, they are those of
`Str`, with which the rest of the development works. `distance` relates the two, and every function has
one lemma that says that it does the same in both. A valid object is a text with a NUL behind it, and
the theorems say that in such a block all searches stop in time: at the NUL, whatever the offset is.
-/

namespace Irstessi

/-- Why a search returns nothing. -/
inductive SearchFault
  /-- `E_NOT_FOUND` -/
  | notFound
  /-- `E_INVALID_SEQUENCE` -/
  | invalidSequence
  /-- A byte behind the NUL is read. -/
  | beyond
  deriving DecidableEq, Repr

/-! ## The functions on positions -/

section functions

variable (mem : List UInt8)

/-- The byte at a position; those that can be read end with the NUL. -/
def load (p : Nat) : Except SearchFault UInt8 :=
  match mem[p]? with
  | some b => .ok b
  | none => .error .beyond

/-- Source: `string.cpp` `__utf8_skip_byte` -/
def utf8SkipByteAt (p : Nat) : Except SearchFault Nat :=
  (load mem p).bind fun b => if IsContinuation b then .ok (p + 1) else .error .invalidSequence

/-- Source: `string.cpp` `__utf8_skip_bytes` -/
def utf8SkipBytesAt (p seqType : Nat) : Except SearchFault Nat :=
  match seqType with
  | 4 => ((utf8SkipByteAt mem (p + 1)).bind (utf8SkipByteAt mem)).bind (utf8SkipByteAt mem)
  | 3 => (utf8SkipByteAt mem (p + 1)).bind (utf8SkipByteAt mem)
  | 2 => utf8SkipByteAt mem (p + 1)
  | 1 => .ok (p + 1)
  | _ => .error .invalidSequence

/-- Source: `string.cpp` `__utf8_skip_sequence` -/
def utf8SkipSequenceAt (p : Nat) : Except SearchFault Nat :=
  (load mem p).bind fun b => utf8SkipBytesAt mem p (utf8SequenceType b)

/-- Source: `string.cpp` `__utf8_offset` -/
def utf8OffsetAt (p offset : Nat) : Except SearchFault Nat :=
  (load mem p).bind fun b =>
    if b = 0 then .ok p
    else
      match offset with
      | 0 => .ok p
      | offset + 1 =>
          match utf8SkipSequenceAt mem p with
          | .error .beyond => .error .beyond
          | .error _ => .ok p
          | .ok p => utf8OffsetAt p offset

/-- Only a lead byte is skipped with what belongs to it. -/
theorem ne_zero_of_utf8SkipBytesAt {p q seqType : Nat}
    (h : utf8SkipBytesAt mem p seqType = .ok q) : seqType ≠ 0 := by
  rintro rfl
  simp [utf8SkipBytesAt] at h

/-- The number of sequences that begin in `count` bytes from a position on. The count falls in every
round, since a sequence that is skipped has a byte at least.
Source: `string.cpp` `__utf8_length` -/
def utf8LengthAt (p count : Nat) : Except SearchFault Nat :=
  match load mem p with
  | .error e => .error e
  | .ok b =>
      if b = 0 ∨ count = 0 then .ok 0
      else
        let t := utf8SequenceType b
        match _hskip : utf8SkipBytesAt mem p t with
        | .error .beyond => .error .beyond
        | .error _ => .ok 0
        | .ok p => (utf8LengthAt p (if t < count then count - t else 0)).map (· + 1)
termination_by count
decreasing_by
  have htype := ne_zero_of_utf8SkipBytesAt mem _hskip
  split <;> omega

variable (buf : List UInt8)

/-- The loop of `__find` with `j` bytes of the pattern matched at `offset`; `offset + j` does not wrap,
since `m_size` is below 2^32-1.
Source: `string.cpp` `String::__find` -/
def findAt (m_size offset j : Nat) : Except SearchFault (Option Nat) :=
  if offset + j ≤ m_size then
    match load buf j with
    | .error e => .error e
    | .ok b =>
        if b = 0 then .ok (some offset)
        else
          match load mem (offset + j) with
          | .error e => .error e
          | .ok a => if a = b then findAt m_size offset (j + 1) else findAt m_size (offset + 1) 0
  else .ok none
termination_by (m_size + 1 - offset, m_size + 1 - (offset + j))

/-- What can be read lies within memory. -/
theorem lt_of_load {p : Nat} {b : UInt8} (h : load mem p = .ok b) : p < mem.length := by
  unfold load at h
  split at h
  next hget => exact List.getElem?_eq_some_iff.mp hget |>.1
  next => simp at h

/-- The loop of `__reverse_find`.
Source: `string.cpp` `String::__reverse_find` -/
def reverseFindAt (offset j : Nat) : Except SearchFault (Option Nat) :=
  match _hload : load buf j with
  | .error e => .error e
  | .ok b =>
      if b = 0 then .ok (some offset)
      else
        match load mem (offset + j) with
        | .error e => .error e
        | .ok a =>
            if a = b then reverseFindAt offset (j + 1)
            else
              match offset with
              | 0 => .ok none
              | offset + 1 => reverseFindAt offset 0
termination_by (offset, buf.length - j)
decreasing_by
  · have hlt := lt_of_load buf _hload
    exact Prod.Lex.right _ (by omega)
  · exact Prod.Lex.left _ _ (by omega)

end functions

namespace StringObject

/-- The bytes that the pointer to the text may be read at: those of the text and the NUL. -/
def cells (s : StringObject) : List UInt8 := s.m_buffer.take (s.m_size + 1)

variable (t s : StringObject) (offset : Nat)

/-- Source: `string.cpp` `String::find` -/
def find : Except SearchFault Nat := do
  let offset ← utf8OffsetAt t.cells 0 offset
  match ← findAt t.cells s.cells t.m_size offset 0 with
  | some p => utf8LengthAt t.cells 0 p
  | none => .error .notFound

/-- Source: `string.cpp` `String::__reverse_find` -/
def reverseFindByte : Except SearchFault (Option Nat) := do
  let i ← utf8OffsetAt s.cells 0 uintMax
  if offset < i then pure none else reverseFindAt t.cells s.cells (offset - i) 0

/-- Source: `string.cpp` `String::reverse_find` -/
def reverseFind : Except SearchFault Nat := do
  let offset ← utf8OffsetAt t.cells 0 offset
  match ← t.reverseFindByte s offset with
  | some p => utf8LengthAt t.cells 0 p
  | none => .error .notFound

end StringObject

/-! ## Positions and pointers -/

/-- The position of a pointer; where there is none, a sequence has been invalid. -/
def position (bytes : List UInt8) : Option (List UInt8) → Except SearchFault Nat
  | some q => .ok (distance bytes q)
  | none => .error .invalidSequence

/-- The distance to the rest behind a part is the length of this part. -/
theorem distance_append (u q : List UInt8) : distance (u ++ q) q = u.length := by
  unfold distance
  rw [List.length_append, Nat.add_sub_cancel]

section pointers

variable {bytes q : List UInt8}

/-- A byte further on is at one more of distance. -/
theorem distance_cons {b : UInt8} (hq : b :: q <:+ bytes) :
    distance bytes (b :: q) + 1 = distance bytes q := by
  have hle := hq.length_le
  unfold distance
  simp only [List.length_cons] at hle ⊢
  omega

/-- Up to the NUL every byte can be read. -/
theorem load_distance (hq : q <:+ bytes) :
    load (bytes ++ [0]) (distance bytes q) = .ok (q.headD 0) := by
  obtain ⟨u, rfl⟩ := hq
  unfold load
  rw [distance_append, List.append_assoc, List.getElem?_append_right le_rfl, Nat.sub_self]
  cases q <;> rfl

/-- Skipping a byte goes on in the same buffer. -/
theorem suffix_of_utf8SkipByte {p : List UInt8} (h : utf8SkipByte q = some p) : p <:+ q := by
  obtain ⟨b, -, rfl⟩ := utf8SkipByte_eq_some h
  exact List.suffix_cons b p

/-- Skipping a byte at an address does what it does on the list behind this address. -/
theorem utf8SkipByteAt_distance (hq : q <:+ bytes) :
    utf8SkipByteAt (bytes ++ [0]) (distance bytes q) = position bytes (utf8SkipByte q) := by
  unfold utf8SkipByteAt
  rw [load_distance hq]
  cases q with
  | nil => rfl
  | cons b q =>
      rw [distance_cons hq, List.headD_cons, utf8SkipByte]
      change (if IsContinuation b then _ else _) = _
      split <;> rfl

/-- The same for a row of skipped bytes, as long as each is a continuation. -/
theorem bind_utf8SkipByteAt {p : Option (List UInt8)} (hp : ∀ q ∈ p, q <:+ bytes) :
    (position bytes p).bind (utf8SkipByteAt (bytes ++ [0])) = position bytes (p.bind utf8SkipByte) := by
  cases p with
  | none => rfl
  | some q => exact utf8SkipByteAt_distance (hp q rfl)

/-- Skipping a byte stays in the text. -/
theorem suffix_of_bind {p : Option (List UInt8)} (hp : ∀ q ∈ p, q <:+ bytes) :
    ∀ q ∈ p.bind utf8SkipByte, q <:+ bytes := by
  intro q hq
  obtain ⟨r, hr, hskip⟩ := Option.bind_eq_some_iff.mp hq
  exact (suffix_of_utf8SkipByte hskip).trans (hp r hr)

/-- Skipping a lead byte and what belongs to it, at an address and on the list. -/
theorem utf8SkipBytesAt_distance {b : UInt8} (hq : b :: q <:+ bytes) (seqType : Nat) :
    utf8SkipBytesAt (bytes ++ [0]) (distance bytes (b :: q)) seqType =
      position bytes (utf8SkipBytes (b :: q) seqType) := by
  have htail : q <:+ bytes := (List.suffix_cons b q).trans hq
  have hone : ∀ p ∈ utf8SkipByte q, p <:+ bytes := fun p hp => (suffix_of_utf8SkipByte hp).trans htail
  unfold utf8SkipBytesAt utf8SkipBytes
  rw [distance_cons hq, List.tail_cons, utf8SkipByteAt_distance htail, bind_utf8SkipByteAt hone,
    bind_utf8SkipByteAt (suffix_of_bind hone)]
  match seqType with
  | 0 | 1 | 2 | 3 | 4 | _ + 5 => rfl

/-- Skipping a sequence at an address does what it does on the list, and reads nothing behind the
NUL. -/
theorem utf8SkipSequenceAt_distance {b : UInt8} (hq : b :: q <:+ bytes) :
    utf8SkipSequenceAt (bytes ++ [0]) (distance bytes (b :: q)) =
      position bytes (utf8SkipSequence (b :: q)) := by
  unfold utf8SkipSequenceAt utf8SkipSequence
  rw [load_distance hq]
  exact utf8SkipBytesAt_distance hq (utf8SequenceType b)

/-- What is skipped of a text is a part of it that is not empty. -/
theorem suffix_of_utf8SkipSequence {b : UInt8} {p : List UInt8}
    (h : utf8SkipSequence (b :: q) = some p) : p <:+ b :: q ∧ p.length < (b :: q).length := by
  obtain ⟨c, hc, heq⟩ := utf8SkipSequence_eq_some h
  have hpos := List.length_pos_iff.mpr hc.ne_nil
  rw [heq, List.length_append]
  exact ⟨List.suffix_append c p, by omega⟩

/-- A round of the loop that does not end it. -/
theorem utf8LengthAt_of_ne {mem : List UInt8} {p count : Nat} {b : UInt8}
    (hload : load mem p = .ok b) (hb : b ≠ 0) (hcount : count ≠ 0) :
    utf8LengthAt mem p count =
      match utf8SkipBytesAt mem p (utf8SequenceType b) with
      | .error .beyond => .error .beyond
      | .error _ => .ok 0
      | .ok p => (utf8LengthAt mem p
          (if utf8SequenceType b < count then count - utf8SequenceType b else 0)).map (· + 1) := by
  rw [utf8LengthAt, hload]
  dsimp only
  rw [if_neg (not_or.mpr ⟨hb, hcount⟩)]
  split
  next h => rw [h]
  next e hbeyond h =>
    rw [h]
    cases e with
    | beyond => exact absurd rfl hbeyond
    | notFound => rfl
    | invalidSequence => rfl
  next h => rw [h]

variable (hne : ∀ b ∈ bytes, b ≠ 0)

include hne

/-- `__utf8_offset` reads nothing behind the NUL and returns the pointer of `utf8Offset`. -/
theorem utf8OffsetAt_distance (hq : q <:+ bytes) (k : Nat) :
    utf8OffsetAt (bytes ++ [0]) (distance bytes q) k = .ok (distance bytes (utf8Offset q k)) := by
  induction k generalizing q with
  | zero =>
      unfold utf8OffsetAt
      rw [load_distance hq]
      simp [Except.bind, utf8Offset]
  | succ k ih =>
      unfold utf8OffsetAt
      rw [load_distance hq]
      cases q with
      | nil => rfl
      | cons b q =>
          have hb : b ≠ 0 := hne b (hq.mem List.mem_cons_self)
          simp only [Except.bind, List.headD_cons, hb, if_false]
          rw [utf8SkipSequenceAt_distance hq, utf8Offset]
          rcases hskip : utf8SkipSequence (b :: q) with _ | p
          · rfl
          · exact ih ((suffix_of_utf8SkipSequence hskip).1.trans hq)

/-- `__utf8_length` reads nothing behind the NUL and counts as `utf8Length` does. -/
theorem utf8LengthAt_distance {rounds : Nat} (hq : q <:+ bytes) (hrounds : q.length ≤ rounds)
    (count : Nat) : utf8LengthAt (bytes ++ [0]) (distance bytes q) count =
      .ok (utf8LengthLoop rounds q count) := by
  induction rounds generalizing q count with
  | zero =>
      obtain rfl : q = [] := List.eq_nil_of_length_eq_zero (by omega)
      rw [utf8LengthAt, load_distance hq]
      rfl
  | succ rounds ih =>
      cases q with
      | nil =>
          rw [utf8LengthAt, load_distance hq]
          rfl
      | cons b q =>
          have hb : b ≠ 0 := hne b (hq.mem List.mem_cons_self)
          rw [utf8LengthLoop]
          by_cases hcount : count = 0
          · rw [utf8LengthAt, load_distance hq]
            simp [hcount]
          · have hload : load (bytes ++ [0]) (distance bytes (b :: q)) = .ok b := load_distance hq
            rw [utf8LengthAt_of_ne hload hb hcount, utf8SkipBytesAt_distance hq, if_neg hcount]
            dsimp only
            rcases hskip : utf8SkipBytes (b :: q) (utf8SequenceType b) with _ | p
            · rfl
            · obtain ⟨hp, hlt⟩ := suffix_of_utf8SkipSequence hskip
              rw [List.length_cons] at hrounds hlt
              rw [position]
              dsimp only
              rw [ih (hp.trans hq) (by omega)]
              rfl

end pointers

/-! ## The loops -/

open Occurrence

section loops

variable {bytes w : List UInt8} {offset j : Nat}

/-- A byte of the buffer or the NUL behind it is read. -/
theorem load_eq (hj : j ≤ w.length) : load (w ++ [0]) j = .ok (w.getD j 0) := by
  unfold load
  rcases Nat.lt_or_ge j w.length with hlt | hge
  · simp [List.getElem?_append_left hlt, hlt]
  · obtain rfl : j = w.length := Nat.le_antisymm hj hge
    simp

/-- The NUL is met behind the text only. -/
theorem getD_eq_zero_iff (hw : ∀ b ∈ w, b ≠ 0) : w.getD j 0 = 0 ↔ w.length ≤ j := by
  rcases Nat.lt_or_ge j w.length with hlt | hge
  · have hne : w[j] ≠ 0 := hw _ (List.getElem_mem hlt)
    simp [hlt, hne]
  · simp [hge]

/-- One more byte is matched iff it is the same in the text. -/
theorem take_succ_prefix_iff {l : List UInt8} (hj : j < w.length) (h : w.take j <+: l) :
    w.take (j + 1) <+: l ↔ l[j]? = some w[j] := by
  obtain ⟨r, rfl⟩ := h
  have hlength : (w.take j).length = j := List.length_take_of_le hj.le
  rw [← List.take_append_getElem hj, List.prefix_append_right_inj,
    List.getElem?_append_right (by omega), hlength, Nat.sub_self]
  cases r with
  | nil => simp
  | cons x r => simp [List.cons_prefix_cons, eq_comm]

/-- A pattern that does not occur at the position is searched behind it. -/
theorem findPos_drop_of_not (hoffset : offset < bytes.length) (h : ¬ w <+: bytes.drop offset) :
    (findPos w (bytes.drop offset)).map (offset + ·) =
      (findPos w (bytes.drop (offset + 1))).map (offset + 1 + ·) := by
  have hisPrefix : ¬ w.isPrefixOf (bytes.drop offset) = true :=
    fun hp => h (List.isPrefixOf_iff_prefix.mp hp)
  rw [List.drop_eq_getElem_cons hoffset] at hisPrefix ⊢
  rw [findPos, if_neg hisPrefix, Option.map_map]
  congr 1
  funext p
  dsimp only [Function.comp_apply]
  omega

/-- A word at the beginning is found there. -/
theorem findPos_of_isPrefix {l : List UInt8} (h : w <+: l) : findPos w l = some 0 := by
  have hp := List.isPrefixOf_iff_prefix.mpr h
  cases l with
  | nil => rw [findPos, if_pos hp]
  | cons x l => rw [findPos, if_pos hp]

/-- In the empty text only the empty word is found. -/
theorem findPos_nil_of_not (h : ¬ w <+: []) : findPos w [] = none := by
  rw [findPos, if_neg fun hp => h (List.isPrefixOf_iff_prefix.mp hp)]

/-- From the right a word is found where the search starts, if it stands there. -/
theorem rfindPos_of_isPrefix {l : List UInt8} {n : Nat} (h : w <+: l.drop n) :
    rfindPos w l n = some n := by
  have hp := List.isPrefixOf_iff_prefix.mpr h
  cases n with
  | zero => rw [rfindPos, ← List.drop_zero (l := l), if_pos hp]
  | succ n => rw [rfindPos, if_pos hp]

variable (hw : ∀ b ∈ w, b ≠ 0)

include hw

/-- With `j` bytes matched at `offset`: the comparison of the next byte tells whether they go on. -/
theorem match_step (hoffset : offset ≤ bytes.length) (hj : j < w.length)
    (hmatch : w.take j <+: bytes.drop offset) :
    offset + j ≤ bytes.length ∧
      (bytes.getD (offset + j) 0 = w.getD j 0 ↔ w.take (j + 1) <+: bytes.drop offset) := by
  have hle := hmatch.length_le
  rw [List.length_take_of_le hj.le, List.length_drop] at hle
  refine ⟨by omega, ?_⟩
  rw [take_succ_prefix_iff hj hmatch, List.getElem?_drop]
  have hne : w[j] ≠ 0 := hw _ (List.getElem_mem hj)
  rcases Nat.lt_or_ge (offset + j) bytes.length with hlt | hge
  · simp [hlt, hj]
  · simp [hge, hj, hne.symm]

/-- A byte that differs ends the match. -/
theorem not_isPrefix_of_ne (hoffset : offset ≤ bytes.length) (hj : j < w.length)
    (hmatch : w.take j <+: bytes.drop offset) (hne : bytes.getD (offset + j) 0 ≠ w.getD j 0) :
    ¬ w <+: bytes.drop offset := by
  intro h
  obtain ⟨-, hstep⟩ := match_step hw hoffset hj hmatch
  exact hne (hstep.mpr ((List.take_prefix _ _).trans h))

/-- Where a byte of the pattern is not the NUL the pattern goes on. -/
theorem lt_length_of_getD (h : w.getD j 0 ≠ 0) : j < w.length := by
  rw [ne_eq, getD_eq_zero_iff hw] at h
  omega

/-- `__find` reads nothing behind the NULs and finds the first occurrence; by induction on the loop,
the bytes matched so far being its invariant. -/
theorem findAt_eq (hoffset : offset ≤ bytes.length) (hj : j ≤ w.length)
    (hmatch : w.take j <+: bytes.drop offset) :
    findAt (bytes ++ [0]) (w ++ [0]) bytes.length offset j =
      .ok ((findPos w (bytes.drop offset)).map (offset + ·)) := by
  fun_induction findAt (bytes ++ [0]) (w ++ [0]) bytes.length offset j with
  | case1 offset j hle e hload =>
      rw [load_eq hj] at hload
      simp at hload
  | case2 offset j hle hload =>
      rw [load_eq hj, Except.ok.injEq, getD_eq_zero_iff hw] at hload
      rw [List.take_of_length_le hload] at hmatch
      rw [findPos_of_isPrefix hmatch]
      rfl
  | case3 offset j hle b hload hb e hload' =>
      rw [load_eq (by simpa using hle)] at hload'
      simp at hload'
  | case4 offset j hle b hload' hload hb ih =>
      rw [load_eq hj, Except.ok.injEq] at hload
      rw [load_eq hle, Except.ok.injEq] at hload'
      have hlt := lt_length_of_getD hw (hload.trans_ne hb)
      obtain ⟨-, hstep⟩ := match_step hw hoffset hlt hmatch
      exact ih hoffset hlt (hstep.mp (hload'.trans hload.symm))
  | case5 offset j hle b hload hb a hload' hne ih =>
      rw [load_eq hj, Except.ok.injEq] at hload
      rw [load_eq hle, Except.ok.injEq] at hload'
      have hnot := not_isPrefix_of_ne hw hoffset (lt_length_of_getD hw (hload.trans_ne hb)) hmatch
        (by rwa [hload, hload'])
      rcases Nat.lt_or_ge offset bytes.length with hin | hend
      · rw [findPos_drop_of_not hin hnot]
        exact ih hin (Nat.zero_le _) (by simp)
      · obtain rfl : offset = bytes.length := Nat.le_antisymm hoffset hend
        rw [List.drop_length] at hnot ⊢
        rw [findPos_nil_of_not hnot, findAt, if_neg (by omega)]
        rfl
  | case6 offset j hgt =>
      have hle := hmatch.length_le
      rw [List.length_take_of_le hj, List.length_drop] at hle
      omega

/-- `__reverse_find` reads nothing behind the NULs and finds the last occurrence. -/
theorem reverseFindAt_eq (hoffset : offset ≤ bytes.length) (hj : j ≤ w.length)
    (hmatch : w.take j <+: bytes.drop offset) :
    reverseFindAt (bytes ++ [0]) (w ++ [0]) offset j = .ok (rfindPos w bytes offset) := by
  fun_induction reverseFindAt (bytes ++ [0]) (w ++ [0]) offset j with
  | case1 offset j e hload =>
      rw [load_eq hj] at hload
      simp at hload
  | case2 offset j hload =>
      rw [load_eq hj, Except.ok.injEq, getD_eq_zero_iff hw] at hload
      rw [List.take_of_length_le hload] at hmatch
      rw [rfindPos_of_isPrefix hmatch]
  | case3 offset j b hload hb e hload' =>
      rw [load_eq hj, Except.ok.injEq] at hload
      obtain ⟨hle, -⟩ := match_step hw hoffset (lt_length_of_getD hw (hload.trans_ne hb)) hmatch
      rw [load_eq hle] at hload'
      simp at hload'
  | case4 offset j b hload' hload hb ih =>
      rw [load_eq hj, Except.ok.injEq] at hload
      have hlt := lt_length_of_getD hw (hload.trans_ne hb)
      obtain ⟨hle, hstep⟩ := match_step hw hoffset hlt hmatch
      rw [load_eq hle, Except.ok.injEq] at hload'
      exact ih hoffset hlt (hstep.mp (hload'.trans hload.symm))
  | case5 j b hload hb a hne hload' =>
      rw [load_eq hj, Except.ok.injEq] at hload
      have hlt := lt_length_of_getD hw (hload.trans_ne hb)
      rw [load_eq (match_step hw hoffset hlt hmatch).1, Except.ok.injEq] at hload'
      have hnot := not_isPrefix_of_ne hw hoffset hlt hmatch (by rwa [hload, hload'])
      rw [List.drop_zero] at hnot
      rw [rfindPos, if_neg fun hp => hnot (List.isPrefixOf_iff_prefix.mp hp)]
  | case6 j b hload hb a hne offset hload' ih =>
      rw [load_eq hj, Except.ok.injEq] at hload
      have hlt := lt_length_of_getD hw (hload.trans_ne hb)
      rw [load_eq (match_step hw hoffset hlt hmatch).1, Except.ok.injEq] at hload'
      have hnot := not_isPrefix_of_ne hw hoffset hlt hmatch (by rwa [hload, hload'])
      rw [rfindPos, if_neg fun hp => hnot (List.isPrefixOf_iff_prefix.mp hp)]
      exact ih (by omega) (Nat.zero_le _) (by simp)

end loops

/-! ## The functions read the texts only -/

/-- From so many characters on as there are bytes the walk goes as far as it gets. -/
theorem utf8Offset_eq_of_le {buf : List UInt8} {k : Nat} (h : buf.length ≤ k) :
    utf8Offset buf k = utf8Offset buf buf.length := by
  obtain ⟨cs, tail, hcs, htail, rfl⟩ := exists_sequences buf
  have hle := Blocks.length_le_length_flatten (allBlocks_of_isSequence hcs)
  rw [List.length_append] at h
  rw [utf8Offset_sequences hcs htail, utf8Offset_sequences hcs htail, List.length_append,
    List.drop_eq_nil_of_le (by omega), List.drop_eq_nil_of_le (by omega)]

/-- No distance is longer than the buffer. -/
theorem distance_le (buf p : List UInt8) : distance buf p ≤ buf.length := Nat.sub_le _ _

/-- The buffer's start is at distance 0. -/
theorem distance_self (buf : List UInt8) : distance buf buf = 0 := Nat.sub_self _

/-- What a search returns, or throws. -/
def foundOr (result : Option Nat) : Except SearchFault Nat :=
  match result with
  | some i => .ok i
  | none => .error .notFound

namespace StringObject

variable {t s : StringObject}

/-- The object as its bytes and the number of its characters. -/
def str (s : StringObject) : Str := ⟨s.bytes, s.m_length⟩

/-- The text of the `Str` is that of the object. -/
@[simp] theorem str_buffer (s : StringObject) : s.str.m_buffer = s.bytes := rfl

/-- Its count is that of the object. -/
@[simp] theorem str_length (s : StringObject) : s.str.m_length = s.m_length := rfl

/-- A valid object owns its bytes and the NUL behind them. -/
theorem Valid.cells_eq (h : s.Valid) : s.cells = s.bytes ++ [0] := by
  have hlength := h.length_bytes
  unfold cells
  rw [h.buffer_eq, ← hlength, List.take_append, List.take_of_length_le (Nat.le_succ _),
    Nat.add_sub_cancel_left]
  rfl

/-- The length of a valid object is the number of its characters. -/
theorem Valid.length_eq (h : s.Valid) : s.m_length = utf8Length s.bytes s.bytes.length := by
  rw [h.length_bytes]
  exact h.length

/-- The bytes of a valid object are no NUL. -/
theorem Valid.ne_zero (h : s.Valid) : ∀ b ∈ s.bytes, b ≠ 0 := h.text

/-- The walk over a valid object's memory is the walk over its bytes. -/
theorem Valid.utf8OffsetAt_cells (h : s.Valid) (offset : Nat) :
    utf8OffsetAt s.cells 0 offset = .ok (distance s.bytes (utf8Offset s.bytes offset)) := by
  have hwalk := utf8OffsetAt_distance h.ne_zero (List.suffix_refl s.bytes) offset
  rwa [distance_self, ← h.cells_eq] at hwalk

/-- Counting in a valid object's memory is counting in its bytes. -/
theorem Valid.utf8LengthAt_cells (h : s.Valid) (count : Nat) :
    utf8LengthAt s.cells 0 count = .ok (utf8Length s.bytes count) := by
  have hwalk := utf8LengthAt_distance h.ne_zero (List.suffix_refl s.bytes) le_rfl count
  rwa [distance_self, ← h.cells_eq] at hwalk

/-- The search is that of `Str`, and reads nothing behind the NULs. -/
theorem find_eq (ht : t.Valid) (hs : s.Valid) (offset : Nat) :
    t.find s offset = foundOr (t.str.find s.bytes offset) := by
  unfold find
  rw [ht.utf8OffsetAt_cells, ht.cells_eq, hs.cells_eq, ← ht.length_bytes]
  change (findAt _ _ _ _ _).bind _ = _
  rw [findAt_eq hs.ne_zero (distance_le _ _) (Nat.zero_le _) (by simp)]
  unfold Str.find Str.findByte str
  dsimp only
  rcases findPos s.bytes (t.bytes.drop (distance t.bytes (utf8Offset t.bytes offset))) with _ | p
  · rfl
  · rw [← ht.cells_eq]
    exact ht.utf8LengthAt_cells _

/-- The search for bytes from the right, on valid objects, is that on their bytes, and stays within
them. -/
theorem reverseFindByte_eq (ht : t.Valid) (hs : s.Valid) {offset : Nat}
    (hoffset : offset ≤ t.bytes.length) :
    t.reverseFindByte s offset = .ok (t.str.reverseFindByte s.bytes offset) := by
  have hsize := hs.size_le
  rw [← hs.length_bytes] at hsize
  unfold reverseFindByte Str.reverseFindByte
  rw [hs.utf8OffsetAt_cells, utf8Offset_eq_of_le (show s.bytes.length ≤ uintMax by
    unfold uintMax
    omega)]
  change (if _ then _ else _) = _
  unfold npos str
  dsimp only
  split
  next => rfl
  next hle =>
    rw [ht.cells_eq, hs.cells_eq]
    exact reverseFindAt_eq hs.ne_zero (by omega) (Nat.zero_le _) (by simp)

/-- The search for characters from the right, on valid objects, is that on their values. -/
theorem reverseFind_eq (ht : t.Valid) (hs : s.Valid) (offset : Nat) :
    t.reverseFind s offset = foundOr (t.str.reverseFind s.bytes offset) := by
  unfold reverseFind
  rw [ht.utf8OffsetAt_cells]
  change (t.reverseFindByte s _).bind _ = _
  rw [reverseFindByte_eq ht hs (distance_le _ _)]
  unfold Str.reverseFind
  rw [str_buffer]
  dsimp only
  rcases t.str.reverseFindByte s.bytes (distance t.bytes (utf8Offset t.bytes offset)) with _ | p
  · rfl
  · exact ht.utf8LengthAt_cells p

end StringObject

end Irstessi
