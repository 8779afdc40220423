import Irstessi.Occurrences

/-!
# Characters and bytes

`__utf8_offset` converts a number of characters to a position, `__utf8_length` a position to a number of
characters. On every buffer they are inverse to one another as far as the walk gets.

* `ByteBuffer`: the bytes in front of a NUL, well-formed or not, fewer than 2^32-1; `ByteBuffer.cells`:
  what of the memory may be read.
* `LiesAt`: whole characters stand in front of a position, and a character begins there unless it is the
  one where the walk stops, where none does: the text ends there or goes on with an invalid sequence.
* **`positions_convert`**: where the walk gets to, and that the two functions agree.

The statement is made of the functions on memory (`Search`), where a read behind the NUL is a fault, and
proved of those on lists, with which they agree. A buffer is a row of whole characters and a rest that
begins with none; this holds of well-formed and of other buffers alike. The walk over `k` characters
then ends behind the first `k` of the row, or behind all of them, and the length of that position is the
number of characters in front of it. The loop of the length stops at the position, which is why it never
gets into the rest.
-/

namespace Irstessi

/-- A buffer that ends with a NUL. -/
structure ByteBuffer where
  bytes : List UInt8
  nonzero : ∀ b ∈ bytes, b ≠ 0
  length_lt : bytes.length < uintMax

/-- The bytes that can be read end with the NUL. -/
def ByteBuffer.cells (buf : ByteBuffer) : List UInt8 := buf.bytes ++ [0]

/-- Behind whole characters a character begins, or at `stop` none does, that is, the NUL or the first
invalid sequence stands there. -/
def LiesAt (bytes : List UInt8) (stop p : Nat) : Prop :=
  ∃ u rest, bytes = u ++ rest ∧ u.length = p ∧ WellFormed u ∧
    if p = stop then ∀ c, IsSequence c → ¬ c <+: rest else ∃ c, IsSequence c ∧ c <+: rest

/-- Where the walk stops no character stands in front. -/
theorem not_isPrefix_of_stuck {rest c : List UInt8} (h : Stuck rest) (hc : IsSequence c) :
    ¬ c <+: rest := by
  rintro ⟨t, rfl⟩
  exact not_stuck_append hc t h

section row

variable {cs : List (List UInt8)} {tail : List UInt8} (hcs : ∀ c ∈ cs, IsSequence c)
  (htail : Stuck tail)

include hcs htail

/-- The position of a character, and the one behind them all. -/
theorem liesAt_startOf (k : Nat) :
    LiesAt (cs.flatten ++ tail) cs.flatten.length (startOf cs k) := by
  refine ⟨(cs.take k).flatten, (cs.drop k).flatten ++ tail, ?_, rfl,
    ⟨cs.take k, fun c hc => hcs c (List.mem_of_mem_take hc), rfl⟩, ?_⟩
  · rw [← List.append_assoc, ← List.flatten_append, List.take_append_drop]
  · have hlength := congrArg List.length (flatten_take_append_drop cs k)
    rw [List.length_append] at hlength
    rcases hdrop : cs.drop k with _ | ⟨c, ds⟩
    · rw [hdrop, List.flatten_nil, List.length_nil, Nat.add_zero] at hlength
      have hend : startOf cs k = cs.flatten.length := hlength.symm
      rw [if_pos hend, List.flatten_nil, List.nil_append]
      exact fun c hc => not_isPrefix_of_stuck htail hc
    · have hc : IsSequence c := hcs c (List.mem_of_mem_drop (hdrop ▸ List.mem_cons_self))
      have hpos := List.length_pos_iff.mpr hc.ne_nil
      rw [hdrop, List.flatten_cons, List.length_append] at hlength
      rw [if_neg (by unfold startOf; omega)]
      refine ⟨c, hc, ?_⟩
      rw [List.flatten_cons, List.append_assoc]
      exact List.prefix_append c _

end row

namespace ByteBuffer

variable (buf : ByteBuffer)

/-- The walk over the memory of the buffer is the walk over its bytes, and reads nothing behind the
NUL. -/
theorem utf8OffsetAt_cells (k : Nat) :
    utf8OffsetAt buf.cells 0 k = .ok (distance buf.bytes (utf8Offset buf.bytes k)) := by
  have hwalk := utf8OffsetAt_distance buf.nonzero (List.suffix_refl buf.bytes) k
  rwa [distance_self] at hwalk

/-- Counting in the memory of the buffer is counting in its bytes. -/
theorem utf8LengthAt_cells (count : Nat) :
    utf8LengthAt buf.cells 0 count = .ok (utf8Length buf.bytes count) := by
  have hwalk := utf8LengthAt_distance buf.nonzero (List.suffix_refl buf.bytes) le_rfl count
  rwa [distance_self] at hwalk

end ByteBuffer

/-- For every buffer and every `k`: `__utf8_offset` and `__utf8_length` return and read nothing behind
the NUL. The first `k` characters end at a position `p` that is not behind the NUL, where a character
begins or the walk stops; `p` bytes are `min(k, n)` characters, `n` being the number of all of them; and
`n` characters end where the walk does. -/
theorem positions_convert (buf : ByteBuffer) (k : UInt32) :
    ∃ p n stop, utf8OffsetAt buf.cells 0 k.toNat = .ok p ∧
      utf8LengthAt buf.cells 0 uintMax = .ok n ∧ utf8OffsetAt buf.cells 0 uintMax = .ok stop ∧
      p ≤ buf.bytes.length ∧ LiesAt buf.bytes stop p ∧
      utf8LengthAt buf.cells 0 p = .ok (min k.toNat n) ∧
      utf8OffsetAt buf.cells 0 n = .ok stop := by
  simp only [buf.utf8OffsetAt_cells, buf.utf8LengthAt_cells]
  refine ⟨_, _, _, rfl, rfl, rfl, distance_le _ _, ?_⟩
  have hlength := buf.length_lt
  obtain ⟨cs, tail, hcs, htail, hbytes⟩ := exists_sequences buf.bytes
  have hcount := Blocks.length_le_length_flatten (allBlocks_of_isSequence hcs)
  rw [hbytes, List.length_append] at hlength
  rw [hbytes, distance_utf8Offset hcs htail, distance_utf8Offset hcs htail,
    distance_utf8Offset hcs htail, utf8Length_startOf hcs htail,
    utf8Length_of_le hcs htail (by omega), startOf_of_le (k := cs.length) le_rfl,
    startOf_of_le (k := uintMax) (by omega)]
  exact ⟨liesAt_startOf hcs htail k.toNat, rfl, rfl⟩

end Irstessi
