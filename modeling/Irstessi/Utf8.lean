import Irstessi.Lib.Blocks
import Mathlib.Data.List.TakeDrop
import Mathlib.Tactic.NormNum
import Mathlib.Tactic.SplitIfs

/-!
# UTF-8 walking of `string.cpp`

The static helpers that `class String` counts characters with. A buffer is the list of the bytes
before its NUL, and a pointer into the buffer is the list of the bytes from there on, so that
`p - buf` is `distance buf p`.

* `utf8SequenceType`, `utf8SkipBytes`, `utf8SkipSequence`, `utf8Offset`, `utf8Length`: the source's
  functions.
* `IsSequence`, `WellFormed`: what the walk takes for one character, and the texts it walks to the
  end.
* `exists_sequences`: every buffer is a row of sequences and a rest at which the walk stops;
  `utf8Offset_sequences`, `utf8Length_sequences` compute the two functions from it.

The helpers neither check all that UTF-8 asks for nor fail: a byte is taken for the beginning of a
character by its upper bits, and a sequence that is cut stops the walk. `IsSequence` is therefore what
the walk takes for a character and not what Unicode does; the byte 127 begins none. The two walks stop
at the same place, and on a row of sequences one is counting and the other is going on. In this form,
all that is needed later is how a row is cut (`Lib.Blocks`).
-/

namespace Irstessi

/-- The number of bytes of the sequence that `b` begins, 0 if it begins none. The comparison with
`0x7f` is strict, so the byte `0x7f` begins none.
Source: `string.cpp` `__utf8_sequence_type` -/
def utf8SequenceType (b : UInt8) : Nat :=
  if b < 0x7f then 1
  else if b >>> 5 = 0x06 then 2
  else if b >>> 4 = 0x0e then 3
  else if b >>> 3 = 0x1e then 4
  else 0

/-- A continuation byte `10xxxxxx`. -/
def IsContinuation (b : UInt8) : Prop := b >>> 6 = 0x02

instance : DecidablePred IsContinuation := fun b => inferInstanceAs (Decidable (b >>> 6 = 0x02))

/-- One continuation byte is skipped; anything else, the NUL included, is thrown at.
Source: `string.cpp` `__utf8_skip_byte` -/
def utf8SkipByte : List UInt8 → Option (List UInt8)
  | [] => none
  | b :: buf => if IsContinuation b then some buf else none

/-- The bytes of a sequence of the given type are skipped, the first one unseen.
Source: `string.cpp` `__utf8_skip_bytes` -/
def utf8SkipBytes (buf : List UInt8) (seqType : Nat) : Option (List UInt8) :=
  match seqType with
  | 4 => ((utf8SkipByte buf.tail).bind utf8SkipByte).bind utf8SkipByte
  | 3 => (utf8SkipByte buf.tail).bind utf8SkipByte
  | 2 => utf8SkipByte buf.tail
  | 1 => some buf.tail
  | _ => none

/-- Source: `string.cpp` `__utf8_skip_sequence` -/
def utf8SkipSequence (buf : List UInt8) : Option (List UInt8) :=
  utf8SkipBytes buf (utf8SequenceType (buf.headD 0))

/-- The pointer `offset` sequences further, or where the text ends or stops being UTF-8.
Source: `string.cpp` `__utf8_offset` -/
def utf8Offset (buf : List UInt8) (offset : Nat) : List UInt8 :=
  match offset with
  | 0 => buf
  | offset + 1 =>
      match buf with
      | [] => []
      | b :: rest =>
          match utf8SkipSequence (b :: rest) with
          | some buf => utf8Offset buf offset
          | none => b :: rest

/-- The loop of `__utf8_length`, one sequence a round; every round takes at least one byte, so that
the length of the buffer bounds the rounds. -/
def utf8LengthLoop (rounds : Nat) (buf : List UInt8) (count : Nat) : Nat :=
  match rounds with
  | 0 => 0
  | rounds + 1 =>
      match buf with
      | [] => 0
      | b :: rest =>
          if count = 0 then 0
          else
            let t := utf8SequenceType b
            match utf8SkipBytes (b :: rest) t with
            | some buf => utf8LengthLoop rounds buf (if t < count then count - t else 0) + 1
            | none => 0

/-- The number of sequences that begin in the first `count` bytes.
Source: `string.cpp` `__utf8_length` -/
def utf8Length (buf : List UInt8) (count : Nat) : Nat := utf8LengthLoop buf.length buf count

/-- The default `count` and `offset` of the source, `-1U`: more than a buffer has bytes. -/
def npos (buf : List UInt8) : Nat := buf.length

/-- `p - buf` for a pointer `p` into `buf`. -/
def distance (buf p : List UInt8) : Nat := buf.length - p.length

/-! ## Sequences -/

/-- What the walk takes for one character: a first byte and the continuation bytes it asks for. -/
def IsSequence (c : List UInt8) : Prop :=
  ∃ b t, c = b :: t ∧ utf8SequenceType b = t.length + 1 ∧ ∀ x ∈ t, IsContinuation x

/-- The walk reads the text to its end. -/
def WellFormed (text : List UInt8) : Prop :=
  ∃ cs : List (List UInt8), (∀ c ∈ cs, IsSequence c) ∧ text = cs.flatten

/-- No lead byte announces more than four bytes. -/
theorem utf8SequenceType_le (b : UInt8) : utf8SequenceType b ≤ 4 := by
  unfold utf8SequenceType
  repeat' split
  all_goals omega

/-- A byte below U+007F is a character of its own; U+007F itself is not, by the comparison in the
source. -/
theorem utf8SequenceType_of_lt {b : UInt8} (h : b < 0x7f) : utf8SequenceType b = 1 := if_pos h

/-- No continuation byte begins a sequence. -/
theorem not_isContinuation_of_sequenceType {b : UInt8} (h : utf8SequenceType b ≠ 0) :
    ¬ IsContinuation b := by
  intro hb
  simp only [IsContinuation, utf8SequenceType, UInt8.lt_iff_toNat_lt, ← UInt8.toNat_inj,
    UInt8.toNat_shiftRight, UInt8.toNat_ofNat, Nat.shiftRight_eq_div_pow] at h hb
  norm_num at h hb
  split_ifs at h <;> omega

/-- A sequence is a block of the general theory: one byte that starts it and the continuations
behind. -/
theorem IsSequence.isBlock {c : List UInt8} (h : IsSequence c) :
    Blocks.IsBlock IsContinuation c := by
  obtain ⟨b, t, rfl, htype, ht⟩ := h
  exact ⟨b, t, rfl, not_isContinuation_of_sequenceType (by omega), ht⟩

/-- A sequence has at least its lead byte. -/
theorem IsSequence.ne_nil {c : List UInt8} (h : IsSequence c) : c ≠ [] := h.isBlock.ne_nil

/-- A row of sequences is a row of blocks, so that the general lemmas on rows apply. -/
theorem allBlocks_of_isSequence {cs : List (List UInt8)} (h : ∀ c ∈ cs, IsSequence c) :
    Blocks.AllBlocks IsContinuation cs := fun c hc => (h c hc).isBlock

/-- A byte below `0x7f` is a sequence of its own. -/
theorem isSequence_singleton {b : UInt8} (h : b < 0x7f) : IsSequence [b] :=
  ⟨b, [], rfl, utf8SequenceType_of_lt h, by simp⟩

/-- A continuation byte is skipped. -/
theorem utf8SkipByte_cons {b : UInt8} (hb : IsContinuation b) (rest : List UInt8) :
    utf8SkipByte (b :: rest) = some rest := if_pos hb

/-- Only a continuation byte is skipped. -/
theorem utf8SkipByte_eq_some {buf p : List UInt8} (h : utf8SkipByte buf = some p) :
    ∃ b, IsContinuation b ∧ buf = b :: p := by
  cases buf with
  | nil => cases h
  | cons b rest =>
      rw [utf8SkipByte] at h
      split at h
      next hb => exact ⟨b, hb, by rw [Option.some.inj h]⟩
      next => simp at h

/-- A sequence at the pointer is skipped. -/
theorem utf8SkipSequence_append {c : List UInt8} (hc : IsSequence c) (rest : List UInt8) :
    utf8SkipSequence (c ++ rest) = some rest := by
  obtain ⟨b, t, rfl, htype, ht⟩ := hc
  have hle := utf8SequenceType_le b
  rw [utf8SkipSequence, List.cons_append, List.headD_cons, htype]
  match t, ht with
  | [], _ => rfl
  | [x], ht => simpa [utf8SkipBytes] using utf8SkipByte_cons (ht x (by simp)) rest
  | [x, y], ht =>
      simp [utf8SkipBytes, utf8SkipByte_cons (ht x (by simp)), utf8SkipByte_cons (ht y (by simp))]
  | [x, y, z], ht =>
      simp [utf8SkipBytes, utf8SkipByte_cons (ht x (by simp)), utf8SkipByte_cons (ht y (by simp)),
        utf8SkipByte_cons (ht z (by simp))]
  | x :: y :: z :: w :: t, _ => simp only [List.length_cons] at htype; omega

/-- What is skipped is a sequence. -/
theorem utf8SkipSequence_eq_some {b : UInt8} {rest p : List UInt8}
    (h : utf8SkipSequence (b :: rest) = some p) : ∃ c, IsSequence c ∧ b :: rest = c ++ p := by
  rw [utf8SkipSequence, List.headD_cons] at h
  unfold utf8SkipBytes at h
  simp only [List.tail_cons] at h
  split at h
  next htype =>
    obtain ⟨q₂, h₂, h₃⟩ := Option.bind_eq_some_iff.mp h
    obtain ⟨q₁, h₁, h₂⟩ := Option.bind_eq_some_iff.mp h₂
    obtain ⟨x, hx, hq₁⟩ := utf8SkipByte_eq_some h₁
    obtain ⟨y, hy, hq₂⟩ := utf8SkipByte_eq_some h₂
    obtain ⟨z, hz, hp⟩ := utf8SkipByte_eq_some h₃
    subst hq₁ hq₂ hp
    exact ⟨[b, x, y, z], ⟨b, _, rfl, htype, by simp [hx, hy, hz]⟩, rfl⟩
  next htype =>
    obtain ⟨q₁, h₁, h₂⟩ := Option.bind_eq_some_iff.mp h
    obtain ⟨x, hx, hq₁⟩ := utf8SkipByte_eq_some h₁
    obtain ⟨y, hy, hp⟩ := utf8SkipByte_eq_some h₂
    subst hq₁ hp
    exact ⟨[b, x, y], ⟨b, _, rfl, htype, by simp [hx, hy]⟩, rfl⟩
  next htype =>
    obtain ⟨x, hx, rfl⟩ := utf8SkipByte_eq_some h
    exact ⟨[b, x], ⟨b, _, rfl, htype, by simp [hx]⟩, rfl⟩
  next htype =>
    rw [← Option.some.inj h]
    exact ⟨[b], ⟨b, [], rfl, htype, by simp⟩, rfl⟩
  next => simp at h

/-- The walk stops at the pointer: the NUL, or a byte no sequence begins with. -/
def Stuck (p : List UInt8) : Prop := p = [] ∨ utf8SkipSequence p = none

/-- Every buffer is a row of sequences and a rest at which the walk stops. -/
theorem exists_sequences (buf : List UInt8) :
    ∃ (cs : List (List UInt8)) (tail : List UInt8),
      (∀ c ∈ cs, IsSequence c) ∧ Stuck tail ∧ buf = cs.flatten ++ tail := by
  induction hn : buf.length using Nat.strongRec generalizing buf with
  | _ n ih =>
      cases buf with
      | nil => exact ⟨[], [], by simp, .inl rfl, rfl⟩
      | cons b rest =>
          rcases hskip : utf8SkipSequence (b :: rest) with _ | p
          · exact ⟨[], b :: rest, by simp, .inr hskip, rfl⟩
          · obtain ⟨c, hc, heq⟩ := utf8SkipSequence_eq_some hskip
            have hlen : p.length < n := by
              have hpos := List.length_pos_iff.mpr hc.ne_nil
              rw [← hn, heq, List.length_append]
              omega
            obtain ⟨cs, tail, hcs, htail, rfl⟩ := ih p.length hlen p rfl
            exact ⟨c :: cs, tail, List.forall_mem_cons.mpr ⟨hc, hcs⟩, htail, by simp [heq]⟩

section

variable {cs : List (List UInt8)} {tail : List UInt8}

/-- Where no sequence begins the walk stays, however many characters are asked for. -/
theorem utf8Offset_of_stuck (h : Stuck tail) (k : Nat) : utf8Offset tail k = tail := by
  cases k with
  | zero => rfl
  | succ k =>
      cases tail with
      | nil => rfl
      | cons b rest =>
          rcases h with h | h
          · simp at h
          · rw [utf8Offset, h]

/-- `__utf8_offset` goes over as many sequences as asked for, or over all of them. -/
theorem utf8Offset_sequences (hcs : ∀ c ∈ cs, IsSequence c) (htail : Stuck tail) (k : Nat) :
    utf8Offset (cs.flatten ++ tail) k = (cs.drop k).flatten ++ tail := by
  induction cs generalizing k with
  | nil => simpa using utf8Offset_of_stuck htail k
  | cons c cs ih =>
      cases k with
      | zero => rfl
      | succ k =>
          have hc := hcs c List.mem_cons_self
          have hskip := utf8SkipSequence_append hc (cs.flatten ++ tail)
          obtain ⟨b, t, rfl, -, -⟩ := hc
          rw [List.cons_append] at hskip
          rw [List.flatten_cons, List.append_assoc, List.cons_append, utf8Offset, hskip]
          simpa using ih (fun d hd => hcs d (List.mem_cons_of_mem _ hd)) k

/-- Where no sequence begins no character is counted. -/
theorem utf8LengthLoop_of_stuck (h : Stuck tail) (rounds count : Nat) :
    utf8LengthLoop rounds tail count = 0 := by
  cases rounds with
  | zero => rfl
  | succ rounds =>
      cases tail with
      | nil => rfl
      | cons b rest =>
          rcases h with h | h
          · simp at h
          · rw [utf8SkipSequence, List.headD_cons] at h
            simp [utf8LengthLoop, h]

/-- `__utf8_length` of a count that ends with a sequence counts the sequences before it. -/
theorem utf8LengthLoop_sequences (hcs : ∀ c ∈ cs, IsSequence c) (htail : Stuck tail)
    {rounds k count : Nat} (hrounds : cs.length ≤ rounds)
    (hcount : count = (cs.take k).flatten.length) :
    utf8LengthLoop rounds (cs.flatten ++ tail) count = (cs.take k).length := by
  induction cs generalizing rounds k count with
  | nil => simpa using utf8LengthLoop_of_stuck htail rounds count
  | cons c cs ih =>
      obtain ⟨rounds, rfl⟩ : ∃ n, rounds = n + 1 :=
        ⟨rounds - 1, by simp only [List.length_cons] at hrounds; omega⟩
      have hc := hcs c List.mem_cons_self
      have hskip := utf8SkipSequence_append hc (cs.flatten ++ tail)
      obtain ⟨b, t, rfl, htype, -⟩ := hc
      cases k with
      | zero => simp [utf8LengthLoop, hcount]
      | succ k =>
          simp only [List.take_succ_cons, List.flatten_cons, List.length_append,
            List.length_cons] at hcount hrounds ⊢
          rw [utf8SkipSequence, List.cons_append, List.headD_cons] at hskip
          have hne : count ≠ 0 := by omega
          rw [List.append_assoc, List.cons_append, utf8LengthLoop, if_neg hne]
          simp only [hskip]
          rw [ih (fun d hd => hcs d (List.mem_cons_of_mem _ hd)) (k := k) (by omega)]
          rw [htype]
          split <;> omega

/-- The number of characters up to the end of the `k`-th sequence. -/
theorem utf8Length_sequences (hcs : ∀ c ∈ cs, IsSequence c) (htail : Stuck tail) (k : Nat) :
    utf8Length (cs.flatten ++ tail) (cs.take k).flatten.length = (cs.take k).length := by
  refine utf8LengthLoop_sequences hcs htail ?_ rfl
  have := Blocks.length_le_length_flatten (allBlocks_of_isSequence hcs)
  rw [List.length_append]
  omega

end

end Irstessi
