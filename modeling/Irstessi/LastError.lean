import Irstessi.Mdadm
import Irstessi.StringAppend

/-!
# The last error message

`SsiGetLastErrorMessage` tells a caller whose buffer is too small how much room the message takes,
copies the message into a buffer with room for it and clears it. It counts the characters of the
message, while `strncpy_s` copies bytes and does nothing for a buffer of more than 4096 bytes.

* `strncpy_s`, `SsiGetLastErrorMessage`: the functions, over the bytes of the buffer.
* `MessageText`, `stored`: the texts, and what `setLastErrorMessage` keeps of them.
* `Retrieves`: the two calls deliver the message, and no failing call changes it.
* `delivered_iff`: a buffer with room for the characters gets the message iff these are single bytes.
* **`retrieves_iff`**: the two calls deliver the message iff its characters are single bytes and the
  second buffer has 4096 bytes at most.

The number that the first call returns counts characters, and one more for the NUL; `strncpy_s` is then
given the caller's size and the number of bytes. For a message of single-byte characters both agree, and
the copy fits whenever the size does. For another message the number that is returned is too small for
the bytes, so that the second call copies a part or nothing and clears the message all the same. Sizes
above 4096 are refused by the library's constraint, which leaves the buffer as it was. The theorem
covers all messages, sizes and contents of the buffer.
-/

namespace Irstessi

/-! ## Functions -/

/-- Source: `safe_str_lib.h` `RSIZE_MAX_STR` -/
def RSIZE_MAX_STR : Nat := 4096

/-- The bytes are stored at the start of the buffer. -/
def overwrite (dest bytes : List UInt8) : List UInt8 := bytes ++ dest.drop bytes.length

/-- What the loop stores, and whether it comes to the end of the text or of the count before the room
for the text ends.
Source: `strncpy_s.c` `strncpy_s` -/
def strncpyLoop : Nat → List UInt8 → Nat → Bool × List UInt8
  | 0, _, _ => (false, [])
  | _ + 1, _, 0 => (true, [0])
  | _ + 1, [], _ + 1 => (true, [0])
  | dmax + 1, b :: src, slen + 1 =>
      ((strncpyLoop dmax src slen).1, b :: (strncpyLoop dmax src slen).2)

/-- The buffer afterwards. The text is given without its NUL and the buffers do not overlap.
Source: `strncpy_s.c` `strncpy_s` -/
def strncpy_s (dest : List UInt8) (dmax : Nat) (src : List UInt8) (slen : Nat) : List UInt8 :=
  if dmax = 0 ∨ RSIZE_MAX_STR < dmax then dest
  else if slen = 0 ∨ RSIZE_MAX_STR < slen then overwrite dest [0]
  else match strncpyLoop dmax src slen with
    | (true, bytes) => overwrite dest bytes
    | (false, bytes) => overwrite (overwrite dest bytes) [0]

/-- The message is copied.
Source: `utils.cpp` `getLastErrorMessage` -/
def getLastErrorMessage (SSI_STDERRMessage : Str) : Str := .ofBytes SSI_STDERRMessage.m_buffer

/-- Source: `utils.cpp` `clearLastErrorMessage` -/
def clearLastErrorMessage : Str := .empty

/-- What a call returns, and what it leaves in the buffer, in `*num` and as the message. -/
structure LastErrorCall where
  status : SSI_Status
  destination : Option (List UInt8)
  num : Option UInt32
  SSI_STDERRMessage : Str
  deriving DecidableEq, Repr

/-- A pointer that is NULL is none. The result of `strncpy_s` is not looked at.
Source: `src/session.cpp` `SsiGetLastErrorMessage` -/
def SsiGetLastErrorMessage (SSI_STDERRMessage : Str) (destination : Option (List UInt8))
    (num : Option UInt32) : LastErrorCall :=
  match num with
  | none => ⟨.invalidParameter, destination, none, SSI_STDERRMessage⟩
  | some num =>
      let source := getLastErrorMessage SSI_STDERRMessage
      if source.isEmpty then ⟨.ok, destination, some 0, SSI_STDERRMessage⟩
      else
        let ssiErrorLength := source.m_length
        if num.toNat ≤ ssiErrorLength then
          ⟨.bufferTooSmall, destination, some (.ofNat (ssiErrorLength + 1)), SSI_STDERRMessage⟩
        else match destination with
          | none => ⟨.invalidParameter, none, some num, SSI_STDERRMessage⟩
          | some dest =>
              ⟨.ok, some (strncpy_s dest num.toNat source.m_buffer ssiErrorLength), some num,
                clearLastErrorMessage⟩

/-! ## Messages -/

/-- A text that `setLastErrorMessage` is given: it has no NUL, and a `String` can hold it. -/
structure MessageText where
  text : List UInt8
  ne_zero : ∀ b ∈ text, b ≠ 0
  length_lt : text.length < uintMax

/-- What `setLastErrorMessage` keeps. -/
def MessageText.stored (message : MessageText) : Str := lastErrorMessage (.ofBytes message.text)

section Calls

variable (SSI_STDERRMessage : Str)

/-- There is a message, and `*num` is too small for it. -/
def TooSmall (num : UInt32) : Prop :=
  (getLastErrorMessage SSI_STDERRMessage).isEmpty = false ∧
    num.toNat ≤ (getLastErrorMessage SSI_STDERRMessage).m_length

/-- The call has put the whole message into the buffer, with its NUL, and cleared it. -/
def Delivered (call : LastErrorCall) : Prop :=
  call.status = .ok ∧ call.SSI_STDERRMessage = .empty ∧
    ∃ dest ∈ call.destination, (SSI_STDERRMessage.m_buffer ++ [0]) <+: dest

/-- A call with `num` that finds the buffer too small reports a size. The next call delivers the
message if its buffer, of `n` bytes, has that size at least. -/
structure Retrieves (num n : UInt32) : Prop where
  complete : ∀ destination : Option (List UInt8),
    (SsiGetLastErrorMessage SSI_STDERRMessage destination (some num)).status = .bufferTooSmall →
    ∃ size, (SsiGetLastErrorMessage SSI_STDERRMessage destination (some num)).num = some size ∧
      ∀ dest : List UInt8, size ≤ n → dest.length = n.toNat →
        Delivered SSI_STDERRMessage
          (SsiGetLastErrorMessage
            (SsiGetLastErrorMessage SSI_STDERRMessage destination (some num)).SSI_STDERRMessage
            (some dest) (some n))
  unchanged : ∀ (destination : Option (List UInt8)) (num : Option UInt32),
    (SsiGetLastErrorMessage SSI_STDERRMessage destination num).status ≠ .ok →
    (SsiGetLastErrorMessage SSI_STDERRMessage destination num).SSI_STDERRMessage = SSI_STDERRMessage

end Calls

namespace MessageText

variable (message : MessageText)

/-- Storing a message drops bytes and adds none. -/
theorem stored_subset : message.stored.m_buffer ⊆ message.text := by
  obtain ⟨cs, tail, hcs, htail, htext⟩ := exists_sequences message.text
  have hbuffer : (Str.ofBytes message.text).m_buffer ⊆ message.text := by
    rw [htext, Str.ofBytes_sequences hcs htail]
    exact List.subset_append_left _ _
  unfold stored lastErrorMessage
  split
  next => exact fun b hb => hbuffer (List.mem_of_mem_dropLast hb)
  next => exact hbuffer

/-- No stored byte is the NUL. -/
theorem stored_ne_zero : ∀ b ∈ message.stored.m_buffer, b ≠ 0 := fun b hb =>
  message.ne_zero b (message.stored_subset hb)

/-- The stored text is short enough for the 32-bit sizes of the class. -/
theorem length_stored_lt : message.stored.m_buffer.length < uintMax := by
  refine lt_of_le_of_lt ?_ message.length_lt
  have hbuffer := Str.length_buffer_ofBytes_le message.text
  unfold stored lastErrorMessage
  split
  next => exact (by simp : _ ≤ (Str.ofBytes message.text).m_buffer.length).trans hbuffer
  next => exact hbuffer

end MessageText

/-! ## Copies -/

/-- With room for the copy and its NUL, `strncpy_s` copies and terminates. -/
theorem strncpyLoop_of_lt {dmax slen : Nat} (src : List UInt8) (h : slen < dmax) :
    strncpyLoop dmax src slen = (true, src.take slen ++ [0]) := by
  induction dmax generalizing src slen with
  | zero => omega
  | succ dmax ih =>
      rcases slen with _ | slen
      · rfl
      · rcases src with _ | ⟨b, src⟩
        · rfl
        · rw [strncpyLoop, ih src (by omega)]
          rfl

/-- What the whole destination holds behind a copy that fits: the text, the NUL, and behind this what it
held before. -/
theorem strncpy_s_of_le {dmax slen : Nat} (dest src : List UInt8) (hpos : 0 < slen) (hlt : slen < dmax)
    (hmax : dmax ≤ RSIZE_MAX_STR) :
    strncpy_s dest dmax src slen = src.take slen ++ 0 :: dest.drop (src.take slen ++ [0]).length := by
  unfold strncpy_s
  rw [if_neg (by omega), if_neg (by omega), strncpyLoop_of_lt src hlt]
  show overwrite dest _ = _
  rw [overwrite, List.append_assoc, List.singleton_append]

/-- A terminated text determines what stands in front of its NUL. -/
theorem prefix_nul_iff {u v rest : List UInt8} (hu : ∀ b ∈ u, b ≠ 0) (hv : ∀ b ∈ v, b ≠ 0) :
    (u ++ [0]) <+: (v ++ 0 :: rest) ↔ u = v := by
  constructor
  · rintro ⟨more, hmore⟩
    have hcstring := congrArg cstring hmore
    rwa [List.append_assoc, List.singleton_append, cstring_append_nul hu, cstring_append_nul hv]
      at hcstring
  · rintro rfl
    exact ⟨rest, by simp⟩

/-- As many bytes as there are characters are the text iff the characters are single bytes. -/
theorem take_length_eq_iff (t : List UInt8) :
    (Str.ofBytes t).m_buffer.take (Str.ofBytes t).m_length = t ↔ SingleBytes t := by
  have hwell : WellFormed (Str.ofBytes t).m_buffer := Str.wellFormed_ofBytes t
  constructor
  · intro htake
    have hle := Str.length_buffer_ofBytes_le t
    have hlength := congrArg List.length htake
    rw [List.length_take] at hlength
    have hbuffer : (Str.ofBytes t).m_buffer = t := by
      rwa [List.take_of_length_le (by omega)] at htake
    rw [hbuffer] at hwell hlength
    refine (Str.length_ofBytes_eq_iff hwell).mp ?_
    have hcount := Str.length_ofBytes_le hwell
    omega
  · intro hsingle
    rw [Str.ofBytes_of_singleBytes hsingle, List.take_length]

/-! ## Calls -/

section Message

variable {message : MessageText}

/-- The number of characters fits into `*num`, with the NUL. -/
theorem length_source_lt : (getLastErrorMessage message.stored).m_length < uintMax := by
  have hwell : WellFormed (getLastErrorMessage message.stored).m_buffer := Str.wellFormed_ofBytes _
  have hcount := Str.length_ofBytes_le hwell
  have hself : Str.ofBytes (getLastErrorMessage message.stored).m_buffer =
      getLastErrorMessage message.stored := Str.ofBytes_ofBytes _
  rw [hself] at hcount
  have hle : (getLastErrorMessage message.stored).m_buffer.length ≤ message.stored.m_buffer.length :=
    Str.length_buffer_ofBytes_le _
  have hlt := message.length_stored_lt
  omega

/-- A call that finds the buffer too small. -/
theorem call_of_tooSmall {S : Str} {num : UInt32} (h : TooSmall S num)
    (destination : Option (List UInt8)) :
    SsiGetLastErrorMessage S destination (some num) =
      ⟨.bufferTooSmall, destination, some (.ofNat ((getLastErrorMessage S).m_length + 1)), S⟩ := by
  obtain ⟨hsome, hle⟩ := h
  unfold SsiGetLastErrorMessage
  simp only [hsome, Bool.false_eq_true, if_false, if_pos hle]

/-- The entry point refuses the buffer exactly where there is a message and the number given is not
above the number of its characters. -/
theorem bufferTooSmall_iff (S : Str) (destination : Option (List UInt8)) (num : UInt32) :
    (SsiGetLastErrorMessage S destination (some num)).status = .bufferTooSmall ↔ TooSmall S num := by
  constructor
  · intro hstatus
    unfold SsiGetLastErrorMessage at hstatus
    dsimp only at hstatus
    split at hstatus
    next => exact absurd hstatus (by simp)
    next hempty =>
      split at hstatus
      next hsmall => exact ⟨by simpa using hempty, hsmall⟩
      next => rcases destination with _ | dest <;> simp at hstatus
  · intro hsmall
    rw [call_of_tooSmall hsmall]

/-- A call with a buffer that has room for as many bytes as there are characters. -/
theorem call_of_lt {S : Str} {n : UInt32} (hsome : (getLastErrorMessage S).isEmpty = false)
    (h : (getLastErrorMessage S).m_length < n.toNat) (dest : List UInt8) :
    SsiGetLastErrorMessage S (some dest) (some n) =
      ⟨.ok, some (strncpy_s dest n.toNat (getLastErrorMessage S).m_buffer
        (getLastErrorMessage S).m_length), some n, .empty⟩ := by
  unfold SsiGetLastErrorMessage
  simp only [hsome, Bool.false_eq_true, if_false, if_neg (Nat.not_le.mpr h)]
  rfl

/-- No call changes the message but one that returns `SSI_StatusOk`. -/
theorem unchanged_of_ne_ok (S : Str) (destination : Option (List UInt8)) (num : Option UInt32)
    (h : (SsiGetLastErrorMessage S destination num).status ≠ .ok) :
    (SsiGetLastErrorMessage S destination num).SSI_STDERRMessage = S := by
  rcases num with _ | num
  · rfl
  · unfold SsiGetLastErrorMessage at h ⊢
    dsimp only at h ⊢
    split at h
    next hempty => exact absurd rfl h
    next hempty =>
      rw [if_neg hempty]
      split at h
      next hsmall => rw [if_pos hsmall]
      next hsmall =>
        rw [if_neg hsmall]
        rcases destination with _ | dest
        · rfl
        · exact absurd rfl h

/-- A buffer with room for as many bytes as there are characters, and of 4096 bytes at most, gets the
whole message iff the characters are single bytes. -/
theorem delivered_iff {n : UInt32} (hsome : (getLastErrorMessage message.stored).isEmpty = false)
    (hlt : (getLastErrorMessage message.stored).m_length < n.toNat) (hmax : n.toNat ≤ RSIZE_MAX_STR)
    (dest : List UInt8) :
    Delivered message.stored (SsiGetLastErrorMessage message.stored (some dest) (some n)) ↔
      SingleBytes message.stored.m_buffer := by
  have hpos : 0 < (getLastErrorMessage message.stored).m_length := by
    unfold Str.isEmpty at hsome
    rw [Bool.or_eq_false_iff, beq_eq_false_iff_ne] at hsome
    omega
  have hne : ∀ b ∈ (getLastErrorMessage message.stored).m_buffer.take
      (getLastErrorMessage message.stored).m_length, b ≠ 0 := by
    intro b hb
    obtain ⟨cs, tail, hcs, htail, htext⟩ := exists_sequences message.stored.m_buffer
    have hmem : b ∈ (Str.ofBytes message.stored.m_buffer).m_buffer := List.mem_of_mem_take hb
    apply message.stored_ne_zero b
    rw [htext, Str.ofBytes_sequences hcs htail] at hmem
    rw [htext]
    exact List.mem_append_left _ hmem
  rw [call_of_lt hsome hlt, strncpy_s_of_le _ _ hpos hlt hmax, ← take_length_eq_iff]
  constructor
  · rintro ⟨-, -, dest', hdest, hdelivered⟩
    obtain rfl := Option.some.inj hdest
    exact ((prefix_nul_iff message.stored_ne_zero hne).mp hdelivered).symm
  · intro htake
    exact ⟨rfl, rfl, _, rfl, (prefix_nul_iff message.stored_ne_zero hne).mpr htake.symm⟩

/-- A greater buffer is left as it is. -/
theorem not_delivered_of_max_lt {n : UInt32}
    (hsome : (getLastErrorMessage message.stored).isEmpty = false)
    (hlt : (getLastErrorMessage message.stored).m_length < n.toNat) (hmax : RSIZE_MAX_STR < n.toNat) :
    ¬ Delivered message.stored
      (SsiGetLastErrorMessage message.stored (some (List.replicate n.toNat 1)) (some n)) := by
  rw [call_of_lt hsome hlt, strncpy_s, if_pos (Or.inr hmax)]
  rintro ⟨-, -, dest, hdest, hdelivered⟩
  obtain rfl := Option.some.inj hdest
  have hnul : (0 : UInt8) ∈ List.replicate n.toNat (1 : UInt8) :=
    hdelivered.subset (List.mem_append_right _ List.mem_cons_self)
  exact absurd (List.eq_of_mem_replicate hnul) (by simp)

end Message

/-- The two calls deliver the message iff its characters are single bytes and the second buffer has
4096 bytes at most, where the first buffer is too small and the second has as many bytes as asked. -/
theorem retrieves_iff (message : MessageText) (num n : UInt32) :
    Retrieves message.stored num n ↔
      (TooSmall message.stored num → (getLastErrorMessage message.stored).m_length < n.toNat →
        SingleBytes message.stored.m_buffer ∧ n.toNat ≤ RSIZE_MAX_STR) := by
  have hsize : (UInt32.ofNat ((getLastErrorMessage message.stored).m_length + 1)).toNat =
      (getLastErrorMessage message.stored).m_length + 1 := by
    have hlt : (getLastErrorMessage message.stored).m_length < uintMax := length_source_lt
    unfold uintMax at hlt
    exact UInt32.toNat_ofNat_of_lt' (by unfold UInt32.size; omega)
  constructor
  · intro hretrieves hsmall hlt
    have hdelivered : ∀ dest : List UInt8, dest.length = n.toNat →
        Delivered message.stored (SsiGetLastErrorMessage message.stored (some dest) (some n)) := by
      intro dest hdest
      obtain ⟨size, hreported, hcomplete⟩ :=
        hretrieves.complete none ((bufferTooSmall_iff _ _ _).mpr hsmall)
      rw [call_of_tooSmall hsmall] at hreported hcomplete
      obtain rfl := Option.some.inj hreported
      refine hcomplete dest ?_ hdest
      rw [UInt32.le_iff_toNat_le, hsize]
      exact hlt
    have hbuffer : (List.replicate n.toNat (1 : UInt8)).length = n.toNat := List.length_replicate
    have hmax : n.toNat ≤ RSIZE_MAX_STR := by
      by_contra hgt
      exact not_delivered_of_max_lt hsmall.1 hlt (Nat.not_le.mp hgt) (hdelivered _ hbuffer)
    exact ⟨(delivered_iff hsmall.1 hlt hmax _).mp (hdelivered _ hbuffer), hmax⟩
  · intro hcondition
    refine ⟨fun destination hstatus => ?_, unchanged_of_ne_ok _⟩
    have hsmall := (bufferTooSmall_iff _ _ _).mp hstatus
    rw [call_of_tooSmall hsmall]
    refine ⟨_, rfl, fun dest hle hdest => ?_⟩
    rw [UInt32.le_iff_toNat_le, hsize] at hle
    obtain ⟨hsingle, hmax⟩ := hcondition hsmall hle
    exact (delivered_iff hsmall.1 hle hmax dest).mpr hsingle

/-- Two bytes that are one character. -/
def sampleMessage : MessageText where
  text := [0xc3, 0xa9]
  ne_zero := by decide +kernel
  length_lt := by decide

/-- The second call delivers one byte of the two, and clears the message. -/
theorem not_retrieves_sampleMessage :
    ¬ ∀ (message : MessageText) (num n : UInt32), Retrieves message.stored num n := by
  intro hall
  obtain ⟨size, hsize, hcomplete⟩ := (hall sampleMessage 0 2).complete none (by decide)
  obtain rfl : size = 2 := by
    have hreported : (SsiGetLastErrorMessage sampleMessage.stored none (some 0)).num = some 2 := by
      decide
    exact Option.some.inj (hsize.symm.trans hreported)
  obtain ⟨-, -, dest, hdest, hmessage⟩ := hcomplete [0, 0] (by decide) rfl
  have hbuffer : dest = [0xc3, 0] := by
    have hcall : (SsiGetLastErrorMessage
        (SsiGetLastErrorMessage sampleMessage.stored none (some 0)).SSI_STDERRMessage
        (some [0, 0]) (some 2)).destination = some [0xc3, 0] := by decide
    exact Option.some.inj (hdest.symm.trans hcall)
  have hlonger := hmessage.length_le
  rw [hbuffer] at hlonger
  exact absurd hlonger (by decide)

end Irstessi
