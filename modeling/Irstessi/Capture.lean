import Irstessi.Encoding
import Irstessi.StringAppend

/-!
# Captured output

The output of a command is read in chunks, and each is appended to the result by way of an object of its
own. The walk drops what it cannot read of a chunk, and `append` overwrites the end of a result that has
characters of several bytes.

* `StringObject.shellCap`, `StringObject.shellOutput`: the functions, with the chunks that are read.
* `appends_iff`: a row of chunks is put together iff each is read to its end and those before it are
  single bytes.
* **`leavesOutput_iff`**: the result is the output iff there is no U+007F in it, all chunks but the last
  are ASCII, and it is shorter than 2^32-1 bytes.

The functions differ in how they cut the output (`fread` fills a buffer of 1023 bytes, `fgets` ends a
piece behind each newline) and in how many characters of a piece they append, but not in the loop: both
are a fold of `appendChunk` over the pieces. One induction over the pieces serves both. Its step says
what one piece adds to a valid object; the length of the result then grows by exactly the bytes of the
piece, or by less as soon as the text so far has a character of several bytes or the piece is not
well-formed. So a result of the right length is only possible where no piece loses anything, and a loss
is never made up for.
-/

namespace Irstessi

/-! ## Functions -/

/-- What `fread` or `fgets` leaves in the buffer, and what new memory holds while it is appended. -/
structure Chunk where
  bytes : List UInt8
  junk : Nat → Nat → UInt8

/-- A command that `popen` has started: what is read of it, and what `pclose` returns. -/
structure Pipe where
  chunks : List Chunk
  status : Int

/-- Source: `utils.cpp` `shell_output`, `WEXITSTATUS` -/
def wexitstatus (status : Int) : Int := status / 256 % 256

namespace StringObject

/-- An object is constructed from the buffer, and at most `count` of its characters are appended.
Source: `utils.cpp` `shell_cap`, `shell_output`, the loops -/
def appendChunk (count : List UInt8 → Nat) (r : StringObject) (chunk : Chunk) : Option StringObject :=
  (new.assign (chunk.junk 0) (some chunk.bytes) uintMax).bind fun buffer =>
    r.append buffer (chunk.junk 1) (count chunk.bytes)

/-- Source: `string.h` `String::clear` -/
def clear (s : StringObject) (junk : Nat → UInt8) : Option StringObject := s.assign junk (some []) uintMax

/-- Without a process the result is left as it is.
Source: `utils.cpp` `shell_cap` -/
def shellCap (r : StringObject) (junk : Nat → UInt8) (pd : Option Pipe) :
    Option (Int × StringObject) :=
  match pd with
  | none => some (-1, r)
  | some pd => do
      let r ← r.clear junk
      let r ← pd.chunks.foldlM (appendChunk List.length) r
      pure (pd.status, r)

/-- Source: `utils.cpp` `shell_output` -/
def shellOutput (output : StringObject) (junk : Nat → UInt8) (pd : Option Pipe) :
    Option (Int × StringObject) := do
  let output ← output.clear junk
  match pd with
  | none => pure (-1, output)
  | some pd =>
      let output ← pd.chunks.foldlM (appendChunk fun _ => uintMax) output
      pure (if wexitstatus pd.status ≠ 0 then -1 else 0, output)

end StringObject

/-! ## Outputs and their chunks -/

/-- The bytes of a row of chunks. -/
def joined (chunks : List Chunk) : List UInt8 := chunks.flatMap Chunk.bytes

/-- The command writes the output, and its chunks are as long as the buffer of `shell_output` at most;
that of `shell_cap` is shorter. -/
structure Pipe.Writes (pd : Pipe) (output : Utf8Text) : Prop where
  joined_eq : joined pd.chunks = output.bytes
  ne_nil : ∀ chunk ∈ pd.chunks, chunk.bytes ≠ []
  length_lt : ∀ chunk ∈ pd.chunks, chunk.bytes.length < 64 * 1024

/-- The result of a capture is the output. -/
def LeavesOutput (output : Utf8Text) (result : Option (Int × StringObject)) : Prop :=
  ∃ status r, result = some (status, r) ∧ r.text = output.bytes

/-- The chunks can be put together. -/
structure Pipe.Joins (pd : Pipe) (output : Utf8Text) : Prop where
  readable : ∀ c ∈ output.chars, c ≠ DEL
  ascii : ∀ chunk ∈ pd.chunks.dropLast, ∀ b ∈ chunk.bytes, b < 0x80
  short : output.bytes.length < uintMax

/-- Each chunk is read to its end, behind single bytes. -/
def Appends : List UInt8 → List Chunk → Prop
  | _, [] => True
  | done, chunk :: chunks =>
      SingleBytes done ∧ WellFormed chunk.bytes ∧ Appends (done ++ chunk.bytes) chunks

/-! ## One chunk -/

/-- With a count that is not too small all bytes of a well-formed text are appended. -/
theorem StringObject.appendedBytes_of_le {u : List UInt8} (hu : WellFormed u) (hlength : u.length < uintMax)
    {count : Nat} (hcount : u.length ≤ count) : appendedBytes u count = u.length := by
  obtain ⟨cs, hcs, rfl⟩ := hu
  have hle := Blocks.length_le_length_flatten (allBlocks_of_isSequence hcs)
  have hoffset := utf8Offset_sequences hcs (.inl rfl) count
  rw [List.append_nil, List.append_nil, List.drop_eq_nil_of_le (hle.trans hcount), List.flatten_nil]
    at hoffset
  have hmod : toUnsigned cs.flatten.length = cs.flatten.length := by
    unfold toUnsigned
    unfold uintMax at hlength
    exact Nat.mod_eq_of_lt (by omega)
  rw [appendedBytes, hoffset, distance, List.length_nil, Nat.sub_zero, hmod, Nat.min_self]

/-- The bytes of a chunk that the walk reads. -/
def Chunk.read (chunk : Chunk) : List UInt8 := (Str.ofBytes chunk.bytes).m_buffer

/-- A chunk is read to its end exactly where it is well-formed: no character is cut, none is U+007F. -/
theorem Chunk.read_eq_iff (chunk : Chunk) : chunk.read = chunk.bytes ↔ WellFormed chunk.bytes := by
  constructor
  · intro h
    rw [← h]
    exact Str.wellFormed_ofBytes _
  · exact Str.ofBytes_buffer

/-- Otherwise bytes are lost. -/
theorem Chunk.length_read_lt {chunk : Chunk} (h : ¬ WellFormed chunk.bytes) :
    chunk.read.length < chunk.bytes.length := by
  have hpre := Str.ofBytes_isPrefixOf chunk.bytes
  refine lt_of_le_of_ne hpre.length_le fun heq => h ?_
  exact chunk.read_eq_iff.mp (hpre.eq_of_length heq)

/-- A chunk as it can be read: not empty, without NUL and not longer than the buffer. -/
structure Chunk.Readable (chunk : Chunk) : Prop where
  ne_nil : chunk.bytes ≠ []
  nonzero : ∀ b ∈ chunk.bytes, b ≠ 0
  length_lt : chunk.bytes.length < 64 * 1024

namespace StringObject

section chunk

variable {count : List UInt8 → Nat} (hcount : ∀ u, u.length < 64 * 1024 → u.length ≤ count u)
  {chunk : Chunk} (hchunk : chunk.Readable) {r : StringObject} (hr : r.Valid)

include hcount hchunk hr

/-- What is read of the chunk is stored at the byte `m_length`, if there is room for it. -/
theorem appendChunk_cases :
    (appendChunk count r chunk = none ∧ ¬ r.HasRoom chunk.read.length) ∨
      ∃ r', appendChunk count r chunk = some r' ∧ r'.Valid ∧
        r'.bytes = if chunk.read = [] then r.bytes else r.bytes.take r.m_length ++ chunk.read := by
  have hshort : chunk.bytes.length < uintMax := hchunk.length_lt.trans (by decide)
  obtain ⟨buffer, hassign, hbuffer, hstr⟩ :=
    allocated_new.toStr_assign (chunk.junk 0) hchunk.nonzero hshort
  have hread : buffer.bytes = chunk.read := congrArg Str.m_buffer hstr
  have hwell : WellFormed chunk.read := Str.wellFormed_ofBytes _
  have hle : chunk.read.length ≤ chunk.bytes.length := Str.length_buffer_ofBytes_le _
  have hall : appendedBytes buffer.bytes (count chunk.bytes) = chunk.read.length := by
    rw [hread]
    exact appendedBytes_of_le hwell (hle.trans_lt hshort) (hle.trans (hcount _ hchunk.length_lt))
  have hpos : count chunk.bytes ≠ 0 := by
    have hlength := List.length_pos_iff.mpr hchunk.ne_nil
    have hge := hcount _ hchunk.length_lt
    omega
  unfold appendChunk
  rw [hassign, Option.bind_some]
  by_cases hnil : chunk.read = []
  · have hempty : ¬ (buffer.bytes ≠ [] ∧ count chunk.bytes ≠ 0) := fun hsome => hsome.1 (hread.trans hnil)
    rw [if_pos hnil]
    exact .inr ⟨r, hbuffer.append_of_empty hempty, hr, rfl⟩
  · have hsome : buffer.bytes ≠ [] ∧ count chunk.bytes ≠ 0 := ⟨fun h => hnil (hread.symm.trans h), hpos⟩
    by_cases hroom : r.HasRoom chunk.read.length
    · obtain ⟨r', happend, hvalid, hbytes⟩ :=
        hr.append hbuffer (chunk.junk 1) hsome (by rwa [hall])
      rw [hall, hread, List.take_length] at hbytes
      rw [if_neg hnil]
      exact .inr ⟨r', happend, hvalid, hbytes⟩
    · exact .inl ⟨hr.append_of_not_hasRoom hbuffer (chunk.junk 1) hsome (by rwa [hall]), hroom⟩

/-- The result grows by no more than the chunk. -/
theorem appendChunk_length_le {r' : StringObject} (h : appendChunk count r chunk = some r') :
    r'.Valid ∧ r'.bytes.length ≤ r.bytes.length + chunk.bytes.length := by
  have hle : chunk.read.length ≤ chunk.bytes.length := Str.length_buffer_ofBytes_le _
  rcases appendChunk_cases hcount hchunk hr with ⟨hnone, -⟩ | ⟨r'', hsome, hvalid, hbytes⟩
  · rw [hnone] at h
    cases h
  · obtain rfl := Option.some.inj (hsome.symm.trans h)
    refine ⟨hvalid, ?_⟩
    rw [hbytes]
    split
    next => exact Nat.le_add_right _ _
    next =>
      rw [List.length_append]
      exact Nat.add_le_add (List.length_take_le' _ _) hle

/-- Behind characters of several bytes, and with bytes that the walk does not read, it grows by less. -/
theorem appendChunk_length_lt {r' : StringObject} (h : appendChunk count r chunk = some r')
    (hlost : ¬ (SingleBytes r.bytes ∧ WellFormed chunk.bytes)) :
    r'.bytes.length < r.bytes.length + chunk.bytes.length := by
  have hle : chunk.read.length ≤ chunk.bytes.length := Str.length_buffer_ofBytes_le _
  have hpos := List.length_pos_iff.mpr hchunk.ne_nil
  rcases appendChunk_cases hcount hchunk hr with ⟨hnone, -⟩ | ⟨r'', hsome, hvalid, hbytes⟩
  · rw [hnone] at h
    cases h
  · obtain rfl := Option.some.inj (hsome.symm.trans h)
    rw [hbytes]
    split
    next => omega
    next =>
      rw [List.length_append, List.length_take, hr.length_bytes]
      have hlength := hr.length_le
      by_cases hread : WellFormed chunk.bytes
      · have hmany : ¬ SingleBytes r.bytes := fun hsingle => hlost ⟨hsingle, hread⟩
        rw [← hr.length_eq_iff] at hmany
        omega
      · have hlt := Chunk.length_read_lt hread
        omega

/-- Behind single bytes a chunk that is read to its end is appended. -/
theorem appendChunk_of_singleBytes (hsingle : SingleBytes r.bytes) (hread : WellFormed chunk.bytes)
    (hshort : r.bytes.length + chunk.bytes.length < uintMax) :
    ∃ r', appendChunk count r chunk = some r' ∧ r'.Valid ∧ r'.bytes = r.bytes ++ chunk.bytes := by
  have hall := chunk.read_eq_iff.mpr hread
  have hlength := hr.length_eq_iff.mpr hsingle
  rcases appendChunk_cases hcount hchunk hr with ⟨-, hroom⟩ | ⟨r', hsome, hvalid, hbytes⟩
  · refine absurd (.inl ?_) hroom
    rw [hall, ← hr.length_bytes]
    unfold uintMax at hshort
    omega
  · rw [hall, if_neg hchunk.ne_nil, hlength, ← hr.length_bytes, List.take_length] at hbytes
    exact ⟨r', hsome, hvalid, hbytes⟩

end chunk

/-! ## All chunks -/

section chunks

variable {count : List UInt8 → Nat} (hcount : ∀ u, u.length < 64 * 1024 → u.length ≤ count u)

include hcount

/-- Over a whole row of chunks the result grows by no more than their bytes. -/
theorem foldlM_length_le {chunks : List Chunk} (hchunks : ∀ chunk ∈ chunks, chunk.Readable)
    {r r' : StringObject} (hr : r.Valid) (h : chunks.foldlM (appendChunk count) r = some r') :
    r'.Valid ∧ r'.bytes.length ≤ r.bytes.length + (joined chunks).length := by
  induction chunks generalizing r with
  | nil =>
      obtain rfl := Option.some.inj h
      exact ⟨hr, Nat.le_add_right _ _⟩
  | cons chunk chunks ih =>
      rw [List.foldlM_cons, Option.bind_eq_bind, Option.bind_eq_some_iff] at h
      obtain ⟨s, hs, h⟩ := h
      obtain ⟨hvalid, hle⟩ :=
        appendChunk_length_le hcount (hchunks chunk List.mem_cons_self) hr hs
      obtain ⟨hvalid', hle'⟩ := ih (fun c hc => hchunks c (List.mem_cons_of_mem _ hc)) hvalid h
      refine ⟨hvalid', ?_⟩
      rw [joined, List.flatMap_cons, List.length_append]
      rw [joined] at hle'
      omega

/-- The chunks are put together iff each is read to its end behind single bytes, and they fit: what is
lost of one is not made up for by the others. -/
theorem appends_iff {chunks : List Chunk} (hchunks : ∀ chunk ∈ chunks, chunk.Readable)
    {r : StringObject} (hr : r.Valid) :
    (∃ r', chunks.foldlM (appendChunk count) r = some r' ∧ r'.text = r.bytes ++ joined chunks) ↔
      Appends r.bytes chunks ∧ (r.bytes ++ joined chunks).length < uintMax := by
  induction chunks generalizing r with
  | nil =>
      have hlt := hr.length_lt
      rw [joined, List.flatMap_nil, List.append_nil]
      exact iff_of_true ⟨r, rfl, hr.text_eq⟩ ⟨trivial, hlt⟩
  | cons chunk chunks ih =>
      have hchunk := hchunks chunk List.mem_cons_self
      have hrest : ∀ c ∈ chunks, c.Readable := fun c hc => hchunks c (List.mem_cons_of_mem _ hc)
      have hjoined : joined (chunk :: chunks) = chunk.bytes ++ joined chunks := List.flatMap_cons
      rw [hjoined, ← List.append_assoc]
      by_cases hkept : SingleBytes r.bytes ∧ WellFormed chunk.bytes
      · by_cases hshort : r.bytes.length + chunk.bytes.length < uintMax
        · obtain ⟨s, hs, hvalid, hbytes⟩ :=
            appendChunk_of_singleBytes hcount hchunk hr hkept.1 hkept.2 hshort
          have hsum := ih hrest hvalid
          rw [hbytes] at hsum
          rw [List.foldlM_cons, hs, Option.bind_eq_bind, Option.bind_some, hsum, Appends]
          exact ⟨fun h => ⟨⟨hkept.1, hkept.2, h.1⟩, h.2⟩, fun h => ⟨h.1.2.2, h.2⟩⟩
        · refine iff_of_false ?_ fun h => hshort ?_
          · rintro ⟨r', hr', htext⟩
            obtain ⟨hvalid, -⟩ := foldlM_length_le hcount hchunks hr hr'
            have hlt := hvalid.length_lt
            rw [← hvalid.text_eq, htext, List.length_append, List.length_append] at hlt
            omega
          · have hlength := h.2
            rw [List.length_append, List.length_append] at hlength
            omega
      · refine iff_of_false ?_ fun h => hkept ⟨h.1.1, h.1.2.1⟩
        rintro ⟨r', hr', htext⟩
        rw [List.foldlM_cons, Option.bind_eq_bind, Option.bind_eq_some_iff] at hr'
        obtain ⟨s, hs, hr'⟩ := hr'
        have hlt := appendChunk_length_lt hcount hchunk hr hs hkept
        obtain ⟨hvalid, -⟩ := appendChunk_length_le hcount hchunk hr hs
        obtain ⟨hvalid', hle⟩ := foldlM_length_le hcount hrest hvalid hr'
        have hlength := congrArg List.length htext
        rw [hvalid'.text_eq, List.length_append, List.length_append] at hlength
        omega

end chunks

end StringObject

/-! ## Outputs -/

/-- Single bytes in front make no difference. -/
theorem wellFormed_append_iff {u v : List UInt8} (hu : SingleBytes u) :
    WellFormed (u ++ v) ↔ WellFormed v := by
  induction u with
  | nil => rfl
  | cons b u ih =>
      have hcut := wellFormed_append_cons_iff (u := []) (v := u ++ v) (hu b List.mem_cons_self)
      rw [List.nil_append] at hcut
      rw [List.cons_append, hcut, ih fun c hc => hu c (List.mem_cons_of_mem _ hc)]
      exact and_iff_right wellFormed_nil

/-- What has been put together is read to its end. -/
theorem Appends.wellFormed {done : List UInt8} {chunks : List Chunk} (hdone : WellFormed done)
    (h : Appends done chunks) : WellFormed (done ++ joined chunks) := by
  induction chunks generalizing done with
  | nil => rwa [joined, List.flatMap_nil, List.append_nil]
  | cons chunk chunks ih =>
      rw [joined, List.flatMap_cons, ← List.append_assoc]
      exact ih (hdone.append h.2.1) h.2.2

/-- Chunks that are put together are single bytes up to the last one. -/
theorem Appends.singleBytes {done : List UInt8} {chunks : List Chunk} (h : Appends done chunks) :
    ∀ chunk ∈ chunks.dropLast, SingleBytes chunk.bytes := by
  induction chunks generalizing done with
  | nil => exact fun chunk hchunk => absurd hchunk List.not_mem_nil
  | cons first chunks ih =>
      rcases chunks with _ | ⟨second, chunks⟩
      · exact fun chunk hchunk => absurd hchunk List.not_mem_nil
      · rw [List.dropLast_cons_cons, List.forall_mem_cons]
        exact ⟨fun b hb => h.2.2.1 b (List.mem_append_right _ hb), ih h.2.2⟩

/-- Chunks that are single bytes but for the last can be put together. -/
theorem appends_of_singleBytes {done : List UInt8} {chunks : List Chunk} (hdone : SingleBytes done)
    (hwell : WellFormed (done ++ joined chunks))
    (h : ∀ chunk ∈ chunks.dropLast, SingleBytes chunk.bytes) : Appends done chunks := by
  induction chunks generalizing done with
  | nil => trivial
  | cons first chunks ih =>
      rw [wellFormed_append_iff hdone] at hwell
      rcases chunks with _ | ⟨second, chunks⟩
      · rw [joined, List.flatMap_cons, List.flatMap_nil, List.append_nil] at hwell
        exact ⟨hdone, hwell, trivial⟩
      · rw [List.dropLast_cons_cons, List.forall_mem_cons] at h
        refine ⟨hdone, h.1.wellFormed, ih (hdone.append h.1) ?_ h.2⟩
        rw [List.append_assoc, wellFormed_append_iff hdone]
        rwa [joined, List.flatMap_cons] at hwell

/-- The condition on the output and its chunks. -/
theorem Pipe.Writes.appends_iff {pd : Pipe} {output : Utf8Text} (h : pd.Writes output) :
    Appends [] pd.chunks ∧ output.bytes.length < uintMax ↔ pd.Joins output := by
  constructor
  · rintro ⟨happends, hshort⟩
    have hwell := happends.wellFormed wellFormed_nil
    rw [List.nil_append, h.joined_eq] at hwell
    refine ⟨(wellFormed_encode_iff output.chars).mp hwell, fun chunk hchunk b hb => ?_, hshort⟩
    have hlt : (0x7f : UInt8) < 0x80 := by decide
    exact UInt8.lt_trans (happends.singleBytes chunk hchunk b hb) hlt
  · intro hjoins
    have hwell : WellFormed output.bytes := (wellFormed_encode_iff output.chars).mpr hjoins.readable
    refine ⟨appends_of_singleBytes (fun b hb => absurd hb List.not_mem_nil) ?_ ?_, hjoins.short⟩
    · rwa [List.nil_append, h.joined_eq]
    · intro chunk hchunk b hb
      refine hwell.lt_of_mem ?_ (hjoins.ascii chunk hchunk b hb)
      rw [← h.joined_eq]
      exact List.mem_flatMap.mpr ⟨chunk, List.mem_of_mem_dropLast hchunk, hb⟩

/-- The chunks of an output can be read: they are not empty, have no NUL and fit the buffer. -/
theorem Pipe.Writes.readable {pd : Pipe} {output : Utf8Text} (h : pd.Writes output) :
    ∀ chunk ∈ pd.chunks, chunk.Readable := by
  intro chunk hchunk
  refine ⟨h.ne_nil chunk hchunk, fun b hb => ?_, h.length_lt chunk hchunk⟩
  apply output.ne_zero
  rw [← h.joined_eq]
  exact List.mem_flatMap.mpr ⟨chunk, hchunk, hb⟩

/-- Clearing succeeds and leaves a valid object with the empty text. -/
theorem StringObject.Valid.clear {r : StringObject} (hr : r.Valid) (junk : Nat → UInt8) :
    ∃ r', r.clear junk = some r' ∧ r'.Valid ∧ r'.bytes = [] := by
  have hnone : ∀ b ∈ ([] : List UInt8), b ≠ 0 := fun b hb => absurd hb List.not_mem_nil
  obtain ⟨r', hclear, hvalid, hstr⟩ := hr.allocated.toStr_assign junk hnone (by decide)
  exact ⟨r', hclear, hvalid, congrArg Str.m_buffer hstr⟩

/-- The loop behind both functions, on a result that has been cleared. -/
theorem captured_iff {pd : Pipe} {output : Utf8Text} (h : pd.Writes output)
    {count : List UInt8 → Nat} (hcount : ∀ u, u.length < 64 * 1024 → u.length ≤ count u)
    {r : StringObject} (hr : r.Valid) (hempty : r.bytes = []) :
    (∃ r', pd.chunks.foldlM (StringObject.appendChunk count) r = some r' ∧ r'.text = output.bytes) ↔
      pd.Joins output := by
  have hall := StringObject.appends_iff hcount h.readable hr
  rw [hempty, List.nil_append, h.joined_eq, h.appends_iff] at hall
  exact hall

/-- The result is returned along with a status. -/
theorem exists_bind_iff {collected : Option StringObject} {text : List UInt8}
    (f : StringObject → Int × StringObject) (hf : ∀ r, (f r).2 = r) :
    (∃ status r, (collected.bind fun r => pure (f r)) = some (status, r) ∧ r.text = text) ↔
      ∃ r, collected = some r ∧ r.text = text := by
  rcases collected with _ | collected
  · simp
  · rw [Option.bind_some]
    constructor
    · rintro ⟨status, r, heq, htext⟩
      have hr : collected = r := (hf collected).symm.trans (congrArg Prod.snd (Option.some.inj heq))
      exact ⟨collected, rfl, hr ▸ htext⟩
    · rintro ⟨r, heq, htext⟩
      obtain rfl := Option.some.inj heq
      exact ⟨(f collected).1, collected, congrArg some (Prod.ext rfl (hf collected)), htext⟩

section capture

variable {output : Utf8Text} {pd : Pipe} (h : pd.Writes output) {r : StringObject} (hr : r.Valid)
  (junk : Nat → UInt8)

include h hr

/-- `shell_cap` appends as many characters of a chunk as `fread` has returned bytes, which is never too
few. -/
theorem leavesOutput_shellCap_iff :
    LeavesOutput output (r.shellCap junk (some pd)) ↔ pd.Joins output := by
  obtain ⟨cleared, hclear, hvalid, hempty⟩ := hr.clear junk
  rw [← captured_iff h (fun u _ => le_rfl) hvalid hempty]
  unfold LeavesOutput StringObject.shellCap
  dsimp only
  rw [hclear, Option.bind_eq_bind, Option.bind_some]
  exact exists_bind_iff (fun r' => (pd.status, r')) fun _ => rfl

/-- `shell_output` appends all characters of a line; the status of the command does not matter here. -/
theorem leavesOutput_shellOutput_iff :
    LeavesOutput output (r.shellOutput junk (some pd)) ↔ pd.Joins output := by
  obtain ⟨cleared, hclear, hvalid, hempty⟩ := hr.clear junk
  have hlong : ∀ u : List UInt8, u.length < 64 * 1024 → u.length ≤ uintMax :=
    fun u hu => hu.le.trans (by decide)
  rw [← captured_iff h hlong hvalid hempty]
  unfold LeavesOutput StringObject.shellOutput
  rw [hclear, Option.bind_eq_bind, Option.bind_some]
  exact exists_bind_iff (fun r' => (if wexitstatus pd.status ≠ 0 then -1 else 0, r')) fun _ => rfl

end capture

/-- Both functions leave the output in the result, whatever this was before, iff no character is U+007F,
all chunks but the last are ASCII, and the output is shorter than 2^32-1 bytes. The chunks are whatever
`fread` and `fgets` return; that a chunk has only ASCII characters is what lets the next one be appended
behind its last byte. -/
theorem leavesOutput_iff (output : Utf8Text) (pd : Pipe) (h : pd.Writes output) (r : StringObject)
    (hr : r.Valid) (junk : Nat → UInt8) :
    (LeavesOutput output (r.shellCap junk (some pd)) ↔ pd.Joins output) ∧
      (LeavesOutput output (r.shellOutput junk (some pd)) ↔ pd.Joins output) :=
  ⟨leavesOutput_shellCap_iff h hr junk, leavesOutput_shellOutput_iff h hr junk⟩

/-- A `String` that has just been constructed. -/
def emptyString : StringObject := ⟨[0], 0, 0, 1⟩

/-- A newly constructed object is valid. -/
theorem valid_emptyString : emptyString.Valid :=
  ⟨rfl, by decide, by decide, rfl, List.forall_mem_nil _, rfl⟩

/-- Two lines; the last one has a character of two bytes. -/
def accentLastText : Utf8Text := ⟨['a', '\n', '\u00e9'], by simp⟩

/-- Each line is a chunk of its own. -/
def accentLast : Pipe :=
  ⟨[⟨[97, 10], fun _ _ => 0⟩, ⟨[0xc3, 0xa9], fun _ _ => 0⟩], 0⟩

/-- An accent in the last line does no harm in either function. -/
theorem leavesOutput_accentLast :
    LeavesOutput accentLastText (emptyString.shellCap (fun _ => 0) (some accentLast)) ∧
      LeavesOutput accentLastText (emptyString.shellOutput (fun _ => 0) (some accentLast)) := by
  have hwrites : accentLast.Writes accentLastText :=
    ⟨by decide +kernel, by decide +kernel, by decide +kernel⟩
  have hboth := leavesOutput_iff accentLastText accentLast hwrites emptyString valid_emptyString (fun _ => 0)
  have hjoins : accentLast.Joins accentLastText :=
    ⟨by simp [accentLastText, DEL], by decide +kernel, by decide +kernel⟩
  exact ⟨hboth.1.mpr hjoins, hboth.2.mpr hjoins⟩

/-- Two lines; the first one has a character of two bytes. -/
def accentFirstText : Utf8Text := ⟨['\u00e9', '\n', 'a'], by simp⟩

/-- Each line is a chunk of its own. -/
def accentFirst : Pipe :=
  ⟨[⟨[0xc3, 0xa9, 10], fun _ _ => 0⟩, ⟨[97], fun _ _ => 0⟩], 0⟩

/-- A character of two bytes behind 1022 others. -/
def accentCutText : Utf8Text where
  chars := List.replicate 1022 'a' ++ ['\u00e9']
  nonzero := by
    intro c hc
    rcases List.mem_append.mp hc with hc | hc
    · rw [List.eq_of_mem_replicate hc]
      decide
    · rw [List.mem_singleton.mp hc]
      decide

/-- The buffer of `shell_cap` is full with the first byte of the last character. -/
def accentCut : Pipe :=
  ⟨[⟨List.replicate 1022 97 ++ [0xc3], fun _ _ => 0⟩, ⟨[0xa9], fun _ _ => 0⟩], 0⟩

/-- A row of one letter is encoded as a row of its byte. -/
theorem encode_replicate (n : Nat) : encode (List.replicate n 'a') = List.replicate n 97 := by
  induction n with
  | zero => rfl
  | succ n ih =>
      rw [List.replicate_succ, encode_cons, ih]
      rfl

/-- What `fread` returns for the sample: a full buffer, and the rest. -/
theorem writes_accentCut : accentCut.Writes accentCutText where
  joined_eq := by
    have hlast : encode ['\u00e9'] = [0xc3, 0xa9] := by decide +kernel
    simp only [accentCut, accentCutText, joined, Utf8Text.bytes, encode_append, encode_replicate, hlast]
    rw [List.flatMap_cons, List.flatMap_singleton, List.append_assoc]
    rfl
  ne_nil := by
    intro chunk hchunk
    rcases List.mem_pair.mp hchunk with rfl | rfl
    · exact List.concat_ne_nil _ _
    · exact List.cons_ne_nil _ _
  length_lt := by
    intro chunk hchunk
    rcases List.mem_pair.mp hchunk with rfl | rfl
    · rw [List.length_append, List.length_replicate]
      decide
    · decide

/-- In `shell_output` the end of the first line is overwritten, in `shell_cap` a character is cut where
the buffer ends. -/
theorem not_leavesOutput_accentFirst :
    accentFirst.Writes accentFirstText ∧ accentCut.Writes accentCutText ∧
      ¬ LeavesOutput accentFirstText (emptyString.shellOutput (fun _ => 0) (some accentFirst)) ∧
      ¬ LeavesOutput accentCutText (emptyString.shellCap (fun _ => 0) (some accentCut)) := by
  refine ⟨⟨by decide +kernel, by decide +kernel, by decide +kernel⟩, writes_accentCut, ?_, ?_⟩
  · rintro ⟨status, r, hresult, htext⟩
    have hcapture : (emptyString.shellOutput (fun _ => 0) (some accentFirst)).map
        (fun result => result.2.text) = some [0xc3, 0xa9, 97] := by decide +kernel
    rw [hresult, Option.map_some, htext] at hcapture
    exact absurd hcapture (by decide +kernel)
  · rw [leavesOutput_shellCap_iff writes_accentCut valid_emptyString]
    intro hjoins
    exact absurd (hjoins.ascii _ List.mem_cons_self 0xc3 List.mem_concat_self) (by decide)

end Irstessi
