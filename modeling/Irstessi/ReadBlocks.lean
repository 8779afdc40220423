import Irstessi.FileRead

/-!
# The block of a file

A block of memory is filled by one call of `read`, or in rounds of 1024 bytes between which it grows, and
holds what it has held before behind the bytes that are stored.

* `Leftovers.Holds`: the block after some rounds; `Holds.storeRead`, `Holds.readFromVirtualFs`: one round
  and all of them.
* `read_virtual`, `read_physical`: what is read of the block.
* **`dependsOnlyOnRead_iff`**: the memory does not matter, and no failure is missed, iff `ReadsSafely`.

`Leftovers` is what the block has been before, and what fresh memory holds; both are arbitrary. After
each round the block holds what has been read so far, and behind it what it has held before or the fresh
memory (`Holds`), and its room is the greatest size that it has had. Above the greatest size of the
checked library a copy does nothing, so that bytes are lost. That the memory does not matter is an
equality of two runs with different leftovers: it is refuted by giving the cells behind the text two
values, and proved by what the scans read (`Scans`).
-/

namespace Irstessi

/-! ## What the block holds -/

/-- A copy within the sizes overwrites the front of the destination and keeps the rest of it. -/
theorem memcpy_s_of_le {dest src : List UInt8} {dmax smax : Nat} (hdest : 0 < smax) (hle : smax ≤ dmax)
    (hmax : dmax ≤ RSIZE_MAX_MEM) : memcpy_s dest dmax src smax = overwrite dest (src.take smax) := by
  rw [memcpy_s, if_neg (by omega), if_neg (by omega)]

/-- A destination above the greatest size of the library is not touched at all. -/
theorem memcpy_s_of_lt {dest src : List UInt8} {dmax smax : Nat} (hmax : RSIZE_MAX_MEM < dmax) :
    memcpy_s dest dmax src smax = dest := by
  rw [memcpy_s, if_pos (.inr hmax)]

namespace Leftovers

variable (g : Leftovers)

/-- The number of cells but one. -/
def allocated : Nat := g.capacity.getD 0

/-- The cells of the block that has room for so many bytes. -/
def cellsFor (n : Nat) : List UInt8 :=
  (List.range (max g.allocated n + 1)).map (if n ≤ g.allocated then g.cells else g.fresh n)

/-- The block is one cell longer than asked for, and never shrinks. -/
theorem length_cellsFor (n : Nat) : (g.cellsFor n).length = max g.allocated n + 1 := by
  rw [cellsFor, List.length_map, List.length_range]

/-- Room for no more bytes than there is room for. -/
theorem cellsFor_of_le {n m : Nat} (hn : n ≤ g.allocated) (hm : m ≤ g.allocated) :
    g.cellsFor n = g.cellsFor m := by
  rw [cellsFor, cellsFor, if_pos hn, if_pos hm, Nat.max_eq_left hn, Nat.max_eq_left hm]

/-- A block that is too short is replaced by fresh memory, one cell longer than asked for. -/
theorem cellsFor_of_lt {n : Nat} (hn : g.allocated < n) :
    g.cellsFor n = (List.range (n + 1)).map (g.fresh n) := by
  rw [cellsFor, if_neg (by omega), Nat.max_eq_right hn.le]

/-- The file holds the bytes, or as many of which some have been lost; behind them is what the block has
held before. -/
structure Holds (done : List UInt8) (f : FileContent) : Prop where
  size : f.m_ContentSize = done.length
  capacity : f.m_ContentCapacity = max g.allocated done.length
  block : g.capacity = none ∧ done = [] ∧ f.m_pContent = none ∨
    ∃ front, f.m_pContent = some (front ++ (g.cellsFor done.length).drop done.length) ∧
      front.length = done.length ∧
      (done.length ≤ max g.allocated RSIZE_MAX_MEM → front = done) ∧
      (max g.allocated RSIZE_MAX_MEM < done.length → front.take 2 = (g.cellsFor done.length).take 2)

variable {g} {done temp : List UInt8} {f : FileContent}

/-- Before the first read an object holds nothing. -/
theorem holds_content : g.Holds [] { g.content with m_ContentSize := 0 } := by
  obtain ⟨capacity, cells, size, fresh, junk, string, valid⟩ := g
  cases capacity with
  | none => exact ⟨rfl, rfl, .inl ⟨rfl, rfl, rfl⟩⟩
  | some capacity =>
      refine ⟨rfl, (Nat.max_eq_left (Nat.zero_le _)).symm, .inr ⟨[], ?_, rfl, fun _ => rfl, ?_⟩⟩
      · show some _ = some ((List.map _ (List.range (max capacity 0 + 1))).drop 0)
        rw [Nat.max_eq_left (Nat.zero_le _)]
        rfl
      · exact fun hlt => absurd hlt (Nat.not_lt_zero _)

/-- Making room keeps the bytes in front, unless they are too many. -/
theorem Holds.realloc (h : g.Holds done f) {n : Nat} (hpos : 0 < n) (hn : n ≤ 1024) :
    ∃ front, File.internalReallocContent g.fresh f (done.length + n) true =
        ⟨some (front ++ (g.cellsFor (done.length + n)).drop done.length),
          max g.allocated (done.length + n), done.length⟩ ∧
      front.length = done.length ∧
      (done.length + n ≤ max g.allocated RSIZE_MAX_MEM → front = done) ∧
      (max g.allocated RSIZE_MAX_MEM < done.length + n →
        front.take 2 = (g.cellsFor (done.length + n)).take 2) := by
  obtain ⟨hsize, hcapacity, hblock⟩ := h
  obtain ⟨content, capacity, size⟩ := f
  dsimp only at hsize hcapacity hblock
  subst hsize hcapacity
  have hlimit : RSIZE_MAX_MEM = 2 ^ 28 := rfl
  unfold File.internalReallocContent
  dsimp only
  by_cases hroom : done.length + n ≤ g.allocated
  · have hle : done.length ≤ g.allocated := by omega
    rw [if_neg (by omega), g.cellsFor_of_le hroom hle, Nat.max_eq_left hle, Nat.max_eq_left hroom]
    rcases hblock with ⟨hnone, -⟩ | ⟨front, rfl, hlength, hkept, -⟩
    · rw [allocated, hnone, Option.getD_none] at hroom
      omega
    · exact ⟨front, rfl, hlength, fun _ => hkept (by omega), fun hlt => by omega⟩
  · have hcells := g.cellsFor_of_lt (Nat.lt_of_not_le hroom)
    have hright : max g.allocated (done.length + n) = done.length + n := Nat.max_eq_right (by omega)
    have hbase : (g.cellsFor (done.length + n)).length = done.length + n + 1 := by
      rw [g.length_cellsFor, hright]
    rw [if_pos (by omega), ← hcells, hright]
    rcases hblock with ⟨-, rfl, rfl⟩ | ⟨front, rfl, hlength, hkept, hlost⟩
    · refine ⟨[], rfl, rfl, fun _ => rfl, fun hlt => ?_⟩
      rw [List.length_nil] at hlt
      omega
    · dsimp only
      rcases Nat.eq_zero_or_pos done.length with hzero | hdone
      · rw [if_neg (by omega)]
        refine ⟨[], by rw [hzero]; rfl, hzero.symm, fun _ => ?_, fun hlt => by omega⟩
        exact (List.length_eq_zero_iff.mp hzero).symm
      rw [if_pos ⟨rfl, hdone⟩]
      by_cases hmax : done.length + n ≤ RSIZE_MAX_MEM
      · refine ⟨front, ?_, hlength, fun _ => hkept (by omega), fun hlt => by omega⟩
        rw [memcpy_s_of_le hdone (by omega) hmax, List.take_left' hlength, overwrite, hlength]
      · refine ⟨(g.cellsFor (done.length + n)).take done.length, ?_, ?_, fun hle => by omega, fun _ => ?_⟩
        · rw [memcpy_s_of_lt (by omega), List.take_append_drop]
        · rw [List.length_take, hbase]
          omega
        · rw [List.take_take, Nat.min_eq_left (by omega)]

/-- One round stores its bytes. -/
theorem Holds.storeRead (h : g.Holds done f) (hne : temp ≠ []) (hlength : temp.length ≤ 1024) :
    g.Holds (done ++ temp) (File.storeRead g.fresh f temp) := by
  have hpos : 0 < temp.length := List.length_pos_iff.mpr hne
  have hlimit : RSIZE_MAX_MEM = 2 ^ 28 := rfl
  obtain ⟨front, hrealloc, hfront, hkept, hlost⟩ := h.realloc hpos hlength
  have happend : (done ++ temp).length = done.length + temp.length := List.length_append
  have hstore : File.storeRead g.fresh f temp =
      ⟨some (front ++ temp ++ (g.cellsFor (done.length + temp.length)).drop (done.length + temp.length)),
        max g.allocated (done.length + temp.length), done.length + temp.length⟩ := by
    rw [File.storeRead, h.size, hrealloc]
    dsimp only
    rw [Option.map_some, List.take_left' hfront, List.drop_left' hfront,
      memcpy_s_of_le hpos le_rfl (by omega), List.take_length, overwrite, List.drop_drop,
      List.append_assoc]
  rw [hstore]
  refine ⟨happend.symm, by rw [happend], .inr ⟨front ++ temp, by rw [happend], ?_, ?_, ?_⟩⟩
  · rw [List.length_append, hfront, happend]
  · rw [happend]
    exact fun hle => by rw [hkept hle]
  · rw [happend]
    intro hlt
    rw [List.take_append_of_le_length (by omega), hlost hlt]

/-- All rounds, by induction on the results. -/
theorem Holds.readFromVirtualFs (h : g.Holds done f) (reads : List ReadResult) :
    match bytesRead reads with
    | .error errno => File.internalReadFromVirtualFs g.fresh f reads =
        .error (.thrown (errnoToExceptionCode errno))
    | .ok bytes => ∃ f', File.internalReadFromVirtualFs g.fresh f reads = .ok f' ∧
        g.Holds (done ++ bytes) f' := by
  induction reads generalizing done f with
  | nil => exact ⟨f, rfl, by rwa [List.append_nil]⟩
  | cons r reads ih =>
      cases r with
      | failed errno => rfl
      | bytes l =>
          have hle : (l.take 1024).length ≤ 1024 := by
            rw [List.length_take]
            exact Nat.min_le_left _ _
          rw [bytesRead, File.internalReadFromVirtualFs]
          dsimp only
          by_cases hnil : l.take 1024 = []
          · rw [hnil]
            exact ⟨f, rfl, by rwa [List.append_nil]⟩
          have hstored := h.storeRead hnil hle
          rw [if_neg (fun hzero => hnil (List.length_eq_zero_iff.mp hzero))]
          by_cases hshort : (l.take 1024).length < 1024
          · rw [if_pos hshort, if_pos hshort]
            exact ⟨_, rfl, hstored⟩
          · rw [if_neg hshort, if_neg hshort]
            have hrest := ih hstored
            rcases hreads : bytesRead reads with errno | bytes
            · rw [hreads] at hrest
              exact hrest
            · rw [hreads] at hrest
              obtain ⟨f', hloop, hholds⟩ := hrest
              exact ⟨f', hloop, by rwa [← List.append_assoc]⟩

/-- Making room for a file on a disk. -/
theorem realloc_content (g : Leftovers) {size : Nat} (hpos : 0 < size) :
    File.internalReallocContent g.fresh { g.content with m_ContentSize := 0 } size false =
      ⟨some (g.cellsFor size), max g.allocated size, 0⟩ := by
  obtain ⟨capacity, cells, before, fresh, junk, string, valid⟩ := g
  unfold File.internalReallocContent cellsFor allocated
  cases capacity with
  | none =>
      rw [Option.getD_none, Nat.max_eq_right (Nat.zero_le _), if_neg (Nat.not_le.mpr hpos)]
      exact if_pos hpos
  | some capacity =>
      rw [Option.getD_some]
      by_cases hroom : size ≤ capacity
      · rw [if_pos hroom, Nat.max_eq_left hroom]
        exact if_neg (Nat.not_lt.mpr hroom)
      · rw [if_neg hroom, Nat.max_eq_right (by omega)]
        exact if_pos (by exact Nat.lt_of_not_le hroom)

/-- A file whose memory holds the bytes from the cell `n` on. -/
def filled (n : Nat) (h : Nat → UInt8) : Leftovers where
  capacity := some 0
  cells i := h (i - n)
  size := 0
  fresh _ i := h (i - n)
  junk _ _ := 0
  string := ⟨[0], 0, 0, 1⟩
  valid := ⟨rfl, by decide, by decide, rfl, List.forall_mem_nil _, rfl⟩

/-- In the sample memory every cell of a new block holds what the given function says of its place. -/
theorem cellsFor_filled (n : Nat) (h : Nat → UInt8) (m : Nat) :
    (filled n h).cellsFor m = (List.range (m + 1)).map fun i => h (i - n) := by
  unfold cellsFor
  rw [show (filled n h).allocated = 0 from rfl, Nat.max_eq_right (Nat.zero_le _)]
  exact congrArg (List.map · _) (ite_self (fun i => h (i - n)))

/-- Behind the first n bytes the new block holds the given values from the start on. -/
theorem drop_cellsFor_filled (n m : Nat) (h : Nat → UInt8) :
    ((filled n h).cellsFor m).drop n = (List.range (m + 1 - n)).map h := by
  rw [cellsFor_filled]
  apply List.ext_getElem
  · simp
  · intro i hi hi'
    rw [List.getElem_drop, List.getElem_map, List.getElem_map, List.getElem_range, List.getElem_range,
      Nat.add_sub_cancel_left]

end Leftovers

/-! ## Reads of an open file -/

section Reads

variable {t : FileTarget} {answers : ReadAnswers} {st : FileStat} {g : Leftovers} {bytes : List UInt8}

/-- A file that cannot be opened throws, whatever memory holds. -/
theorem read_of_not_open {e : FileException} (hopen : File.openContent answers = .error e)
    (g : Leftovers) : File.read t g answers = .error (.thrown e) := by
  rw [File.read, File.internalReadContent, hopen]

/-- Only files in `sysfs` and `proc` are read if they seem to be empty. -/
theorem size_pos_of_open (hopen : File.openContent answers = .ok st) (hdisk : ¬ st.isVirtual = true) :
    0 < st.st_size := by
  rw [Nat.pos_iff_ne_zero]
  intro hzero
  unfold File.openContent at hopen
  split at hopen
  next => cases hopen
  next st' hstat =>
    split at hopen
    next => cases hopen
    next hempty =>
      split at hopen
      next => cases hopen
      next =>
        cases hopen
        exact hempty ⟨hzero, hdisk⟩

/-- A read that fails in a file without a size throws its error. -/
theorem read_virtual_failed (hopen : File.openContent answers = .ok st) (hvirtual : st.isVirtual = true)
    {errno : Errno} (hread : bytesRead answers.reads = .error errno) (g : Leftovers) :
    File.read t g answers = .error (.thrown (errnoToExceptionCode errno)) := by
  have hloop := Leftovers.holds_content (g := g).readFromVirtualFs answers.reads
  rw [hread] at hloop
  rw [File.read, File.internalReadContent, hopen]
  dsimp only
  rw [if_neg (not_not.mpr hvirtual), hloop]

/-- A file without a size is read to its end, and the object then holds its bytes. -/
theorem read_virtual (hopen : File.openContent answers = .ok st) (hvirtual : st.isVirtual = true)
    (hread : bytesRead answers.reads = .ok bytes) (g : Leftovers) :
    ∃ f, g.Holds bytes f ∧ File.read t g answers = t.decode g f := by
  have hloop := Leftovers.holds_content (g := g).readFromVirtualFs answers.reads
  rw [hread] at hloop
  obtain ⟨f, hf, hholds⟩ := hloop
  refine ⟨f, hholds, ?_⟩
  rw [File.read, File.internalReadContent, hopen]
  dsimp only
  rw [if_neg (not_not.mpr hvirtual), hf]

/-- A file with a size is read once into a block of that size; what the read has not filled stays as it
was. -/
theorem read_physical (hopen : File.openContent answers = .ok st) (hdisk : ¬ st.isVirtual = true)
    (hsize : st.st_size < SSIZE_MAX) (hread : sysRead st.st_size answers.reads = .ok bytes)
    (g : Leftovers) :
    File.read t g answers = t.decode g
      ⟨some (bytes ++ (g.cellsFor st.st_size).drop bytes.length), max g.allocated st.st_size,
        bytes.length⟩ := by
  rw [File.read, File.internalReadContent, hopen]
  dsimp only
  rw [if_pos hdisk, File.internalReadFromPhysicalFs, if_pos hsize,
    g.realloc_content (size_pos_of_open hopen hdisk), hread]
  rfl

/-- Where this one read fails the error is lost: the size becomes the greatest one, and the text is
taken of memory as it was. -/
theorem read_physical_failed (hopen : File.openContent answers = .ok st) (hdisk : ¬ st.isVirtual = true)
    (hsize : st.st_size < SSIZE_MAX) {errno : Errno}
    (hread : sysRead st.st_size answers.reads = .error errno) (g : Leftovers) :
    File.read t g answers = t.decode g
      ⟨some (g.cellsFor st.st_size), max g.allocated st.st_size, 2 ^ 64 - 1⟩ := by
  rw [File.read, File.internalReadContent, hopen]
  dsimp only
  rw [if_pos hdisk, File.internalReadFromPhysicalFs, if_pos hsize,
    g.realloc_content (size_pos_of_open hopen hdisk), hread]

/-- A file that is too large is not read, and the conversion works on what the object held before. -/
theorem read_physical_large (hopen : File.openContent answers = .ok st) (hdisk : ¬ st.isVirtual = true)
    (hsize : ¬ st.st_size < SSIZE_MAX) (g : Leftovers) :
    File.read t g answers = t.decode g { g.content with m_ContentSize := 0 } := by
  rw [File.read, File.internalReadContent, hopen]
  dsimp only
  rw [if_pos hdisk, File.internalReadFromPhysicalFs, if_neg hsize]

/-! ## When the memory does not matter -/

/-- A NUL settles the walk. -/
theorem FileTarget.settled_of_nul (t : FileTarget) (size : Nat) (hnul : 0 ∈ bytes)
    (hends : Str.numeralEnds bytes = true) : t.Settled size bytes := by
  unfold FileTarget.Settled
  split
  next => exact fun hunsettled => hunsettled.1 hnul
  next => exact hends

/-- Bytes that are not lost and settle the value are all that matters. -/
theorem Leftovers.Holds.decode_of_settled {f : FileContent} (h : g.Holds bytes f)
    (hlength : bytes.length ≤ RSIZE_MAX_MEM) (hsettled : t.Settled bytes.length bytes) :
    t.decode g f = .ok (t.value bytes.length bytes) := by
  obtain ⟨hsize, -, ⟨-, rfl, hnone⟩ | ⟨front, hsome, -, hkept, -⟩⟩ := h
  · have ht : t = .string := by
      by_contra hne
      rw [FileTarget.Settled, if_neg hne] at hsettled
      cases hsettled
    subst ht
    exact FileTarget.decode_string_of_zero (by rw [hsize]; rfl) g
  · rw [hkept (hlength.trans (Nat.le_max_right _ _))] at hsome
    rw [← hsize] at hsettled ⊢
    refine FileTarget.decode_of_settled g hsome ?_ ?_ hsettled
    · rw [← List.length_pos_iff, List.length_drop, g.length_cellsFor]
      omega
    · unfold RSIZE_MAX_MEM at hlength
      unfold uintMax
      omega

/-- The two numerals that a block of lost bytes may begin with have different values. -/
theorem value_ne (t : FileTarget) {size : Nat} (h : t ≠ .string ∨ toUnsigned size ≠ 0) :
    t.value size [49, 0] ≠ t.value size [50, 0] := by
  by_cases ht : t = .string
  · subst ht
    have hpos : 0 < toUnsigned size := Nat.pos_of_ne_zero (h.resolve_left (not_not.mpr rfl))
    obtain ⟨n, hn⟩ : ∃ n, toUnsigned size = n + 1 := ⟨toUnsigned size - 1, by omega⟩
    have hone : ∀ b : UInt8, b ≠ 0 → b < 0x7f →
        FileTarget.string.value size [b, 0] = .text [b] := by
      intro b hb hascii
      have hcut : cstring [b, 0] = [b] ++ [] := cstring_append_nul (u := [b]) (by simpa using hb) []
      have hsequence : ∀ c ∈ [[b]], IsSequence c := by simpa using isSequence_singleton hascii
      have hwalk : utf8Offset ([b] ++ []) (n + 1) = [] := by
        simpa using utf8Offset_sequences hsequence (.inl rfl) (n + 1)
      rw [FileTarget.value, if_pos rfl, hn, hcut,
        takenText_of_utf8Offset hwalk n.succ_pos (show 1 < uintMax by decide)]
      exact congrArg (fun s => FileValue.text s.m_buffer) (Str.ofBytes_flatten hsequence)
    rw [hone 49 (by decide) (by decide), hone 50 (by decide) (by decide)]
    decide
  · rw [FileTarget.value, FileTarget.value, if_neg ht, if_neg ht]
    intro heq
    have hnumber := FileValue.number.inj heq
    cases t with
    | string => exact ht rfl
    | longLong | unsignedLongLong | int | unsignedInt | short | unsignedShort =>
        exact absurd hnumber (by decide)

/-- A read of values that do not depend on the memory. -/
theorem dependsOnlyOnRead_of_value (value : FileValue) (h : ∀ g, File.read t g answers = .ok value)
    (hreturned : ∃ bytes, answers.returned = .ok bytes) : DependsOnlyOnRead t answers := by
  obtain ⟨bytes, hbytes⟩ := hreturned
  refine ⟨fun g g' => by rw [h, h], fun g hout => ?_, fun errno herror => ?_⟩
  · rw [h] at hout
    cases hout
  · rw [hbytes] at herror
    cases herror

/-- What throws for all contents of memory does not depend on them. -/
theorem dependsOnlyOnRead_of_thrown {e : FileException}
    (h : ∀ g, File.read t g answers = .error (.thrown e)) : DependsOnlyOnRead t answers := by
  refine ⟨fun g g' => by rw [h, h], fun g hout => ?_, fun errno _ g value hvalue => ?_⟩
  · rw [h] at hout
    cases hout
  · rw [h] at hvalue
    cases hvalue

section Virtual

variable (hopen : File.openContent answers = .ok st) (hvirtual : st.isVirtual = true)
  (hread : bytesRead answers.reads = .ok bytes)

include hopen hvirtual hread

/-- Lost bytes are seen, unless no characters are asked for. -/
theorem not_dependsOnlyOnRead_of_lost (hlost : RSIZE_MAX_MEM < bytes.length)
    (h : t ≠ .string ∨ toUnsigned bytes.length ≠ 0) : ¬ DependsOnlyOnRead t answers := by
  intro hdepends
  have hlimit : RSIZE_MAX_MEM = 2 ^ 28 := rfl
  have hvalue : ∀ b : UInt8, Str.numeralEnds [b, 0] = true →
      File.read t (.filled 0 fun i => [b].getD i 0) answers = .ok (t.value bytes.length [b, 0]) := by
    intro b hends
    obtain ⟨f, ⟨hsize, -, hblock⟩, hf⟩ :=
      read_virtual (t := t) hopen hvirtual hread (.filled 0 fun i => [b].getD i 0)
    rcases hblock with ⟨hnone, -⟩ | ⟨front, hsome, hfront, -, htake⟩
    · cases hnone
    have hcells : ((Leftovers.filled 0 fun i => [b].getD i 0).cellsFor bytes.length).take 2 = [b, 0] := by
      obtain ⟨n, hn⟩ : ∃ n, bytes.length + 1 = n + 2 := ⟨bytes.length - 1, by omega⟩
      rw [Leftovers.cellsFor_filled, hn, List.range_succ_eq_map, List.range_succ_eq_map]
      rfl
    have hbegin := htake (by rw [show (Leftovers.filled 0 _).allocated = 0 from rfl]; omega)
    rw [hcells] at hbegin
    have hsplit := List.take_append_drop 2 front
    rw [hbegin] at hsplit
    rw [← hsplit, List.append_assoc] at hsome
    rw [hf, ← hsize]
    refine FileTarget.decode_of_settled _ hsome ?_ (show 2 < uintMax by decide)
      (t.settled_of_nul _ (by simp) hends)
    refine List.append_ne_nil_of_left_ne_nil ?_ _
    rw [← List.length_pos_iff, List.length_drop, hfront]
    omega
  have hagrees := hdepends.agrees (.filled 0 fun i => [49].getD i 0) (.filled 0 fun i => [50].getD i 0)
  rw [hvalue 49 (by decide), hvalue 50 (by decide)] at hagrees
  exact value_ne t h (Except.ok.inj hagrees)

/-- A result that does not depend on the memory behind the bytes is settled by the bytes. -/
theorem settled_of_dependsOnlyOnRead (hlength : bytes.length ≤ RSIZE_MAX_MEM)
    (h : DependsOnlyOnRead t answers) : t.Settled bytes.length bytes := by
  have hlimit : RSIZE_MAX_MEM = 2 ^ 28 := rfl
  choose block hholds hblock using read_virtual (t := t) hopen hvirtual hread
  refine FileTarget.settled_of_agrees Nat.one_pos (by unfold uintMax; omega)
    (fun f => block (.filled bytes.length f)) (.filled bytes.length) (fun f => ?_)
    (fun f => (hholds _).size) (fun f f' => ?_) fun f => ?_
  · rcases (hholds (.filled bytes.length f)).block with ⟨hnone, -⟩ | ⟨front, hsome, -, hkept, -⟩
    · cases hnone
    rw [hsome, hkept (by omega), Leftovers.drop_cellsFor_filled, Nat.add_sub_cancel_left]
  · rw [← hblock, ← hblock]
    exact h.agrees _ _
  · rw [← hblock]
    exact h.inBlock _

/-- For a file without a size: the bytes settle the result, and they are not too many to be copied, or a
text of a size of 0 modulo 2^32 is read, which is empty. -/
theorem dependsOnlyOnRead_virtual_iff : DependsOnlyOnRead t answers ↔
    t.Settled bytes.length bytes ∧
      (bytes.length ≤ RSIZE_MAX_MEM ∨ t = .string ∧ toUnsigned bytes.length = 0) := by
  constructor
  · intro h
    by_cases hlength : bytes.length ≤ RSIZE_MAX_MEM
    · exact ⟨settled_of_dependsOnlyOnRead hopen hvirtual hread hlength h, .inl hlength⟩
    · by_cases hnone : t = .string ∧ toUnsigned bytes.length = 0
      · refine ⟨?_, .inr hnone⟩
        rw [FileTarget.Settled, if_pos hnone.1, hnone.2]
        rintro ⟨-, cs, rest, -, -, -, hcount⟩
        omega
      · refine absurd h (not_dependsOnlyOnRead_of_lost hopen hvirtual hread (by omega) ?_)
        exact Decidable.not_and_iff_or_not.mp hnone
  · rintro ⟨hsettled, hlength | ⟨rfl, hzero⟩⟩
    · refine dependsOnlyOnRead_of_value (t.value bytes.length bytes) (fun g => ?_) ⟨bytes, ?_⟩
      · obtain ⟨f, hholds, hf⟩ := read_virtual (t := t) hopen hvirtual hread g
        rw [hf, hholds.decode_of_settled hlength hsettled]
      · rw [ReadAnswers.returned, hopen]
        exact (if_pos hvirtual).trans hread
    · refine dependsOnlyOnRead_of_value (.text []) (fun g => ?_) ⟨bytes, ?_⟩
      · obtain ⟨f, hholds, hf⟩ := read_virtual (t := .string) hopen hvirtual hread g
        rw [hf, FileTarget.decode_string_of_zero (by rwa [hholds.size])]
      · rw [ReadAnswers.returned, hopen]
        exact (if_pos hvirtual).trans hread

end Virtual

/-- A read returns no more than it was asked for, and no more than the kernel's limit. -/
theorem sysRead_length_le {size : Nat} {reads : List ReadResult} (h : sysRead size reads = .ok bytes) :
    bytes.length ≤ size ∧ bytes.length ≤ MAX_RW_COUNT := by
  unfold sysRead at h
  split at h
  next => cases h
  next l _ =>
    cases h
    rw [List.length_take]
    omega
  next =>
    cases h
    exact ⟨Nat.zero_le _, Nat.zero_le _⟩

section Physical

variable (hopen : File.openContent answers = .ok st) (hdisk : ¬ st.isVirtual = true)

include hopen hdisk

/-- For a file with a size the bytes that were read must settle the result. -/
theorem dependsOnlyOnRead_physical_iff (hsize : st.st_size < SSIZE_MAX)
    (hread : sysRead st.st_size answers.reads = .ok bytes) :
    DependsOnlyOnRead t answers ↔ t.Settled bytes.length bytes := by
  obtain ⟨hle, hmax⟩ := sysRead_length_le hread
  have hshort : bytes.length + 4 < uintMax := by
    unfold MAX_RW_COUNT at hmax
    unfold uintMax
    omega
  have hblock := read_physical (t := t) hopen hdisk hsize hread
  constructor
  · intro h
    refine FileTarget.settled_of_agrees (Nat.sub_pos_of_lt (Nat.lt_succ_of_le hle)) hshort
      (fun f => ⟨some (bytes ++
          ((Leftovers.filled bytes.length f).cellsFor st.st_size).drop bytes.length),
        max (Leftovers.filled bytes.length f).allocated st.st_size, bytes.length⟩)
      (.filled bytes.length) (fun f => ?_) (fun f => rfl) (fun f f' => ?_) fun f => ?_
    · exact congrArg (fun u => some (bytes ++ u)) (Leftovers.drop_cellsFor_filled _ _ f)
    · rw [← hblock, ← hblock]
      exact h.agrees _ _
    · rw [← hblock]
      exact h.inBlock _
  · intro hsettled
    refine dependsOnlyOnRead_of_value (t.value bytes.length bytes) (fun g => ?_) ⟨bytes, ?_⟩
    · rw [hblock]
      refine FileTarget.decode_of_settled g rfl ?_ (by omega) hsettled
      rw [← List.length_pos_iff, List.length_drop, g.length_cellsFor]
      omega
    · rw [ReadAnswers.returned, hopen]
      exact (if_neg hdisk).trans ((if_pos hsize).trans hread)

/-- An error is not seen. -/
theorem not_dependsOnlyOnRead_of_failed (hsize : st.st_size < SSIZE_MAX) {errno : Errno}
    (hread : sysRead st.st_size answers.reads = .error errno) : ¬ DependsOnlyOnRead t answers := by
  intro h
  have hpos := size_pos_of_open hopen hdisk
  have hreturned : answers.returned = .error errno := by
    rw [ReadAnswers.returned, hopen]
    exact (if_neg hdisk).trans ((if_pos hsize).trans hread)
  have hzeros : (Leftovers.filled 0 fun _ => 0).cellsFor st.st_size =
      [0] ++ List.replicate st.st_size 0 := by
    rw [Leftovers.cellsFor_filled, List.map_const', List.length_range, List.replicate_succ]
    rfl
  refine h.throws errno hreturned (.filled 0 fun _ => 0) (t.value (2 ^ 64 - 1) [0]) ?_
  rw [read_physical_failed hopen hdisk hsize hread, hzeros]
  refine FileTarget.decode_of_settled _ rfl ?_ (show 1 < uintMax by decide)
    (t.settled_of_nul _ (by simp) (by decide))
  simpa using hpos.ne'

/-- For a file that is too large only a text is independent of memory: it is the empty one. -/
theorem dependsOnlyOnRead_large_iff (hsize : ¬ st.st_size < SSIZE_MAX) :
    DependsOnlyOnRead t answers ↔ t = .string := by
  have hblock := read_physical_large (t := t) hopen hdisk hsize
  constructor
  · intro h
    by_contra ht
    refine h.inBlock (.filled 0 fun _ => 49) ?_
    rw [hblock, FileTarget.decode_number ht]
    rfl
  · rintro rfl
    refine dependsOnlyOnRead_of_value (.text []) (fun g => ?_) ⟨[], ?_⟩
    · rw [hblock, FileTarget.decode_string_of_zero rfl]
    · rw [ReadAnswers.returned, hopen]
      exact (if_neg hdisk).trans (if_neg hsize)

end Physical

end Reads

/-! ## Main result -/

/-- For all files and all results of `stat`, `open` and `read`: the value depends on nothing else,
whatever is left in the memory, and no failure of `read` leads to one, iff the condition holds. -/
theorem dependsOnlyOnRead_iff (t : FileTarget) (answers : ReadAnswers) :
    DependsOnlyOnRead t answers ↔ ReadsSafely t answers := by
  unfold ReadsSafely
  rcases hopen : File.openContent answers with e | st
  · refine iff_of_true (dependsOnlyOnRead_of_thrown fun g => read_of_not_open hopen g) ?_
    rintro st ⟨⟩
  simp only [Except.ok.injEq, forall_eq']
  by_cases hvirtual : st.isVirtual = true
  · rw [if_pos hvirtual]
    rcases hread : bytesRead answers.reads with errno | bytes
    · refine iff_of_true (dependsOnlyOnRead_of_thrown (read_virtual_failed hopen hvirtual hread)) ?_
      rintro bytes ⟨⟩
    · rw [dependsOnlyOnRead_virtual_iff hopen hvirtual hread]
      simp only [Except.ok.injEq, forall_eq']
  · rw [if_neg hvirtual]
    by_cases hsize : st.st_size < SSIZE_MAX
    · rw [if_pos hsize]
      rcases hread : sysRead st.st_size answers.reads with errno | bytes
      · refine iff_of_false (not_dependsOnlyOnRead_of_failed hopen hvirtual hsize hread) ?_
        rintro ⟨bytes, ⟨⟩, -⟩
      · rw [dependsOnlyOnRead_physical_iff hopen hvirtual hsize hread]
        simp only [Except.ok.injEq, exists_eq_left']
    · rw [if_neg hsize]
      exact dependsOnlyOnRead_large_iff hopen hvirtual hsize

/-- A file of two bytes, `64`, that contained `128` and a line feed when it was read before: the number is
648, or 64 if there are NULs behind it. -/
theorem not_dependsOnlyOnRead_shorter :
    ¬ ∀ (t : FileTarget) (answers : ReadAnswers), DependsOnlyOnRead t answers := by
  intro h
  let before (content : List UInt8) : Leftovers :=
    { Leftovers.filled 0 fun i => content.getD i 0 with capacity := some 4 }
  let answers : ReadAnswers := ⟨.ok ⟨2, 5⟩, none, [.bytes (lit "64")]⟩
  have hlonger : File.read .unsignedLongLong (before (lit "128\n")) answers = .ok (.number 648) := by rfl
  have hempty : File.read .unsignedLongLong (before []) answers = .ok (.number 64) := by rfl
  have hagrees := (h .unsignedLongLong answers).agrees (before (lit "128\n")) (before [])
  rw [hlonger, hempty] at hagrees
  cases hagrees

/-! ## Whole files -/

/-- What a file on the device `dev` answers: all of its bytes at the first call of `read`. -/
def ReadAnswers.ofContent (dev : Nat) (content : List UInt8) : ReadAnswers :=
  ⟨.ok ⟨content.length, dev⟩, none, [.bytes content]⟩

/-- A character takes no more than four bytes. -/
theorem distance_utf8Offset_le (buf : List UInt8) (count : Nat) :
    distance buf (utf8Offset buf count) ≤ 4 * count := by
  obtain ⟨cs, tail, hcs, htail, rfl⟩ := exists_sequences buf
  rw [utf8Offset_sequences hcs htail, distance]
  induction cs generalizing count with
  | nil => simp
  | cons c cs ih =>
      cases count with
      | zero => simp
      | succ count =>
          have hc := (hcs c List.mem_cons_self).length_le
          have hrest := ih count fun d hd => hcs d (List.mem_cons_of_mem _ hd)
          rw [List.flatten_cons, List.drop_succ_cons]
          simp only [List.length_append] at hrest ⊢
          omega

/-- The sizes of few characters do not wrap around. -/
theorem takenText_eq_assign (buf : List UInt8) {count : Nat} (h : 4 * count < uintMax) :
    takenText (some buf) count = (Str.assign buf count).m_buffer ∧
      StringObject.bytesOf buf count ≠ uintMax := by
  have hle := distance_utf8Offset_le buf count
  have hbytes : StringObject.bytesOf buf count =
      if 0 < count then distance buf (utf8Offset buf count) else 0 := by
    unfold uintMax at h
    rw [StringObject.bytesOf, toUnsigned, Nat.mod_eq_of_lt (by omega)]
  constructor
  · rw [takenText, hbytes]
    rfl
  · rw [hbytes]
    split
    next => omega
    next => omega

/-- A text is read from a file as `readFile` says of some memory behind it, unless the walk leaves the
block. -/
theorem File.read_ofContent {dev : Nat} {content : List UInt8}
    (hdisk : ¬ FileStat.isVirtual ⟨content.length, dev⟩ = true) (hne : content ≠ [])
    (hshort : 4 * content.length < uintMax) (g : Leftovers) :
    ∃ behind, readFile (some content) behind = some (Str.ofRead content behind).trim ∧
      File.read .string g (.ofContent dev content) =
        if utf8OffsetStays content.length (content ++ behind) then
          .ok (.text (Str.ofRead content behind).m_buffer)
        else .error .outOfBlock := by
  have hpos : 0 < content.length := List.length_pos_iff.mpr hne
  have hmax : content.length ≤ MAX_RW_COUNT := by
    unfold uintMax at hshort
    unfold MAX_RW_COUNT
    omega
  have hsize : content.length < SSIZE_MAX := by
    unfold MAX_RW_COUNT at hmax
    unfold SSIZE_MAX
    omega
  have hcount : toUnsigned content.length = content.length := by
    unfold uintMax at hshort
    exact Nat.mod_eq_of_lt (by omega)
  have hopen : File.openContent (.ofContent dev content) = .ok ⟨content.length, dev⟩ := by
    rw [File.openContent, ReadAnswers.ofContent]
    dsimp only
    rw [if_neg fun hempty => hpos.ne' hempty.1]
  have hread : sysRead content.length (ReadAnswers.ofContent dev content).reads = .ok content := by
    rw [ReadAnswers.ofContent, sysRead, List.take_of_length_le]
    omega
  refine ⟨(g.cellsFor content.length).drop content.length, readFile_of_le hne hmax _, ?_⟩
  rw [read_physical hopen hdisk hsize hread g]
  generalize (g.cellsFor content.length).drop content.length = behind
  obtain ⟨htaken, hfits⟩ := takenText_eq_assign (cstring (content ++ behind)) hshort
  have hvalue : (Str.ofBytes (takenText (some (cstring (content ++ behind))) content.length)).m_buffer =
      (Str.ofRead content behind).m_buffer := by
    rw [htaken, Str.ofRead, ← toUnsigned, hcount]
    exact Str.ofBytes_buffer (Str.wellFormed_assign _ _)
  by_cases hstays : utf8OffsetStays content.length (content ++ behind) = true
  · rw [if_pos hstays, ← hvalue]
    have hstring := File.readString_of_stays g.valid g.junk
      (f := ⟨some (content ++ behind), max g.allocated content.length, content.length⟩) rfl
      (.inr (hcount.symm ▸ hstays)) (hcount.symm ▸ hfits)
    rw [hcount] at hstring
    exact congrArg (Except.map FileValue.text) hstring
  · rw [if_neg hstays]
    have hleaves := File.readString_of_not_stays g.junk g.string
      (f := ⟨some (content ++ behind), max g.allocated content.length, content.length⟩) rfl
      (hcount.symm ▸ hpos.ne') (hcount.symm ▸ hstays)
    exact congrArg (Except.map FileValue.text) hleaves

end Irstessi
