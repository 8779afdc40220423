import Irstessi.FileWrite
import Irstessi.LastError
import Irstessi.Scans

/-!
# Reads of files

`File::read` keeps what it reads in a block of memory that it allocates and uses again, and gives the
block to a conversion of a number or to the constructor of `String`, neither of which is told where what
has been read ends.

* `ReadAnswers`: what `stat`, `open` and the calls of `read` return.
* `File.internalReadContent`: the block is filled; `FileTarget.decode`, `File.read`: and read.
* `Leftovers`, `DependsOnlyOnRead`: what the memory holds before; when it does not matter.
* `ReadsSafely`: what has been read ends the numeral or the walk, and the read neither fails in a file on
  a disk nor exceeds 256 MB.
* `FileTarget.decode_of_settled`, `settled_of_agrees`: what stands in a block behind the bytes does not
  matter iff they settle the value.

A file is read into a block that is allocated anew only where the old one is too short, and nothing is
stored behind the bytes that were read; a conversion reads on from the first byte until it is stopped.
What memory holds is a parameter (`Leftovers`): the block of earlier reads and the values of fresh
memory. `DependsOnlyOnRead` asks that the value is the same for all of them and that no failure of a
read is missed. The module defines the functions and says when bytes settle a value, for each type that
is read into; how the block is filled is the subject of `ReadBlocks`, where the theorem is.
-/

namespace Irstessi

/-! ## Functions -/

/-- The attributes of a file.
Source: `sys/stat.h` `struct stat` -/
structure FileStat where
  st_size : Nat
  st_dev : Nat
  deriving DecidableEq, Repr

/-- `sysfs` and `proc` are taken for the devices 0 and 3.
Source: `filesystem.cpp` `File::__internal_read_content` -/
def FileStat.isVirtual (st : FileStat) : Bool := st.st_dev = 0 ∨ st.st_dev = 3

/-- What there is to be read at a call of `read`, or its error. -/
inductive ReadResult
  | failed (errno : Errno)
  | bytes (l : List UInt8)
  deriving DecidableEq, Repr

/-- The bytes that are transferred; behind all results is the end of the file.
Source: `unistd.h` `read` -/
def sysRead (size : Nat) : List ReadResult → Except Errno (List UInt8)
  | .failed errno :: _ => .error errno
  | .bytes l :: _ => .ok (l.take (min size MAX_RW_COUNT))
  | [] => .ok []

/-- What `stat`, `open` and the calls of `read` return. -/
structure ReadAnswers where
  stat : Except Errno FileStat
  opened : Option Errno
  reads : List ReadResult

/-- What ends a read without a value: an exception, or an access outside of a block of memory. -/
inductive ReadFault
  | thrown (e : FileException)
  | outOfBlock
  deriving DecidableEq, Repr

/-- The block of a file that has been constructed or read has one cell more than its capacity.
Source: `filesystem.h` `File` -/
structure FileContent where
  m_pContent : Option (List UInt8)
  m_ContentCapacity : Nat
  m_ContentSize : Nat
  deriving DecidableEq, Repr

/-- Source: `safe_mem_lib.h` `RSIZE_MAX_MEM` -/
def RSIZE_MAX_MEM : Nat := 2 ^ 28

/-- The cells from the destination on afterwards.
Source: `memcpy_s.c` `memcpy_s` -/
def memcpy_s (dest : List UInt8) (dmax : Nat) (src : List UInt8) (smax : Nat) : List UInt8 :=
  if dmax = 0 ∨ RSIZE_MAX_MEM < dmax then dest
  else if smax = 0 ∨ dmax < smax then overwrite dest (List.replicate dmax 0)
  else overwrite dest (src.take smax)

namespace File

variable (fresh : Nat → Nat → UInt8) (f : FileContent)

/-- A greater block is allocated, with whatever is in it.
Source: `filesystem.cpp` `File::__internal_realloc_content` -/
def internalReallocContent (size : Nat) (copy : Bool) : FileContent :=
  if size > f.m_ContentCapacity then
    let p := (List.range (size + 1)).map (fresh size)
    let p := match f.m_pContent with
      | some content =>
          if copy = true ∧ f.m_ContentSize > 0 then memcpy_s p size content f.m_ContentSize else p
      | none => p
    { f with m_pContent := some p, m_ContentCapacity := size }
  else f

/-- The bytes of one round are stored behind those of the rounds before.
Source: `filesystem.cpp` `File::__internal_read_from_virtual_fs`, the loop -/
def storeRead (temp : List UInt8) : FileContent :=
  let f := internalReallocContent fresh f (f.m_ContentSize + temp.length) true
  { f with
    m_pContent := f.m_pContent.map fun content =>
      content.take f.m_ContentSize ++
        memcpy_s (content.drop f.m_ContentSize) temp.length temp temp.length
    m_ContentSize := f.m_ContentSize + temp.length }

/-- Source: `filesystem.cpp` `File::__internal_read_from_virtual_fs` -/
def internalReadFromVirtualFs (f : FileContent) : List ReadResult → Except ReadFault FileContent
  | [] => .ok f
  | .failed errno :: _ => .error (.thrown (errnoToExceptionCode errno))
  | .bytes l :: reads =>
      let temp := l.take 1024
      if temp.length = 0 then .ok f
      else
        let f := storeRead fresh f temp
        if temp.length < 1024 then .ok f else internalReadFromVirtualFs f reads

/-- An error is a size of -1.
Source: `filesystem.cpp` `File::__internal_read_from_physical_fs` -/
def internalReadFromPhysicalFs (reads : List ReadResult) (size : Nat) : FileContent :=
  if size < SSIZE_MAX then
    let f := internalReallocContent fresh f size false
    match sysRead size reads with
    | .ok bytes =>
        { f with
          m_pContent := f.m_pContent.map fun content => overwrite content bytes
          m_ContentSize := bytes.length }
    | .error _ => { f with m_ContentSize := 2 ^ 64 - 1 }
  else f

/-- What is checked before anything is read.
Source: `filesystem.cpp` `File::__internal_read_content` -/
def openContent (answers : ReadAnswers) : Except FileException FileStat :=
  match answers.stat with
  | .error errno => .error (errnoToExceptionCode errno)
  | .ok st =>
      if st.st_size = 0 ∧ ¬ st.isVirtual then .error .fileEmpty
      else match answers.opened with
        | some errno => .error (errnoToExceptionCode errno)
        | none => .ok st

/-- Source: `filesystem.cpp` `File::__internal_read_content` -/
def internalReadContent (answers : ReadAnswers) : Except ReadFault FileContent :=
  match openContent answers with
  | .error e => .error (.thrown e)
  | .ok st =>
      let f := { f with m_ContentSize := 0 }
      if ¬ st.isVirtual then .ok (internalReadFromPhysicalFs fresh f answers.reads st.st_size)
      else internalReadFromVirtualFs fresh f answers.reads

/-- The conversion of a numeral that ends in the block. -/
def convert (strto : List UInt8 → Int) : Except ReadFault Int :=
  match f.m_pContent with
  | none => .error (.thrown .nullPointer)
  | some content => if Str.numeralEnds content then .ok (strto content) else .error .outOfBlock

/-- Source: `filesystem.cpp` `File::__internal_to_ulonglong` -/
def internalToUlonglong : Except ReadFault Int := convert f fun content => Str.strtoul content

/-- Source: `filesystem.cpp` `File::__internal_to_longlong` -/
def internalToLonglong : Except ReadFault Int := convert f Str.strtoll

/-- A `String` is constructed of `m_ContentSize` characters and assigned to `s`.
Source: `filesystem.h` `File::read(String &)` -/
def readString (junk : Nat → Nat → UInt8) (s : StringObject) : Except ReadFault (List UInt8) :=
  let count := toUnsigned f.m_ContentSize
  if f.m_pContent.all fun content => count = 0 || utf8OffsetStays count content then
    match (StringObject.new.assign (junk 0) (f.m_pContent.map cstring) count).bind fun t =>
        s.assign (junk 1) (some t.text) uintMax with
    | some s => .ok s.text
    | none => .error .outOfBlock
  else .error .outOfBlock

end File

/-- What is read into. -/
inductive FileTarget
  | longLong
  | unsignedLongLong
  | string
  | int
  | unsignedInt
  | short
  | unsignedShort
  deriving DecidableEq, Repr

/-- A number or a text. -/
inductive FileValue
  | number (n : Int)
  | text (bytes : List UInt8)
  deriving DecidableEq, Repr

/-- What the memory of a file and of a string holds before a read: the block, or none where there is none
yet, new memory, by the sizes of the blocks, and the string that is read into. -/
structure Leftovers where
  capacity : Option Nat
  cells : Nat → UInt8
  size : Nat
  fresh : Nat → Nat → UInt8
  junk : Nat → Nat → UInt8
  string : StringObject
  valid : string.Valid

namespace Leftovers

variable (g : Leftovers)

/-- The fields of the file before the read. -/
def content : FileContent :=
  match g.capacity with
  | none => ⟨none, 0, 0⟩
  | some capacity => ⟨some ((List.range (capacity + 1)).map g.cells), capacity, g.size⟩

end Leftovers

/-- The value of what has been read.
Source: `filesystem.h` `File::read` -/
def FileTarget.decode (g : Leftovers) (f : FileContent) : FileTarget → Except ReadFault FileValue
  | longLong => (File.internalToLonglong f).map .number
  | unsignedLongLong => (File.internalToUlonglong f).map .number
  | string => (File.readString f g.junk g.string).map .text
  | int => (File.internalToLonglong f).map fun n => .number (n.bmod (2 ^ 32))
  | unsignedInt => (File.internalToUlonglong f).map fun n => .number (n % 2 ^ 32)
  | short => (File.internalToLonglong f).map fun n => .number (n.bmod (2 ^ 16))
  | unsignedShort => (File.internalToUlonglong f).map fun n => .number (n % 2 ^ 16)

/-- Source: `filesystem.h` `File::read` -/
def File.read (t : FileTarget) (g : Leftovers) (answers : ReadAnswers) : Except ReadFault FileValue :=
  match internalReadContent g.fresh g.content answers with
  | .error e => .error e
  | .ok f => t.decode g f

/-! ## The condition -/

/-- The bytes that the rounds of the loop read, the last of which is not full, or the error. -/
def bytesRead : List ReadResult → Except Errno (List UInt8)
  | [] => .ok []
  | .failed errno :: _ => .error errno
  | .bytes l :: reads =>
      if (l.take 1024).length < 1024 then .ok (l.take 1024)
      else (bytesRead reads).map (l.take 1024 ++ ·)

/-- The bytes that the calls of `read` return, or the error. -/
def ReadAnswers.returned (answers : ReadAnswers) : Except Errno (List UInt8) :=
  match File.openContent answers with
  | .error _ => .ok []
  | .ok st =>
      if st.isVirtual then bytesRead answers.reads
      else if st.st_size < SSIZE_MAX then sysRead st.st_size answers.reads else .ok []

/-- The value, if there is one, depends on nothing but the results, and no failure leads to one. -/
structure DependsOnlyOnRead (t : FileTarget) (answers : ReadAnswers) : Prop where
  agrees : ∀ g g', File.read t g answers = File.read t g' answers
  inBlock : ∀ g, File.read t g answers ≠ .error .outOfBlock
  throws : ∀ errno, answers.returned = .error errno → ∀ g value, File.read t g answers ≠ .ok value

/-- The bytes end the numeral, or the walk over `size` characters. -/
def FileTarget.Settled (t : FileTarget) (size : Nat) (bytes : List UInt8) : Prop :=
  if t = .string then ¬ Unsettled (toUnsigned size) bytes else Str.numeralEnds bytes = true

/-- Where the file is opened, the bytes end the numeral or the walk. In `sysfs` and `proc` they are no
more than 256 MB, unless none of them is asked for; of a file on a disk they are read without an error,
and where there is too much to be read a text is asked for. -/
def ReadsSafely (t : FileTarget) (answers : ReadAnswers) : Prop :=
  ∀ st, File.openContent answers = .ok st →
    if st.isVirtual then
      ∀ bytes, bytesRead answers.reads = .ok bytes → t.Settled bytes.length bytes ∧
        (bytes.length ≤ RSIZE_MAX_MEM ∨ t = .string ∧ toUnsigned bytes.length = 0)
    else if st.st_size < SSIZE_MAX then
      ∃ bytes, sysRead st.st_size answers.reads = .ok bytes ∧ t.Settled bytes.length bytes
    else t = .string

/-! ## The value of a block -/

namespace FileTarget

variable {t : FileTarget} {g : Leftovers} {f : FileContent} {bytes rest : List UInt8}

/-- The number that a numeral is converted to. -/
def numberOf (content : List UInt8) : FileTarget → Int
  | longLong => Str.strtoll content
  | unsignedLongLong => Str.strtoul content
  | string => 0
  | int => (Str.strtoll content).bmod (2 ^ 32)
  | unsignedInt => Str.strtoul content % 2 ^ 32
  | short => (Str.strtoll content).bmod (2 ^ 16)
  | unsignedShort => Str.strtoul content % 2 ^ 16

/-- The value of the bytes alone. -/
def value (t : FileTarget) (size : Nat) (bytes : List UInt8) : FileValue :=
  if t = .string then .text (Str.ofBytes (takenText (some (cstring bytes)) (toUnsigned size))).m_buffer
  else .number (t.numberOf bytes)

/-- Two texts with the same numeral are read as the same number by every overload that returns one. -/
theorem numberOf_congr {u v : List UInt8} (h : Str.numeral u = Str.numeral v) (t : FileTarget) :
    t.numberOf u = t.numberOf v := by
  have hsigned : Str.strtoll u = Str.strtoll v := by rw [Str.strtoll, h, Str.strtoll]
  have hunsigned : Str.strtoul u = Str.strtoul v := by rw [Str.strtoul, h, Str.strtoul]
  cases t <;> simp only [numberOf, hsigned, hunsigned]

/-- A conversion is none of the bytes behind those that it reads. -/
theorem map_convert (strto : List UInt8 → Int) (value : Int → FileValue) (f : FileContent) :
    (File.convert f strto).map value = match f.m_pContent with
      | none => .error (.thrown .nullPointer)
      | some content =>
          if Str.numeralEnds content then .ok (value (strto content)) else .error .outOfBlock := by
  unfold File.convert
  cases f.m_pContent with
  | none => rfl
  | some content =>
      dsimp only
      split <;> rfl

/-- A number is read iff the numeral in the block ends inside it; without a block the null pointer is
thrown, and otherwise the conversion runs out of the block. -/
theorem decode_number (ht : t ≠ .string) (g : Leftovers) (f : FileContent) :
    t.decode g f = match f.m_pContent with
      | none => .error (.thrown .nullPointer)
      | some content =>
          if Str.numeralEnds content then .ok (.number (t.numberOf content)) else .error .outOfBlock := by
  cases t with
  | string => exact absurd rfl ht
  | longLong | unsignedLongLong | int | unsignedInt | short | unsignedShort => exact map_convert _ _ f

end FileTarget

namespace File

variable {f : FileContent} {s : StringObject}

/-- The constructed object is assigned. -/
theorem assign_of_fits (hs : s.Valid) (junk : Nat → Nat → UInt8) (buf : Option (List UInt8)) (count : Nat)
    (hbuf : ∀ u ∈ buf, ∀ b ∈ u, b ≠ 0) (hfits : ∀ u ∈ buf, StringObject.bytesOf u count ≠ uintMax) :
    ∃ s', ((StringObject.new.assign (junk 0) buf count).bind fun t =>
        s.assign (junk 1) (some t.text) uintMax) = some s' ∧
      s'.text = (Str.ofBytes (takenText buf count)).m_buffer := by
  obtain ⟨t, hassign, ht, hbytes⟩ := StringObject.allocated_new.assign (junk 0) buf count hbuf hfits
  have htext : t.text = takenText buf count := by rw [ht.text_eq, hbytes]
  have hlength : t.text.length < uintMax := by
    have hsize := ht.size_le
    rw [ht.text_eq, StringObject.bytes, List.length_take]
    unfold uintMax
    omega
  have hnul : ∀ u ∈ some t.text, ∀ b ∈ u, b ≠ 0 := by
    rintro u ⟨⟩ b hb
    exact ne_zero_of_mem_cstring hb
  have hshort : ∀ u ∈ some t.text, StringObject.bytesOf u uintMax ≠ uintMax := by
    rintro u ⟨⟩
    have hle := bytesOf_le t.text uintMax
    omega
  obtain ⟨s', hassign', hs', hbytes'⟩ := hs.allocated.assign (junk 1) (some t.text) uintMax hnul hshort
  refine ⟨s', by rw [hassign, Option.bind_some, hassign'], ?_⟩
  rw [hs'.text_eq, hbytes', takenText_eq hlength, htext]

/-- A file without a block (nothing has been read) gives the empty string and touches no memory. -/
theorem readString_of_none (hs : s.Valid) (junk : Nat → Nat → UInt8) (hblock : f.m_pContent = none) :
    File.readString f junk s = .ok [] := by
  obtain ⟨s', hassign, htext⟩ :=
    assign_of_fits hs junk none (toUnsigned f.m_ContentSize) (by simp) (by simp)
  rw [File.readString, hblock, Option.all_none, if_pos rfl, Option.map_none, hassign]
  exact congrArg Except.ok htext

/-- Where the walk over the characters stays in the block, the text is what the C string in it has of as
many characters as the file has bytes. -/
theorem readString_of_stays (hs : s.Valid) (junk : Nat → Nat → UInt8) {content : List UInt8}
    (hblock : f.m_pContent = some content) (hstays : toUnsigned f.m_ContentSize = 0 ∨
      utf8OffsetStays (toUnsigned f.m_ContentSize) content = true)
    (hfits : StringObject.bytesOf (cstring content) (toUnsigned f.m_ContentSize) ≠ uintMax) :
    File.readString f junk s =
      .ok (Str.ofBytes (takenText (some (cstring content)) (toUnsigned f.m_ContentSize))).m_buffer := by
  have hnul : ∀ u ∈ some (cstring content), ∀ b ∈ u, b ≠ 0 := by
    rintro u ⟨⟩ b hb
    exact ne_zero_of_mem_cstring hb
  have hshort : ∀ u ∈ some (cstring content),
      StringObject.bytesOf u (toUnsigned f.m_ContentSize) ≠ uintMax := by
    rintro u ⟨⟩
    exact hfits
  obtain ⟨s', hassign, htext⟩ := assign_of_fits hs junk _ _ hnul hshort
  have hguard : (decide (toUnsigned f.m_ContentSize = 0) ||
      utf8OffsetStays (toUnsigned f.m_ContentSize) content) = true := by
    rwa [Bool.or_eq_true, decide_eq_true_iff]
  rw [File.readString, hblock, Option.all_some, if_pos hguard, Option.map_some, hassign]
  exact congrArg Except.ok htext

/-- Where the walk over as many characters as there are bytes leaves the block, the read is out of
bounds. -/
theorem readString_of_not_stays (junk : Nat → Nat → UInt8) (s : StringObject) {content : List UInt8}
    (hblock : f.m_pContent = some content) (hsize : toUnsigned f.m_ContentSize ≠ 0)
    (hstays : ¬ utf8OffsetStays (toUnsigned f.m_ContentSize) content = true) :
    File.readString f junk s = .error .outOfBlock := by
  have hguard : ¬ (decide (toUnsigned f.m_ContentSize = 0) ||
      utf8OffsetStays (toUnsigned f.m_ContentSize) content) = true := by
    rw [Bool.or_eq_true, decide_eq_true_iff]
    exact not_or.mpr ⟨hsize, hstays⟩
  rw [File.readString, hblock, Option.all_some, if_neg hguard]

end File

namespace FileTarget

variable {t : FileTarget} {f : FileContent} {bytes : List UInt8}

/-- No characters are asked for. -/
theorem decode_string_of_zero (hzero : toUnsigned f.m_ContentSize = 0) (g : Leftovers) :
    string.decode g f = .ok (.text []) := by
  rcases hblock : f.m_pContent with _ | content
  · exact congrArg (Except.map FileValue.text) (File.readString_of_none g.valid g.junk hblock)
  · have hnone : StringObject.bytesOf (cstring content) (toUnsigned f.m_ContentSize) = 0 :=
      if_neg (hzero ▸ Nat.lt_irrefl 0)
    have hread := File.readString_of_stays g.valid g.junk hblock (.inl hzero) (by rw [hnone]; decide)
    rw [takenText, hnone, List.take_zero] at hread
    exact congrArg (Except.map FileValue.text) hread

/-- What stands in the block behind bytes that settle the value does not matter. -/
theorem decode_of_settled (g : Leftovers) {rest : List UInt8}
    (hblock : f.m_pContent = some (bytes ++ rest)) (hrest : rest ≠ []) (hlength : bytes.length < uintMax)
    (h : t.Settled f.m_ContentSize bytes) :
    t.decode g f = .ok (t.value f.m_ContentSize bytes) := by
  unfold Settled at h
  by_cases ht : t = .string
  · subst ht
    rw [if_pos rfl] at h
    rw [value, if_pos rfl]
    rcases Nat.eq_zero_or_pos (toUnsigned f.m_ContentSize) with hsize | hsize
    · have hnone : StringObject.bytesOf (cstring bytes) (toUnsigned f.m_ContentSize) = 0 :=
        if_neg (hsize ▸ Nat.lt_irrefl 0)
      rw [decode_string_of_zero hsize, takenText, hnone, List.take_zero]
      rfl
    · obtain ⟨htaken, hfits⟩ := takenText_append_of_settled h hsize hlength hrest
      have hread := File.readString_of_stays g.valid g.junk hblock
        (.inr (settled_append h hrest).1) hfits
      rw [htaken] at hread
      exact congrArg (Except.map FileValue.text) hread
  · rw [if_neg ht] at h
    obtain ⟨hends, hnumeral⟩ := Str.numeral_append_of_ends h rest
    rw [decode_number ht, hblock, value, if_neg ht, numberOf_congr hnumeral.symm t]
    exact if_pos hends

/-- Where the bytes do not settle it, it does. -/
theorem settled_of_agrees {size k : Nat} (hk : 0 < k) (hlength : bytes.length + 4 < uintMax)
    (block : (Nat → UInt8) → FileContent) (left : (Nat → UInt8) → Leftovers)
    (hblock : ∀ f, (block f).m_pContent = some (bytes ++ (List.range k).map f))
    (hsize : ∀ f, (block f).m_ContentSize = size)
    (hagrees : ∀ f f', t.decode (left f) (block f) = t.decode (left f') (block f'))
    (hinBlock : ∀ f, t.decode (left f) (block f) ≠ .error .outOfBlock) : t.Settled size bytes := by
  by_contra hnot
  unfold Settled at hnot
  by_cases ht : t = .string
  · subst ht
    rw [if_pos rfl, not_not] at hnot
    have hpos : toUnsigned size ≠ 0 := by
      obtain ⟨-, cs, -, -, -, -, hcount⟩ := hnot
      omega
    have hread : ∀ f, utf8OffsetStays (toUnsigned size) (bytes ++ (List.range k).map f) = true →
        StringObject.bytesOf (cstring (bytes ++ (List.range k).map f)) (toUnsigned size) ≠ uintMax →
        string.decode (left f) (block f) = .ok (.text (Str.ofBytes
          (takenText (some (cstring (bytes ++ (List.range k).map f))) (toUnsigned size))).m_buffer) := by
      intro f hstays hfits
      rw [← hsize f] at hstays hfits ⊢
      exact congrArg (Except.map FileValue.text)
        (File.readString_of_stays (left f).valid (left f).junk (hblock f) (.inr hstays) hfits)
    have hstays : ∀ f, utf8OffsetStays (toUnsigned size) (bytes ++ (List.range k).map f) = true := by
      intro f
      by_contra hleaves
      rw [← hsize f] at hleaves hpos
      exact hinBlock f (congrArg (Except.map FileValue.text)
        (File.readString_of_not_stays (left f).junk (left f).string (hblock f) hpos hleaves))
    obtain ⟨-, hfits, f, hleaves | ⟨hmore, hne⟩⟩ := exists_longer hnot hlength hk
    · exact hleaves (hstays f)
    · have heq := hagrees f fun _ => 0
      rw [hread f (hstays f) hmore, hread _ (hstays _) hfits] at heq
      exact hne (FileValue.text.inj (Except.ok.inj heq))
  · rw [if_neg ht] at hnot
    refine hinBlock (fun _ => 49) ?_
    have hones : (List.range k).map (fun _ => (49 : UInt8)) = List.replicate k 49 := by
      rw [List.map_const', List.length_range]
    rw [decode_number ht, hblock, hones]
    exact if_neg (Str.not_numeralEnds_ones hnot k)

end FileTarget

end Irstessi
