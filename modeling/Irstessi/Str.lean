import Irstessi.Lib.Occurrence
import Irstessi.Utf8
import Mathlib.Data.List.Basic
import Mathlib.Order.Basic

/-!
# `class String` of `string.h`

A `Str` holds the bytes before the NUL of `m_buffer` (so that `m_size` is their number) and the
character count `m_length` as the source caches it: lengths, offsets and search results count
characters, copying counts bytes, and `append` writes at the byte offset `m_length`.

* The source's operations: `assign`, `append`, `get`, `find`, `reverseFind`, `left`, `right`,
  `after`, `reverseAfter`, `reverseLeft`, `trim`, `compare`, the decimal and `strtoul` conversions.

The operations are written as the source writes them, on the two fields that the others of the object
follow from; that they do is the subject of `StringObject`. A conversion from a pointer copies up to the
NUL, and a search that finds nothing is `none` where the source throws. `ofRead` is what reading a file
into a string makes of its bytes and of the memory behind them: the number of bytes is taken for a
number of characters, and the walk stops at a NUL.
-/

namespace Irstessi

open Occurrence

/-- The bytes of a string literal of the source. -/
def lit (s : String) : List UInt8 := s.toList.map fun c => c.toNat.toUInt8

/-- A string object: the bytes before the NUL and the cached character count. -/
structure Str where
  /-- The bytes of `m_buffer` before the NUL; their number is `m_size`. -/
  m_buffer : List UInt8
  /-- The cached number of characters. -/
  m_length : Nat
  deriving DecidableEq, Repr

namespace Str

/-- `m_size`. -/
def size (s : Str) : Nat := s.m_buffer.length

/-- The first `count` bytes of `buf` are written at byte `offset`, then the NUL, and the characters
are counted anew.
Source: `string.cpp` `String::__copy` -/
def copy (s : Str) (buf : List UInt8) (offset count : Nat) : Str :=
  let bytes := s.m_buffer.take offset ++ buf.take count
  ⟨bytes, utf8Length bytes (npos bytes)⟩

/-- The empty string. -/
def empty : Str := ⟨[], 0⟩

/-- The first `count` characters of `buf`; a text that stops being UTF-8 is cut there.
Source: `string.cpp` `String::assign` -/
def assign (buf : List UInt8) (count : Nat) : Str :=
  let count := if 0 < count then distance buf (utf8Offset buf count) else 0
  empty.copy buf 0 count

/-- `String(buf)`.
Source: `string.h` `String::String` -/
def ofBytes (buf : List UInt8) : Str := assign buf (npos buf)

/-- `String(buf, size)` of a block into which `bytes` have been read: as many characters are taken as
bytes have been read, so that behind a character of several bytes the walk goes on into what the memory
holds `behind` them.
Source: `filesystem.h` `File::read(String &)` -/
def ofRead (bytes behind : List UInt8) : Str :=
  assign ((bytes ++ behind).takeWhile (· ≠ 0)) (bytes.length % 2 ^ 32)

/-- A string literal of the source, converted to `String`. -/
def ofLit (s : String) : Str := ofBytes (lit s)

/-- Appending another object: at most `count` of its characters are copied to the byte offset
`m_length` of this one.
Source: `string.cpp` `String::append`, `String::__append` -/
def append (s t : Str) (count : Nat) : Str :=
  if t.size ≠ 0 ∧ count ≠ 0 then
    let count := distance t.m_buffer (utf8Offset t.m_buffer count)
    s.copy t.m_buffer s.m_length (if t.size > count then count else t.size)
  else s

/-- `left += right` with the default count, and `left + right` for texts on which the copies that it
makes of `left` and of the sum (`Str.plus`) make no difference. -/
instance : Append Str := ⟨fun s t => s.append t (npos t.m_buffer)⟩

/-- `left + right`: a copy of `left` to which `right` is appended is copied.
Source: `string.h` `operator +` -/
def plus (s t : Str) : Str := ofBytes (ofBytes s.m_buffer ++ t).m_buffer

/-- A pointer to character `offset`; an offset beyond `m_length` is thrown at.
Source: `string.h` `String::get` -/
def get (s : Str) (offset : Nat) : Option (List UInt8) :=
  if offset > s.m_length then none else some (utf8Offset s.m_buffer offset)

/-- Source: `string.h` `String::isEmpty` -/
def isEmpty (s : Str) : Bool := s.m_buffer.isEmpty || s.m_length == 0

/-- The byte position at which `buf` first occurs from `offset` on.
Source: `string.cpp` `String::__find` -/
def findByte (s : Str) (buf : List UInt8) (offset : Nat) : Option Nat :=
  (findPos buf (s.m_buffer.drop offset)).map (offset + ·)

/-- The character position at which `buf` first occurs; `none` is `throw E_NOT_FOUND`.
Source: `string.cpp` `String::find` -/
def find (s : Str) (buf : List UInt8) (offset : Nat) : Option Nat :=
  let offset := distance s.m_buffer (utf8Offset s.m_buffer offset)
  (s.findByte buf offset).map fun p => utf8Length s.m_buffer p

/-- The byte position at which `buf` last occurs with its end at or before `offset`.
Source: `string.cpp` `String::__reverse_find` -/
def reverseFindByte (s : Str) (buf : List UInt8) (offset : Nat) : Option Nat :=
  let i := distance buf (utf8Offset buf (npos buf))
  if offset < i then none else rfindPos buf s.m_buffer (offset - i)

/-- Source: `string.cpp` `String::reverse_find` -/
def reverseFind (s : Str) (buf : List UInt8) (offset : Nat) : Option Nat :=
  let offset := distance s.m_buffer (utf8Offset s.m_buffer offset)
  (s.reverseFindByte buf offset).map fun p => utf8Length s.m_buffer p

/-- The characters from `length` on, empty where `get` throws.
Source: `string.h` `String::right` -/
def right (s : Str) (length : Nat) : Str :=
  match s.get length with
  | some p => ofBytes p
  | none => empty

/-- The first `length` characters.
Source: `string.h` `String::left` -/
def left (s : Str) (length : Nat) : Str := assign s.m_buffer length

/-- The characters before the first occurrence of `buf`, none if there is none.
Source: `string.h` `String::left` -/
def leftOf (s : Str) (buf : List UInt8) : Str :=
  match s.find buf 0 with
  | some n => s.left n
  | none => empty

/-- The characters from `start` up to `stop`.
Source: `string.h` `String::mid` -/
def mid (s : Str) (start stop : Nat) : Str :=
  if start < stop then
    match s.get start with
    | some p => assign p (stop - start)
    | none => empty
  else empty

/-- The characters before the last occurrence of `buf`.
Source: `string.h` `String::reverse_left` -/
def reverseLeft (s : Str) (buf : List UInt8) : Str :=
  match s.reverseFind buf (npos s.m_buffer) with
  | some n => s.left n
  | none => empty

/-- The characters after the first occurrence of `t`.
Source: `string.h` `String::after` -/
def after (s t : Str) : Str :=
  match s.find t.m_buffer 0 with
  | some n => s.right (n + t.m_length)
  | none => empty

/-- The characters after the last occurrence of `t`.
Source: `string.h` `String::reverse_after` -/
def reverseAfter (s t : Str) : Str :=
  match s.reverseFind t.m_buffer (npos s.m_buffer) with
  | some n => s.right (n + t.m_length)
  | none => empty

/-! ## Trimming -/

/-- `isspace` of the C locale. -/
def isSpace (b : UInt8) : Bool := (9 ≤ b ∧ b ≤ 13) ∨ b = 32

/-- `isprint` of the C locale. -/
def isPrint (b : UInt8) : Bool := 32 ≤ b ∧ b ≤ 126

/-- Blanks and bytes no sequence begins with are skipped.
Source: `string.cpp` `__utf8_trim_left` -/
def utf8TrimLeft : List UInt8 → List UInt8
  | [] => []
  | b :: p =>
      if utf8SequenceType b = 1 then
        if isSpace b = false ∧ isPrint b then b :: p else utf8TrimLeft p
      else if utf8SequenceType b ≠ 0 then b :: p
      else utf8TrimLeft p

/-- The loop of `__utf8_trim_right`, from byte `i` downwards; `count` is the number of continuation
bytes passed. -/
def utf8TrimRightLoop (buf : List UInt8) (i count : Nat) : Nat :=
  match i with
  | 0 => 0
  | i + 1 =>
      let b := buf.getD (i + 1) 0
      if b < 0x7f then
        if isSpace b = false ∧ isPrint b then i + 1 else utf8TrimRightLoop buf i count
      else if IsContinuation b then utf8TrimRightLoop buf i (count + 1)
      else if (b >>> 5 = 0x06 ∧ count = 1) ∨ (b >>> 4 = 0x0e ∧ count = 2) ∨
          (b >>> 3 = 0x1e ∧ count = 3) then i + 1
      else utf8TrimRightLoop buf i 0

/-- The pointer behind the last character that is not a blank.
Source: `string.cpp` `__utf8_trim_right` -/
def utf8TrimRight (buf : List UInt8) : List UInt8 :=
  let i := utf8TrimRightLoop buf (distance buf (utf8Offset buf (npos buf)) - 1) 0
  (utf8SkipSequence (buf.drop i)).getD buf

/-- Source: `string.cpp` `String::trim` -/
def trim (s : Str) : Str :=
  let p := utf8TrimLeft s.m_buffer
  let t := utf8TrimRight s.m_buffer
  -- `t - p` is unsigned: where the right end lies before the left one the count is huge
  let count := if p.length < t.length then npos p else distance p t
  ofBytes (assign p (utf8Length p count)).m_buffer

/-! ## Comparison and numbers -/

/-- `strncmp` of the first `n` bytes, none of which is the NUL. -/
def strncmp : List UInt8 → List UInt8 → Nat → Int
  | a :: as, b :: bs, n + 1 => if a = b then strncmp as bs n else (a.toNat : Int) - b.toNat
  | _, _, _ => 0

/-- Source: `string.cpp` `String::__compare` -/
def compare (s t : Str) : Int :=
  let rv := strncmp s.m_buffer t.m_buffer (min s.size t.size)
  if rv ≠ 0 then rv else (s.size : Int) - t.size

/-- `operator ==`.
Source: `string.h` `String::equal` -/
def equal (s t : Str) : Bool := s.compare (ofBytes t.m_buffer) = 0

/-- The decimal numeral.
Source: `string.cpp` `String::assign(unsigned long long)` -/
def ofNat (n : Nat) : Str := ofBytes ((Nat.toDigits 10 n).map fun c => c.toNat.toUInt8)

/-- The value of a digit in the given base. -/
def digitValue (base : Nat) (b : UInt8) : Option Nat :=
  let v := if 48 ≤ b ∧ b ≤ 57 then b.toNat - 48
    else if 97 ≤ b ∧ b ≤ 122 then b.toNat - 87
    else if 65 ≤ b ∧ b ≤ 90 then b.toNat - 55
    else base
  if v < base then some v else none

/-- The value of the leading digits. -/
def digits (base acc : Nat) : List UInt8 → Nat
  | [] => acc
  | b :: p =>
      match digitValue base b with
      | some v => digits base (acc * base + v) p
      | none => acc

/-- The sign and the value of a numeral with base 0: blanks, a sign, then `0x` hexadecimal, `0` octal
or decimal digits. -/
def numeral (buf : List UInt8) : Bool × Nat :=
  let buf := buf.dropWhile isSpace
  let negative := buf.head? = some 45
  let buf := if buf.head? = some 45 ∨ buf.head? = some 43 then buf.tail else buf
  let value :=
    if buf.head? = some 48 then
      if (buf.getD 1 0 = 120 ∨ buf.getD 1 0 = 88) ∧ (digitValue 16 (buf.getD 2 0)).isSome then
        digits 16 0 (buf.drop 2)
      else digits 8 0 buf
    else digits 10 0 buf
  (negative, value)

/-- `strtoul` and `strtoull` with base 0, of 64 bits, saturating. -/
def strtoul (buf : List UInt8) : Nat :=
  let (negative, value) := numeral buf
  if 2 ^ 64 ≤ value then 2 ^ 64 - 1 else if negative then (2 ^ 64 - value) % 2 ^ 64 else value

/-- `strtoll` with base 0, of 64 bits, saturating. -/
def strtoll (buf : List UInt8) : Int :=
  let (negative, value) := numeral buf
  if negative then max (-(2 ^ 63)) (-(value : Int)) else min (2 ^ 63 - 1) value

/-- `atoi`: blanks, a sign and decimal digits, as a 32-bit number. -/
def atoi (buf : List UInt8) : Int :=
  let buf := buf.dropWhile isSpace
  let negative := buf.head? = some 45
  let buf := if buf.head? = some 45 ∨ buf.head? = some 43 then buf.tail else buf
  let value : Int := digits 10 0 buf
  (if negative then max (-(2 ^ 63)) (-value) else min (2 ^ 63 - 1) value).bmod (2 ^ 32)

/-- `operator unsigned int`.
Source: `string.cpp` `String::__internal_to_uint` -/
def toUint (s : Str) : Nat := strtoul s.m_buffer % 2 ^ 32

end Str

end Irstessi
