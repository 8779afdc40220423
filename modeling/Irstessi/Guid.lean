import Irstessi.Lib.Hex
import Irstessi.Str

/-!
# The text of a GUID

`guid2str` is given the size of the GUID for that of its buffer.

* `EfiGuid`, `EFI_GUID`, `guid2str`, `efiVarPath`: the data and the functions.
* `canonicalText`, `decode`: the text that names a variable, and back; `decode_canonicalText`,
  `canonicalText_EFI_GUID`.
* `formatGuid_eq_canonicalText`, `writes_canonicalText_of_size`: the format is that of the canonical
  text, which the buffer has room for.
* `text_guid2str`, `text_eq_iff`: fifteen characters of it are written, and what they tell apart.
* **`guid2str_never_faithful`**: no GUID is encoded as its canonical text says.

`snprintf` is given the size of the GUID, 16, where the buffer has 37 bytes: fifteen characters and a
NUL are written. The text is the first part of what the format makes of the sixteen bytes, the lowest
byte of each of the first three groups last, and that format is the canonical text
(`formatGuid_eq_canonicalText`). Two GUIDs have the same text iff they agree in the first seven bytes
and in the upper half of the eighth. So no GUID is written as its canonical text, none is read back from
it, and no variable of the firmware has the name that is looked for; each part holds for every GUID.
-/

namespace Irstessi

open Hex

/-- Source: `efi.h` `struct efi_guid` -/
structure EfiGuid where
  b : Vector UInt8 16
  deriving DecidableEq, Repr

/-- Source: `efi.h` `GUID_STR_MAX` -/
def GUID_STR_MAX : Nat := 37

/-- Source: `efi.h` `PATH_MAX` -/
def PATH_MAX : Nat := 4096

/-- Source: `efi.h` `EFIVARS_DIR` -/
def EFIVARS_DIR : List UInt8 := lit "/sys/firmware/efi/efivars"

/-- Source: `efi.h` `EFI_GUID` -/
def EFI_GUID (a : UInt32) (b c : UInt16) (d0 d1 d2 d3 d4 d5 d6 d7 : UInt8) : EfiGuid :=
  ⟨#v[(a &&& 0xff).toUInt8, ((a >>> 8) &&& 0xff).toUInt8, ((a >>> 16) &&& 0xff).toUInt8,
    ((a >>> 24) &&& 0xff).toUInt8, (b &&& 0xff).toUInt8, ((b >>> 8) &&& 0xff).toUInt8,
    (c &&& 0xff).toUInt8, ((c >>> 8) &&& 0xff).toUInt8, d0, d1, d2, d3, d4, d5, d6, d7]⟩

/-- Source: `efi.h` `VENDOR_GUID` -/
def VENDOR_GUID : EfiGuid :=
  EFI_GUID 0x193dfefa 0xa445 0x4302 0x99 0xd8 0xef 0x3a 0xad 0x1a 0x04 0xc6

/-! ## The functions -/

/-- What `snprintf` leaves in a buffer: of the formatted text as much as fits in front of a NUL. -/
def snprintf (buffer : List UInt8) : Nat → List UInt8 → List UInt8
  | 0, _ => buffer
  | size + 1, text => text.take size ++ 0 :: buffer.drop ((text.take size).length + 1)

/-- The text in a buffer. -/
def cString (buffer : List UInt8) : List UInt8 := buffer.takeWhile (· ≠ 0)

/-- `%02x`. -/
def hexByte (b : UInt8) : List UInt8 := fixed 2 b.toNat

/-- The arguments of `guid2str` in its format.
Source: `efi.cpp` `guid2str`, the format string -/
def formatGuid (guid : EfiGuid) : List UInt8 :=
  hexByte guid.b[3] ++ hexByte guid.b[2] ++ hexByte guid.b[1] ++ hexByte guid.b[0] ++ lit "-" ++
    hexByte guid.b[5] ++ hexByte guid.b[4] ++ lit "-" ++ hexByte guid.b[7] ++ hexByte guid.b[6] ++
    lit "-" ++ hexByte guid.b[8] ++ hexByte guid.b[9] ++ lit "-" ++ hexByte guid.b[10] ++
    hexByte guid.b[11] ++ hexByte guid.b[12] ++ hexByte guid.b[13] ++ hexByte guid.b[14] ++
    hexByte guid.b[15]

/-- The size given to `snprintf` is `sizeof(guid.b)`.
Source: `efi.cpp` `guid2str` -/
def guid2str (buffer : List UInt8) (guid : EfiGuid) : List UInt8 :=
  snprintf buffer guid.b.size (formatGuid guid)

/-- The path that is opened; `buf` is the array of `GUID_STR_MAX` bytes.
Source: `efi.cpp` `__read_efi_var`, up to the call of `open` -/
def efiVarPath (buf : Vector UInt8 GUID_STR_MAX) (var_name : Str) : List UInt8 :=
  let buf := guid2str (guid2str buf.toList VENDOR_GUID) VENDOR_GUID
  cString (snprintf (.replicate PATH_MAX 0) PATH_MAX
    (EFIVARS_DIR ++ lit "/" ++ cString var_name.m_buffer ++ lit "-" ++ cString buf))

/-! ## The canonical text -/

/-- Five numbers of 8, 4, 4, 4 and 12 digits; the lowest byte of the first three is the first one, that
of the others is the last one. -/
def canonicalText (guid : EfiGuid) : List UInt8 :=
  (lit "-").intercalate
    [fixed 8 (ofBytes [guid.b[0], guid.b[1], guid.b[2], guid.b[3]]),
      fixed 4 (ofBytes [guid.b[4], guid.b[5]]), fixed 4 (ofBytes [guid.b[6], guid.b[7]]),
      fixed 4 (ofBytes [guid.b[9], guid.b[8]]),
      fixed 12 (ofBytes [guid.b[15], guid.b[14], guid.b[13], guid.b[12], guid.b[11], guid.b[10]])]

/-- The GUID of sixteen bytes. -/
def EfiGuid.ofList (l : List UInt8) : Option EfiGuid :=
  if h : l.length = 16 then some ⟨⟨l.toArray, h⟩⟩ else none

/-- The GUID that a text of five numbers stands for. -/
def decode (text : List UInt8) : Option EfiGuid :=
  match text.splitOn 45 with
  | [a, b, c, d, e] => do
      let a ← readBytes 4 a
      let b ← readBytes 2 b
      let c ← readBytes 2 c
      let d ← readBytes 2 d
      let e ← readBytes 6 e
      EfiGuid.ofList (a ++ b ++ c ++ d.reverse ++ e.reverse)
  | _ => none

/-- The dash of the canonical form is one byte. -/
theorem dash : lit "-" = [45] := rfl

/-- The format string is that of the canonical text. -/
theorem formatGuid_eq_canonicalText (guid : EfiGuid) : formatGuid guid = canonicalText guid := by
  have h0 := fixed_ofBytes [guid.b[0], guid.b[1], guid.b[2], guid.b[3]]
  have h4 := fixed_ofBytes [guid.b[4], guid.b[5]]
  have h6 := fixed_ofBytes [guid.b[6], guid.b[7]]
  have h8 := fixed_ofBytes [guid.b[9], guid.b[8]]
  have h10 := fixed_ofBytes
    [guid.b[15], guid.b[14], guid.b[13], guid.b[12], guid.b[11], guid.b[10]]
  simp only [List.length_cons, List.length_nil, List.reverse_cons, List.reverse_nil, List.nil_append,
    List.cons_append, List.flatMap_cons, List.flatMap_nil, List.append_nil] at h0 h4 h6 h8 h10
  unfold canonicalText formatGuid hexByte
  rw [h0, h4, h6, h8, h10]
  simp [List.intercalate]

/-- The canonical form has 36 characters, as the buffer size of the header says. -/
theorem length_canonicalText (guid : EfiGuid) : (canonicalText guid).length = 36 := by
  simp [canonicalText, List.intercalate, dash]

/-- The sixteen bytes in the five groups of the canonical form. -/
theorem EfiGuid.toList_b (guid : EfiGuid) :
    guid.b.toList = [guid.b[0], guid.b[1], guid.b[2], guid.b[3]] ++ [guid.b[4], guid.b[5]] ++
      [guid.b[6], guid.b[7]] ++ [guid.b[8], guid.b[9]] ++
        [guid.b[10], guid.b[11], guid.b[12], guid.b[13], guid.b[14], guid.b[15]] := by
  apply List.ext_getElem
  · simp
  · intro i hi _
    have hlt : i < 16 := by simpa using hi
    interval_cases i <;> simp

/-- A GUID is made of its sixteen bytes. -/
theorem EfiGuid.ofList_toList (guid : EfiGuid) : ofList guid.b.toList = some guid := by
  obtain ⟨⟨bytes, hsize⟩⟩ := guid
  simp [ofList, hsize]

/-- Decoding the canonical text gives the GUID. -/
theorem decode_canonicalText (guid : EfiGuid) : decode (canonicalText guid) = some guid := by
  have hdash : value 45 = none := by decide
  have hsplit : (canonicalText guid).splitOn 45 = _ :=
    List.splitOn_intercalate 45 (by simp [not_mem_fixed hdash]) (by simp)
  have h0 : readBytes 4 _ = _ := readBytes_ofBytes [guid.b[0], guid.b[1], guid.b[2], guid.b[3]]
  have h4 : readBytes 2 _ = _ := readBytes_ofBytes [guid.b[4], guid.b[5]]
  have h6 : readBytes 2 _ = _ := readBytes_ofBytes [guid.b[6], guid.b[7]]
  have h8 : readBytes 2 _ = _ := readBytes_ofBytes [guid.b[9], guid.b[8]]
  have h10 : readBytes 6 _ = _ := readBytes_ofBytes
    [guid.b[15], guid.b[14], guid.b[13], guid.b[12], guid.b[11], guid.b[10]]
  unfold decode
  rw [hsplit]
  simp only [List.length_cons, List.length_nil, Nat.reduceAdd, Nat.reduceMul] at h0 h4 h6 h8 h10
  dsimp only
  rw [h0, h4, h6, h8, h10]
  simp only [Option.bind_eq_bind, Option.bind_some]
  exact (congrArg EfiGuid.ofList guid.toList_b).symm.trans guid.ofList_toList

/-- Different GUIDs have different canonical forms: the decoder gives the GUID back. -/
theorem canonicalText_injective {guid guid' : EfiGuid} (h : canonicalText guid = canonicalText guid') :
    guid = guid' := by
  have hdecode := decode_canonicalText guid
  rw [h, decode_canonicalText] at hdecode
  exact (Option.some.inj hdecode).symm

/-- The first three groups of `EFI_GUID` are its first three numbers. -/
theorem canonicalText_EFI_GUID (a : UInt32) (b c : UInt16) (d0 d1 d2 d3 d4 d5 d6 d7 : UInt8) :
    canonicalText (EFI_GUID a b c d0 d1 d2 d3 d4 d5 d6 d7) =
      (lit "-").intercalate [fixed 8 a.toNat, fixed 4 b.toNat, fixed 4 c.toNat,
        [d0, d1].flatMap hexByte, [d2, d3, d4, d5, d6, d7].flatMap hexByte] := by
  have h8 : [d0, d1].flatMap hexByte = _ := (fixed_ofBytes [d1, d0]).symm
  have h10 : [d2, d3, d4, d5, d6, d7].flatMap hexByte = _ :=
    (fixed_ofBytes [d7, d6, d5, d4, d3, d2]).symm
  rw [h8, h10, ← ofBytes_UInt32 a, ← ofBytes_UInt16 b, ← ofBytes_UInt16 c]
  rfl

/-! ## What is written -/

/-- The canonical form has no NUL in it, so that it can be a C string. -/
theorem zero_not_mem_canonicalText (guid : EfiGuid) : (0 : UInt8) ∉ canonicalText guid := by
  have hzero : value 0 = none := by decide
  simp [canonicalText, List.intercalate, dash, not_mem_fixed hzero]

/-- With the size of the buffer the canonical text would be written. -/
theorem writes_canonicalText_of_size (buffer : List UInt8) (guid : EfiGuid) :
    canonicalText guid ++ [0] <+: snprintf buffer GUID_STR_MAX (formatGuid guid) := by
  have hfits : (canonicalText guid).take 36 = canonicalText guid :=
    List.take_of_length_le (length_canonicalText guid).le
  show _ <+: snprintf buffer 37 _
  rw [formatGuid_eq_canonicalText, snprintf, hfits, List.append_cons _ _ (List.drop _ _)]
  exact List.prefix_append _ _

/-- Of the canonical text fifteen characters are written. -/
theorem text_guid2str (buffer : List UInt8) (guid : EfiGuid) :
    cString (guid2str buffer guid) = (canonicalText guid).take 15 := by
  have hzero : ∀ b ∈ (canonicalText guid).take 15, decide (b ≠ 0) = true := by
    intro b hb
    rw [decide_eq_true_iff]
    rintro rfl
    exact zero_not_mem_canonicalText guid (List.mem_of_mem_take hb)
  show cString (snprintf buffer 16 _) = _
  rw [formatGuid_eq_canonicalText, snprintf, cString, List.takeWhile_append_of_pos hzero]
  simp

/-- The first fifteen characters of a format are those of the first three groups, up to the first digit
of the third. -/
theorem take_format (b0 b1 b2 b3 b4 b5 b6 b7 : UInt8) (rest : List UInt8) :
    (hexByte b3 ++ (hexByte b2 ++ (hexByte b1 ++ (hexByte b0 ++ (lit "-" ++ (hexByte b5 ++
      (hexByte b4 ++ (lit "-" ++ (hexByte b7 ++ (hexByte b6 ++ rest)))))))))).take 15 =
        [b3, b2, b1, b0].flatMap hexByte ++ (lit "-" ++ ([b5, b4].flatMap hexByte ++
          (lit "-" ++ [digit (b7.toNat / 16)]))) := by
  have hhigh : b7.toNat / 16 = b7.toNat / 16 % 16 := by
    have hlt := b7.toNat_lt
    omega
  rw [hhigh]
  simp only [List.flatMap_cons, List.flatMap_nil, hexByte, fixed, dash, List.nil_append,
    List.cons_append, List.take_succ_cons, List.take_zero]

/-- The first fifteen characters of the canonical form depend on the first seven bytes and a half
only. -/
theorem take_canonicalText (guid : EfiGuid) : (canonicalText guid).take 15 =
    [guid.b[3], guid.b[2], guid.b[1], guid.b[0]].flatMap hexByte ++ (lit "-" ++
      ([guid.b[5], guid.b[4]].flatMap hexByte ++ (lit "-" ++ [digit (guid.b[7].toNat / 16)]))) := by
  rw [← formatGuid_eq_canonicalText]
  unfold formatGuid
  simp only [List.append_assoc]
  exact take_format _ _ _ _ _ _ _ _ _

/-- The text of a GUID shows its bytes 0 to 5 and half of byte 7. -/
theorem text_eq_iff (buffer buffer' : List UInt8) (guid guid' : EfiGuid) :
    cString (guid2str buffer guid) = cString (guid2str buffer' guid') ↔
      guid.b.toList.take 6 = guid'.b.toList.take 6 ∧ guid.b[7].toNat / 16 = guid'.b[7].toNat / 16 := by
  have hlt := guid.b[7].toNat_lt
  have hlt' := guid'.b[7].toNat_lt
  rw [text_guid2str, text_guid2str, take_canonicalText, take_canonicalText, guid.toList_b,
    guid'.toList_b]
  constructor
  · intro h
    obtain ⟨hfirst, h⟩ := List.append_inj h (by simp [hexByte])
    obtain ⟨hsecond, h⟩ := List.append_inj (List.append_cancel_left h) (by simp [hexByte])
    have hthird : digit (guid.b[7].toNat / 16) = digit (guid'.b[7].toNat / 16) :=
      List.singleton_inj.mp (List.append_cancel_left h)
    have hvalue := value_digit (d := guid.b[7].toNat / 16) (by omega)
    rw [hthird, value_digit (by omega)] at hvalue
    have hbytes : [guid.b[3], guid.b[2], guid.b[1], guid.b[0]] =
        [guid'.b[3], guid'.b[2], guid'.b[1], guid'.b[0]] := (flatMap_fixed_inj (by simp)).mp hfirst
    have hbytes' : [guid.b[5], guid.b[4]] = [guid'.b[5], guid'.b[4]] :=
      (flatMap_fixed_inj (by simp)).mp hsecond
    simp only [List.cons.injEq, and_true] at hbytes hbytes'
    simp [hbytes, hbytes', Option.some.inj hvalue]
  · rintro ⟨hbytes, hhigh⟩
    simp only [List.cons_append, List.nil_append, List.take_succ_cons, List.take_zero,
      List.cons.injEq, and_true] at hbytes
    simp [hbytes, hhigh]

/-! ## Main result -/

/-- The canonical text is written, with a NUL behind it. -/
def WritesCanonicalText (buffer : List UInt8) (guid : EfiGuid) : Prop :=
  canonicalText guid ++ [0] <+: guid2str buffer guid

/-- What is written can be decoded. -/
def DecodesBack (buffer : List UInt8) (guid : EfiGuid) : Prop :=
  decode (cString (guid2str buffer guid)) = some guid

/-- No other GUID has the text. -/
def TellsApart (buffer : List UInt8) (guid : EfiGuid) : Prop :=
  ∀ guid', cString (guid2str buffer guid') = cString (guid2str buffer guid) → guid' = guid

/-- The path names the variable with the whole text of the GUID. -/
def NamesVariable (buf : Vector UInt8 GUID_STR_MAX) (var_name : Str) : Prop :=
  efiVarPath buf var_name =
    EFIVARS_DIR ++ lit "/" ++ cString var_name.m_buffer ++ lit "-" ++ canonicalText VENDOR_GUID

/-- The size given to `snprintf` is 16, so that fifteen characters are written for every GUID. -/
theorem length_text_guid2str (buffer : List UInt8) (guid : EfiGuid) :
    (cString (guid2str buffer guid)).length = 15 := by
  rw [text_guid2str, List.length_take, length_canonicalText]
  rfl

/-- What is written is never the canonical form, as it is too short. -/
theorem not_writesCanonicalText (buffer : List UInt8) (guid : EfiGuid) :
    ¬ WritesCanonicalText buffer guid := by
  rintro ⟨rest, hrest⟩
  have htext : cString (guid2str buffer guid) = canonicalText guid := by
    have hnot : ∀ b ∈ canonicalText guid, decide (b ≠ 0) = true := by
      intro b hb
      rw [decide_eq_true_iff]
      rintro rfl
      exact zero_not_mem_canonicalText guid hb
    rw [← hrest, List.append_assoc, cString, List.takeWhile_append_of_pos hnot]
    simp
  have hlength := length_text_guid2str buffer guid
  rw [htext, length_canonicalText] at hlength
  omega

/-- A text that can be decoded has 36 characters. -/
theorem length_of_decode {text : List UInt8} {guid : EfiGuid} (h : decode text = some guid) :
    text.length = 36 := by
  unfold decode at h
  split at h
  next a b c d e hsplit =>
    simp only [Option.bind_eq_bind, Option.bind_eq_some_iff] at h
    obtain ⟨_, ha, _, hb, _, hc, _, hd, _, he, -⟩ := h
    have htext : [45].intercalate (text.splitOn 45) = text := List.intercalate_splitOn 45
    rw [hsplit] at htext
    rw [← htext]
    simp [List.intercalate, length_of_readBytes ha, length_of_readBytes hb, length_of_readBytes hc,
      length_of_readBytes hd, length_of_readBytes he]
  next => exact absurd h (by simp)

/-- What is written never decodes, as it is too short. -/
theorem not_decodesBack (buffer : List UInt8) (guid : EfiGuid) : ¬ DecodesBack buffer guid := by
  intro h
  have hlength := length_of_decode h
  rw [length_text_guid2str] at hlength
  omega

/-- The GUID that differs in the last byte has the same text. -/
theorem not_tellsApart (buffer : List UInt8) (guid : EfiGuid) : ¬ TellsApart buffer guid := by
  intro h
  let last : UInt8 := guid.b[15]
  let guid' : EfiGuid := ⟨guid.b.set 15 (last + 1)⟩
  have hfirst : guid'.b.toList.take 6 = guid.b.toList.take 6 := by
    rw [Vector.toList_set, List.take_set_of_le (by omega)]
  have hshown : guid'.b.toList.take 6 = guid.b.toList.take 6 ∧
      guid'.b[7].toNat / 16 = guid.b[7].toNat / 16 := ⟨hfirst, by simp [guid']⟩
  have heq : guid' = guid := h guid' ((text_eq_iff buffer buffer guid' guid).mpr hshown)
  have hlast : guid'.b[15] = guid.b[15] := by rw [heq]
  simp [guid', last] at hlast

/-- What is read back from a buffer is no longer than what was formatted. -/
theorem length_cString_snprintf_le (buffer text : List UInt8) (size : Nat) :
    (cString (snprintf buffer (size + 1) text)).length ≤ text.length := by
  have htake : (text.take size).length ≤ text.length := by
    rw [List.length_take]
    exact Nat.min_le_right _ _
  rw [snprintf, cString, List.takeWhile_append]
  split
  next => simp
  next => exact (List.takeWhile_prefix _).length_le.trans htake

/-- The path of a variable never ends with the canonical form of its vendor. -/
theorem not_namesVariable (buf : Vector UInt8 GUID_STR_MAX) (var_name : Str) :
    ¬ NamesVariable buf var_name := by
  intro h
  have hlength : (efiVarPath buf var_name).length ≤ _ := length_cString_snprintf_le _ _ 4095
  rw [h] at hlength
  simp only [List.length_append, length_canonicalText, length_text_guid2str] at hlength
  omega

/-- **No GUID is encoded faithfully**: for every one the text is not the canonical one, it cannot be
decoded, another GUID has it too, and no variable is named with the whole text. All parts come from one
cause, the size that is given to `snprintf`: what is written has fifteen characters for every GUID. -/
theorem guid2str_never_faithful (buf : Vector UInt8 GUID_STR_MAX) (guid : EfiGuid) (var_name : Str) :
    ¬ WritesCanonicalText buf.toList guid ∧ ¬ DecodesBack buf.toList guid ∧
      ¬ TellsApart buf.toList guid ∧ ¬ NamesVariable buf var_name :=
  ⟨not_writesCanonicalText _ guid, not_decodesBack _ guid, not_tellsApart _ guid,
    not_namesVariable buf var_name⟩

/-- The vendor's GUID is written as `193dfefa-a445-4`. -/
theorem not_guid2str_faithful_vendor :
    ¬ ∀ (buf : Vector UInt8 GUID_STR_MAX) (guid : EfiGuid) (var_name : Str),
      WritesCanonicalText buf.toList guid ∧ DecodesBack buf.toList guid ∧
        TellsApart buf.toList guid ∧ NamesVariable buf var_name := by
  intro h
  exact not_writesCanonicalText _ VENDOR_GUID (h (.replicate GUID_STR_MAX 0) VENDOR_GUID .empty).1

end Irstessi
