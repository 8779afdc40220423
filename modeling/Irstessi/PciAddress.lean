import Irstessi.Ascii
import Mathlib.Data.List.DropRight
import Mathlib.Data.Nat.Digits.Lemmas

/-!
# PCI addresses in paths

The last component of a path is cut at two colons and a dot, and the four parts are read as hexadecimal
numbers by a stream. A part that is no number is read as 0, and the address is reported all the same.

* `parsePciAddress`, `nvmeBdfAddress`: the two parsers.
* `IsBdf`: addresses of the form `domain:bus:device.function`.
* **`parsesExactly_iff`**: the addresses are parsed exactly iff the parts are numbers that fit, and a
  path without a slash is no address.

The two parsers cut the component in the same way and differ in what they do with a path that cannot be
cut. `fromHex` is what a stream reads into a 32-bit number: 0 where there are no digits, and the
greatest number where they do not fit, so that nothing is ever refused. `FourFields` says that a
component consists of four texts with the separators between them; there is at most one such row, and
`IsBdf` asks in addition that the texts are numbers that fit. The parsers find the separators by
characters, which is why the parts must be well-formed.
-/

namespace Irstessi

open Occurrence

/-! ## Parsers -/

/-- Source: `ssi.h` `SSI_ScsiAddress` -/
structure SSI_ScsiAddress where
  host : UInt8
  bus : UInt8
  target : UInt8
  lun : UInt8
  deriving DecidableEq, Repr

/-- Source: `ssi.h` `SSI_BdfAddress` -/
structure SSI_BdfAddress where
  domain : UInt32
  bus : UInt8
  device : UInt8
  function : UInt8
  deriving DecidableEq, Repr

/-- Source: `ssi.h` `SSI_Address` -/
structure SSI_Address where
  scsiAddress : SSI_ScsiAddress
  sasAddressPresent : Bool
  sasAddress : UInt64
  bdfAddressPresent : Bool
  bdfAddress : SSI_BdfAddress
  deriving DecidableEq, Repr

/-- A text without `0x` in front. -/
def dropHexMark : List UInt8 → List UInt8
  | 48 :: b :: buf => if b = 120 ∨ b = 88 then buf else 48 :: b :: buf
  | buf => buf

/-- `sin >> hex >> x` for an `unsigned int x`: blanks, a sign, an optional `0x`, and digits. Without
digits the result is 0, and a number that does not fit becomes the greatest one. Where only blanks are
left, nothing is extracted and `x` stays as it was. -/
def extractHex (buf : List UInt8) (x : UInt32) : UInt32 :=
  match buf.dropWhile Str.isSpace with
  | [] => x
  | b :: buf =>
      let negative := b = 45
      let value := Str.digits 16 0 (dropHexMark (if b = 45 ∨ b = 43 then buf else b :: buf))
      if 2 ^ 32 ≤ value then .ofNat (2 ^ 32 - 1)
      else if negative then -.ofNat value
      else .ofNat value

/-- Source: `utils.cpp` `from_hex` -/
def fromHex (hexNumber : Str) : UInt32 := extractHex hexNumber.m_buffer 0

/-- The parts of the last component `addr`; `none` is an exception.
Source: `utils.cpp` `parse_pci_address` -/
def componentParts (addr : Str) : Option (Str × Str × Str × Str) := do
  let first ← addr.find (lit ":") 0
  let domain := addr.left first
  let addr := addr.right (first + 1)
  let second ← addr.find (lit ":") 0
  let bus := addr.left second
  let addr := addr.right (second + 1)
  let dot ← addr.find (lit ".") 0
  let device := addr.left dot
  let function := addr.right (dot + 1)
  pure (domain, bus, device, function)

/-- The parts that are read as numbers.
Source: `utils.cpp` `parse_pci_address` -/
def addressParts (path : Str) : Option (Str × Str × Str × Str) := do
  let slash ← path.reverseFind (lit "/") (npos path.m_buffer)
  componentParts (path.right (slash + 1))

/-- Source: `utils.cpp` `parse_pci_address` -/
def parsePciAddress (path : Str) : SSI_Address :=
  let (bdfAddressPresent, bdfAddress) :=
    match addressParts path with
    | some (domain, bus, device, function) =>
        (true, ⟨fromHex domain, (fromHex bus).toUInt8, (fromHex device).toUInt8,
          (fromHex function).toUInt8⟩)
    | none => (false, ⟨0, 0, 0, 0⟩)
  { scsiAddress := ⟨0, 0, 0, 0⟩
    sasAddressPresent := false
    sasAddress := 0
    bdfAddressPresent
    bdfAddress }

/-- The `m_BDFAddress` of a disk. The variable that a number is read into has not been initialised: `x`
is what it holds at each of the four times.
Source: `nvme_disk.cpp` `NVME_Disk::discover`, `from_hex` -/
def nvmeBdfAddress (m_Path : Str) (x : Fin 4 → UInt32) : SSI_BdfAddress :=
  let bdfAddress := m_Path.reverseAfter (.ofLit "/")
  let domain := extractHex (bdfAddress.leftOf (lit ":")).m_buffer (x 0)
  let bdfAddress := bdfAddress.after (.ofLit ":")
  let bus := extractHex (bdfAddress.leftOf (lit ":")).m_buffer (x 1)
  let bdfAddress := bdfAddress.after (.ofLit ":")
  let device := extractHex (bdfAddress.leftOf (lit ".")).m_buffer (x 2)
  let bdfAddress := bdfAddress.after (.ofLit ".")
  let function := extractHex bdfAddress.m_buffer (x 3)
  ⟨domain, bus.toUInt8, device.toUInt8, function.toUInt8⟩

/-! ## Addresses -/

/-- What stands behind the last slash, all of the text if there is none. -/
def lastComponent (text : List UInt8) : List UInt8 := text.rtakeWhile (· ≠ 47)

/-- The hexadecimal digits. -/
def hexDigits : List UInt8 := lit "0123456789abcdefABCDEF"

/-- The value of a text of hexadecimal digits, the highest digit first. -/
def hexNumber (field : List UInt8) : Nat :=
  Nat.ofDigits 16 (field.reverse.map fun b => (Str.digitValue 16 b).getD 0)

/-- A number of at most `w` bits. -/
structure IsField (w : Nat) (field : List UInt8) : Prop where
  ne_nil : field ≠ []
  digits : ∀ b ∈ field, b ∈ hexDigits
  fits : hexNumber field < 2 ^ w

/-- The text has the separators of an address: a colon, another one, and a dot behind them. -/
structure FourFields (component domain bus device function : List UInt8) : Prop where
  component_eq : component = domain ++ 58 :: (bus ++ 58 :: (device ++ 46 :: function))
  domain : 58 ∉ domain
  bus : 58 ∉ bus
  device : 46 ∉ device

/-- The four parts are numbers that fit. -/
structure AreFields (domain bus device function : List UInt8) : Prop where
  domain : IsField 32 domain
  bus : IsField 8 bus
  device : IsField 8 device
  function : IsField 8 function

/-- A text of the form `domain:bus:device.function`. -/
def IsBdf (component domain bus device function : List UInt8) : Prop :=
  component = domain ++ 58 :: (bus ++ 58 :: (device ++ 46 :: function)) ∧
    AreFields domain bus device function

/-- The numbers that the fields stand for. -/
def bdfAddressOf (domain bus device function : List UInt8) : SSI_BdfAddress :=
  ⟨.ofNat (hexNumber domain), .ofNat (hexNumber bus), .ofNat (hexNumber device),
    .ofNat (hexNumber function)⟩

/-- An address is reported iff the last component is one, with the values of its fields, as a disk has
them too; else the fields are zero. -/
structure ParsesExactly (path : Str) : Prop where
  present_iff : (parsePciAddress path).bdfAddressPresent = true ↔
    ∃ domain bus device function, IsBdf (lastComponent path.m_buffer) domain bus device function
  values : ∀ domain bus device function,
    IsBdf (lastComponent path.m_buffer) domain bus device function →
      (parsePciAddress path).bdfAddress = bdfAddressOf domain bus device function ∧
        ∀ x, nvmeBdfAddress path x = (parsePciAddress path).bdfAddress
  absent : (parsePciAddress path).bdfAddressPresent = false →
    (parsePciAddress path).bdfAddress = ⟨0, 0, 0, 0⟩

/-- Where there is a slash, the parts between the separators are numbers that fit; without a slash the
path is no address. -/
structure HasFields (path : Str) : Prop where
  fields : 47 ∈ path.m_buffer → ∀ domain bus device function,
    FourFields (lastComponent path.m_buffer) domain bus device function →
      AreFields domain bus device function
  no_slash : 47 ∉ path.m_buffer → ∀ domain bus device function,
    ¬ IsBdf path.m_buffer domain bus device function

/-! ## Numbers -/

/-- A hexadecimal digit of the text has a value for the conversion. -/
theorem isSome_digitValue {b : UInt8} (h : b ∈ hexDigits) : (Str.digitValue 16 b).isSome := by
  have hall : ∀ b ∈ hexDigits, (Str.digitValue 16 b).isSome = true := by decide +kernel
  exact hall b h

/-- Reading a field of hexadecimal digits goes on from what has been read in front of it. -/
theorem digits_eq_ofDigits {field : List UInt8} (h : ∀ b ∈ field, b ∈ hexDigits) (acc : Nat) :
    Str.digits 16 acc field = 16 ^ field.length * acc + hexNumber field := by
  induction field generalizing acc with
  | nil => simp [Str.digits, hexNumber]
  | cons b field ih =>
      obtain ⟨v, hv⟩ := Option.isSome_iff_exists.mp (isSome_digitValue (h b List.mem_cons_self))
      have hrest := ih (fun c hc => h c (List.mem_cons_of_mem _ hc)) (acc * 16 + v)
      rw [Str.digits, hv]
      dsimp only
      rw [hrest, hexNumber, hexNumber, List.reverse_cons, List.map_append, Nat.ofDigits_append,
        List.length_map, List.length_reverse, List.map_singleton, hv, Option.getD_some,
        Nat.ofDigits_singleton, List.length_cons]
      ring

/-- A hexadecimal digit is no blank, no sign and not part of `0x`. -/
theorem not_mark_of_mem {b : UInt8} (h : b ∈ hexDigits) :
    Str.isSpace b = false ∧ b ≠ 45 ∧ b ≠ 43 ∧ b ≠ 120 ∧ b ≠ 88 := by
  have hall : ∀ b ∈ hexDigits, Str.isSpace b = false ∧ b ≠ 45 ∧ b ≠ 43 ∧ b ≠ 120 ∧ b ≠ 88 := by
    decide +kernel
  exact hall b h

/-- A field of digits has no `0x` in front, so that nothing is dropped. -/
theorem dropHexMark_eq_self {field : List UInt8} (h : ∀ b ∈ field, b ∈ hexDigits) :
    dropHexMark field = field := by
  unfold dropHexMark
  split
  next b rest =>
    obtain ⟨-, -, -, hx, hX⟩ := not_mark_of_mem (h b (by simp))
    rw [if_neg (not_or.mpr ⟨hx, hX⟩)]
  next => rfl

/-- A stream reads a field as the number that it is, whatever the variable holds. -/
theorem extractHex_field {w : Nat} {field : List UInt8} (h : IsField w field) (hw : w ≤ 32)
    (x : UInt32) : extractHex field x = .ofNat (hexNumber field) := by
  obtain ⟨b, rest, rfl⟩ := List.exists_cons_of_ne_nil h.ne_nil
  obtain ⟨hspace, hminus, hplus, -⟩ := not_mark_of_mem (h.digits b List.mem_cons_self)
  have hfits : ¬ 2 ^ 32 ≤ hexNumber (b :: rest) :=
    Nat.not_le.mpr (h.fits.trans_le (Nat.pow_le_pow_right (by omega) hw))
  unfold extractHex
  rw [List.dropWhile_cons_of_neg (by rw [hspace]; exact Bool.false_ne_true)]
  dsimp only
  rw [if_neg (not_or.mpr ⟨hminus, hplus⟩), dropHexMark_eq_self h.digits, digits_eq_ofDigits h.digits,
    Nat.mul_zero, Nat.zero_add, if_neg hfits, if_neg (by simpa using hminus)]

/-- No separator is in a field. -/
theorem IsField.not_mem {w : Nat} {field : List UInt8} (h : IsField w field) {b : UInt8}
    (hb : b ∉ hexDigits) : b ∉ field := fun hmem => hb (h.digits b hmem)

/-- A component in the form of an address has four fields with their separators. -/
theorem IsBdf.separated {component domain bus device function : List UInt8}
    (h : IsBdf component domain bus device function) :
    FourFields component domain bus device function :=
  ⟨h.1, h.2.domain.not_mem (by decide), h.2.bus.not_mem (by decide), h.2.device.not_mem (by decide)⟩

/-! ## The parts of a path -/

section cutting

variable {b : UInt8} {t u v : List UInt8}

/-- Where the separator is first found, and the texts on its two sides. -/
theorem exists_find_separator (hb : b < 0x7f) (hu : WellFormed u) (hv : WellFormed v) (hmem : b ∉ u) :
    ∃ n, (Str.ofBytes (u ++ b :: v)).find [b] 0 = some n ∧
      (Str.ofBytes (u ++ b :: v)).left n = .ofBytes u ∧
      (Str.ofBytes (u ++ b :: v)).right (n + 1) = .ofBytes v := by
  obtain ⟨l, hl, rfl⟩ := hu
  obtain ⟨r, hr, rfl⟩ := hv
  exact ⟨l.length, Str.find_separator hb hl hr hmem, Str.left_separator hb hl hr,
    Str.right_separator hb hl hr⟩

/-- A byte that is not in the text is not found from the left. -/
theorem find_eq_none (ht : WellFormed t) (hmem : b ∉ t) : (Str.ofBytes t).find [b] 0 = none := by
  rw [← Option.not_isSome_iff_eq_none, Str.find_isSome_iff, Str.ofBytes_buffer ht]
  exact fun hoccurs => hmem (hoccurs.subset List.mem_cons_self)

/-- A byte that is not in the text is not found from the right. -/
theorem reverseFind_eq_none (ht : WellFormed t) (hmem : b ∉ t) (k : Nat) :
    (Str.ofBytes t).reverseFind [b] k = none := by
  rw [Str.reverseFind, Str.reverseFindByte, Str.ofBytes_buffer ht, Option.map_eq_none_iff]
  split
  next => rfl
  next =>
    by_contra hsome
    obtain ⟨p, hp⟩ := Option.ne_none_iff_exists'.mp hsome
    have hle : distance t (utf8Offset t k) ≤ t.length := Nat.sub_le _ _
    have hat := ((rfindPos_eq_some_iff ((Nat.sub_le _ _).trans hle)).mp hp).2.1
    have hoccurs := exists_at_iff_infix.mp ⟨p, hat⟩
    exact hmem (hoccurs.subset List.mem_cons_self)

end cutting

/-- A path without a slash is its own last component. -/
theorem lastComponent_of_not_mem {text : List UInt8} (h : 47 ∉ text) : lastComponent text = text := by
  refine List.rtakeWhile_eq_self_iff.mpr fun b hb => decide_eq_true ?_
  rintro rfl
  exact h hb

/-- The last component stands behind a slash and has none. -/
theorem exists_lastComponent {text : List UInt8} (h : 47 ∈ text) :
    ∃ u, text = u ++ 47 :: lastComponent text ∧ 47 ∉ lastComponent text := by
  have hnone : 47 ∉ lastComponent text := fun hmem => by simpa using List.mem_rtakeWhile_imp hmem
  have hcut : text.rdropWhile (· ≠ 47) ++ lastComponent text = text :=
    List.rdropWhile_append_rtakeWhile
  have hne : text.rdropWhile (· ≠ 47) ≠ [] := by
    intro hnil
    rw [hnil, List.nil_append] at hcut
    rw [hcut] at hnone
    exact hnone h
  have hlast : (text.rdropWhile (· ≠ 47)).getLast hne = 47 := by
    simpa using List.rdropWhile_last_not (· ≠ 47) text hne
  refine ⟨(text.rdropWhile (· ≠ 47)).dropLast, ?_, hnone⟩
  nth_rewrite 1 [← hcut, ← List.dropLast_append_getLast hne, hlast]
  rw [List.append_assoc, List.singleton_append]

/-- A text that has not the separators of an address lacks one that is searched for. -/
theorem fourFields_or (component : List UInt8) :
    (∃ domain bus device function, FourFields component domain bus device function) ∨
      58 ∉ component ∨
      (∃ u v, component = u ++ 58 :: v ∧ 58 ∉ u ∧ 58 ∉ v) ∨
      ∃ u v w, component = u ++ 58 :: (v ++ 58 :: w) ∧ 58 ∉ u ∧ 58 ∉ v ∧ 46 ∉ w := by
  by_cases hfirst : 58 ∈ component
  · obtain ⟨domain, rest, rfl, hdomain⟩ := List.eq_append_cons_of_mem hfirst
    by_cases hsecond : 58 ∈ rest
    · obtain ⟨bus, rest, rfl, hbus⟩ := List.eq_append_cons_of_mem hsecond
      by_cases hdot : 46 ∈ rest
      · obtain ⟨device, function, rfl, hdevice⟩ := List.eq_append_cons_of_mem hdot
        exact .inl ⟨domain, bus, device, function, rfl, hdomain, hbus, hdevice⟩
      · exact .inr (.inr (.inr ⟨domain, bus, rest, rfl, hdomain, hbus, hdot⟩))
    · exact .inr (.inr (.inl ⟨domain, rest, rfl, hdomain, hsecond⟩))
  · exact .inr (.inl hfirst)

/-- What is searched for first cuts the text in one way only. -/
theorem append_cons_unique {b : UInt8} {u u' v v' : List UInt8} (hu : b ∉ u) (hu' : b ∉ u')
    (h : u ++ b :: v = u' ++ b :: v') : u = u' ∧ v = v' := by
  have htake := congrArg (List.takeWhile (· ≠ b)) h
  have hkeep : ∀ {w z : List UInt8}, b ∉ w → (w ++ b :: z).takeWhile (· ≠ b) = w := by
    intro w z hw
    rw [List.takeWhile_append_of_pos (fun c hc => decide_eq_true (ne_of_mem_of_not_mem hc hw)),
      List.takeWhile_cons_of_neg (by simp), List.append_nil]
  rw [hkeep hu, hkeep hu'] at htake
  subst htake
  exact ⟨rfl, List.tail_eq_of_cons_eq (List.append_cancel_left h)⟩

/-- The four fields of a component are determined by it: none of them contains a separator that is
searched for. -/
theorem FourFields.unique {component domain bus device function domain' bus' device' function' : List UInt8}
    (h : FourFields component domain bus device function)
    (h' : FourFields component domain' bus' device' function') :
    domain = domain' ∧ bus = bus' ∧ device = device' ∧ function = function' := by
  have heq := h.component_eq.symm.trans h'.component_eq
  obtain ⟨hdomain, hrest⟩ := append_cons_unique h.domain h'.domain heq
  obtain ⟨hbus, hrest'⟩ := append_cons_unique h.bus h'.bus hrest
  obtain ⟨hdevice, hfunction⟩ := append_cons_unique h.device h'.device hrest'
  exact ⟨hdomain, hbus, hdevice, hfunction⟩

/-- The parts of a well-formed text, and what stands behind the first two colons. -/
structure PartsWellFormed (domain bus device function : List UInt8) : Prop where
  domain : WellFormed domain
  behindDomain : WellFormed (bus ++ 58 :: (device ++ 46 :: function))
  bus : WellFormed bus
  behindBus : WellFormed (device ++ 46 :: function)
  device : WellFormed device
  function : WellFormed function

/-- The fields of a well-formed component are well-formed texts. -/
theorem FourFields.partsWellFormed {component domain bus device function : List UInt8}
    (h : FourFields component domain bus device function) (hcomponent : WellFormed component) :
    PartsWellFormed domain bus device function := by
  rw [h.component_eq] at hcomponent
  obtain ⟨hdomain, hrest⟩ := (wellFormed_append_cons_iff colon_lt).mp hcomponent
  obtain ⟨hbus, hrest'⟩ := (wellFormed_append_cons_iff colon_lt).mp hrest
  obtain ⟨hdevice, hfunction⟩ := (wellFormed_append_cons_iff dot_lt).mp hrest'
  exact ⟨hdomain, hrest, hbus, hrest', hdevice, hfunction⟩

section parts

variable {component : List UInt8} (hcomponent : WellFormed component)

include hcomponent

/-- The searches of the source cut a component with four fields into exactly these. -/
theorem componentParts_separated {domain bus device function : List UInt8}
    (h : FourFields component domain bus device function) :
    componentParts (.ofBytes component) =
      some (.ofBytes domain, .ofBytes bus, .ofBytes device, .ofBytes function) := by
  have hparts := h.partsWellFormed hcomponent
  obtain ⟨first, hfirst, hleft, hright⟩ :=
    exists_find_separator colon_lt hparts.domain hparts.behindDomain h.domain
  obtain ⟨second, hsecond, hleft', hright'⟩ :=
    exists_find_separator colon_lt hparts.bus hparts.behindBus h.bus
  obtain ⟨dot, hdot, hleft'', hright''⟩ :=
    exists_find_separator dot_lt hparts.device hparts.function h.device
  rw [h.component_eq]
  have hcolon : lit ":" = [58] := by decide
  have hperiod : lit "." = [46] := by decide
  simp only [componentParts, hcolon, hperiod, hfirst, hleft, hright, hsecond, hleft', hright', hdot,
    hleft'', hright'', Option.bind_eq_bind, Option.bind_some, Option.pure_def]

/-- Without the separators a search throws. -/
theorem componentParts_eq_none
    (h : ∀ domain bus device function, ¬ FourFields component domain bus device function) :
    componentParts (.ofBytes component) = none := by
  have hcolon : lit ":" = [58] := by decide
  have hperiod : lit "." = [46] := by decide
  rcases fourFields_or component with ⟨domain, bus, device, function, hsep⟩ | hfirst |
    ⟨u, v, rfl, hu, hv⟩ | ⟨u, v, w, rfl, hu, hv, hw⟩
  · exact absurd hsep (h domain bus device function)
  · simp only [componentParts, hcolon, find_eq_none hcomponent hfirst, Option.bind_eq_bind,
      Option.bind_none]
  · obtain ⟨hwu, hwv⟩ := (wellFormed_append_cons_iff colon_lt).mp hcomponent
    obtain ⟨first, hfirst, -, hright⟩ := exists_find_separator colon_lt hwu hwv hu
    simp only [componentParts, hcolon, hfirst, hright, find_eq_none hwv hv, Option.bind_eq_bind,
      Option.bind_some, Option.bind_none]
  · obtain ⟨hwu, hrest⟩ := (wellFormed_append_cons_iff colon_lt).mp hcomponent
    obtain ⟨hwv, hww⟩ := (wellFormed_append_cons_iff colon_lt).mp hrest
    obtain ⟨first, hfirst, -, hright⟩ := exists_find_separator colon_lt hwu hrest hu
    obtain ⟨second, hsecond, -, hright'⟩ := exists_find_separator colon_lt hwv hww hv
    simp only [componentParts, hcolon, hperiod, hfirst, hright, hsecond, hright',
      find_eq_none hww hw, Option.bind_eq_bind, Option.bind_some, Option.bind_none]

end parts

section path

variable {path : Str} (hpath : path.Constructed)

include hpath

/-- The last component of a path with a slash, as both parsers cut it off. -/
theorem exists_slash (hslash : 47 ∈ path.m_buffer) :
    WellFormed (lastComponent path.m_buffer) ∧
      addressParts path = componentParts (.ofBytes (lastComponent path.m_buffer)) ∧
      path.reverseAfter (.ofLit "/") = .ofBytes (lastComponent path.m_buffer) := by
  obtain ⟨u, htext, hnone⟩ := exists_lastComponent hslash
  have hwell := hpath.wellFormed
  rw [htext] at hwell
  obtain ⟨hu, hcomponent⟩ := (wellFormed_append_cons_iff slash_lt).mp hwell
  have hsep : lit "/" = [47] := by decide
  generalize lastComponent path.m_buffer = component at *
  refine ⟨hcomponent, ?_, ?_⟩
  · obtain ⟨l, hl, rfl⟩ := hu
    obtain ⟨r, hr, rfl⟩ := hcomponent
    rw [addressParts, hpath, htext, hsep, Str.reverseFind_separator slash_lt hl hr hnone,
      Option.bind_eq_bind, Option.bind_some, Str.right_separator slash_lt hl hr]
  · rw [hpath, htext, Str.ofLit, hsep]
    exact Str.reverseAfter_separator slash_lt hu hcomponent hnone

/-- Without a slash in the path no address is looked for. -/
theorem addressParts_of_not_mem (hslash : 47 ∉ path.m_buffer) : addressParts path = none := by
  have hsep : lit "/" = [47] := by decide
  rw [addressParts, hsep]
  nth_rewrite 1 [hpath]
  rw [reverseFind_eq_none hpath.wellFormed hslash, Option.bind_eq_bind, Option.bind_none]

/-- What a disk decodes where the separators are there. -/
theorem nvmeBdfAddress_separated (hslash : 47 ∈ path.m_buffer)
    {domain bus device function : List UInt8}
    (h : FourFields (lastComponent path.m_buffer) domain bus device function) (x : Fin 4 → UInt32) :
    nvmeBdfAddress path x =
      ⟨extractHex domain (x 0), (extractHex bus (x 1)).toUInt8, (extractHex device (x 2)).toUInt8,
        (extractHex function (x 3)).toUInt8⟩ := by
  obtain ⟨hcomponent, -, hlast⟩ := exists_slash hpath hslash
  have hparts := h.partsWellFormed hcomponent
  rw [h.component_eq] at hlast
  have hcolon : lit ":" = [58] := by decide
  have hperiod : lit "." = [46] := by decide
  unfold nvmeBdfAddress
  dsimp only
  rw [hlast, Str.ofLit, Str.ofLit, hcolon, hperiod,
    Str.leftOf_separator colon_lt hparts.domain hparts.behindDomain h.domain,
    Str.after_separator colon_lt hparts.domain hparts.behindDomain h.domain,
    Str.leftOf_separator colon_lt hparts.bus hparts.behindBus h.bus,
    Str.after_separator colon_lt hparts.bus hparts.behindBus h.bus,
    Str.leftOf_separator dot_lt hparts.device hparts.function h.device,
    Str.after_separator dot_lt hparts.device hparts.function h.device,
    Str.ofBytes_buffer hparts.domain, Str.ofBytes_buffer hparts.bus, Str.ofBytes_buffer hparts.device,
    Str.ofBytes_buffer hparts.function]

/-- What is reported where the separators are there. -/
theorem parsePciAddress_separated (hslash : 47 ∈ path.m_buffer)
    {domain bus device function : List UInt8}
    (h : FourFields (lastComponent path.m_buffer) domain bus device function) :
    (parsePciAddress path).bdfAddressPresent = true ∧
      (parsePciAddress path).bdfAddress =
        ⟨extractHex domain 0, (extractHex bus 0).toUInt8, (extractHex device 0).toUInt8,
          (extractHex function 0).toUInt8⟩ := by
  obtain ⟨hcomponent, haddress, -⟩ := exists_slash hpath hslash
  have hparts := h.partsWellFormed hcomponent
  rw [parsePciAddress, haddress, componentParts_separated hcomponent h]
  dsimp only
  rw [fromHex, fromHex, fromHex, fromHex, Str.ofBytes_buffer hparts.domain, Str.ofBytes_buffer hparts.bus,
    Str.ofBytes_buffer hparts.device, Str.ofBytes_buffer hparts.function]
  exact ⟨rfl, rfl⟩

/-- An address is reported iff there are a slash and the separators behind it. -/
theorem bdfAddressPresent_iff :
    (parsePciAddress path).bdfAddressPresent = true ↔
      47 ∈ path.m_buffer ∧ ∃ domain bus device function,
        FourFields (lastComponent path.m_buffer) domain bus device function := by
  constructor
  · intro hpresent
    by_cases hslash : 47 ∈ path.m_buffer
    · obtain ⟨hcomponent, hparts, -⟩ := exists_slash hpath hslash
      refine ⟨hslash, ?_⟩
      by_contra hnone
      push Not at hnone
      rw [parsePciAddress, hparts, componentParts_eq_none hcomponent hnone] at hpresent
      cases hpresent
    · rw [parsePciAddress, addressParts_of_not_mem hpath hslash] at hpresent
      cases hpresent
  · rintro ⟨hslash, domain, bus, device, function, h⟩
    exact (parsePciAddress_separated hpath hslash h).1

end path

/-- Where no address is present all four numbers are 0. -/
theorem bdfAddress_absent (path : Str) (h : (parsePciAddress path).bdfAddressPresent = false) :
    (parsePciAddress path).bdfAddress = ⟨0, 0, 0, 0⟩ := by
  unfold parsePciAddress at h ⊢
  rcases hparts : addressParts path with _ | ⟨domain, bus, device, function⟩
  · rfl
  · rw [hparts] at h
    cases h

/-- The addresses are parsed exactly iff the parts between the separators are fields, and a path without
a slash is no address. A part may have leading zeros and letters of both cases; what is asked is that it
has a digit and no other bytes, and that its number fits into the field of the address, which has 32
bits for the domain and 8 bits for the others. -/
theorem parsesExactly_iff (path : Str) (hpath : path.Constructed) :
    ParsesExactly path ↔ HasFields path := by
  constructor
  · intro h
    constructor
    · intro hslash domain bus device function hsep
      obtain ⟨domain', bus', device', function', hbdf⟩ := h.present_iff.mp
        ((bdfAddressPresent_iff hpath).mpr ⟨hslash, domain, bus, device, function, hsep⟩)
      obtain ⟨rfl, rfl, rfl, rfl⟩ := hsep.unique hbdf.separated
      exact hbdf.2
    · intro hslash domain bus device function hbdf
      rw [← lastComponent_of_not_mem hslash] at hbdf
      exact hslash ((bdfAddressPresent_iff hpath).mp
        (h.present_iff.mpr ⟨domain, bus, device, function, hbdf⟩)).1
  · intro h
    have hslash : ∀ domain bus device function,
        IsBdf (lastComponent path.m_buffer) domain bus device function → 47 ∈ path.m_buffer := by
      intro domain bus device function hbdf
      by_contra hslash
      rw [lastComponent_of_not_mem hslash] at hbdf
      exact h.no_slash hslash domain bus device function hbdf
    refine ⟨?_, ?_, bdfAddress_absent path⟩
    · rw [bdfAddressPresent_iff hpath]
      constructor
      · rintro ⟨hslash, domain, bus, device, function, hsep⟩
        exact ⟨domain, bus, device, function, hsep.component_eq,
          h.fields hslash domain bus device function hsep⟩
      · rintro ⟨domain, bus, device, function, hbdf⟩
        exact ⟨hslash _ _ _ _ hbdf, domain, bus, device, function, hbdf.separated⟩
    · intro domain bus device function hbdf
      have hmem := hslash _ _ _ _ hbdf
      obtain ⟨-, hvalues⟩ := parsePciAddress_separated hpath hmem hbdf.separated
      have hdomain := extractHex_field hbdf.2.domain le_rfl
      have hbus := extractHex_field hbdf.2.bus (by decide)
      have hdevice := extractHex_field hbdf.2.device (by decide)
      have hfunction := extractHex_field hbdf.2.function (by decide)
      refine ⟨?_, fun x => ?_⟩
      · rw [hvalues, hdomain, hbus, hdevice, hfunction]
        simp only [UInt32.toUInt8_ofNat', bdfAddressOf]
      · rw [hvalues, nvmeBdfAddress_separated hpath hmem hbdf.separated, hdomain, hdomain, hbus, hbus,
          hdevice, hdevice, hfunction, hfunction]

/-- The path of a controller on a PC. -/
def controllerPath : Str := .ofLit "/sys/devices/pci0000:00/0000:00:1f.2"

/-- The path of a controller as sysfs gives it is parsed exactly. -/
theorem parsesExactly_controllerPath : ParsesExactly controllerPath := by
  have hlast : lastComponent controllerPath.m_buffer = lit "0000:00:1f.2" := by decide +kernel
  have hsep : FourFields (lit "0000:00:1f.2") (lit "0000") (lit "00") (lit "1f") (lit "2") :=
    ⟨by decide +kernel, by decide, by decide, by decide⟩
  refine (parsesExactly_iff controllerPath (Str.constructed_ofBytes _)).mpr ⟨fun _ => ?_, fun hslash => ?_⟩
  · intro domain bus device function h
    rw [hlast] at h
    obtain ⟨rfl, rfl, rfl, rfl⟩ := hsep.unique h
    exact ⟨⟨by decide, by decide +kernel, by decide +kernel⟩, ⟨by decide, by decide +kernel, by decide +kernel⟩,
      ⟨by decide, by decide +kernel, by decide +kernel⟩, ⟨by decide, by decide +kernel, by decide +kernel⟩⟩
  · exact absurd (by decide +kernel) hslash

/-- Every byte of an address that is no separator is a hexadecimal digit. -/
theorem IsBdf.mem_hexDigits {component domain bus device function : List UInt8}
    (h : IsBdf component domain bus device function) {b : UInt8} (hb : b ∈ component) (hcolon : b ≠ 58)
    (hdot : b ≠ 46) : b ∈ hexDigits := by
  rw [h.1] at hb
  simp only [List.mem_append, List.mem_cons, hcolon, hdot, false_or] at hb
  rcases hb with hb | hb | hb | hb
  · exact h.2.domain.digits b hb
  · exact h.2.bus.digits b hb
  · exact h.2.device.digits b hb
  · exact h.2.function.digits b hb

/-- A device that is no number is reported as device 0. -/
theorem not_parsesExactly_zz : ¬ ParsesExactly (.ofLit "/sys/devices/pci0000:00/0000:00:zz.2") := by
  intro h
  obtain ⟨domain, bus, device, function, hbdf⟩ := h.present_iff.mp (by decide +kernel)
  have hlast : lastComponent (Str.ofLit "/sys/devices/pci0000:00/0000:00:zz.2").m_buffer =
      lit "0000:00:zz.2" := by decide +kernel
  rw [hlast] at hbdf
  have hz : 122 ∈ hexDigits := hbdf.mem_hexDigits (by decide +kernel) (by decide) (by decide)
  exact absurd hz (by decide)

end Irstessi
