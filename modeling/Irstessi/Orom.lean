import Irstessi.Lib.Hex
import Irstessi.Lib.Loop
import Mathlib.Data.UInt

/-!
# The scan for option ROMs

`__orom_scan_for_device` takes lengths and offsets from the bytes that it scans.

* `Region`, `Region.byte`, `Region.number`: the mapped region; what lies outside cannot be read.
* `checksum`, `checkForDevice`, `checkForData`, `checkBlock`, `scanForDevice`: the functions.
* `NamesDevice`, `PcirInside`, `BlockInside`, `Hit`: what the bytes of a block say.
* `isSome_checkBlock_iff`, `leaves_checkBlock_iff`: one block.
* **`scanForDevice_inside_iff`**: the scan stays inside the region iff the blocks that it reaches do.

A read of the region either gives a byte or lies outside, and a function that reads outside gives
`none`; that a scan stays inside is that it gives something. For each function there are two lemmas:
when it stays inside, and what it then gives. The list of device ids has no length and ends with a zero,
so that it may run on to the end of the region. A block is examined in the order of the source: its
signature and length, the checksum over its whole length, the device, the version; each is reached only
if what comes before it is as it should be. `Hit` ends the scan.
-/

namespace Irstessi

namespace Orom

open Hex Loop

/-! ## Constants -/

/-- Source: `orom.c` `VIDEO_BIOS_START_ADDR` -/
def VIDEO_BIOS_START_ADDR : Nat := 0x000C0000

/-- Source: `orom.c` `SYSTEM_BIOS_START_ADDR` -/
def SYSTEM_BIOS_START_ADDR : Nat := 0x000F0000

/-- Source: `orom.c` `OROM_PCIR_SIGNATURE` -/
def OROM_PCIR_SIGNATURE : Nat := 0x52494350

/-- Source: `orom.c` `OROM_SVER_SIGNATURE` -/
def OROM_SVER_SIGNATURE : Nat := 0x52455624

/-- Source: `orom.c` `OROM_VALID_SIGNATURE` -/
def OROM_VALID_SIGNATURE : Nat := 0x0000AA55

/-- Source: `orom.c` `OROM_SCAN_STEP` -/
def OROM_SCAN_STEP : Nat := 2048

/-- Source: `orom.c` `OROM_SCAN_LAST` -/
def OROM_SCAN_LAST : Nat := 0x000DFFFF - VIDEO_BIOS_START_ADDR

/-- Source: `orom.c` `OROM_REGION_SIZE` -/
def OROM_REGION_SIZE : Nat := SYSTEM_BIOS_START_ADDR - VIDEO_BIOS_START_ADDR

/-- Source: `orom.c` `OROM_CHUNK_SIZE` -/
def OROM_CHUNK_SIZE : Nat := 512

/-- Source: `orom.h` `INTEL_PCI_VENDOR_ID` -/
def INTEL_PCI_VENDOR_ID : Nat := 0x8086

/-- `sizeof(struct orom_info)`, which is packed.
Source: `orom.h` `struct orom_info` -/
def OROM_INFO_SIZE : Nat := 38

/-! ## The region -/

/-- The content of the mapped region, of which every byte is read without a bus error. -/
abbrev Region : Type := Fin OROM_REGION_SIZE → UInt8

namespace Region

variable (r : Region)

/-- The byte at an offset; `none` is a read outside the region. -/
def byte (i : Nat) : Option UInt8 := if h : i < OROM_REGION_SIZE then some (r ⟨i, h⟩) else none

/-- `n` bytes from an offset on. -/
def bytes : Nat → Nat → Option (List UInt8)
  | 0, _ => some []
  | n + 1, i => do
      let b ← r.byte i
      let rest ← bytes n (i + 1)
      pure (b :: rest)

/-- A number of `n` bytes, the lowest first. -/
def number (n i : Nat) : Option Nat := (r.bytes n i).map ofBytes

/-- A byte can be read iff it lies in the region. -/
theorem isSome_byte_iff (i : Nat) : (r.byte i).isSome ↔ i < OROM_REGION_SIZE := by
  unfold byte
  split
  next h => simp [h]
  next h => simp [h]

/-- A row of bytes can be read iff its first one and the rest can be. -/
theorem isSome_bytes_succ_iff (n i : Nat) :
    (r.bytes (n + 1) i).isSome ↔ (r.byte i).isSome ∧ (r.bytes n (i + 1)).isSome := by
  rw [bytes]
  rcases r.byte i with _ | b
  · simp
  · rcases r.bytes n (i + 1) with _ | rest
    · simp
    · simp

/-- Bytes can be read where the last of them lies inside. -/
theorem isSome_bytes_iff {n : Nat} (hn : 0 < n) (i : Nat) :
    (r.bytes n i).isSome ↔ i + n ≤ OROM_REGION_SIZE := by
  induction n generalizing i with
  | zero => omega
  | succ n ih =>
      rw [isSome_bytes_succ_iff, isSome_byte_iff]
      rcases n with _ | n
      · simp [bytes]
      · rw [ih (Nat.succ_pos n)]
        omega

/-- A number can be read iff all its bytes lie in the region. -/
theorem isSome_number_iff {n : Nat} (hn : 0 < n) (i : Nat) :
    (r.number n i).isSome ↔ i + n ≤ OROM_REGION_SIZE := by
  rw [number, Option.isSome_map, r.isSome_bytes_iff hn]

end Region

/-! ## The functions -/

section functions

variable (r : Region) (device_id : UInt32)

/-- Source: `orom.c` `__orom_checksum`, the loop -/
def checksumLoop : Nat → Nat → UInt8 → Option UInt8
  | 0, _, result => some result
  | n + 1, p, result => do
      let b ← r.byte p
      checksumLoop n (p + 1) (result + b)

/-- Source: `orom.c` `__orom_checksum` -/
def checksum (start length : Nat) : Option UInt8 := checksumLoop r (length * OROM_CHUNK_SIZE) start 0

/-- Whether the device is found in the list at `devid`; the list ends with the first zero.
Source: `orom.c` `__orom_check_for_device`, the inner loop -/
def deviceList (orom_dev_id devid : Nat) : Option Bool :=
  match h : r.number 2 devid with
  | none => none
  | some id =>
      if id = 0 then some false
      else if id = device_id.toNat ∧ orom_dev_id ≠ 0 then some true
      else deviceList orom_dev_id (devid + 2)
termination_by OROM_REGION_SIZE - devid
decreasing_by
  have hinside := (r.isSome_number_iff (n := 2) (by omega) devid).mp (by rw [h]; rfl)
  omega

/-- The number of the option ROM where the PCIR structure at `p` names the device.
Source: `orom.c` `__orom_check_for_device`, the body of the loop -/
def checkWord (p : Nat) : Option (Option Nat) := do
  if (← r.number 4 p) ≠ OROM_PCIR_SIGNATURE then pure none
  else
    let vendor_id := (← r.number 4 (p + 4)) % 2 ^ 16
    let orom_dev_id := (← r.number 4 (p + 4)) / 2 ^ 16
    let devlist_offset := (← r.number 4 (p + 8)) % 2 ^ 16
    if vendor_id = INTEL_PCI_VENDOR_ID then
      if (← deviceList r device_id orom_dev_id (p + devlist_offset)) then pure (some orom_dev_id)
      else pure none
    else pure none

/-- Source: `orom.c` `__orom_check_for_device` -/
def checkForDevice (start length : Nat) : Option Nat :=
  (run (start + length * OROM_CHUNK_SIZE) 4 (checkWord r device_id) start).map fun found =>
    found.getD 0

/-- A node of the cache.
Source: `orom.c` `struct node` -/
structure Node where
  data : List UInt8
  orom_dev_id : Nat
  device_id : UInt32
  deriving DecidableEq, Repr

/-- The copy is made where `malloc` succeeds.
Source: `orom.c` `__orom_add_info` -/
def addInfo (malloc : Bool) (data orom_dev_id : Nat) : Option (Option Node) :=
  if malloc then (r.bytes OROM_INFO_SIZE data).map fun bytes => some ⟨bytes, orom_dev_id, device_id⟩
  else some none

/-- Source: `orom.c` `__orom_check_for_data`, the body of the loop -/
def checkVersion (malloc : Bool) (orom_dev_id p : Nat) : Option (Option (Option Node)) := do
  if (← r.number 4 p) = OROM_SVER_SIGNATURE then
    let result ← addInfo r device_id malloc p orom_dev_id
    pure (some result)
  else pure none

/-- The result is null where the loop is not left.
Source: `orom.c` `__orom_check_for_data` -/
def checkForData (malloc : Bool) (start length orom_dev_id : Nat) : Option (Option Node) :=
  (run (start + length * OROM_CHUNK_SIZE) 4 (checkVersion r device_id malloc orom_dev_id) start).map
    Option.join

/-- Source: `orom.c` `__orom_check_block` -/
def checkBlock (malloc : Bool) (hdr : Nat) : Option (Option Node) := do
  if (← r.number 2 hdr) ≠ OROM_VALID_SIGNATURE then pure none
  else
    let length ← r.byte (hdr + 2)
    if (← checksum r hdr length.toNat) ≠ 0 then pure none
    else
      let orom_dev_id ← checkForDevice r device_id hdr length.toNat
      if orom_dev_id = 0 then pure none
      else checkForData r device_id malloc hdr length.toNat orom_dev_id

/-- `malloc` tells for which blocks a node can be allocated.
Source: `orom.c` `__orom_scan_for_device` -/
def scanForDevice (malloc : Nat → Bool) : Option (Option Node) :=
  run OROM_SCAN_LAST OROM_SCAN_STEP (fun offset => checkBlock r device_id (malloc offset) offset) 0

end functions

/-! ## What the bytes of a block say -/

section blocks

variable (r : Region) (device_id : UInt32)

/-- A block starts with the signature and its length in chunks. -/
def Starts (o : Nat) (length : UInt8) : Prop :=
  r.number 2 o = some OROM_VALID_SIGNATURE ∧ r.byte (o + 2) = some length

/-- The bytes of a block sum to zero. -/
def SumsToZero (o : Nat) (length : UInt8) : Prop :=
  ∃ bytes, r.bytes (length.toNat * OROM_CHUNK_SIZE) o = some bytes ∧ bytes.sum = 0

/-- A PCIR structure with its words for the vendor and the device and for the offset of its list. -/
def IsPcir (p id offset : Nat) : Prop :=
  r.number 4 p = some OROM_PCIR_SIGNATURE ∧ r.number 4 (p + 4) = some id ∧
    r.number 4 (p + 8) = some offset

/-- A list has an entry that ends its scan. -/
def ListEnds (orom_dev_id q : Nat) : Prop :=
  ∃ k id, r.number 2 (q + 2 * k) = some id ∧ (id = 0 ∨ (id = device_id.toNat ∧ orom_dev_id ≠ 0))

/-- A list has the device in front of its end. -/
def Lists (orom_dev_id q : Nat) : Prop :=
  orom_dev_id ≠ 0 ∧ ∃ k, r.number 2 (q + 2 * k) = some device_id.toNat ∧
    ∀ j ≤ k, r.number 2 (q + 2 * j) ≠ some 0

/-- A PCIR structure at `p` and its list lie inside the region. -/
def PcirInside (p : Nat) : Prop :=
  r.number 4 p = some OROM_PCIR_SIGNATURE → ∃ id offset, IsPcir r p id offset ∧
    (id % 2 ^ 16 = INTEL_PCI_VENDOR_ID → ListEnds r device_id (id / 2 ^ 16) (p + offset % 2 ^ 16))

/-- There is a PCIR structure at `p` that names the device. -/
def NamesDevice (p : Nat) : Prop :=
  ∃ id offset, IsPcir r p id offset ∧ id % 2 ^ 16 = INTEL_PCI_VENDOR_ID ∧
    Lists r device_id (id / 2 ^ 16) (p + offset % 2 ^ 16)

/-! ## The list of a PCIR structure -/

/-- Where a later entry of a list can be read every earlier one can. -/
theorem isSome_number_of_later {q k : Nat} (h : (r.number 2 (q + 2 * k)).isSome) :
    (r.number 2 q).isSome := by
  rw [r.isSome_number_iff Nat.two_pos] at h ⊢
  omega

/-- Behind an entry that ends nothing, the list ends where it ends from the next one on. -/
theorem listEnds_succ_iff {orom_dev_id q id : Nat} (h : r.number 2 q = some id) (hzero : id ≠ 0)
    (hother : ¬ (id = device_id.toNat ∧ orom_dev_id ≠ 0)) :
    ListEnds r device_id orom_dev_id q ↔ ListEnds r device_id orom_dev_id (q + 2) := by
  constructor
  · rintro ⟨k, id', hid', hends⟩
    rcases k with _ | k
    · obtain rfl : id = id' := Option.some.inj (h.symm.trans hid')
      exact absurd hends (not_or.mpr ⟨hzero, hother⟩)
    · rw [step_succ] at hid'
      exact ⟨k, id', hid', hends⟩
  · rintro ⟨k, id', hid', hends⟩
    rw [← step_succ] at hid'
    exact ⟨k + 1, id', hid', hends⟩

/-- Behind an entry of another device, a list names the device iff it does from the next one on. -/
theorem lists_succ_iff {orom_dev_id q id : Nat} (h : r.number 2 q = some id) (hzero : id ≠ 0)
    (hother : ¬ (id = device_id.toNat ∧ orom_dev_id ≠ 0)) :
    Lists r device_id orom_dev_id q ↔ Lists r device_id orom_dev_id (q + 2) := by
  constructor
  · rintro ⟨horom, k, hk, hbefore⟩
    rcases k with _ | k
    · obtain rfl : id = device_id.toNat := Option.some.inj (h.symm.trans hk)
      exact absurd ⟨rfl, horom⟩ hother
    · rw [step_succ] at hk
      refine ⟨horom, k, hk, fun j hj => ?_⟩
      rw [← step_succ]
      exact hbefore (j + 1) (Nat.succ_le_succ hj)
  · rintro ⟨horom, k, hk, hbefore⟩
    rw [← step_succ] at hk
    refine ⟨horom, k + 1, hk, fun j hj => ?_⟩
    rcases j with _ | j
    · rintro hnull
      exact hzero (Option.some.inj (h.symm.trans hnull))
    · rw [step_succ]
      exact hbefore j (Nat.le_of_succ_le_succ hj)

/-- The scan of a list stays inside the region where the list ends inside. -/
theorem isSome_deviceList_iff (orom_dev_id q : Nat) :
    (deviceList r device_id orom_dev_id q).isSome ↔ ListEnds r device_id orom_dev_id q := by
  fun_induction deviceList r device_id orom_dev_id q with
  | case1 q h =>
      refine iff_of_false (by simp) ?_
      rintro ⟨k, id, hid, -⟩
      have hfirst := isSome_number_of_later r (Option.isSome_of_eq_some hid)
      rw [h] at hfirst
      exact absurd hfirst (by simp)
  | case2 q h => exact iff_of_true rfl ⟨0, 0, h, .inl rfl⟩
  | case3 q id h hzero hmatch => exact iff_of_true rfl ⟨0, id, h, .inr hmatch⟩
  | case4 q id h hzero hother ih => rw [ih, listEnds_succ_iff r device_id h hzero hother]

/-- The device is found where the list has it in front of its end. -/
theorem deviceList_eq_true_iff (orom_dev_id q : Nat) :
    deviceList r device_id orom_dev_id q = some true ↔ Lists r device_id orom_dev_id q := by
  fun_induction deviceList r device_id orom_dev_id q with
  | case1 q h =>
      refine iff_of_false (by simp) ?_
      rintro ⟨-, k, hk, -⟩
      have hfirst := isSome_number_of_later r (Option.isSome_of_eq_some hk)
      rw [h] at hfirst
      exact absurd hfirst (by simp)
  | case2 q h =>
      refine iff_of_false (by simp) ?_
      rintro ⟨-, k, -, hbefore⟩
      exact hbefore 0 (Nat.zero_le k) h
  | case3 q id h hzero hmatch =>
      refine iff_of_true rfl ⟨hmatch.2, 0, by rw [← hmatch.1]; exact h, fun j hj hnull => ?_⟩
      obtain rfl : j = 0 := Nat.le_zero.mp hj
      exact hzero (Option.some.inj (h.symm.trans hnull))
  | case4 q id h hzero hother ih => rw [ih, lists_succ_iff r device_id h hzero hother]

/-! ## The words of a block -/

/-- A word that is no signature is passed over. -/
theorem checkWord_of_ne {p w : Nat} (h : r.number 4 p = some w) (hw : w ≠ OROM_PCIR_SIGNATURE) :
    checkWord r device_id p = some none := by
  simp [checkWord, h, hw]

/-- Behind a signature the vendor is compared and the list of devices searched. -/
theorem checkWord_of_isPcir {p id offset : Nat} (h : IsPcir r p id offset) :
    checkWord r device_id p =
      if id % 2 ^ 16 = INTEL_PCI_VENDOR_ID then
        (deviceList r device_id (id / 2 ^ 16) (p + offset % 2 ^ 16)).map fun found =>
          if found then some (id / 2 ^ 16) else none
      else some none := by
  obtain ⟨hp, hid, hoffset⟩ := h
  simp only [checkWord, hp, hid, hoffset, Option.bind_eq_bind, Option.bind_some, Option.pure_def]
  rw [if_neg (not_not.mpr rfl)]
  split
  next =>
    rcases deviceList r device_id (id / 2 ^ 16) (p + offset % 2 ^ 16) with _ | _ | _
    · rfl
    · rfl
    · rfl
  next => rfl

/-- A PCIR structure of which a word lies outside. -/
theorem checkWord_of_not_isPcir {p : Nat} (h : r.number 4 p = some OROM_PCIR_SIGNATURE)
    (hnot : ∀ id offset, ¬ IsPcir r p id offset) : checkWord r device_id p = none := by
  simp only [checkWord, h, Option.bind_eq_bind, Option.bind_some, Option.pure_def]
  rw [if_neg (not_not.mpr rfl)]
  rcases hid : r.number 4 (p + 4) with _ | id
  · rfl
  · rcases hoffset : r.number 4 (p + 8) with _ | offset
    · rfl
    · exact absurd ⟨h, hid, hoffset⟩ (hnot id offset)

/-- The structure behind a signature is determined by the bytes. -/
theorem IsPcir.unique {r : Region} {p id offset id' offset' : Nat} (h : IsPcir r p id offset)
    (h' : IsPcir r p id' offset') : id = id' ∧ offset = offset' :=
  ⟨Option.some.inj (h.2.1.symm.trans h'.2.1), Option.some.inj (h.2.2.symm.trans h'.2.2)⟩

/-- A word is looked at inside the region where the structure that it may begin lies inside. -/
theorem isSome_checkWord_iff {p : Nat} (hp : (r.number 4 p).isSome) :
    (checkWord r device_id p).isSome ↔ PcirInside r device_id p := by
  obtain ⟨w, hw⟩ := Option.isSome_iff_exists.mp hp
  unfold PcirInside
  by_cases hsignature : w = OROM_PCIR_SIGNATURE
  · subst hsignature
    by_cases hpcir : ∃ id offset, IsPcir r p id offset
    · obtain ⟨id, offset, hpcir⟩ := hpcir
      have hunique : (∃ id offset, IsPcir r p id offset ∧
          (id % 2 ^ 16 = INTEL_PCI_VENDOR_ID →
            ListEnds r device_id (id / 2 ^ 16) (p + offset % 2 ^ 16))) ↔
          (id % 2 ^ 16 = INTEL_PCI_VENDOR_ID →
            ListEnds r device_id (id / 2 ^ 16) (p + offset % 2 ^ 16)) := by
        constructor
        · rintro ⟨id', offset', hpcir', hends⟩
          obtain ⟨rfl, rfl⟩ := hpcir.unique hpcir'
          exact hends
        · exact fun hends => ⟨id, offset, hpcir, hends⟩
      rw [hunique, checkWord_of_isPcir r device_id hpcir]
      split
      next hvendor =>
        rw [Option.isSome_map, isSome_deviceList_iff]
        exact ⟨fun hends _ _ => hends, fun hends => hends hw hvendor⟩
      next hvendor => exact iff_of_true rfl fun _ h => absurd h hvendor
    · have hnot : ∀ id offset, ¬ IsPcir r p id offset :=
        fun id offset h => hpcir ⟨id, offset, h⟩
      rw [checkWord_of_not_isPcir r device_id hw hnot]
      refine iff_of_false (by simp) fun hinside => ?_
      obtain ⟨id, offset, h, -⟩ := hinside hw
      exact hnot id offset h
  · rw [checkWord_of_ne r device_id hw hsignature]
    exact iff_of_true rfl fun h => absurd (Option.some.inj (hw.symm.trans h)) hsignature

/-- A word gives a device id iff it is a signature of the vendor whose list names the device. -/
theorem checkWord_eq_iff {p b : Nat} : checkWord r device_id p = some (some b) ↔
    ∃ id offset, IsPcir r p id offset ∧ id % 2 ^ 16 = INTEL_PCI_VENDOR_ID ∧
      Lists r device_id (id / 2 ^ 16) (p + offset % 2 ^ 16) ∧ b = id / 2 ^ 16 := by
  constructor
  · intro h
    rcases hw : r.number 4 p with _ | w
    · simp [checkWord, hw] at h
    · by_cases hsignature : w = OROM_PCIR_SIGNATURE
      · subst hsignature
        by_cases hpcir : ∃ id offset, IsPcir r p id offset
        · obtain ⟨id, offset, hpcir⟩ := hpcir
          rw [checkWord_of_isPcir r device_id hpcir] at h
          split at h
          next hvendor =>
            obtain ⟨found, hfound, hb⟩ := Option.map_eq_some_iff.mp h
            cases found with
            | false => exact absurd hb (by simp)
            | true =>
                have hlists := (deviceList_eq_true_iff r device_id _ _).mp hfound
                exact ⟨id, offset, hpcir, hvendor, hlists, (Option.some.inj hb).symm⟩
          next => exact absurd h (by simp)
        · rw [checkWord_of_not_isPcir r device_id hw fun id offset h => hpcir ⟨id, offset, h⟩] at h
          exact absurd h (by simp)
      · rw [checkWord_of_ne r device_id hw hsignature] at h
        exact absurd h (by simp)
  · rintro ⟨id, offset, hpcir, hvendor, hlists, rfl⟩
    rw [checkWord_of_isPcir r device_id hpcir, if_pos hvendor,
      (deviceList_eq_true_iff r device_id _ _).mpr hlists]
    rfl

/-- The loop is left at the PCIR structures that name the device. -/
theorem leaves_checkWord_iff (p : Nat) :
    Leaves (checkWord r device_id) p ↔ NamesDevice r device_id p := by
  constructor
  · rintro ⟨b, hb⟩
    obtain ⟨id, offset, hpcir, hvendor, hlists, -⟩ := (checkWord_eq_iff r device_id).mp hb
    exact ⟨id, offset, hpcir, hvendor, hlists⟩
  · rintro ⟨id, offset, hpcir, hvendor, hlists⟩
    exact ⟨_, (checkWord_eq_iff r device_id).mpr ⟨id, offset, hpcir, hvendor, hlists, rfl⟩⟩

/-- The word at `p` is the first version signature of the block. -/
def FirstVersion (o length k : Nat) : Prop :=
  4 * k < length * OROM_CHUNK_SIZE ∧ r.number 4 (o + 4 * k) = some OROM_SVER_SIGNATURE ∧
    ∀ j < k, r.number 4 (o + 4 * j) ≠ some OROM_SVER_SIGNATURE

/-- A PCIR structure of the block names the device. -/
def Supports (o length : Nat) : Prop :=
  ∃ k, 4 * k < length * OROM_CHUNK_SIZE ∧ NamesDevice r device_id (o + 4 * k)

/-- The structures of the block up to the first one that names the device lie inside the region. -/
def PcirsInside (o length : Nat) : Prop :=
  ∀ k, 4 * k < length * OROM_CHUNK_SIZE → (∀ j < k, ¬ NamesDevice r device_id (o + 4 * j)) →
    PcirInside r device_id (o + 4 * k)

variable {o length : Nat}

/-- In an image that lies in the region every word can be read. -/
theorem isSome_word (hinside : o + length * OROM_CHUNK_SIZE ≤ OROM_REGION_SIZE) {k : Nat}
    (hk : 4 * k < length * OROM_CHUNK_SIZE) : (r.number 4 (o + 4 * k)).isSome := by
  have hchunk : OROM_CHUNK_SIZE = 4 * 128 := rfl
  rw [r.isSome_number_iff (by omega)]
  rw [hchunk] at hk hinside
  omega

/-- The search for the device stays in the region iff the structures behind the signatures do. -/
theorem isSome_checkForDevice_iff (hinside : o + length * OROM_CHUNK_SIZE ≤ OROM_REGION_SIZE) :
    (checkForDevice r device_id o length).isSome ↔ PcirsInside r device_id o length := by
  rw [checkForDevice, Option.isSome_map, isSome_run_iff (by omega)]
  simp only [leaves_checkWord_iff, Nat.add_lt_add_iff_left]
  refine forall_congr' fun k => forall_congr' fun hk => ?_
  rw [isSome_checkWord_iff r device_id (isSome_word r hinside hk)]

/-- The number of an option ROM is found, and is not zero, where a structure names the device. -/
theorem checkForDevice_ne_zero_iff {id : Nat} (h : checkForDevice r device_id o length = some id) :
    id ≠ 0 ↔ Supports r device_id o length := by
  obtain ⟨found, hrun, hid⟩ := Option.map_eq_some_iff.mp h
  have hleaves := leaves_run_iff (by omega) (Option.isSome_of_eq_some hrun)
  simp only [leaves_checkWord_iff, Nat.add_lt_add_iff_left] at hleaves
  unfold Supports
  rw [← hleaves, hrun]
  rcases found with _ | b
  · refine iff_of_false ?_ (by simp)
    rw [← hid]
    simp
  · obtain ⟨k, -, hk, -⟩ := exists_of_run hrun
    obtain ⟨pcir, offset, -, -, hlists, rfl⟩ := (checkWord_eq_iff r device_id).mp hk
    refine iff_of_true ?_ ⟨_, rfl⟩
    rw [← hid]
    exact hlists.1

/-! ## The version block -/

variable (malloc : Bool) (orom_dev_id : Nat)

/-- The data can be copied iff it lies in the region, or there is no memory for the copy. -/
theorem isSome_addInfo_iff (data : Nat) : (addInfo r device_id malloc data orom_dev_id).isSome ↔
    (malloc → data + OROM_INFO_SIZE ≤ OROM_REGION_SIZE) := by
  cases malloc with
  | false => exact iff_of_true rfl (by simp)
  | true =>
      rw [addInfo, if_pos rfl, Option.isSome_map, r.isSome_bytes_iff (by decide)]
      exact ⟨fun h _ => h, fun h => h rfl⟩

/-- A node is made where `malloc` succeeds. -/
theorem isSome_of_addInfo {data : Nat} {result : Option Node}
    (h : addInfo r device_id malloc data orom_dev_id = some result) : result.isSome = malloc := by
  cases malloc with
  | false =>
      obtain rfl : none = result := Option.some.inj h
      rfl
  | true =>
      obtain ⟨bytes, -, rfl⟩ := Option.map_eq_some_iff.mp h
      rfl

/-- A word that is no version signature is passed over. -/
theorem checkVersion_of_ne {p w : Nat} (h : r.number 4 p = some w) (hw : w ≠ OROM_SVER_SIGNATURE) :
    checkVersion r device_id malloc orom_dev_id p = some none := by
  simp [checkVersion, h, hw]

/-- Behind a version signature the data is copied. -/
theorem checkVersion_of_eq {p : Nat} (h : r.number 4 p = some OROM_SVER_SIGNATURE) :
    checkVersion r device_id malloc orom_dev_id p =
      (addInfo r device_id malloc p orom_dev_id).map some := by
  simp [checkVersion, h, Option.map_eq_bind]

/-- A word is checked within the region iff it is no version signature, or the data behind it can be
copied. -/
theorem isSome_checkVersion_iff {p : Nat} (hp : (r.number 4 p).isSome) :
    (checkVersion r device_id malloc orom_dev_id p).isSome ↔
      (r.number 4 p = some OROM_SVER_SIGNATURE → malloc → p + OROM_INFO_SIZE ≤ OROM_REGION_SIZE) := by
  obtain ⟨w, hw⟩ := Option.isSome_iff_exists.mp hp
  by_cases hsignature : w = OROM_SVER_SIGNATURE
  · subst hsignature
    rw [checkVersion_of_eq r device_id malloc orom_dev_id hw, Option.isSome_map, isSome_addInfo_iff]
    exact ⟨fun h _ => h, fun h => h hw⟩
  · rw [checkVersion_of_ne r device_id malloc orom_dev_id hw hsignature]
    exact iff_of_true rfl fun h => absurd (Option.some.inj (hw.symm.trans h)) hsignature

/-- A word gives a result iff it is a version signature, and the result is that of the copy. -/
theorem checkVersion_eq_iff {p : Nat} {result : Option Node} :
    checkVersion r device_id malloc orom_dev_id p = some (some result) ↔
      r.number 4 p = some OROM_SVER_SIGNATURE ∧
        addInfo r device_id malloc p orom_dev_id = some result := by
  rcases hw : r.number 4 p with _ | w
  · simp [checkVersion, hw]
  · by_cases hsignature : w = OROM_SVER_SIGNATURE
    · subst hsignature
      rw [checkVersion_of_eq r device_id malloc orom_dev_id hw]
      simp
    · rw [checkVersion_of_ne r device_id malloc orom_dev_id hw hsignature]
      simp [hsignature]

/-- The first version signature is that of the copy, which has to lie inside the region. -/
theorem isSome_checkForData_iff (hinside : o + length * OROM_CHUNK_SIZE ≤ OROM_REGION_SIZE) :
    (checkForData r device_id malloc o length orom_dev_id).isSome ↔
      (malloc → ∀ k, FirstVersion r o length k →
        o + 4 * k + OROM_INFO_SIZE ≤ OROM_REGION_SIZE) := by
  rw [checkForData, Option.isSome_map, isSome_run_iff (by omega)]
  simp only [Nat.add_lt_add_iff_left]
  constructor
  · rintro h hmalloc k ⟨hk, hversion, hfirst⟩
    have hbody := h k hk fun j hj => by
      rintro ⟨result, hresult⟩
      exact hfirst j hj ((checkVersion_eq_iff r device_id malloc orom_dev_id).mp hresult).1
    rw [isSome_checkVersion_iff r device_id malloc orom_dev_id (isSome_word r hinside hk)] at hbody
    exact hbody hversion hmalloc
  · intro h k hk hbefore
    rw [isSome_checkVersion_iff r device_id malloc orom_dev_id (isSome_word r hinside hk)]
    intro hversion hmalloc
    have hfirst : FirstVersion r o length k := by
      refine ⟨hk, hversion, fun j => ?_⟩
      induction j using Nat.strong_induction_on with
      | _ j ih =>
          intro hj hearlier
          have hj' : 4 * j < length * OROM_CHUNK_SIZE := by omega
          have hcopied := h hmalloc j ⟨hj', hearlier, fun i hi => ih i hi (hi.trans hj)⟩
          obtain ⟨result, hresult⟩ := Option.isSome_iff_exists.mp
            ((isSome_addInfo_iff r device_id malloc orom_dev_id (o + 4 * j)).mpr fun _ => hcopied)
          exact hbefore j hj ⟨result,
            (checkVersion_eq_iff r device_id malloc orom_dev_id).mpr ⟨hearlier, hresult⟩⟩
    exact h hmalloc k hfirst

/-- A node is made where the block has a version signature and `malloc` succeeds. -/
theorem isSome_of_checkForData {result : Option Node}
    (h : checkForData r device_id malloc o length orom_dev_id = some result) :
    result.isSome ↔ malloc ∧ ∃ k, 4 * k < length * OROM_CHUNK_SIZE ∧
      r.number 4 (o + 4 * k) = some OROM_SVER_SIGNATURE := by
  obtain ⟨found, hrun, rfl⟩ := Option.map_eq_some_iff.mp h
  rcases found with _ | result
  · refine iff_of_false (by simp) ?_
    rintro ⟨-, k, hk, hversion⟩
    have hbound : o + 4 * k < o + length * OROM_CHUNK_SIZE := Nat.add_lt_add_left hk o
    have hnot : ∀ j ≤ k, ¬ Leaves (checkVersion r device_id malloc orom_dev_id) (o + 4 * j) :=
      fun j hj => not_leaves_of_run (by omega) hrun (by omega)
    have hbody := (isSome_run_iff (by omega)).mp (Option.isSome_of_eq_some hrun) k hbound
      fun j hj => hnot j hj.le
    obtain ⟨_ | result, hresult⟩ := Option.isSome_iff_exists.mp hbody
    · rw [checkVersion_of_eq r device_id malloc orom_dev_id hversion] at hresult
      simp at hresult
    · exact hnot k le_rfl ⟨result, hresult⟩
  · obtain ⟨k, hk, hbody, -⟩ := exists_of_run hrun
    obtain ⟨hversion, hadd⟩ := (checkVersion_eq_iff r device_id malloc orom_dev_id).mp hbody
    have hmade := isSome_of_addInfo r device_id malloc orom_dev_id hadd
    show result.isSome ↔ _
    rw [hmade]
    exact ⟨fun hmalloc => ⟨hmalloc, k, by omega, hversion⟩, fun hmalloc => hmalloc.1⟩

/-! ## Blocks -/

/-- The loop adds the bytes up, modulo 256. -/
theorem checksumLoop_eq (n p : Nat) (result : UInt8) :
    checksumLoop r n p result = (r.bytes n p).map fun bytes => result + bytes.sum := by
  induction n generalizing p result with
  | zero => simp [checksumLoop, Region.bytes]
  | succ n ih =>
      unfold checksumLoop Region.bytes
      rcases r.byte p with _ | b
      · rfl
      · show checksumLoop r n (p + 1) (result + b) = _
        rw [ih]
        rcases r.bytes n (p + 1) with _ | rest
        · rfl
        · simp [UInt8.add_assoc]

/-- The checksum of an image is the sum of its bytes, if they can all be read. -/
theorem checksum_eq (length : UInt8) :
    checksum r o length.toNat = (r.bytes (length.toNat * OROM_CHUNK_SIZE) o).map List.sum := by
  simp [checksum, checksumLoop_eq]

/-- What a scan of a block of that length at `o` reads lies inside the region: its bytes, and where they
sum to zero the PCIR structures and the copy of the version block. -/
def ContentInside (o : Nat) (length : UInt8) : Prop :=
  o + length.toNat * OROM_CHUNK_SIZE ≤ OROM_REGION_SIZE ∧
    (SumsToZero r o length → PcirsInside r device_id o length.toNat ∧
      (Supports r device_id o length.toNat → malloc → ∀ k, FirstVersion r o length.toNat k →
        o + 4 * k + OROM_INFO_SIZE ≤ OROM_REGION_SIZE))

/-- If a block starts at `o`, it is scanned inside the region. -/
def BlockInside (o : Nat) : Prop :=
  ∀ length : UInt8, Starts r o length → ContentInside r device_id malloc o length

/-- The scan ends with the block at `o`: it supports the device and has a version block. -/
def Hit (o : Nat) : Prop :=
  BlockInside r device_id malloc o ∧ malloc ∧ ∃ length : UInt8, Starts r o length ∧
    SumsToZero r o length ∧ Supports r device_id o length.toNat ∧
      ∃ k, 4 * k < length.toNat * OROM_CHUNK_SIZE ∧
        r.number 4 (o + 4 * k) = some OROM_SVER_SIGNATURE

/-- Where an image starts: the checksum, the device and the data, each only if the one before has
succeeded. -/
theorem checkBlock_of_starts {length : UInt8} (h : Starts r o length) :
    checkBlock r device_id malloc o = (checksum r o length.toNat).bind fun sum =>
      if sum ≠ 0 then some none
      else (checkForDevice r device_id o length.toNat).bind fun id =>
        if id = 0 then some none else checkForData r device_id malloc o length.toNat id := by
  simp [checkBlock, h.1, h.2]

/-- Where no image starts nothing is found. -/
theorem checkBlock_of_not_starts (ho : o + 3 ≤ OROM_REGION_SIZE)
    (h : ∀ length, ¬ Starts r o length) : checkBlock r device_id malloc o = some none := by
  obtain ⟨signature, hsignature⟩ := Option.isSome_iff_exists.mp
    ((r.isSome_number_iff (n := 2) (by omega) o).mpr (by omega))
  obtain ⟨length, hlength⟩ := Option.isSome_iff_exists.mp ((r.isSome_byte_iff (o + 2)).mpr (by omega))
  have hne : signature ≠ OROM_VALID_SIGNATURE := by
    rintro rfl
    exact h length ⟨hsignature, hlength⟩
  simp [checkBlock, hsignature, hne]

/-- The length of a block is the one byte that it has for it. -/
theorem blockInside_iff_of_starts {length : UInt8} (h : Starts r o length) :
    BlockInside r device_id malloc o ↔ ContentInside r device_id malloc o length := by
  refine ⟨fun hinside => hinside length h, fun hinside length' h' => ?_⟩
  obtain rfl : length = length' := Option.some.inj (h.2.symm.trans h'.2)
  exact hinside

/-- An image is sound iff its checksum is 0. -/
theorem sumsToZero_iff {length sum : UInt8} (h : checksum r o length.toNat = some sum) :
    SumsToZero r o length ↔ sum = 0 := by
  rw [checksum_eq] at h
  obtain ⟨bytes, hbytes, rfl⟩ := Option.map_eq_some_iff.mp h
  constructor
  · rintro ⟨bytes', hbytes', hsum⟩
    obtain rfl : bytes = bytes' := Option.some.inj (hbytes.symm.trans hbytes')
    exact hsum
  · exact fun hsum => ⟨bytes, hbytes, hsum⟩

/-- The checksum can be computed iff the image lies in the region. -/
theorem isSome_checksum_iff (ho : o + 3 ≤ OROM_REGION_SIZE) (length : UInt8) :
    (checksum r o length.toNat).isSome ↔ o + length.toNat * OROM_CHUNK_SIZE ≤ OROM_REGION_SIZE := by
  rw [checksum_eq, Option.isSome_map]
  rcases Nat.eq_zero_or_pos (length.toNat * OROM_CHUNK_SIZE) with hzero | hpos
  · rw [hzero]
    exact iff_of_true rfl (by omega)
  · exact r.isSome_bytes_iff hpos o

/-- The block at an offset is scanned inside the region iff its bytes say so. -/
theorem isSome_checkBlock_iff (ho : o + 3 ≤ OROM_REGION_SIZE) :
    (checkBlock r device_id malloc o).isSome ↔ BlockInside r device_id malloc o := by
  by_cases hstarts : ∃ length, Starts r o length
  · obtain ⟨length, hstarts⟩ := hstarts
    have hchecksum := isSome_checksum_iff r ho length
    rw [blockInside_iff_of_starts r device_id malloc hstarts,
      checkBlock_of_starts r device_id malloc hstarts]
    rcases hsum : checksum r o length.toNat with _ | sum
    · rw [hsum] at hchecksum
      exact iff_of_false (by simp) fun h => absurd (hchecksum.mpr h.1) (by simp)
    · rw [hsum] at hchecksum
      have hinside := hchecksum.mp rfl
      have hdevice := isSome_checkForDevice_iff r device_id hinside
      rw [ContentInside, sumsToZero_iff r hsum, Option.bind_some]
      by_cases hzero : sum = 0
      · rw [if_neg (not_not.mpr hzero)]
        rcases hid : checkForDevice r device_id o length.toNat with _ | id
        · rw [hid] at hdevice
          exact iff_of_false (by simp) fun h => absurd (hdevice.mpr (h.2 hzero).1) (by simp)
        · rw [hid] at hdevice
          have hsupports := checkForDevice_ne_zero_iff r device_id hid
          rw [Option.bind_some, ← hsupports]
          split
          next hnone =>
            exact iff_of_true rfl ⟨hinside, fun _ => ⟨hdevice.mp rfl, fun h => absurd hnone h⟩⟩
          next hsome =>
            rw [isSome_checkForData_iff r device_id malloc id hinside]
            exact ⟨fun h => ⟨hinside, fun _ => ⟨hdevice.mp rfl, fun _ => h⟩⟩,
              fun h => (h.2 hzero).2 hsome⟩
      · rw [if_pos hzero]
        exact iff_of_true rfl ⟨hinside, fun h => absurd h hzero⟩
  · have hnot : ∀ length, ¬ Starts r o length := fun length h => hstarts ⟨length, h⟩
    rw [checkBlock_of_not_starts r device_id malloc ho hnot]
    exact iff_of_true rfl fun length h => absurd h (hnot length)

/-- What makes a block end the scan, where it is scanned inside the region. -/
theorem isSome_of_checkBlock {length : UInt8} (hstarts : Starts r o length) {result : Option Node}
    (h : checkBlock r device_id malloc o = some result) :
    result.isSome ↔ malloc ∧ SumsToZero r o length ∧ Supports r device_id o length.toNat ∧
      ∃ k, 4 * k < length.toNat * OROM_CHUNK_SIZE ∧
        r.number 4 (o + 4 * k) = some OROM_SVER_SIGNATURE := by
  rw [checkBlock_of_starts r device_id malloc hstarts] at h
  obtain ⟨sum, hsum, h⟩ := Option.bind_eq_some_iff.mp h
  rw [sumsToZero_iff r hsum]
  split at h
  next hsum' =>
    obtain rfl := Option.some.inj h
    exact iff_of_false (by simp) fun hall => hsum' hall.2.1
  next hsum' =>
    obtain ⟨id, hid, h⟩ := Option.bind_eq_some_iff.mp h
    rw [← checkForDevice_ne_zero_iff r device_id hid]
    split at h
    next hnone =>
      obtain rfl := Option.some.inj h
      exact iff_of_false (by simp) fun hall => hall.2.2.1 hnone
    next hsome =>
      rw [isSome_of_checkForData r device_id malloc id h]
      have hzero : sum = 0 := not_not.mp hsum'
      simp [hzero, hsome]

/-- The scan ends with a block for which a node is made. -/
theorem leaves_checkBlock_iff (ho : o + 3 ≤ OROM_REGION_SIZE) :
    (∃ node, checkBlock r device_id malloc o = some (some node)) ↔ Hit r device_id malloc o := by
  constructor
  · rintro ⟨node, h⟩
    have hinside := (isSome_checkBlock_iff r device_id malloc ho).mp (Option.isSome_of_eq_some h)
    by_cases hstarts : ∃ length, Starts r o length
    · obtain ⟨length, hstarts⟩ := hstarts
      obtain ⟨hmalloc, hrest⟩ := (isSome_of_checkBlock r device_id malloc hstarts h).mp rfl
      exact ⟨hinside, hmalloc, length, hstarts, hrest⟩
    · rw [checkBlock_of_not_starts r device_id malloc ho fun length h => hstarts ⟨length, h⟩] at h
      exact absurd h (by simp)
  · rintro ⟨hinside, hmalloc, length, hstarts, hrest⟩
    obtain ⟨result, h⟩ := Option.isSome_iff_exists.mp
      ((isSome_checkBlock_iff r device_id malloc ho).mpr hinside)
    have hmade := (isSome_of_checkBlock r device_id malloc hstarts h).mpr ⟨hmalloc, hrest⟩
    obtain ⟨node, rfl⟩ := Option.isSome_iff_exists.mp hmade
    exact ⟨node, h⟩

end blocks

/-! ## Main result -/

/-- Every place where an image may start has its header in the region. -/
theorem header_inside {k : Nat} (hk : OROM_SCAN_STEP * k < OROM_SCAN_LAST) :
    OROM_SCAN_STEP * k + 3 ≤ OROM_REGION_SIZE := by
  have hlast : OROM_SCAN_LAST + 2 ≤ OROM_REGION_SIZE := by decide
  omega

/-- The scan stays in the region iff every block does that it gets to, which is every one up to the
first that gives a result. -/
theorem isSome_scanForDevice_iff (r : Region) (device_id : UInt32) (malloc : Nat → Bool) :
    (scanForDevice r device_id malloc).isSome ↔
      ∀ k, OROM_SCAN_STEP * k < OROM_SCAN_LAST →
        (∀ j < k, ¬ ∃ node, checkBlock r device_id (malloc (OROM_SCAN_STEP * j))
          (OROM_SCAN_STEP * j) = some (some node)) →
            (checkBlock r device_id (malloc (OROM_SCAN_STEP * k)) (OROM_SCAN_STEP * k)).isSome := by
  rw [scanForDevice, isSome_run_iff (by decide)]
  simp only [Nat.zero_add, Leaves]

end Orom

open Orom

/-- **The scan for option ROMs stays inside the mapped region** exactly where the blocks up to the one
that ends it do. Each block has to lie inside as far as it is read: its header always, its whole length
where it begins with the signature, and the lists of device ids up to their ends. Blocks behind one that
ends the scan are not read, and nothing is asked of them. -/
theorem scanForDevice_inside_iff (r : Region) (device_id : UInt32) (malloc : Nat → Bool) :
    (scanForDevice r device_id malloc).isSome ↔
      ∀ k, OROM_SCAN_STEP * k < OROM_SCAN_LAST →
        (∀ j < k, ¬ Hit r device_id (malloc (OROM_SCAN_STEP * j)) (OROM_SCAN_STEP * j)) →
          BlockInside r device_id (malloc (OROM_SCAN_STEP * k)) (OROM_SCAN_STEP * k) := by
  rw [isSome_scanForDevice_iff]
  refine forall_congr' fun k => forall_congr' fun hk => ?_
  rw [isSome_checkBlock_iff r device_id _ (header_inside hk)]
  refine imp_congr_left (forall_congr' fun j => forall_congr' fun hj => not_congr ?_)
  have hbefore : OROM_SCAN_STEP * j < OROM_SCAN_LAST :=
    (Nat.mul_le_mul_left OROM_SCAN_STEP hj.le).trans_lt hk
  exact leaves_checkBlock_iff r device_id _ (header_inside hbefore)

/-- The last block that is scanned claims the greatest length, and nothing else is there. -/
def lastBlock : Region := fun i =>
  if i.val = 0x1f800 then 0x55 else if i.val = 0x1f801 then 0xaa else if i.val = 0x1f802 then 0xff else 0

/-- The sample region is 0 up to its last block. -/
theorem byte_lastBlock {i : Nat} (hi : i < 0x1f800) : lastBlock.byte i = some 0 := by
  have hsize : OROM_REGION_SIZE = 0x30000 := rfl
  have hsignature : i ≠ 0x1f800 ∧ i ≠ 0x1f801 ∧ i ≠ 0x1f802 := by omega
  rw [Region.byte, dif_pos (by omega)]
  simp [lastBlock, hsignature]

/-- The bytes of that block are summed up beyond the region. -/
theorem not_scanForDevice_inside_lastBlock :
    ¬ ∀ (r : Region) (device_id : UInt32) (malloc : Nat → Bool),
      (scanForDevice r device_id malloc).isSome := by
  intro h
  have hscan := (isSome_scanForDevice_iff lastBlock 0x2822 fun _ => true).mp (h _ _ _)
  have hbefore : ∀ j < 63, ¬ ∃ node,
      checkBlock lastBlock 0x2822 true (OROM_SCAN_STEP * j) = some (some node) := by
    rintro j hj ⟨node, hnode⟩
    have hlow : OROM_SCAN_STEP * j + 1 < 0x1f800 := by
      unfold OROM_SCAN_STEP
      omega
    have hnumber : lastBlock.number 2 (OROM_SCAN_STEP * j) = some 0 := by
      simp [Region.number, Region.bytes, byte_lastBlock (show OROM_SCAN_STEP * j < _ by omega),
        byte_lastBlock hlow, Hex.ofBytes_cons]
    rw [checkBlock, hnumber] at hnode
    exact absurd hnode (by simp [OROM_VALID_SIGNATURE])
  have hlast := hscan 63 (by decide) hbefore
  have hinside := (isSome_checkBlock_iff lastBlock 0x2822 true (by decide)).mp hlast
  have hstarts : Starts lastBlock (OROM_SCAN_STEP * 63) 0xff := ⟨by decide +kernel, by decide +kernel⟩
  exact absurd (hinside 0xff hstarts).1 (by decide)

end Irstessi
