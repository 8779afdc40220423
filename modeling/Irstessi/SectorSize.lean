import Irstessi.Attach
import Irstessi.Text
import Mathlib.Tactic.Ring

/-!
# Disk sizes from the attributes

`EndDevice::discover` and `NVME_Disk::discover` read the logical block size of a disk and its number
of sectors of 512 bytes, and divide the one by a quotient of the other.

* `DiskSize`, `SizeAttributes`: the fields, and what the attributes contain.
* `determineSize`, `endDeviceDiscover`, `nvmeDiskDiscover`: the functions.
* `agrees_iff`: when the fields agree with the number of sectors.
* **`sizeIsSafe_iff`**: no division by zero comes about and the fields agree iff the sector size is at
  least 512 and what it exceeds its multiple of 512 by is paid for by the sectors that are cut off.

The number of bytes is the number of blocks times the block size, both as words of 64 bits; the blocks
are the sectors over a quotient that is cut off. So the sizes agree if the sector size is a multiple of
512, and otherwise only where the sectors that the division drops outweigh what each block is too long
by (`PaidFor`). The arithmetic is done on natural numbers (`agrees_iff`), and the functions are
described on words under `NoOverflow`. An NVMe disk reads its attributes twice, and a size that cannot
be read the second time stays while the sector size is replaced.
-/

namespace Irstessi

/-- The fields of a disk that its size is in.
Source: `end_device.h` `EndDevice` -/
structure DiskSize where
  m_TotalSize : UInt64
  m_BlocksTotal : UInt64
  m_LogicalSectorSize : UInt32
  deriving DecidableEq, Repr

/-- What `queue/logical_block_size` and `size` contain; none is a throw of the read. -/
structure SizeAttributes where
  logicalBlockSize : Option (List UInt8)
  size : Option (List UInt8)
  deriving DecidableEq, Repr

/-- Source: `filesystem.h` `File::read` -/
def readUlonglong (content : List UInt8) : UInt64 := .ofNat (Str.strtoul content)

namespace SizeAttributes

variable (a : SizeAttributes)

/-- The sector size after the read; where it fails the one before is left. -/
def sectorSize (before : UInt32) : UInt32 :=
  match a.logicalBlockSize with
  | some content => (readUlonglong content).toUInt32
  | none => before

/-- The number of sectors of 512 bytes. -/
def sectors : Option UInt64 := a.size.map readUlonglong

/-- The number of sectors with the sector size at the time when it is read. -/
def reading (before : UInt32) : Option (UInt64 × UInt32) :=
  a.sectors.map fun sectors => (sectors, a.sectorSize before)

end SizeAttributes

namespace DiskSize

/-- Source: `end_device.cpp` `EndDevice::EndDevice` -/
def new : DiskSize := ⟨0, 0, 0⟩

/-- The reads of the block size and the size; none is a division by zero, which no handler catches.
Source: `end_device.cpp` `EndDevice::discover`, `nvme_disk.cpp` `NVME_Disk::discover` -/
def determineSize (d : DiskSize) (a : SizeAttributes) : Option DiskSize :=
  let d := { d with m_LogicalSectorSize := a.sectorSize d.m_LogicalSectorSize }
  match a.sectors with
  | none => some d
  | some sectors =>
      let divisor := d.m_LogicalSectorSize.toUInt64 / DEFAULT_SECTOR_SIZE
      if divisor = 0 then none
      else
        let blocks := sectors / divisor
        some { d with
          m_BlocksTotal := blocks
          m_TotalSize := blocks * d.m_LogicalSectorSize.toUInt64 }

/-- Source: `end_device.cpp` `EndDevice::discover` -/
def endDeviceDiscover (a : SizeAttributes) : Option DiskSize := new.determineSize a

/-- `BlockDevice::discover` reads the attributes under the name that it finds for the device, then
those under the name of the NVMe device are read.
Source: `nvme_disk.cpp` `NVME_Disk::discover` -/
def nvmeDiskDiscover (a b : SizeAttributes) : Option DiskSize :=
  (endDeviceDiscover a).bind fun d => d.determineSize b

/-- The fields agree with each other and with a number of sectors. -/
structure Agrees (d : DiskSize) (sectors : UInt64) : Prop where
  total : d.m_TotalSize.toNat = d.m_BlocksTotal.toNat * d.m_LogicalSectorSize.toNat
  le : d.m_TotalSize.toNat ≤ sectors.toNat * 512
  rest : sectors.toNat * 512 - d.m_TotalSize.toNat < max 512 d.m_LogicalSectorSize.toNat

end DiskSize

/-- The sizes in bytes are words of 64 bits. -/
def NoOverflow (sectors : UInt64) (sectorSize : UInt32) : Prop :=
  sectors.toNat * 512 < 2 ^ 64 ∧
    sectors.toNat / (sectorSize.toNat / 512) * sectorSize.toNat < 2 ^ 64

/-- Nothing is divided by zero, and the fields agree with the size that was read last, given with the
sector size at that time. -/
def SizeIsSafe (result : Option DiskSize) (read : Option (UInt64 × UInt32)) : Prop :=
  ∃ d, result = some d ∧ ∀ x ∈ read, NoOverflow x.1 x.2 → d.Agrees x.1

/-- The sectors that the division cuts off make up for what the sector size exceeds a multiple of 512
by. -/
def PaidFor (sectors : UInt64) (sectorSize : UInt32) : Prop :=
  sectors.toNat / (sectorSize.toNat / 512) * (sectorSize.toNat % 512) ≤
    512 * (sectors.toNat % (sectorSize.toNat / 512))

section numbers

/-- The blocks take up what is left of the sectors but for those cut off. -/
theorem blocks_mul (s l : Nat) :
    s / (l / 512) * l + 512 * (s % (l / 512)) = s * 512 + s / (l / 512) * (l % 512) := by
  have hl := Nat.div_add_mod l 512
  have hs := Nat.div_add_mod s (l / 512)
  calc s / (l / 512) * l + 512 * (s % (l / 512))
      = s / (l / 512) * (512 * (l / 512) + l % 512) + 512 * (s % (l / 512)) := by rw [hl]
    _ = 512 * (l / 512 * (s / (l / 512)) + s % (l / 512)) + s / (l / 512) * (l % 512) := by ring
    _ = s * 512 + s / (l / 512) * (l % 512) := by rw [hs, Nat.mul_comm]

/-- What the blocks leave of the sectors is less than a block. -/
theorem agrees_iff {s l : Nat} (hl : 512 ≤ l) :
    (s / (l / 512) * l ≤ s * 512 ∧ s * 512 - s / (l / 512) * l < max 512 l) ↔
      s / (l / 512) * (l % 512) ≤ 512 * (s % (l / 512)) := by
  have hblocks := blocks_mul s l
  have hcut : s % (l / 512) < l / 512 := Nat.mod_lt _ (by omega)
  have hdiv := Nat.div_add_mod l 512
  rw [max_eq_right hl]
  omega

/-- The same with another sector size, read after the division. -/
theorem agrees_later_iff {s l l' : Nat} (hl : 512 ≤ l) :
    (s / (l / 512) * l = s / (l / 512) * l' ∧ s / (l / 512) * l ≤ s * 512 ∧
        s * 512 - s / (l / 512) * l < max 512 l') ↔
      (l = l' ∧ s / (l / 512) * (l % 512) ≤ 512 * (s % (l / 512))) ∨
        (s < l / 512 ∧ s * 512 < max 512 l') := by
  have hpos : 0 < l / 512 := by omega
  by_cases hsame : l = l'
  · subst hsame
    rw [agrees_iff hl]
    constructor
    · exact fun h => .inl ⟨rfl, h.2⟩
    · rintro (⟨-, h⟩ | ⟨hlt, -⟩)
      · exact ⟨rfl, h⟩
      · refine ⟨rfl, ?_⟩
        rw [Nat.div_eq_of_lt hlt, Nat.zero_mul]
        exact Nat.zero_le _
  · constructor
    · rintro ⟨htotal, -, hrest⟩
      rcases Nat.eq_zero_or_pos (s / (l / 512)) with hzero | hblocks
      · rw [hzero, Nat.zero_mul, Nat.sub_zero] at hrest
        exact .inr ⟨(Nat.div_eq_zero_iff_lt hpos).mp hzero, hrest⟩
      · exact absurd (Nat.eq_of_mul_eq_mul_left hblocks htotal) hsame
    · rintro (⟨heq, -⟩ | ⟨hlt, hrest⟩)
      · exact absurd heq hsame
      · rw [Nat.div_eq_of_lt hlt, Nat.zero_mul, Nat.zero_mul]
        exact ⟨rfl, Nat.zero_le _, hrest⟩

end numbers

/-! ## One round of reads -/

section round

variable {sectors : UInt64} {sectorSize : UInt32}

/-- The divisor is 0 for every sector size below 512, not only for a missing one. -/
theorem divisor_eq_zero_iff :
    sectorSize.toUInt64 / DEFAULT_SECTOR_SIZE = 0 ↔ sectorSize.toNat < 512 := by
  rw [← UInt64.toNat_inj, UInt64.toNat_div, UInt32.toNat_toUInt64]
  show sectorSize.toNat / 512 = 0 ↔ _
  omega

/-- The division of 64-bit numbers is that of natural numbers; a divisor of 0 is treated apart. -/
theorem toNat_blocks : (sectors / (sectorSize.toUInt64 / DEFAULT_SECTOR_SIZE)).toNat =
    sectors.toNat / (sectorSize.toNat / 512) := by
  rw [UInt64.toNat_div, UInt64.toNat_div, UInt32.toNat_toUInt64]
  rfl

namespace DiskSize

variable {d : DiskSize} {a : SizeAttributes}

/-- Where no size is read only the sector size is replaced. -/
theorem determineSize_of_none (h : a.sectors = none) :
    d.determineSize a =
      some { d with m_LogicalSectorSize := a.sectorSize d.m_LogicalSectorSize } := by
  unfold determineSize
  rw [h]

/-- A size is divided by the sector size if that is at least 512. -/
theorem determineSize_of_some (h : a.sectors = some sectors) :
    d.determineSize a =
      if (a.sectorSize d.m_LogicalSectorSize).toNat < 512 then none
      else some
        ⟨sectors / ((a.sectorSize d.m_LogicalSectorSize).toUInt64 / DEFAULT_SECTOR_SIZE) *
            (a.sectorSize d.m_LogicalSectorSize).toUInt64,
          sectors / ((a.sectorSize d.m_LogicalSectorSize).toUInt64 / DEFAULT_SECTOR_SIZE),
          a.sectorSize d.m_LogicalSectorSize⟩ := by
  unfold determineSize
  rw [h]
  dsimp only
  simp only [divisor_eq_zero_iff]

/-- The fields after a division agree with its size iff the sectors pay for it; with another sector
size only an empty disk does. -/
theorem agrees_divided_iff {later : UInt32} (hsize : 512 ≤ sectorSize.toNat)
    (hfits : NoOverflow sectors sectorSize) :
    Agrees ⟨sectors / (sectorSize.toUInt64 / DEFAULT_SECTOR_SIZE) * sectorSize.toUInt64,
        sectors / (sectorSize.toUInt64 / DEFAULT_SECTOR_SIZE), later⟩ sectors ↔
      (sectorSize = later ∧ PaidFor sectors sectorSize) ∨
        (sectors.toNat < sectorSize.toNat / 512 ∧ sectors.toNat * 512 < max 512 later.toNat) := by
  have htotal : (sectors / (sectorSize.toUInt64 / DEFAULT_SECTOR_SIZE) * sectorSize.toUInt64).toNat =
      sectors.toNat / (sectorSize.toNat / 512) * sectorSize.toNat := by
    rw [UInt64.toNat_mul, toNat_blocks, UInt32.toNat_toUInt64, Nat.mod_eq_of_lt hfits.2]
  rw [← UInt32.toNat_inj, PaidFor, ← agrees_later_iff hsize]
  constructor
  · rintro ⟨h, hle, hrest⟩
    dsimp only at h hle hrest
    rw [htotal] at h hle hrest
    rw [toNat_blocks] at h
    exact ⟨h, hle, hrest⟩
  · rintro ⟨h, hle, hrest⟩
    refine ⟨?_, ?_, ?_⟩ <;> dsimp only <;> rw [htotal]
    · rwa [toNat_blocks]
    · exact hle
    · exact hrest

/-- Where the sector size stays, an empty disk is paid for as well. -/
theorem agrees_same_iff (hsize : 512 ≤ sectorSize.toNat) (hfits : NoOverflow sectors sectorSize) :
    Agrees ⟨sectors / (sectorSize.toUInt64 / DEFAULT_SECTOR_SIZE) * sectorSize.toUInt64,
        sectors / (sectorSize.toUInt64 / DEFAULT_SECTOR_SIZE), sectorSize⟩ sectors ↔
      PaidFor sectors sectorSize := by
  rw [agrees_divided_iff hsize hfits]
  constructor
  · rintro (⟨-, hpaid⟩ | ⟨hlt, -⟩)
    · exact hpaid
    · unfold PaidFor
      rw [Nat.div_eq_of_lt hlt, Nat.zero_mul]
      exact Nat.zero_le _
  · exact fun hpaid => .inl ⟨rfl, hpaid⟩

end DiskSize

/-- A size that is read is divided by a sector size of at least 512, and is paid for. -/
def SizeAttributes.Fits (a : SizeAttributes) (before : UInt32) : Prop :=
  ∀ sectors ∈ a.sectors, 512 ≤ (a.sectorSize before).toNat ∧
    (NoOverflow sectors (a.sectorSize before) → PaidFor sectors (a.sectorSize before))

/-- A size of the first round that is left by the second one is paid for with the same sector size, or
it is 0 blocks and less than the other sector size. -/
def SizeAttributes.FitsLater (a b : SizeAttributes) : Prop :=
  ∀ sectors ∈ a.sectors, NoOverflow sectors (a.sectorSize 0) →
    (a.sectorSize 0 = b.sectorSize (a.sectorSize 0) ∧ PaidFor sectors (a.sectorSize 0)) ∨
      (sectors.toNat < (a.sectorSize 0).toNat / 512 ∧
        sectors.toNat * 512 < max 512 (b.sectorSize (a.sectorSize 0)).toNat)

/-- One round of reads is safe iff its size fits. -/
theorem sizeIsSafe_determineSize_iff {d : DiskSize} {a : SizeAttributes}
    (h : a.sectors.isSome) : SizeIsSafe (d.determineSize a) (a.reading d.m_LogicalSectorSize) ↔
      a.Fits d.m_LogicalSectorSize := by
  obtain ⟨sectors, hsectors⟩ := Option.isSome_iff_exists.mp h
  unfold SizeIsSafe SizeAttributes.Fits SizeAttributes.reading
  rw [DiskSize.determineSize_of_some hsectors, hsectors]
  simp only [Option.map_some, Option.mem_def, Option.some.injEq, forall_eq']
  split
  next hlt => exact iff_of_false (by simp) fun hfits => absurd hfits.1 (by omega)
  next hge =>
    have hsize := Nat.le_of_not_lt hge
    rw [and_iff_right hsize]
    constructor
    · rintro ⟨d', heq, hagrees⟩ hfits
      obtain rfl := Option.some.inj heq
      exact (DiskSize.agrees_same_iff hsize hfits).mp (hagrees hfits)
    · intro hpaid
      exact ⟨_, rfl, fun hfits => (DiskSize.agrees_same_iff hsize hfits).mpr (hpaid hfits)⟩

/-- Without a size that was read there is nothing that the fields would have to agree with. -/
theorem sizeIsSafe_none (d : DiskSize) : SizeIsSafe (some d) none := ⟨d, rfl, by simp⟩

end round

/-! ## Main result -/

/-- The size of an end device is safe iff the one that is read fits. -/
theorem sizeIsSafe_endDeviceDiscover_iff (a : SizeAttributes) :
    SizeIsSafe (DiskSize.endDeviceDiscover a) (a.reading 0) ↔ a.Fits 0 := by
  rcases hsectors : a.sectors with _ | sectors
  · refine iff_of_true ?_ ?_
    · unfold DiskSize.endDeviceDiscover SizeAttributes.reading
      rw [DiskSize.determineSize_of_none hsectors, hsectors]
      exact sizeIsSafe_none _
    · unfold SizeAttributes.Fits
      simp [hsectors]
  · exact sizeIsSafe_determineSize_iff (d := DiskSize.new) (by simp [hsectors])

/-- Nothing is divided by zero in a round iff a size is read with a sector size of at least 512. -/
theorem isSome_determineSize_iff (d : DiskSize) (a : SizeAttributes) :
    (d.determineSize a).isSome ↔
      ∀ sectors ∈ a.sectors, 512 ≤ (a.sectorSize d.m_LogicalSectorSize).toNat := by
  rcases hsectors : a.sectors with _ | sectors
  · simp [DiskSize.determineSize_of_none hsectors]
  · rw [DiskSize.determineSize_of_some hsectors]
    simp only [Option.mem_def, Option.some.injEq, forall_eq']
    split
    next hlt => exact iff_of_false (by simp) (Nat.not_le.mpr hlt)
    next hge => exact iff_of_true rfl (Nat.le_of_not_lt hge)

/-- The discovery of an end device ends without a division by zero iff a size, where one is read, meets
a sector size of at least 512. -/
theorem isSome_endDeviceDiscover_iff (a : SizeAttributes) :
    (DiskSize.endDeviceDiscover a).isSome ↔
      ∀ sectors ∈ a.sectors, 512 ≤ (a.sectorSize 0).toNat :=
  isSome_determineSize_iff .new a

/-- The sector size that the first round leaves is what the second one starts from. -/
theorem sectorSize_of_endDeviceDiscover {a : SizeAttributes} {d : DiskSize}
    (h : DiskSize.endDeviceDiscover a = some d) : d.m_LogicalSectorSize = a.sectorSize 0 := by
  unfold DiskSize.endDeviceDiscover at h
  rcases hsectors : a.sectors with _ | sectors
  · rw [DiskSize.determineSize_of_none hsectors] at h
    obtain rfl := Option.some.inj h
    rfl
  · rw [DiskSize.determineSize_of_some hsectors] at h
    split at h
    next => simp at h
    next =>
      obtain rfl := Option.some.inj h
      rfl

/-- A size of the first round that the second one leaves. -/
theorem sizeIsSafe_left_iff {a b : SizeAttributes} (hsome : (DiskSize.endDeviceDiscover a).isSome)
    (hnone : b.sectors = none) :
    SizeIsSafe (DiskSize.nvmeDiskDiscover a b) (a.reading 0) ↔ a.FitsLater b := by
  have hsize := (isSome_endDeviceDiscover_iff a).mp hsome
  unfold DiskSize.nvmeDiskDiscover SizeAttributes.reading SizeAttributes.FitsLater
  rcases hsectors : a.sectors with _ | sectors
  · obtain ⟨d, hd⟩ := Option.isSome_iff_exists.mp hsome
    rw [hd, Option.bind_some, DiskSize.determineSize_of_none hnone]
    exact iff_of_true (sizeIsSafe_none _) (by simp)
  · have hge := hsize sectors hsectors
    have hfirst := (DiskSize.determineSize_of_some (d := DiskSize.new) hsectors).trans
      (if_neg (Nat.not_lt.mpr hge))
    rw [DiskSize.endDeviceDiscover, hfirst, Option.bind_some, DiskSize.determineSize_of_none hnone]
    simp only [Option.map_some, Option.mem_def, Option.some.injEq, forall_eq']
    constructor
    · rintro ⟨d, heq, hagrees⟩ hfits
      obtain rfl := Option.some.inj heq
      exact (DiskSize.agrees_divided_iff hge hfits).mp (hagrees _ rfl hfits)
    · intro hlater
      refine ⟨_, rfl, ?_⟩
      rintro x ⟨rfl⟩ hfits
      exact (DiskSize.agrees_divided_iff hge hfits).mpr (hlater hfits)

/-- The two rounds of an NVMe disk: the first must not divide by zero, the second must fit, and a size
that only the first has read must fit what the second leaves. -/
theorem sizeIsSafe_nvmeDiskDiscover_iff (a b : SizeAttributes) :
    SizeIsSafe (DiskSize.nvmeDiskDiscover a b) ((b.reading (a.sectorSize 0)).or (a.reading 0)) ↔
      (∀ sectors ∈ a.sectors, 512 ≤ (a.sectorSize 0).toNat) ∧ b.Fits (a.sectorSize 0) ∧
        (b.sectors = none → a.FitsLater b) := by
  rw [← isSome_endDeviceDiscover_iff]
  rcases hfirst : DiskSize.endDeviceDiscover a with _ | d
  · unfold DiskSize.nvmeDiskDiscover
    rw [hfirst]
    exact iff_of_false (fun ⟨_, h, _⟩ => by simp at h) fun h => by simp at h
  · have hsome : (DiskSize.endDeviceDiscover a).isSome := by rw [hfirst]; rfl
    rcases hsectors : b.sectors with _ | sectors
    · have hreading : b.reading (a.sectorSize 0) = none := by
        unfold SizeAttributes.reading
        rw [hsectors]
        rfl
      rw [hreading, Option.none_or, sizeIsSafe_left_iff hsome hsectors]
      simp [SizeAttributes.Fits, hsectors]
    · have hreading : (b.reading (a.sectorSize 0)).or (a.reading 0) = b.reading (a.sectorSize 0) := by
        unfold SizeAttributes.reading
        rw [hsectors]
        rfl
      have hround := sizeIsSafe_determineSize_iff (d := d) (a := b) (by simp [hsectors])
      rw [sectorSize_of_endDeviceDiscover hfirst] at hround
      rw [hreading, DiskSize.nvmeDiskDiscover, hfirst, Option.bind_some, hround]
      simp

/-- For all contents of the attributes: nothing is divided by zero and the fields agree with the size
that was read, iff it was read with a sector size of at least 512 that the sectors pay for. -/
theorem sizeIsSafe_iff (a b : SizeAttributes) :
    (SizeIsSafe (DiskSize.endDeviceDiscover a) (a.reading 0) ↔ a.Fits 0) ∧
      (SizeIsSafe (DiskSize.nvmeDiskDiscover a b) ((b.reading (a.sectorSize 0)).or (a.reading 0)) ↔
        (∀ sectors ∈ a.sectors, 512 ≤ (a.sectorSize 0).toNat) ∧ b.Fits (a.sectorSize 0) ∧
          (b.sectors = none → a.FitsLater b)) :=
  ⟨sizeIsSafe_endDeviceDiscover_iff a, sizeIsSafe_nvmeDiskDiscover_iff a b⟩

/-- The block size is missing, and a disk of 2048 sectors is divided by zero. -/
theorem not_sizeIsSafe_missing :
    ¬ ∀ a b : SizeAttributes, SizeIsSafe (DiskSize.endDeviceDiscover a) (a.reading 0) ∧
      SizeIsSafe (DiskSize.nvmeDiskDiscover a b) ((b.reading (a.sectorSize 0)).or (a.reading 0)) := by
  intro h
  obtain ⟨⟨d, hd, -⟩, -⟩ := h ⟨none, some (lit "2048\n")⟩ ⟨none, none⟩
  have hnone : DiskSize.endDeviceDiscover ⟨none, some (lit "2048\n")⟩ = none := by decide +kernel
  rw [hnone] at hd
  simp at hd

end Irstessi
