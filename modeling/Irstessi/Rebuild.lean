import Irstessi.Interface

/-!
# The size of a rebuild target

`Volume::rebuild` works the size of a member out of the size of the volume and the number of disks
that are attached to it.

* `CallSession.rebuildTarget`: what `SsiVolumeRebuild` checks, up to the call of `Array::addSpare`;
  `SsiVolumeRebuild_eq`.
* `ListedVolume.DegradedGeometry`: a degraded volume with its component size and its members.
* **`largeEnough_iff`**: only disks of at least the component size are handed on, exactly but for a
  level 5 volume that has kept all its members and for a level 10 volume of less than four members.

The function divides the size of the volume by a number that depends on the level and on the disks that
are attached, and not on how many members the volume should have. Both sizes are words of 64 bits;
within the geometry nothing wraps around, and the requirement becomes a quotient of natural numbers. A
quotient by fewer disks than there are members is not less than a component, which is why the check is
right for most degraded volumes; the exceptions are level 5 where it divides by as many disks as there
are members, and level 10 where it divides by 2 what is less than two components.
-/

namespace Irstessi

open Interact

/-- The number of data disks of a volume with `n` members. -/
def dataDisks (raidLevel : UInt32) (n : Nat) : Nat :=
  if raidLevel = 0 then n
  else if raidLevel = 1 then 1
  else if raidLevel = 5 then n - 1
  else n / 2

/-- All members of a RAID 0 volume hold data. -/
@[simp] theorem dataDisks_raid0 (n : Nat) : dataDisks 0 n = n := by simp [dataDisks]

/-- A mirror holds its data once. -/
@[simp] theorem dataDisks_raid1 (n : Nat) : dataDisks 1 n = 1 := by simp [dataDisks]

/-- One member's worth of a RAID 5 volume is parity. -/
@[simp] theorem dataDisks_raid5 (n : Nat) : dataDisks 5 n = n - 1 := by simp [dataDisks]

/-- Half of the members of a RAID 10 volume are mirrors. -/
@[simp] theorem dataDisks_raid10 (n : Nat) : dataDisks 10 n = n / 2 := by simp [dataDisks]

/-! ## The call up to `addSpare` -/

/-- The status, or the disk that is handed to `Array::addSpare` with the container.
Source: `volume.cpp` `Volume::rebuild` -/
def ListedVolume.rebuildTarget (v : ListedVolume) (pEndDevice : ListedDevice) :
    SysProg (SSI_Status ⊕ RaidArray × ListedDevice) :=
  match v.requiredSize with
  | none => pure (.inl .invalidParameter)
  | some requiredSize =>
      if pEndDevice.m_TotalSize < requiredSize then do
        setLastErrorMessage (Command.concat [.ofLit "For RAID ", .ofNat v.m_RaidLevel.toNat,
          .ofLit " minimum size is: ", .ofNat requiredSize.toNat,
          .ofLit " and an actual size of the disk is: ", .ofNat pEndDevice.m_TotalSize.toNat])
        pure (.inl .invalidParameter)
      else
        match v.m_pParent with
        | some pArray => pure (.inr (pArray, pEndDevice))
        | none => pure (.inl .failed)

/-- `Array::addSpare` for a disk that is handed on. -/
def addTarget : SSI_Status ⊕ RaidArray × ListedDevice → SysProg SSI_Status
  | .inl status => pure status
  | .inr (pArray, pEndDevice) => pArray.addSpare [pEndDevice.toEndDevice]

/-- A rebuild is the choice of the target, which may refuse, and then the one command that adds it. -/
theorem ListedVolume.rebuild_eq (v : ListedVolume) (pEndDevice : ListedDevice) :
    v.rebuild pEndDevice = v.rebuildTarget pEndDevice >>= addTarget := by
  unfold rebuild rebuildTarget
  rcases v.requiredSize with _ | requiredSize
  · rfl
  dsimp only
  split
  next => rfl
  next => rcases v.m_pParent with _ | pArray <;> rfl

/-- The disk is handed on where its size is not below the requirement. -/
theorem ListedVolume.mayReturn_rebuildTarget_iff (v : ListedVolume) (pEndDevice d : ListedDevice)
    (pArray : RaidArray) :
    (v.rebuildTarget pEndDevice).MayReturn (.inr (pArray, d)) ↔
      d = pEndDevice ∧ v.m_pParent = some pArray ∧
        ∃ requiredSize, v.requiredSize = some requiredSize ∧ requiredSize ≤ d.m_TotalSize := by
  unfold rebuildTarget
  rcases v.requiredSize with _ | requiredSize
  · simp
  dsimp only
  split
  next hsmall =>
    apply iff_of_false
    · exact nofun
    · rintro ⟨rfl, -, r, hr, hle⟩
      obtain rfl := Option.some.inj hr
      exact absurd hsmall (UInt64.not_lt.mpr hle)
  next hlarge =>
    rcases v.m_pParent with _ | a
    · simp
    · rw [Prog.mayReturn_pure, Sum.inr.injEq, Prod.mk.injEq]
      constructor
      · rintro ⟨rfl, rfl⟩
        exact ⟨rfl, rfl, requiredSize, rfl, UInt64.not_lt.mp hlarge⟩
      · rintro ⟨rfl, ha, -⟩
        exact ⟨Option.some.inj ha, rfl⟩

namespace CallSession

variable (s : CallSession)

/-- What `SsiVolumeRebuild` hands to `Array::addSpare`.
Source: `src/volume.cpp` `SsiVolumeRebuild` -/
def rebuildTarget (volumeHandle diskHandle : Nat) :
    SysProg (SSI_Status ⊕ RaidArray × ListedDevice) :=
  match s.getVolume volumeHandle with
  | none => pure (.inl .invalidHandle)
  | some pVolume =>
      match s.getEndDevice diskHandle with
      | none => pure (.inl .invalidHandle)
      | some pEndDevice =>
          if pEndDevice.fultondalex8 then pure (.inl .notSupported)
          else if pVolume.m_State ≠ .degraded then pure (.inl .invalidState)
          else if pVolume.logicalSectorSize ≠ pEndDevice.m_LogicalSectorSize then
            pure (.inl .notSupported)
          else pVolume.rebuildTarget pEndDevice

/-- The call is its checks, and then `Array::addSpare`. -/
theorem SsiVolumeRebuild_eq (volumeHandle diskHandle : Nat) :
    SsiVolumeRebuild s volumeHandle diskHandle =
      s.rebuildTarget volumeHandle diskHandle >>= addTarget := by
  unfold SsiVolumeRebuild rebuildTarget
  rcases s.getVolume volumeHandle with _ | v
  · rfl
  rcases s.getEndDevice diskHandle with _ | d
  · rfl
  dsimp only
  split_ifs
  · rfl
  · rfl
  · rfl
  · exact v.rebuild_eq d

/-- The choice of the target, written out: which disks of a degraded volume it may return, over
everything that the system may answer. -/
theorem mayReturn_rebuildTarget_iff {volumeHandle diskHandle : Nat} {v : ListedVolume}
    (hv : s.getVolume volumeHandle = some v) (hstate : v.m_State = .degraded) {pArray : RaidArray}
    {d : ListedDevice} :
    (s.rebuildTarget volumeHandle diskHandle).MayReturn (.inr (pArray, d)) ↔
      s.getEndDevice diskHandle = some d ∧ d.fultondalex8 = false ∧
        v.logicalSectorSize = d.m_LogicalSectorSize ∧ v.m_pParent = some pArray ∧
        ∃ requiredSize, v.requiredSize = some requiredSize ∧ requiredSize ≤ d.m_TotalSize := by
  unfold rebuildTarget
  rcases s.getEndDevice diskHandle with _ | d'
  · simp [hv]
  simp only [hv, hstate, Option.some.injEq]
  by_cases hchecked : d'.fultondalex8 = false ∧ v.logicalSectorSize = d'.m_LogicalSectorSize
  · simp only [hchecked.1, hchecked.2, Bool.false_eq_true, ne_eq, not_true_eq_false, if_false]
    rw [v.mayReturn_rebuildTarget_iff d' d pArray]
    constructor
    · rintro ⟨rfl, hrest⟩
      exact ⟨rfl, hchecked.1, rfl, hrest⟩
    · rintro ⟨rfl, -, -, hrest⟩
      exact ⟨rfl, hrest⟩
  · apply iff_of_false
    · rw [not_and_or, Bool.not_eq_false] at hchecked
      rcases hchecked with hx8 | hsectors
      · simp [hx8]
      · split
        next => exact nofun
        next => exact nofun
    · rintro ⟨rfl, hx8, hsectors, -⟩
      exact hchecked ⟨hx8, hsectors⟩

end CallSession

/-! ## Degraded volumes -/

/-- A degraded volume of level 1, 5 or 10 with `n` members of `c` bytes, some of them still
attached. -/
structure ListedVolume.DegradedGeometry (v : ListedVolume) (c n : Nat) : Prop where
  state : v.m_State = .degraded
  level : v.m_RaidLevel = 1 ∨ v.m_RaidLevel = 5 ∨ v.m_RaidLevel = 10
  total : v.totalSize.toNat = c * dataDisks v.m_RaidLevel n
  attached : v.m_BlockDevices.length ≤ n

/-- The sizes for which the requirement of `rebuild` is too low: by the level, the number of attached
disks, the component size and the number of members. -/
def SizeTooLow (raidLevel : UInt32) (attached c n size : Nat) : Prop :=
  (raidLevel = 5 ∧ 0 < n ∧ attached = n ∧ c * (n - 1) / n ≤ size ∧ size < c) ∨
    (raidLevel = 10 ∧ n < 4 ∧ c * (n / 2) / 2 ≤ size ∧ size < c)

/-- The quotient by the number of attached disks, where that is smaller than the number of members. -/
theorem le_div_of_lt {c n k : Nat} (hk : 0 < k) (hkn : k < n) : c ≤ c * (n - 1) / k := by
  rw [Nat.le_div_iff_mul_le hk]
  exact Nat.mul_le_mul_left c (by omega)

/-- The number of attached disks is read as a 64-bit word; one that does not fit is larger than the
size of the volume. -/
theorem div_word_eq {c n k : Nat} (hc : 0 < c) (htotal : c * (n - 1) < 2 ^ 64) (hk : k ≤ n) :
    c * (n - 1) / (k % 2 ^ 64) = c * (n - 1) / k := by
  by_cases hfits : k < 2 ^ 64
  · rw [Nat.mod_eq_of_lt hfits]
  · have hle : n - 1 ≤ c * (n - 1) := Nat.le_mul_of_pos_left _ hc
    have hk' : k = 2 ^ 64 := by omega
    rw [hk', Nat.mod_self, Nat.div_zero, Nat.div_eq_of_lt htotal]

namespace ListedVolume.DegradedGeometry

variable {v : ListedVolume} {c n : Nat}

/-- The requirement as a number, by the level. -/
theorem meets_iff (h : v.DegradedGeometry c n) (hc : 0 < c) {size : UInt64} :
    (∃ requiredSize, v.requiredSize = some requiredSize ∧ requiredSize ≤ size) ↔
      (v.m_RaidLevel = 1 ∧ c ≤ size.toNat) ∨
      (v.m_RaidLevel = 5 ∧ 0 < v.m_BlockDevices.length ∧
        c * (n - 1) / v.m_BlockDevices.length ≤ size.toNat) ∨
      (v.m_RaidLevel = 10 ∧ c * (n / 2) / 2 ≤ size.toNat) := by
  have htotal := h.total
  have hattached := h.attached
  have hword := v.totalSize.toNat_lt
  unfold requiredSize
  rcases h.level with hlevel | hlevel | hlevel
  · rw [hlevel, dataDisks_raid1, Nat.mul_one] at htotal
    simp [hlevel, UInt64.le_iff_toNat_le, htotal]
  · rw [hlevel, dataDisks_raid5] at htotal
    rw [htotal] at hword
    by_cases hnone : v.m_BlockDevices = []
    · simp [hlevel, hnone]
    · have hquotient : (v.totalSize / UInt64.ofNat v.m_BlockDevices.length).toNat =
          c * (n - 1) / v.m_BlockDevices.length := by
        rw [UInt64.toNat_div, UInt64.toNat_ofNat', htotal, div_word_eq hc hword hattached]
      simp [hlevel, hnone, UInt64.le_iff_toNat_le, hquotient, List.length_pos_iff]
  · rw [hlevel, dataDisks_raid10] at htotal
    simp [hlevel, UInt64.le_iff_toNat_le, UInt64.toNat_div, htotal]

end ListedVolume.DegradedGeometry

namespace CallSession

variable (s : CallSession) (volumeHandle diskHandle c n : Nat)

/-- For a degraded volume of this geometry, only disks of at least `c` bytes are handed to
`Array::addSpare`. -/
def LargeEnough : Prop :=
  ∀ v, s.getVolume volumeHandle = some v → v.DegradedGeometry c n →
    ∀ pArray d, (s.rebuildTarget volumeHandle diskHandle).MayReturn (.inr (pArray, d)) →
      c ≤ d.m_TotalSize.toNat

/-- A disk whose size is too small passes the other checks, and the requirement is too low. -/
structure PassesTooSmall (v : ListedVolume) (d : ListedDevice) : Prop where
  volume : s.getVolume volumeHandle = some v
  disk : s.getEndDevice diskHandle = some d
  geometry : v.DegradedGeometry c n
  fultondalex8 : d.fultondalex8 = false
  sectors : v.logicalSectorSize = d.m_LogicalSectorSize
  parent : v.m_pParent ≠ none
  tooLow : SizeTooLow v.m_RaidLevel v.m_BlockDevices.length c n d.m_TotalSize.toNat

variable {s volumeHandle diskHandle c n}

/-- For a disk that is too small the requirement is met exactly where it is too low. -/
theorem sizeTooLow_iff {v : ListedVolume} (h : v.DegradedGeometry c n) {size : UInt64}
    (hsmall : size.toNat < c) :
    (∃ requiredSize, v.requiredSize = some requiredSize ∧ requiredSize ≤ size) ↔
      SizeTooLow v.m_RaidLevel v.m_BlockDevices.length c n size.toNat := by
  have hattached := h.attached
  rw [h.meets_iff (by omega)]
  constructor
  · rintro (⟨-, hle⟩ | ⟨hlevel, hsome, hle⟩ | ⟨hlevel, hle⟩)
    · omega
    · have hall : v.m_BlockDevices.length = n := by
        by_contra hne
        have hlarge := le_div_of_lt (c := c) hsome (show v.m_BlockDevices.length < n by omega)
        omega
      rw [hall] at hsome hle
      exact .inl ⟨hlevel, hsome, hall, hle, hsmall⟩
    · have hfew : n < 4 := by
        by_contra hmany
        have hlarge : c * 2 ≤ c * (n / 2) := Nat.mul_le_mul_left c (by omega)
        omega
      exact .inr ⟨hlevel, hfew, hle, hsmall⟩
  · rintro (⟨hlevel, hsome, hall, hle, -⟩ | ⟨hlevel, -, hle, -⟩)
    · exact .inr (.inl ⟨hlevel, by omega, by rwa [hall]⟩)
    · exact .inr (.inr ⟨hlevel, hle⟩)

end CallSession

/-- **A rebuild target is large enough** exactly where no disk passes that is too small. The failing
requests are described by `PassesTooSmall`: a degraded volume of the geometry, a disk that passes the
other checks, and a level and a number of attached disks for which the quotient is smaller than a
component. -/
theorem largeEnough_iff (s : CallSession) (volumeHandle diskHandle c n : Nat) :
    s.LargeEnough volumeHandle diskHandle c n ↔
      ¬ ∃ v d, s.PassesTooSmall volumeHandle diskHandle c n v d := by
  constructor
  · rintro hlarge ⟨v, d, h⟩
    obtain ⟨pArray, hparent⟩ := Option.ne_none_iff_exists'.mp h.parent
    have hsmall : d.m_TotalSize.toNat < c := by
      rcases h.tooLow with ⟨-, -, -, -, hlt⟩ | ⟨-, -, -, hlt⟩
      · exact hlt
      · exact hlt
    have hmeets := (CallSession.sizeTooLow_iff h.geometry hsmall).mpr h.tooLow
    have hle := hlarge v h.volume h.geometry pArray d
      ((s.mayReturn_rebuildTarget_iff h.volume h.geometry.state).mpr
        ⟨h.disk, h.fultondalex8, h.sectors, hparent, hmeets⟩)
    omega
  · intro hnone v hv hgeometry pArray d hreturn
    obtain ⟨hd, hx8, hsectors, hparent, hmeets⟩ :=
      (s.mayReturn_rebuildTarget_iff hv hgeometry.state).mp hreturn
    by_contra hsmall
    refine hnone ⟨v, d, hv, hd, hgeometry, hx8, hsectors, by simp [hparent], ?_⟩
    exact (CallSession.sizeTooLow_iff hgeometry (Nat.lt_of_not_le hsmall)).mp hmeets

section sample

/-- A level 5 volume of three members of 300 GiB, one of them failed and still attached. -/
def sampleDegraded : ListedVolume :=
  let members := [sampleDisk (.ofLit "sda") .arrayMember, sampleDisk (.ofLit "sdb") .arrayMember,
    { sampleDisk (.ofLit "sdc") .arrayMember with diskState := .failed }]
  ⟨⟨⟨.empty, .ofLit "md126", .ofLit "vol", .ofLit "bb:2", members⟩,
      some { sampleArray with m_BlockDevices := members, m_Busy := true }, 0, 5, false, 64 * 1024, 0,
      300 * 1024 * 1024, .degraded, .off, none⟩,
    600 * 1024 * 1024 * 1024, 512⟩

/-- A free disk of 250 GiB is taken for it. -/
theorem not_largeEnough_attached :
    ¬ ∀ (s : CallSession) (volumeHandle diskHandle c n : Nat),
      s.LargeEnough volumeHandle diskHandle c n := by
  intro hlarge
  let d : ListedDevice := ⟨{ sampleDisk (.ofLit "sdd") .passThru with array := none },
    250 * 1024 * 1024 * 1024, 512, false, []⟩
  let s : CallSession := ⟨[(1, d)], [], [(2, sampleDegraded)], 3⟩
  have hgeometry : sampleDegraded.DegradedGeometry (300 * 1024 * 1024 * 1024) 3 :=
    ⟨rfl, .inr (.inl rfl), rfl, by simp [sampleDegraded]⟩
  have hle := hlarge s 2 1 _ 3 sampleDegraded rfl hgeometry _ d
    ((s.mayReturn_rebuildTarget_iff rfl rfl).mpr
      ⟨rfl, rfl, rfl, rfl, 200 * 1024 * 1024 * 1024, rfl, by simp [d]⟩)
  exact absurd hle (by simp [d])

end sample

end Irstessi
