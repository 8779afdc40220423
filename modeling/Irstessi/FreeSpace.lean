import Irstessi.Attach
import Irstessi.Lib.Words

/-!
# Free space of a container and of its members

When a container is attached, its free space is computed in bytes over all members, and that of each
member in blocks.

* `DeviceRefs.freeSize`: what the information on an end device reports.
* `SharedMembers`: every member is on every volume, and there is one sector size.
* `toNat_determineFreeSize`, `toNat_determineBlocksFree`: the two computations over one volume.
* **`freeSizesAgree_iff`**: the sizes agree iff the two of them compare alike with the strip size.

The two sizes are computed by different functions from the same members and volumes: the container's in
bytes from the sum of its members, a member's in blocks from its own size. Both are 64-bit computations;
`toNat_determineFreeSize` and `toNat_determineBlocksFree` show that nothing wraps around under
`SharedMembers` and give them as natural numbers. For several volumes both are 0 by the rule of the
source. For one volume both subtract its size and compare what is left with the strip size, once for all
members together and once for each: the theorem says exactly when these comparisons come to the same.
-/

namespace Irstessi

open Words

/-! ## Both computations over one volume -/

/-- Source: `end_device.cpp` `EndDevice::getInfo`, `pInfo->freeSize` -/
def DeviceRefs.freeSize (refs : DeviceRefs) (m_LogicalSectorSize : UInt32) : UInt64 :=
  refs.m_BlocksFree * m_LogicalSectorSize.toUInt64

/-- A member of a volume has the device's serial number. -/
def FoundDevice.IsMemberOf (d : FoundDevice) (members : List FoundDevice) : Prop :=
  members.any fun d' => d'.m_SerialNum.equal d.m_SerialNum

instance (d : FoundDevice) (members : List FoundDevice) : Decidable (d.IsMemberOf members) :=
  inferInstanceAs (Decidable (_ = true))

/-- A disk whose serial number is equal to itself is found among the members that contain it. -/
theorem FoundDevice.isMemberOf_of_mem {d : FoundDevice} {members : List FoundDevice}
    (h : d ∈ members) (hserial : d.m_SerialNum.equal d.m_SerialNum) : d.IsMemberOf members :=
  List.any_eq_true.mpr ⟨d, h, hserial⟩

/-- The bytes of a member that the volume and the metadata take. -/
def MdVolume.reserved (v : MdVolume) (sectorSize : Nat) : Nat :=
  v.attributes.m_ComponentSize.toNat * 1024 +
    (IMSM_RESERVED_SECTORS.toNat + MPB_SECTOR_CNT.toNat) * sectorSize

/-- The size of the smallest member. -/
def smallestSize (members : List FoundDevice) : Nat :=
  members.foldl (fun size d => min size d.m_TotalSize.toNat) (2 ^ 64 - 1)

/-- It is that of one of them. -/
theorem exists_smallestSize {members : List FoundDevice} (h : members ≠ []) :
    ∃ d ∈ members, smallestSize members = d.m_TotalSize.toNat := by
  have hloop : ∀ (l : List FoundDevice) (bound : Nat),
      l.foldl (fun size d => min size d.m_TotalSize.toNat) bound = bound ∨
        ∃ d ∈ l, l.foldl (fun size d => min size d.m_TotalSize.toNat) bound =
          d.m_TotalSize.toNat := by
    intro l
    induction l with
    | nil => exact fun bound => .inl rfl
    | cons d l ih =>
        intro bound
        rw [List.foldl_cons]
        rcases ih (min bound d.m_TotalSize.toNat) with heq | ⟨d', hd', heq⟩
        · rw [heq]
          rcases min_choice bound d.m_TotalSize.toNat with hmin | hmin
          · exact .inl hmin
          · exact .inr ⟨d, List.mem_cons_self, hmin⟩
        · exact .inr ⟨d', List.mem_cons_of_mem _ hd', heq⟩
  rcases hloop members (2 ^ 64 - 1) with heq | hmem
  · obtain ⟨d, hd⟩ := List.exists_mem_of_ne_nil members h
    have hle : smallestSize members ≤ d.m_TotalSize.toNat :=
      foldl_min_le (fun d : FoundDevice => d.m_TotalSize.toNat) hd _
    have hlt := d.m_TotalSize.toNat_lt
    exact ⟨d, hd, by rw [smallestSize] at hle ⊢; omega⟩
  · exact hmem

/-- The blocks of the smallest member. -/
def smallestBlocks (members : List FoundDevice) (sectorSize : Nat) : Nat :=
  members.foldl (fun blocks d => min blocks (d.m_TotalSize.toNat / sectorSize)) (2 ^ 64 - 1)

/-- The bytes that the volume leaves of the smallest member. -/
def roomInBytes (members : List FoundDevice) (v : MdVolume) (sectorSize : Nat) : Nat :=
  smallestSize members - v.reserved sectorSize

/-- The blocks that the volume leaves of its smallest member. -/
def roomInBlocks (members : List FoundDevice) (v : MdVolume) (sectorSize : Nat) : Nat :=
  smallestBlocks members sectorSize - v.reserved sectorSize / sectorSize

section single

variable {members : List FoundDevice} {v : MdVolume} {sectorSize : UInt32}

/-- Where nothing wraps around the total size is the number of members times the smallest one. -/
theorem toNat_determineTotalSize (h : smallestSize members * members.length < 2 ^ 64)
    (hlength : members.length < 2 ^ 64) :
    (determineTotalSize members).toNat = smallestSize members * members.length := by
  have hsmallest : (members.foldl (fun (size : UInt64) d => min size d.m_TotalSize)
      0xffffffffffffffff).toNat = smallestSize members := toNat_foldl_min _ _ _
  have hcount : (UInt64.ofNat members.length).toNat = members.length :=
    UInt64.toNat_ofNat_of_lt' hlength
  rw [determineTotalSize, toNat_mul_of_lt (by rwa [hsmallest, hcount]), hsmallest, hcount]

/-- The bytes that are occupied on all members. -/
theorem toNat_occupiedSize (hsector : v.attributes.logicalSectorSize = sectorSize)
    {n : Nat} (hn : 0 < n) (hpos : 0 < sectorSize.toNat)
    (h : v.reserved sectorSize.toNat * n < 2 ^ 64) :
    let occupiedSize := (0 : UInt64) + (v.attributes.m_ComponentSize <<< (10 : UInt64)) +
      IMSM_RESERVED_SECTORS * v.attributes.logicalSectorSize.toUInt64
    (if occupiedSize > 0 then
      (occupiedSize + MPB_SECTOR_CNT * v.attributes.logicalSectorSize.toUInt64) * UInt64.ofNat n
    else occupiedSize).toNat = v.reserved sectorSize.toNat * n := by
  intro occupiedSize
  have hle : v.reserved sectorSize.toNat ≤ v.reserved sectorSize.toNat * n :=
    Nat.le_mul_of_pos_right _ hn
  have hreserved : v.reserved sectorSize.toNat = v.attributes.m_ComponentSize.toNat * 1024 +
      (4096 + 2210) * sectorSize.toNat := rfl
  have himsm : IMSM_RESERVED_SECTORS.toNat = 4096 := rfl
  have hmpb : MPB_SECTOR_CNT.toNat = 2210 := rfl
  have hword : v.attributes.logicalSectorSize.toUInt64.toNat = sectorSize.toNat := by
    rw [hsector, UInt32.toNat_toUInt64]
  have hcomponent := toNat_shiftLeft_ten (a := v.attributes.m_ComponentSize) (by omega)
  have hperVolume : (IMSM_RESERVED_SECTORS * v.attributes.logicalSectorSize.toUInt64).toNat =
      4096 * sectorSize.toNat := by
    rw [toNat_mul_of_lt (by rw [himsm, hword]; omega), himsm, hword]
  have hmetadata : (MPB_SECTOR_CNT * v.attributes.logicalSectorSize.toUInt64).toNat =
      2210 * sectorSize.toNat := by
    rw [toNat_mul_of_lt (by rw [hmpb, hword]; omega), hmpb, hword]
  have hoccupied : occupiedSize.toNat =
      v.attributes.m_ComponentSize.toNat * 1024 + 4096 * sectorSize.toNat := by
    show (0 + _ + _ : UInt64).toNat = _
    rw [UInt64.zero_add, toNat_add_of_lt (by rw [hcomponent, hperVolume]; omega), hcomponent, hperVolume]
  have hgt : occupiedSize > 0 := by
    apply UInt64.lt_iff_toNat_lt.mpr
    rw [hoccupied]
    exact Nat.add_pos_right _ (by omega)
  have hsum : (occupiedSize + MPB_SECTOR_CNT * v.attributes.logicalSectorSize.toUInt64).toNat =
      v.reserved sectorSize.toNat := by
    rw [toNat_add_of_lt (by rw [hoccupied, hmetadata]; omega), hoccupied, hmetadata]
    omega
  have hcount : (UInt64.ofNat n).toNat = n := by
    refine UInt64.toNat_ofNat_of_lt' (Nat.lt_of_le_of_lt ?_ h)
    exact Nat.le_mul_of_pos_left n (by omega)
  rw [if_pos hgt, toNat_mul_of_lt (by rwa [hsum, hcount]), hsum, hcount]

/-- The free space of a container with one volume: what is left on all members, if that is a strip. -/
theorem toNat_determineFreeSize (hsector : v.attributes.logicalSectorSize = sectorSize)
    (hmembers : members ≠ []) (hpos : 0 < sectorSize.toNat)
    (htotal : smallestSize members * members.length < 2 ^ 64)
    (h : v.reserved sectorSize.toNat * members.length < 2 ^ 64) :
    (determineFreeSize members [v]).toNat =
      let free := roomInBytes members v sectorSize.toNat * members.length
      if free < v.attributes.m_StripSize.toNat then 0 else free := by
  have hn : 0 < members.length := List.length_pos_iff.mpr hmembers
  have hreserved : 0 < v.reserved sectorSize.toNat :=
    Nat.add_pos_right _ (Nat.mul_pos (by decide) hpos)
  have hlength : members.length < 2 ^ 64 :=
    Nat.lt_of_le_of_lt (Nat.le_mul_of_pos_left _ hreserved) h
  have hfree := toNat_sub_or_zero (determineTotalSize members) _ |>.trans
    (congrArg₂ (· - ·) (toNat_determineTotalSize htotal hlength)
      (toNat_occupiedSize hsector hn hpos h))
  have hroom : smallestSize members * members.length - v.reserved sectorSize.toNat * members.length =
      roomInBytes members v sectorSize.toNat * members.length := (Nat.sub_mul _ _ _).symm
  exact toNat_zeroBelow (hfree.trans hroom) (lt_irrefl 1)

/-- What is summed up of one volume that the device is on. -/
theorem ofVolumes_single {d : FoundDevice} (hmember : d.IsMemberOf members)
    (hpos : 0 < sectorSize.toNat) (h : v.reserved sectorSize.toNat < 2 ^ 64) :
    let o := Occupied.ofVolumes sectorSize.toUInt64 d [(v, members)]
    (if o.occupiedBlocks > 0 then o.occupiedBlocks + MPB_SECTOR_CNT else o.occupiedBlocks).toNat =
        v.reserved sectorSize.toNat / sectorSize.toNat ∧
      o.totalBlocks.toNat = smallestBlocks members sectorSize.toNat ∧
      o.stripSize = v.attributes.m_StripSize ∧ o.volumeCount = 1 := by
  have hreserved : v.reserved sectorSize.toNat = v.attributes.m_ComponentSize.toNat * 1024 +
      (4096 + 2210) * sectorSize.toNat := rfl
  have hword : sectorSize.toUInt64.toNat = sectorSize.toNat := UInt32.toNat_toUInt64 _
  have hcomponent : (v.attributes.m_ComponentSize * KILOBYTE / sectorSize.toUInt64).toNat =
      v.attributes.m_ComponentSize.toNat * 1024 / sectorSize.toNat := by
    rw [UInt64.toNat_div, hword, toNat_mul_of_lt (by show _ * 1024 < _; omega)]
    rfl
  have hle := Nat.div_le_self (v.attributes.m_ComponentSize.toNat * 1024) sectorSize.toNat
  have himsm : IMSM_RESERVED_SECTORS.toNat = 4096 := rfl
  have hmpb : MPB_SECTOR_CNT.toNat = 2210 := rfl
  have hany : (members.any fun d' => d'.m_SerialNum.equal d.m_SerialNum) = true := hmember
  have hsum : Occupied.ofVolumes sectorSize.toUInt64 d [(v, members)] =
      ⟨0 + v.attributes.m_ComponentSize * KILOBYTE / sectorSize.toUInt64 + IMSM_RESERVED_SECTORS,
        members.foldl (fun blocks d' => min blocks (d'.m_TotalSize / sectorSize.toUInt64))
          0xffffffffffffffff, v.attributes.m_StripSize, 1⟩ := by
    simp only [Occupied.ofVolumes, List.foldl_cons, List.foldl_nil, hany, if_true]
  intro o
  have ho : o = _ := hsum
  rw [ho]
  refine ⟨?_, ?_, rfl, rfl⟩
  · have hperVolume : (0 + v.attributes.m_ComponentSize * KILOBYTE / sectorSize.toUInt64 +
        IMSM_RESERVED_SECTORS).toNat =
          v.attributes.m_ComponentSize.toNat * 1024 / sectorSize.toNat + 4096 := by
      rw [UInt64.zero_add, toNat_add_of_lt (by rw [hcomponent, himsm]; omega), hcomponent, himsm]
    have hgt : 0 + v.attributes.m_ComponentSize * KILOBYTE / sectorSize.toUInt64 +
        IMSM_RESERVED_SECTORS > 0 := by
      apply UInt64.lt_iff_toNat_lt.mpr
      rw [hperVolume]
      exact Nat.succ_pos _
    rw [if_pos hgt, toNat_add_of_lt (by rw [hperVolume, hmpb]; omega), hperVolume, hmpb, hreserved,
      Nat.add_mul_div_right _ _ hpos]
  · refine (toNat_foldl_min _ _ _).trans ?_
    simp only [UInt64.toNat_div, hword]
    rfl

/-- The free blocks of a device on one volume: what is left on the smallest member, if there is a
strip in it. -/
theorem toNat_determineBlocksFree {d : FoundDevice} (hmember : d.IsMemberOf members)
    (hsector : v.attributes.logicalSectorSize = sectorSize) (hpos : 0 < sectorSize.toNat)
    (h : v.reserved sectorSize.toNat < 2 ^ 64) :
    (d.determineBlocksFree [(v, members)]).toNat =
      let free := roomInBlocks members v sectorSize.toNat
      if free < v.attributes.m_StripSize.toNat / sectorSize.toNat then 0 else free := by
  have hne : sectorSize ≠ 0 := fun hzero => by
    rw [hzero] at hpos
    exact absurd hpos (by simp)
  obtain ⟨hoccupied, htotal, hstrip, hcount⟩ := ofVolumes_single hmember hpos h
  unfold FoundDevice.determineBlocksFree
  simp only [hsector, if_neg hne, hcount, Nat.one_ne_zero, if_false, hstrip]
  have hfree := (toNat_sub_or_zero _ _).trans (congrArg₂ (· - ·) htotal hoccupied)
  have hwhole : (v.attributes.m_StripSize.toUInt64 / sectorSize.toUInt64).toNat =
      v.attributes.m_StripSize.toNat / sectorSize.toNat := by
    rw [UInt64.toNat_div, UInt32.toNat_toUInt64, UInt32.toNat_toUInt64]
  rw [toNat_zeroBelow hfree (lt_irrefl 1), hwhole]
  rfl

end single

/-! ## Several volumes -/

/-- Where every volume counts, the fold has counted them all. -/
theorem volumeCount_foldl {α : Type} {step : Occupied → α → Occupied} {volumes : List α}
    (h : ∀ v ∈ volumes, ∀ o, (step o v).volumeCount = o.volumeCount + 1) (o : Occupied) :
    (volumes.foldl step o).volumeCount = o.volumeCount + volumes.length := by
  induction volumes generalizing o with
  | nil => rfl
  | cons v volumes ih =>
      obtain ⟨hv, hvolumes⟩ := List.forall_mem_cons.mp h
      rw [List.foldl_cons, ih hvolumes, hv, List.length_cons]
      omega

/-- A device on all volumes counts them all. -/
theorem volumeCount_ofVolumes {raidSectorSize : UInt64} {d : FoundDevice}
    {volumes : List (MdVolume × List FoundDevice)} (h : ∀ v ∈ volumes, d.IsMemberOf v.2) :
    (Occupied.ofVolumes raidSectorSize d volumes).volumeCount = volumes.length := by
  rw [Occupied.ofVolumes, volumeCount_foldl, Nat.zero_add]
  intro v hv o
  have hmember : (v.2.any fun d' => d'.m_SerialNum.equal d.m_SerialNum) = true := h v hv
  rw [if_pos hmember]

/-- Neither a container with several volumes nor a device on them has free space. -/
theorem determineFreeSize_of_several {members : List FoundDevice} {volumes : List MdVolume}
    (h : volumes.length > 1) : determineFreeSize members volumes = 0 := by
  unfold determineFreeSize
  exact if_pos (.inr h)

/-- A member of more than one volume has no free blocks left by the source's rule. -/
theorem determineBlocksFree_of_several {d : FoundDevice}
    {volumes : List (MdVolume × List FoundDevice)} (hmember : ∀ v ∈ volumes, d.IsMemberOf v.2)
    (h : volumes.length > 1) : d.determineBlocksFree volumes = 0 := by
  unfold FoundDevice.determineBlocksFree
  refine if_pos (.inr ?_)
  rwa [volumeCount_ofVolumes hmember]

/-! ## Containers whose members are on every volume -/

section finish

variable (devices : List SessionDevice) (s : Session) (i : Nat) (a : MdArray)

/-- The members of the container. -/
def membersOf : List FoundDevice := devicesAt devices (s.array i).m_BlockDevices

/-- The container has volumes and every member is on all of them, sizes are whole sectors, and what
is occupied or counted over all members does not overflow. -/
structure SharedMembers (sectorSize : UInt32) : Prop where
  volumes : a.volumes ≠ []
  positions : ∀ k ∈ (s.array i).m_BlockDevices, k < devices.length
  members : ∀ d ∈ membersOf devices s i, ∀ v ∈ s.volumesOf devices i a, d.IsMemberOf v.2
  sectors : ∀ v ∈ a.volumes, v.attributes.logicalSectorSize = sectorSize
  memberSizes : ∀ d ∈ membersOf devices s i, sectorSize.toNat ∣ d.m_TotalSize.toNat
  componentSizes : ∀ v ∈ a.volumes,
    sectorSize.toNat ∣ v.attributes.m_ComponentSize.toNat * 1024
  totalSize : smallestSize (membersOf devices s i) * (membersOf devices s i).length < 2 ^ 64
  occupiedSize : ∀ v ∈ a.volumes,
    v.reserved sectorSize.toNat * (membersOf devices s i).length < 2 ^ 64

/-- Once the container is attached, its free size is the sum of what its members report. -/
def FreeSizesAgree (sectorSize : UInt32) : Prop :=
  let after := s.finish devices i a
  (after.array i).m_FreeSize.toNat = ((after.array i).m_BlockDevices.map fun k =>
    ((after.endDevice k).freeSize sectorSize).toNat).sum

instance (sectorSize : UInt32) : Decidable (FreeSizesAgree devices s i a sectorSize) :=
  inferInstanceAs (Decidable (_ = _))

/-- The volume leaves room on the members, and all of it together is at least a strip. -/
def StripInTotal (members : List FoundDevice) (v : MdVolume) (sectorSize : Nat) : Prop :=
  0 < roomInBytes members v sectorSize ∧
    v.attributes.m_StripSize.toNat ≤ roomInBytes members v sectorSize * members.length

/-- The volume leaves room on its smallest member, and that is at least the whole sectors of a
strip. -/
def StripOnMember (members : List FoundDevice) (v : MdVolume) (sectorSize : Nat) : Prop :=
  0 < roomInBlocks members v sectorSize ∧
    v.attributes.m_StripSize.toNat / sectorSize ≤ roomInBlocks members v sectorSize

instance (members : List FoundDevice) (v : MdVolume) (sectorSize : Nat) :
    Decidable (StripInTotal members v sectorSize) :=
  inferInstanceAs (Decidable (_ ∧ _))

instance (members : List FoundDevice) (v : MdVolume) (sectorSize : Nat) :
    Decidable (StripOnMember members v sectorSize) :=
  inferInstanceAs (Decidable (_ ∧ _))

variable {devices s i a}

/-- The two sizes where one volume occupies `r` bytes of members of `m` bytes, `b` being the blocks of
the smallest member of the volume. -/
theorem sizes_eq_iff {n sector strip m r b : Nat} (hn : 0 < n) (hsector : 0 < sector)
    (hm : sector ∣ m) (hr : sector ∣ r) :
    (if (m - r) * n < strip then 0 else (m - r) * n) =
        n * ((if b - r / sector < strip / sector then 0 else b - r / sector) * sector) ↔
      ((0 < m - r ∧ strip ≤ (m - r) * n) ↔
        (0 < b - r / sector ∧ strip / sector ≤ b - r / sector)) ∧
      (0 < m - r ∧ strip ≤ (m - r) * n → b * sector = m) := by
  obtain ⟨m, rfl⟩ := hm
  obtain ⟨r, rfl⟩ := hr
  rw [Nat.mul_div_cancel_left r hsector, ← Nat.mul_sub]
  have hpos : 0 < sector * (m - r) ↔ 0 < m - r := Nat.mul_pos_iff_of_pos_left hsector
  have hzero : n * ((b - r) * sector) = 0 ↔ b - r = 0 := by
    rw [Nat.mul_eq_zero, Nat.mul_eq_zero]
    omega
  have hzero' : sector * (m - r) * n = 0 ↔ m - r = 0 := by
    rw [Nat.mul_eq_zero, Nat.mul_eq_zero]
    omega
  have hsame : sector * (m - r) * n = n * ((b - r) * sector) ↔ m - r = b - r := by
    rw [Nat.mul_comm _ n, Nat.mul_comm _ sector, Nat.mul_right_inj (Nat.ne_of_gt hn),
      Nat.mul_right_inj (Nat.ne_of_gt hsector)]
  have hsmallest : b * sector = sector * m ↔ b = m := by
    rw [Nat.mul_comm, Nat.mul_right_inj (Nat.ne_of_gt hsector)]
  rw [hpos, hsmallest]
  by_cases htotal : sector * (m - r) * n < strip <;> by_cases hmember : b - r < strip / sector
  · rw [if_pos htotal, if_pos hmember]
    simp [Nat.not_le.mpr htotal, Nat.not_le.mpr hmember]
  · rw [if_pos htotal, if_neg hmember, eq_comm, hzero]
    simp only [Nat.not_le.mpr htotal, Nat.not_lt.mp hmember, and_false, and_true, false_iff,
      false_imp_iff]
    omega
  · rw [if_neg htotal, if_pos hmember, Nat.zero_mul, Nat.mul_zero, hzero']
    simp only [Nat.not_lt.mp htotal, Nat.not_le.mpr hmember, and_false, and_true, iff_false]
    omega
  · rw [if_neg htotal, if_neg hmember, hsame]
    simp only [Nat.not_lt.mp htotal, Nat.not_lt.mp hmember, and_true]
    omega

/-- Every position of the array is one of a device. -/
theorem length_membersOf (h : ∀ k ∈ (s.array i).m_BlockDevices, k < devices.length) :
    (membersOf devices s i).length = (s.array i).m_BlockDevices.length := by
  apply List.filterMap_length_eq_length.mpr
  intro k hk
  rw [List.getElem?_eq_getElem (h k hk)]
  rfl

/-- What is free on a member is determined with the volumes of the container. -/
theorem m_BlocksFree_finish (h : ∀ k ∈ (s.array i).m_BlockDevices, k < devices.length) {k : Nat}
    (hk : k ∈ (s.array i).m_BlockDevices) :
    ∃ d ∈ membersOf devices s i, ((s.finish devices i a).endDevice k).m_BlocksFree =
      d.determineBlocksFree (s.volumesOf devices i a) := by
  have hlt : k < devices.length := h k hk
  have hdevice : devices[k]? = some devices[k] := List.getElem?_eq_getElem hlt
  refine ⟨devices[k].found, List.mem_filterMap.mpr ⟨k, hk, by rw [hdevice]; rfl⟩, ?_⟩
  show (if k ∈ (s.array i).m_BlockDevices then (s.endDevice k).setBlocksFree _
    else s.endDevice k).m_BlocksFree = _
  rw [if_pos hk, hdevice]
  rfl

/-- The free size that a discovery ends with is that of the array's members and volumes. -/
theorem m_FreeSize_finish : ((s.finish devices i a).array i).m_FreeSize =
    determineFreeSize (membersOf devices s i) a.volumes := by
  show (Function.update s.array i _ i).m_FreeSize = _
  rw [Function.update_self]
  rfl

/-- The end of the discovery leaves the members as they are. -/
theorem m_BlockDevices_finish : ((s.finish devices i a).array i).m_BlockDevices =
    (s.array i).m_BlockDevices := by
  show (Function.update s.array i _ i).m_BlockDevices = _
  rw [Function.update_self]

/-- Where all members report one size, the sum is a product. -/
theorem freeSizesAgree_iff_of_forall {sectorSize : UInt32} {size : Nat}
    (h : ∀ k ∈ (s.array i).m_BlockDevices,
      (((s.finish devices i a).endDevice k).freeSize sectorSize).toNat = size) :
    FreeSizesAgree devices s i a sectorSize ↔
      (determineFreeSize (membersOf devices s i) a.volumes).toNat =
        (s.array i).m_BlockDevices.length * size := by
  unfold FreeSizesAgree
  dsimp only
  rw [m_FreeSize_finish, m_BlockDevices_finish, List.map_congr_left h, List.map_const',
    List.sum_replicate_nat]

/-- Without size there is nothing free. -/
theorem determineFreeSize_of_totalSize {members : List FoundDevice} {volumes : List MdVolume}
    (h : determineTotalSize members = 0) : determineFreeSize members volumes = 0 := by
  unfold determineFreeSize
  rw [h]
  have hzero : ∀ x : UInt64, (if x > 0 then 0 else 0 - x) = 0 := by
    intro x
    refine UInt64.toNat_inj.mp ((toNat_sub_or_zero 0 x).trans ?_)
    exact Nat.zero_sub _
  simp only [hzero, ite_self]

/-- Members without a size have none in total. -/
theorem determineTotalSize_of_smallest {members : List FoundDevice}
    (h : members = [] ∨ smallestSize members = 0) : determineTotalSize members = 0 := by
  unfold determineTotalSize
  rcases h with rfl | h
  · exact UInt64.mul_zero
  · have hsmallest : (members.foldl (fun (size : UInt64) d => min size d.m_TotalSize)
        0xffffffffffffffff).toNat = smallestSize members := toNat_foldl_min _ _ _
    rw [h] at hsmallest
    rw [UInt64.toNat_inj.mp (hsmallest.trans rfl : _ = (0 : UInt64).toNat), UInt64.zero_mul]

/-- Blocks of the smallest member fit into it. -/
theorem smallestBlocks_mul_lt {d : FoundDevice} {members : List FoundDevice} {sectorSize : Nat}
    (h : d.IsMemberOf members) : smallestBlocks members sectorSize * sectorSize < 2 ^ 64 := by
  obtain ⟨d', hd', -⟩ := List.any_eq_true.mp h
  have hle : smallestBlocks members sectorSize ≤ d'.m_TotalSize.toNat / sectorSize :=
    foldl_min_le (fun d : FoundDevice => d.m_TotalSize.toNat / sectorSize) hd' _
  calc smallestBlocks members sectorSize * sectorSize
      ≤ d'.m_TotalSize.toNat / sectorSize * sectorSize := Nat.mul_le_mul_right _ hle
    _ ≤ d'.m_TotalSize.toNat := Nat.div_mul_le_self _ _
    _ < 2 ^ 64 := d'.m_TotalSize.toNat_lt

section shared

variable {sectorSize : UInt32} (h : SharedMembers devices s i a sectorSize)

include h

/-- With several volumes there is nothing free on either side. -/
theorem freeSizesAgree_of_several (hseveral : 1 < a.volumes.length) :
    FreeSizesAgree devices s i a sectorSize := by
  have hlength : (s.volumesOf devices i a).length > 1 := by
    rwa [Session.volumesOf, List.length_map, List.length_zipIdx]
  have hsize : ∀ k ∈ (s.array i).m_BlockDevices,
      (((s.finish devices i a).endDevice k).freeSize sectorSize).toNat = 0 := by
    intro k hk
    obtain ⟨d, hd, hblocks⟩ := m_BlocksFree_finish h.positions hk
    rw [DeviceRefs.freeSize, hblocks, determineBlocksFree_of_several (h.members d hd) hlength,
      UInt64.zero_mul]
    rfl
  rw [freeSizesAgree_iff_of_forall hsize, determineFreeSize_of_several hseveral]
  exact (Nat.mul_zero _).symm

omit h in
/-- Without members there is nothing free, and nothing to sum up. -/
theorem freeSizesAgree_of_no_members (hempty : (s.array i).m_BlockDevices = []) :
    FreeSizesAgree devices s i a sectorSize := by
  have hmembers : membersOf devices s i = [] := by
    rw [membersOf, hempty]
    rfl
  have hsize : ∀ k ∈ (s.array i).m_BlockDevices,
      (((s.finish devices i a).endDevice k).freeSize sectorSize).toNat = 0 := by
    rw [hempty]
    exact fun k hk => absurd hk List.not_mem_nil
  rw [freeSizesAgree_iff_of_forall hsize,
    determineFreeSize_of_totalSize (determineTotalSize_of_smallest (.inl hmembers))]
  exact (Nat.mul_zero _).symm

/-- An array with members has devices at their positions. -/
theorem membersOf_ne_nil (hpositions : (s.array i).m_BlockDevices ≠ []) :
    membersOf devices s i ≠ [] := by
  have hlength := length_membersOf h.positions
  have hpos := List.length_pos_iff.mpr hpositions
  exact List.length_pos_iff.mp (by omega)

/-- Whole sectors of size 0 make members of size 0. -/
theorem smallestSize_of_sector_zero (hzero : sectorSize.toNat = 0)
    (hpositions : (s.array i).m_BlockDevices ≠ []) :
    smallestSize (membersOf devices s i) = 0 := by
  obtain ⟨d, hd, hsmallest⟩ := exists_smallestSize (membersOf_ne_nil h hpositions)
  have hdvd := h.memberSizes d hd
  rwa [hzero, Nat.zero_dvd, ← hsmallest] at hdvd

/-- With a sector size of 0 no blocks are counted on either side. -/
theorem freeSizesAgree_of_sector_zero (hzero : sectorSize.toNat = 0)
    (hpositions : (s.array i).m_BlockDevices ≠ []) : FreeSizesAgree devices s i a sectorSize := by
  have hword : sectorSize = 0 := UInt32.toNat_inj.mp hzero
  have hsize : ∀ k ∈ (s.array i).m_BlockDevices,
      (((s.finish devices i a).endDevice k).freeSize sectorSize).toNat = 0 := by
    intro k _
    rw [DeviceRefs.freeSize, hword]
    exact congrArg UInt64.toNat UInt64.mul_zero
  have hsmallest := smallestSize_of_sector_zero h hzero hpositions
  rw [freeSizesAgree_iff_of_forall hsize,
    determineFreeSize_of_totalSize (determineTotalSize_of_smallest (.inr hsmallest))]
  exact (Nat.mul_zero _).symm

/-- What a member reports where it is on one volume. -/
theorem toNat_freeSize_single {v : MdVolume} {members : List FoundDevice}
    (hsingle : s.volumesOf devices i a = [(v, members)]) (hv : v ∈ a.volumes)
    (hpos : 0 < sectorSize.toNat) {k : Nat} (hk : k ∈ (s.array i).m_BlockDevices) :
    (((s.finish devices i a).endDevice k).freeSize sectorSize).toNat =
      (if roomInBlocks members v sectorSize.toNat <
          v.attributes.m_StripSize.toNat / sectorSize.toNat then 0
        else roomInBlocks members v sectorSize.toNat) * sectorSize.toNat := by
  obtain ⟨d, hd, hblocks⟩ := m_BlocksFree_finish h.positions hk
  rw [hsingle] at hblocks
  have hmember : d.IsMemberOf members :=
    h.members d hd (v, members) (by rw [hsingle]; exact List.mem_singleton_self _)
  have hreserved : v.reserved sectorSize.toNat < 2 ^ 64 := by
    refine Nat.lt_of_le_of_lt (Nat.le_mul_of_pos_right _ ?_) (h.occupiedSize v hv)
    exact List.length_pos_of_mem hd
  have hnat := toNat_determineBlocksFree hmember (h.sectors v hv) hpos hreserved
  have hword : sectorSize.toUInt64.toNat = sectorSize.toNat := UInt32.toNat_toUInt64 _
  have hle : (d.determineBlocksFree [(v, members)]).toNat ≤
      smallestBlocks members sectorSize.toNat := by
    rw [hnat]
    dsimp only
    split
    next => exact Nat.zero_le _
    next => exact Nat.sub_le _ _
  have hlt := Nat.lt_of_le_of_lt (Nat.mul_le_mul_right sectorSize.toNat hle)
    (smallestBlocks_mul_lt hmember)
  rw [DeviceRefs.freeSize, hblocks, toNat_mul_of_lt (by rwa [hword]), hword, hnat]

/-- One volume and sectors that are not empty. -/
theorem freeSizesAgree_iff_of_single {v : MdVolume} {members : List FoundDevice}
    (hsingle : s.volumesOf devices i a = [(v, members)]) (hv : a.volumes = [v])
    (hpos : 0 < sectorSize.toNat) (hpositions : (s.array i).m_BlockDevices ≠ []) :
    FreeSizesAgree devices s i a sectorSize ↔
      (StripInTotal (membersOf devices s i) v sectorSize.toNat ↔
        StripOnMember members v sectorSize.toNat) ∧
      (StripInTotal (membersOf devices s i) v sectorSize.toNat →
        smallestBlocks members sectorSize.toNat * sectorSize.toNat =
          smallestSize (membersOf devices s i)) := by
  have hmem : v ∈ a.volumes := by
    rw [hv]
    exact List.mem_singleton_self v
  have hmembers := membersOf_ne_nil h hpositions
  have hm : sectorSize.toNat ∣ smallestSize (membersOf devices s i) := by
    obtain ⟨d, hd, hsmallest⟩ := exists_smallestSize hmembers
    rw [hsmallest]
    exact h.memberSizes d hd
  have hr : sectorSize.toNat ∣ v.reserved sectorSize.toNat :=
    Nat.dvd_add (h.componentSizes v hmem) (Nat.dvd_mul_left _ _)
  rw [freeSizesAgree_iff_of_forall fun k hk => toNat_freeSize_single h hsingle hmem hpos hk, hv,
    toNat_determineFreeSize (h.sectors v hmem) hmembers hpos h.totalSize (h.occupiedSize v hmem),
    ← length_membersOf h.positions]
  exact sizes_eq_iff (List.length_pos_iff.mpr hmembers) hpos hm hr

/-- Sectors of size 0 leave no room on either side. -/
theorem no_strip_of_sector_zero {v : MdVolume} {members : List FoundDevice}
    (hsingle : s.volumesOf devices i a = [(v, members)]) (hzero : sectorSize.toNat = 0)
    (hpositions : (s.array i).m_BlockDevices ≠ []) :
    ¬ StripInTotal (membersOf devices s i) v sectorSize.toNat ∧
      ¬ StripOnMember members v sectorSize.toNat := by
  have hsmallest := smallestSize_of_sector_zero h hzero hpositions
  obtain ⟨d, hd⟩ := List.exists_mem_of_ne_nil _ (membersOf_ne_nil h hpositions)
  have hmember : d.IsMemberOf members :=
    h.members d hd (v, members) (by rw [hsingle]; exact List.mem_singleton_self _)
  obtain ⟨d', hd', -⟩ := List.any_eq_true.mp hmember
  have hle : smallestBlocks members 0 ≤ d'.m_TotalSize.toNat / 0 :=
    foldl_min_le (fun d : FoundDevice => d.m_TotalSize.toNat / 0) hd' _
  rw [Nat.div_zero, Nat.le_zero] at hle
  rw [hzero]
  constructor
  · rintro ⟨hroom, -⟩
    rw [roomInBytes, hsmallest, Nat.zero_sub] at hroom
    exact absurd hroom (lt_irrefl 0)
  · rintro ⟨hroom, -⟩
    rw [roomInBlocks, hle, Nat.zero_sub] at hroom
    exact absurd hroom (lt_irrefl 0)

end shared

/-- **The free sizes agree where a strip is reached alike.** A container with several volumes, or
without members, has no free space, and neither have its members. With one volume the container's
room is compared with the strip size as a whole, that of a member by itself: the sizes agree iff both
or neither reach it, and where they do no member of the volume is smaller than the container's. -/
theorem freeSizesAgree_iff {sectorSize : UInt32} (h : SharedMembers devices s i a sectorSize) :
    FreeSizesAgree devices s i a sectorSize ↔
      ∀ v members, s.volumesOf devices i a = [(v, members)] → (s.array i).m_BlockDevices ≠ [] →
        (StripInTotal (membersOf devices s i) v sectorSize.toNat ↔
          StripOnMember members v sectorSize.toNat) ∧
        (StripInTotal (membersOf devices s i) v sectorSize.toNat →
          smallestBlocks members sectorSize.toNat * sectorSize.toNat =
            smallestSize (membersOf devices s i)) := by
  rcases hv : a.volumes with _ | ⟨v, _ | ⟨v', rest⟩⟩
  · exact absurd hv h.volumes
  · have hsingle : s.volumesOf devices i a = [(v, devicesAt devices (s.members ⟨i, 0⟩))] := by
      rw [Session.volumesOf, hv]
      rfl
    by_cases hempty : (s.array i).m_BlockDevices = []
    · exact iff_of_true (freeSizesAgree_of_no_members hempty) fun _ _ _ hne => absurd hempty hne
    rcases Nat.eq_zero_or_pos sectorSize.toNat with hzero | hpos
    · apply iff_of_true (freeSizesAgree_of_sector_zero h hzero hempty)
      intro v' members heq _
      obtain ⟨htotal, hmember⟩ := no_strip_of_sector_zero h heq hzero hempty
      exact ⟨iff_of_false htotal hmember, fun hstrip => absurd hstrip htotal⟩
    · rw [freeSizesAgree_iff_of_single h hsingle hv hpos hempty, hsingle]
      constructor
      · intro hcondition v' members heq _
        obtain ⟨rfl, rfl⟩ := Prod.mk.inj (List.cons.inj heq).1
        exact hcondition
      · exact fun hcondition => hcondition v _ rfl hempty
  · have hseveral : 1 < a.volumes.length := by
      rw [hv]
      exact Nat.succ_lt_succ (Nat.succ_pos _)
    apply iff_of_true (freeSizesAgree_of_several h hseveral)
    intro v₁ members heq
    rw [Session.volumesOf, hv] at heq
    exact absurd heq (by simp)

end finish

section sample

/-- A disk of 1 GiB with sectors of 512 bytes. -/
def gigabyteDisk (devName : String) : SessionDevice :=
  ⟨⟨.ahciDisk, .ofLit devName, .ofLit devName, 1073741824, 2097152, .arrayMember, .normal, 0, []⟩, 0⟩

/-- A container with a RAID 0 volume that leaves 64 KiB on each member; its strips are of the given
size. -/
def nearlyFull (stripSize : UInt32) : MdArray :=
  let dir (name : String) (attributes : Option VolumeAttributes) : MdDir :=
    ⟨lit name, none, [.ofLit "sda", .ofLit "sdb"], .empty, attributes⟩
  ⟨dir "md127" none, [⟨dir "md126" (some ⟨0, .normal, stripSize, 1045359, 512⟩), 1⟩]⟩

/-- A session in which the container and its volume have been attached to both disks. -/
def attachedPair : Session :=
  let devices := [gigabyteDisk "sda", gigabyteDisk "sdb"]
  [MdRef.array 0, .volume ⟨0, 0⟩].foldl (fun s r =>
    (s.attachEndDevice devices r 0).attachEndDevice devices r 1) (.discovered devices)

/-- The sample meets the condition: one volume on both disks, which leaves little room. -/
theorem sharedMembers_nearlyFull (stripSize : UInt32) :
    SharedMembers [gigabyteDisk "sda", gigabyteDisk "sdb"] attachedPair 0 (nearlyFull stripSize)
      512 where
  volumes := List.cons_ne_nil _ _
  positions := by decide
  members := by
    intro d hd v hv
    obtain rfl := List.mem_singleton.mp hv
    apply FoundDevice.isMemberOf_of_mem hd
    have hserial : ∀ d ∈ membersOf [gigabyteDisk "sda", gigabyteDisk "sdb"] attachedPair 0,
        d.m_SerialNum.equal d.m_SerialNum := by decide +kernel
    exact hserial d hd
  sectors := by simp [nearlyFull, MdVolume.attributes]
  memberSizes := by decide +kernel
  componentSizes := by
    intro v hv
    obtain rfl := List.mem_singleton.mp hv
    show 512 ∣ 1045359 * 1024
    decide +kernel
  totalSize := by decide +kernel
  occupiedSize := by
    have hlength : (membersOf [gigabyteDisk "sda", gigabyteDisk "sdb"] attachedPair 0).length = 2 := by
      decide +kernel
    rw [hlength]
    intro v hv
    obtain rfl := List.mem_singleton.mp hv
    show (1045359 * 1024 + (4096 + 2210) * 512) * 2 < 2 ^ 64
    decide +kernel

/-- Strips of 128 KiB: the container reports 128 KiB, its members nothing. -/
theorem not_freeSizesAgree_nearlyFull :
    SharedMembers [gigabyteDisk "sda", gigabyteDisk "sdb"] attachedPair 0 (nearlyFull 131072) 512 ∧
      ¬ FreeSizesAgree [gigabyteDisk "sda", gigabyteDisk "sdb"] attachedPair 0 (nearlyFull 131072)
        512 :=
  ⟨sharedMembers_nearlyFull 131072, by decide +kernel⟩

/-- Strips of 64 KiB: both report what is left. -/
theorem freeSizesAgree_nearlyFull :
    FreeSizesAgree [gigabyteDisk "sda", gigabyteDisk "sdb"] attachedPair 0 (nearlyFull 65536) 512 := by
  apply (freeSizesAgree_iff (sharedMembers_nearlyFull 65536)).mpr
  intro v members hsingle _
  obtain ⟨rfl, rfl⟩ := Prod.mk.inj (List.cons.inj hsingle).1
  decide +kernel

end sample

end Irstessi
