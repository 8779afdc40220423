import Irstessi.Array

/-!
# `class Volume`: migration

The volume object and `Volume::modify` with the three functions it migrates by. The cases of
`__toRaid0` and `__toRaid5` on the current level are definitions of their own, `toRaid0From0` to
`toRaid5From5`.

* `ui2raidlevel`, `ui2stripsize`, `stripsize2ui`.
* `toRaid0`, `toRaid10`, `toRaid5`, `modify`; `modifyCheck` is what `modify` checks before it
  migrates.

The functions are translated case by case, with the status that the source returns at each place,
including where it is that of an earlier check. A migration is a program over the calls of `Mdadm`: it
reads the fields of the volume and of its container and changes none of them, since the object is
discovered anew by the next session. The strip size of a request is converted before it is used, and a
value without a conversion is refused, hence the two `Option`s of `chunkArgument`.
-/

namespace Irstessi

open Interact

/-- Source: `volume.h` `Volume` -/
structure Volume extends RaidDevice where
  /-- `m_pParent.lock()` cast to `Array`. -/
  m_pParent : Option RaidArray
  m_Ordinal : UInt32
  m_RaidLevel : UInt32
  m_SystemVolume : Bool
  m_StripSize : UInt32
  m_MigrProgress : UInt32
  m_ComponentSize : UInt64
  m_State : SSI_VolumeState
  m_RwhPolicy : SSI_RwhPolicy
  m_pSourceDisk : Option EndDevice
  deriving DecidableEq, Repr

/-- Source: `volume.cpp` `ui2raidlevel` -/
def ui2raidlevel (level : UInt32) : SSI_RaidLevel :=
  if level = 0 then SSI_Raid0
  else if level = 1 then SSI_Raid1
  else if level = 5 then SSI_Raid5
  else if level = 6 then SSI_Raid6
  else if level = 10 then SSI_Raid10
  else SSI_RaidInvalid

/-- The strip sizes and their numbers of bytes. -/
def stripSizes : List (SSI_StripSize × UInt32) :=
  [(SSI_StripSize2kB, 2 * 1024), (SSI_StripSize4kB, 4 * 1024), (SSI_StripSize8kB, 8 * 1024),
    (SSI_StripSize16kB, 16 * 1024), (SSI_StripSize32kB, 32 * 1024),
    (SSI_StripSize64kB, 64 * 1024), (SSI_StripSize128kB, 128 * 1024),
    (SSI_StripSize256kB, 256 * 1024), (SSI_StripSize512kB, 512 * 1024),
    (SSI_StripSize1MB, 1024 * 1024), (SSI_StripSize2MB, 2 * 1024 * 1024),
    (SSI_StripSize4MB, 4 * 1024 * 1024), (SSI_StripSize8MB, 8 * 1024 * 1024),
    (SSI_StripSize16MB, 16 * 1024 * 1024), (SSI_StripSize32MB, 32 * 1024 * 1024),
    (SSI_StripSize64MB, 64 * 1024 * 1024)]

/-- Source: `volume.cpp` `ui2stripsize` -/
def ui2stripsize (chunk : UInt32) : SSI_StripSize :=
  match stripSizes.find? fun entry => entry.2 == chunk with
  | some entry => entry.1
  | none => SSI_StripSizeUnknown

/-- `none` is `throw E_INVALID_STRIP_SIZE`.
Source: `volume.cpp` `stripsize2ui` -/
def stripsize2ui (stripSize : SSI_StripSize) : Option UInt32 :=
  (stripSizes.find? fun entry => entry.1 == stripSize).map (·.2)

/-- The message for disks of another technology. -/
def mixedDisks : Str := .ofLit "Cannot have both SATA and NVMe disks in one volume"

/-- The status of `canAddEndDevices`, with its message where it is an invalid parameter. -/
def refuse (status : SSI_Status) : SysProg SSI_Status :=
  if status = .invalidParameter then do
    setLastErrorMessage mixedDisks
    pure status
  else pure status

namespace Volume

/-- A strip size is given and it is not the current one. -/
def chunkChange (v : Volume) (stripSize : SSI_StripSize) : Bool :=
  stripSize ≠ 0 ∧ stripSize ≠ ui2stripsize v.m_StripSize

/-- The value of the `-c` option, none where the chunk does not change; the outer `none` is a
strip size that cannot be converted. -/
def chunkArgument (v : Volume) (stripSize : SSI_StripSize) : Option (Option Nat) :=
  if v.chunkChange stripSize then
    (stripsize2ui stripSize).map fun bytes => some (bytes / 1024).toNat
  else some none

/-- Where the strip size is not to be changed the grow command gets no chunk argument, whatever else it
asks for. -/
theorem chunkArgument_of_unchanged {v : Volume} {stripSize : SSI_StripSize}
    (h : v.chunkChange stripSize = false) : v.chunkArgument stripSize = some none := by
  rw [chunkArgument, h]
  rfl

/-- Source: `raid_device.cpp` `RaidDevice::getRaidInfo` -/
def getRaidInfo (v : Volume) : Option RaidInfo :=
  v.m_BlockDevices.findSome? EndDevice.raidInfo

/-! ## To level 0 -/

/-- Source: `volume.cpp` `Volume::__toRaid0`, case 0 -/
def toRaid0From0 (v : Volume) (pArray : RaidArray) (chunkChange : Bool) (ch : Option Nat)
    (disks : List EndDevice) : SysProg SSI_Status :=
  if disks.length = 0 ∧ chunkChange = false then pure .ok
  else if disks.length > 0 ∧ chunkChange then pure .notSupported
  else if disks.length > 0 then
    let status := pArray.canAddEndDevices disks
    if status = .ok then pArray.grow disks else refuse status
  else do
    if (← shellEx (.growLevel0 v.m_DevName ch) 1 0) = 0 then pure .ok else pure .failed

/-- The status of `canAddEndDevices` is also returned where the takeover command fails.
Source: `volume.cpp` `Volume::__toRaid0`, case 1 -/
def toRaid0From1 (v : Volume) (pArray : RaidArray) (chunkChange : Bool)
    (stripSize : SSI_StripSize) (disks : List EndDevice) : SysProg SSI_Status :=
  if chunkChange then do
    setLastErrorMessage
      (.ofLit "Strip size cannot be changed during migration from Raid 1 to Raid 0")
    pure .invalidStripSize
  else if stripSize ≠ SSI_StripSize64kB then do
    setLastErrorMessage (.ofLit "Strip size cannot be passed in Raid 1 to Raid 0 migration")
    pure .invalidStripSize
  else
    let status := pArray.canAddEndDevices disks
    if status = .ok then do
      if (← shellEx (.growLevel0 v.m_DevName none) 1 0) = 0 then
        if disks.length > 0 then pArray.grow disks else pure .ok
      else refuse status
    else refuse status

/-- As in case 1, the status is that of `canAddEndDevices` where a takeover or a chunk change
fails.
Source: `volume.cpp` `Volume::__toRaid0`, case 10 -/
def toRaid0From10 (v : Volume) (pArray : RaidArray) (chunkChange : Bool) (ch : Option Nat)
    (disks : List EndDevice) : SysProg SSI_Status :=
  if disks.length > 0 ∧ chunkChange then pure .notSupported
  else
    let status := pArray.canAddEndDevices disks
    if status = .ok then do
      if (← shellEx (.growLevel0 v.m_DevName none) 1 0) = 0 then
        if disks.length = 0 ∧ chunkChange = false then pure .ok
        else if disks.length > 0 then pArray.grow disks
        else if (← shellEx (.growLevel0 v.m_DevName ch) 1 0) = 0 then pure .ok
        else refuse status
      else refuse status
    else refuse status

/-- Source: `volume.cpp` `Volume::__toRaid0`, case 5 -/
def toRaid0From5 (v : Volume) (chunkChange : Bool) (disks : List EndDevice) :
    SysProg SSI_Status :=
  if disks.length > 0 then pure .notSupported
  else if chunkChange then pure .invalidStripSize
  else do
    if (← shellEx (.growLevel0 v.m_DevName none) 1 0) = 0 then pure .ok else pure .failed

/-- Source: `volume.cpp` `Volume::__toRaid0` -/
def toRaid0 (v : Volume) (stripSize : SSI_StripSize) (disks : List EndDevice) :
    SysProg SSI_Status :=
  match v.m_pParent with
  | some pArray =>
      match v.chunkArgument stripSize with
      | none => pure .invalidStripSize
      | some ch =>
          if v.m_RaidLevel = 0 then v.toRaid0From0 pArray (v.chunkChange stripSize) ch disks
          else if v.m_RaidLevel = 1 then
            v.toRaid0From1 pArray (v.chunkChange stripSize) stripSize disks
          else if v.m_RaidLevel = 10 then
            v.toRaid0From10 pArray (v.chunkChange stripSize) ch disks
          else if v.m_RaidLevel = 5 then v.toRaid0From5 (v.chunkChange stripSize) disks
          else pure .notSupported
  | none => pure .failed

/-! ## To levels 10 and 5 -/

/-- Source: `volume.cpp` `Volume::__toRaid10` -/
def toRaid10 (v : Volume) (stripSize : SSI_StripSize) (disks : List EndDevice) :
    SysProg SSI_Status :=
  match v.m_pParent with
  | some pArray =>
      if v.m_RaidLevel ≠ 0 ∨ v.m_BlockDevices.length ≠ 2 then pure .notSupported
      else if disks.length ≠ 2 then do
        setLastErrorMessage (.ofLit
          "Cannot migrate to RAID10. Migration to RAID10 is supported only with 2 disks")
        pure .invalidParameter
      else if v.chunkChange stripSize then pure .invalidStripSize
      else
        let status := pArray.canAddEndDevices disks
        if status ≠ .ok then refuse status
        else do
          let addedToSpare ← RaidArray.getSpareableEndDevices disks
          let status ← pArray.addSpare disks
          if status ≠ .ok then pure status
          else if (← shellEx (.growLevel10 v.m_DevName) 1 0) = 0 then pure .ok
          else do
            let _ ← pArray.removeSpares true addedToSpare .ok
            pure .failed
  | none => pure .failed

/-- Source: `volume.cpp` `Volume::__toRaid5`, case 0 -/
def toRaid5From0 (v : Volume) (pArray : RaidArray) (ch : Option Nat) (disks : List EndDevice) :
    SysProg SSI_Status :=
  if disks.length ≠ 1 then do
    setLastErrorMessage
      (.ofLit "Cannot migrate to RAID5. Migration to RAID5 is supported only with 1 disk")
    pure .invalidParameter
  else
    let status := pArray.canAddEndDevices disks
    if status ≠ .ok then refuse status
    else do
      let addedToSpare ← RaidArray.getSpareableEndDevices disks
      let status ← pArray.addSpare disks
      if status ≠ .ok then pure status
      else if (← shellEx (.growLevel5 v.m_DevName ch) 1 0) = 0 then pure .ok
      else do
        let _ ← pArray.removeSpares true addedToSpare .ok
        pure .failed

/-- Source: `volume.cpp` `Volume::__toRaid5`, case 10 -/
def toRaid5From10 (v : Volume) (ch : Option Nat) (disks : List EndDevice) : SysProg SSI_Status :=
  if disks.length > 0 then do
    setLastErrorMessage (.ofLit "Cannot migrate from RAID10 to RAID5 with additional disks")
    pure .invalidParameter
  else do
    if (← shellEx (.growLevel0 v.m_DevName none) 1 0) = 0 then
      if (← shellEx (.growLevel5 v.m_DevName ch) 1 0) = 0 then pure .ok else pure .failed
    else pure .failed

/-- Source: `volume.cpp` `Volume::__toRaid5`, case 5 -/
def toRaid5From5 (v : Volume) (pArray : RaidArray) (chunkChange : Bool) (ch : Option Nat)
    (disks : List EndDevice) : SysProg SSI_Status :=
  if disks.length > 0 ∧ chunkChange then pure .notSupported
  else if disks.length > 0 then
    let status := pArray.canAddEndDevices disks
    if status ≠ .ok then refuse status else pArray.grow disks
  else do
    if (← shellEx (.growChunk5 v.m_DevName ch) 1 0) = 0 then pure .ok else pure .failed

/-- Source: `volume.cpp` `Volume::__toRaid5` -/
def toRaid5 (v : Volume) (stripSize : SSI_StripSize) (disks : List EndDevice) :
    SysProg SSI_Status :=
  match v.m_pParent with
  | some pArray =>
      match v.chunkArgument stripSize with
      | none => pure .invalidStripSize
      | some ch =>
          if v.m_RaidLevel = 0 then v.toRaid5From0 pArray ch disks
          else if v.m_RaidLevel = 10 then v.toRaid5From10 ch disks
          else if v.m_RaidLevel = 5 then
            v.toRaid5From5 pArray (v.chunkChange stripSize) ch disks
          else pure .notSupported
  | none => pure .failed

/-! ## Migration -/

/-- What `modify` refuses before it looks at the target level. `info` is the local variable that
`getRaidLevelInfo` fills, as it was before.
Source: `volume.cpp` `Volume::modify` -/
def modifyCheck (v : Volume) (info : SSI_RaidLevelInfo) (stripSize : SSI_StripSize)
    (raidLevel : SSI_RaidLevel) (newSize : UInt64) (disks : List EndDevice) : Option SSI_Status :=
  match v.getRaidInfo with
  | none => some .failed
  | some pRaidInfo =>
      let info := (pRaidInfo.getRaidLevelInfo (ui2raidlevel v.m_RaidLevel) info).2
      if stripSize &&& info.stripSizesSupported = 0 ∧ stripSize ≠ SSI_StripSizeUnknown then
        some .invalidStripSize
      else if raidLevel &&& info.migrSupport = 0 then some .invalidRaidLevel
      else if newSize ≠ 0 ∧
          newSize ≠ (v.m_ComponentSize <<< 10) * UInt64.ofNat v.m_BlockDevices.length then
        some .invalidSize
      else if raidLevel ≠ SSI_Raid0 ∧
          (v.m_BlockDevices.any EndDevice.fultondalex8 ∨ disks.any EndDevice.fultondalex8) then
        some .invalidRaidLevel
      else none

/-- Source: `volume.cpp` `Volume::modify` -/
def modify (v : Volume) (info : SSI_RaidLevelInfo) (stripSize : SSI_StripSize)
    (raidLevel : SSI_RaidLevel) (newSize : UInt64) (disks : List EndDevice) :
    SysProg SSI_Status :=
  match v.modifyCheck info stripSize raidLevel newSize disks with
  | some status => pure status
  | none =>
      if raidLevel = SSI_Raid0 then v.toRaid0 stripSize disks
      else if raidLevel = SSI_Raid10 then v.toRaid10 stripSize disks
      else if raidLevel = SSI_Raid5 then v.toRaid5 stripSize disks
      else pure .notSupported

end Volume

end Irstessi
