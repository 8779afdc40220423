import Irstessi.CreateFromDisks
import Irstessi.HandleManager

/-!
# The interface: calls that change disks, arrays and volumes

The functions of the library's interface, from the session that they have opened on.

* `SsiDiskMarkAsSpare`, `SsiAddDisksToArray`, `SsiVolumeRebuild`, `SsiRaidLevelModify`,
  `SsiVolumeCreate`, `SsiExpandVolume`, with the functions that they call: `makeSpare`,
  `Volume.rebuild`, `Volume.expand`.
* `checkAddDisks`, `checkModify`: what `SsiAddDisksToArray` and `SsiRaidLevelModify` look up and check
  before they go on to the container or the volume.
* `ApiCall`, `ApiCall.prog`: a call with its arguments, and its program.

Each function opens a session, resolves its handles, checks what it is given and hands the work on; here
the session is an argument. The checks of the two calls that take lists of disks are definitions of
their own, since several results depend on which requests pass them. `ApiCall` collects the calls with
their arguments, so that results on runs can be stated over all of them; whether a call holds a lock
while it runs does not matter here, as calls come one after another.
-/

namespace Irstessi

open Interact

/-! ## Spares -/

/-- Source: `src/end_device.cpp` `checkNvmeOperationSupport` -/
def checkNvmeOperationSupport (device : ListedDevice) : SSI_Status :=
  match device.controller with
  | none => .invalidState
  | some pController =>
      if device.diskType = .vmd then
        match pController.hardwareMode with
        | .vrocIntelSSDonly => if device.m_isIntelNvme then .ok else .notSupported
        | .key3story => .notSupported
        | _ => .ok
      else .ok

/-- The first container that takes the disk ends the loop; where none does a new one is created.
Source: `controller.cpp` `Controller::makeSpare` -/
def Controller.makeSpare (rounds : Nat) (pEndDevice : EndDevice) : List RaidArray → SysProg SSI_Status
  | [] =>
      match RaidArray.new.setEndDevices [pEndDevice] with
      | .error _ => pure .invalidState
      | .ok pArray => do
          match ← attempt (pArray.create rounds) with
          | .error _ => pure .failed
          | .ok _ => pure .ok
  | a :: m_Arrays => do
      if (← a.addSpare [pEndDevice]) = .ok then pure .ok
      else makeSpare rounds pEndDevice m_Arrays

/-- Source: `block_device.cpp` `BlockDevice::makeSpare`, `end_device.h` `EndDevice::makeSpare` -/
def ListedDevice.makeSpare (rounds : Nat) (d : ListedDevice) : SysProg SSI_Status :=
  if d.isBlockDevice = false then pure .invalidState
  else if d.controller.isNone then pure .invalidState
  else Controller.makeSpare rounds d.toEndDevice d.controllerArrays

/-! ## Volumes -/

namespace ListedVolume

variable (v : ListedVolume)

/-- The size that a disk needs, none for a level that is not rebuilt.
Source: `volume.cpp` `Volume::rebuild`, the switch -/
def requiredSize : Option UInt64 :=
  if v.m_RaidLevel = 1 then some v.totalSize
  else if v.m_RaidLevel = 5 then
    if v.m_BlockDevices.length = 0 then none
    else some (v.totalSize / UInt64.ofNat v.m_BlockDevices.length)
  else if v.m_RaidLevel = 10 then some (v.totalSize / 2)
  else none

/-- Source: `volume.cpp` `Volume::rebuild` -/
def rebuild (pEndDevice : ListedDevice) : SysProg SSI_Status :=
  match v.requiredSize with
  | none => pure .invalidParameter
  | some requiredSize =>
      if pEndDevice.m_TotalSize < requiredSize then do
        setLastErrorMessage (Command.concat [.ofLit "For RAID ", .ofNat v.m_RaidLevel.toNat,
          .ofLit " minimum size is: ", .ofNat requiredSize.toNat,
          .ofLit " and an actual size of the disk is: ", .ofNat pEndDevice.m_TotalSize.toNat])
        pure .invalidParameter
      else
        match v.m_pParent with
        | some pArray => pArray.addSpare [pEndDevice.toEndDevice]
        | none => pure .failed

end ListedVolume

namespace Volume

variable (v : Volume)

/-- The size for mdadm, or the status of a size that is refused.
Source: `volume.cpp` `Volume::expand`, the switch -/
def expandedSize (newSize : UInt64) : Except SSI_Status UInt64 :=
  let members := UInt64.ofNat v.m_BlockDevices.length
  if v.m_RaidLevel = 0 then .error .notSupported
  else if v.m_RaidLevel = 1 then
    if newSize ≠ 0 ∧ newSize < v.m_ComponentSize * members / 2 then .error .invalidSize
    else .ok newSize
  else if v.m_RaidLevel = 5 then
    if members = 1 then .error .notSupported
    else if newSize ≠ 0 ∧ newSize < v.m_ComponentSize * (members - 1) then .error .invalidSize
    else .ok (newSize / (members - 1))
  else if v.m_RaidLevel = 10 then
    if newSize ≠ 0 ∧ newSize < v.m_ComponentSize * members / 2 then .error .invalidSize
    else .ok (newSize / 2)
  else .error .notSupported

/-- Source: `volume.cpp` `Volume::expand` -/
def expand (newSize : UInt64) : SysProg SSI_Status :=
  if v.m_State ≠ .normal then pure .invalidState
  else
    match v.expandedSize newSize with
    | .error status => pure status
    | .ok newSize => do
        let size := if newSize = 0 then .ofLit "max" else Str.ofNat newSize.toNat
        if (← shellEx (.growSize v.m_DevName size) 1 0) = 0 then pure .ok else pure .failed

end Volume

/-! ## The calls -/

/-- Source: `ssi.h` `SSI_RaidLevelModifyParams`; no list of handles is `NULL` with a count. -/
structure SSI_RaidLevelModifyParams where
  newStripSize : SSI_StripSize
  newRaidLevel : SSI_RaidLevel
  newSizeInBytes : UInt64
  diskHandles : Option (List Nat)
  deriving DecidableEq, Repr

/-- What `SSI_CreateFromArrayParams` says beyond the volume. -/
structure CreateFromArrayParams extends VolumeParams where
  arrayHandle : Nat
  deriving DecidableEq, Repr

namespace CallSession

variable (s : CallSession)

/-- The end devices of the handles, one after the other; the first that there is none for or that is
refused ends the loop.
Source: `src/array.cpp` `SsiAddDisksToArray`, `src/raid_level.cpp` `SsiRaidLevelModify`, the loops -/
def takeDisks (refusal : ListedDevice → Option SSI_Status) :
    List Nat → Except SSI_Status (List ListedDevice)
  | [] => .ok []
  | handle :: handles =>
      match s.getEndDevice handle with
      | none => .error .invalidHandle
      | some d =>
          match refusal d with
          | some status => .error status
          | none => (takeDisks refusal handles).map (d :: ·)

/-- Every volume overwrites what the loop has found before.
Source: `src/array.cpp` `SsiAddDisksToArray`, `isRaid0` -/
def isRaid0 (volumes : List Volume) : Bool :=
  volumes.foldl (fun _ v => ui2raidlevel v.m_RaidLevel == SSI_Raid0) true

/-- Source: `src/array.cpp` `SsiAddDisksToArray`, the loop -/
def addRefusal (isRaid0 : Bool) (blockSize : UInt32) (d : ListedDevice) : Option SSI_Status :=
  if isRaid0 = false ∧ d.fultondalex8 = true then some .notSupported
  else if d.m_LogicalSectorSize ≠ blockSize then some .notSupported
  else none

/-- Source: `src/raid_level.cpp` `SsiRaidLevelModify`, the loop -/
def modifyRefusal (blockSize : UInt32) (d : ListedDevice) : Option SSI_Status :=
  if blockSize ≠ d.m_LogicalSectorSize then some .notSupported else none

/-- The container and the disks that it is grown by. No list of handles is `NULL`.
Source: `src/array.cpp` `SsiAddDisksToArray` -/
def checkAddDisks (arrayHandle : Nat) (diskHandles : Option (List Nat)) :
    Except SSI_Status (ListedArray × List ListedDevice) :=
  match s.getArray arrayHandle with
  | none => .error .invalidHandle
  | some pArray =>
      if pArray.m_Volumes.any fun v =>
          ui2raidlevel v.m_RaidLevel = SSI_Raid1 ∨ ui2raidlevel v.m_RaidLevel = SSI_Raid10 then
        .error .invalidRaidLevel
      else
        match diskHandles with
        | none => .error .invalidParameter
        | some [] => .error .bufferTooSmall
        | some handles =>
            match pArray.members.head? with
            | none => .error .internalError
            | some front =>
                (s.takeDisks (addRefusal (isRaid0 pArray.m_Volumes) front.m_LogicalSectorSize)
                  handles).map fun container => (pArray, container)

/-- The volume and the disks for its migration.
Source: `src/raid_level.cpp` `SsiRaidLevelModify` -/
def checkModify (volumeHandle : Nat) (params : SSI_RaidLevelModifyParams) :
    Except SSI_Status (ListedVolume × List ListedDevice) :=
  match s.getVolume volumeHandle with
  | none => .error .invalidHandle
  | some pVolume =>
      match params.diskHandles with
      | none => .error .invalidParameter
      | some handles =>
          (s.takeDisks (modifyRefusal pVolume.logicalSectorSize) handles).map fun container =>
            (pVolume, container)

/-- The disks of a volume that is created in a container: its active members, or all of them if
there are none.
Source: `src/volume.cpp` `SsiVolumeCreate` -/
def disksForVolume (pArray : RaidArray) : List EndDevice :=
  if pArray.getEndDevices.length = 0 then pArray.m_BlockDevices else pArray.getEndDevices

end CallSession

section calls

variable (s : CallSession) (info : SSI_RaidLevelInfo) (rounds : Nat)

/-- A null handle asks for any container.
Source: `src/end_device.cpp` `SsiDiskMarkAsSpare` -/
def SsiDiskMarkAsSpare (diskHandle arrayHandle : Nat) : SysProg SSI_Status :=
  match s.getEndDevice diskHandle with
  | none => pure .invalidHandle
  | some pEndDevice =>
      if pEndDevice.fultondalex8 then pure .notSupported
      else if checkNvmeOperationSupport pEndDevice ≠ .ok then
        pure (checkNvmeOperationSupport pEndDevice)
      else if arrayHandle = SSI_NULL_HANDLE then pEndDevice.makeSpare rounds
      else
        match s.getArray arrayHandle with
        | none => pure .invalidHandle
        | some pArray =>
            if pEndDevice.array = some pArray.id then pure .invalidState
            else pArray.addSpare [pEndDevice.toEndDevice]

/-- Source: `src/array.cpp` `SsiAddDisksToArray` -/
def SsiAddDisksToArray (arrayHandle : Nat) (diskHandles : Option (List Nat)) : SysProg SSI_Status :=
  match s.checkAddDisks arrayHandle diskHandles with
  | .error status => pure status
  | .ok (pArray, container) => do
      match ← attempt (pArray.grow (container.map (·.toEndDevice))) with
      | .ok status => pure status
      | .error _ => pure .internalError

/-- Source: `src/volume.cpp` `SsiVolumeRebuild` -/
def SsiVolumeRebuild (volumeHandle diskHandle : Nat) : SysProg SSI_Status :=
  match s.getVolume volumeHandle with
  | none => pure .invalidHandle
  | some pVolume =>
      match s.getEndDevice diskHandle with
      | none => pure .invalidHandle
      | some pEndDevice =>
          if pEndDevice.fultondalex8 then pure .notSupported
          else if pVolume.m_State ≠ .degraded then pure .invalidState
          else if pVolume.logicalSectorSize ≠ pEndDevice.m_LogicalSectorSize then
            pure .notSupported
          else pVolume.rebuild pEndDevice

/-- Source: `src/raid_level.cpp` `SsiRaidLevelModify` -/
def SsiRaidLevelModify (volumeHandle : Nat) (params : SSI_RaidLevelModifyParams) :
    SysProg SSI_Status :=
  match s.checkModify volumeHandle params with
  | .error status => pure status
  | .ok (pVolume, container) =>
      pVolume.modify info params.newStripSize params.newRaidLevel params.newSizeInBytes
        (container.map (·.toEndDevice))

/-- Source: `src/volume.cpp` `SsiExpandVolume` -/
def SsiExpandVolume (volumeHandle : Nat) (newSizeMB : UInt64) : SysProg SSI_Status :=
  match s.getVolume volumeHandle with
  | none => pure .invalidHandle
  | some pVolume => pVolume.expand (newSizeMB * 1024)

/-- The volume is created, and its identity updated.
Source: `src/volume.cpp` `SsiVolumeCreate`, the `try` block -/
def createInArray (pArray : RaidArray) (params : VolumeParams) : SysProg Unit := do
  let container := CallSession.disksForVolume pArray
  let pVolume ← Volume.prepare .SsiVolumeCreate info pArray container params
  let pVolume ← pVolume.create rounds
  let _ ← pVolume.toRaidDevice.update

/-- Source: `src/volume.cpp` `SsiVolumeCreate` -/
def SsiVolumeCreate (params : CreateFromArrayParams) : SysProg SSI_Status :=
  match s.getArray params.arrayHandle with
  | none => pure .invalidHandle
  | some pArray =>
      (createInArray info rounds pArray.toRaidArray params.toVolumeParams >>= fun _ => pure .ok).catchAll
        fun
          | .exception e => pure (volumeStatus e)
          | .outOfRange => pure .insufficientResources
          | f => .throw f

end calls

/-- A call with its arguments. -/
inductive ApiCall
  | SsiVolumeCreateFromDisks (params : CreateFromDisksParams) (hasHandle : Bool)
  | SsiVolumeCreate (params : CreateFromArrayParams)
  | SsiDiskMarkAsSpare (diskHandle arrayHandle : Nat)
  | SsiAddDisksToArray (arrayHandle : Nat) (diskHandles : Option (List Nat))
  | SsiVolumeRebuild (volumeHandle diskHandle : Nat)
  | SsiRaidLevelModify (volumeHandle : Nat) (params : SSI_RaidLevelModifyParams)
  deriving DecidableEq, Repr

/-- The program of a call in the session that it has opened. -/
def ApiCall.prog (s : CallSession) (info : SSI_RaidLevelInfo) (rounds : Nat) :
    ApiCall → SysProg SSI_Status
  | SsiVolumeCreateFromDisks params hasHandle => do
      let result ← Irstessi.SsiVolumeCreateFromDisks s info rounds params hasHandle
      pure result.1
  | SsiVolumeCreate params => Irstessi.SsiVolumeCreate s info rounds params
  | SsiDiskMarkAsSpare diskHandle arrayHandle =>
      Irstessi.SsiDiskMarkAsSpare s rounds diskHandle arrayHandle
  | SsiAddDisksToArray arrayHandle diskHandles =>
      Irstessi.SsiAddDisksToArray s arrayHandle diskHandles
  | SsiVolumeRebuild volumeHandle diskHandle =>
      Irstessi.SsiVolumeRebuild s volumeHandle diskHandle
  | SsiRaidLevelModify volumeHandle params =>
      Irstessi.SsiRaidLevelModify s info volumeHandle params

/-! ## What the checks find -/

/-- A mapped result is a value only where the result is one. -/
theorem map_eq_ok {ε α β : Type} {x : Except ε α} {f : α → β} {b : β} (h : x.map f = .ok b) :
    ∃ a, x = .ok a ∧ f a = b := by
  cases x with
  | ok a => exact ⟨a, rfl, Except.ok.inj h⟩
  | error e => cases h

namespace CallSession

variable {s : CallSession}

/-- The handles are resolved one after the other, and each disk passes the check before the next one is
looked at. -/
theorem takeDisks_cons {refusal : ListedDevice → Option SSI_Status} {handle : Nat}
    {handles : List Nat} {devices : List ListedDevice}
    (h : s.takeDisks refusal (handle :: handles) = .ok devices) :
    ∃ d rest, s.getEndDevice handle = some d ∧ refusal d = none ∧
      s.takeDisks refusal handles = .ok rest ∧ devices = d :: rest := by
  rw [takeDisks] at h
  split at h
  next => simp at h
  next d hd =>
    split at h
    next => simp at h
    next hnone =>
      obtain ⟨rest, hrest, rfl⟩ := map_eq_ok h
      exact ⟨d, rest, hd, hnone, hrest, rfl⟩

/-- The disks taken are disks of the session that are not refused. -/
theorem of_mem_takeDisks {refusal : ListedDevice → Option SSI_Status} {handles : List Nat}
    {devices : List ListedDevice} (h : s.takeDisks refusal handles = .ok devices) :
    ∀ d ∈ devices, s.Lists d ∧ refusal d = none := by
  induction handles generalizing devices with
  | nil =>
      obtain rfl := Except.ok.inj h
      intro d hd
      simp at hd
  | cons handle handles ih =>
      obtain ⟨d, rest, hd, hnone, hrest, rfl⟩ := takeDisks_cons h
      intro d' hd'
      rcases List.mem_cons.mp hd' with rfl | hd'
      · exact ⟨s.lists_of_getEndDevice hd, hnone⟩
      · exact ih hrest d' hd'

/-- The disks taken are those of the handles. -/
theorem mem_takeDisks_iff {refusal : ListedDevice → Option SSI_Status} {handles : List Nat}
    {devices : List ListedDevice} (h : s.takeDisks refusal handles = .ok devices) {d : ListedDevice} :
    d ∈ devices ↔ ∃ handle ∈ handles, s.getEndDevice handle = some d := by
  induction handles generalizing devices with
  | nil =>
      obtain rfl := Except.ok.inj h
      simp
  | cons handle handles ih =>
      obtain ⟨d', rest, hd', -, hrest, rfl⟩ := takeDisks_cons h
      rw [List.mem_cons, ih hrest]
      simp only [List.mem_cons, exists_eq_or_imp, hd', Option.some.injEq]
      exact or_congr_left eq_comm

/-- What `SsiAddDisksToArray` has found when it grows a container. -/
structure AddsDisks (s : CallSession) (arrayHandle : Nat) (pArray : ListedArray)
    (container : List ListedDevice) : Prop where
  array : s.getArray arrayHandle = some pArray
  levels : ∀ v ∈ pArray.m_Volumes,
    ui2raidlevel v.m_RaidLevel ≠ SSI_Raid1 ∧ ui2raidlevel v.m_RaidLevel ≠ SSI_Raid10
  disks : ∀ d ∈ container, s.Lists d ∧
    ∃ blockSize, addRefusal (isRaid0 pArray.m_Volumes) blockSize d = none

/-- A request that passes the checks adds these disks to this array. -/
theorem addsDisks_of_check {arrayHandle : Nat} {diskHandles : Option (List Nat)}
    {pArray : ListedArray} {container : List ListedDevice}
    (h : s.checkAddDisks arrayHandle diskHandles = .ok (pArray, container)) :
    s.AddsDisks arrayHandle pArray container := by
  unfold checkAddDisks at h
  split at h
  next => simp at h
  next a ha =>
    split at h
    next => simp at h
    next hlevels =>
      split at h
      next => simp at h
      next => simp at h
      next =>
        split at h
        next => simp at h
        next front _ =>
          obtain ⟨devices, hdevices, heq⟩ := map_eq_ok h
          obtain ⟨rfl, rfl⟩ := Prod.mk.inj heq
          refine ⟨ha, fun v hv => ?_, fun d hd => ?_⟩
          · have hnone := List.any_eq_false.mp (Bool.eq_false_iff.mpr hlevels) v hv
            simpa [not_or] using hnone
          · exact (of_mem_takeDisks hdevices d hd).imp_right fun hnone => ⟨_, hnone⟩

/-- What `SsiRaidLevelModify` has found when it modifies a volume. -/
structure ModifiesVolume (s : CallSession) (volumeHandle : Nat) (pVolume : ListedVolume)
    (container : List ListedDevice) : Prop where
  volume : s.getVolume volumeHandle = some pVolume
  disks : ∀ d ∈ container, s.Lists d ∧ modifyRefusal pVolume.logicalSectorSize d = none

/-- A request that passes the checks modifies this volume with these disks. -/
theorem modifiesVolume_of_check {volumeHandle : Nat} {params : SSI_RaidLevelModifyParams}
    {pVolume : ListedVolume} {container : List ListedDevice}
    (h : s.checkModify volumeHandle params = .ok (pVolume, container)) :
    s.ModifiesVolume volumeHandle pVolume container := by
  unfold checkModify at h
  split at h
  next => simp at h
  next v hv =>
    split at h
    next => simp at h
    next =>
      obtain ⟨devices, hdevices, heq⟩ := map_eq_ok h
      obtain ⟨rfl, rfl⟩ := Prod.mk.inj heq
      exact ⟨hv, of_mem_takeDisks hdevices⟩

end CallSession

end Irstessi
