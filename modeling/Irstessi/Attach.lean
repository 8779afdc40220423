import Irstessi.DiskUsage
import Irstessi.Hardware
import Irstessi.MdDevices
import Irstessi.Lib.Trail
import Mathlib.Logic.Function.Basic

/-!
# Attaching containers and volumes to a session

`Session::initialize` attaches the containers one after another to the end devices that it has
found. An exception ends the attachment of a container and is swallowed.

* `Session`: what refers to which containers and volumes. Containers are numbered in the order of
  their directories, volumes in that of their container.
* `Update`, `Session.apply`: the changes that attaching makes.
* `MdArray.addToSession`, `Session.initialized`: the functions.
* `Session.initialized_eq`: a session is what the updates of its containers make of an empty one.

The functions are written in a state monad whose exceptions keep the state, as the C++ code does:
`Array::addToSession` attaches the container to its components and then each volume to its own, and a
component that is not found throws. `attachImsmArray` is the body of the session's loop, which swallows
the exception. For each function there is a trail, the list of the updates that it makes and whether it
has come to its end, and a lemma that says that the function leaves just this trail; everything else
about a session is proved from the list of its updates.
-/

namespace Irstessi

/-! ## References -/

/-- A volume by its container and its place among the container's volumes. -/
structure VolumeId where
  array : Nat
  index : Nat
  deriving DecidableEq, Repr

/-- A container or a volume. -/
inductive MdRef
  | array (i : Nat)
  | volume (v : VolumeId)
  deriving DecidableEq, Repr

/-- The container, or that of the volume. -/
def MdRef.container : MdRef → Nat
  | array i => i
  | volume v => v.array

/-- What attaching changes in an end device.
Source: `block_device.h` `BlockDevice`, `end_device.h` `EndDevice` -/
structure DeviceRefs where
  m_pArray : Option Nat
  m_Volumes : List VolumeId
  m_DiskUsage : SSI_DiskUsage
  m_BlocksFree : UInt64
  deriving DecidableEq, Repr

/-- What attaching changes in a controller.
Source: `controller.h` `Controller` -/
structure ControllerRefs where
  m_Arrays : List Nat
  m_Volumes : List VolumeId
  deriving DecidableEq, Repr

/-- What attaching changes in a container; the members are positions among the end devices.
Source: `array.h` `Array` -/
structure ArrayRefs where
  m_BlockDevices : List Nat
  m_Busy : Bool
  m_TotalSize : UInt64
  m_FreeSize : UInt64
  deriving DecidableEq, Repr

/-- The objects of a session while containers are attached. Ports and routing devices hand the
containers on to their controllers and keep none.
Source: `session.h` `Session` -/
structure Session where
  endDevice : Nat → DeviceRefs
  controller : Nat → ControllerRefs
  array : Nat → ArrayRefs
  /-- `m_BlockDevices` of the volumes. -/
  members : VolumeId → List Nat
  /-- `m_Arrays` and `m_Volumes` of the session, in the order of `addArray` and `addVolume`. -/
  listed : List MdRef

/-- Source: `controller.cpp` `Controller::attachArray`, `attachVolume` -/
def addOnce {α : Type} [DecidableEq α] (a : α) (l : List α) : List α :=
  if a ∈ l then l else l ++ [a]

/-- Adding once adds the one element, if it was not there. -/
@[simp] theorem mem_addOnce_iff {α : Type} [DecidableEq α] {a b : α} {l : List α} :
    b ∈ addOnce a l ↔ b ∈ l ∨ b = a := by
  unfold addOnce
  split
  next h =>
    constructor
    · exact .inl
    · rintro (hb | rfl)
      · exact hb
      · exact h
  next => simp

/-- Source: `controller.cpp` `Controller::attachArray`, `attachVolume` -/
def ControllerRefs.attach (c : ControllerRefs) : MdRef → ControllerRefs
  | .array i => { c with m_Arrays := addOnce i c.m_Arrays }
  | .volume v => { c with m_Volumes := addOnce v c.m_Volumes }

/-- The end device takes the container in place of one that it has, and its usage is determined
again; volumes are added.
Source: `block_device.cpp` `BlockDevice::attachArray`, `attachVolume` -/
def DeviceRefs.attach (refs : DeviceRefs) (d : FoundDevice) : MdRef → DeviceRefs
  | .array i => { refs with
      m_pArray := some i
      m_DiskUsage := EndDevice.usageOf d.examined.1 (shellCap d.examined.2) true }
  | .volume v => { refs with m_Volumes := refs.m_Volumes ++ [v] }

/-- The free blocks, if they have been determined. -/
def DeviceRefs.setBlocksFree (refs : DeviceRefs) (blocksFree : Option UInt64) : DeviceRefs :=
  { refs with m_BlocksFree := blocksFree.getD refs.m_BlocksFree }

/-! ## Sizes -/

def DEFAULT_SECTOR_SIZE : UInt64 := 512
def KILOBYTE : UInt64 := 1024
def MPB_SECTOR_CNT : UInt64 := 2210
def IMSM_RESERVED_SECTORS : UInt64 := 4096

/-- What the discovery of the volume has found; as constructed where it has found nothing. -/
def MdVolume.attributes (v : MdVolume) : VolumeAttributes :=
  v.dir.attributes.getD ⟨0xffffffff, .unknown, 0, 0, 0⟩

/-- `m_State` as `addToSession` leaves it.
Source: `volume.cpp` `Volume::addToSession` -/
def MdVolume.stateIn (v : MdVolume) (members : List FoundDevice) : SSI_VolumeState :=
  if v.attributes.m_RaidLevel = 0 ∧ members.any (fun d => d.m_DiskState ≠ .normal) then
    .nonRedundantVolumeFailedDisk
  else v.attributes.m_State

/-- The size of the smallest member times their number.
Source: `array.cpp` `Array::__internal_determine_total_and_free_size` -/
def determineTotalSize (members : List FoundDevice) : UInt64 :=
  members.foldl (fun size d => min size d.m_TotalSize) 0xffffffffffffffff *
    UInt64.ofNat members.length

/-- Source: `array.cpp` `Array::__internal_determine_total_and_free_size` -/
def determineFreeSize (members : List FoundDevice) (volumes : List MdVolume) : UInt64 :=
  let raidSectorSize := match volumes with
    | [] => DEFAULT_SECTOR_SIZE
    | v :: _ => v.attributes.logicalSectorSize.toUInt64
  let occupiedSize := volumes.foldl (fun (size : UInt64) v =>
    size + (v.attributes.m_ComponentSize <<< (10 : UInt64)) + IMSM_RESERVED_SECTORS * raidSectorSize) 0
  let occupiedSize := if occupiedSize > 0 then
      (occupiedSize + MPB_SECTOR_CNT * raidSectorSize) * UInt64.ofNat members.length
    else occupiedSize
  let stripSize := volumes.foldl (fun _ v => v.attributes.m_StripSize) 0
  let freeSize := if occupiedSize > determineTotalSize members then 0
    else determineTotalSize members - occupiedSize
  if freeSize < stripSize.toUInt64 ∨ volumes.length > 1 then 0 else freeSize

/-- What `determineBlocksFree` has summed up of the volumes on a device. -/
structure Occupied where
  occupiedBlocks : UInt64
  totalBlocks : UInt64
  stripSize : UInt32
  volumeCount : Nat
  deriving DecidableEq, Repr

/-- The volumes of the container with their members; those on the device count.
Source: `end_device.cpp` `EndDevice::determineBlocksFree`, the loop -/
def Occupied.ofVolumes (raidSectorSize : UInt64) (d : FoundDevice)
    (volumes : List (MdVolume × List FoundDevice)) : Occupied :=
  volumes.foldl (fun o v =>
    if v.2.any (fun d' => d'.m_SerialNum.equal d.m_SerialNum) then
      { occupiedBlocks := o.occupiedBlocks +
          v.1.attributes.m_ComponentSize * KILOBYTE / raidSectorSize + IMSM_RESERVED_SECTORS
        totalBlocks := v.2.foldl (fun blocks d' => min blocks (d'.m_TotalSize / raidSectorSize))
          o.totalBlocks
        stripSize := v.1.attributes.m_StripSize
        volumeCount := o.volumeCount + 1 }
    else o) ⟨0, 0xffffffffffffffff, 0, 0⟩

/-- Source: `end_device.cpp` `EndDevice::determineBlocksFree` -/
def FoundDevice.determineBlocksFree (d : FoundDevice)
    (volumes : List (MdVolume × List FoundDevice)) : UInt64 :=
  let raidSectorSize := match volumes with
    | [] => DEFAULT_SECTOR_SIZE
    | v :: _ =>
        if v.1.attributes.logicalSectorSize = 0 then DEFAULT_SECTOR_SIZE
        else v.1.attributes.logicalSectorSize.toUInt64
  let o := Occupied.ofVolumes raidSectorSize d volumes
  let occupiedBlocks :=
    if o.occupiedBlocks > 0 then o.occupiedBlocks + MPB_SECTOR_CNT else o.occupiedBlocks
  let blocksFree :=
    if o.volumeCount = 0 then d.m_BlocksTotal
    else if occupiedBlocks > o.totalBlocks then 0
    else o.totalBlocks - occupiedBlocks
  if blocksFree < o.stripSize.toUInt64 / raidSectorSize ∨ o.volumeCount > 1 then 0 else blocksFree

/-! ## Updates -/

section devices

variable (devices : List SessionDevice)

/-- The end devices at the given positions. -/
def devicesAt (positions : List Nat) : List FoundDevice :=
  positions.filterMap fun k => devices[k]?.map SessionDevice.found

namespace Session

/-- The container, or the volume, and the end device at position `k` get to know each other, and
the device's controller the container or volume.
Source: `array.cpp` `Array::attachEndDevice`, `volume.cpp` `Volume::attachEndDevice`,
`block_device.cpp` `BlockDevice::attachArray`, `attachVolume`, `remote_port.cpp`, `port.cpp`,
`routing_device.cpp` `attachArray`, `attachVolume` -/
def attachEndDevice (s : Session) (r : MdRef) (k : Nat) : Session :=
  match devices[k]? with
  | none => s
  | some d =>
      let s := { s with
        endDevice := Function.update s.endDevice k ((s.endDevice k).attach d.found r)
        controller := Function.update s.controller d.controller
          ((s.controller d.controller).attach r) }
      match r with
      | .array i =>
          let refs := { s.array i with m_BlockDevices := (s.array i).m_BlockDevices ++ [k] }
          { s with array := Function.update s.array i refs }
      | .volume v => { s with members := Function.update s.members v (s.members v ++ [k]) }

/-- Source: `session.cpp` `Session::addArray`, `addVolume` -/
def list (s : Session) (r : MdRef) : Session := { s with listed := s.listed ++ [r] }

/-- The volumes of a container with the devices that they have been attached to. -/
def volumesOf (s : Session) (i : Nat) (a : MdArray) : List (MdVolume × List FoundDevice) :=
  a.volumes.zipIdx.map fun v => (v.1, devicesAt devices (s.members ⟨i, v.2⟩))

/-- Whether a volume of the container is not in normal state. -/
def busy (s : Session) (i : Nat) (a : MdArray) : Bool :=
  (s.volumesOf devices i a).any fun v => v.1.stateIn v.2 ≠ .normal

/-- The busy flag and the sizes, once the volumes are attached.
Source: `array.cpp` `Array::addToSession` -/
def finish (s : Session) (i : Nat) (a : MdArray) : Session :=
  let found := devicesAt devices (s.array i).m_BlockDevices
  let refs := { s.array i with
    m_Busy := (s.array i).m_Busy || s.busy devices i a
    m_TotalSize := determineTotalSize found
    m_FreeSize := determineFreeSize found a.volumes }
  { s with
    array := Function.update s.array i refs
    endDevice := fun k =>
      if k ∈ (s.array i).m_BlockDevices then (s.endDevice k).setBlocksFree
        (devices[k]?.map fun d => d.found.determineBlocksFree (s.volumesOf devices i a))
      else s.endDevice k }

end Session

/-- The changes to a session. -/
inductive Update
  | attach (r : MdRef) (k : Nat)
  | list (r : MdRef)
  | finish (i : Nat) (a : MdArray)
  deriving DecidableEq, Repr

/-- The container that a change is for. -/
def Update.container : Update → Nat
  | attach r _ => r.container
  | list r => r.container
  | finish i _ => i

/-- One change. -/
def Session.apply (s : Session) : Update → Session
  | .attach r k => s.attachEndDevice devices r k
  | .list r => s.list r
  | .finish i a => s.finish devices i a

/-! ## The functions -/

/-- Computations on a session; an exception leaves it as it is at that point. -/
abbrev SessionM : Type → Type := EStateM Exception Session

/-- The first block device of the name.
Source: `raid_device.cpp` `RaidDevice::attachComponent` -/
def findComponent (devName : Str) : Option Nat :=
  devices.findIdx? fun d => d.found.cls.isBlockDevice && d.found.m_DevName.equal devName

/-- Source: `raid_device.cpp` `RaidDevice::attachComponent` -/
def attachComponent (r : MdRef) (devName : Str) : SessionM Unit :=
  match findComponent devices devName with
  | some k => modify fun s => s.attachEndDevice devices r k
  | none => throw .invalidObject

/-- Source: `raid_device.cpp` `RaidDevice::addToSession` -/
def attachComponents (r : MdRef) (components : List Str) : SessionM Unit :=
  components.forM (attachComponent devices r)

/-- Source: `volume.cpp` `Volume::addToSession` -/
def MdVolume.addToSession (v : MdVolume) (id : VolumeId) : SessionM Unit := do
  attachComponents devices (.volume id) v.dir.components
  modify fun s => s.list (.volume id)

/-- Source: `array.cpp` `Array::addToSession` -/
def MdArray.addToSession (a : MdArray) (i : Nat) : SessionM Unit := do
  attachComponents devices (.array i) a.dir.components
  modify fun s => s.list (.array i)
  a.volumes.zipIdx.forM fun v => v.1.addToSession devices ⟨i, v.2⟩
  modify fun s => s.finish devices i a

/-- A container whose discovery has thrown is none.
Source: `session.cpp` `Session::__internal_attach_imsm_array` -/
def attachImsmArray (container : Option MdArray × Nat) : SessionM Unit :=
  match container.1 with
  | none => pure ()
  | some a => tryCatch (a.addToSession devices container.2) fun _ => pure ()

/-- The objects before containers are attached. -/
def Session.discovered : Session where
  endDevice k := match devices[k]? with
    | none => ⟨none, [], .unknown, 0⟩
    | some d => ⟨none, [], d.found.m_DiskUsage, d.found.m_BlocksTotal⟩
  controller _ := ⟨[], []⟩
  array _ := ⟨[], false, 0, 0⟩
  members _ := []
  listed := []

end devices

/-- The containers in the order of their directories; none where the discovery throws.
Source: `session.cpp` `Session::initialize`, `__internal_attach_imsm_array` -/
def imsmArrays (dirs : List MdDir) : List (Option MdArray) :=
  (dirs.filter isImsm).map (discoverArray dirs)

/-- Source: `session.cpp` `Session::initialize` -/
def Session.initialized (devices : List SessionDevice) (dirs : List MdDir) : Session :=
  if devices.length > 0 then
    match (imsmArrays dirs).zipIdx.forM (attachImsmArray devices) (.discovered devices) with
    | .ok _ s => s
    | .error _ s => s
  else .discovered devices

/-! ## Trails -/

section trails

variable (devices : List SessionDevice)

/-- What attaching the components leaves. -/
def componentsTrail (r : MdRef) (components : List Str) : Trail Update :=
  .forEach (fun devName => match findComponent devices devName with
    | some k => .one (.attach r k)
    | none => .stop) components

/-- What attaching a volume leaves. -/
def volumeTrail (v : MdVolume) (id : VolumeId) : Trail Update :=
  (componentsTrail devices (.volume id) v.dir.components).seq (.one (.list (.volume id)))

/-- What attaching the volumes of a container leaves. -/
def volumesTrail (a : MdArray) (i : Nat) : Trail Update :=
  .forEach (fun v => volumeTrail devices v.1 ⟨i, v.2⟩) a.volumes.zipIdx

/-- What attaching a container leaves. -/
def arrayTrail (a : MdArray) (i : Nat) : Trail Update :=
  (componentsTrail devices (.array i) a.dir.components).seq
    (.seq (.one (.list (.array i))) (.seq (volumesTrail devices a i) (.one (.finish i a))))

/-- The updates made for a container. -/
def updatesOf (container : Option MdArray × Nat) : List Update :=
  match container.1 with
  | none => []
  | some a => (arrayTrail devices a container.2).updates

/-- The updates made for the containers. -/
def updates (dirs : List MdDir) : List Update :=
  (imsmArrays dirs).zipIdx.flatMap (updatesOf devices)

/-- The loop over the components leaves the updates of its trail, up to the first component that is
missing. -/
theorem leaves_attachComponents (r : MdRef) (components : List Str) :
    Trail.Leaves (Session.apply devices) (attachComponents devices r components)
      (componentsTrail devices r components) := by
  refine Trail.leaves_forM (fun devName => ?_) components
  unfold attachComponent
  split
  next k hk => exact Trail.leaves_modify (Update.attach r k)
  next => exact Trail.leaves_throw _

/-- A volume leaves the updates of its trail. -/
theorem leaves_volume (v : MdVolume) (id : VolumeId) :
    Trail.Leaves (Session.apply devices) (v.addToSession devices id) (volumeTrail devices v id) :=
  Trail.leaves_seq (leaves_attachComponents devices _ _) (Trail.leaves_modify (Update.list _))

/-- An array leaves the updates of its trail: first its own, then those of its volumes. -/
theorem leaves_array (a : MdArray) (i : Nat) :
    Trail.Leaves (Session.apply devices) (a.addToSession devices i) (arrayTrail devices a i) := by
  apply Trail.leaves_seq (leaves_attachComponents devices _ _)
  apply Trail.leaves_seq (Trail.leaves_modify (Update.list _))
  refine Trail.leaves_seq (Trail.leaves_forM (fun v => ?_) _) ?_
  · exact leaves_volume devices v.1 ⟨i, v.2⟩
  · exact Trail.leaves_modify (Update.finish i a)

/-- One round of the session's loop leaves the updates of its container, and catches what it throws. -/
theorem leaves_attachImsmArray (container : Option MdArray × Nat) :
    Trail.Leaves (Session.apply devices) (attachImsmArray devices container)
      ⟨updatesOf devices container, true⟩ := by
  obtain ⟨_ | a, i⟩ := container
  · exact Trail.leaves_pure
  · exact Trail.leaves_tryCatch (leaves_array devices a i)

/-- A session is what the updates of its containers make of an empty one. -/
theorem Session.initialized_eq (dirs : List MdDir) (hdevices : devices ≠ []) :
    Session.initialized devices dirs =
      (updates devices dirs).foldl (Session.apply devices) (.discovered devices) := by
  have hdone : (Trail.forEach (fun c => (⟨updatesOf devices c, true⟩ : Trail Update))
      (imsmArrays dirs).zipIdx).done :=
    (Trail.done_forEach_iff _).mpr fun _ _ => rfl
  have hleaves := (Trail.leaves_forM (leaves_attachImsmArray devices) (imsmArrays dirs).zipIdx
    (Session.discovered devices)).1 hdone
  rw [Trail.updates_forEach_of_done _ fun _ _ => rfl] at hleaves
  rw [Session.initialized, if_pos (List.length_pos_iff.mpr hdevices), hleaves]
  rfl

end trails

end Irstessi
