import Irstessi.Mdadm
import Irstessi.RaidInfo
import Irstessi.Text

/-!
# Disks

`EndDevice` is a disk of the session as the container and volume functions read it. What a disk is used
for and whether `/boot` lies on it is found out by looking for words in what commands print; a volume
has a block device of its own that is discovered in the same way.

* `determineDiskUsage`, `determineDiskIsSystem`: the two questions.
* `EndDevice.ofPath`, `EndDevice.discoverBlockDevice`: a block device that is constructed and discovered.

The words that decide are looked for anywhere in the output, so that names in it may be taken for words;
the modules `DiskUsage` and `SystemDevice` say when this goes wrong. Here are the functions alone. The
block device of a volume is constructed from the volume's path and discovered with an inquiry of its
own, before the volume reads anything else; of what it finds out only that it has been asked matters to
the volume. Its other attributes (serial number, firmware, sizes) are read by no modelled function and
are left out.
-/

namespace Irstessi

open Interact

/-- A disk of the session.
Source: `end_device.h` `EndDevice`, `block_device.h` `BlockDevice` -/
structure EndDevice where
  /-- Whether `dynamic_pointer_cast<BlockDevice>` succeeds; it does not for CD-ROMs and tapes. -/
  isBlockDevice : Bool
  m_DevName : Str
  diskType : SSI_DiskType
  diskUsage : SSI_DiskUsage
  diskState : SSI_DiskState
  systemDisk : Bool
  fultondalex8 : Bool
  /-- `getController()`. -/
  controller : Option Controller
  /-- The identity of the container the disk is attached to, `getArray().get()`. -/
  array : Option Nat
  /-- `getRaidInfo()`. -/
  raidInfo : Option RaidInfo
  deriving DecidableEq, Repr

namespace EndDevice

/-! ## Questions to the system -/

/-- The usage that an output of `mdadm -Es` stands for.
Source: `block_device.cpp` `BlockDevice::__internal_determine_disk_usage` -/
def usageOf (exitStatus : UInt8) (result : Str) (hasArray : Bool) : SSI_DiskUsage :=
  if exitStatus ≠ 0 then .passThru
  else if (result.find (lit "spare") 0).isSome then
    if hasArray then .spare else .passThruReadOnlyMount
  else if (result.find (lit "ARRAY") 0).isSome then
    if hasArray then .arrayMember else .offlineArray
  else .passThru

/-- Source: `block_device.cpp` `BlockDevice::__internal_determine_disk_usage` -/
def determineDiskUsage (d : EndDevice) : SysProg EndDevice := do
  let reply ← shellOutput (.examineScan d.m_DevName)
  pure { d with diskUsage := usageOf reply.exitStatus (shellCap reply.output) d.array.isSome }

/-- `"/dev/" + m_DevName`.
Source: `block_device.cpp` `BlockDevice::__internal_determine_disk_is_system` -/
def deviceFile (d : EndDevice) : Str := (Str.ofLit "/dev/").plus d.m_DevName

/-- Source: `block_device.cpp` `BlockDevice::__internal_determine_disk_is_system` -/
def determineDiskIsSystem (d : EndDevice) : SysProg EndDevice := do
  let reply ← shellOutput .bootFilesystem
  if reply.exitStatus = 0 then
    pure { d with systemDisk := ((shellCap reply.output).find d.deviceFile.m_buffer 0).isSome }
  else pure d

/-! ## Discovery -/

/-- A block device by itself, with the device name that its discovery takes from the path where there is
no directory `block` below it, as there is none below a volume.
Source: `block_device.cpp` `BlockDevice::BlockDevice`, `end_device.cpp` `EndDevice::discover` -/
def ofPath (path : Str) : EndDevice where
  isBlockDevice := true
  m_DevName := path.reverseAfter (.ofLit "/")
  diskType := .unknown
  diskUsage := .unknown
  diskState := .unknown
  systemDisk := false
  fultondalex8 := false
  controller := none
  array := none
  raidInfo := none

/-- What is asked behind `EndDevice::discover`.
Source: `block_device.cpp` `BlockDevice::discover` -/
def discoverBlockDevice (d : EndDevice) : SysProg EndDevice := do
  let d ← determineDiskUsage { d with diskState := .normal }
  d.determineDiskIsSystem

end EndDevice

end Irstessi
