import Irstessi.Str
import Irstessi.Types

/-!
# The device tree

The controllers, routing devices and end devices that a session has discovered, and the order in
which `addToSession` registers them.

* `FoundDevice`, `RoutingDevices`, `FoundController`, `DeviceTree`: the tree.
* `DeviceTree.hardware`: the objects in the order of their registration.
* `DeviceTree.endDevices`: the end devices of the session.

The tree is what a discovery has found, with what the functions of containers and volumes read of each
disk. Its order is the order of registration, from which the handles are counted: a controller comes
before what it has attached, a device before its phys and ports. How sysfs leads to such a tree is the
subject of `Discovery`, `Topology` and the modules on ports and phys; the modules on handles and
sessions are about any tree.
-/

namespace Irstessi

/-- The class of an end device, as `typeid` tells it.
Source: `ahci_disk.h`, `ahci_cdrom.h`, `ahci_tape.h`, `isci_disk.h`, `isci_cdrom.h`, `isci_tape.h`,
`nvme_disk.h` -/
inductive DeviceClass
  | ahciDisk
  | ahciCdrom
  | ahciTape
  | isciDisk
  | isciCdrom
  | isciTape
  | nvmeDisk
  deriving DecidableEq, Repr

/-- Whether `dynamic_pointer_cast<BlockDevice>` succeeds. -/
def DeviceClass.isBlockDevice : DeviceClass → Bool
  | ahciDisk | isciDisk | nvmeDisk => true
  | ahciCdrom | ahciTape | isciCdrom | isciTape => false

/-- An end device as its discovery leaves it.
Source: `end_device.h` `EndDevice`, `block_device.h` `BlockDevice` -/
structure FoundDevice where
  cls : DeviceClass
  m_DevName : Str
  m_SerialNum : Str
  m_TotalSize : UInt64
  m_BlocksTotal : UInt64
  m_DiskUsage : SSI_DiskUsage
  m_DiskState : SSI_DiskState
  /-- The exit status and the output of `mdadm -Es` for it. -/
  examined : UInt8 × List UInt8
  deriving DecidableEq, Repr

/-- Source: `end_device.cpp` `EndDevice::operator ==` -/
def FoundDevice.equal (d d' : FoundDevice) : Bool :=
  d.cls = d'.cls && d'.m_SerialNum.equal d.m_SerialNum

/-- The routing devices directly behind a controller or a routing device: the first one with what is
behind it, then the others.
Source: `routing_device.h` `RoutingDevice`, `ahci_multiplier.h` `AHCI_Multiplier` -/
inductive RoutingDevices
  | nil
  | cons (isMultiplier : Bool) (endDevices : List FoundDevice) (phys ports : Nat)
      (nested others : RoutingDevices)
  deriving DecidableEq, Repr

/-- A controller with what is attached to it.
Source: `controller.h` `Controller` -/
structure FoundController where
  controllerType : SSI_ControllerType
  endDevices : List FoundDevice
  routingDevices : RoutingDevices
  ports : Nat
  phys : Nat
  enclosures : Nat
  /-- The device id of the option ROM that `findRaidInfo` finds for it. -/
  oromDevId : Option UInt32
  deriving DecidableEq, Repr

/-- The controllers in the order in which `Session::initialize` finds them. -/
abbrev DeviceTree : Type := List FoundController

/-- An end device of a session with the controller that its port leads to. -/
structure SessionDevice where
  found : FoundDevice
  controller : Nat
  deriving DecidableEq, Repr

/-- An object that is registered for the hardware. -/
inductive HardwareObject
  | controller (n : Nat)
  | endDevice (d : SessionDevice)
  | phy
  | port
  | routingDevice
  | enclosure
  | raidInfo
  deriving DecidableEq, Repr

/-- The end device that an object is. -/
def HardwareObject.endDevice? : HardwareObject → Option SessionDevice
  | endDevice d => some d
  | _ => none

/-- Source: `end_device.cpp` `EndDevice::addToSession` -/
def FoundDevice.addToSession (n : Nat) (d : FoundDevice) : List HardwareObject :=
  [.endDevice ⟨d, n⟩, .phy, .port]

/-- Source: `routing_device.cpp` `RoutingDevice::addToSession`, `ahci_multiplier.cpp`
`AHCI_Multiplier::addToSession` -/
def RoutingDevices.addToSession (n : Nat) : RoutingDevices → List HardwareObject
  | nil => []
  | cons isMultiplier endDevices phys ports nested others =>
      (if isMultiplier then [.phy] else []) ++
        .routingDevice :: endDevices.flatMap (FoundDevice.addToSession n) ++
        List.replicate phys .phy ++ List.replicate ports .port ++ nested.addToSession n ++
        [.port] ++ others.addToSession n

/-- Source: `controller.cpp` `Controller::addToSession` -/
def FoundController.addToSession (n : Nat) (c : FoundController) : List HardwareObject :=
  .controller n :: c.endDevices.flatMap (FoundDevice.addToSession n) ++
    c.routingDevices.addToSession n ++ List.replicate c.ports .port ++
    List.replicate c.phys .phy ++ List.replicate c.enclosures .enclosure

namespace DeviceTree

/-- The RAID information of a controller is looked for by the type of the controller and the id of its
option ROM; that of an ISCI controller has the id 0.
Source: `ahci.cpp` `AHCI::findRaidInfo`, `isci.cpp`, `vmd.cpp`; `isci_raid_info.cpp`
`ISCI_RaidInfo::ISCI_RaidInfo` -/
def raidInfos (tree : DeviceTree) : List (SSI_ControllerType × UInt32) :=
  tree.foldl (fun infos c => match c.oromDevId with
    | none => infos
    | some id =>
        if (c.controllerType, id) ∈ infos then infos
        else infos ++ [(c.controllerType, if c.controllerType = .scu then 0 else id)])
    []

/-- The objects registered for the hardware.
Source: `session.cpp` `Session::initialize` -/
def hardware (tree : DeviceTree) : List HardwareObject :=
  (tree.zipIdx.flatMap fun c => c.1.addToSession c.2) ++ tree.raidInfos.map fun _ => .raidInfo

/-- `m_EndDevices` of the session.
Source: `session.cpp` `Session::addEndDevice` -/
def endDevices (tree : DeviceTree) : List SessionDevice :=
  tree.hardware.filterMap HardwareObject.endDevice?

end DeviceTree

end Irstessi
