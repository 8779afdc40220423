import Irstessi.Discovery
import Irstessi.HandleManager

/-!
# Ports, phys and what they connect

Every controller, routing device and end device has ports with phys. Discovery connects the port of a
device to that of the device in front of it; SAS phys share the port that their directories link to.

* `LinkHeap`: devices, ports and phys; `attachPort`: two ports and their devices are connected.
* `AHCI_Phy.discoverLinks`, `AHCI_Multiplier.discoverLinks`, `NVME_Phy.discoverLinks`: ports of one phy.
* `SAS_Phy.discover`, `PortDirs.discoverPort`: ports of several phys, with expanders behind them.
* `addRoutingDevice`, `addController`, `initialized`: what a session adds, in its order.
* `portInfo`, `phyInfo`: what the functions of the interface tell of a port and of a phy.

Devices, ports and phys are numbers, and the heap says what has been made of each: which object it
belongs to, what it is connected to, and in which lists it stands. What discovery does is given by what
the directories show: the SCSI targets for AHCI, the links of the ports and what is behind them for SAS,
one phy for NVMe. A discovery of SAS ports can fail: it throws where no directory is shown for what the
port leads to, and an expander without a port of its own is a null pointer; hence `Except`. What the
interface tells is read off the heap through handles.
-/

namespace Irstessi

/-! ## Objects -/

/-- Objects are numbered, ports and phys apart from devices. The path is given where ports are looked for
by it.
Source: `port.h` `Port`, `remote_port.h` `RemotePort` -/
structure PortObject (P : Type) where
  m_Path : Option P
  m_pParent : Nat
  m_pRemotePort : Option Nat
  m_Phys : List Nat
  deriving DecidableEq, Repr

/-- `port` is what the link of that name in the phy's directory leads to.
Source: `phy.h` `Phy` -/
structure PhyObject (P : Type) where
  port : Option P
  m_pParent : Nat
  m_pPort : Option Nat
  deriving DecidableEq, Repr

/-- The lists of a controller or a routing device, and the phy and the port by which an end device, a
port multiplier or an expander is reached.
Source: `controller.h` `Controller`, `routing_device.h` `RoutingDevice` (`m_pSubtractivePort`),
`ahci_multiplier.h` `AHCI_Multiplier`, `end_device.h` `EndDevice` -/
structure DevicePorts where
  m_Phys : List Nat
  m_Ports : List Nat
  m_pPhy : Option Nat
  m_pPort : Option Nat
  deriving DecidableEq, Repr

namespace DevicePorts

def empty : DevicePorts := ⟨[], [], none, none⟩

variable (l : DevicePorts)

/-- Source: `controller.cpp` `Controller::getPhys`, `routing_device.cpp` `RoutingDevice::getPhys`,
`ahci_multiplier.cpp` `AHCI_Multiplier::getPhys`, `end_device.cpp` `EndDevice::getPhys` -/
def getPhys : List Nat := l.m_Phys ++ l.m_pPhy.toList

/-- Source: `controller.cpp` `Controller::getPorts`, `routing_device.cpp` `RoutingDevice::getPorts`,
`end_device.cpp` `EndDevice::getPorts` -/
def getPorts : List Nat := l.m_Ports ++ l.m_pPort.toList

end DevicePorts

/-- Devices, ports and phys. `destroyed` tells of ports that nothing owns any more. -/
structure LinkHeap (P : Type) where
  devices : DeviceHeap
  isEndDevice : Nat → Bool
  owned : Nat → DevicePorts
  nextPort : Nat
  ports : Nat → PortObject P
  destroyed : Nat → Bool
  nextPhy : Nat
  phys : Nat → PhyObject P

namespace LinkHeap

variable {P : Type}

def start : LinkHeap P where
  devices := .start
  isEndDevice _ := false
  owned _ := .empty
  nextPort := 0
  ports _ := ⟨none, 0, none, []⟩
  destroyed _ := false
  nextPhy := 0
  phys _ := ⟨none, 0, none⟩

variable (h : LinkHeap P)

/-- A new device, which is number `h.devices.next`. -/
def newDevice (isController isEndDevice : Bool) : LinkHeap P :=
  { h with
    devices := h.devices.new isController
    isEndDevice := Function.update h.isEndDevice h.devices.next isEndDevice }

/-- A new phy of a device, which is number `h.nextPhy`.
Source: `phy.cpp` `Phy::Phy` -/
def newPhy (d : Nat) (port : Option P) : LinkHeap P :=
  { h with
    nextPhy := h.nextPhy + 1
    phys := Function.update h.phys h.nextPhy ⟨port, d, none⟩ }

/-- A new port of a device, which is number `h.nextPort`.
Source: `port.cpp` `Port::Port`, `remote_port.cpp` `RemotePort::RemotePort`, `storage_object.h`
`StorageObject::setParent` -/
def newPort (d : Nat) (path : Option P) : LinkHeap P :=
  { h with
    nextPort := h.nextPort + 1
    ports := Function.update h.ports h.nextPort ⟨path, d, none, []⟩ }

/-- Source: `storage_object.h` `StorageObject::setParent` -/
def setParent (x d : Nat) : LinkHeap P := { h with devices := h.devices.setParent x d }

/-- The phy is put on the list of a controller or a routing device.
Source: `controller.cpp` `Controller::attachPhy`, `routing_device.cpp` `RoutingDevice::attachPhy` -/
def listPhy (d x : Nat) : LinkHeap P :=
  { h with owned := Function.update h.owned d { h.owned d with m_Phys := (h.owned d).m_Phys ++ [x] } }

/-- The port is put on the list of a controller or a routing device.
Source: `controller.cpp` `Controller::attachPort`, `routing_device.cpp` `RoutingDevice::attachPort` -/
def listPort (d p : Nat) : LinkHeap P :=
  { h with owned := Function.update h.owned d { h.owned d with m_Ports := (h.owned d).m_Ports ++ [p] } }

/-- `m_pPhy` of an end device or a port multiplier. -/
def setPhy (d x : Nat) : LinkHeap P :=
  { h with owned := Function.update h.owned d { h.owned d with m_pPhy := some x } }

/-- `m_pPort` of an end device, `m_pSubtractivePort` of a routing device. The port that was there before
is destroyed, as nothing else owns it.
Source: `routing_device.h` `RoutingDevice::setSubtractivePort` -/
def setPort (d p : Nat) : LinkHeap P :=
  { h with
    owned := Function.update h.owned d { h.owned d with m_pPort := some p }
    destroyed :=
      match (h.owned d).m_pPort with
      | some old => if old = p then h.destroyed else Function.update h.destroyed old true
      | none => h.destroyed }

/-- Source: `port.cpp` `Port::attachPhy`, `phy.cpp` `Phy::attachPort` -/
def attachPhy (p x : Nat) : LinkHeap P :=
  { h with
    ports := Function.update h.ports p { h.ports p with m_Phys := (h.ports p).m_Phys ++ [x] }
    phys := Function.update h.phys x { h.phys x with m_pPort := some p } }

/-- A port is connected to that of an end device or a routing device, which is attached to its parent.
Source: `port.cpp` `Port::attachPort`, `remote_port.cpp` `RemotePort::attachPort` -/
def attachPort (p q : Nat) : LinkHeap P :=
  let ports := Function.update h.ports p { h.ports p with m_pRemotePort := some q }
  let x := (h.ports q).m_pParent
  { h with
    ports := Function.update ports q { ports q with m_pRemotePort := some p }
    devices := DevicePort.attachPort ⟨(h.ports p).m_pParent⟩ h.devices
      (if h.isEndDevice x then .endDevice x else .routingDevice x) }

/-- The port is connected to that of the device. End devices and port multipliers have one.
Source: `end_device.h` `EndDevice::getPort`, `routing_device.h` `RoutingDevice::getSubtractivePort` -/
def connect (p x : Nat) : LinkHeap P :=
  match (h.owned x).m_pPort with
  | some q => h.attachPort p q
  | none => h

/-- A new device with the phy and the port by which it is reached is number `h.devices.next`.
Source: `end_device.cpp` `EndDevice::discover`, `ahci_multiplier.cpp` `AHCI_Multiplier::discover` -/
def newReached (isEndDevice : Bool) : LinkHeap P :=
  let d := h.devices.next
  (((h.newDevice false isEndDevice).newPhy d none).setPhy d h.nextPhy).newPort d none
    |>.setPort d h.nextPort |>.attachPhy h.nextPort h.nextPhy

/-- Source: `end_device.cpp` `EndDevice::EndDevice`, `EndDevice::discover` -/
def newEndDevice : LinkHeap P := h.newReached true

end LinkHeap

section discovery

variable {P : Type}

/-! ## AHCI and NVMe -/

/-- What is behind one target becomes an end device with a port of its own.
Source: `ahci_multiplier.cpp` `AHCI_Multiplier::__internal_attach_end_device` -/
def AHCI_Multiplier.attachEndDeviceLinks (m : Nat) (h : LinkHeap P) (target : List ScsiDriver) :
    LinkHeap P :=
  if target.any ScsiDriver.isEndDevice then
    let e := h.devices.next
    let h := h.newEndDevice
    let x := h.nextPhy
    let p := h.nextPort
    ((((h.newPhy m none).listPhy m x).newPort m none).listPort m p).attachPhy p x |>.connect p e
  else h

/-- The port multiplier is number `h.devices.next`.
Source: `ahci_multiplier.cpp` `AHCI_Multiplier::AHCI_Multiplier`, `AHCI_Multiplier::discover` -/
def AHCI_Multiplier.discoverLinks (targets : List (List ScsiDriver)) (h : LinkHeap P) : LinkHeap P :=
  targets.foldl (AHCI_Multiplier.attachEndDeviceLinks h.devices.next) (h.newReached false)

/-- The port of a phy and what is behind it, if anything; the port is put on the controller's list last.
Source: `ahci_phy.cpp` `AHCI_Phy::discover`, `nvme_phy.cpp` `NVME_Phy::discover` -/
def LinkHeap.discoverBehind (c x : Nat) (device : Option (LinkHeap P → LinkHeap P)) (h : LinkHeap P) :
    LinkHeap P :=
  let p := h.nextPort
  let own := (h.newPort c none).attachPhy p x
  match device with
  | some discover =>
      let d := own.devices.next
      (((discover own).setParent d c).connect p d).listPort c p
  | none => own.listPort c p

/-- Source: `ahci.cpp` `AHCI::discover`, `ahci_phy.cpp` `AHCI_Phy::discover` -/
def AHCI_Phy.discoverLinks (c : Nat) (h : LinkHeap P) (targets : List (List ScsiDriver)) : LinkHeap P :=
  let x := h.nextPhy
  let own := (h.newPhy c none).listPhy c x
  match targets with
  | [] => own
  | [target] =>
      own.discoverBehind c x (if target.any ScsiDriver.isEndDevice then some .newEndDevice else none)
  | targets => own.discoverBehind c x (some (AHCI_Multiplier.discoverLinks targets))

/-- `identified` tells whether the disk has been recognised; otherwise it is dropped again.
Source: `vmd.cpp` `VMD::discover`, `nvme_phy.cpp` `NVME_Phy::discover`, `__internal_attach_end_device` -/
def NVME_Phy.discoverLinks (c : Nat) (h : LinkHeap P) (identified : Bool) : LinkHeap P :=
  let x := h.nextPhy
  ((h.newPhy c none).listPhy c x).discoverBehind c x (if identified then some .newEndDevice else none)

/-! ## SAS -/

/-- The directories of ports behind a controller or an expander, with what each of them shows. An
expander's phys are given by the ports that they link to; `above` tells that its directory is in front
of that of the port.
Source: `isci_port.cpp` `ISCI_Port::discover`, `isci_expander_phy.cpp`
`ISCI_Expander_Phy::__internal_create_port` -/
inductive PortDirs (P : Type)
  | nil
  | host (path : P) (rest : PortDirs P)
  | expander (path : P) (above : Bool) (phys : List (Option P)) (inner rest : PortDirs P)
  | endDevice (path : P) (drivers : List ScsiDriver) (rest : PortDirs P)
  deriving DecidableEq, Repr

variable [DecidableEq P]

/-- The port leads to what an expander is attached to.
Source: `isci_expander_phy.cpp` `ISCI_Expander_Phy::__internal_create_port` -/
def PortDirs.leadsUp (target : P) : PortDirs P → Bool
  | nil => false
  | host path rest => if path = target then true else rest.leadsUp target
  | expander path above _ _ rest => if path = target then above else rest.leadsUp target
  | endDevice path _ rest => if path = target then false else rest.leadsUp target

/-- Source: `isci.cpp` `ISCI::getPortByPath`, `isci_expander.cpp` `ISCI_Expander::getPortByPath` -/
def LinkHeap.getPortByPath (h : LinkHeap P) (d : Nat) (path : P) : Option Nat :=
  (h.owned d).getPorts.find? fun p => (h.ports p).m_Path = some path

/-- A phy comes by its port or makes it: the subtractive port of the expander, or one of the list.
Source: `isci_phy.cpp` `ISCI_Phy::discover`, `isci_expander_phy.cpp` `ISCI_Expander_Phy::discover`,
`__internal_create_port` -/
def SAS_Phy.discover (leadsUp : P → Bool) (d : Nat) (h : LinkHeap P) (x : Nat) : LinkHeap P :=
  match (h.phys x).port with
  | none => h
  | some path =>
      match h.getPortByPath d path with
      | some p => h.attachPhy p x
      | none =>
          let p := h.nextPort
          if leadsUp path then ((h.newPort d (some path)).setPort d p).attachPhy p x
          else ((h.newPort d (some path)).listPort d p).attachPhy p x

/-- A controller's ports are all on its list. -/
def ISCI_Phy.discover (d : Nat) (h : LinkHeap P) (x : Nat) : LinkHeap P :=
  SAS_Phy.discover (fun _ => false) d h x

def ISCI_Expander_Phy.discover (dirs : PortDirs P) (d : Nat) (h : LinkHeap P) (x : Nat) : LinkHeap P :=
  SAS_Phy.discover (fun path => dirs.leadsUp path) d h x

/-- The phys are put on the list of the device. -/
def LinkHeap.newPhys (d : Nat) (ports : List (Option P)) (h : LinkHeap P) : LinkHeap P :=
  ports.foldl (fun h port => (h.newPhy d port).listPhy d h.nextPhy) h

/-- The phys are put on the list, and then they come by their ports.
Source: `isci.cpp` `ISCI::discover`, `isci_expander.cpp` `ISCI_Expander::discover` -/
def LinkHeap.discoverPhys (discover : LinkHeap P → Nat → LinkHeap P) (d : Nat) (ports : List (Option P))
    (h : LinkHeap P) : LinkHeap P :=
  let own := h.newPhys d ports
  (own.owned d).m_Phys.foldl discover own

namespace PortDirs

/-- The first driver that there is a class for decides about the object.
Source: `isci_port.cpp` `ISCI_Port::discover`, `__internal_create_storage_object`, `isci_expander.cpp`
`ISCI_Expander::discover` -/
def discoverPort (target : Option P) (p : Nat) : PortDirs P → LinkHeap P → Except Fault (LinkHeap P)
  | nil, _ => .error (.exception .invalidObject)
  | host path rest, h => if target = some path then .ok h else rest.discoverPort target p h
  | expander path _ phys inner rest, h =>
      if target = some path then do
        let x := h.devices.next
        let own := (h.newDevice false false).setParent x (h.ports p).m_pParent
        let linked := own.discoverPhys (ISCI_Expander_Phy.discover inner x) x phys
        let discovered ← (linked.owned x).m_Ports.foldlM
          (fun h q => inner.discoverPort (h.ports q).m_Path q h) linked
        if (discovered.owned x).m_pPort.isSome then .ok (discovered.connect p x)
        else .error .nullDereference
      else rest.discoverPort target p h
  | endDevice path drivers rest, h =>
      if target = some path then
        match drivers.find? (· ≠ .other) with
        | some driver =>
            if driver.isEndDevice then
              let e := h.devices.next
              .ok ((h.newEndDevice.setParent e (h.ports p).m_pParent).connect p e)
            else .ok h
        | none => .ok h
      else rest.discoverPort target p h

end PortDirs

/-! ## Controllers -/

/-- What sysfs shows of a controller: the targets of each phy, the ports that the phys link to and the
directories of these, or the disks of all VMD domains. -/
inductive ControllerPorts (P : Type)
  | ahci (phys : List (List (List ScsiDriver)))
  | isci (phys : List (Option P)) (dirs : PortDirs P)
  | vmd (disks : List Bool)
  deriving DecidableEq, Repr

/-- The controller is number `h.devices.next`.
Source: `ahci.cpp` `AHCI::discover`, `isci.cpp` `ISCI::discover`, `vmd.cpp` `VMD::discover` -/
def ControllerPorts.discover (h : LinkHeap P) : ControllerPorts P → Except Fault (LinkHeap P)
  | ahci phys => .ok (phys.foldl (AHCI_Phy.discoverLinks h.devices.next) (h.newDevice true false))
  | isci phys dirs =>
      let c := h.devices.next
      let linked := (h.newDevice true false).discoverPhys (ISCI_Phy.discover c) c phys
      (linked.owned c).m_Ports.foldlM (fun h q => dirs.discoverPort (h.ports q).m_Path q h) linked
  | vmd disks => .ok (disks.foldl (NVME_Phy.discoverLinks h.devices.next) (h.newDevice true false))

end discovery

/-! ## Sessions -/

/-- An object by its number. -/
inductive LinkObject
  | device (d : Nat)
  | port (p : Nat)
  | phy (x : Nat)
  deriving DecidableEq, Repr

namespace LinkHeap

variable {P : Type} (h : LinkHeap P)

/-- Source: `end_device.cpp` `EndDevice::addToSession` -/
def addEndDevice (e : Nat) : List LinkObject :=
  .device e :: (h.owned e).m_pPhy.toList.map .phy ++ (h.owned e).m_pPort.toList.map .port

/-- `depth` bounds the recursion, which ends in the source since the tree does.
Source: `routing_device.cpp` `RoutingDevice::addToSession`, `ahci_multiplier.cpp`
`AHCI_Multiplier::addToSession` -/
def addRoutingDevice : Nat → Nat → List LinkObject
  | 0, _ => []
  | depth + 1, r =>
      (h.owned r).m_pPhy.toList.map .phy ++ .device r ::
        (h.devices.lists r).m_EndDevices_Direct.flatMap h.addEndDevice ++
        (h.owned r).m_Phys.map .phy ++ (h.owned r).m_Ports.map .port ++
        (h.devices.lists r).m_RoutingDevices_Direct.flatMap (addRoutingDevice depth) ++
        (h.owned r).m_pPort.toList.map .port

/-- No walk has more steps than there are devices.
Source: `controller.cpp` `Controller::addToSession` -/
def addController (c : Nat) : List LinkObject :=
  .device c :: (h.devices.lists c).m_EndDevices_Direct.flatMap h.addEndDevice ++
    (h.devices.lists c).m_RoutingDevices_Direct.flatMap (h.addRoutingDevice h.devices.next) ++
    (h.owned c).m_Ports.map .port ++ (h.owned c).m_Phys.map .phy

/-- The controllers are discovered and added to the session one by one. The result is the objects, and
those that are added to the session.
Source: `session.cpp` `Session::initialize` -/
def initialized [DecidableEq P] :
    List (ControllerPorts P) → LinkHeap P → Except Fault (LinkHeap P × List LinkObject)
  | [], h => .ok (h, [])
  | dir :: dirs, h => do
      let discovered ← dir.discover h
      let (final, added) ← initialized dirs discovered
      .ok (final, discovered.addController h.devices.next ++ added)

end LinkHeap

/-! ## What is told of ports and phys -/

/-- Source: `ssi.h` `SSI_DeviceType` -/
inductive SSI_DeviceType
  | controller
  | endDevice
  | routingDevice
  deriving DecidableEq, Repr

/-- Source: `ssi.h` `SSI_PortInfo` -/
structure SSI_PortInfo where
  portHandle : Nat
  numPhys : Nat
  localDeviceType : SSI_DeviceType
  localDeviceHandle : Nat
  connectedToPort : Nat
  deriving DecidableEq, Repr

/-- Source: `ssi.h` `SSI_PhyInfo` -/
structure SSI_PhyInfo where
  phyHandle : Nat
  associatedPort : Nat
  deviceType : SSI_DeviceType
  deviceHandle : Nat
  deriving DecidableEq, Repr

/-- A session with the handles. `object` tells which object of the context manager is meant, which has
others too.
Source: `session.h` `Session` -/
structure LinkSession (P α : Type) where
  heap : LinkHeap P
  added : List LinkObject
  contextMgr : HandleManager α
  object : LinkObject → α

namespace LinkSession

variable {P α : Type} (s : LinkSession P α)

def m_Ports : List Nat :=
  s.added.filterMap fun
    | .port p => some p
    | _ => none

def m_Phys : List Nat :=
  s.added.filterMap fun
    | .phy x => some x
    | _ => none

/-- Source: `object.cpp` `Object::getHandle` -/
def getHandle (o : LinkObject) : Nat := s.contextMgr.handle (s.object o)

/-- The handle of what a weak pointer to a port leads to. -/
def lockPort (p : Option Nat) : Nat :=
  match p with
  | some p => if s.heap.destroyed p then SSI_NULL_HANDLE else s.getHandle (.port p)
  | none => SSI_NULL_HANDLE

def deviceType (d : Nat) : SSI_DeviceType :=
  if s.heap.devices.isController d then .controller
  else if s.heap.isEndDevice d then .endDevice
  else .routingDevice

/-- Source: `port.cpp` `Port::getInfo` -/
def portInfo (p : Nat) : SSI_PortInfo where
  portHandle := s.getHandle (.port p)
  numPhys := (s.heap.ports p).m_Phys.length
  localDeviceType := s.deviceType (s.heap.ports p).m_pParent
  localDeviceHandle := s.getHandle (.device (s.heap.ports p).m_pParent)
  connectedToPort := s.lockPort (s.heap.ports p).m_pRemotePort

/-- Source: `phy.cpp` `Phy::getInfo` -/
def phyInfo (x : Nat) : SSI_PhyInfo where
  phyHandle := s.getHandle (.phy x)
  associatedPort := s.lockPort (s.heap.phys x).m_pPort
  deviceType := s.deviceType (s.heap.phys x).m_pParent
  deviceHandle := s.getHandle (.device (s.heap.phys x).m_pParent)

end LinkSession

end Irstessi
