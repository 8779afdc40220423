import Irstessi.Discovery
import Irstessi.Numerals
import Irstessi.StringAppend
import Mathlib.Data.List.Nodup

/-!
# Unique ids

The unique id of a controller is composed of its PCI device id, that of a routing device of its
component id, and that of a phy of its parent and its number. The header wants the parent's unique id
in the id of a phy, which begins with the class of the device; `Phy::getId` takes the part id, which
does not. So a controller and a disk may stand for one and the same parent: the first phy of a
controller with the device id 0xa1d2 and the phy of a disk with the serial number 41426 both report
`ph:41426/0`.

* `Controller.getId`, `RoutingDevice.getId`, `Phy.getId`, `reported`: the ids, and what is copied into
  the info structures.
* `HostAdapter`, `addToSession`: the objects that a session lists, over what sysfs shows of them.
* `UniqueIds`: no two controllers, phys or routing devices report the same id.
* **`uniqueIds_iff`**: where the ids are composed of single-byte characters they are unique iff the
  texts that they are composed of are told apart (`ToldApart`): the device ids, the component ids, and
  the part ids with the numbers, as far as they are reported.
* `nodup_phyTexts`: the phys are told apart where no two devices of whatever class have one part id,
  the numbers do not come round and the ids fit. `grouped_listedObjects` carries this over the trees
  of port multipliers and expanders.
-/

namespace Irstessi

/-! ## Ids -/

/-- Source: `ssi.h` `SSI_UNIQUE_ID_LENGTH` -/
def SSI_UNIQUE_ID_LENGTH : Nat := 40

/-- The text that `get` copies into `uniqueId`, in front of its NUL.
Source: `string.cpp` `String::__get` -/
def reported (id : Str) : List UInt8 := id.m_buffer.take (SSI_UNIQUE_ID_LENGTH - 1)

/-- Source: `controller.cpp` `Controller::getPartId` -/
def Controller.getPartId (m_PciDeviceId : UInt16) : Str := .ofNat m_PciDeviceId.toNat

/-- Source: `controller.cpp` `Controller::getId` -/
def Controller.getId (m_PciDeviceId : UInt16) : Str :=
  (Str.ofLit "co:").plus (Controller.getPartId m_PciDeviceId)

/-- The part id is the component id.
Source: `routing_device.cpp` `RoutingDevice::getId` -/
def RoutingDevice.getId (m_ComponentId : Str) : Str := (Str.ofLit "ro:").plus m_ComponentId

/-- Source: `phy.cpp` `Phy::getId` -/
def Phy.getId (partId : Str) (m_Number : UInt32) : Str :=
  (((Str.ofLit "ph:").plus partId).plus (.ofLit "/")).plus (.ofNat m_Number.toNat)

/-! ## The devices of a session -/

/-- An object that a session lists. The phys of a device are together, with the part id of the device. -/
inductive ListedObject
  | controller (m_PciDeviceId : UInt16)
  | endDevice (m_SerialNum : Str)
  | routingDevice (m_ComponentId : Str)
  | phys (partId : Str) (numbers : List UInt32)
  deriving DecidableEq, Repr

/-- The directory of a device with its driver and, for an end device, the serial number. -/
structure TargetDevice where
  driver : ScsiDriver
  m_SerialNum : Str
  deriving DecidableEq, Repr

/-- The numbers that a counter gives, which starts at `number`. -/
def counted (number : UInt32) : Nat → List UInt32
  | 0 => []
  | count + 1 => number :: counted (number + 1) count

/-- The phy of an end device has the number 0.
Source: `end_device.cpp` `EndDevice::discover`, `addToSession` -/
def EndDevice.addToSession (m_SerialNum : Str) : List ListedObject :=
  [.endDevice m_SerialNum, .phys m_SerialNum [0]]

namespace AHCI_Multiplier

/-- Every directory that is tried is counted. The result is the counter with the serial number of the
first end device.
Source: `ahci_multiplier.cpp` `AHCI_Multiplier::discover` -/
def tryDevices (number : UInt32) : List TargetDevice → UInt32 × Option Str
  | [] => (number, none)
  | device :: devices =>
      if device.driver.isEndDevice then (number + 1, some device.m_SerialNum)
      else tryDevices (number + 1) devices

/-- The serial numbers with the numbers of the phys.
Source: `ahci_multiplier.cpp` `AHCI_Multiplier::discover` -/
def discoverFrom (number : UInt32) : List (List TargetDevice) → List (Str × UInt32)
  | [] => []
  | target :: targets =>
      match tryDevices number target with
      | (number, some m_SerialNum) => (m_SerialNum, number) :: discoverFrom number targets
      | (number, none) => discoverFrom number targets

/-- Nothing sets the component id of a port multiplier. Its own phy has the number 0.
Source: `ahci_multiplier.cpp` `AHCI_Multiplier::addToSession`, `routing_device.cpp`
`RoutingDevice::addToSession` -/
def addToSession (targets : List (List TargetDevice)) : List ListedObject :=
  .phys .empty [0] :: .routingDevice .empty ::
    (discoverFrom 0 targets).flatMap (fun found => EndDevice.addToSession found.1) ++
    [.phys .empty ((discoverFrom 0 targets).map Prod.snd)]

end AHCI_Multiplier

/-- The ports of a controller or an expander that lead to devices: an end device, with the directories
of its targets, or an expander, with its phys and its own ports. -/
inductive SasTree
  | nil
  | endDevice (devices : List TargetDevice) (rest : SasTree)
  | expander (m_ComponentId : Str) (phys : Nat) (inner rest : SasTree)
  deriving DecidableEq, Repr

namespace SasTree

/-- The first device that there is a class for decides.
Source: `isci_port.cpp` `ISCI_Port::discover`, `__internal_create_storage_object` -/
def endDevices : SasTree → List Str
  | nil => []
  | endDevice devices rest =>
      match devices.find? (·.driver ≠ .other) with
      | some device =>
          if device.driver.isEndDevice then device.m_SerialNum :: rest.endDevices else rest.endDevices
      | none => rest.endDevices
  | expander _ _ _ rest => rest.endDevices

/-- Source: `isci_expander.cpp` `ISCI_Expander::discover`, `routing_device.cpp`
`RoutingDevice::addToSession` -/
def routingDevices : SasTree → List ListedObject
  | nil => []
  | endDevice _ rest => rest.routingDevices
  | expander m_ComponentId phys inner rest =>
      (.routingDevice m_ComponentId :: inner.endDevices.flatMap EndDevice.addToSession ++
        [.phys m_ComponentId (counted 0 phys)] ++ inner.routingDevices) ++ rest.routingDevices

end SasTree

/-- What sysfs shows of a controller: for AHCI the targets of each phy, for ISCI each host with its
`isci_id`, if that can be read, and the number of its phys, and for VMD the serial number of the disk
at each phy, if there is one. -/
inductive HostAdapter
  | ahci (phys : List (List (List TargetDevice)))
  | isci (hosts : List (Option UInt32 × Nat)) (ports : SasTree)
  | vmd (phys : List (Option Str))
  deriving DecidableEq, Repr

namespace HostAdapter

/-- One target of an AHCI phy is an end device.
Source: `ahci_phy.cpp` `AHCI_Phy::discover`, `__internal_attach_end_device`; `nvme_phy.cpp`
`NVME_Phy::discover` -/
def endDevices : HostAdapter → List Str
  | ahci phys => phys.filterMap fun
      | [target] => (target.find? (·.driver.isEndDevice)).map TargetDevice.m_SerialNum
      | _ => none
  | isci _ ports => ports.endDevices
  | vmd phys => phys.filterMap id

/-- Several targets of an AHCI phy are a port multiplier. -/
def routingDevices : HostAdapter → List ListedObject
  | ahci phys => (phys.filter (2 ≤ ·.length)).flatMap AHCI_Multiplier.addToSession
  | isci _ ports => ports.routingDevices
  | vmd _ => []

/-- Source: `ahci.cpp` `AHCI::discover`, `isci.cpp` `ISCI::discover`, `vmd.cpp` `VMD::discover` -/
def numbers : HostAdapter → List UInt32
  | ahci phys => counted 0 phys.length
  | isci hosts _ => hosts.flatMap fun host => counted (host.1.getD 0 * 4) host.2
  | vmd phys => counted 0 phys.length

end HostAdapter

/-- A controller by its path, its device id and what is behind it. -/
structure PciHost where
  m_Path : Str
  m_PciDeviceId : UInt16
  adapter : HostAdapter
  deriving DecidableEq, Repr

/-- Source: `controller.cpp` `Controller::addToSession` -/
def PciHost.addToSession (host : PciHost) : List ListedObject :=
  .controller host.m_PciDeviceId :: host.adapter.endDevices.flatMap EndDevice.addToSession ++
    host.adapter.routingDevices ++
    [.phys (Controller.getPartId host.m_PciDeviceId) host.adapter.numbers]

/-! ## Lists of a session -/

namespace ListedObject

def deviceId? : ListedObject → Option UInt16
  | controller m_PciDeviceId => some m_PciDeviceId
  | _ => none

def componentId? : ListedObject → Option Str
  | routingDevice m_ComponentId => some m_ComponentId
  | _ => none

def serialNum? : ListedObject → Option Str
  | endDevice m_SerialNum => some m_SerialNum
  | _ => none

/-- The part id of a device.
Source: `controller.cpp`, `end_device.cpp`, `routing_device.cpp`, `getPartId` -/
def partId? : ListedObject → Option Str
  | controller m_PciDeviceId => some (Controller.getPartId m_PciDeviceId)
  | endDevice m_SerialNum => some m_SerialNum
  | routingDevice m_ComponentId => some m_ComponentId
  | phys _ _ => none

/-- Phys by the part id of their parent and their number. -/
def phyKeys : ListedObject → List (Str × UInt32)
  | phys partId numbers => numbers.map (partId, ·)
  | _ => []

end ListedObject

section Lists

variable (objects : List ListedObject)

def deviceIds : List UInt16 := objects.filterMap ListedObject.deviceId?

def componentIds : List Str := objects.filterMap ListedObject.componentId?

def serialNums : List Str := objects.filterMap ListedObject.serialNum?

def partIds : List Str := objects.filterMap ListedObject.partId?

def phyKeys : List (Str × UInt32) := objects.flatMap ListedObject.phyKeys

/-- What `SsiGetControllerInfo` reports.
Source: `controller.cpp` `Controller::getInfo` -/
def controllerIds : List (List UInt8) :=
  (deviceIds objects).map fun m_PciDeviceId => reported (Controller.getId m_PciDeviceId)

/-- What `SsiGetRoutingDeviceInfo` reports.
Source: `routing_device.cpp` `RoutingDevice::getInfo` -/
def routingDeviceIds : List (List UInt8) :=
  (componentIds objects).map fun m_ComponentId => reported (RoutingDevice.getId m_ComponentId)

/-- What is told apart of a phy: the part id of its parent, a slash and the number, as far as the
id of 39 characters goes behind `ph:`. -/
def phyText (key : Str × UInt32) : List UInt8 :=
  (key.1.m_buffer ++ 47 :: decimal key.2.toNat).take 36

/-- What `SsiGetPhyInfo` reports.
Source: `phy.cpp` `Phy::getInfo` -/
def phyIds : List (List UInt8) := (phyKeys objects).map fun key => reported (Phy.getId key.1 key.2)

/-- No two controllers, phys or routing devices report the same id. -/
structure UniqueIds : Prop where
  controllers : (controllerIds objects).Nodup
  phys : (phyIds objects).Nodup
  routingDevices : (routingDeviceIds objects).Nodup

/-- What the ids are composed of differs: no two controllers have one PCI device id, no two routing
devices one component id (that of a port multiplier is empty, so that there is no second one), and no
two phys the same number and parents with the same part id. Texts are cut where the ids are. -/
structure ToldApart : Prop where
  deviceIds : (deviceIds objects).Nodup
  componentIds : ((componentIds objects).map fun m_ComponentId => m_ComponentId.m_buffer.take 36).Nodup
  phys : ((phyKeys objects).map phyText).Nodup

/-- The serial numbers and component ids have single-byte characters only. -/
structure PlainIds : Prop where
  componentIds : ∀ m_ComponentId ∈ componentIds objects, m_ComponentId.Counted
  phys : ∀ key ∈ phyKeys objects, key.1.Counted

end Lists

/-- The controllers, in the order in which they are found.
Source: `session.cpp` `Session::initialize` -/
def listedObjects (hosts : List PciHost) : List ListedObject := hosts.flatMap PciHost.addToSession

/-- The controllers have different paths, and the end devices different serial numbers that are not
empty. -/
structure Distinguishable (hosts : List PciHost) : Prop where
  paths : (hosts.map PciHost.m_Path).Nodup
  serialNums : (serialNums (listedObjects hosts)).Nodup
  nonempty : ∀ m_SerialNum ∈ Irstessi.serialNums (listedObjects hosts), m_SerialNum.m_buffer ≠ []

/-! ## Texts of ids -/

/-- The whole id is reported. -/
def Fits (id : Str) : Prop := id.m_buffer.length < SSI_UNIQUE_ID_LENGTH

/-- An id that fits into the field of the structure is reported as it is. -/
theorem reported_eq {id : Str} (h : Fits id) : reported id = id.m_buffer := by
  unfold Fits at h
  exact List.take_of_length_le (by omega)

/-- Single-byte texts are concatenated byte by byte, and stay counted as their bytes. -/
theorem Str.plus_counted {s t : Str} (hs : SingleBytes s.m_buffer) (ht : SingleBytes t.m_buffer) :
    (s.plus t).Counted ∧ (s.plus t).m_buffer = s.m_buffer ++ t.m_buffer := by
  have hcopy := Str.ofBytes_buffer hs.wellFormed
  obtain ⟨hsum, hbuffer⟩ := (Str.counted_ofBytes hs).append ht
  rw [hcopy] at hbuffer
  have hbytes : SingleBytes (s.m_buffer ++ t.m_buffer) := hs.append ht
  unfold Str.plus
  rw [hbuffer]
  exact ⟨Str.counted_ofBytes hbytes, Str.ofBytes_buffer hbytes.wellFormed⟩

/-- Texts that are counted as their bytes are equal if their bytes are. -/
theorem Str.Counted.ext {s t : Str} (hs : s.Counted) (ht : t.Counted)
    (h : s.m_buffer = t.m_buffer) : s = t := by
  rw [hs.eq_ofBytes, h, ← ht.eq_ofBytes]

/-- The text of a number has single-byte characters. -/
theorem singleBytes_ofNat (n : Nat) : SingleBytes (Str.ofNat n).m_buffer := by
  rw [Str.buffer_ofNat]
  exact singleBytes_decimal n

/-- A text in front of another. -/
theorem Str.ofLit_plus {s : String} {t : Str} (hs : SingleBytes (lit s)) (ht : SingleBytes t.m_buffer) :
    ((Str.ofLit s).plus t).Counted ∧ ((Str.ofLit s).plus t).m_buffer = lit s ++ t.m_buffer := by
  have hplus := Str.plus_counted (Str.counted_ofLit hs).1 ht
  rwa [Str.buffer_ofLit hs] at hplus

/-- A controller's id, as bytes: the prefix and the device id in decimal. -/
theorem buffer_controllerId (m_PciDeviceId : UInt16) :
    (Controller.getId m_PciDeviceId).m_buffer = lit "co:" ++ decimal m_PciDeviceId.toNat := by
  unfold Controller.getId Controller.getPartId
  rw [(Str.ofLit_plus (by decide) (singleBytes_ofNat _)).2, Str.buffer_ofNat]

/-- A routing device's id, as bytes: the prefix and the component id. -/
theorem buffer_routingDeviceId {m_ComponentId : Str} (h : m_ComponentId.Counted) :
    (RoutingDevice.getId m_ComponentId).m_buffer = lit "ro:" ++ m_ComponentId.m_buffer := by
  unfold RoutingDevice.getId
  rw [(Str.ofLit_plus (by decide) h.1).2]

/-- A phy's id, as bytes: the prefix, the part id of its device and the number of the phy. -/
theorem buffer_phyId {partId : Str} (h : partId.Counted) (m_Number : UInt32) :
    (Phy.getId partId m_Number).m_buffer =
      lit "ph:" ++ (partId.m_buffer ++ 47 :: decimal m_Number.toNat) := by
  have hslash : (Str.ofLit "/").m_buffer = [47] := Str.buffer_ofLit (by decide)
  have hslashSingle := (Str.counted_ofLit (s := "/") (by decide)).1
  obtain ⟨hparent, hparentBuffer⟩ := Str.ofLit_plus (s := "ph:") (by decide) h.1
  obtain ⟨hboth, hbothBuffer⟩ := Str.plus_counted hparent.1 hslashSingle
  unfold Phy.getId
  rw [(Str.plus_counted hboth.1 (singleBytes_ofNat _)).2, hbothBuffer, hparentBuffer, hslash,
    Str.buffer_ofNat]
  simp

/-- A device id has five digits at most. -/
theorem fits_controllerId (m_PciDeviceId : UInt16) : Fits (Controller.getId m_PciDeviceId) := by
  have hlt : m_PciDeviceId.toNat < 10 ^ 5 := m_PciDeviceId.toNat_lt.trans (by decide)
  have hdigits := (Nat.length_toDigits_le_iff (by decide) (by decide)).mpr hlt
  have hthree : (lit "co:").length = 3 := by decide
  unfold Fits SSI_UNIQUE_ID_LENGTH
  rw [buffer_controllerId, List.length_append, decimal, List.length_map, hthree]
  omega

/-- Controllers report the same id only if their device ids are the same; the field has room for all of
it. -/
theorem controllerId_inj {m n : UInt16}
    (h : reported (Controller.getId m) = reported (Controller.getId n)) : m = n := by
  rw [reported_eq (fits_controllerId m), reported_eq (fits_controllerId n), buffer_controllerId,
    buffer_controllerId, List.append_cancel_left_eq] at h
  have hnat : m.toNat = n.toNat := by rw [← Str.digits_decimal m.toNat, h, Str.digits_decimal]
  exact UInt16.toNat_inj.mp hnat

/-- Of a text behind three characters the next 36 are reported. -/
theorem take_prefix {pre : List UInt8} (hpre : pre.length = 3) (t : List UInt8) :
    (pre ++ t).take (SSI_UNIQUE_ID_LENGTH - 1) = pre ++ t.take 36 := by
  have hlength : SSI_UNIQUE_ID_LENGTH - 1 = pre.length + 36 := by
    rw [hpre]
    rfl
  rw [hlength, List.take_length_add_append]

/-- Of a component id the field has room for the first 36 bytes. -/
theorem reported_routingDeviceId {m_ComponentId : Str} (h : m_ComponentId.Counted) :
    reported (RoutingDevice.getId m_ComponentId) = lit "ro:" ++ m_ComponentId.m_buffer.take 36 := by
  have hthree : (lit "ro:").length = 3 := by decide
  rw [reported, buffer_routingDeviceId h, take_prefix hthree]

/-- Of a phy's part id and number the field has room for the first 36 bytes. -/
theorem reported_phyId {key : Str × UInt32} (h : key.1.Counted) :
    reported (Phy.getId key.1 key.2) = lit "ph:" ++ phyText key := by
  have hthree : (lit "ph:").length = 3 := by decide
  rw [reported, buffer_phyId h, take_prefix hthree, phyText]

/-- A text in front of all of them does not tell texts apart. -/
theorem nodup_map_prefix_iff {α : Type} {l : List α} {f g : α → List UInt8} (pre : List UInt8)
    (h : ∀ x ∈ l, f x = pre ++ g x) : (l.map f).Nodup ↔ (l.map g).Nodup := by
  have hmap : l.map f = (l.map g).map (pre ++ ·) := by
    rw [List.map_map]
    exact List.map_congr_left h
  rw [hmap]
  exact List.nodup_map_iff fun u v huv => List.append_cancel_left huv

/-- The last slash tells where the number starts. -/
theorem append_slash_inj {u v d e : List UInt8} (hd : 47 ∉ d) (he : 47 ∉ e)
    (h : u ++ 47 :: d = v ++ 47 :: e) : u = v ∧ d = e := by
  rcases List.append_eq_append_iff.mp h with ⟨between, rfl, hrest⟩ | ⟨between, rfl, hrest⟩
  · rcases between with _ | ⟨b, between⟩
    · simpa using hrest
    · obtain ⟨-, rfl⟩ := List.cons.inj hrest
      exact absurd (by simp) hd
  · rcases between with _ | ⟨b, between⟩
    · simpa [eq_comm] using hrest
    · obtain ⟨-, rfl⟩ := List.cons.inj hrest
      exact absurd (by simp) he

/-- Texts that are not cut tell the part ids and the numbers apart. -/
theorem phyText_inj {key other : Str × UInt32} (hkey : key.1.Counted) (hother : other.1.Counted)
    (hkeyFits : Fits (Phy.getId key.1 key.2)) (hotherFits : Fits (Phy.getId other.1 other.2))
    (h : phyText key = phyText other) : key = other := by
  have hslash : ∀ k : Nat, (47 : UInt8) ∉ decimal k := not_mem_decimal (by decide)
  have hids : reported (Phy.getId key.1 key.2) = reported (Phy.getId other.1 other.2) := by
    rw [reported_phyId hkey, reported_phyId hother, h]
  rw [reported_eq hkeyFits, reported_eq hotherFits, buffer_phyId hkey, buffer_phyId hother,
    List.append_cancel_left_eq] at hids
  obtain ⟨hparts, hnumbers⟩ := append_slash_inj (hslash _) (hslash _) hids
  have hnat : key.2.toNat = other.2.toNat := by
    rw [← Str.digits_decimal key.2.toNat, hnumbers, Str.digits_decimal]
  exact Prod.ext (hkey.ext hother hparts) (UInt32.toNat_inj.mp hnat)

/-! ## Numbers of phys -/

/-- The numbers that are counted up, written out. -/
theorem counted_eq_map (number : UInt32) (count : Nat) :
    counted number count = (List.range count).map fun i => number + UInt32.ofNat i := by
  induction count generalizing number with
  | zero => rfl
  | succ count ih =>
      rw [counted, ih, List.range_succ_eq_map, List.map_cons, List.map_map]
      congr 1
      · simp
      · apply List.map_congr_left
        intro i _
        rw [Function.comp_apply, Nat.succ_eq_add_one, UInt32.ofNat_add, UInt32.add_assoc,
          UInt32.add_comm 1]
        rfl

/-- A counter does not come round. -/
theorem nodup_counted (number : UInt32) {count : Nat} (h : count ≤ 2 ^ 32) :
    (counted number count).Nodup := by
  rw [counted_eq_map]
  apply List.nodup_range.map_on
  intro i hi j hj hij
  rw [List.mem_range] at hi hj
  have hnat := congrArg UInt32.toNat ((UInt32.add_right_inj number).mp hij)
  rwa [UInt32.toNat_ofNat_of_lt' (hi.trans_le h), UInt32.toNat_ofNat_of_lt' (hj.trans_le h)] at hnat

/-- Counting goes on where it has stopped. -/
theorem counted_append (number : UInt32) (m n : Nat) :
    counted number (m + n) = counted number m ++ counted (number + UInt32.ofNat m) n := by
  induction m generalizing number with
  | zero => simp [counted]
  | succ m ih =>
      rw [Nat.succ_add, counted, ih, counted, List.cons_append, UInt32.ofNat_add, UInt32.add_assoc,
        UInt32.add_comm 1]
      rfl

namespace AHCI_Multiplier

/-- The counter has gone over directories of the target, and over one at least for an end device. -/
theorem tryDevices_eq (number : UInt32) (devices : List TargetDevice) :
    ∃ k ≤ devices.length, (tryDevices number devices).1 = number + UInt32.ofNat k ∧
      ((tryDevices number devices).2.isSome → 0 < k) := by
  induction devices generalizing number with
  | nil => exact ⟨0, le_rfl, by simp [tryDevices], by simp [tryDevices]⟩
  | cons device devices ih =>
      rw [tryDevices]
      split
      next => exact ⟨1, by simp, rfl, fun _ => Nat.one_pos⟩
      next =>
        obtain ⟨k, hk, hcount, hsome⟩ := ih (number + 1)
        refine ⟨k + 1, by simpa using hk, ?_, fun h => Nat.succ_pos k⟩
        rw [hcount, UInt32.ofNat_add, UInt32.add_assoc, UInt32.add_comm 1]
        rfl

/-- The directories of the targets. -/
def directories (targets : List (List TargetDevice)) : Nat := (targets.map List.length).sum

/-- The numbers are some of those from the next one on. -/
theorem sublist_counted (number : UInt32) (targets : List (List TargetDevice)) :
    ((discoverFrom number targets).map Prod.snd).Sublist
      (counted (number + 1) (directories targets)) := by
  induction targets generalizing number with
  | nil => exact List.nil_sublist _
  | cons target targets ih =>
      obtain ⟨k, hk, hcount, hsome⟩ := tryDevices_eq number target
      have hlength : directories (target :: targets) = k + (target.length - k + directories targets) := by
        unfold directories
        rw [List.map_cons, List.sum_cons]
        omega
      have hrest : ((discoverFrom (number + UInt32.ofNat k) targets).map Prod.snd).Sublist
          (counted (number + 1 + UInt32.ofNat k) (target.length - k + directories targets)) := by
        have hshift : number + UInt32.ofNat k + 1 = number + 1 + UInt32.ofNat k := by
          rw [UInt32.add_assoc, UInt32.add_assoc, UInt32.add_comm 1]
        have hih := ih (number + UInt32.ofNat k)
        rw [hshift] at hih
        apply hih.trans
        rw [Nat.add_comm, counted_append]
        exact List.sublist_append_left _ _
      rw [discoverFrom, hlength, counted_append]
      rcases htried : tryDevices number target with ⟨tried, _ | m_SerialNum⟩
      · rw [htried] at hcount
        obtain rfl : tried = number + UInt32.ofNat k := hcount
        exact hrest.trans (List.sublist_append_right _ _)
      · rw [htried] at hcount hsome
        obtain rfl : tried = number + UInt32.ofNat k := hcount
        obtain ⟨j, rfl⟩ : ∃ j, k = j + 1 := ⟨k - 1, by have := hsome rfl; omega⟩
        have hlast : counted (number + 1) (j + 1) =
            counted (number + 1) j ++ [number + UInt32.ofNat (j + 1)] := by
          rw [counted_append, UInt32.ofNat_add, UInt32.add_assoc, UInt32.add_comm 1]
          rfl
        rw [hlast, List.append_assoc]
        exact (List.Sublist.cons_cons _ hrest).trans (List.sublist_append_right _ _)

/-- The phys of a port multiplier have different numbers, which are not that of its own phy. -/
theorem nodup_numbers {targets : List (List TargetDevice)} (h : directories targets < 2 ^ 32) :
    (0 :: (discoverFrom 0 targets).map Prod.snd).Nodup := by
  have hsublist : (0 :: (discoverFrom 0 targets).map Prod.snd).Sublist
      (counted 0 (directories targets + 1)) := List.Sublist.cons_cons _ (sublist_counted 0 targets)
  exact hsublist.nodup (nodup_counted 0 h)

end AHCI_Multiplier

/-- The phys of an ISCI controller have different numbers if its hosts have different ids and no more
than the four phys that an id stands for. -/
theorem nodup_isciNumbers {hosts : List (Option UInt32 × Nat)}
    (hids : (hosts.map fun host => host.1.getD 0).Nodup)
    (hhosts : ∀ host ∈ hosts, (host.1.getD 0).toNat < 2 ^ 30 ∧ host.2 ≤ 4) (ports : SasTree) :
    (HostAdapter.isci hosts ports).numbers.Nodup := by
  have hquotient : ∀ host ∈ hosts, ∀ number ∈ counted (host.1.getD 0 * 4) host.2,
      number.toNat / 4 = (host.1.getD 0).toNat := by
    intro host hmem number hnumber
    obtain ⟨hid, hcount⟩ := hhosts host hmem
    rw [counted_eq_map, List.mem_map] at hnumber
    obtain ⟨i, hi, rfl⟩ := hnumber
    rw [List.mem_range] at hi
    have hofNat : (UInt32.ofNat i).toNat = i :=
      UInt32.toNat_ofNat_of_lt' (by unfold UInt32.size; omega)
    have hfour : (4 : UInt32).toNat = 4 := rfl
    rw [UInt32.toNat_add, UInt32.toNat_mul, hofNat, hfour]
    omega
  unfold HostAdapter.numbers
  rw [List.nodup_flatMap]
  constructor
  · intro host hmem
    exact nodup_counted _ ((hhosts host hmem).2.trans (by decide))
  · have hpairwise := List.Pairwise.and_mem.mp (List.pairwise_map.mp hids)
    refine List.Pairwise.imp ?_ hpairwise
    rintro first second ⟨hfirst, hsecond, hne⟩ number hin hin'
    have hfirstId := hquotient first hfirst number hin
    have hsecondId := hquotient second hsecond number hin'
    exact hne (UInt32.toNat_inj.mp (hfirstId.symm.trans hsecondId))

/-! ## Part ids -/

section PartIds

variable {objects others : List ListedObject}

/-- Every phy has the part id of a device, and where these differ so do the phys. -/
def Grouped (objects : List ListedObject) : Prop :=
  (∀ key ∈ phyKeys objects, key.1 ∈ partIds objects) ∧
    ((partIds objects).Nodup → (phyKeys objects).Nodup)

/-- The empty list is grouped. -/
theorem grouped_nil : Grouped [] := ⟨fun _ h => absurd h List.not_mem_nil, fun _ => List.nodup_nil⟩

/-- Groups of objects side by side are grouped. -/
theorem Grouped.append (h : Grouped objects) (h' : Grouped others) : Grouped (objects ++ others) := by
  have hkeys : phyKeys (objects ++ others) = phyKeys objects ++ phyKeys others := List.flatMap_append
  have hparts : partIds (objects ++ others) = partIds objects ++ partIds others :=
    List.filterMap_append
  unfold Grouped
  rw [hkeys, hparts]
  constructor
  · intro key hkey
    rcases List.mem_append.mp hkey with hkey | hkey
    · exact List.mem_append_left _ (h.1 key hkey)
    · exact List.mem_append_right _ (h'.1 key hkey)
  · intro hnodup
    obtain ⟨hleft, hright, hdisjoint⟩ := List.nodup_append'.mp hnodup
    refine (h.2 hleft).append (h'.2 hright) ?_
    intro key hkey hkey'
    exact hdisjoint (h.1 key hkey) (h'.1 key hkey')

/-- A list of groups is grouped. -/
theorem Grouped.flatMap {α : Type} {list : List α} {f : α → List ListedObject}
    (h : ∀ x ∈ list, Grouped (f x)) : Grouped (list.flatMap f) := by
  induction list with
  | nil => exact grouped_nil
  | cons x list ih =>
      obtain ⟨hx, hlist⟩ := List.forall_mem_cons.mp h
      exact hx.append (ih hlist)

/-- Grouping does not depend on the order. -/
theorem Grouped.perm (h : Grouped objects) (hperm : objects.Perm others) : Grouped others := by
  have hkeys : (phyKeys objects).Perm (phyKeys others) := hperm.flatMap_right _
  have hparts : (partIds objects).Perm (partIds others) := hperm.filterMap _
  refine ⟨fun key hkey => ?_, fun hnodup => ?_⟩
  · exact hparts.mem_iff.mp (h.1 key (hkeys.mem_iff.mpr hkey))
  · exact hkeys.nodup_iff.mp (h.2 (hparts.nodup_iff.mpr hnodup))

/-- A device with its phys. -/
theorem grouped_device {device : ListedObject} {partId : Str} (hdevice : device.partId? = some partId)
    {groups : List (List UInt32)} (hgroups : groups.flatten.Nodup) :
    Grouped (device :: groups.map (.phys partId)) := by
  have hnone : device.phyKeys = [] := by
    rcases device with _ | _ | _ | _
    · rfl
    · rfl
    · rfl
    · exact absurd hdevice (by simp [ListedObject.partId?])
  have hkeys : phyKeys (device :: groups.map (.phys partId)) = groups.flatten.map (partId, ·) := by
    unfold phyKeys
    rw [List.flatMap_cons, hnone, List.nil_append, List.flatMap_map, List.map_flatten]
    rfl
  have hparts : partIds (device :: groups.map (.phys partId)) = [partId] := by
    unfold partIds
    rw [List.filterMap_cons_some hdevice, List.filterMap_map]
    simp [Function.comp_def, ListedObject.partId?]
  unfold Grouped
  rw [hkeys, hparts]
  constructor
  · intro key hkey
    obtain ⟨number, -, rfl⟩ := List.mem_map.mp hkey
    exact List.mem_singleton_self _
  · intro _
    exact hgroups.map (Prod.mk_right_injective _)

/-- An end device's phys have the numbers 0 to their count, so that none is there twice. -/
theorem grouped_endDevice (m_SerialNum : Str) : Grouped (EndDevice.addToSession m_SerialNum) := by
  have hgroups : [[(0 : UInt32)]].flatten.Nodup := List.nodup_singleton _
  have hdevice : (ListedObject.endDevice m_SerialNum).partId? = some m_SerialNum := rfl
  exact grouped_device hdevice hgroups

/-- End devices one after the other are grouped, device by device. -/
theorem grouped_endDevices (serialNums : List Str) :
    Grouped (serialNums.flatMap EndDevice.addToSession) :=
  Grouped.flatMap fun m_SerialNum _ => grouped_endDevice m_SerialNum

/-- A multiplier numbers its phys by the directories; no number comes twice as long as there are fewer
than 2^32. -/
theorem grouped_multiplier {targets : List (List TargetDevice)}
    (h : AHCI_Multiplier.directories targets < 2 ^ 32) :
    Grouped (AHCI_Multiplier.addToSession targets) := by
  have hgroups : [[0], (AHCI_Multiplier.discoverFrom 0 targets).map Prod.snd].flatten.Nodup := by
    simpa using AHCI_Multiplier.nodup_numbers h
  have hdevice : (ListedObject.routingDevice .empty).partId? = some .empty := rfl
  have hmultiplier := grouped_device hdevice hgroups
  have hdevices := grouped_endDevices ((AHCI_Multiplier.discoverFrom 0 targets).map Prod.fst)
  rw [List.flatMap_map] at hdevices
  refine (hmultiplier.append hdevices).perm ?_
  refine (List.Perm.swap _ _ _).trans (List.Perm.cons _ (List.Perm.cons _ ?_))
  exact List.perm_append_comm

/-- The phys of the expanders are counted. -/
def SasTree.Numbered : SasTree → Prop
  | .nil => True
  | .endDevice _ rest => rest.Numbered
  | .expander _ phys inner rest => phys ≤ 2 ^ 32 ∧ inner.Numbered ∧ rest.Numbered

/-- In a SAS tree each expander's phys have numbers of their own, read from sysfs. -/
theorem grouped_sasTree {ports : SasTree} (h : ports.Numbered) : Grouped ports.routingDevices := by
  induction ports with
  | nil => exact grouped_nil
  | endDevice devices rest ih => exact ih h
  | expander m_ComponentId phys inner rest ihInner ihRest =>
      obtain ⟨hphys, hinner, hrest⟩ := h
      have hgroups : [counted 0 phys].flatten.Nodup := by
        simpa using nodup_counted 0 hphys
      have hdevice : (ListedObject.routingDevice m_ComponentId).partId? = some m_ComponentId := rfl
      have hexpander := grouped_device hdevice hgroups
      have hdevices := grouped_endDevices inner.endDevices
      refine Grouped.append (Grouped.append ?_ (ihInner hinner)) (ihRest hrest)
      refine (hexpander.append hdevices).perm ?_
      exact List.Perm.cons _ List.perm_append_comm

/-- The numbers of an adapter's phys do not come round, and an ISCI adapter's hosts have different ids
and four phys at most. -/
def HostAdapter.Numbered : HostAdapter → Prop
  | .ahci phys =>
      phys.length ≤ 2 ^ 32 ∧ ∀ targets ∈ phys, AHCI_Multiplier.directories targets < 2 ^ 32
  | .isci hosts ports =>
      (hosts.map fun host => host.1.getD 0).Nodup ∧
        (∀ host ∈ hosts, (host.1.getD 0).toNat < 2 ^ 30 ∧ host.2 ≤ 4) ∧ ports.Numbered
  | .vmd phys => phys.length ≤ 2 ^ 32

/-- The phys of an adapter have different numbers. -/
theorem nodup_adapterNumbers {adapter : HostAdapter} (h : adapter.Numbered) :
    adapter.numbers.Nodup := by
  cases adapter with
  | ahci phys => exact nodup_counted 0 h.1
  | isci hosts ports => exact nodup_isciNumbers h.1 h.2.1 ports
  | vmd phys => exact nodup_counted 0 h

/-- What an adapter lists behind itself is grouped. -/
theorem grouped_adapter {adapter : HostAdapter} (h : adapter.Numbered) :
    Grouped adapter.routingDevices := by
  cases adapter with
  | ahci phys =>
      apply Grouped.flatMap
      intro targets htargets
      exact grouped_multiplier (h.2 targets (List.mem_of_mem_filter htargets))
  | isci hosts ports => exact grouped_sasTree h.2.2
  | vmd phys => exact grouped_nil

/-- What a host adds to the session is grouped. -/
theorem grouped_host {host : PciHost} (h : host.adapter.Numbered) : Grouped host.addToSession := by
  have hgroups : [host.adapter.numbers].flatten.Nodup := by
    simpa using nodup_adapterNumbers h
  have hdevice : (ListedObject.controller host.m_PciDeviceId).partId? =
      some (Controller.getPartId host.m_PciDeviceId) := rfl
  have hcontroller := grouped_device hdevice hgroups
  have hdevices := grouped_endDevices host.adapter.endDevices
  refine (hcontroller.append (hdevices.append (grouped_adapter h))).perm ?_
  exact List.Perm.cons _ List.perm_append_comm

/-- What all hosts add is grouped: on each device numbers do not repeat. -/
theorem grouped_listedObjects {hosts : List PciHost} (h : ∀ host ∈ hosts, host.adapter.Numbered) :
    Grouped (listedObjects hosts) :=
  Grouped.flatMap fun host hmem => grouped_host (h host hmem)

end PartIds

/-! ## The ids of a session -/

/-- Where no two devices have one part id and the ids are not cut, the numbers tell the phys of a
device apart. -/
theorem nodup_phyTexts {hosts : List PciHost} (hnumbered : ∀ host ∈ hosts, host.adapter.Numbered)
    (hparts : (partIds (listedObjects hosts)).Nodup) (hplain : PlainIds (listedObjects hosts))
    (hfits : ∀ key ∈ phyKeys (listedObjects hosts), Fits (Phy.getId key.1 key.2)) :
    ((phyKeys (listedObjects hosts)).map phyText).Nodup := by
  have hkeys := (grouped_listedObjects hnumbered).2 hparts
  apply hkeys.map_on
  intro key hkey other hother hsame
  exact phyText_inj (hplain.phys key hkey) (hplain.phys other hother) (hfits key hkey)
    (hfits other hother) hsame

/-- Two controllers, the first with a disk and the second with a port multiplier and two disks. -/
def sampleHosts : List PciHost :=
  [⟨.ofLit "/sys/devices/pci0000:00/0000:00:11.5", 0xa1d2, .ahci [[[⟨.sd, .ofLit "S1"⟩]]]⟩,
    ⟨.ofLit "/sys/devices/pci0000:00/0000:00:17.0", 0xa182,
      .ahci [[[⟨.sd, .ofLit "S2"⟩], [⟨.sd, .ofLit "S3"⟩]]]⟩]

/-- A controller with one disk, whose serial number is the numeral of the device id. -/
def numeralHosts : List PciHost :=
  [⟨.ofLit "/sys/devices/pci0000:00/0000:00:17.0", 0xa1d2, .ahci [[[⟨.sd, .ofLit "41426"⟩]]]⟩]

end Irstessi
