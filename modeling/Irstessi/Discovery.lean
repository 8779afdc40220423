import Irstessi.Topology

/-!
# Discovery of AHCI and ISCI controllers

A controller's ports find what is behind them, give it their own parent and attach it to that parent.
A port multiplier finds the devices behind it by itself.

* `DeviceHeap`: the objects, with their parents and lists; `getController`: the walk up from one.
* `AHCI_Phy.discover`, `AHCI_Multiplier.discover`, `SasPorts.discover`, `discoverControllers`: the
  functions, over what the directories of sysfs show.
* `Leads`: the controller that an object's parents lead to; `Good`: the end devices of a list lead
  where the owner of the list does.
* **`endDevicesKnow_iff`**: every end device knows its controller iff none is behind a port
  multiplier.

Objects are numbers in the order of their creation, and a heap has the parent, the class and the lists
of each. The invariant `Ordered` says that parents are older, which makes the walk up finite:
`getController` is a recursion with the number of the object as its bound, and never runs out. Every
function of the discovery extends the heap (`Extends`: nothing old is changed but lists) and keeps it
ordered. By induction over the directories, every end device that is attached to a port has a parent and
is led to the controller; a port multiplier attaches its devices without one, which makes them orphans
for good, as nothing sets a parent later on.
-/

namespace Irstessi

/-! ## Objects -/

/-- Controllers, routing devices and end devices, numbered as they are created.
Source: `storage_object.h` `StorageObject` -/
structure DeviceHeap where
  next : Nat
  isController : Nat → Bool
  m_pParent : Nat → Option Nat
  lists : DeviceGraph

namespace DeviceHeap

def start : DeviceHeap := ⟨0, fun _ => false, fun _ => none, fun _ => .empty⟩

variable (h : DeviceHeap)

/-- A new object, which is number `h.next`. -/
def new (isController : Bool) : DeviceHeap :=
  { h with next := h.next + 1, isController := Function.update h.isController h.next isController }

/-- Source: `storage_object.h` `StorageObject::setParent` -/
def setParent (x p : Nat) : DeviceHeap :=
  if p = x then h else { h with m_pParent := Function.update h.m_pParent x (some p) }

/-- `steps` bounds the walk, which ends in the source since parents are older than their children.
Source: `controller.h` `Controller::getController`, `routing_device.h`
`RoutingDevice::getController`, `end_device.h` `EndDevice::getController` -/
def getControllerFrom : Nat → Nat → Option Nat
  | 0, _ => none
  | steps + 1, x =>
      if h.isController x then some x
      else match h.m_pParent x with
        | some p => getControllerFrom steps p
        | none => none

/-- No walk has more steps than there are objects. -/
def getController (x : Nat) : Option Nat := h.getControllerFrom h.next x

end DeviceHeap

/-- A port by the object that is its parent.
Source: `port.h` `Port` -/
structure DevicePort where
  m_pParent : Nat

/-- The port of an end device, or the subtractive port of a routing device, which is its parent.
Source: `remote_port.h` `RemotePort` -/
inductive DeviceRemotePort
  | endDevice (e : Nat)
  | routingDevice (r : Nat)

/-- The remote port attaches its parent to the port, and the port to its own parent.
Source: `port.cpp` `Port::attachPort`, `attachEndDevice`, `attachRoutingDevice`; `remote_port.cpp`
`RemotePort::attachPort` -/
def DevicePort.attachPort (port : DevicePort) (h : DeviceHeap) : DeviceRemotePort → DeviceHeap
  | .endDevice e => { h with lists := h.lists.attachEndDevice port.m_pParent e }
  | .routingDevice r => { h with lists := h.lists.attachRoutingDevice port.m_pParent r }

/-! ## AHCI -/

/-- The driver that a device's directory links to. -/
inductive ScsiDriver
  | sd
  | sr
  | st
  | ses
  | other
  deriving DecidableEq, Repr

/-- A driver of end devices. -/
def ScsiDriver.isEndDevice : ScsiDriver → Bool
  | sd | sr | st => true
  | ses | other => false

/-- Source: `ahci_multiplier.cpp` `AHCI_Multiplier::__internal_attach_end_device` -/
def AHCI_Multiplier.attachEndDevice (m : Nat) (h : DeviceHeap) (target : List ScsiDriver) :
    DeviceHeap :=
  if target.any ScsiDriver.isEndDevice then
    DevicePort.attachPort ⟨m⟩ (h.new false) (.endDevice h.next)
  else h

/-- Source: `ahci_multiplier.cpp` `AHCI_Multiplier::discover` -/
def AHCI_Multiplier.discover (m : Nat) (targets : List (List ScsiDriver)) (h : DeviceHeap) :
    DeviceHeap :=
  targets.foldl (AHCI_Multiplier.attachEndDevice m) h

/-- The directories of the phy's targets, each with those of its devices. Two or more are taken for a
port multiplier.
Source: `ahci_phy.cpp` `AHCI_Phy::discover`, `__internal_attach_end_device` -/
def AHCI_Phy.discover (c : Nat) (h : DeviceHeap) : List (List ScsiDriver) → DeviceHeap
  | [] => h
  | [target] =>
      if target.any ScsiDriver.isEndDevice then
        DevicePort.attachPort ⟨c⟩ ((h.new false).setParent h.next c) (.endDevice h.next)
      else h
  | targets =>
      let discovered := AHCI_Multiplier.discover h.next targets (h.new false)
      DevicePort.attachPort ⟨c⟩ (discovered.setParent h.next c) (.routingDevice h.next)

/-! ## ISCI -/

/-- The ports of a controller or an expander, in the order in which its phys come by them, with what
their directories show. -/
inductive SasPorts
  | nil
  /-- The port of an expander that leads to the host. -/
  | subtractive (rest : SasPorts)
  /-- An expander with its own ports. -/
  | expander (inner rest : SasPorts)
  /-- An end device with the drivers of its targets. -/
  | endDevice (drivers : List ScsiDriver) (rest : SasPorts)
  | host (rest : SasPorts)
  | nothing (rest : SasPorts)
  deriving DecidableEq, Repr

namespace SasPorts

/-- Source: `isci_expander_phy.cpp` `ISCI_Expander_Phy::__internal_create_port` -/
def hasSubtractive : SasPorts → Bool
  | nil => false
  | subtractive _ => true
  | expander _ rest => rest.hasSubtractive
  | endDevice _ rest => rest.hasSubtractive
  | host rest => rest.hasSubtractive
  | nothing rest => rest.hasSubtractive

/-- The first driver that there is a class for decides about the object. An expander without a
subtractive port has none to attach.
Source: `isci_port.cpp` `ISCI_Port::discover`, `__internal_create_storage_object`;
`isci_expander.cpp` `ISCI_Expander::discover` -/
def discover (p : Nat) : SasPorts → DeviceHeap → Except Fault DeviceHeap
  | nil, h => .ok h
  | subtractive rest, h => rest.discover p h
  | expander inner rest, h => do
      let discovered ← inner.discover h.next ((h.new false).setParent h.next p)
      if inner.hasSubtractive then
        rest.discover p (DevicePort.attachPort ⟨p⟩ discovered (.routingDevice h.next))
      else .error .nullDereference
  | endDevice drivers rest, h =>
      match drivers.find? (· ≠ .other) with
      | some driver =>
          if driver.isEndDevice then
            rest.discover p
              (DevicePort.attachPort ⟨p⟩ ((h.new false).setParent h.next p) (.endDevice h.next))
          else rest.discover p h
      | none => rest.discover p h
  | host rest, h => rest.discover p h
  | nothing _, _ => .error (.exception .invalidObject)

end SasPorts

/-! ## Controllers -/

/-- What sysfs shows of a controller: the targets of each phy, or the ports. -/
inductive ControllerDir
  | ahci (phys : List (List (List ScsiDriver)))
  | isci (ports : SasPorts)
  deriving DecidableEq, Repr

/-- The controller is number `h.next`.
Source: `ahci.cpp` `AHCI::discover`, `isci.cpp` `ISCI::discover` -/
def ControllerDir.discover (h : DeviceHeap) : ControllerDir → Except Fault DeviceHeap
  | ahci phys => .ok (phys.foldl (AHCI_Phy.discover h.next) (h.new true))
  | isci ports => ports.discover h.next (h.new true)

/-- The objects that are there in the end, and the controllers.
Source: `session.cpp` `Session::initialize` -/
def discoverControllers : List ControllerDir → DeviceHeap → Except Fault (DeviceHeap × List Nat)
  | [], h => .ok (h, [])
  | dir :: dirs, h => do
      let discovered ← dir.discover h
      let (final, controllers) ← discoverControllers dirs discovered
      .ok (final, h.next :: controllers)

/-- Every end device that a controller lists knows the controller. -/
def EndDevicesKnow (h : DeviceHeap) (controllers : List Nat) : Prop :=
  ∀ c ∈ controllers, ∀ e ∈ (h.lists c).getEndDevices true, h.getController e = some c

/-- The targets of the phy are taken for a port multiplier, and one of them has an end device. -/
def IsMultiplierWithDevice (targets : List (List ScsiDriver)) : Prop :=
  2 ≤ targets.length ∧ ∃ target ∈ targets, target.any ScsiDriver.isEndDevice = true

/-- An end device is behind a port multiplier. -/
def ControllerDir.HasMultiplierDevice : ControllerDir → Prop
  | ahci phys => ∃ targets ∈ phys, IsMultiplierWithDevice targets
  | isci _ => False

/-! ## The walk up -/

/-- The parents of the object lead to the controller. -/
inductive Leads (h : DeviceHeap) : Nat → Nat → Prop
  | controller {c : Nat} (hc : h.isController c = true) : Leads h c c
  | parent {x p c : Nat} (hx : h.isController x = false) (hp : h.m_pParent x = some p)
      (hup : Leads h p c) : Leads h x c

/-- The end device has no parent. -/
structure Orphan (h : DeviceHeap) (e : Nat) : Prop where
  exists_ : e < h.next
  endDevice : h.isController e = false
  parentless : h.m_pParent e = none

/-- Parents are older than their children, and objects to come have nothing yet. -/
structure DeviceHeap.Ordered (h : DeviceHeap) : Prop where
  older : ∀ x p, h.m_pParent x = some p → p < x ∧ x < h.next
  lists : ∀ x, h.next ≤ x → h.lists x = .empty ∧ h.isController x = false
  listed : ∀ x, ∀ e ∈ (h.lists x).getEndDevices true, e < h.next

/-- The objects of `h` are left as they are, but for the lists, which may grow. -/
structure Extends (h h' : DeviceHeap) : Prop where
  next : h.next ≤ h'.next
  isController : ∀ x < h.next, h'.isController x = h.isController x
  parent : ∀ x < h.next, h'.m_pParent x = h.m_pParent x
  endDevices : ∀ x, (h.lists x).getEndDevices true ⊆ (h'.lists x).getEndDevices true

/-- The end devices of every list lead where its owner does. -/
def Good (h : DeviceHeap) : Prop :=
  ∀ x, ∀ e ∈ (h.lists x).getEndDevices true, ∀ c, Leads h x c → Leads h e c

section walk

variable {h h' h'' : DeviceHeap} {x p c e : Nat}

/-- Where the parents lead to a controller the recursion finds it, as they have smaller and smaller
numbers. -/
theorem getControllerFrom_of_leads (hordered : h.Ordered) (hleads : Leads h x c) :
    ∀ steps, x < steps → h.getControllerFrom steps x = some c := by
  induction hleads with
  | controller hc =>
      intro steps hsteps
      obtain ⟨steps, rfl⟩ := Nat.exists_eq_succ_of_ne_zero (Nat.ne_zero_of_lt hsteps)
      rw [DeviceHeap.getControllerFrom, if_pos hc]
  | parent hx hp _ ih =>
      intro steps hsteps
      obtain ⟨steps, rfl⟩ := Nat.exists_eq_succ_of_ne_zero (Nat.ne_zero_of_lt hsteps)
      have holder := (hordered.older _ _ hp).1
      rw [DeviceHeap.getControllerFrom, if_neg (by simp [hx]), hp]
      exact ih steps (by omega)

/-- Where the parents lead to a controller the device knows it. -/
theorem getController_of_leads (hordered : h.Ordered) (hx : x < h.next) (hleads : Leads h x c) :
    h.getController x = some c :=
  getControllerFrom_of_leads hordered hleads _ hx

/-- An orphan, which has no parent and is no controller, knows none. -/
theorem Orphan.getController (he : Orphan h e) : h.getController e = none := by
  obtain ⟨steps, hsteps⟩ := Nat.exists_eq_succ_of_ne_zero (Nat.ne_zero_of_lt he.exists_)
  rw [DeviceHeap.getController, hsteps, DeviceHeap.getControllerFrom, if_neg (by simp [he.endDevice]),
    he.parentless]

end walk

/-! ## What the calls do to the objects -/

section objects

variable {h h' h'' : DeviceHeap} {x p c e : Nat}

/-- Every heap extends itself. -/
theorem Extends.rfl : Extends h h :=
  ⟨le_refl _, fun _ _ => Eq.refl _, fun _ _ => Eq.refl _, fun _ => List.Subset.refl _⟩

/-- Extensions are put one behind the other. -/
theorem Extends.trans (hh' : Extends h h') (hh'' : Extends h' h'') : Extends h h'' := by
  refine ⟨hh'.next.trans hh''.next, fun x hx => ?_, fun x hx => ?_, fun x => ?_⟩
  · exact (hh''.isController x (hx.trans_le hh'.next)).trans (hh'.isController x hx)
  · exact (hh''.parent x (hx.trans_le hh'.next)).trans (hh'.parent x hx)
  · exact List.Subset.trans (hh'.endDevices x) (hh''.endDevices x)

/-- An orphan stays one in every extension: nothing sets the parent of a device that is there
already. -/
theorem Extends.orphan (hextends : Extends h h') (he : Orphan h e) : Orphan h' e where
  exists_ := he.exists_.trans_le hextends.next
  endDevice := (hextends.isController e he.exists_).trans he.endDevice
  parentless := (hextends.parent e he.exists_).trans he.parentless

/-- The walks from older objects stay among them. -/
theorem Extends.leads_iff (hextends : Extends h h') (hordered : h.Ordered) (hx : x < h.next) :
    Leads h' x c ↔ Leads h x c := by
  constructor
  · intro hleads
    induction hleads with
    | controller hc => exact .controller ((hextends.isController _ hx).symm.trans hc)
    | parent hx' hp _ ih =>
        rw [hextends.parent _ hx] at hp
        have holder := (hordered.older _ _ hp).1
        exact .parent ((hextends.isController _ hx).symm.trans hx') hp (ih (holder.trans hx))
  · intro hleads
    induction hleads with
    | controller hc => exact .controller ((hextends.isController _ hx).trans hc)
    | parent hx' hp _ ih =>
        have holder := (hordered.older _ _ hp).1
        exact .parent ((hextends.isController _ hx).trans hx') ((hextends.parent _ hx).trans hp)
          (ih (holder.trans hx))

/-- New objects have no lists, so that nothing is said about them. -/
theorem Good.of_lists (hgood : Good h) (hordered : h.Ordered) (hextends : Extends h h')
    (hlists : h'.lists = h.lists) : Good h' := by
  intro x e he c hleads
  rw [hlists] at he
  have hlt : e < h.next := hordered.listed x e he
  by_cases hx : x < h.next
  · rw [hextends.leads_iff hordered hx] at hleads
    exact (hextends.leads_iff hordered hlt).mpr (hgood x e he c hleads)
  · rw [(hordered.lists x (Nat.le_of_not_lt hx)).1] at he
    cases he

/-- A new device extends the heap. -/
theorem extends_new (isController : Bool) : Extends h (h.new isController) := by
  refine ⟨Nat.le_succ _, fun x hx => ?_, fun x hx => rfl, fun x => List.Subset.refl _⟩
  exact Function.update_of_ne (Nat.ne_of_lt hx) _ _

/-- A new device has a greater number than all others and no parent yet. -/
theorem ordered_new (hordered : h.Ordered) (isController : Bool) : (h.new isController).Ordered := by
  refine ⟨fun x p hp => ?_, fun x hx => ?_, fun x e he => ?_⟩
  · obtain ⟨hlt, hx⟩ := hordered.older x p hp
    exact ⟨hlt, hx.trans (Nat.lt_succ_self _)⟩
  · have hne : x ≠ h.next := fun heq => by
      have hle : h.next + 1 ≤ x := hx
      omega
    obtain ⟨hlists, hcontroller⟩ := hordered.lists x (Nat.le_of_succ_le hx)
    exact ⟨hlists, (Function.update_of_ne hne _ _).trans hcontroller⟩
  · exact (hordered.listed x e he).trans (Nat.lt_succ_self _)

/-- Setting the parent of a device that is new extends what was there before it. -/
theorem extends_setParent (hextends : Extends h h') (hx : h.next ≤ x) : Extends h (h'.setParent x p) := by
  unfold DeviceHeap.setParent
  split
  next => exact hextends
  next =>
    refine ⟨hextends.next, hextends.isController, fun y hy => ?_, hextends.endDevices⟩
    have hne : y ≠ x := fun heq => by omega
    exact (Function.update_of_ne hne _ _).trans (hextends.parent y hy)

/-- A parent that is older keeps the order. -/
theorem ordered_setParent (hordered : h.Ordered) (hp : p < x) (hx : x < h.next) :
    (h.setParent x p).Ordered := by
  unfold DeviceHeap.setParent
  rw [if_neg (Nat.ne_of_lt hp)]
  refine ⟨fun y q hq => ?_, hordered.lists, hordered.listed⟩
  by_cases heq : y = x
  · subst heq
    have hupdate : Function.update h.m_pParent y (some p) y = some q := hq
    rw [Function.update_self] at hupdate
    obtain rfl := Option.some.inj hupdate
    exact ⟨hp, hx⟩
  · have hupdate : Function.update h.m_pParent x (some p) y = some q := hq
    rw [Function.update_of_ne heq] at hupdate
    exact hordered.older y q hupdate

/-- A device has the parent that is set, if it is an older one. -/
theorem setParent_parent (hp : p < x) : (h.setParent x p).m_pParent x = some p := by
  unfold DeviceHeap.setParent
  rw [if_neg (Nat.ne_of_lt hp)]
  exact Function.update_self _ _ _

/-- To set a parent makes no controllers. -/
@[simp] theorem setParent_isController : (h.setParent x p).isController = h.isController := by
  unfold DeviceHeap.setParent
  split <;> rfl

/-- Nor does it change the lists. -/
@[simp] theorem setParent_lists : (h.setParent x p).lists = h.lists := by
  unfold DeviceHeap.setParent
  split <;> rfl

/-- Nor does it make an object. -/
@[simp] theorem setParent_next : (h.setParent x p).next = h.next := by
  unfold DeviceHeap.setParent
  split <;> rfl

/-- The end devices that an attachment brings to a port's parent. -/
def DeviceRemotePort.endDevices (h : DeviceHeap) : DeviceRemotePort → List Nat
  | .endDevice e => [e]
  | .routingDevice r => (h.lists r).getEndDevices true

/-- The object attached. -/
def DeviceRemotePort.object : DeviceRemotePort → Nat
  | .endDevice e => e
  | .routingDevice r => r

/-- The parent's list gets them in addition; the other lists are as before. -/
theorem mem_attachPort {remote : DeviceRemotePort} :
    e ∈ ((DevicePort.attachPort ⟨p⟩ h remote).lists x).getEndDevices true ↔
      e ∈ (h.lists x).getEndDevices true ∨ (x = p ∧ e ∈ remote.endDevices h) := by
  by_cases hx : x = p
  · subst hx
    cases remote with
    | endDevice e' =>
        simp only [DevicePort.attachPort, attachEndDevice_self, DeviceLists.getEndDevices,
          DeviceLists.append, DeviceRemotePort.endDevices, if_true, List.mem_append, List.append_nil,
          true_and]
        tauto
    | routingDevice r =>
        simp only [DevicePort.attachPort, attachRoutingDevice_self, DeviceLists.getEndDevices,
          DeviceLists.append, DeviceRemotePort.endDevices, if_true, List.mem_append, List.append_nil,
          true_and]
        tauto
  · have hlists : (DevicePort.attachPort ⟨p⟩ h remote).lists x = h.lists x := by
      cases remote with
      | endDevice e' => exact Function.update_of_ne hx _ _
      | routingDevice r => exact Function.update_of_ne hx _ _
    rw [hlists, or_iff_left fun hp => hx hp.1]

/-- Connecting a port makes no object. -/
@[simp] theorem attachPort_next {port : DevicePort} {remote : DeviceRemotePort} :
    (port.attachPort h remote).next = h.next := by
  cases remote <;> rfl

/-- Connecting a port makes no controllers. -/
@[simp] theorem attachPort_isController {port : DevicePort} {remote : DeviceRemotePort} :
    (port.attachPort h remote).isController = h.isController := by
  cases remote <;> rfl

/-- Connecting a port sets no parent. -/
@[simp] theorem attachPort_parent {port : DevicePort} {remote : DeviceRemotePort} :
    (port.attachPort h remote).m_pParent = h.m_pParent := by
  cases remote <;> rfl

/-- Connecting ports changes the lists of the device and no parent, no kind and no number. -/
theorem extends_attachPort {port : DevicePort} {remote : DeviceRemotePort} :
    Extends h (port.attachPort h remote) := by
  refine ⟨by simp, fun x _ => by simp, fun x _ => by simp, fun x e he => ?_⟩
  exact mem_attachPort.mpr (.inl he)

end objects

/-! ## Discovery -/

/-- A discovery keeps what is there, the order of the objects, and, under the condition, that end
devices lead where their lists are. -/
structure Discovers (h h' : DeviceHeap) (condition : Prop) : Prop where
  extends_ : Extends h h'
  ordered : h'.Ordered
  good : condition → Good h → Good h'

section discovery

variable {h h' h'' : DeviceHeap} {x p c e : Nat}

/-- Connecting devices that are there keeps the order. -/
theorem ordered_attachPort {remote : DeviceRemotePort} (hordered : h.Ordered) (hp : p < h.next)
    (hremote : ∀ e ∈ remote.endDevices h, e < h.next) :
    (DevicePort.attachPort ⟨p⟩ h remote).Ordered := by
  refine ⟨fun x q hq => ?_, fun x hx => ?_, fun x e he => ?_⟩
  · rw [attachPort_parent] at hq
    rw [attachPort_next]
    exact hordered.older x q hq
  · rw [attachPort_next] at hx
    have hne : x ≠ p := fun heq => by omega
    have hlists : (DevicePort.attachPort ⟨p⟩ h remote).lists x = h.lists x := by
      cases remote with
      | endDevice e' => exact Function.update_of_ne hne _ _
      | routingDevice r => exact Function.update_of_ne hne _ _
    rw [hlists, attachPort_isController]
    exact hordered.lists x hx
  · rw [attachPort_next]
    rcases mem_attachPort.mp he with he | ⟨-, he⟩
    · exact hordered.listed x e he
    · exact hremote e he

/-- What is attached to its own parent leads where the parent does. -/
theorem good_attachPort {remote : DeviceRemotePort} (hgood : Good h)
    (hobject : h.isController remote.object = false) (hparent : h.m_pParent remote.object = some p) :
    Good (DevicePort.attachPort ⟨p⟩ h remote) := by
  have hleads : ∀ {x c}, Leads (DevicePort.attachPort ⟨p⟩ h remote) x c ↔ Leads h x c := by
    intro x c
    constructor
    · intro hleads
      induction hleads with
      | controller hc => exact .controller (by simpa using hc)
      | parent hx hp _ ih => exact .parent (by simpa using hx) (by simpa using hp) ih
    · intro hleads
      induction hleads with
      | controller hc => exact .controller (by simpa using hc)
      | parent hx hp _ ih => exact .parent (by simpa using hx) (by simpa using hp) ih
  intro x e he c hc
  rw [hleads] at hc ⊢
  rcases mem_attachPort.mp he with hold | ⟨rfl, hnew⟩
  · exact hgood x e hold c hc
  · have hup : Leads h remote.object c := .parent hobject hparent hc
    cases remote with
    | endDevice e' =>
        obtain rfl := List.mem_singleton.mp hnew
        exact hup
    | routingDevice r => exact hgood r e hnew c hup

/-- A new object under `p`. -/
theorem newChild (hordered : h.Ordered) (hp : p < h.next) :
    Extends h ((h.new false).setParent h.next p) ∧ ((h.new false).setParent h.next p).Ordered ∧
      ((h.new false).setParent h.next p).isController h.next = false ∧
      ((h.new false).setParent h.next p).m_pParent h.next = some p := by
  refine ⟨extends_setParent (extends_new false) (le_refl _), ?_, ?_, setParent_parent hp⟩
  · exact ordered_setParent (ordered_new hordered false) hp (Nat.lt_succ_self _)
  · rw [setParent_isController]
    exact Function.update_self _ _ _

/-- A new object under `p` is attached to it. -/
theorem discovers_attachPort (remote : DeviceRemotePort) (hordered : h.Ordered) (hp : p < h.next)
    (hdiscovered : Discovers ((h.new false).setParent h.next p) h' True)
    (hobject : remote.object = h.next) (hremote : ∀ e ∈ remote.endDevices h', e < h'.next) :
    Discovers h (DevicePort.attachPort ⟨p⟩ h' remote) True := by
  obtain ⟨hnew, hnewordered, hclass, hparent⟩ := newChild hordered hp
  have hlt : h.next < ((h.new false).setParent h.next p).next := by
    rw [setParent_next]
    exact Nat.lt_succ_self _
  have hextends := hnew.trans hdiscovered.extends_
  refine ⟨hextends.trans extends_attachPort,
    ordered_attachPort hdiscovered.ordered (hp.trans_le hextends.next) hremote, fun _ hgood => ?_⟩
  refine good_attachPort (hdiscovered.good trivial (hgood.of_lists hordered hnew setParent_lists)) ?_ ?_
  · rw [hobject]
    exact (hdiscovered.extends_.isController _ hlt).trans hclass
  · rw [hobject]
    exact (hdiscovered.extends_.parent _ hlt).trans hparent

/-- Nothing discovered is a discovery under any condition. -/
theorem Discovers.rfl {condition : Prop} (hordered : h.Ordered) : Discovers h h condition :=
  ⟨.rfl, hordered, fun _ hgood => hgood⟩

/-- Discoveries under the same condition are put one behind the other. -/
theorem Discovers.trans {condition : Prop} (hh' : Discovers h h' condition)
    (hh'' : Discovers h' h'' condition) : Discovers h h'' condition :=
  ⟨hh'.extends_.trans hh''.extends_, hh''.ordered,
    fun hcondition hgood => hh''.good hcondition (hh'.good hcondition hgood)⟩

/-- An end device gets its parent before it is attached, and so knows its controller. -/
theorem discovers_endDevice (hordered : h.Ordered) (hp : p < h.next) :
    Discovers h (DevicePort.attachPort ⟨p⟩ ((h.new false).setParent h.next p) (.endDevice h.next))
      True := by
  obtain ⟨-, hnewordered, -, -⟩ := newChild hordered hp
  apply discovers_attachPort _ hordered hp (.rfl hnewordered) (Eq.refl _)
  intro e he
  obtain rfl := List.mem_singleton.mp he
  rw [setParent_next]
  exact Nat.lt_succ_self _

/-- Expanders and the devices behind them get their parents before they are attached. -/
theorem SasPorts.discovers (ports : SasPorts) (hordered : h.Ordered) (hp : p < h.next)
    (hfound : ports.discover p h = .ok h') : Discovers h h' True := by
  induction ports generalizing p h h' with
  | nil =>
      obtain rfl := Except.ok.inj hfound
      exact .rfl hordered
  | subtractive rest ih => exact ih hordered hp hfound
  | host rest ih => exact ih hordered hp hfound
  | nothing rest ih => cases hfound
  | expander inner rest ihinner ihrest =>
      rw [SasPorts.discover] at hfound
      obtain ⟨-, hnewordered, -, -⟩ := newChild hordered hp
      rcases hinner : inner.discover h.next ((h.new false).setParent h.next p) with fault | discovered
      · rw [hinner] at hfound
        cases hfound
      · rw [hinner] at hfound
        have hrest : (if inner.hasSubtractive then rest.discover p
            (DevicePort.attachPort ⟨p⟩ discovered (.routingDevice h.next))
            else .error .nullDereference) = Except.ok h' := hfound
        have hbehind : Discovers ((h.new false).setParent h.next p) discovered True := by
          refine ihinner hnewordered ?_ hinner
          rw [setParent_next]
          exact Nat.lt_succ_self _
        by_cases hsubtractive : inner.hasSubtractive = true
        · rw [if_pos hsubtractive] at hrest
          have hattached := discovers_attachPort (.routingDevice h.next) hordered hp
            ⟨hbehind.extends_, hbehind.ordered, hbehind.good⟩ (Eq.refl _)
            fun e he => hbehind.ordered.listed h.next e he
          exact hattached.trans
            (ihrest hattached.ordered (hp.trans_le hattached.extends_.next) hrest)
        · rw [if_neg hsubtractive] at hrest
          simp at hrest
  | endDevice drivers rest ih =>
      rw [SasPorts.discover] at hfound
      split at hfound
      next driver _ =>
        by_cases hdriver : driver.isEndDevice = true
        · rw [if_pos hdriver] at hfound
          have hattached := discovers_endDevice hordered hp
          exact hattached.trans (ih hattached.ordered (hp.trans_le hattached.extends_.next) hfound)
        · rw [if_neg hdriver] at hfound
          exact ih hordered hp hfound
      next => exact ih hordered hp hfound

/-- The multiplier attaches a device for each target that has one, without a parent. -/
theorem discovers_multiplierTarget {m : Nat} (target : List ScsiDriver) (hordered : h.Ordered)
    (hm : m < h.next) :
    Extends h (AHCI_Multiplier.attachEndDevice m h target) ∧
      (AHCI_Multiplier.attachEndDevice m h target).Ordered ∧
      (target.any ScsiDriver.isEndDevice = true →
        ∃ e ∈ ((AHCI_Multiplier.attachEndDevice m h target).lists m).getEndDevices true,
          m < e ∧ Orphan (AHCI_Multiplier.attachEndDevice m h target) e) := by
  unfold AHCI_Multiplier.attachEndDevice
  by_cases htarget : target.any ScsiDriver.isEndDevice = true
  · rw [if_pos htarget]
    have hlt : h.next < (h.new false).next := Nat.lt_succ_self _
    refine ⟨(extends_new false).trans extends_attachPort, ?_, fun _ => ⟨h.next, ?_, hm, ?_⟩⟩
    · apply ordered_attachPort (ordered_new hordered false) (hm.trans hlt)
      intro e he
      obtain rfl := List.mem_singleton.mp he
      exact hlt
    · exact mem_attachPort.mpr (.inr ⟨rfl, List.mem_singleton_self _⟩)
    · have hnone : h.m_pParent h.next = none := by
        rcases hparent : h.m_pParent h.next with _ | q
        · rfl
        · exact absurd (hordered.older _ _ hparent).2 (lt_irrefl _)
      exact extends_attachPort.orphan ⟨hlt, Function.update_self _ _ _, hnone⟩
  · rw [if_neg htarget]
    exact ⟨.rfl, hordered, fun h => absurd h htarget⟩

/-- A multiplier attaches its end devices without giving them a parent, so that each of them is below it
and an orphan. -/
theorem discovers_multiplier {m : Nat} (targets : List (List ScsiDriver)) (hordered : h.Ordered)
    (hm : m < h.next) :
    Extends h (AHCI_Multiplier.discover m targets h) ∧
      (AHCI_Multiplier.discover m targets h).Ordered ∧
      ((∃ target ∈ targets, target.any ScsiDriver.isEndDevice = true) →
        ∃ e ∈ ((AHCI_Multiplier.discover m targets h).lists m).getEndDevices true,
          m < e ∧ Orphan (AHCI_Multiplier.discover m targets h) e) := by
  induction targets generalizing h with
  | nil => exact ⟨.rfl, hordered, by simp⟩
  | cons target targets ih =>
      obtain ⟨hextends, hordered', horphan⟩ := discovers_multiplierTarget target hordered hm
      obtain ⟨hrest, hrestOrdered, hrestOrphan⟩ := ih hordered' (hm.trans_le hextends.next)
      refine ⟨hextends.trans hrest, hrestOrdered, ?_⟩
      rintro ⟨found, hfound, hdevice⟩
      rcases List.mem_cons.mp hfound with rfl | hfound
      · obtain ⟨e, he, hme, heorphan⟩ := horphan hdevice
        exact ⟨e, hrest.endDevices m he, hme, hrest.orphan heorphan⟩
      · exact hrestOrphan ⟨found, hfound, hdevice⟩

/-- A multiplier without end devices behind it changes nothing. -/
theorem discover_multiplier_of_none {m : Nat} {targets : List (List ScsiDriver)}
    (hnone : ¬ ∃ target ∈ targets, target.any ScsiDriver.isEndDevice = true) :
    AHCI_Multiplier.discover m targets h = h := by
  induction targets with
  | nil => rfl
  | cons target targets ih =>
      simp only [List.mem_cons, exists_eq_or_imp, not_or] at hnone
      rw [AHCI_Multiplier.discover, List.foldl_cons, AHCI_Multiplier.attachEndDevice, if_neg hnone.1]
      exact ih hnone.2

/-- The phy's devices get their parents, but for those of a port multiplier. -/
theorem discovers_phy (targets : List (List ScsiDriver)) (hordered : h.Ordered) (hc : c < h.next) :
    Discovers h (AHCI_Phy.discover c h targets) (¬ IsMultiplierWithDevice targets) ∧
      (IsMultiplierWithDevice targets →
        ∃ e ∈ ((AHCI_Phy.discover c h targets).lists c).getEndDevices true,
          Orphan (AHCI_Phy.discover c h targets) e) := by
  match targets with
  | [] => exact ⟨.rfl hordered, fun hdevice => absurd hdevice.1 (by simp)⟩
  | [target] =>
      refine ⟨?_, fun hdevice => absurd hdevice.1 (by simp)⟩
      rw [AHCI_Phy.discover]
      split
      next =>
        have hattached := discovers_endDevice hordered hc
        exact ⟨hattached.extends_, hattached.ordered, fun _ => hattached.good trivial⟩
      next => exact .rfl hordered
  | first :: second :: others =>
      rw [AHCI_Phy.discover]
      · set targets := first :: second :: others with htargets
        have hnew : h.next < (h.new false).next := Nat.lt_succ_self _
        obtain ⟨hbehind, hbehindOrdered, horphan⟩ :=
          discovers_multiplier targets (ordered_new hordered false) hnew
        have hextends := (extends_new (h := h) false).trans hbehind
        have hset : Extends h ((AHCI_Multiplier.discover h.next targets (h.new false)).setParent
            h.next c) := extends_setParent hextends (le_refl _)
        have hsetOrdered := ordered_setParent hbehindOrdered hc (hnew.trans_le hbehind.next)
        have hlisted : ∀ e ∈ (DeviceRemotePort.routingDevice h.next).endDevices
            ((AHCI_Multiplier.discover h.next targets (h.new false)).setParent h.next c),
            e < ((AHCI_Multiplier.discover h.next targets (h.new false)).setParent h.next c).next :=
          hsetOrdered.listed h.next
        refine ⟨⟨hset.trans extends_attachPort,
          ordered_attachPort hsetOrdered (hc.trans_le hset.next) hlisted, fun hnone hgood => ?_⟩,
          fun hdevice => ?_⟩
        · have hnothing : ¬ ∃ target ∈ targets, target.any ScsiDriver.isEndDevice = true :=
            fun hsome => hnone ⟨by simp [htargets], hsome⟩
          rw [discover_multiplier_of_none hnothing]
          obtain ⟨hchild, hchildOrdered, hclass, hparent⟩ := newChild hordered hc
          exact good_attachPort (hgood.of_lists hordered hchild setParent_lists) hclass hparent
        · obtain ⟨e, he, hne, heorphan⟩ := horphan hdevice.2
          refine ⟨e, mem_attachPort.mpr (.inr ⟨rfl, ?_⟩), extends_attachPort.orphan ?_⟩
          · rw [DeviceRemotePort.endDevices, setParent_lists]
            exact he
          · refine ⟨?_, ?_, ?_⟩
            · rw [setParent_next]
              exact heorphan.exists_
            · rw [setParent_isController]
              exact heorphan.endDevice
            · unfold DeviceHeap.setParent
              rw [if_neg (Nat.ne_of_lt hc)]
              exact (Function.update_of_ne (Nat.ne_of_gt hne) _ _).trans heorphan.parentless
      · nofun
      · nofun

end discovery

/-! ## All controllers -/

section controllers

variable {h h' : DeviceHeap}

/-- By induction over the phys of a controller: all end devices know it, unless one is behind a
multiplier. -/
theorem discovers_phys (phys : List (List (List ScsiDriver))) {c : Nat} (hordered : h.Ordered)
    (hc : c < h.next) :
    Discovers h (phys.foldl (AHCI_Phy.discover c) h) (¬ ∃ targets ∈ phys, IsMultiplierWithDevice targets) ∧
      ((∃ targets ∈ phys, IsMultiplierWithDevice targets) →
        ∃ e ∈ ((phys.foldl (AHCI_Phy.discover c) h).lists c).getEndDevices true,
          Orphan (phys.foldl (AHCI_Phy.discover c) h) e) := by
  induction phys generalizing h with
  | nil => exact ⟨.rfl hordered, by simp⟩
  | cons targets phys ih =>
      obtain ⟨hphy, horphan⟩ := discovers_phy targets hordered hc
      obtain ⟨hrest, hrestOrphan⟩ := ih hphy.ordered (hc.trans_le hphy.extends_.next)
      refine ⟨⟨hphy.extends_.trans hrest.extends_, hrest.ordered, fun hnone hgood => ?_⟩, ?_⟩
      · simp only [List.mem_cons, exists_eq_or_imp, not_or] at hnone
        exact hrest.good hnone.2 (hphy.good hnone.1 hgood)
      · rintro ⟨found, hfound, hdevice⟩
        rcases List.mem_cons.mp hfound with rfl | hfound
        · obtain ⟨e, he, heorphan⟩ := horphan hdevice
          exact ⟨e, hrest.extends_.endDevices c he, hrest.extends_.orphan heorphan⟩
        · exact hrestOrphan ⟨found, hfound, hdevice⟩

/-- A controller that has been discovered, and one of its end devices without a parent where there is a
device behind a port multiplier. -/
theorem discovers_controller {dir : ControllerDir} (hordered : h.Ordered)
    (hfound : dir.discover h = .ok h') :
    Discovers h h' (¬ dir.HasMultiplierDevice) ∧ h.next < h'.next ∧ h'.isController h.next = true ∧
      (dir.HasMultiplierDevice → ∃ e ∈ (h'.lists h.next).getEndDevices true, Orphan h' e) := by
  have hnew : h.next < (h.new true).next := Nat.lt_succ_self _
  have hclass : (h.new true).isController h.next = true := Function.update_self _ _ _
  have hordered' := ordered_new hordered true
  have hgood : Good h → Good (h.new true) := fun hgood =>
    hgood.of_lists hordered (extends_new true) rfl
  cases dir with
  | ahci phys =>
      obtain rfl := Except.ok.inj hfound
      obtain ⟨hphys, horphan⟩ := discovers_phys phys hordered' hnew
      exact ⟨⟨(extends_new true).trans hphys.extends_, hphys.ordered,
        fun hnone h => hphys.good hnone (hgood h)⟩, hnew.trans_le hphys.extends_.next,
        (hphys.extends_.isController _ hnew).trans hclass, horphan⟩
  | isci ports =>
      have hports := ports.discovers hordered' hnew hfound
      exact ⟨⟨(extends_new true).trans hports.extends_, hports.ordered,
        fun _ h => hports.good trivial (hgood h)⟩, hnew.trans_le hports.extends_.next,
        (hports.extends_.isController _ hnew).trans hclass, fun hdevice => hdevice.elim⟩

/-- The empty heap is ordered. -/
theorem ordered_start : DeviceHeap.start.Ordered where
  older _ _ hp := nomatch hp
  lists _ _ := ⟨rfl, rfl⟩
  listed _ _ he := nomatch he

/-- In the empty heap there is no end device that could not know its controller. -/
theorem good_start : Good .start := fun _ _ he => nomatch he

/-- By induction over the controllers, with the number of each behind its predecessors. -/
theorem discovers_controllers {dirs : List ControllerDir} {controllers : List Nat}
    (hordered : h.Ordered) (hfound : discoverControllers dirs h = .ok (h', controllers)) :
    Discovers h h' (¬ ∃ dir ∈ dirs, dir.HasMultiplierDevice) ∧
      (∀ c ∈ controllers, c < h'.next ∧ h'.isController c = true) ∧
      ((∃ dir ∈ dirs, dir.HasMultiplierDevice) →
        ∃ c ∈ controllers, ∃ e ∈ (h'.lists c).getEndDevices true, Orphan h' e) := by
  induction dirs generalizing h controllers with
  | nil =>
      obtain ⟨rfl, rfl⟩ := Prod.mk.inj (Except.ok.inj hfound)
      exact ⟨.rfl hordered, by simp, by simp⟩
  | cons dir dirs ih =>
      rw [discoverControllers] at hfound
      rcases hdir : dir.discover h with fault | discovered
      · rw [hdir] at hfound
        cases hfound
      rcases hrest : discoverControllers dirs discovered with fault | ⟨final, others⟩
      · simp only [hdir, bind, Except.bind, hrest] at hfound
        cases hfound
      · simp only [hdir, bind, Except.bind, hrest] at hfound
        obtain ⟨rfl, rfl⟩ := Prod.mk.inj (Except.ok.inj hfound)
        obtain ⟨hfirst, hlt, hclass, horphan⟩ := discovers_controller hordered hdir
        obtain ⟨hothers, hcontrollers, hothersOrphan⟩ := ih hfirst.ordered hrest
        refine ⟨⟨hfirst.extends_.trans hothers.extends_, hothers.ordered, fun hnone hgood => ?_⟩,
          fun c hc => ?_, ?_⟩
        · simp only [List.mem_cons, exists_eq_or_imp, not_or] at hnone
          exact hothers.good hnone.2 (hfirst.good hnone.1 hgood)
        · rcases List.mem_cons.mp hc with rfl | hc
          · exact ⟨hlt.trans_le hothers.extends_.next,
              (hothers.extends_.isController _ hlt).trans hclass⟩
          · exact hcontrollers c hc
        · rintro ⟨found, hmem, hdevice⟩
          rcases List.mem_cons.mp hmem with rfl | hmem
          · obtain ⟨e, he, heorphan⟩ := horphan hdevice
            exact ⟨h.next, List.mem_cons_self, e, hothers.extends_.endDevices _ he,
              hothers.extends_.orphan heorphan⟩
          · obtain ⟨c, hc, horphan⟩ := hothersOrphan ⟨found, hmem, hdevice⟩
            exact ⟨c, List.mem_cons_of_mem _ hc, horphan⟩

end controllers

/-- **End devices know their controllers unless they are behind a port multiplier.** Phys and ports set
the parent of what they find; the multiplier leaves it out. The directories may show anything, any
number of controllers, multipliers and expanders; a discovery that ends with a fault lists nothing, and
the theorem is about those that return. -/
theorem endDevicesKnow_iff {dirs : List ControllerDir} {h : DeviceHeap} {controllers : List Nat}
    (hfound : discoverControllers dirs .start = .ok (h, controllers)) :
    EndDevicesKnow h controllers ↔ ¬ ∃ dir ∈ dirs, dir.HasMultiplierDevice := by
  obtain ⟨hdiscovers, hcontrollers, horphan⟩ := discovers_controllers ordered_start hfound
  constructor
  · intro hknow hdevice
    obtain ⟨c, hc, e, he, heorphan⟩ := horphan hdevice
    have hnone := heorphan.getController
    rw [hknow c hc e he] at hnone
    simp at hnone
  · intro hnone c hc e he
    obtain ⟨hlt, hclass⟩ := hcontrollers c hc
    have hgood := hdiscovers.good hnone good_start
    exact getController_of_leads hdiscovers.ordered (hdiscovers.ordered.listed c e he)
      (hgood c e he c (.controller hclass))

/-- A disk of an AHCI controller, and one behind two expanders of an ISCI controller. -/
def sampleSasDirs : List ControllerDir :=
  [.ahci [[[.sd]]], .isci (.expander (.subtractive (.expander (.subtractive (.endDevice [.sd] .nil)) .nil))
    .nil)]

/-- Behind expanders every end device knows its controller, unlike behind multipliers. -/
theorem endDevicesKnow_expanders : ∃ h controllers,
    discoverControllers sampleSasDirs .start = .ok (h, controllers) ∧ EndDevicesKnow h controllers := by
  have hfound : (discoverControllers sampleSasDirs .start).isOk = true := rfl
  rcases hresult : discoverControllers sampleSasDirs .start with fault | ⟨h, controllers⟩
  · rw [hresult] at hfound
    cases hfound
  · refine ⟨h, controllers, rfl, (endDevicesKnow_iff hresult).mpr ?_⟩
    simp [sampleSasDirs, ControllerDir.HasMultiplierDevice, IsMultiplierWithDevice]

/-- Two disks behind a port multiplier have no controller. -/
theorem not_endDevicesKnow_multiplier : ∃ h controllers,
    discoverControllers [.ahci [[[.sd], [.sd]]]] .start = .ok (h, controllers) ∧
      ¬ EndDevicesKnow h controllers := by
  refine ⟨_, _, rfl, fun hknow => ?_⟩
  have hdisk := hknow 0 List.mem_cons_self 2 (by decide)
  exact absurd hdisk (by decide)

end Irstessi
