import Irstessi.Hardware
import Mathlib.Data.List.Flatten
import Mathlib.Data.List.Nodup
import Mathlib.Data.List.Perm.Basic
import Mathlib.Logic.Function.Basic

/-!
# The lists of the device tree

A routing device is attached to its parent when it has been discovered itself; the parent copies its
lists then. The session goes through the tree from its controllers down afterwards.

* `DeviceLists`, `attachEndDevice`, `attachRoutingDevice`: the lists of controllers and routing devices;
  `Attachments`, `attach`: what is attached to one of them, and its discovery.
* `addRoutingDevice`, `addController`, `DeviceForest.initialized`: the lists of the session.
* `attach_self`, `listsShown_attach`: the lists that a discovery leaves; `foldl_addRoutingDevice`: what
  the session makes of them.
* **`topologyComplete`**: the lists of the session are those of its controllers, in the same order for
  end devices.

The tree is given by what attaches to what, in the order of discovery; the objects are numbers. A
routing device is complete when it is attached, and what its parent copies are its lists at that time.
So the lists of a parent are determined by its attachments alone (`Attachments.lists`), and
`attach_self` proves it by induction over them. The session goes down from the controllers and adds a
routing device before what is behind it, which is another order than that of the lists: the two agree up
to a permutation, and the sample shows that they need not agree exactly.
-/

namespace Irstessi

/-! ## The lists and the calls that fill them -/

/-- The lists of a controller or a routing device; the objects are numbers.
Source: `controller.h` `Controller`, `routing_device.h` `RoutingDevice` -/
structure DeviceLists where
  m_EndDevices_Direct : List Nat
  m_EndDevices : List Nat
  m_RoutingDevices_Direct : List Nat
  m_RoutingDevices : List Nat
  deriving DecidableEq, Repr

namespace DeviceLists

def empty : DeviceLists := ⟨[], [], [], []⟩

variable (l : DeviceLists)

/-- Source: `controller.cpp` `Controller::getEndDevices`, `routing_device.cpp`
`RoutingDevice::getEndDevices` -/
def getEndDevices (all : Bool) : List Nat :=
  if all then l.m_EndDevices_Direct ++ l.m_EndDevices else l.m_EndDevices_Direct

/-- Source: `controller.cpp` `Controller::getRoutingDevices`, `routing_device.cpp`
`RoutingDevice::getRoutingDevices` -/
def getRoutingDevices (all : Bool) : List Nat :=
  if all then l.m_RoutingDevices_Direct ++ l.m_RoutingDevices else l.m_RoutingDevices_Direct

/-- Lists behind one another. -/
def append (l l' : DeviceLists) : DeviceLists where
  m_EndDevices_Direct := l.m_EndDevices_Direct ++ l'.m_EndDevices_Direct
  m_EndDevices := l.m_EndDevices ++ l'.m_EndDevices
  m_RoutingDevices_Direct := l.m_RoutingDevices_Direct ++ l'.m_RoutingDevices_Direct
  m_RoutingDevices := l.m_RoutingDevices ++ l'.m_RoutingDevices

variable {l} {l' l'' : DeviceLists}

/-- The empty attachments are neutral from the left. -/
@[simp] theorem empty_append : empty.append l = l := rfl

/-- The empty attachments are neutral from the right. -/
@[simp] theorem append_empty : l.append empty = l := by
  simp [append, empty]

/-- Attaching is associative, list by list. -/
theorem append_assoc : (l.append l').append l'' = l.append (l'.append l'') := by
  simp [append]

end DeviceLists

/-- The lists of all controllers and routing devices. -/
abbrev DeviceGraph : Type := Nat → DeviceLists

namespace DeviceGraph

variable (g : DeviceGraph)

/-- Source: `controller.cpp` `Controller::attachEndDevice`, `routing_device.cpp`
`RoutingDevice::attachEndDevice` -/
def attachEndDevice (p e : Nat) : DeviceGraph :=
  Function.update g p { g p with m_EndDevices_Direct := (g p).m_EndDevices_Direct ++ [e] }

/-- The lists of the routing device are copied as they are.
Source: `controller.cpp` `Controller::attachRoutingDevice`, `routing_device.cpp`
`RoutingDevice::attachRoutingDevice` -/
def attachRoutingDevice (p r : Nat) : DeviceGraph :=
  Function.update g p
    { g p with
      m_RoutingDevices_Direct := (g p).m_RoutingDevices_Direct ++ [r]
      m_EndDevices := (g p).m_EndDevices ++ (g r).getEndDevices true
      m_RoutingDevices := (g p).m_RoutingDevices ++ (g r).getRoutingDevices true }

end DeviceGraph

/-- What is attached to a controller or a routing device, in the order of attachment: a routing device
with what has been attached to it before. -/
inductive Attachments
  | nil
  | endDevice (e : Nat) (rest : Attachments)
  | routingDevice (r : Nat) (inner rest : Attachments)
  deriving DecidableEq, Repr

namespace Attachments

/-- A discovery: each routing device is discovered, then attached. -/
def attach (p : Nat) : Attachments → DeviceGraph → DeviceGraph
  | nil, g => g
  | endDevice e rest, g => rest.attach p (g.attachEndDevice p e)
  | routingDevice r inner rest, g => rest.attach p ((inner.attach r g).attachRoutingDevice p r)

/-- All end devices, as discovery comes by them. -/
def found : Attachments → List Nat
  | nil => []
  | endDevice e rest => e :: rest.found
  | routingDevice _ inner rest => inner.found ++ rest.found

/-- All routing devices, each in front of those behind it. -/
def preorder : Attachments → List Nat
  | nil => []
  | endDevice _ rest => rest.preorder
  | routingDevice r inner rest => r :: (inner.preorder ++ rest.preorder)

/-- The lists that a discovery is to leave. -/
def lists : Attachments → DeviceLists
  | nil => .empty
  | endDevice e rest => DeviceLists.append ⟨[e], [], [], []⟩ rest.lists
  | routingDevice r inner rest =>
      DeviceLists.append ⟨[], inner.lists.getEndDevices true, [r], inner.lists.getRoutingDevices true⟩
        rest.lists

end Attachments

/-! ## The session -/

/-- The lists of the session for the hardware.
Source: `session.h` `Session` -/
structure DeviceSession where
  m_Controllers : List Nat
  m_EndDevices : List Nat
  m_RoutingDevices : List Nat
  deriving DecidableEq, Repr

/-- `depth` bounds the recursion, which ends in the source since the tree does.
Source: `routing_device.cpp` `RoutingDevice::addToSession` -/
def addRoutingDevice (g : DeviceGraph) : Nat → DeviceSession → Nat → DeviceSession
  | 0, s, _ => s
  | depth + 1, s, r =>
      (g r).m_RoutingDevices_Direct.foldl (addRoutingDevice g depth)
        { s with m_RoutingDevices := s.m_RoutingDevices ++ [r]
                 m_EndDevices := s.m_EndDevices ++ (g r).m_EndDevices_Direct }

/-- Source: `controller.cpp` `Controller::addToSession` -/
def addController (g : DeviceGraph) (depth : Nat) (s : DeviceSession) (c : Nat) : DeviceSession :=
  (g c).m_RoutingDevices_Direct.foldl (addRoutingDevice g depth)
    { s with m_Controllers := s.m_Controllers ++ [c]
             m_EndDevices := s.m_EndDevices ++ (g c).m_EndDevices_Direct }

/-- The controllers with what is attached to them; no object is in two places. -/
structure DeviceForest where
  controllers : List (Nat × Attachments)
  distinct : (controllers.flatMap fun c => c.1 :: c.2.preorder).Nodup
  distinctEndDevices : (controllers.flatMap fun c => c.2.found).Nodup

namespace DeviceForest

variable (f : DeviceForest)

/-- All end devices. -/
def endDevices : List Nat := f.controllers.flatMap fun c => c.2.found

/-- All routing devices. -/
def routingDevices : List Nat := f.controllers.flatMap fun c => c.2.preorder

/-- A controller is discovered and added to the session. -/
def step (depth : Nat) (st : DeviceGraph × DeviceSession) (c : Nat × Attachments) :
    DeviceGraph × DeviceSession :=
  let g := c.2.attach c.1 st.1
  (g, addController g depth st.2 c.1)

/-- The controllers are discovered and added to the session one by one.
Source: `session.cpp` `Session::initialize` -/
def initialized : DeviceGraph × DeviceSession :=
  f.controllers.foldl (step f.routingDevices.length) (fun _ => .empty, ⟨[], [], []⟩)

end DeviceForest

/-! ## What a discovery leaves -/

/-- The routing devices that are attached have the lists of what is attached to them. -/
def ListsShown (g : DeviceGraph) : Attachments → Prop
  | .nil => True
  | .endDevice _ rest => ListsShown g rest
  | .routingDevice r inner rest => g r = inner.lists ∧ ListsShown g inner ∧ ListsShown g rest

section attach

variable {g g' : DeviceGraph} {p : Nat} {t : Attachments}

/-- Attaching an end device at a device appends to its list of end devices and to no other list of
it. -/
theorem attachEndDevice_self (e : Nat) :
    g.attachEndDevice p e p = (g p).append ⟨[e], [], [], []⟩ := by
  simp [DeviceGraph.attachEndDevice, DeviceLists.append]

/-- Attaching a routing device brings what it has already: its end devices and its routing devices, in
the order of the source. -/
theorem attachRoutingDevice_self (r : Nat) : g.attachRoutingDevice p r p =
    (g p).append ⟨[], (g r).getEndDevices true, [r], (g r).getRoutingDevices true⟩ := by
  simp [DeviceGraph.attachRoutingDevice, DeviceLists.append]

/-- A discovery fills the lists of its own objects only. -/
theorem attach_of_not_mem {x : Nat} (hx : x ≠ p) (hnot : x ∉ t.preorder) :
    t.attach p g x = g x := by
  induction t generalizing g p with
  | nil => rfl
  | endDevice e rest ih =>
      rw [Attachments.attach, ih hx hnot]
      exact Function.update_of_ne hx _ _
  | routingDevice r inner rest ihinner ihrest =>
      simp only [Attachments.preorder, List.mem_cons, List.mem_append, not_or] at hnot
      obtain ⟨hr, hinner, hrest⟩ := hnot
      rw [Attachments.attach, ihrest hx hrest]
      exact (Function.update_of_ne hx _ _).trans (ihinner hr hinner)

/-- An end device comes into the lists of its parent only. -/
theorem attachEndDevice_new {rs : List Nat} (e : Nat) (hp : p ∉ rs) (hnew : ∀ r ∈ rs, g r = .empty) :
    ∀ r ∈ rs, g.attachEndDevice p e r = .empty := by
  intro r hr
  have hne : r ≠ p := fun heq => hp (heq ▸ hr)
  rw [DeviceGraph.attachEndDevice, Function.update_of_ne hne, hnew r hr]

/-- A routing device and what is behind it leave the routing devices alone that come later. -/
theorem attachRoutingDevice_new {rs : List Nat} {r : Nat} (hp : p ∉ rs) (hr : r ∉ rs)
    (hdisjoint : t.preorder.Disjoint rs) (hnew : ∀ x ∈ rs, g x = .empty) :
    ∀ x ∈ rs, (t.attach r g).attachRoutingDevice p r x = .empty := by
  intro x hx
  have hxp : x ≠ p := fun heq => hp (heq ▸ hx)
  have hxr : x ≠ r := fun heq => hr (heq ▸ hx)
  have hxt : x ∉ t.preorder := fun hmem => hdisjoint hmem hx
  rw [DeviceGraph.attachRoutingDevice, Function.update_of_ne hxp, attach_of_not_mem hxr hxt]
  exact hnew x hx

/-- A routing device, what is behind it and what comes later are different from one another and from what
they are attached to. -/
theorem apart_of_nodup {r : Nat} {inner rest : Attachments}
    (hp : p ∉ (Attachments.routingDevice r inner rest).preorder)
    (hdistinct : (Attachments.routingDevice r inner rest).preorder.Nodup) :
    (p ≠ r ∧ p ∉ inner.preorder ∧ p ∉ rest.preorder) ∧ (r ∉ inner.preorder ∧ r ∉ rest.preorder) ∧
      inner.preorder.Nodup ∧ rest.preorder.Nodup ∧ inner.preorder.Disjoint rest.preorder := by
  simp only [Attachments.preorder, List.mem_cons, List.mem_append, not_or] at hp
  obtain ⟨hr, hboth⟩ := List.nodup_cons.mp hdistinct
  rw [List.mem_append, not_or] at hr
  exact ⟨hp, hr, List.nodup_append'.mp hboth⟩

/-- The lists of what is attached are put behind those that are there. -/
theorem attach_self (hp : p ∉ t.preorder) (hdistinct : t.preorder.Nodup)
    (hnew : ∀ r ∈ t.preorder, g r = .empty) : t.attach p g p = (g p).append t.lists := by
  induction t generalizing g p with
  | nil => simp [Attachments.attach, Attachments.lists]
  | endDevice e rest ih =>
      have hrest : ∀ r ∈ rest.preorder, g.attachEndDevice p e r = .empty :=
        attachEndDevice_new e hp hnew
      rw [Attachments.attach, ih hp hdistinct hrest, attachEndDevice_self, DeviceLists.append_assoc,
        Attachments.lists]
  | routingDevice r inner rest ihinner ihrest =>
      obtain ⟨⟨hpr, hpinner, hprest⟩, hr, hinner, hrest, hdisjoint⟩ := apart_of_nodup hp hdistinct
      have hnewinner : ∀ x ∈ inner.preorder, g x = .empty := fun x hx =>
        hnew x (List.mem_cons_of_mem _ (List.mem_append_left _ hx))
      have hlists : inner.attach r g r = inner.lists := by
        rw [ihinner hr.1 hinner hnewinner, hnew r List.mem_cons_self, DeviceLists.empty_append]
      have hnewrest := attachRoutingDevice_new hprest hr.2 hdisjoint fun x hx =>
        hnew x (List.mem_cons_of_mem _ (List.mem_append_right _ hx))
      rw [Attachments.attach, ihrest hprest hrest hnewrest, attachRoutingDevice_self,
        attach_of_not_mem hpr hpinner, hlists, DeviceLists.append_assoc, Attachments.lists]

/-- Whether the lists are shown depends on the devices of the tree only. -/
theorem ListsShown.congr (h : ListsShown g t) (heq : ∀ r ∈ t.preorder, g' r = g r) : ListsShown g' t := by
  induction t with
  | nil => exact trivial
  | endDevice e rest ih => exact ih h heq
  | routingDevice r inner rest ihinner ihrest =>
      obtain ⟨hr, hinner, hrest⟩ := h
      refine ⟨(heq r List.mem_cons_self).trans hr, ihinner hinner fun x hx => ?_,
        ihrest hrest fun x hx => ?_⟩
      · exact heq x (List.mem_cons_of_mem _ (List.mem_append_left _ hx))
      · exact heq x (List.mem_cons_of_mem _ (List.mem_append_right _ hx))

/-- A discovery leaves every routing device with its lists: nothing is attached to it once its parent
has copied them. -/
theorem listsShown_attach (hp : p ∉ t.preorder) (hdistinct : t.preorder.Nodup)
    (hnew : ∀ r ∈ t.preorder, g r = .empty) : ListsShown (t.attach p g) t := by
  induction t generalizing g p with
  | nil => exact trivial
  | endDevice e rest ih =>
      exact ih hp hdistinct (attachEndDevice_new e hp hnew)
  | routingDevice r inner rest ihinner ihrest =>
      obtain ⟨⟨hpr, hpinner, hprest⟩, hr, hinner, hrest, hdisjoint⟩ := apart_of_nodup hp hdistinct
      have hnewinner : ∀ x ∈ inner.preorder, g x = .empty := fun x hx =>
        hnew x (List.mem_cons_of_mem _ (List.mem_append_left _ hx))
      -- what comes later leaves the routing device and what is behind it
      have hkept : ∀ x, x ≠ p → x ∉ rest.preorder →
          (Attachments.routingDevice r inner rest).attach p g x = inner.attach r g x := by
        intro x hxp hxrest
        rw [Attachments.attach, attach_of_not_mem hxp hxrest]
        exact Function.update_of_ne hxp _ _
      have hlists : inner.attach r g r = inner.lists := by
        rw [attach_self hr.1 hinner hnewinner, hnew r List.mem_cons_self, DeviceLists.empty_append]
      refine ⟨(hkept r (Ne.symm hpr) hr.2).trans hlists, ?_, ?_⟩
      · refine (ihinner hr.1 hinner hnewinner).congr fun x hx => hkept x ?_ ?_
        · exact fun heq => hpinner (heq ▸ hx)
        · exact fun hmem => hdisjoint hx hmem
      · apply ihrest hprest hrest
        apply attachRoutingDevice_new hprest hr.2 hdisjoint
        intro x hx
        exact hnew x (List.mem_cons_of_mem _ (List.mem_append_right _ hx))

end attach

/-! ## What the session makes of it -/

section session

variable {g : DeviceGraph} {t : Attachments}

/-- The session comes by the routing devices in preorder, and by the end devices in the order in which
the parent has copied them. -/
theorem foldl_addRoutingDevice (hshows : ListsShown g t) {depth : Nat} (hdepth : t.preorder.length ≤ depth)
    (s : DeviceSession) :
    t.lists.m_RoutingDevices_Direct.foldl (addRoutingDevice g depth) s =
      { s with m_EndDevices := s.m_EndDevices ++ t.lists.m_EndDevices
               m_RoutingDevices := s.m_RoutingDevices ++ t.preorder } := by
  induction t generalizing depth s with
  | nil => simp [Attachments.lists, Attachments.preorder, DeviceLists.empty]
  | endDevice e rest ih =>
      have hrest := ih hshows hdepth s
      simpa [Attachments.lists, Attachments.preorder, DeviceLists.append] using hrest
  | routingDevice r inner rest ihinner ihrest =>
      obtain ⟨hr, hinner, hrest⟩ := hshows
      simp only [Attachments.preorder, List.length_cons, List.length_append] at hdepth
      obtain ⟨depth, rfl⟩ := Nat.exists_eq_succ_of_ne_zero (show depth ≠ 0 by omega)
      have hlists : (Attachments.routingDevice r inner rest).lists.m_RoutingDevices_Direct =
          r :: rest.lists.m_RoutingDevices_Direct := rfl
      rw [hlists, List.foldl_cons, addRoutingDevice, hr, ihinner hinner (by omega),
        ihrest hrest (by omega)]
      simp [Attachments.lists, Attachments.preorder, DeviceLists.append, DeviceLists.getEndDevices]

/-- A controller whose tree is shown adds to the session itself, the end devices of its list and its
routing devices in preorder, if the recursion is deep enough. -/
theorem addController_of_listsShown {c depth : Nat} (hc : g c = t.lists) (hshows : ListsShown g t)
    (hdepth : t.preorder.length ≤ depth) (s : DeviceSession) : addController g depth s c =
      ⟨s.m_Controllers ++ [c], s.m_EndDevices ++ t.lists.getEndDevices true,
        s.m_RoutingDevices ++ t.preorder⟩ := by
  rw [addController, hc, foldl_addRoutingDevice hshows hdepth]
  simp [DeviceLists.getEndDevices]

end session

/-! ## The orders of the lists -/

namespace Attachments

variable (t : Attachments)

/-- The end devices that the parent copies are those behind the routing device. -/
theorem perm_found : (t.lists.getEndDevices true).Perm t.found := by
  induction t with
  | nil => exact .refl _
  | endDevice e rest ih => exact ih.cons e
  | routingDevice r inner rest ihinner ihrest =>
      calc rest.lists.m_EndDevices_Direct ++ (inner.lists.getEndDevices true ++ rest.lists.m_EndDevices)
          |>.Perm (inner.lists.getEndDevices true ++ rest.lists.getEndDevices true) :=
            List.perm_append_comm_assoc _ _ _
        _ |>.Perm (inner.found ++ rest.found) := ihinner.append ihrest

/-- The list of a controller has the routing devices of its tree, in another order. -/
theorem perm_preorder : (t.lists.getRoutingDevices true).Perm t.preorder := by
  induction t with
  | nil => exact .refl _
  | endDevice e rest ih => exact ih
  | routingDevice r inner rest ihinner ihrest =>
      apply List.Perm.cons r
      calc rest.lists.m_RoutingDevices_Direct ++
            (inner.lists.getRoutingDevices true ++ rest.lists.m_RoutingDevices)
          |>.Perm (inner.lists.getRoutingDevices true ++ rest.lists.getRoutingDevices true) :=
            List.perm_append_comm_assoc _ _ _
        _ |>.Perm (inner.preorder ++ rest.preorder) := ihinner.append ihrest

end Attachments

/-! ## The hardware of a session -/

section hardware

variable (found : Nat → FoundDevice) (isMultiplier : Nat → Bool) (phys ports : Nat → Nat)

/-- The routing devices as `DeviceTree` has them, by the descriptions of the devices. -/
def Attachments.routingDevices : Attachments → RoutingDevices
  | nil => .nil
  | endDevice _ rest => rest.routingDevices
  | routingDevice r inner rest => .cons (isMultiplier r) (inner.lists.m_EndDevices_Direct.map found)
      (phys r) (ports r) inner.routingDevices rest.routingDevices

/-- Of what end devices add to the session the end devices are these devices again. -/
theorem filterMap_endDevices (n : Nat) (devices : List FoundDevice) :
    (devices.flatMap (FoundDevice.addToSession n)).filterMap HardwareObject.endDevice? =
      devices.map fun d => ⟨d, n⟩ := by
  induction devices with
  | nil => rfl
  | cons d devices ih =>
      simp [FoundDevice.addToSession, List.filterMap_cons, HardwareObject.endDevice?, ih]

/-- The end devices behind the routing devices are registered in the order of the lists. -/
theorem filterMap_routingDevices (n : Nat) (t : Attachments) :
    ((t.routingDevices found isMultiplier phys ports).addToSession n).filterMap
        HardwareObject.endDevice? = t.lists.m_EndDevices.map fun e => ⟨found e, n⟩ := by
  induction t with
  | nil => rfl
  | endDevice e rest ih => exact ih
  | routingDevice r inner rest ihinner ihrest =>
      have hphy : ((if isMultiplier r then [HardwareObject.phy] else []) : List _).filterMap
          HardwareObject.endDevice? = [] := by
        cases isMultiplier r <;> rfl
      have hphys : ∀ k, (List.replicate k HardwareObject.phy).filterMap
          HardwareObject.endDevice? = [] := fun k => List.filterMap_replicate_of_none rfl
      have hports : ∀ k, (List.replicate k HardwareObject.port).filterMap
          HardwareObject.endDevice? = [] := fun k => List.filterMap_replicate_of_none rfl
      simp only [Attachments.routingDevices, RoutingDevices.addToSession, List.filterMap_append,
        List.filterMap_cons, hphy, hphys, hports, filterMap_endDevices, ihinner, ihrest]
      simp [Attachments.lists, DeviceLists.append, DeviceLists.getEndDevices,
        HardwareObject.endDevice?]

end hardware

/-! ## The whole topology -/

namespace DeviceForest

/-- The controllers that are discovered one by one get their lists, and the session gets them all. -/
theorem foldl_step {controllers : List (Nat × Attachments)} {depth : Nat} {g : DeviceGraph}
    (hdistinct : (controllers.flatMap fun c => c.1 :: c.2.preorder).Nodup)
    (hdepth : ∀ c ∈ controllers, c.2.preorder.length ≤ depth)
    (hnew : ∀ x ∈ controllers.flatMap fun c => c.1 :: c.2.preorder, g x = .empty) (s : DeviceSession) :
    (controllers.foldl (step depth) (g, s)).2 =
      ⟨s.m_Controllers ++ controllers.map Prod.fst,
        s.m_EndDevices ++ controllers.flatMap fun c => c.2.lists.getEndDevices true,
        s.m_RoutingDevices ++ controllers.flatMap fun c => c.2.preorder⟩ ∧
    (∀ c ∈ controllers, (controllers.foldl (step depth) (g, s)).1 c.1 = c.2.lists) ∧
    ∀ x, x ∉ (controllers.flatMap fun c => c.1 :: c.2.preorder) →
      (controllers.foldl (step depth) (g, s)).1 x = g x := by
  induction controllers generalizing g s with
  | nil => simp
  | cons c controllers ih =>
      rw [List.flatMap_cons] at hdistinct hnew
      obtain ⟨hown, hothers, hdisjoint⟩ := List.nodup_append'.mp hdistinct
      obtain ⟨hc, htree⟩ := List.nodup_cons.mp hown
      have hfresh : ∀ x ∈ c.1 :: c.2.preorder, g x = .empty := fun x hx =>
        hnew x (List.mem_append_left _ hx)
      have hlists : c.2.attach c.1 g c.1 = c.2.lists := by
        rw [attach_self hc htree fun r hr => hfresh r (List.mem_cons_of_mem _ hr),
          hfresh c.1 List.mem_cons_self, DeviceLists.empty_append]
      have hshows := listsShown_attach hc htree fun r hr => hfresh r (List.mem_cons_of_mem _ hr)
      have hkept : ∀ x, x ∉ c.1 :: c.2.preorder → c.2.attach c.1 g x = g x := by
        intro x hx
        rw [List.mem_cons, not_or] at hx
        exact attach_of_not_mem hx.1 hx.2
      have hnewothers : ∀ x ∈ controllers.flatMap fun c => c.1 :: c.2.preorder,
          c.2.attach c.1 g x = .empty := by
        intro x hx
        rw [hkept x fun hmem => hdisjoint hmem hx]
        exact hnew x (List.mem_append_right _ hx)
      obtain ⟨hs, hgraph, hrest⟩ := ih hothers (fun c' hc' => hdepth c' (List.mem_cons_of_mem _ hc'))
        hnewothers (addController (c.2.attach c.1 g) depth s c.1)
      rw [List.foldl_cons, step]
      refine ⟨?_, fun c' hc' => ?_, fun x hx => ?_⟩
      · rw [hs, addController_of_listsShown hlists hshows (hdepth c List.mem_cons_self)]
        simp
      · rcases List.mem_cons.mp hc' with rfl | hc'
        · exact (hrest _ fun hmem => hdisjoint List.mem_cons_self hmem).trans hlists
        · exact hgraph c' hc'
      · rw [List.flatMap_cons, List.mem_append, not_or] at hx
        exact (hrest x hx.2).trans (hkept x hx.1)

variable (f : DeviceForest)

/-- The session's lists are those of its controllers, up to the order of the routing devices. The session
has a routing device right in front of those behind it; the lists of a controller are those that its
attachments leave, with what is behind a routing device copied when that is attached. -/
structure TopologyComplete : Prop where
  endDevices : f.initialized.2.m_EndDevices =
    f.controllers.flatMap fun c => (f.initialized.1 c.1).getEndDevices true
  eachEndDevice : ∀ e ∈ f.endDevices, f.initialized.2.m_EndDevices.count e = 1
  directEndDevices : ∀ x, ((f.initialized.1 x).getEndDevices false).Sublist
    ((f.initialized.1 x).getEndDevices true)
  routingDevices : f.initialized.2.m_RoutingDevices.Perm
    (f.controllers.flatMap fun c => (f.initialized.1 c.1).getRoutingDevices true)
  eachRoutingDevice : ∀ r ∈ f.routingDevices, f.initialized.2.m_RoutingDevices.count r = 1
  directRoutingDevices : ∀ x, ((f.initialized.1 x).getRoutingDevices false).Sublist
    ((f.initialized.1 x).getRoutingDevices true)
  sessionOrder : f.initialized.2.m_RoutingDevices = f.controllers.flatMap fun c => c.2.preorder
  controllerOrder : ∀ c ∈ f.controllers, f.initialized.1 c.1 = c.2.lists

/-- A controller has no more routing devices than the forest. -/
theorem length_preorder_le {c : Nat × Attachments} (hc : c ∈ f.controllers) :
    c.2.preorder.length ≤ f.routingDevices.length := by
  obtain ⟨before, behind, heq⟩ := List.append_of_mem hc
  simp only [routingDevices, heq, List.flatMap_append, List.flatMap_cons, List.length_append]
  omega

/-- The whole session, list by list: the controllers in their order, the end devices controller by
controller and the routing devices in preorder; and the list of every controller. -/
theorem initialized_eq : f.initialized.2 =
    ⟨f.controllers.map Prod.fst, f.controllers.flatMap fun c => c.2.lists.getEndDevices true,
      f.routingDevices⟩ ∧
    ∀ c ∈ f.controllers, f.initialized.1 c.1 = c.2.lists := by
  obtain ⟨hs, hgraph, -⟩ := foldl_step f.distinct (fun c hc => f.length_preorder_le hc)
    (g := fun _ => .empty) (fun _ _ => rfl) ⟨[], [], []⟩
  exact ⟨hs, hgraph⟩

/-- **The topology is complete.** Every end device and every routing device is in the session's list
once, and the lists of the session are made of those of its controllers: in the same order for end
devices; the session lists a routing device in front of those behind it, a controller in front of
those beside it. -/
theorem topologyComplete : f.TopologyComplete := by
  obtain ⟨hs, hgraph⟩ := f.initialized_eq
  have hendDevices : f.initialized.2.m_EndDevices.Perm f.endDevices := by
    rw [hs]
    exact List.Perm.flatMap_left _ fun c _ => c.2.perm_found
  have hdistinct : f.routingDevices.Nodup := by
    have hsub : f.routingDevices.Sublist (f.controllers.flatMap fun c => c.1 :: c.2.preorder) :=
      .flatMap_right _ fun c _ => List.sublist_cons_self _ _
    exact hsub.nodup f.distinct
  refine ⟨?_, fun e he => ?_, fun x => ?_, ?_, fun r hr => ?_, fun x => ?_, ?_, hgraph⟩
  · rw [hs]
    exact List.flatMap_congr fun c hc => by rw [hgraph c hc]
  · rw [hendDevices.count_eq]
    exact List.count_eq_one_of_mem f.distinctEndDevices he
  · exact List.sublist_append_left _ _
  · rw [hs]
    apply List.Perm.flatMap_left _
    intro c hc
    rw [hgraph c hc]
    exact c.2.perm_preorder.symm
  · rw [hs]
    exact List.count_eq_one_of_mem hdistinct hr
  · exact List.sublist_append_left _ _
  · rw [hs]
    rfl

/-- A controller with two routing devices, another one behind the first. -/
def sampleForest : DeviceForest where
  controllers := [(0, .routingDevice 1 (.routingDevice 3 .nil .nil) (.routingDevice 2 .nil .nil))]
  distinct := by decide
  distinctEndDevices := by decide

/-- The session lists the third routing device between the two, the controller behind them. -/
theorem routingDevices_ne_flatMap : sampleForest.initialized.2.m_RoutingDevices ≠
    sampleForest.controllers.flatMap fun c =>
      (sampleForest.initialized.1 c.1).getRoutingDevices true := by
  decide

end DeviceForest

end Irstessi
