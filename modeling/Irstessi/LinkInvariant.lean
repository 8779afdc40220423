import Irstessi.PortLinks
import Mathlib.Data.List.Count

/-!
# What discovery keeps of ports and phys

Objects are created one by one and connected afterwards. Whatever is discovered, each port and each phy
is on one list, the lists of ports and phys agree, and ports are connected in pairs, one of each pair
being the port by which a device is reached.

* `Linked`: the invariant; a port may still be missing on its list.
* `Touched`, `Keeps`: what of the older objects a function may change, and that it changes nothing else.
* **`Linked.newPhy_listPhy`**, **`Linked.listPort`**, **`Linked.attachPort`** and so on: the functions
  keep the invariant.
* `keeps_newPhy`, `keeps_attachPort` and so on: what they leave as it was.

The invariant is stated with counts: how often a port stands on the list of a device, which is 1 for its
own ports that have not been destroyed and 0 for all others. This covers that nothing is lost, nothing
is listed twice and nothing is listed elsewhere. The other clauses say that references go both ways: a
port and its remote port, a phy and its port. Ports that have been made and not yet listed are kept in
`pending`. Each function of the source that changes a list or a reference has one lemma for the
invariant and one for what it leaves alone.
-/

namespace Irstessi

namespace LinkHeap

variable {P : Type}

/-! ## The invariant -/

/-- The devices that are attached to a device. -/
def children (h : LinkHeap P) (d : Nat) : List Nat :=
  (h.devices.lists d).m_EndDevices_Direct ++ (h.devices.lists d).m_RoutingDevices_Direct

/-- The device that the port of a device is connected to. -/
def front (h : LinkHeap P) (x : Nat) : Option Nat :=
  ((h.owned x).m_pPort.bind fun q => (h.ports q).m_pRemotePort).map fun p => (h.ports p).m_pParent

/-- Lists are told by how often an object is on them. The ports in `pending` are not on a list yet. -/
structure Linked (pending : List Nat) (h : LinkHeap P) : Prop where
  port_count : ∀ d p, (h.owned d).getPorts.count p =
    if p < h.nextPort ∧ h.destroyed p = false ∧ (h.ports p).m_pParent = d ∧ p ∉ pending then 1 else 0
  phy_count : ∀ d x, (h.owned d).getPhys.count x =
    if x < h.nextPhy ∧ (h.phys x).m_pParent = d then 1 else 0
  attached_count : ∀ p x, (h.ports p).m_Phys.count x = if (h.phys x).m_pPort = some p then 1 else 0
  attached : ∀ p x, (h.phys x).m_pPort = some p →
    x < h.nextPhy ∧ p < h.nextPort ∧ (h.phys x).m_pParent = (h.ports p).m_pParent ∧
      (h.phys x).port = (h.ports p).m_Path
  distinct : ∀ p p' path, p < h.nextPort → p' < h.nextPort → h.destroyed p = false →
    h.destroyed p' = false → (h.ports p).m_pParent = (h.ports p').m_pParent →
    (h.ports p).m_Path = some path → (h.ports p').m_Path = some path → p = p'
  connected : ∀ p q, (h.ports p).m_pRemotePort = some q →
    p < h.nextPort ∧ h.destroyed p = false ∧ p ≠ q ∧ (h.ports q).m_pRemotePort = some p
  reached : ∀ p q, (h.ports p).m_pRemotePort = some q →
    (h.owned (h.ports p).m_pParent).m_pPort = some p ∨ (h.owned (h.ports q).m_pParent).m_pPort = some q
  child_count : ∀ d x, (h.children d).count x = if h.front x = some d then 1 else 0
  younger : ∀ d x, h.front x = some d → d < x ∧ x < h.devices.next
  endDevices : ∀ d, ∀ e ∈ (h.devices.lists d).m_EndDevices_Direct, h.isEndDevice e = true
  routingDevices : ∀ d, ∀ r ∈ (h.devices.lists d).m_RoutingDevices_Direct, h.isEndDevice r = false
  endDevice : ∀ e, h.isEndDevice e = true →
    (h.owned e).m_Phys = [] ∧ (h.owned e).m_Ports = [] ∧ h.children e = []
  controller : ∀ c, h.devices.isController c = true →
    (h.owned c).m_pPhy = none ∧ (h.owned c).m_pPort = none
  port_lt : ∀ p < h.nextPort, (h.ports p).m_pParent < h.devices.next
  undestroyed : ∀ p, h.nextPort ≤ p → h.destroyed p = false
  pending_lt : ∀ p ∈ pending, p < h.nextPort
  unowned : ∀ d, h.devices.next ≤ d →
    h.owned d = .empty ∧ h.children d = [] ∧ h.isEndDevice d = false ∧ h.devices.isController d = false

/-- The empty heap meets the invariant. -/
theorem linked_start : (start : LinkHeap P).Linked [] := by
  constructor <;> simp [start, DeviceHeap.start, DevicePorts.empty, DeviceLists.empty,
    DevicePorts.getPorts, DevicePorts.getPhys, children, front]

/-! ## What is kept -/

/-- What may be changed of the older objects: the lists of devices that are attached to a device, its
ports and phys, its own port, the fields of a port and those of a phy. -/
structure Touched where
  lists : Nat → Prop := fun _ => False
  owned : Nat → Prop := fun _ => False
  own : Nat → Prop := fun _ => False
  ports : Nat → Prop := fun _ => False
  phys : Nat → Prop := fun _ => False

/-- Nothing else of the older objects is changed. -/
structure Keeps (t : Touched) (h h' : LinkHeap P) : Prop where
  next : h.devices.next ≤ h'.devices.next
  nextPort : h.nextPort ≤ h'.nextPort
  nextPhy : h.nextPhy ≤ h'.nextPhy
  isController : ∀ d < h.devices.next, h'.devices.isController d = h.devices.isController d
  isEndDevice : ∀ d < h.devices.next, h'.isEndDevice d = h.isEndDevice d
  lists : ∀ d < h.devices.next, ¬ t.lists d → h'.devices.lists d = h.devices.lists d
  owned : ∀ d < h.devices.next, ¬ t.owned d → h'.owned d = h.owned d
  own : ∀ d < h.devices.next, ¬ t.own d → (h'.owned d).m_pPort = (h.owned d).m_pPort
  parent : ∀ p < h.nextPort, (h'.ports p).m_pParent = (h.ports p).m_pParent
  ports : ∀ p < h.nextPort, ¬ t.ports p → h'.ports p = h.ports p ∧ h'.destroyed p = h.destroyed p
  phyParent : ∀ x < h.nextPhy, (h'.phys x).m_pParent = (h.phys x).m_pParent
  phys : ∀ x < h.nextPhy, ¬ t.phys x → h'.phys x = h.phys x

section keeps

variable {h h' h'' : LinkHeap P} {t t' : Touched}

/-- What touches nothing keeps everything. -/
theorem Keeps.rfl : Keeps t h h where
  next := le_refl _
  nextPort := le_refl _
  nextPhy := le_refl _
  isController _ _ := Eq.refl _
  isEndDevice _ _ := Eq.refl _
  lists _ _ _ := Eq.refl _
  owned _ _ _ := Eq.refl _
  own _ _ _ := Eq.refl _
  parent _ _ := Eq.refl _
  ports _ _ _ := ⟨Eq.refl _, Eq.refl _⟩
  phyParent _ _ := Eq.refl _
  phys _ _ _ := Eq.refl _

/-- Of the second function only what it does to the objects that are older than the first one
counts. -/
structure Touched.Within (t' t : Touched) (h : LinkHeap P) : Prop where
  lists : ∀ d < h.devices.next, t'.lists d → t.lists d
  owned : ∀ d < h.devices.next, t'.owned d → t.owned d
  own : ∀ d < h.devices.next, t'.own d → t.own d
  ports : ∀ p < h.nextPort, t'.ports p → t.ports p
  phys : ∀ x < h.nextPhy, t'.phys x → t.phys x

/-- Steps one behind the other keep what both keep, on the objects that were there before them. -/
theorem Keeps.trans (hh' : Keeps t h h') (hh'' : Keeps t' h' h'') (hw : t'.Within t h) :
    Keeps t h h'' := by
  obtain ⟨a1, a2, a3, a4, a5, a6, a7, a8, a9, a10, a11, a12⟩ := hh'
  obtain ⟨b1, b2, b3, b4, b5, b6, b7, b8, b9, b10, b11, b12⟩ := hh''
  obtain ⟨c1, c2, c3, c4, c5⟩ := hw
  constructor <;> grind

/-- What keeps more keeps less. -/
theorem Keeps.mono (hh' : Keeps t h h') (hw : t.Within t' h) : Keeps t' h h' :=
  Keeps.rfl.trans hh' hw

end keeps

/-! ## Single functions -/

section operations

variable {h : LinkHeap P} {pending : List Nat} {d p q x : Nat}

/-! ### Devices -/

/-- The children of a device are those whose front port is connected to one of its ports. -/
theorem mem_children_iff (hl : h.Linked pending) : x ∈ h.children d ↔ h.front x = some d := by
  rw [← List.count_pos_iff, hl.child_count]
  split <;> simp [*]

/-- Only devices that are there are attached. -/
theorem Linked.lt_of_mem (hl : h.Linked pending) (hx : x ∈ h.children d) : d < x ∧ x < h.devices.next :=
  hl.younger d x ((mem_children_iff hl).mp hx)

/-- A new device has no ports and no phys, and keeps the invariant. -/
theorem Linked.newDevice (hl : h.Linked pending) (isController isEndDevice : Bool) :
    (h.newDevice isController isEndDevice).Linked pending := by
  have hold : ∀ d, ∀ x ∈ h.children d,
      (h.newDevice isController isEndDevice).isEndDevice x = h.isEndDevice x := by
    intro d x hx
    have hlt := (hl.lt_of_mem hx).2
    exact Function.update_of_ne (by omega) _ _
  obtain ⟨hnone, hchildren, -, -⟩ := hl.unowned h.devices.next (le_refl _)
  exact
  { hl with
    younger := fun d x hfront => by
      have hyounger := hl.younger d x hfront
      exact ⟨hyounger.1, Nat.lt_succ_of_lt hyounger.2⟩
    port_lt := fun p hp => Nat.lt_succ_of_lt (hl.port_lt p hp)
    endDevices := fun d e he => (hold d e (List.mem_append_left _ he)).trans (hl.endDevices d e he)
    routingDevices := fun d r hr =>
      (hold d r (List.mem_append_right _ hr)).trans (hl.routingDevices d r hr)
    endDevice := fun e he => by
      by_cases heq : e = h.devices.next
      · subst heq
        show (h.owned h.devices.next).m_Phys = [] ∧ (h.owned h.devices.next).m_Ports = [] ∧
          h.children h.devices.next = []
        rw [hnone]
        exact ⟨rfl, rfl, hchildren⟩
      · exact hl.endDevice e ((Function.update_of_ne heq _ _).symm.trans he)
    controller := fun c hc => by
      by_cases heq : c = h.devices.next
      · subst heq
        show (h.owned h.devices.next).m_pPhy = none ∧ (h.owned h.devices.next).m_pPort = none
        rw [hnone]
        exact ⟨rfl, rfl⟩
      · exact hl.controller c ((Function.update_of_ne heq _ _).symm.trans hc)
    unowned := fun d hd => by
      have hlt : h.devices.next + 1 ≤ d := hd
      have hne : d ≠ h.devices.next := by omega
      obtain ⟨howned, hattached, hend, hcontroller⟩ := hl.unowned d (by omega)
      exact ⟨howned, hattached, (Function.update_of_ne hne _ _).trans hend,
        (Function.update_of_ne hne _ _).trans hcontroller⟩ }

/-- A parent is set without any link, and keeps the invariant. -/
theorem Linked.setParent (hl : h.Linked pending) (x d : Nat) : (h.setParent x d).Linked pending := by
  unfold LinkHeap.setParent DeviceHeap.setParent
  split
  · exact hl
  · exact { hl with }

/-! ### Phys -/

/-- A device with another list of phys. -/
theorem front_update {owned : Nat → DevicePorts} {l : DevicePorts}
    (hown : l.m_pPort = (h.owned d).m_pPort) (howned : owned = Function.update h.owned d l) :
    ({ h with owned := owned } : LinkHeap P).front = h.front := by
  funext x
  subst howned
  unfold front
  by_cases hx : x = d
  · subst hx
    simp only [Function.update_self, hown]
  · simp only [Function.update_of_ne hx]

/-- A new phy is one of those of its device. -/
theorem Linked.newPhy_update (hl : h.Linked pending) (port : Option P) {l : DevicePorts}
    (hd : d < h.devices.next) (hports : l.m_Ports = (h.owned d).m_Ports)
    (hown : l.m_pPort = (h.owned d).m_pPort)
    (hphys : ∀ x, l.getPhys.count x = (h.owned d).getPhys.count x + if x = h.nextPhy then 1 else 0)
    (hend : h.isEndDevice d = true → l.m_Phys = [])
    (hcontroller : h.devices.isController d = true → l.m_pPhy = none) :
    ({ h.newPhy d port with owned := Function.update h.owned d l } : LinkHeap P).Linked pending := by
  have hfront := front_update (h := h) hown rfl
  have hsame : ∀ d', (Function.update h.owned d l d').getPorts = (h.owned d').getPorts := by
    intro d'
    by_cases hd' : d' = d
    · subst hd'
      rw [Function.update_self, DevicePorts.getPorts, DevicePorts.getPorts, hports, hown]
    · rw [Function.update_of_ne hd']
  exact
  { hl with
    port_count := fun d' p => by
      show (Function.update h.owned d l d').getPorts.count p = _
      rw [hsame]
      exact hl.port_count d' p
    phy_count := fun d' x => by
      have hcount := hl.phy_count d' x
      have hcount' := hphys x
      simp only [newPhy, Function.update_apply]
      grind
    attached_count := fun p x => by
      have hcount := hl.attached_count p x
      have hattached := hl.attached p x
      simp only [newPhy, Function.update_apply]
      grind
    attached := fun p x => by
      have hattached := hl.attached p x
      simp only [newPhy, Function.update_apply]
      grind
    reached := fun p q hpq => by
      have hreached := hl.reached p q hpq
      simp only [newPhy, Function.update_apply]
      grind
    child_count := fun d' x => (hl.child_count d' x).trans (by rw [← hfront]; rfl)
    younger := fun d' x hx => hl.younger d' x (by rw [← hfront]; exact hx)
    endDevice := fun e he => by
      have hold := hl.endDevice e he
      simp only [Function.update_apply]
      split
      next heq =>
        subst heq
        exact ⟨hend he, hports.trans hold.2.1, hold.2.2⟩
      next => exact hold
    controller := fun c hc => by
      have hold := hl.controller c hc
      simp only [Function.update_apply]
      split
      next heq =>
        subst heq
        exact ⟨hcontroller hc, hown.trans hold.2⟩
      next => exact hold
    unowned := fun d' hd' => by
      have hle : h.devices.next ≤ d' := hd'
      simp only [Function.update_of_ne (show d' ≠ d by omega)]
      exact hl.unowned d' hle }

/-- A new phy that its device lists keeps the invariant. -/
theorem Linked.newPhy_listPhy (hl : h.Linked pending) (port : Option P) (hd : d < h.devices.next)
    (hend : h.isEndDevice d = false) : ((h.newPhy d port).listPhy d h.nextPhy).Linked pending := by
  refine hl.newPhy_update port hd rfl rfl (fun x => ?_) (fun h => ?_) fun hc => (hl.controller d hc).1
  · simp only [DevicePorts.getPhys, newPhy, List.count_append, List.count_singleton]
    grind
  · rw [hend] at h
    cases h

/-- A new phy that is its device's only one keeps the invariant. -/
theorem Linked.newPhy_setPhy (hl : h.Linked pending) (port : Option P) (hd : d < h.devices.next)
    (hcontroller : h.devices.isController d = false) (hnone : (h.owned d).m_pPhy = none) :
    ((h.newPhy d port).setPhy d h.nextPhy).Linked pending := by
  refine hl.newPhy_update port hd rfl rfl (fun x => ?_) (fun he => (hl.endDevice d he).1) fun h => ?_
  · simp only [DevicePorts.getPhys, newPhy, List.count_append, hnone, Option.toList_some,
      Option.toList_none, List.count_nil, List.count_singleton]
    grind
  · rw [hcontroller] at h
    cases h

/-! ### Ports -/

/-- The port of a device is one of its ports. -/
theorem Linked.own (hl : h.Linked pending) (hq : (h.owned x).m_pPort = some q) :
    q < h.nextPort ∧ h.destroyed q = false ∧ (h.ports q).m_pParent = x ∧ q ∉ pending := by
  have hmem : q ∈ (h.owned x).getPorts := by simp [DevicePorts.getPorts, hq]
  have hpos := List.count_pos_iff.mpr hmem
  by_contra hnot
  rw [hl.port_count, if_neg hnot] at hpos
  exact absurd hpos (Nat.lt_irrefl 0)

/-- Both ends of a connection are there. -/
theorem Linked.lt_of_remote (hl : h.Linked pending) (hp : (h.ports p).m_pRemotePort = some q) :
    p < h.nextPort ∧ q < h.nextPort :=
  ⟨(hl.connected p q hp).1, (hl.connected q p (hl.connected p q hp).2.2.2).1⟩

/-- Fronts depend on the ports that devices have. -/
theorem front_congr {h' : LinkHeap P} (hown : (h'.owned x).m_pPort = (h.owned x).m_pPort)
    (hports : ∀ q, (h.owned x).m_pPort = some q →
      (h'.ports q).m_pRemotePort = (h.ports q).m_pRemotePort ∧
      ∀ p, (h.ports q).m_pRemotePort = some p → (h'.ports p).m_pParent = (h.ports p).m_pParent) :
    h'.front x = h.front x := by
  unfold front
  rw [hown]
  rcases hx : (h.owned x).m_pPort with _ | q
  · rfl
  · obtain ⟨hremote, hparent⟩ := hports q hx
    simp only [Option.bind_some, hremote]
    rcases hq : (h.ports q).m_pRemotePort with _ | p
    · rfl
    · simp only [Option.map_some, hparent p hq]

/-- A new port is on no list yet. -/
theorem Linked.newPort (hl : h.Linked pending) (hd : d < h.devices.next) (path : Option P)
    (hpath : ∀ p < h.nextPort, h.destroyed p = false → (h.ports p).m_pParent = d →
      path = none ∨ (h.ports p).m_Path ≠ path) : (h.newPort d path).Linked (h.nextPort :: pending) := by
  have hfront : ∀ x, (h.newPort d path).front x = h.front x := fun x =>
    front_congr rfl fun q hq => by
      have hlt := (hl.own hq).1
      simp only [LinkHeap.newPort, Function.update_of_ne (Nat.ne_of_lt hlt), true_and]
      intro p hp
      rw [Function.update_of_ne (Nat.ne_of_lt (hl.lt_of_remote hp).2)]
  exact
  { hl with
    port_count := fun d' p => by
      have hcount := hl.port_count d' p
      simp only [LinkHeap.newPort, Function.update_apply, List.mem_cons]
      grind
    attached_count := fun p x => by
      have hcount := hl.attached_count p x
      have hattached := hl.attached p x
      simp only [LinkHeap.newPort, Function.update_apply]
      grind
    attached := fun p x hx => by
      obtain ⟨hxlt, hplt, hparent⟩ := hl.attached p x hx
      simp only [LinkHeap.newPort, Function.update_of_ne (Nat.ne_of_lt hplt)]
      exact ⟨hxlt, Nat.lt_succ_of_lt hplt, hparent⟩
    distinct := fun p p' path' hp hp' => by
      have hold := hl.distinct p p' path'
      have hnew := hpath p
      have hnew' := hpath p'
      simp only [LinkHeap.newPort, Function.update_apply] at hp hp' ⊢
      grind
    connected := fun p q hpq => by
      have hconnected := hl.connected p q
      have hlt := hl.lt_of_remote (p := p) (q := q)
      simp only [LinkHeap.newPort, Function.update_apply] at hpq ⊢
      grind
    reached := fun p q hpq => by
      have hreached := hl.reached p q
      have hlt := hl.lt_of_remote (p := p) (q := q)
      simp only [LinkHeap.newPort, Function.update_apply] at hpq ⊢
      grind
    child_count := fun d' x => by
      rw [hfront]
      exact hl.child_count d' x
    younger := fun d' x hx => by
      rw [hfront] at hx
      exact hl.younger d' x hx
    port_lt := fun p hp => by
      have hold := hl.port_lt p
      simp only [LinkHeap.newPort, Function.update_apply] at hp ⊢
      grind
    undestroyed := fun p hp => hl.undestroyed p (Nat.le_of_succ_le hp)
    pending_lt := fun p hp => by
      rcases List.mem_cons.mp hp with rfl | hp
      · exact Nat.lt_succ_self _
      · exact Nat.lt_succ_of_lt (hl.pending_lt p hp) }

/-- A port that is not connected is put on a list or becomes that by which its device is reached. -/
theorem Linked.update_owned (hl : h.Linked (p :: pending)) {l : DevicePorts} (hp : p ∉ pending)
    (halive : h.destroyed p = false) (hparent : (h.ports p).m_pParent = d) (hd : d < h.devices.next)
    (hphys : l.m_Phys = (h.owned d).m_Phys) (hphy : l.m_pPhy = (h.owned d).m_pPhy)
    (hports : ∀ q, l.getPorts.count q = (h.owned d).getPorts.count q + if q = p then 1 else 0)
    (hown : l.m_pPort = (h.owned d).m_pPort ∨
      (h.owned d).m_pPort = none ∧ l.m_pPort = some p ∧ (h.ports p).m_pRemotePort = none)
    (hend : h.isEndDevice d = true → l.m_Ports = [])
    (hcontroller : h.devices.isController d = true → l.m_pPort = none) :
    ({ h with owned := Function.update h.owned d l } : LinkHeap P).Linked pending := by
  have hlt := hl.pending_lt p List.mem_cons_self
  have hfront : ∀ x,
      ({ h with owned := Function.update h.owned d l } : LinkHeap P).front x = h.front x := by
    intro x
    by_cases hx : x = d
    · subst hx
      rcases hown with hsame | ⟨hnone, hsome, hremote⟩
      · exact front_congr ((congrArg _ (Function.update_self ..)).trans hsame)
          fun _ _ => ⟨rfl, fun _ _ => rfl⟩
      · simp only [front, Function.update_self, hsome, hnone, Option.bind_some, Option.bind_none,
          hremote]
    · exact front_congr (congrArg _ (Function.update_of_ne hx _ _)) fun _ _ => ⟨rfl, fun _ _ => rfl⟩
  exact
  { hl with
    port_count := fun d' q => by
      have hcount := hl.port_count d' q
      have hcount' := hports q
      simp only [Function.update_apply, List.mem_cons] at hcount ⊢
      grind
    phy_count := fun d' x => by
      have hcount := hl.phy_count d' x
      simp only [Function.update_apply, DevicePorts.getPhys] at hcount ⊢
      grind
    reached := fun p' q hpq => by
      have hreached := hl.reached p' q hpq
      simp only [Function.update_apply]
      grind
    child_count := fun d' x => (hl.child_count d' x).trans (by rw [← hfront])
    younger := fun d' x hx => hl.younger d' x (by rw [← hfront]; exact hx)
    endDevice := fun e he => by
      have hold := hl.endDevice e he
      simp only [Function.update_apply]
      split
      next heq =>
        subst heq
        exact ⟨hphys.trans hold.1, hend he, hold.2.2⟩
      next => exact hold
    controller := fun c hc => by
      have hold := hl.controller c hc
      simp only [Function.update_apply]
      split
      next heq =>
        subst heq
        exact ⟨hphy.trans hold.1, hcontroller hc⟩
      next => exact hold
    unowned := fun d' hd' => by
      have hle : h.devices.next ≤ d' := hd'
      simp only [Function.update_of_ne (show d' ≠ d by omega)]
      exact hl.unowned d' hle
    pending_lt := fun q hq => hl.pending_lt q (List.mem_cons_of_mem _ hq) }

/-- A pending port that its device lists is pending no longer. -/
theorem Linked.listPort (hl : h.Linked (p :: pending)) (hp : p ∉ pending)
    (halive : h.destroyed p = false) (hparent : (h.ports p).m_pParent = d) (hd : d < h.devices.next)
    (hend : h.isEndDevice d = false) : (h.listPort d p).Linked pending := by
  refine hl.update_owned hp halive hparent hd rfl rfl (fun q => ?_) (.inl rfl) (fun h => ?_)
    fun hc => (hl.controller d hc).2
  · simp only [DevicePorts.getPorts, List.count_append, List.count_singleton]
    grind
  · rw [hend] at h
    cases h

/-- The device has had no such port. -/
theorem Linked.setPort_of_none (hl : h.Linked (p :: pending)) (hp : p ∉ pending)
    (halive : h.destroyed p = false) (hparent : (h.ports p).m_pParent = d) (hd : d < h.devices.next)
    (hremote : (h.ports p).m_pRemotePort = none) (hcontroller : h.devices.isController d = false)
    (hnone : (h.owned d).m_pPort = none) : (h.setPort d p).Linked pending := by
  have hset : h.setPort d p =
      { h with owned := Function.update h.owned d { h.owned d with m_pPort := some p } } := by
    unfold setPort
    rw [hnone]
  rw [hset]
  refine hl.update_owned hp halive hparent hd rfl rfl (fun q => ?_) (.inr ⟨hnone, rfl, hremote⟩)
    (fun he => (hl.endDevice d he).2.1) fun h => ?_
  · simp only [DevicePorts.getPorts, List.count_append, hnone, Option.toList_some, Option.toList_none,
      List.count_nil, List.count_singleton]
    grind
  · rw [hcontroller] at h
    cases h

/-- The port by which a device is reached is dropped. -/
def dropPort (h : LinkHeap P) (d q : Nat) : LinkHeap P :=
  { h with
    owned := Function.update h.owned d { h.owned d with m_pPort := none }
    destroyed := Function.update h.destroyed q true }

/-- A front port that is not connected may be dropped. -/
theorem Linked.dropPort (hl : h.Linked pending) (hq : (h.owned d).m_pPort = some q)
    (hremote : (h.ports q).m_pRemotePort = none) : (h.dropPort d q).Linked pending := by
  obtain ⟨hqlt, -, hqparent, hqpending⟩ := hl.own hq
  have hfront : ∀ x, (h.dropPort d q).front x = h.front x := by
    intro x
    by_cases hx : x = d
    · subst hx
      simp only [front, LinkHeap.dropPort, Function.update_self, hq, Option.bind_some, Option.bind_none,
        hremote]
    · exact front_congr (congrArg _ (Function.update_of_ne hx _ _)) fun _ _ => ⟨rfl, fun _ _ => rfl⟩
  exact
  { hl with
    port_count := fun d' p => by
      have hcount := hl.port_count d' p
      simp only [LinkHeap.dropPort, Function.update_apply, DevicePorts.getPorts,
        List.count_append] at hcount ⊢
      by_cases hd' : d' = d
      · subst hd'
        simp only [hq, Option.toList_some, List.count_singleton] at hcount ⊢
        grind
      · simp only [if_neg hd']
        grind
    phy_count := fun d' x => by
      have hcount := hl.phy_count d' x
      simp only [LinkHeap.dropPort, Function.update_apply, DevicePorts.getPhys] at hcount ⊢
      grind
    distinct := fun p p' path hp hp' => by
      have hold := hl.distinct p p' path hp hp'
      simp only [LinkHeap.dropPort, Function.update_apply]
      grind
    connected := fun p p' hp => by
      have hconnected := hl.connected p p' hp
      simp only [LinkHeap.dropPort, Function.update_apply] at hp ⊢
      grind
    reached := fun p p' hp => by
      have hreached := hl.reached p p' hp
      have hconnected := hl.connected p p' hp
      simp only [LinkHeap.dropPort, Function.update_apply] at hp ⊢
      grind
    child_count := fun d' x => (hl.child_count d' x).trans (by rw [← hfront])
    younger := fun d' x hx => hl.younger d' x (by rw [← hfront]; exact hx)
    endDevice := fun e he => by
      have hold := hl.endDevice e he
      simp only [LinkHeap.dropPort, Function.update_apply]
      split
      next heq =>
        subst heq
        exact hold
      next => exact hold
    controller := fun c hc => by
      have hold := hl.controller c hc
      simp only [LinkHeap.dropPort, Function.update_apply]
      grind
    unowned := fun d' hd' => by
      have hold := hl.unowned d' hd'
      simp only [LinkHeap.dropPort, Function.update_apply]
      split
      next heq =>
        subst heq
        rw [hold.1] at hq
        cases hq
      next => exact hold
    undestroyed := fun p hp => by
      have hne : p ≠ q := by
        have hle : h.nextPort ≤ p := hp
        omega
      exact (Function.update_of_ne hne _ _).trans (hl.undestroyed p hp) }

/-- A pending port becomes its device's front port, in place of one that is not connected. -/
theorem Linked.setPort (hl : h.Linked (p :: pending)) (hp : p ∉ pending)
    (halive : h.destroyed p = false) (hparent : (h.ports p).m_pParent = d) (hd : d < h.devices.next)
    (hremote : (h.ports p).m_pRemotePort = none) (hcontroller : h.devices.isController d = false)
    (hbare : ∀ q, (h.owned d).m_pPort = some q → (h.ports q).m_pRemotePort = none) :
    (h.setPort d p).Linked pending := by
  rcases hq : (h.owned d).m_pPort with _ | q
  · exact hl.setPort_of_none hp halive hparent hd hremote hcontroller hq
  · have hne : q ≠ p := by
      rintro rfl
      exact (hl.own hq).2.2.2 List.mem_cons_self
    have hset : h.setPort d p = (h.dropPort d q).setPort d p := by
      simp [LinkHeap.setPort, LinkHeap.dropPort, hq, hne]
    rw [hset]
    exact (hl.dropPort hq (hbare q hq)).setPort_of_none hp
      ((Function.update_of_ne hne.symm _ _).trans halive) hparent hd hremote hcontroller
      (by simp [LinkHeap.dropPort])

/-! ### Connections -/

/-- A port keeps its device, its path and what it is connected to. -/
theorem ports_attachPhy (h : LinkHeap P) (p x q : Nat) :
    ((h.attachPhy p x).ports q).m_pParent = (h.ports q).m_pParent ∧
      ((h.attachPhy p x).ports q).m_pRemotePort = (h.ports q).m_pRemotePort ∧
      ((h.attachPhy p x).ports q).m_Path = (h.ports q).m_Path := by
  simp only [LinkHeap.attachPhy, Function.update_apply]
  split
  · subst q
    exact ⟨rfl, rfl, rfl⟩
  · exact ⟨rfl, rfl, rfl⟩

/-- A phy keeps its device and where it links to. -/
theorem phys_attachPhy (h : LinkHeap P) (p x y : Nat) :
    ((h.attachPhy p x).phys y).m_pParent = (h.phys y).m_pParent ∧
      ((h.attachPhy p x).phys y).port = (h.phys y).port := by
  simp only [LinkHeap.attachPhy, Function.update_apply]
  split
  · subst y
    exact ⟨rfl, rfl⟩
  · exact ⟨rfl, rfl⟩

/-- A phy and a port of one device, under the same link, are associated. -/
theorem Linked.attachPhy (hl : h.Linked pending) (hx : x < h.nextPhy) (hp : p < h.nextPort)
    (hparent : (h.phys x).m_pParent = (h.ports p).m_pParent) (hnone : (h.phys x).m_pPort = none)
    (hname : (h.phys x).port = (h.ports p).m_Path) : (h.attachPhy p x).Linked pending := by
  have hport := ports_attachPhy h p x
  have hphy := phys_attachPhy h p x
  have hfront : ∀ y, (h.attachPhy p x).front y = h.front y := fun y =>
    front_congr rfl fun q _ => ⟨(hport q).2.1, fun p _ => (hport p).1⟩
  exact
  { hl with
    port_count := fun d' q => by
      rw [(hport q).1]
      exact hl.port_count d' q
    phy_count := fun d' y => by
      rw [(hphy y).1]
      exact hl.phy_count d' y
    attached_count := fun q y => by
      have hcount := hl.attached_count q y
      simp only [LinkHeap.attachPhy, Function.update_apply]
      by_cases hq : q = p
      · subst hq
        simp only [if_true, List.count_append, List.count_singleton, hcount]
        grind
      · simp only [if_neg hq]
        grind
    attached := fun q y hy => by
      have hattached := hl.attached q y
      rw [(hphy y).1, (hphy y).2, (hport q).1, (hport q).2.2]
      simp only [LinkHeap.attachPhy, Function.update_apply] at hy ⊢
      grind
    distinct := fun q q' path => by
      rw [(hport q).1, (hport q').1, (hport q).2.2, (hport q').2.2]
      exact hl.distinct q q' path
    connected := fun q q' hq => by
      rw [(hport q).2.1] at hq
      rw [(hport q').2.1]
      exact hl.connected q q' hq
    reached := fun q q' hq => by
      rw [(hport q).2.1] at hq
      rw [(hport q).1, (hport q').1]
      exact hl.reached q q' hq
    child_count := fun d' y => by
      rw [hfront]
      exact hl.child_count d' y
    younger := fun d' y hy => by
      rw [hfront] at hy
      exact hl.younger d' y hy
    port_lt := fun q hq => by
      rw [(hport q).1]
      exact hl.port_lt q hq }

/-- What a connection does to the lists of devices. -/
theorem children_attachPort (h : LinkHeap P) (p q d y : Nat) :
    ((h.attachPort p q).children d).count y = (h.children d).count y +
      if d = (h.ports p).m_pParent ∧ y = (h.ports q).m_pParent then 1 else 0 := by
  unfold attachPort children
  dsimp only
  split
  · simp only [DevicePort.attachPort, DeviceGraph.attachEndDevice, Function.update_apply]
    split
    · simp only [List.count_append, List.count_singleton]
      grind
    · grind
  · simp only [DevicePort.attachPort, DeviceGraph.attachRoutingDevice, Function.update_apply]
    split
    · simp only [List.count_append, List.count_singleton]
      grind
    · grind

/-- Only the lists of the port's device are changed. -/
theorem devices_attachPort (h : LinkHeap P) (p q : Nat) :
    (h.attachPort p q).devices.next = h.devices.next ∧
      (h.attachPort p q).devices.isController = h.devices.isController ∧
      ∀ d, d ≠ (h.ports p).m_pParent → (h.attachPort p q).devices.lists d = h.devices.lists d := by
  unfold attachPort
  dsimp only
  split
  · exact ⟨rfl, rfl, fun d hd => Function.update_of_ne hd _ _⟩
  · exact ⟨rfl, rfl, fun d hd => Function.update_of_ne hd _ _⟩

/-- A device is put on the list of its class. -/
theorem mem_lists_attachPort (h : LinkHeap P) (p q d y : Nat) :
    (y ∈ ((h.attachPort p q).devices.lists d).m_EndDevices_Direct →
      y ∈ (h.devices.lists d).m_EndDevices_Direct ∨ h.isEndDevice y = true) ∧
    (y ∈ ((h.attachPort p q).devices.lists d).m_RoutingDevices_Direct →
      y ∈ (h.devices.lists d).m_RoutingDevices_Direct ∨ h.isEndDevice y = false) := by
  by_cases hd : d = (h.ports p).m_pParent
  · subst hd
    unfold attachPort
    dsimp only
    split
    · simp only [DevicePort.attachPort, DeviceGraph.attachEndDevice, Function.update_self]
      grind
    · simp only [DevicePort.attachPort, DeviceGraph.attachRoutingDevice, Function.update_self]
      grind
  · rw [(devices_attachPort h p q).2.2 d hd]
    exact ⟨.inl, .inl⟩

/-- A port keeps its device, its phys and its path. -/
theorem ports_attachPort (h : LinkHeap P) (p q q' : Nat) :
    ((h.attachPort p q).ports q').m_pParent = (h.ports q').m_pParent ∧
      ((h.attachPort p q).ports q').m_Phys = (h.ports q').m_Phys ∧
      ((h.attachPort p q).ports q').m_Path = (h.ports q').m_Path := by
  simp only [LinkHeap.attachPort, Function.update_apply]
  grind

/-- Two ports are connected to each other. -/
theorem remote_attachPort (h : LinkHeap P) {p q : Nat} (hpq : p ≠ q) (q' : Nat) :
    ((h.attachPort p q).ports q').m_pRemotePort =
      if q' = p then some q else if q' = q then some p else (h.ports q').m_pRemotePort := by
  simp only [LinkHeap.attachPort, Function.update_apply]
  grind

/-- The device of the second port is now behind that of the first. -/
theorem Linked.front_attachPort (hl : h.Linked pending) (hx : (h.owned x).m_pPort = some q)
    (hnot : (h.owned (h.ports p).m_pParent).m_pPort ≠ some p) (y : Nat) :
    (h.attachPort p q).front y = if y = x then some (h.ports p).m_pParent else h.front y := by
  have hparent := fun q' => (ports_attachPort h p q q').1
  have hqparent := (hl.own hx).2.2.1
  have hpq : p ≠ q := by
    rintro rfl
    rw [hqparent] at hnot
    exact hnot hx
  have hremote := remote_attachPort h hpq
  split
  next heq =>
    subst heq
    have hown : ((h.attachPort p q).owned y).m_pPort = some q := hx
    simp only [front, hown, Option.bind_some, hremote, if_neg hpq.symm, if_true, Option.map_some,
      hparent]
  next hne =>
    refine front_congr rfl fun q' hq' => ?_
    have hq'parent := (hl.own hq').2.2.1
    have hneq : q' ≠ q := by
      rintro rfl
      exact hne (hq'parent.symm.trans hqparent)
    have hnep : q' ≠ p := by
      rintro rfl
      rw [hq'parent] at hnot
      exact hnot hq'
    rw [hremote, if_neg hnep, if_neg hneq]
    exact ⟨rfl, fun p' _ => hparent p'⟩

/-- A free port of one device and a free front port of a later one are connected with each other. -/
theorem Linked.attachPort (hl : h.Linked pending) (hp : p < h.nextPort) (halive : h.destroyed p = false)
    (hfree : (h.ports p).m_pRemotePort = none) (hnot : (h.owned (h.ports p).m_pParent).m_pPort ≠ some p)
    (hx : (h.owned x).m_pPort = some q) (hfree' : (h.ports q).m_pRemotePort = none)
    (hlt : (h.ports p).m_pParent < x) (hxlt : x < h.devices.next)
    (hend : h.isEndDevice (h.ports p).m_pParent = false) :
    (h.attachPort p q).Linked pending := by
  obtain ⟨hqlt, hqalive, hqparent, -⟩ := hl.own hx
  obtain ⟨hnext, hcontroller, hlists⟩ := devices_attachPort h p q
  have hpq : p ≠ q := by
    rintro rfl
    rw [hqparent] at hnot
    exact hnot hx
  have hparent := fun q' => (ports_attachPort h p q q').1
  have hphys := fun q' => (ports_attachPort h p q q').2
  have hremote := remote_attachPort h hpq
  have hfront := hl.front_attachPort hx hnot
  have hnone : h.front x = none := by
    simp only [front, hx, Option.bind_some, hfree', Option.map_none]
  exact
  { hl with
    port_count := fun d' q' => by
      rw [hparent]
      exact hl.port_count d' q'
    attached_count := fun q' y => by
      rw [(hphys q').1]
      exact hl.attached_count q' y
    attached := fun q' y hy => by
      rw [hparent, (hphys q').2]
      exact hl.attached q' y hy
    distinct := fun q₁ q₂ path => by
      rw [hparent, hparent, (hphys q₁).2, (hphys q₂).2]
      exact hl.distinct q₁ q₂ path
    connected := fun q₁ q₂ hq => by
      have hconnected := hl.connected q₁ q₂
      rw [hremote] at hq ⊢
      show q₁ < h.nextPort ∧ h.destroyed q₁ = false ∧ _
      grind
    reached := fun q₁ q₂ hq => by
      have hreached := hl.reached q₁ q₂
      rw [hremote] at hq
      rw [hparent, hparent]
      show (h.owned _).m_pPort = _ ∨ (h.owned _).m_pPort = _
      grind
    child_count := fun d' y => by
      have hcount := hl.child_count d' y
      rw [children_attachPort, hfront, hcount, hqparent]
      grind
    younger := fun d' y hy => by
      have hyounger := hl.younger d' y
      rw [hfront] at hy
      rw [hnext]
      grind
    endDevices := fun d' y hy => by
      rcases (mem_lists_attachPort h p q d' y).1 hy with hold | hnew
      · exact hl.endDevices d' y hold
      · exact hnew
    routingDevices := fun d' y hy => by
      rcases (mem_lists_attachPort h p q d' y).2 hy with hold | hnew
      · exact hl.routingDevices d' y hold
      · exact hnew
    endDevice := fun e he => by
      have hne : e ≠ (h.ports p).m_pParent := by
        rintro rfl
        exact absurd (hend.symm.trans he) (by decide)
      show _ ∧ _ ∧ children _ _ = _
      unfold children
      rw [hlists e hne]
      exact hl.endDevice e he
    port_lt := fun q' hq' => by
      rw [hparent, hnext]
      exact hl.port_lt q' hq'
    controller := fun c hc => by
      rw [hcontroller] at hc
      exact hl.controller c hc
    unowned := fun d' hd' => by
      rw [hnext] at hd'
      rw [hcontroller]
      unfold children
      rw [hlists d' (by omega)]
      exact hl.unowned d' hd' }

end operations

section keeps

variable (h : LinkHeap P) (d p q x : Nat)

/-- A new device touches none of those that were there. -/
theorem keeps_newDevice (isController isEndDevice : Bool) :
    Keeps {} h (h.newDevice isController isEndDevice) := by
  constructor <;> simp only [newDevice, DeviceHeap.new, Function.update_apply] <;> grind

/-- Setting a parent touches no link. -/
theorem keeps_setParent : Keeps {} h (h.setParent x d) := by
  unfold setParent DeviceHeap.setParent
  split
  · exact .rfl
  · constructor <;> simp

/-- A new phy touches none of those that were there. -/
theorem keeps_newPhy (port : Option P) : Keeps {} h (h.newPhy d port) := by
  constructor <;> simp only [newPhy, Function.update_apply] <;> grind

/-- A new port touches none of those that were there. -/
theorem keeps_newPort (path : Option P) : Keeps {} h (h.newPort d path) := by
  constructor <;> simp only [newPort, Function.update_apply] <;> grind

/-- Listing a phy touches the lists of its device only. -/
theorem keeps_listPhy : Keeps { owned := (· = d) } h (h.listPhy d x) := by
  constructor <;> simp only [listPhy, Function.update_apply] <;> grind

/-- Setting the only phy touches its device only. -/
theorem keeps_setPhy : Keeps { owned := (· = d) } h (h.setPhy d x) := by
  constructor <;> simp only [setPhy, Function.update_apply] <;> grind

/-- Listing a port touches the lists of its device only. -/
theorem keeps_listPort : Keeps { owned := (· = d) } h (h.listPort d p) := by
  constructor <;> simp only [listPort, Function.update_apply] <;> grind

/-- Setting the front port touches its device, and the port that it replaces. -/
theorem keeps_setPort :
    Keeps { owned := (· = d), own := (· = d), ports := fun q => (h.owned d).m_pPort = some q } h
      (h.setPort d p) := by
  rcases hq : (h.owned d).m_pPort with _ | q
  · constructor <;> simp only [setPort, hq, Function.update_apply] <;> grind
  · constructor <;> simp only [setPort, hq, Function.update_apply] <;> grind

/-- Associating touches the one phy and the one port. -/
theorem keeps_attachPhy : Keeps { ports := (· = p), phys := (· = x) } h (h.attachPhy p x) := by
  constructor <;> simp only [attachPhy, Function.update_apply] <;> grind

/-- Connecting touches the two ports and the lists of the first one's device. -/
theorem keeps_attachPort :
    Keeps { lists := (· = (h.ports p).m_pParent), ports := fun p' => p' = p ∨ p' = q } h
      (h.attachPort p q) := by
  obtain ⟨hnext, hcontroller, hlists⟩ := devices_attachPort h p q
  exact
  { next := hnext.ge
    nextPort := le_refl _
    nextPhy := le_refl _
    isController := fun d _ => congrFun hcontroller d
    isEndDevice := fun _ _ => rfl
    lists := fun d _ hd => hlists d hd
    owned := fun _ _ _ => rfl
    own := fun _ _ _ => rfl
    parent := fun p' _ => (ports_attachPort h p q p').1
    ports := fun p' _ hp' => by
      obtain ⟨hp, hq⟩ := not_or.mp hp'
      simp only [attachPort, Function.update_of_ne hp, Function.update_of_ne hq, and_self]
    phyParent := fun _ _ => rfl
    phys := fun _ _ _ => rfl }

end keeps

end LinkHeap

end Irstessi
