import Irstessi.LinkDiscovery
import Irstessi.Lib.Forest

/-!
# The ports and phys of a session

A session adds the controllers with everything behind them. What the functions of the interface tell of
ports and phys then fits together, and with the lists of devices.

* `own`: a device with its phys and its ports; `perm_addController`: what a session adds of a controller.
* `Added`: what a session has added; `added_initialized`: every session has.
* `LinkSession.Agrees`: the information on ports and phys agrees.
* **`agrees_of_initialized`**: it does in every session that is discovered.

What a session adds is a list of devices, ports and phys in the order of the source; nearly all that is
said of it does not depend on the order, and the list is compared with a simpler one up to order
(`perm_addController`). From the invariant of the discovery it follows that every listed port and phy
belongs to a listed device, once. What the interface tells is computed from handles: equal handles mean
equal objects as long as handles are unique and real, which is asked of the context manager as a
hypothesis. The clauses of `Agrees` are proved one by one.
-/

namespace Irstessi

namespace LinkHeap

variable {P : Type}

/-! ## What is added of a controller -/

/-- A device with its phys and its ports. -/
def own (h : LinkHeap P) (d : Nat) : List LinkObject :=
  .device d :: (h.owned d).getPhys.map .phy ++ (h.owned d).getPorts.map .port

section added

variable {h h' : LinkHeap P} {pending : List Nat} {c d d' x p depth : Nat} {o : LinkObject}

/-- Devices are attached to one device that is older. -/
theorem Linked.forest (hl : h.Linked pending) : Forest h.children h.devices.next where
  younger _ _ hx := (hl.lt_of_mem hx).1
  bounded _ _ hx := (hl.lt_of_mem hx).2
  nodup d := by
    refine List.nodup_iff_count_le_one.mpr fun x => ?_
    rw [hl.child_count]
    split <;> omega
  unique d d' x hd hd' :=
    Option.some.inj (((mem_children_iff hl).mp hd).symm.trans ((mem_children_iff hl).mp hd'))

/-- An end device adds to the session itself, its ports and its phys, each once; the order is that of
the source, so that the statement is one up to order. -/
theorem perm_addEndDevice (hl : h.Linked pending) (he : h.isEndDevice d = true) :
    (h.addEndDevice d).Perm (h.own d) := by
  obtain ⟨hphys, hports, -⟩ := hl.endDevice d he
  simp [addEndDevice, own, DevicePorts.getPhys, DevicePorts.getPorts, hphys, hports]

/-- An end device has nothing behind it. -/
theorem walk_endDevice (hl : h.Linked pending) (he : h.isEndDevice d = true) :
    Forest.walk h.children (depth + 1) d = [d] := by
  simp [Forest.walk, (hl.endDevice d he).2.2]

/-- The end devices on the list of a device. -/
theorem perm_endDevices (hl : h.Linked pending) (d depth : Nat)
    (hdepth : h.devices.next ≤ d + (depth + 1)) :
    ((h.devices.lists d).m_EndDevices_Direct.flatMap h.addEndDevice).Perm
      ((h.devices.lists d).m_EndDevices_Direct.flatMap fun e =>
        (Forest.walk h.children depth e).flatMap h.own) := by
  refine List.Perm.flatMap_left _ fun e he => ?_
  have hlt := hl.lt_of_mem (List.mem_append_left _ he)
  obtain ⟨k, rfl⟩ : ∃ k, depth = k + 1 := ⟨depth - 1, by omega⟩
  have hend := hl.endDevices d e he
  rw [walk_endDevice hl hend, List.flatMap_cons, List.flatMap_nil, List.append_nil]
  exact perm_addEndDevice hl hend

/-- A routing device adds what lies below it, device by device, up to order. The recursion of the source
is bounded by the depth, which never runs out as children have greater numbers than their parents. -/
theorem perm_addRoutingDevice (hl : h.Linked pending) (hd : d < h.devices.next)
    (hdepth : h.devices.next ≤ d + depth) :
    (h.addRoutingDevice depth d).Perm ((Forest.walk h.children depth d).flatMap h.own) := by
  induction depth generalizing d with
  | zero => omega
  | succ depth ih =>
      have hends := perm_endDevices hl d depth (by omega)
      have hrouting : ((h.devices.lists d).m_RoutingDevices_Direct.flatMap
            (h.addRoutingDevice depth)).Perm
          ((h.devices.lists d).m_RoutingDevices_Direct.flatMap fun r =>
            (Forest.walk h.children depth r).flatMap h.own) := by
        refine List.Perm.flatMap_left _ fun r hr => ?_
        have hlt := hl.lt_of_mem (List.mem_append_right _ hr)
        exact ih hlt.2 (by omega)
      rw [List.perm_iff_count] at hends hrouting ⊢
      intro o
      have hends := hends o
      have hrouting := hrouting o
      simp only [addRoutingDevice, Forest.walk, children, own, DevicePorts.getPhys, DevicePorts.getPorts,
        List.flatMap_cons, List.flatMap_append, List.flatMap_assoc, List.map_append, List.count_append,
        List.count_cons] at hends hrouting ⊢
      omega

/-- A controller has no phy and no port by which it is reached. -/
theorem perm_addController (hl : h.Linked pending) (hc : h.devices.isController c = true) :
    (h.addController c).Perm ((Forest.walk h.children (h.devices.next + 1) c).flatMap h.own) := by
  obtain ⟨hphy, hport⟩ := hl.controller c hc
  rcases hnext : h.devices.next with _ | k
  · have hle : h.devices.next ≤ c := by omega
    exact absurd (((hl.unowned c hle).2.2.2).symm.trans hc) (by decide)
  have hends := perm_endDevices hl c h.devices.next (by omega)
  have hrouting : ((h.devices.lists c).m_RoutingDevices_Direct.flatMap
        (h.addRoutingDevice h.devices.next)).Perm
      ((h.devices.lists c).m_RoutingDevices_Direct.flatMap fun r =>
        (Forest.walk h.children h.devices.next r).flatMap h.own) := by
    refine List.Perm.flatMap_left _ fun r hr => ?_
    have hlt := hl.lt_of_mem (List.mem_append_right _ hr)
    exact perm_addRoutingDevice hl hlt.2 (by omega)
  rw [← hnext]
  rw [List.perm_iff_count] at hends hrouting ⊢
  intro o
  have hends := hends o
  have hrouting := hrouting o
  simp only [addController, Forest.walk, children, own, DevicePorts.getPhys, DevicePorts.getPorts, hphy,
    hport, Option.toList_none, List.append_nil, List.flatMap_cons, List.flatMap_append,
    List.flatMap_assoc, List.count_append, List.count_cons] at hends hrouting ⊢
  omega

/-- What belongs to a device: itself, the ports that it lists and the phys that it lists. -/
theorem mem_own_iff : o ∈ h.own d ↔
    match o with
    | .device d' => d' = d
    | .port p => p ∈ (h.owned d).getPorts
    | .phy x => x ∈ (h.owned d).getPhys := by
  cases o <;> simp [own]

/-- A device lists no port and no phy twice, so that what belongs to it is added once. -/
theorem nodup_own (hl : h.Linked pending) (d : Nat) : (h.own d).Nodup := by
  have hphys := (hl.nodup_getPhys d).map (f := LinkObject.phy) fun _ _ h => LinkObject.phy.inj h
  have hports := (hl.nodup_getPorts d).map (f := LinkObject.port) fun _ _ h => LinkObject.port.inj h
  unfold own
  rw [List.cons_append, List.nodup_cons, List.nodup_append]
  refine ⟨by simp, hphys, hports, ?_⟩
  rintro o ho o' ho' rfl
  obtain ⟨x, -, rfl⟩ := List.mem_map.mp ho
  obtain ⟨p, -, hp⟩ := List.mem_map.mp ho'
  cases hp

/-- An object belongs to one device. -/
theorem own_unique (hl : h.Linked []) (ho : o ∈ h.own d) (ho' : o ∈ h.own d') : d = d' := by
  rw [mem_own_iff] at ho ho'
  cases o with
  | device x => exact ho.symm.trans ho'
  | port p => exact (hl.mem_getPorts_iff.mp ho).2.2.symm.trans (hl.mem_getPorts_iff.mp ho').2.2
  | phy x => exact (hl.mem_getPhys_iff.mp ho).2.symm.trans (hl.mem_getPhys_iff.mp ho').2

/-- A controller adds exactly what belongs to itself and to the devices below it. -/
theorem mem_addController_iff (hl : h.Linked []) (hc : h.devices.isController c = true) :
    o ∈ h.addController c ↔ ∃ d, Forest.Below h.children c d ∧ o ∈ h.own d := by
  have hlt : c < h.devices.next := by
    by_contra hnot
    exact absurd (((hl.unowned c (by omega)).2.2.2).symm.trans hc) (by decide)
  rw [(perm_addController hl hc).mem_iff, List.mem_flatMap]
  simp only [Forest.mem_walk_iff hl.forest hlt (show h.devices.next ≤ c + (h.devices.next + 1) by omega)]

/-- Nothing is added twice by one controller: the devices below it are a tree. -/
theorem nodup_addController (hl : h.Linked []) (hc : h.devices.isController c = true) :
    (h.addController c).Nodup := by
  rw [(perm_addController hl hc).nodup_iff, List.nodup_flatMap]
  refine ⟨fun d _ => nodup_own hl d, (Forest.nodup_walk hl.forest).imp fun hne => ?_⟩
  intro o ho ho'
  exact hne (own_unique hl ho ho')

/-! ## What is added of all controllers -/

/-- What is below an older device stays so, and it stays everything. -/
theorem below_iff_of_keeps (hl : h.Linked []) (hkeeps : Keeps {} h h') (hc : c < h.devices.next) :
    Forest.Below h'.children c d ↔ Forest.Below h.children c d := by
  have hchildren : ∀ d < h.devices.next, h'.children d = h.children d := by
    intro d hd
    unfold children
    rw [hkeeps.lists d hd (fun h => h)]
  constructor
  · intro hbelow
    suffices hboth : d < h.devices.next ∧ Forest.Below h.children c d from hboth.2
    induction hbelow with
    | refl => exact ⟨hc, .refl⟩
    | tail _ hchild ih =>
        rw [hchildren _ ih.1] at hchild
        exact ⟨(hl.lt_of_mem hchild).2, ih.2.tail hchild⟩
  · intro hbelow
    suffices hboth : d < h.devices.next ∧ Forest.Below h'.children c d from hboth.2
    induction hbelow with
    | refl => exact ⟨hc, .refl⟩
    | tail _ hchild ih =>
        refine ⟨(hl.lt_of_mem hchild).2, ih.2.tail ?_⟩
        rwa [hchildren _ ih.1]

/-- What is below an older device belongs to it as before. -/
theorem added_iff_of_keeps (hl : h.Linked []) (hkeeps : Keeps {} h h') (hc : c < h.devices.next) :
    (∃ d, Forest.Below h'.children c d ∧ o ∈ h'.own d) ↔
      ∃ d, Forest.Below h.children c d ∧ o ∈ h.own d := by
  refine exists_congr fun d => ?_
  rw [below_iff_of_keeps hl hkeeps hc]
  refine and_congr_right fun hbelow => ?_
  have hd : d < h.devices.next := by
    rcases Relation.ReflTransGen.cases_tail hbelow with rfl | ⟨d', -, hd⟩
    · exact hc
    · exact (hl.lt_of_mem hd).2
  unfold own
  rw [hkeeps.owned d hd (fun h => h)]

/-- A session has added what is below some controllers, each object once. -/
structure Added (h : LinkHeap P) (controllers : List Nat) (added : List LinkObject) : Prop where
  isController : ∀ c ∈ controllers, h.devices.isController c = true
  mem_iff : ∀ o, o ∈ added ↔ ∃ c ∈ controllers, ∃ d, Forest.Below h.children c d ∧ o ∈ h.own d
  nodup : added.Nodup

/-- The controllers that a session adds are new, and it adds what is below them. -/
theorem added_initialized [DecidableEq P] {dirs : List (ControllerPorts P)} (hl : h.Linked [])
    {added : List LinkObject} (hfound : initialized dirs h = .ok (h', added)) :
    h'.Linked [] ∧ Keeps {} h h' ∧
      ∃ controllers, h'.Added controllers added ∧ ∀ c ∈ controllers, h.devices.next ≤ c := by
  induction dirs generalizing h added with
  | nil =>
      obtain ⟨rfl, rfl⟩ := Prod.mk.inj (Except.ok.inj hfound)
      exact ⟨hl, .rfl, [], ⟨by simp, by simp, List.nodup_nil⟩, by simp⟩
  | cons dir dirs ih =>
      simp only [initialized] at hfound
      rcases hdir : dir.discover h with fault | h₁
      · rw [hdir] at hfound
        cases hfound
      rw [hdir] at hfound
      rcases hrest : initialized dirs h₁ with fault | ⟨final, added'⟩
      · simp [hrest, bind, Except.bind] at hfound
      obtain ⟨rfl, rfl⟩ : final = h' ∧ h₁.addController h.devices.next ++ added' = added := by
        simpa [hrest, bind, Except.bind] using hfound
      obtain ⟨hl₁, hkeeps₁, hlt, hcontroller⟩ := linked_discover hl hdir
      obtain ⟨hlinked, hkeeps, controllers, ⟨hcontrollers, hmem, hnodup⟩, hnew⟩ := ih hl₁ hrest
      refine ⟨hlinked, hkeeps₁.trans hkeeps (by constructor <;> simp), h.devices.next :: controllers,
        ⟨?_, ?_, ?_⟩, ?_⟩
      · intro c hc
        rcases List.mem_cons.mp hc with rfl | hc
        · exact (hkeeps.isController _ hlt).trans hcontroller
        · exact hcontrollers c hc
      · intro o
        rw [List.mem_append, mem_addController_iff hl₁ hcontroller, hmem]
        simp only [List.mem_cons, exists_eq_or_imp, added_iff_of_keeps hl₁ hkeeps hlt]
      · refine List.nodup_append.mpr ⟨nodup_addController hl₁ hcontroller, hnodup, ?_⟩
        rintro o ho o' ho' rfl
        -- the device of an object that is older than the other controllers
        obtain ⟨d, hbelow, ho⟩ := (mem_addController_iff hl₁ hcontroller).mp ho
        obtain ⟨c, hc, d', hbelow', ho'⟩ := (hmem o).mp ho'
        have hd : d < h₁.devices.next := by
          rcases Relation.ReflTransGen.cases_tail hbelow with rfl | ⟨d', -, hd⟩
          · exact hlt
          · exact (hl₁.lt_of_mem hd).2
        have hle := (hnew c hc).trans (Forest.le_of_below hlinked.forest hbelow')
        have hown : o ∈ final.own d := by
          unfold own
          rwa [hkeeps.owned d hd (fun h => h)]
        have hsame := own_unique hlinked hown ho'
        omega
      · intro c hc
        rcases List.mem_cons.mp hc with rfl | hc
        · exact le_refl _
        · exact hlt.le.trans (hnew c hc)

end added

/-! ## Connected ports -/

section connected

variable {h : LinkHeap P} {controllers : List Nat} {added : List LinkObject} {d x p q : Nat}

/-- Of two devices with connected ports one is attached to the other. -/
theorem Linked.attached_of_remote (hl : h.Linked []) (hpq : (h.ports p).m_pRemotePort = some q) :
    (h.ports q).m_pParent ∈ h.children (h.ports p).m_pParent ∨
      (h.ports p).m_pParent ∈ h.children (h.ports q).m_pParent := by
  have hqp := (hl.connected p q hpq).2.2.2
  rcases hl.reached p q hpq with hown | hown
  · exact .inr ((mem_children_iff hl).mpr (by simp [front, hown, hpq]))
  · exact .inl ((mem_children_iff hl).mpr (by simp [front, hown, hqp]))

/-- A device that is attached to another one has a port that is connected to one of its ports. -/
theorem Linked.remote_of_attached (hl : h.Linked []) (hx : x ∈ h.children d) :
    ∃ p ∈ (h.owned d).getPorts, ∃ q ∈ (h.owned x).getPorts,
      (h.ports p).m_pRemotePort = some q ∧ (h.ports q).m_pRemotePort = some p := by
  have hfront := (mem_children_iff hl).mp hx
  unfold front at hfront
  rcases hq : (h.owned x).m_pPort with _ | q
  · simp [hq] at hfront
  rcases hp : (h.ports q).m_pRemotePort with _ | p
  · simp [hq, hp] at hfront
  have hparent : (h.ports p).m_pParent = d := by simpa [hq, hp] using hfront
  obtain ⟨hqlt, hqalive, hqparent, -⟩ := hl.own hq
  have hpq := (hl.connected q p hp).2.2.2
  exact ⟨p, hl.mem_getPorts_iff.mpr ⟨(hl.connected p q hpq).1, (hl.connected p q hpq).2.1, hparent⟩, q,
    hl.mem_getPorts_iff.mpr ⟨hqlt, hqalive, hqparent⟩, hpq, hp⟩

/-- The devices in the session are those below one of its controllers. -/
theorem Added.device_iff (ha : h.Added controllers added) :
    .device d ∈ added ↔ ∃ c ∈ controllers, Forest.Below h.children c d := by
  simp [ha.mem_iff, mem_own_iff]

/-- The ports in the session are the ports of its devices that have not been destroyed. -/
theorem Added.port_iff (hl : h.Linked []) (ha : h.Added controllers added) : .port p ∈ added ↔
    p < h.nextPort ∧ h.destroyed p = false ∧ .device (h.ports p).m_pParent ∈ added := by
  rw [ha.mem_iff, ha.device_iff]
  simp only [mem_own_iff, hl.mem_getPorts_iff]
  constructor
  · rintro ⟨c, hc, d, hbelow, hlt, halive, rfl⟩
    exact ⟨hlt, halive, c, hc, hbelow⟩
  · rintro ⟨hlt, halive, c, hc, hbelow⟩
    exact ⟨c, hc, _, hbelow, hlt, halive, rfl⟩

/-- The phys in the session are the phys of its devices. -/
theorem Added.phy_iff (hl : h.Linked []) (ha : h.Added controllers added) : .phy x ∈ added ↔
    x < h.nextPhy ∧ .device (h.phys x).m_pParent ∈ added := by
  rw [ha.mem_iff, ha.device_iff]
  simp only [mem_own_iff, hl.mem_getPhys_iff]
  constructor
  · rintro ⟨c, hc, d, hbelow, hlt, rfl⟩
    exact ⟨hlt, c, hc, hbelow⟩
  · rintro ⟨hlt, c, hc, hbelow⟩
    exact ⟨c, hc, _, hbelow, hlt, rfl⟩

/-- A device is added together with that to which it is attached. -/
theorem Added.device_iff_of_attached (hl : h.Linked []) (ha : h.Added controllers added)
    (hx : x ∈ h.children d) : .device x ∈ added ↔ .device d ∈ added := by
  rw [ha.device_iff, ha.device_iff]
  constructor
  · rintro ⟨c, hc, hbelow⟩
    refine ⟨c, hc, Forest.parent_of_below hl.forest hbelow ?_ hx⟩
    rintro rfl
    have hfront := (mem_children_iff hl).mp hx
    simp [front, (hl.controller c (ha.isController c hc)).2] at hfront
  · rintro ⟨c, hc, hbelow⟩
    exact ⟨c, hc, hbelow.tail hx⟩

/-- A port is added together with that to which it is connected. -/
theorem Added.port_of_remote (hl : h.Linked []) (ha : h.Added controllers added) (hp : .port p ∈ added)
    (hpq : (h.ports p).m_pRemotePort = some q) : .port q ∈ added := by
  have hqp := hl.connected q p (hl.connected p q hpq).2.2.2
  obtain ⟨-, -, hd⟩ := (ha.port_iff hl).mp hp
  refine (ha.port_iff hl).mpr ⟨hqp.1, hqp.2.1, ?_⟩
  rcases hl.attached_of_remote hpq with hx | hx
  · exact (ha.device_iff_of_attached hl hx).mpr hd
  · exact (ha.device_iff_of_attached hl hx).mp hd

end connected

end LinkHeap

/-! ## What the interface tells -/

/-- The information on the ports and phys of a session agrees. -/
structure LinkSession.Agrees {P α : Type} (s : LinkSession P α) : Prop where
  /-- A port that is connected is connected to another port of the session, which is connected to it. -/
  connected : ∀ p ∈ s.m_Ports, (s.portInfo p).connectedToPort ≠ SSI_NULL_HANDLE →
    ∃ q ∈ s.m_Ports, q ≠ p ∧ (s.portInfo q).portHandle = (s.portInfo p).connectedToPort ∧
      (s.portInfo q).connectedToPort = (s.portInfo p).portHandle
  /-- Ports of two devices are connected iff one of the devices is attached to the other. -/
  attached : ∀ d x, .device d ∈ s.added → .device x ∈ s.added →
    ((∃ p ∈ (s.heap.owned d).getPorts, ∃ q ∈ (s.heap.owned x).getPorts,
      (s.portInfo p).connectedToPort = (s.portInfo q).portHandle) ↔
    x ∈ s.heap.children d ∨ d ∈ s.heap.children x)
  /-- The port of a phy is one of the session, and of the same device. -/
  associated : ∀ x ∈ s.m_Phys, (s.phyInfo x).associatedPort ≠ SSI_NULL_HANDLE →
    ∃ p ∈ s.m_Ports, (s.portInfo p).portHandle = (s.phyInfo x).associatedPort ∧
      (s.portInfo p).localDeviceHandle = (s.phyInfo x).deviceHandle
  /-- Phys of a device whose directories link to ports share a port iff they link to the same one. -/
  grouped : ∀ x ∈ s.m_Phys, ∀ y ∈ s.m_Phys, ∀ path, (s.heap.phys x).port = some path →
    (s.phyInfo x).deviceHandle = (s.phyInfo y).deviceHandle →
    (s.phyInfo x).associatedPort ≠ SSI_NULL_HANDLE → (s.phyInfo y).associatedPort ≠ SSI_NULL_HANDLE →
    ((s.phyInfo x).associatedPort = (s.phyInfo y).associatedPort ↔ (s.heap.phys y).port = some path)
  /-- A port has as many phys as there are phys with this port. -/
  counted : ∀ p ∈ s.m_Ports, (s.portInfo p).numPhys =
    (s.m_Phys.filter fun x => (s.phyInfo x).associatedPort = (s.portInfo p).portHandle).length
  /-- A port is one of the ports of its device, which is one of the session. -/
  located : ∀ p ∈ s.m_Ports, ∃ d, .device d ∈ s.added ∧
    s.getHandle (.device d) = (s.portInfo p).localDeviceHandle ∧ p ∈ (s.heap.owned d).getPorts

section agrees

variable {P α : Type} {s : LinkSession P α}

/-- The session's list of ports is what has been added of them. -/
theorem mem_m_Ports {p : Nat} : p ∈ s.m_Ports ↔ .port p ∈ s.added := by
  unfold LinkSession.m_Ports
  rw [List.mem_filterMap]
  constructor
  · rintro ⟨o, ho, hp⟩
    cases o with
    | port p' =>
        obtain rfl := Option.some.inj hp
        exact ho
    | device d => cases hp
    | phy x => cases hp
  · exact fun hp => ⟨_, hp, rfl⟩

/-- The session's list of phys is what has been added of them. -/
theorem mem_m_Phys {x : Nat} : x ∈ s.m_Phys ↔ .phy x ∈ s.added := by
  unfold LinkSession.m_Phys
  rw [List.mem_filterMap]
  constructor
  · rintro ⟨o, ho, hx⟩
    cases o with
    | phy x' =>
        obtain rfl := Option.some.inj hx
        exact ho
    | device d => cases hx
    | port p => cases hx
  · exact fun hx => ⟨_, hx, rfl⟩

/-- No phy is listed twice. -/
theorem nodup_m_Phys (hadded : s.added.Nodup) : s.m_Phys.Nodup := by
  refine hadded.filterMap fun o o' x ho ho' => ?_
  cases o <;> cases o' <;> simp_all

/-- Objects that are registered have handles of their own. -/
theorem getHandle_inj (hobject : Function.Injective s.object) (hmgr : s.contextMgr.Consistent)
    {o o' : LinkObject} (ho : s.getHandle o ≠ SSI_NULL_HANDLE) (heq : s.getHandle o = s.getHandle o') :
    o = o' := by
  have hself := hmgr.objectAt_iff.mpr ⟨ho, rfl⟩
  have hother := hmgr.objectAt_iff.mpr ⟨ho, heq.symm⟩
  exact hobject (Option.some.inj (hself.symm.trans hother))

/-- A reference that gives a real handle is one to a port that is still there, and the handle is the
port's. -/
theorem lockPort_ne_null {port : Option Nat} (hport : s.lockPort port ≠ SSI_NULL_HANDLE) :
    ∃ p, port = some p ∧ s.heap.destroyed p = false ∧ s.lockPort port = s.getHandle (.port p) := by
  rcases port with _ | p
  · exact absurd rfl hport
  · unfold LinkSession.lockPort at hport ⊢
    dsimp only at hport ⊢
    split at hport
    next => exact absurd rfl hport
    next halive => exact ⟨p, rfl, by simpa using halive, if_neg halive⟩

variable {controllers : List Nat} (hl : s.heap.Linked []) (ha : s.heap.Added controllers s.added)
  (hobject : Function.Injective s.object) (hmgr : s.contextMgr.Consistent)
  (hregistered : ∀ o ∈ s.added, s.getHandle o ≠ SSI_NULL_HANDLE)

include hl ha hobject hmgr hregistered

/-- The handle of a port of the session tells which port it is. -/
theorem lockPort_eq_iff {port : Option Nat} {q : Nat} (hq : .port q ∈ s.added) :
    s.lockPort port = s.getHandle (.port q) ↔ port = some q := by
  have hnull := hregistered _ hq
  constructor
  · intro heq
    obtain ⟨p, rfl, -, hlock⟩ := lockPort_ne_null (heq ▸ hnull)
    have hsame := getHandle_inj hobject hmgr hnull (heq.symm.trans hlock)
    rw [LinkObject.port.inj hsame]
  · rintro rfl
    have halive := ((ha.port_iff hl).mp hq).2.1
    exact if_neg (by simp [halive])

/-- What a listed port is connected to is another listed port, which is connected to it in turn. -/
theorem connected_of_added {p : Nat} (hp : p ∈ s.m_Ports)
    (hconnected : (s.portInfo p).connectedToPort ≠ SSI_NULL_HANDLE) :
    ∃ q ∈ s.m_Ports, q ≠ p ∧ (s.portInfo q).portHandle = (s.portInfo p).connectedToPort ∧
      (s.portInfo q).connectedToPort = (s.portInfo p).portHandle := by
  rw [mem_m_Ports] at hp
  obtain ⟨q, hremote, -, hlock⟩ := lockPort_ne_null hconnected
  obtain ⟨-, -, hne, hback⟩ := hl.connected p q hremote
  refine ⟨q, mem_m_Ports.mpr (ha.port_of_remote hl hp hremote), hne.symm, hlock.symm, ?_⟩
  exact (lockPort_eq_iff hl ha hobject hmgr hregistered hp).mpr hback

/-- Two listed devices are connected by a pair of ports iff one of them is attached to the other. -/
theorem attached_of_added {d x : Nat} (hd : .device d ∈ s.added) (hx : .device x ∈ s.added) :
    (∃ p ∈ (s.heap.owned d).getPorts, ∃ q ∈ (s.heap.owned x).getPorts,
      (s.portInfo p).connectedToPort = (s.portInfo q).portHandle) ↔
    x ∈ s.heap.children d ∨ d ∈ s.heap.children x := by
  have hport : ∀ {d p}, .device d ∈ s.added → p ∈ (s.heap.owned d).getPorts → .port p ∈ s.added := by
    intro d p hd hp
    obtain ⟨hlt, halive, rfl⟩ := hl.mem_getPorts_iff.mp hp
    exact (ha.port_iff hl).mpr ⟨hlt, halive, hd⟩
  have hiff : ∀ {port q}, .port q ∈ s.added →
      (s.lockPort port = s.getHandle (.port q) ↔ port = some q) :=
    fun hq => lockPort_eq_iff hl ha hobject hmgr hregistered hq
  constructor
  · rintro ⟨p, hp, q, hq, heq⟩
    have hremote := (hiff (hport hx hq)).mp heq
    obtain ⟨-, -, rfl⟩ := hl.mem_getPorts_iff.mp hp
    obtain ⟨-, -, rfl⟩ := hl.mem_getPorts_iff.mp hq
    exact hl.attached_of_remote hremote
  · rintro (hchild | hchild)
    · obtain ⟨p, hp, q, hq, hpq, -⟩ := hl.remote_of_attached hchild
      exact ⟨p, hp, q, hq, (hiff (hport hx hq)).mpr hpq⟩
    · obtain ⟨q, hq, p, hp, -, hpq⟩ := hl.remote_of_attached hchild
      exact ⟨p, hp, q, hq, (hiff (hport hx hq)).mpr hpq⟩

omit hobject hmgr hregistered

/-- The port of a phy, which is one of the session. -/
theorem port_of_associated {x : Nat} (hx : x ∈ s.m_Phys)
    (hassociated : (s.phyInfo x).associatedPort ≠ SSI_NULL_HANDLE) :
    ∃ p, (s.heap.phys x).m_pPort = some p ∧ .port p ∈ s.added ∧
      (s.phyInfo x).associatedPort = s.getHandle (.port p) := by
  obtain ⟨p, hport, halive, hlock⟩ := lockPort_ne_null hassociated
  obtain ⟨-, hlt, hparent, -⟩ := hl.attached p x hport
  have hd := ((ha.phy_iff hl).mp (mem_m_Phys.mp hx)).2
  rw [hparent] at hd
  exact ⟨p, hport, (ha.port_iff hl).mpr ⟨hlt, halive, hd⟩, hlock⟩

/-- The port of a phy is a listed one, of the phy's own device. -/
theorem associated_of_added {x : Nat} (hx : x ∈ s.m_Phys)
    (hassociated : (s.phyInfo x).associatedPort ≠ SSI_NULL_HANDLE) :
    ∃ p ∈ s.m_Ports, (s.portInfo p).portHandle = (s.phyInfo x).associatedPort ∧
      (s.portInfo p).localDeviceHandle = (s.phyInfo x).deviceHandle := by
  obtain ⟨p, hport, hp, hlock⟩ := port_of_associated hl ha hx hassociated
  refine ⟨p, mem_m_Ports.mpr hp, hlock.symm, ?_⟩
  unfold LinkSession.portInfo LinkSession.phyInfo
  rw [(hl.attached p x hport).2.2.1]

include hobject hmgr hregistered

/-- Two phys of one device share their port iff their links lead to the same directory. -/
theorem grouped_of_added {x y : Nat} (hx : x ∈ s.m_Phys) (hy : y ∈ s.m_Phys) {path : P}
    (hpath : (s.heap.phys x).port = some path)
    (hdevice : (s.phyInfo x).deviceHandle = (s.phyInfo y).deviceHandle)
    (hassociated : (s.phyInfo x).associatedPort ≠ SSI_NULL_HANDLE)
    (hassociated' : (s.phyInfo y).associatedPort ≠ SSI_NULL_HANDLE) :
    (s.phyInfo x).associatedPort = (s.phyInfo y).associatedPort ↔ (s.heap.phys y).port = some path := by
  obtain ⟨p, hport, hp, hlock⟩ := port_of_associated hl ha hx hassociated
  obtain ⟨p', hport', hp', hlock'⟩ := port_of_associated hl ha hy hassociated'
  obtain ⟨hxlt, hplt, hparent, hname⟩ := hl.attached p x hport
  obtain ⟨-, hplt', hparent', hname'⟩ := hl.attached p' y hport'
  constructor
  · intro heq
    have hsame := getHandle_inj hobject hmgr (hregistered _ hp) (hlock.symm.trans (heq.trans hlock'))
    obtain rfl := LinkObject.port.inj hsame
    rw [hname', ← hname, hpath]
  · intro hpath'
    have hd := ((ha.phy_iff hl).mp (mem_m_Phys.mp hx)).2
    have hsame := LinkObject.device.inj (getHandle_inj hobject hmgr (hregistered _ hd) hdevice)
    have heq := hl.distinct p p' path hplt hplt' ((ha.port_iff hl).mp hp).2.1
      ((ha.port_iff hl).mp hp').2.1 (by rw [← hparent, ← hparent', hsame]) (hname.symm.trans hpath)
      (hname'.symm.trans hpath')
    rw [hlock, hlock', heq]

/-- The number of phys that a port tells is the number of listed phys that name it. -/
theorem counted_of_added {p : Nat} (hp : p ∈ s.m_Ports) : (s.portInfo p).numPhys =
    (s.m_Phys.filter fun x => (s.phyInfo x).associatedPort = (s.portInfo p).portHandle).length := by
  rw [mem_m_Ports] at hp
  have hmem : ∀ x, x ∈ (s.heap.ports p).m_Phys ↔ (s.heap.phys x).m_pPort = some p := by
    intro x
    rw [← List.count_pos_iff, hl.attached_count]
    split <;> simp [*]
  have hnodup := (nodup_m_Phys ha.nodup).filter
    fun x => decide ((s.phyInfo x).associatedPort = (s.portInfo p).portHandle)
  refine List.Perm.length_eq ((List.perm_ext_iff_of_nodup ?_ hnodup).mpr fun x => ?_)
  · refine List.nodup_iff_count_le_one.mpr fun x => ?_
    rw [hl.attached_count]
    split <;> omega
  · rw [hmem, List.mem_filter, mem_m_Phys, decide_eq_true_iff]
    show _ ↔ _ ∧ s.lockPort _ = s.getHandle _
    rw [lockPort_eq_iff hl ha hobject hmgr hregistered hp]
    refine ⟨fun hport => ⟨?_, hport⟩, And.right⟩
    obtain ⟨hlt, -, hparent, -⟩ := hl.attached p x hport
    refine (ha.phy_iff hl).mpr ⟨hlt, ?_⟩
    rw [hparent]
    exact ((ha.port_iff hl).mp hp).2.2

omit hl ha hobject hmgr hregistered

/-- **The information on ports and phys agrees.** Whatever AHCI, ISCI and VMD controllers there are, with
whatever phys, ports, port multipliers and expanders: ports are connected in pairs, as the devices are
attached, each phy is counted by the port that it names, and SAS phys share ports as sysfs tells. -/
theorem agrees_of_initialized [DecidableEq P] {dirs : List (ControllerPorts P)}
    (hfound : LinkHeap.initialized dirs .start = .ok (s.heap, s.added))
    (hobject : Function.Injective s.object) (hmgr : s.contextMgr.Consistent)
    (hregistered : ∀ o ∈ s.added, s.getHandle o ≠ SSI_NULL_HANDLE) :
    s.Agrees := by
  obtain ⟨hl, -, controllers, ha, -⟩ := LinkHeap.added_initialized LinkHeap.linked_start hfound
  exact
  { connected := fun p hp => connected_of_added hl ha hobject hmgr hregistered hp
    attached := fun d x hd hx => attached_of_added hl ha hobject hmgr hregistered hd hx
    associated := fun x hx => associated_of_added hl ha hx
    grouped := fun x hx y hy path => grouped_of_added hl ha hobject hmgr hregistered hx hy
    counted := fun p hp => counted_of_added hl ha hobject hmgr hregistered hp
    located := fun p hp => by
      obtain ⟨hlt, halive, hd⟩ := (ha.port_iff hl).mp (mem_m_Ports.mp hp)
      exact ⟨_, hd, rfl, hl.mem_getPorts_iff.mpr ⟨hlt, halive, rfl⟩⟩ }

end agrees

/-- A disk and a port multiplier of an AHCI controller, an expander behind a wide port of an ISCI
controller, and a disk of a VMD domain. -/
def sampleControllers : List (ControllerPorts Nat) :=
  [.ahci [[[.sd]], [[.sd], [.sr]]],
    .isci [some 0, some 0, none]
      (.expander 0 false [some 1, some 1, some 2] (.host 1 (.endDevice 2 [.sd] .nil)) .nil),
    .vmd [true, false]]

/-- The session of these controllers, in a context manager that has nothing else. -/
theorem agrees_of_initialized_expander : ∃ s : LinkSession Nat LinkObject,
    LinkHeap.initialized sampleControllers .start = .ok (s.heap, s.added) ∧ s.added.length = 43 ∧
      s.Agrees := by
  have hall : ((LinkHeap.initialized sampleControllers .start).toOption.any fun r => r.2.length = 43 ∧
      ∀ o ∈ r.2, (HandleManager.empty.addAll r.2).handle o ≠ SSI_NULL_HANDLE) = true := by
    decide +kernel
  rcases hfound : LinkHeap.initialized sampleControllers .start with fault | ⟨heap, added⟩
  · rw [hfound] at hall
    cases hall
  · rw [hfound] at hall
    obtain ⟨hlength, hregistered⟩ := of_decide_eq_true hall
    let s : LinkSession Nat LinkObject := ⟨heap, added, HandleManager.empty.addAll added, id⟩
    exact ⟨s, rfl, hlength, agrees_of_initialized hfound Function.injective_id
      (HandleManager.consistent_addAll HandleManager.consistent_empty added) hregistered⟩

end Irstessi
