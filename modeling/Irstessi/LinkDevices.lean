import Irstessi.LinkDiscovery

/-!
# The devices of the discovery with ports

The discovery of ports and phys does to devices what the discovery of controllers does without them. The
ports of a SAS device then stand in the order in which its phys come by them.

* `ControllerPorts.dir`: what is shown of a controller, without ports and phys.
* `Shows`: the ports of a device are those that its phys have linked to so far.
* **`devices_initialized`**: both discoveries give the same devices, with the same parents and lists.

The discovery with links makes the same devices as the one without (`Discovery`, `Topology`) and more
objects beside them; to use the results on devices for it, the two are compared step by step. The
comparison is a simulation: `h.devices` of the one is the heap of the other after every function, from a
phy up to the whole list of controllers. What has to be shown beyond that is that SAS ports come in the
right order: a port is made when the first phy links to it, and `Shows` keeps the list of the paths that
have been seen so far.
-/

namespace Irstessi

namespace LinkHeap

variable {P : Type}

/-! ## Connections -/

section connections

variable {h : LinkHeap P} {pending : List Nat} {d p x : Nat}

/-- A connection attaches the device to that of the port. -/
theorem devices_connect (hl : h.Linked pending) (hp : (h.ports p).m_pParent = d) (hx : Detached x h) :
    (h.connect p x).devices = DevicePort.attachPort ⟨d⟩ h.devices
      (if h.isEndDevice x then .endDevice x else .routingDevice x) := by
  obtain ⟨-, q, hq, -⟩ := hx
  have hparent := (hl.own hq).2.2.1
  unfold LinkHeap.connect
  rw [hq]
  show DevicePort.attachPort ⟨(h.ports p).m_pParent⟩ h.devices _ = _
  rw [hp, hparent]

/-- A device that has been reached is a new device of its kind; on the devices nothing else happens. -/
theorem devices_newReached (h : LinkHeap P) (isEndDevice : Bool) :
    (h.newReached isEndDevice).devices = h.devices.new false ∧
      (h.newReached isEndDevice).isEndDevice h.devices.next = isEndDevice :=
  ⟨rfl, Function.update_self ..⟩

end connections

/-! ## AHCI -/

section ahci

variable {h : LinkHeap P} {c m x : Nat}

/-- On the devices, attaching behind a multiplier does what the model without links does. -/
theorem devices_attachEndDevice (hm : m < h.devices.next) (target : List ScsiDriver) :
    (AHCI_Multiplier.attachEndDeviceLinks m h target).devices =
      AHCI_Multiplier.attachEndDevice m h.devices target := by
  unfold AHCI_Multiplier.attachEndDeviceLinks AHCI_Multiplier.attachEndDevice
  split
  next =>
    have hne : h.devices.next ≠ m := (Nat.ne_of_lt hm).symm
    simp [newEndDevice, newReached, LinkHeap.newDevice, newPhy, setPhy, newPort, setPort, listPhy,
      listPort, attachPhy, connect, attachPort, Function.update_apply, hne]
  next => rfl

/-- The discovery of a multiplier with its links is, on the devices, the one without. -/
theorem devices_multiplier (h : LinkHeap P) (targets : List (List ScsiDriver)) :
    (AHCI_Multiplier.discoverLinks targets h).devices =
      AHCI_Multiplier.discover h.devices.next targets (h.devices.new false) := by
  suffices hall : ∀ (targets : List (List ScsiDriver)) (h' : LinkHeap P),
      h.devices.next < h'.devices.next →
        (targets.foldl (AHCI_Multiplier.attachEndDeviceLinks h.devices.next) h').devices =
          AHCI_Multiplier.discover h.devices.next targets h'.devices from
    hall targets (h.newReached false) (Nat.lt_succ_self _)
  intro targets
  induction targets with
  | nil => exact fun _ _ => rfl
  | cons target targets ih =>
      intro h' hlt
      have hstep := devices_attachEndDevice hlt target
      have hnext : h'.devices.next ≤
          (AHCI_Multiplier.attachEndDeviceLinks h.devices.next h' target).devices.next := by
        rw [hstep]
        unfold AHCI_Multiplier.attachEndDevice
        split
        · exact Nat.le_succ _
        · exact Nat.le_refl _
      rw [List.foldl_cons, ih _ (hlt.trans_le hnext), hstep]
      rfl

/-- What is behind a phy gets the controller as its parent and is attached to it. -/
theorem devices_phy (hl : h.Linked []) (hc : c < h.devices.next) (hroutes : h.isEndDevice c = false)
    {discover : LinkHeap P → LinkHeap P} (hdiscovery : Discovery discover) (isEndDevice : Bool)
    {discovered : DeviceHeap}
    (hdevices : ∀ (h₁ : LinkHeap P) pending, h₁.Linked pending → h₁.devices = h.devices →
      (discover h₁).devices = discovered ∧
        (discover h₁).isEndDevice h₁.devices.next = isEndDevice) :
    (((h.newPhy c none).listPhy c h.nextPhy).discoverBehind c h.nextPhy (some discover)).devices =
      DevicePort.attachPort ⟨c⟩ (discovered.setParent h.devices.next c)
        (if isEndDevice then .endDevice h.devices.next else .routingDevice h.devices.next) := by
  have hphy := hl.newPhy_listPhy none hc hroutes
  have hloose := (loose_newPort hphy hc hroutes none).attachPhy (x := h.nextPhy)
  have hattached := (hphy.newPort hc none fun _ _ _ _ => .inl rfl).attachPhy (x := h.nextPhy)
    (Nat.lt_succ_self _) (Nat.lt_succ_self _) (by simp [newPort, newPhy, listPhy])
    (by simp [newPort, newPhy, listPhy]) (by simp [newPort, newPhy, listPhy])
  unfold discoverBehind
  dsimp only
  generalize hown :
    (((h.newPhy c none).listPhy c h.nextPhy).newPort c none).attachPhy _ h.nextPhy = h₁ at *
  have hsame : h₁.devices = h.devices := by
    rw [← hown]
    rfl
  obtain ⟨hdiscovered, hend⟩ := hdevices h₁ _ hattached hsame
  have hsetParent := keeps_setParent (discover h₁) c h₁.devices.next
  have hkeeps := (hdiscovery.keeps h₁ _ hattached).trans hsetParent (by constructor <;> simp)
  have hdetached := (hdiscovery.detached h₁ _ hattached).keeps (hdiscovery.linked h₁ _ hattached)
    hsetParent (fun _ _ h => h) (fun h => h)
  show (((discover h₁).setParent h₁.devices.next c).connect _ h₁.devices.next).devices = _
  rw [devices_connect ((hdiscovery.linked h₁ _ hattached).setParent _ c)
    (hloose.keeps hkeeps (fun h => h) (fun h => h)).parent hdetached, hsame]
  show DevicePort.attachPort ⟨c⟩ ((discover h₁).devices.setParent _ c)
    (if (discover h₁).isEndDevice _ then _ else _) = _
  rw [hdiscovered, ← hsame, hend]

/-- The discovery of an AHCI phy with its links is, on the devices, the one without. -/
theorem devices_ahciPhy (hl : h.Linked []) (hc : c < h.devices.next) (hroutes : h.isEndDevice c = false)
    (targets : List (List ScsiDriver)) :
    (AHCI_Phy.discoverLinks c h targets).devices = AHCI_Phy.discover c h.devices targets := by
  match targets with
  | [] => rfl
  | [target] =>
      unfold AHCI_Phy.discoverLinks AHCI_Phy.discover
      dsimp only
      split
      next =>
        exact devices_phy hl hc hroutes (discovery_newReached true) true fun h₁ _ _ hsame =>
          ⟨congrArg (·.new false) hsame, (devices_newReached h₁ true).2⟩
      next => rfl
  | target :: target' :: targets =>
      refine devices_phy hl hc hroutes (discovery_multiplier (target :: target' :: targets))
        false fun h₁ _ hl₁ hsame => ⟨?_, ?_⟩
      · rw [devices_multiplier, hsame]
      · exact ((linked_multiplier hl₁ _).2.isEndDevice _ (Nat.lt_succ_self _)).trans
          (devices_newReached h₁ false).2

/-- Each phy of the controller with what is behind it. -/
theorem devices_ahciPhys (hl : h.Linked []) (hc : c < h.devices.next) (hroutes : h.isEndDevice c = false)
    (phys : List (List (List ScsiDriver))) :
    (phys.foldl (AHCI_Phy.discoverLinks c) h).devices = phys.foldl (AHCI_Phy.discover c) h.devices := by
  induction phys generalizing h with
  | nil => rfl
  | cons targets phys ih =>
      obtain ⟨hlinked, hkeeps⟩ := linked_ahciPhy hl hc hroutes targets
      rw [List.foldl_cons, List.foldl_cons, ih hlinked (hc.trans_le hkeeps.next)
        ((hkeeps.isEndDevice c hc).trans hroutes), devices_ahciPhy hl hc hroutes]

end ahci

/-! ## SAS -/

end LinkHeap

section sas

variable {P : Type} [DecidableEq P]

/-- The ports that phys link to, in the order in which these come by them. -/
def linkedPaths (phys : List (Option P)) : List P := (phys.filterMap id).eraseDups

/-- What is behind a port, without ports and phys. -/
def PortDirs.sasPort : PortDirs P → P → SasPorts → SasPorts
  | nil, _, ports => .nothing ports
  | host path rest, target, ports => if target = path then .host ports else rest.sasPort target ports
  | expander path _ phys inner rest, target, ports =>
      if target = path then
        .expander ((linkedPaths phys).foldr
          (fun path ports => if inner.leadsUp path then .subtractive ports else inner.sasPort path ports)
          .nil) ports
      else rest.sasPort target ports
  | endDevice path drivers rest, target, ports =>
      if target = path then .endDevice drivers ports else rest.sasPort target ports

/-- The ports of a device; those by which `leadsUp` says that it is reached are its own. -/
def PortDirs.sasPorts (dirs : PortDirs P) (leadsUp : P → Bool) (paths : List P) : SasPorts :=
  paths.foldr (fun path ports => if leadsUp path then .subtractive ports else dirs.sasPort path ports)
    .nil

/-- What sysfs shows of a controller, without ports and phys. Disks of VMD domains are not shown. -/
def ControllerPorts.dir : ControllerPorts P → Option ControllerDir
  | ahci phys => some (.ahci phys)
  | isci phys dirs => some (.isci (dirs.sasPorts (fun _ => false) (linkedPaths phys)))
  | vmd _ => none

/-- Another port changes nothing about whether there is a subtractive one. -/
theorem PortDirs.hasSubtractive_sasPort (dirs : PortDirs P) (target : P) (ports : SasPorts) :
    (dirs.sasPort target ports).hasSubtractive = ports.hasSubtractive := by
  induction dirs with
  | nil => rfl
  | host path rest ih =>
      unfold PortDirs.sasPort
      split
      next => rfl
      next => exact ih
  | expander path above phys inner rest _ ih =>
      unfold PortDirs.sasPort
      split
      next => rfl
      next => exact ih
  | endDevice path drivers rest ih =>
      unfold PortDirs.sasPort
      split
      next => rfl
      next => exact ih

/-- There is a subtractive port iff one of the links leads up. -/
theorem PortDirs.hasSubtractive_sasPorts (dirs : PortDirs P) (leadsUp : P → Bool) (paths : List P) :
    (dirs.sasPorts leadsUp paths).hasSubtractive = paths.any leadsUp := by
  induction paths with
  | nil => rfl
  | cons path paths ih =>
      unfold PortDirs.sasPorts at ih ⊢
      rw [List.foldr_cons, List.any_cons]
      split
      next hleads =>
        rw [hleads]
        rfl
      next hleads =>
        rw [PortDirs.hasSubtractive_sasPort, ih, Bool.eq_false_of_not_eq_true hleads, Bool.false_or]

end sas

namespace LinkHeap

section sas

variable {P : Type} [DecidableEq P] {h : LinkHeap P} {d p x : Nat}

/-- The ports of a device are those of the paths so far, each once: the ones that lead away are on its
list, and its own port is one that leads up. -/
structure Shows (leadsUp : P → Bool) (d : Nat) (paths : List P) (h : LinkHeap P) : Prop where
  lt : ∀ p ∈ (h.owned d).getPorts, p < h.nextPort
  listed : (h.owned d).m_Ports.map (fun p => (h.ports p).m_Path) =
    (paths.eraseDups.filter fun path => !leadsUp path).map some
  own : (h.owned d).m_pPort.isSome = paths.any leadsUp
  up : ∀ q, (h.owned d).m_pPort = some q → ∃ path, leadsUp path = true ∧ (h.ports q).m_Path = some path

/-- Dropping repetitions, from the back: a path that is known is not listed again. -/
theorem eraseDups_concat (paths : List P) (path : P) : (paths ++ [path]).eraseDups =
    if path ∈ paths then paths.eraseDups else paths.eraseDups ++ [path] := by
  rw [List.eraseDups_append]
  split
  next hmem => simp [List.removeAll, hmem]
  next hnot => simp [List.removeAll, hnot, List.eraseDups_cons]

section shows

variable {leadsUp : P → Bool} {paths : List P} {path : P}

/-- The ports listed so far are those of the paths that do not lead up. -/
theorem Shows.mem_iff (hs : Shows leadsUp d paths h) :
    (∃ p ∈ (h.owned d).m_Ports, (h.ports p).m_Path = some path) ↔
      path ∈ paths ∧ leadsUp path = false := by
  have hmem : some path ∈ (h.owned d).m_Ports.map (fun p => (h.ports p).m_Path) ↔
      path ∈ paths ∧ leadsUp path = false := by
    rw [hs.listed]
    simp
  rw [← hmem, List.mem_map]

/-- A phy comes by a port that is there. -/
theorem Shows.attachPhy (hs : Shows leadsUp d paths h) (p x : Nat) :
    Shows leadsUp d paths (h.attachPhy p x) := by
  have hpath := fun q => (ports_attachPhy h p x q).2.2
  exact
  { lt := hs.lt
    listed := by
      simp only [hpath]
      exact hs.listed
    own := hs.own
    up := fun q hq => by
      rw [hpath]
      exact hs.up q hq }

/-- A path that is known, or leads up behind a subtractive port, leaves the ports as they are. -/
theorem Shows.of_found (hs : Shows leadsUp d paths h)
    (hold : path ∈ paths ∨ leadsUp path = true ∧ (h.owned d).m_pPort.isSome = true) :
    Shows leadsUp d (paths ++ [path]) h where
  lt := hs.lt
  listed := by
    rw [hs.listed, eraseDups_concat]
    rcases hold with hmem | ⟨hleads, -⟩
    · rw [if_pos hmem]
    · split
      · rfl
      · simp [hleads]
  own := by
    rw [List.any_append]
    rcases hold with hmem | ⟨hleads, hown⟩
    · rw [hs.own]
      rcases hleads : leadsUp path
      · simp [hleads]
      · simp [List.any_eq_true.mpr ⟨path, hmem, hleads⟩]
    · simp [hown, hleads]
  up := hs.up

/-- A phy makes its port. -/
theorem Shows.newPort_setPort (hs : Shows leadsUp d paths h) (hleads : leadsUp path = true) :
    Shows leadsUp d (paths ++ [path]) ((h.newPort d (some path)).setPort d h.nextPort) where
  lt p hp := by
    have hlt := hs.lt p
    simp only [setPort, newPort, Function.update_self, DevicePorts.getPorts, List.mem_append] at hp hlt ⊢
    rcases hp with hp | hp
    · exact (hlt (.inl hp)).trans (Nat.lt_succ_self _)
    · obtain rfl : p = h.nextPort := by simpa using hp
      exact Nat.lt_succ_self _
  listed := by
    have hold : (h.owned d).m_Ports.map (fun p => ((h.newPort d (some path)).ports p).m_Path) =
        (h.owned d).m_Ports.map (fun p => (h.ports p).m_Path) := List.map_congr_left fun p hp => by
      have hlt := hs.lt p (List.mem_append_left _ hp)
      simp only [newPort, Function.update_of_ne (Nat.ne_of_lt hlt)]
    rw [eraseDups_concat]
    have hsame : ((h.newPort d (some path)).setPort d h.nextPort).owned d =
        { h.owned d with m_pPort := some h.nextPort } := Function.update_self ..
    rw [hsame]
    refine (hold.trans hs.listed).trans ?_
    split
    · rfl
    · simp [hleads]
  own := by simp [setPort, hleads]
  up q hq := by
    obtain rfl : h.nextPort = q := by simpa [setPort] using hq
    exact ⟨path, hleads, by simp [setPort, newPort]⟩

/-- A path that is new and does not lead up gets a port of its own at the end of the list. -/
theorem Shows.newPort_listPort (hs : Shows leadsUp d paths h) (hleads : leadsUp path = false)
    (hnew : path ∉ paths) :
    Shows leadsUp d (paths ++ [path]) ((h.newPort d (some path)).listPort d h.nextPort) where
  lt p hp := by
    have hlt := hs.lt p
    simp only [listPort, newPort, Function.update_self, DevicePorts.getPorts,
      List.mem_append] at hp hlt ⊢
    rcases hp with (hp | hp) | hp
    · exact (hlt (.inl hp)).trans (Nat.lt_succ_self _)
    · obtain rfl := List.mem_singleton.mp hp
      exact Nat.lt_succ_self _
    · exact (hlt (.inr hp)).trans (Nat.lt_succ_self _)
  listed := by
    have hold : (h.owned d).m_Ports.map (fun p => ((h.newPort d (some path)).ports p).m_Path) =
        (h.owned d).m_Ports.map (fun p => (h.ports p).m_Path) := List.map_congr_left fun p hp => by
      have hlt := hs.lt p (List.mem_append_left _ hp)
      simp only [newPort, Function.update_of_ne (Nat.ne_of_lt hlt)]
    have hsame : ((h.newPort d (some path)).listPort d h.nextPort).owned d =
        { h.owned d with m_Ports := (h.owned d).m_Ports ++ [h.nextPort] } := Function.update_self ..
    rw [eraseDups_concat, if_neg hnew, hsame, List.map_append, List.filter_append, List.map_append]
    refine congrArg₂ _ (hold.trans hs.listed) ?_
    simp [listPort, newPort, hleads]
  own := by
    rw [List.any_append, ← hs.own]
    simp [listPort, newPort, hleads]
  up q hq := by
    have hq' : (h.owned d).m_pPort = some q := by simpa [listPort, newPort] using hq
    have hlt := hs.lt q (List.mem_append_right _ (by simp [hq']))
    simp only [listPort, newPort, Function.update_of_ne (Nat.ne_of_lt hlt)]
    exact hs.up q hq'

/-- One phy keeps the invariant: its link is added to the paths that have been seen. -/
theorem Shows.discover (hs : Shows leadsUp d paths h) (x : Nat) :
    Shows leadsUp d (paths ++ (h.phys x).port.toList) (SAS_Phy.discover leadsUp d h x) := by
  unfold SAS_Phy.discover
  rcases hx : (h.phys x).port with _ | path
  · simpa using hs
  rcases hfound : h.getPortByPath d path with _ | p
  · simp only [hfound, Option.toList_some]
    split
    next hleads => exact (hs.newPort_setPort hleads).attachPhy _ x
    next hleads =>
      rw [Bool.not_eq_true] at hleads
      refine (hs.newPort_listPort hleads fun hmem => ?_).attachPhy _ x
      obtain ⟨p, hp, hpath⟩ := hs.mem_iff.mpr ⟨hmem, hleads⟩
      exact List.find?_eq_none.mp hfound p (List.mem_append_left _ hp) (decide_eq_true hpath)
  · simp only [hfound, Option.toList_some]
    refine (hs.of_found ?_).attachPhy p x
    have hpath : (h.ports p).m_Path = some path := by simpa using List.find?_some hfound
    rcases List.mem_append.mp (List.mem_of_find?_eq_some hfound) with hp | hp
    · exact .inl (hs.mem_iff.mp ⟨p, hp, hpath⟩).1
    · have hown : (h.owned d).m_pPort = some p := by simpa using hp
      obtain ⟨path', hleads, hpath'⟩ := hs.up p hown
      obtain rfl := Option.some.inj (hpath.symm.trans hpath')
      exact .inr ⟨hleads, by rw [hown]; rfl⟩

/-- Where a phy links to is not changed. -/
theorem port_discover (leadsUp : P → Bool) (d : Nat) (h : LinkHeap P) (x y : Nat) :
    ((SAS_Phy.discover leadsUp d h x).phys y).port = (h.phys y).port := by
  unfold SAS_Phy.discover
  split
  · rfl
  · split
    · simp only [LinkHeap.attachPhy, Function.update_apply]
      grind
    · dsimp only
      split <;>
      · simp only [LinkHeap.attachPhy, setPort, listPort, newPort, Function.update_apply]
        grind

/-- By induction over the phys, all links of the device have been seen in the end. -/
theorem Shows.foldl (hs : Shows leadsUp d paths h) (phys : List Nat) :
    Shows leadsUp d (paths ++ phys.filterMap fun x => (h.phys x).port)
      (phys.foldl (SAS_Phy.discover leadsUp d) h) := by
  induction phys generalizing h paths with
  | nil => simpa using hs
  | cons x phys ih =>
      have hrest := ih (hs.discover x)
      simp only [port_discover] at hrest
      rw [List.foldl_cons, List.filterMap_cons]
      rcases hx : (h.phys x).port with _ | path
      · simpa [hx] using hrest
      · simpa [hx] using hrest

end shows

omit [DecidableEq P] in
/-- The phys of a new device are on its list, in the order of sysfs. -/
theorem newPhys_listed (d : Nat) (ports : List (Option P)) {h : LinkHeap P}
    (hlt : ∀ x ∈ (h.owned d).m_Phys, x < h.nextPhy) :
    ((h.newPhys d ports).owned d).m_Phys.map (fun x => ((h.newPhys d ports).phys x).port) =
      (h.owned d).m_Phys.map (fun x => (h.phys x).port) ++ ports := by
  unfold newPhys
  induction ports generalizing h with
  | nil => simp
  | cons port ports ih =>
      rw [List.foldl_cons, ih]
      · have hold : (h.owned d).m_Phys.map
              (fun x => (((h.newPhy d port).listPhy d h.nextPhy).phys x).port) =
            (h.owned d).m_Phys.map fun x => (h.phys x).port := List.map_congr_left fun x hx => by
          have hne := Nat.ne_of_lt (hlt x hx)
          simp only [newPhy, listPhy, Function.update_of_ne hne]
        have hlisted : (((h.newPhy d port).listPhy d h.nextPhy).owned d).m_Phys =
            (h.owned d).m_Phys ++ [h.nextPhy] := by simp [newPhy, listPhy]
        rw [hlisted, List.map_append, hold, List.append_assoc]
        simp [newPhy, listPhy]
      · intro x hx
        simp only [newPhy, listPhy, Function.update_self, List.mem_append, List.mem_singleton] at hx ⊢
        rcases hx with hx | rfl
        · exact (hlt x hx).trans (Nat.lt_succ_self _)
        · exact Nat.lt_succ_self _

/-- New phys on a device change nothing about its ports. -/
theorem Shows.newPhys {leadsUp : P → Bool} {paths : List P} (hs : Shows leadsUp d paths h)
    (ports : List (Option P)) : Shows leadsUp d paths (h.newPhys d ports) := by
  unfold LinkHeap.newPhys
  induction ports generalizing h with
  | nil => exact hs
  | cons port ports ih =>
      refine ih ?_
      exact
      { lt := by simpa [newPhy, listPhy, DevicePorts.getPorts] using hs.lt
        listed := by simpa [newPhy, listPhy] using hs.listed
        own := by simpa [newPhy, listPhy] using hs.own
        up := by simpa [newPhy, listPhy] using hs.up }

/-- A new device shows the ports that its phys link to. -/
theorem shows_phys (leadsUp : P → Bool) (hd : h.owned d = .empty) (phys : List (Option P)) :
    Shows leadsUp d (phys.filterMap id) (h.discoverPhys (SAS_Phy.discover leadsUp d) d phys) := by
  have hempty : Shows leadsUp d [] h := by
    constructor <;> simp [hd, DevicePorts.empty, DevicePorts.getPorts]
  have hshows := (hempty.newPhys phys).foldl ((h.newPhys d phys).owned d).m_Phys
  have hlisted : ((h.newPhys d phys).owned d).m_Phys.map (fun x => ((h.newPhys d phys).phys x).port) =
      phys := by simpa [hd, DevicePorts.empty] using
    newPhys_listed d phys (h := h) (by simp [hd, DevicePorts.empty])
  have hpaths : (((h.newPhys d phys).owned d).m_Phys.filterMap
      fun x => ((h.newPhys d phys).phys x).port) = phys.filterMap id := by
    conv_rhs => rw [← hlisted, List.filterMap_map]
    rfl
  rwa [hpaths] at hshows

/-! ## Behind a port -/

/-- The discovery of a port does to devices what is shown of the port. -/
def PortAgrees (discoverPort : Nat → LinkHeap P → Except Fault (LinkHeap P))
    (shown : SasPorts → SasPorts) : Prop :=
  ∀ {h : LinkHeap P} {d p : Nat}, h.Linked [] → Loose d p h → ∀ rest : SasPorts,
    ((discoverPort p h).bind fun h' => rest.discover d h'.devices) = (shown rest).discover d h.devices

omit [DecidableEq P] in
/-- The ports on the list of a device give what is shown of them, one by one. -/
theorem devices_ports {discoverPort : Option P → Nat → LinkHeap P → Except Fault (LinkHeap P)}
    {sasPort : P → SasPorts → SasPorts} (hdiscovers : ∀ path, DiscoversPort (discoverPort path))
    (hagrees : ∀ path, PortAgrees (discoverPort (some path)) (sasPort path)) {leadsUp : P → Bool}
    (paths : List P) {ports : List Nat} (hl : h.Linked []) (hnodup : ports.Nodup)
    (hports : ∀ q ∈ ports, Loose d q h) (hpaths : ports.map (fun p => (h.ports p).m_Path) =
      (paths.filter fun path => !leadsUp path).map some) :
    ((ports.foldlM (fun h q => discoverPort (h.ports q).m_Path q h) h).map fun h' => h'.devices) =
      (paths.foldr (fun path rest => if leadsUp path then .subtractive rest else sasPort path rest)
        .nil).discover d h.devices := by
  induction paths generalizing h ports with
  | nil =>
      obtain rfl : ports = [] := by simpa using hpaths
      rfl
  | cons path paths ih =>
      rw [List.foldr_cons]
      rcases hleads : leadsUp path
      · obtain ⟨q, ports, rfl, hq, hpaths⟩ : ∃ q ports', ports = q :: ports' ∧
            (h.ports q).m_Path = some path ∧ ports'.map (fun p => (h.ports p).m_Path) =
              (paths.filter fun path => !leadsUp path).map some := by
          rcases ports with _ | ⟨q, ports⟩
          · simp [hleads] at hpaths
          · simp only [hleads, List.filter_cons, List.map_cons, Bool.not_false, if_true,
              List.cons.injEq] at hpaths
            exact ⟨q, ports, rfl, hpaths⟩
        obtain ⟨hnotMem, hnodup⟩ := List.nodup_cons.mp hnodup
        have hloose := hports q List.mem_cons_self
        rw [if_neg Bool.false_ne_true, ← hagrees path hl hloose, List.foldlM_cons, hq]
        rcases hfound : discoverPort (some path) q h with fault | h₁
        · rfl
        · obtain ⟨hlinked, hkeeps⟩ := hdiscovers _ hl hloose hfound
          have hne : ∀ q' ∈ ports, q' ≠ q := fun q' hq' heq => hnotMem (heq ▸ hq')
          refine ih hlinked hnodup (fun q' hq' => ?_) ?_
          · exact (hports q' (List.mem_cons_of_mem _ hq')).keeps hkeeps (hne q' hq') (fun h => h)
          · rw [← hpaths]
            refine List.map_congr_left fun q' hq' => ?_
            rw [(hkeeps.ports q' (hports q' (List.mem_cons_of_mem _ hq')).lt (hne q' hq')).1]
      · rw [if_pos rfl]
        exact ih hl hnodup hports (by simpa [hleads] using hpaths)

/-- A device with phys gives what is shown of its ports. -/
theorem Routes.devices {isController : Bool} {h₀ : LinkHeap P} (hr : Routes h₀ d isController h)
    {leadsUp : P → Bool} {phys : List (Option P)} (hs : Shows leadsUp d (phys.filterMap id) h)
    {dirs : PortDirs P} (hagrees : ∀ path, PortAgrees (fun p h => dirs.discoverPort (some path) p h)
      (dirs.sasPort path)) :
    (((h.owned d).m_Ports.foldlM (fun h q => dirs.discoverPort (h.ports q).m_Path q h) h).map
      fun h' => h'.devices) = (dirs.sasPorts leadsUp (linkedPaths phys)).discover d h.devices :=
  devices_ports (linked_discoverPort dirs) hagrees _ hr.linked hr.nodup hr.loose hs.listed

omit [DecidableEq P] in
/-- New phys change nothing about the devices. -/
theorem devices_newPhys (h : LinkHeap P) (d : Nat) (phys : List (Option P)) :
    (h.newPhys d phys).devices = h.devices := by
  unfold newPhys
  induction phys generalizing h with
  | nil => rfl
  | cons port phys ih => exact ih _

/-- Phys that come by their ports leave the devices as they are. -/
theorem devices_discoverPhys (leadsUp : P → Bool) (d : Nat) (h : LinkHeap P) (phys : List (Option P)) :
    (h.discoverPhys (SAS_Phy.discover leadsUp d) d phys).devices = h.devices := by
  unfold discoverPhys
  dsimp only
  rw [← devices_newPhys h d phys]
  generalize h.newPhys d phys = h₁
  generalize (h₁.owned d).m_Phys = xs
  induction xs generalizing h₁ with
  | nil => rfl
  | cons x phys ih =>
      rw [List.foldl_cons, ih]
      unfold SAS_Phy.discover
      split
      next => rfl
      next =>
        split
        next => rfl
        next =>
          dsimp only
          split <;> rfl

/-- Repetitions do not matter to the question whether a link leads up. -/
theorem any_linkedPaths (phys : List (Option P)) (leadsUp : P → Bool) :
    (linkedPaths phys).any leadsUp = (phys.filterMap id).any leadsUp := by
  rw [Bool.eq_iff_iff, List.any_eq_true, List.any_eq_true]
  simp [linkedPaths]

/-- An expander shows its ports, and is the only new device so far. -/
theorem shows_expander (hl : h.Linked []) (c : Nat) (inner : PortDirs P) (phys : List (Option P)) :
    let linked := ((h.newDevice false false).setParent h.devices.next c).discoverPhys
      (ISCI_Expander_Phy.discover inner h.devices.next) h.devices.next phys
    Shows (fun path => inner.leadsUp path) h.devices.next (phys.filterMap id) linked ∧
      linked.devices = (h.devices.new false).setParent h.devices.next c := by
  obtain ⟨hr, howned⟩ := routes_newDevice hl false
  exact ⟨shows_phys (fun path => inner.leadsUp path) (hr.setParent howned c).2 phys,
    devices_discoverPhys (fun path => inner.leadsUp path) h.devices.next _ phys⟩

omit [DecidableEq P] in
/-- An end device behind a port is attached to the device of the port. -/
theorem devices_endDevice (hl : h.Linked []) (hp : Loose d p h) :
    ((h.newEndDevice.setParent h.devices.next d).connect p h.devices.next).devices =
      DevicePort.attachPort ⟨d⟩ ((h.devices.new false).setParent h.devices.next d)
        (.endDevice h.devices.next) := by
  have hnew : h.newEndDevice.Linked [] := linked_newReached hl true
  have hsetParent := keeps_setParent h.newEndDevice d h.devices.next
  have hkeeps := (keeps_newReached hl true).trans hsetParent (by constructor <;> simp)
  have hdetached := (detached_newReached true).keeps hnew hsetParent (fun _ _ h => h) (fun h => h)
  have hend := (hsetParent.isEndDevice _ (Nat.lt_succ_self _)).trans (devices_newReached h true).2
  rw [devices_connect (hnew.setParent h.devices.next d)
    (hp.keeps hkeeps (fun h => h) (fun h => h)).parent hdetached, if_pos hend]
  rfl

/-- What is behind a port is attached to the device of the port. -/
theorem devices_discoverPort (dirs : PortDirs P) (target : P) :
    PortAgrees (fun p h => dirs.discoverPort (some target) p h) (dirs.sasPort target) := by
  induction dirs generalizing target with
  | nil => exact fun _ _ _ => rfl
  | host path rest ih =>
      intro h d p hl hp ports
      simp only [PortDirs.discoverPort, PortDirs.sasPort, Option.some.injEq]
      by_cases heq : target = path
      · rw [if_pos heq, if_pos heq]
        rfl
      · rw [if_neg heq, if_neg heq]
        exact ih target hl hp ports
  | endDevice path drivers rest ih =>
      intro h d p hl hp ports
      simp only [PortDirs.discoverPort, PortDirs.sasPort, Option.some.injEq]
      by_cases heq : target = path
      · rw [if_pos heq, if_pos heq]
        rw [SasPorts.discover]
        generalize List.find? _ drivers = found
        rcases found with _ | driver
        · rfl
        dsimp only
        split
        next =>
          rw [hp.parent]
          exact congrArg (SasPorts.discover d ports) (devices_endDevice hl hp)
        next => rfl
      · rw [if_neg heq, if_neg heq]
        exact ih target hl hp ports
  | expander path above phys inner rest ihinner ih =>
      intro h d p hl hp ports
      simp only [PortDirs.discoverPort, PortDirs.sasPort, Option.some.injEq]
      by_cases heq : target = path
      · rw [if_pos heq, if_pos heq, hp.parent]
        have hr := routes_expander hl d inner phys
        obtain ⟨hs, hdevices⟩ := shows_expander hl d inner phys
        generalize discoverPhys (ISCI_Expander_Phy.discover inner h.devices.next) _ _ _ = linked at *
        have hports := hr.devices hs ihinner
        rw [hdevices] at hports
        rw [SasPorts.discover]
        change _ = (((inner.sasPorts (fun path => inner.leadsUp path) (linkedPaths phys)).discover
          h.devices.next ((h.devices.new false).setParent h.devices.next d)).bind fun discovered =>
            if (inner.sasPorts (fun path => inner.leadsUp path) (linkedPaths phys)).hasSubtractive then
              ports.discover d (DevicePort.attachPort ⟨d⟩ discovered (.routingDevice h.devices.next))
            else .error .nullDereference)
        rw [← hports, PortDirs.hasSubtractive_sasPorts, any_linkedPaths, ← hs.own]
        rcases hdiscovered : (linked.owned h.devices.next).m_Ports.foldlM
          (fun h q => inner.discoverPort (h.ports q).m_Path q h) linked with fault | h₁
        · rfl
        obtain ⟨hlinked, hkeeps, hlt, hroutes, -, hown, hfree⟩ :=
          hr.ports hl (linked_discoverPort inner) hdiscovered
        change (if (h₁.owned h.devices.next).m_pPort.isSome then Except.ok (h₁.connect p h.devices.next)
          else Except.error Fault.nullDereference).bind _ = if _ then _ else _
        rw [hown]
        split
        next hsome =>
          obtain ⟨q, hq⟩ := Option.isSome_iff_exists.mp hsome
          have hdetached : Detached h.devices.next h₁ :=
            ⟨hlt, q, hown.trans hq, (hfree q (hown.trans hq)).2⟩
          have hconnected := devices_connect hlinked
            (hp.keeps hkeeps (fun h => h) (fun h => h)).parent hdetached
          rw [if_neg (by simp [hroutes])] at hconnected
          exact congrArg (SasPorts.discover d ports) hconnected
        next => rfl
      · rw [if_neg heq, if_neg heq]
        exact ih target hl hp ports

/-! ## Controllers -/

/-- The discovery of a controller with its ports does to devices what the one without them does. -/
theorem devices_discover (hl : h.Linked []) {dir : ControllerPorts P} {shown : ControllerDir}
    (hdir : dir.dir = some shown) :
    ((dir.discover h).map fun h' => h'.devices) = shown.discover h.devices := by
  obtain ⟨hr, howned⟩ := routes_newDevice hl true
  cases dir with
  | ahci phys =>
      obtain rfl := Option.some.inj hdir
      exact congrArg Except.ok (devices_ahciPhys hr.linked hr.there hr.routes phys)
  | isci phys dirs =>
      obtain rfl := Option.some.inj hdir
      have hports := (routes_controller hl phys).devices
        (shows_phys (fun _ => false) howned phys) (devices_discoverPort dirs)
      have hdevices : ((h.newDevice true false).discoverPhys (ISCI_Phy.discover h.devices.next)
          h.devices.next phys).devices = h.devices.new true :=
        devices_discoverPhys (fun _ => false) _ _ phys
      rwa [hdevices] at hports
  | vmd disks => cases hdir

/-- **Both discoveries give the same devices.** Whatever AHCI and ISCI controllers there are, the
discovery with ports and phys ends without a fault iff the other one does, with the same fault
otherwise, and the devices have the same parents and lists. -/
theorem devices_initialized (hl : h.Linked []) {dirs : List (ControllerPorts P)}
    {shown : List ControllerDir} (hdirs : dirs.map ControllerPorts.dir = shown.map some) :
    ((initialized dirs h).map fun r => r.1.devices) =
      (discoverControllers shown h.devices).map fun r => r.1 := by
  induction dirs generalizing h shown with
  | nil =>
      obtain rfl : shown = [] := by simpa using hdirs
      rfl
  | cons dir dirs ih =>
      rcases shown with _ | ⟨dir', shown⟩
      · simp at hdirs
      obtain ⟨hdir, hdirs⟩ := List.cons.inj hdirs
      have hdevices := devices_discover hl hdir
      unfold initialized discoverControllers
      rw [← hdevices]
      rcases hfound : dir.discover h with fault | h₁
      · rfl
      have hrest := ih (linked_discover hl hfound).1 hdirs
      show Except.map _ ((initialized dirs h₁).bind _) =
        Except.map _ ((discoverControllers shown h₁.devices).bind _)
      rcases hinit : initialized dirs h₁ with fault | r <;>
        rcases hinit' : discoverControllers shown h₁.devices with fault' | r' <;>
        rw [hinit, hinit'] at hrest
      · exact congrArg Except.error (Except.error.inj hrest)
      · cases hrest
      · cases hrest
      · exact congrArg Except.ok (Except.ok.inj hrest)

end sas

end LinkHeap

end Irstessi
