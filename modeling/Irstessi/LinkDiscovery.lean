import Irstessi.LinkInvariant

/-!
# The discovery of ports and phys

Each function of the discovery keeps the invariant and changes nothing but what it is about.

* `Detached`: a device that is not attached to anything; `Loose`: a port with nothing behind it.
* `Linked.connect`: the port of one is connected to the other.
* `Discovery`: the results of a function that discovers a device.
* `linked_phys`: SAS phys come by their ports; `Routes`: a device with its phys and ports, to which
  nothing is attached yet.
* `linked_discoverPort`: what is behind a SAS port.
* **`linked_discover`**: the discovery of a controller keeps the invariant and changes nothing older.

A device that has been reached is made, discovered with all that is behind it, and only then connected
to the port in front of it. So the invariant has to hold of a heap with a device that nothing refers to
(`Detached`) and with a port to which nothing is connected (`Loose`), and every function has to leave
such things as they are if they are older: that is `Keeps`, which says what a function may touch. Both
are proved together, in the order of the discovery: one phy, the phys of a device, a SAS port, and the
recursion over expanders, whose induction is over what the directories show.
-/

namespace Irstessi

namespace LinkHeap

variable {P : Type}

/-! ## Ports before and behind -/

/-- The device is there, with the port by which it is reached, which is not connected. -/
structure Detached (x : Nat) (h : LinkHeap P) : Prop where
  lt : x < h.devices.next
  own : ∃ q, (h.owned x).m_pPort = some q ∧ (h.ports q).m_pRemotePort = none

/-- The port of a controller or a routing device is there, leads away from it and is not connected. -/
structure Loose (d p : Nat) (h : LinkHeap P) : Prop where
  lt : p < h.nextPort
  alive : h.destroyed p = false
  free : (h.ports p).m_pRemotePort = none
  parent : (h.ports p).m_pParent = d
  away : (h.owned d).m_pPort ≠ some p
  there : d < h.devices.next
  routes : h.isEndDevice d = false

section loose

variable {h h' : LinkHeap P} {t : Touched} {pending : List Nat} {d p x : Nat}

/-- A loose port stays loose under steps that touch neither it nor its device's own port. -/
theorem Loose.keeps (hp : Loose d p h) (hk : Keeps t h h') (hport : ¬ t.ports p) (hown : ¬ t.own d) :
    Loose d p h' := by
  obtain ⟨hlt, halive, hfree, hparent, haway, hd, hroutes⟩ := hp
  obtain ⟨hsame, hdestroyed⟩ := hk.ports p hlt hport
  exact ⟨hlt.trans_le hk.nextPort, hdestroyed.trans halive, by rwa [hsame], by rwa [hsame],
    by rwa [hk.own d hd hown], hd.trans_le hk.next, (hk.isEndDevice d hd).trans hroutes⟩

/-- A detached device stays detached under steps that touch neither its front port nor itself. -/
theorem Detached.keeps (hl : h.Linked pending) (hx : Detached x h) (hk : Keeps t h h')
    (hports : ∀ q, (h.owned x).m_pPort = some q → ¬ t.ports q) (hown : ¬ t.own x) : Detached x h' := by
  obtain ⟨hlt, q, hq, hfree⟩ := hx
  refine ⟨hlt.trans_le hk.next, q, (hk.own x hlt hown).trans hq, ?_⟩
  rw [(hk.ports q (hl.own hq).1 (hports q hq)).1]
  exact hfree

/-- A new port is loose: it is there, free and on no list yet. -/
theorem loose_newPort (hl : h.Linked pending) (hd : d < h.devices.next)
    (hroutes : h.isEndDevice d = false) (path : Option P) : Loose d h.nextPort (h.newPort d path) where
  lt := Nat.lt_succ_self _
  alive := hl.undestroyed _ (le_refl _)
  free := by simp [newPort]
  parent := by simp [newPort]
  away := fun hown => absurd (hl.own hown).1 (Nat.lt_irrefl _)
  there := hd
  routes := hroutes

/-- A port stays loose when phys are associated with it. -/
theorem Loose.attachPhy (hp : Loose d p h) : Loose d p (h.attachPhy p x) where
  lt := hp.lt
  alive := hp.alive
  free := (ports_attachPhy h p x p).2.1.trans hp.free
  parent := (ports_attachPhy h p x p).1.trans hp.parent
  away := hp.away
  there := hp.there
  routes := hp.routes

/-- A port that leads away is connected to a device that is younger than its own. -/
theorem Linked.connect (hl : h.Linked pending) (hp : Loose d p h) (hx : Detached x h) (hlt : d < x) :
    (h.connect p x).Linked pending := by
  obtain ⟨hxlt, q, hq, hfree⟩ := hx
  have hparent := hp.parent
  subst hparent
  unfold LinkHeap.connect
  rw [hq]
  exact hl.attachPort hp.lt hp.alive hp.free hp.away hq hfree hlt hxlt hp.routes

/-- Connecting destroys no port. -/
theorem destroyed_connect (h : LinkHeap P) (p x : Nat) : (h.connect p x).destroyed = h.destroyed := by
  unfold LinkHeap.connect
  split <;> rfl

/-- Only the two ports and the lists of the port's device are changed. -/
theorem keeps_connect (hp : (h.ports p).m_pParent = d) :
    Keeps { lists := (· = d), ports := fun p' => p' = p ∨ (h.owned x).m_pPort = some p' } h
      (h.connect p x) := by
  unfold LinkHeap.connect
  rcases hq : (h.owned x).m_pPort with _ | q
  · exact .rfl
  · subst hp
    exact (keeps_attachPort h p q).mono
      ⟨fun _ _ h => h, fun _ _ h => h, fun _ _ h => h, by grind, fun _ _ h => h⟩

/-- A device that is newer than a port is connected to it. Of what is as old as the port only the port
and the lists of its device are changed. -/
theorem linked_behind {h₁ : LinkHeap P} (hl : h₁.Linked pending) (hp : Loose d p h)
    (hkeeps : Keeps {} h h₁) (hx : Detached x h₁) (hnew : h.devices.next ≤ x)
    (hown : ∀ q, (h₁.owned x).m_pPort = some q → h.nextPort ≤ q) :
    (h₁.connect p x).Linked pending ∧
      Keeps { lists := (· = d), ports := (· = p) } h (h₁.connect p x) := by
  have hp₁ := hp.keeps hkeeps (fun h => h) (fun h => h)
  refine ⟨hl.connect hp₁ hx (hp.there.trans_le hnew), ?_⟩
  have hkept : Keeps { lists := (· = d), ports := (· = p) } h h₁ := hkeeps.mono (by constructor <;> simp)
  refine hkept.trans (keeps_connect hp₁.parent) ⟨fun _ _ h => h, fun _ _ h => h, fun _ _ h => h, ?_,
    fun _ _ h => h⟩
  rintro q hq (rfl | hq')
  · rfl
  · exact absurd hq (Nat.not_lt.mpr (hown q hq'))

end loose

/-! ## Devices with a port by which they are reached -/

/-- What a function does that discovers a device: the device and its port are new, and nothing older is
changed. -/
structure Discovery (discover : LinkHeap P → LinkHeap P) : Prop where
  linked : ∀ h pending, h.Linked pending → (discover h).Linked pending
  keeps : ∀ h pending, h.Linked pending → Keeps {} h (discover h)
  detached : ∀ h pending, h.Linked pending → Detached h.devices.next (discover h)
  own : ∀ h pending, h.Linked pending →
    ((discover h).owned h.devices.next).m_pPort = some h.nextPort

section devices

variable {h : LinkHeap P} {pending : List Nat}

/-- A device that has just been reached keeps the invariant. -/
theorem linked_newReached (hl : h.Linked pending) (isEndDevice : Bool) :
    (h.newReached isEndDevice).Linked pending := by
  obtain ⟨hunowned, -, -, -⟩ := hl.unowned h.devices.next (le_refl _)
  have hdevice := hl.newDevice false isEndDevice
  have hphy := hdevice.newPhy_setPhy (d := h.devices.next) none (Nat.lt_succ_self _)
    (Function.update_self ..) (by show (h.owned _).m_pPhy = none; rw [hunowned]; rfl)
  have hport := hphy.newPort (d := h.devices.next) (Nat.lt_succ_self _) none fun _ _ _ _ => .inl rfl
  have hset := hport.setPort_of_none (d := h.devices.next)
    (fun hmem => absurd (hl.pending_lt _ hmem) (Nat.lt_irrefl _)) (hl.undestroyed h.nextPort (le_refl _))
    (by simp [newPort, newPhy, setPhy, LinkHeap.newDevice]) (Nat.lt_succ_self _)
    (by simp [newPort, newPhy, setPhy, LinkHeap.newDevice]) (Function.update_self ..)
    (by simp [newPort, newPhy, setPhy, LinkHeap.newDevice, hunowned, DevicePorts.empty])
  refine hset.attachPhy (Nat.lt_succ_self _) (Nat.lt_succ_self _) ?_ ?_ ?_
  · simp [setPort, newPort, newPhy, setPhy, LinkHeap.newDevice]
  · simp [setPort, newPort, newPhy, setPhy, LinkHeap.newDevice]
  · simp [setPort, newPort, newPhy, setPhy, LinkHeap.newDevice]

/-- Reaching a device touches nothing that was there. -/
theorem keeps_newReached (hl : h.Linked pending) (isEndDevice : Bool) :
    Keeps {} h (h.newReached isEndDevice) := by
  obtain ⟨hunowned, -, -, -⟩ := hl.unowned h.devices.next (le_refl _)
  have hdevice := keeps_newDevice h false isEndDevice
  have hphy := hdevice.trans (keeps_newPhy _ h.devices.next none) (by constructor <;> simp)
  have hsetPhy := hphy.trans (keeps_setPhy _ h.devices.next h.nextPhy) (by constructor <;> grind)
  have hport := hsetPhy.trans (keeps_newPort _ h.devices.next none) (by constructor <;> simp)
  have hset := hport.trans (keeps_setPort _ h.devices.next h.nextPort) (by
    constructor <;>
      simp [newPort, newPhy, setPhy, LinkHeap.newDevice, hunowned, DevicePorts.empty] <;> omega)
  exact hset.trans (keeps_attachPhy _ h.nextPort h.nextPhy) (by constructor <;> grind)

/-- A device that has been reached has a front port. -/
theorem own_newReached (isEndDevice : Bool) :
    ((h.newReached isEndDevice).owned h.devices.next).m_pPort = some h.nextPort := by
  simp [newReached, attachPhy, setPort]

/-- The front port of a device that has been reached is not connected yet. -/
theorem detached_newReached (isEndDevice : Bool) :
    Detached h.devices.next (h.newReached isEndDevice) := by
  refine ⟨Nat.lt_succ_self _, h.nextPort, own_newReached isEndDevice, ?_⟩
  simp [newReached, attachPhy, setPort, newPort, newPhy, setPhy, LinkHeap.newDevice]

/-- Reaching a device is a discovery in the sense above. -/
theorem discovery_newReached (isEndDevice : Bool) :
    Discovery fun h : LinkHeap P => h.newReached isEndDevice where
  linked _ _ hl := linked_newReached hl isEndDevice
  keeps _ _ hl := keeps_newReached hl isEndDevice
  detached _ _ _ := detached_newReached isEndDevice
  own _ _ _ := own_newReached isEndDevice

variable {m : Nat}

/-- A device comes by one thing after another. -/
theorem linked_foldl {α : Type} {d : Nat} {discover : LinkHeap P → α → LinkHeap P}
    (hstep : ∀ {h : LinkHeap P} (a : α), h.Linked pending → d < h.devices.next →
      h.isEndDevice d = false →
      (discover h a).Linked pending ∧ Keeps { lists := (· = d), owned := (· = d) } h (discover h a))
    (as : List α) (hl : h.Linked pending) (hd : d < h.devices.next) (hroutes : h.isEndDevice d = false) :
    (as.foldl discover h).Linked pending ∧
      Keeps { lists := (· = d), owned := (· = d) } h (as.foldl discover h) := by
  induction as generalizing h with
  | nil => exact ⟨hl, .rfl⟩
  | cons a as ih =>
      obtain ⟨hlinked, hkeeps⟩ := hstep a hl hd hroutes
      obtain ⟨hlinked', hkeeps'⟩ := ih hlinked (hd.trans_le hkeeps.next)
        ((hkeeps.isEndDevice d hd).trans hroutes)
      exact ⟨hlinked', hkeeps.trans hkeeps' (by constructor <;> simp)⟩

/-- A new phy that is put on the list of its device. -/
theorem keeps_newPhy_listPhy (h : LinkHeap P) (d : Nat) (port : Option P) :
    Keeps { owned := (· = d) } h ((h.newPhy d port).listPhy d h.nextPhy) :=
  ((keeps_newPhy h d port).mono (by constructor <;> simp)).trans (keeps_listPhy _ d h.nextPhy)
    (by constructor <;> simp)

/-- The phy and the port of a port multiplier for a device behind it. -/
theorem keeps_newListed (h : LinkHeap P) (m : Nat) : Keeps { owned := (· = m) } h
    ((((h.newPhy m none).listPhy m h.nextPhy).newPort m none).listPort m h.nextPort |>.attachPhy
      h.nextPort h.nextPhy) := by
  have hport := (keeps_newPhy_listPhy h m none).trans (keeps_newPort _ m none) (by constructor <;> simp)
  have hlisted := hport.trans (keeps_listPort _ m h.nextPort) (by constructor <;> simp)
  exact hlisted.trans (keeps_attachPhy _ h.nextPort h.nextPhy) (by constructor <;> grind)

/-- A target of a port multiplier. -/
theorem linked_attachEndDevice (hl : h.Linked pending) (hm : m < h.devices.next)
    (hroutes : h.isEndDevice m = false) (target : List ScsiDriver) :
    (AHCI_Multiplier.attachEndDeviceLinks m h target).Linked pending ∧
      Keeps { lists := (· = m), owned := (· = m) } h
        (AHCI_Multiplier.attachEndDeviceLinks m h target) := by
  unfold AHCI_Multiplier.attachEndDeviceLinks
  split
  next =>
    have hnew := linked_newReached hl true
    have hkeeps := keeps_newReached hl true
    have hdetached : Detached h.devices.next (h.newReached true) := detached_newReached true
    have hown : ((h.newReached true).owned h.devices.next).m_pPort = some h.nextPort :=
      own_newReached true
    unfold newEndDevice
    generalize h.newReached true = h₁ at *
    have hm₁ := hm.trans_le hkeeps.next
    have hroutes₁ := (hkeeps.isEndDevice m hm).trans hroutes
    -- the phy and the port of the multiplier
    have hphy := hnew.newPhy_listPhy none hm₁ hroutes₁
    have hport := hphy.newPort hm₁ none fun _ _ _ _ => .inl rfl
    have hloose := loose_newPort hphy hm₁ hroutes₁ none
    have hlisted := hport.listPort (fun hmem => absurd (hnew.pending_lt _ hmem) (Nat.lt_irrefl _))
      hloose.alive hloose.parent hm₁ hroutes₁
    have hloose' := (hloose.keeps (keeps_listPort _ m h₁.nextPort) (fun h => h) (fun h => h)).attachPhy
      (x := h₁.nextPhy)
    have hattached := hlisted.attachPhy (x := h₁.nextPhy) (Nat.lt_succ_self _) hloose.lt
      (by simp [LinkHeap.listPort, newPort, newPhy, listPhy])
      (by simp [LinkHeap.listPort, newPort, newPhy, listPhy])
      (by simp [LinkHeap.listPort, newPort, newPhy, listPhy])
    have hkeeps₂ := keeps_newListed h₁ m
    -- the device is attached to the multiplier
    have hdetached₂ := hdetached.keeps hnew hkeeps₂ (fun _ _ h => h) (fun h => h)
    have hown₂ := (hkeeps₂.own h.devices.next hdetached.lt (fun h => h)).trans hown
    refine ⟨hattached.connect hloose' hdetached₂ hm, ?_⟩
    have hkept : Keeps { lists := (· = m), owned := (· = m) } h _ :=
      (hkeeps.mono (by constructor <;> simp)).trans hkeeps₂ (by constructor <;> simp)
    refine hkept.trans (keeps_connect hloose'.parent) ⟨fun _ _ h => h, fun _ _ h => h.elim,
      fun _ _ h => h, ?_, fun _ _ h => h⟩
    rintro p hp (rfl | hq)
    · exact absurd hp (Nat.not_lt.mpr hkeeps.nextPort)
    · rw [hown₂] at hq
      obtain rfl := Option.some.inj hq
      exact absurd hp (Nat.lt_irrefl _)
  next => exact ⟨hl, .rfl⟩

/-- A port multiplier with what is behind it. -/
theorem linked_multiplier (hl : h.Linked pending) (targets : List (List ScsiDriver)) :
    (AHCI_Multiplier.discoverLinks targets h).Linked pending ∧
      Keeps { lists := (· = h.devices.next), owned := (· = h.devices.next) } (h.newReached false)
        (AHCI_Multiplier.discoverLinks targets h) := by
  refine linked_foldl (fun target hl hm hroutes => linked_attachEndDevice hl hm hroutes target) targets
    (linked_newReached hl false) (Nat.lt_succ_self _) ?_
  simp [newReached, LinkHeap.attachPhy, setPort, newPort, newPhy, setPhy, LinkHeap.newDevice]

/-- The discovery of a port multiplier, with what is behind it, is one too. -/
theorem discovery_multiplier (targets : List (List ScsiDriver)) :
    Discovery (P := P) (AHCI_Multiplier.discoverLinks targets) where
  linked _ _ hl := (linked_multiplier hl targets).1
  keeps _ _ hl :=
    (keeps_newReached hl false).trans (linked_multiplier hl targets).2 (by constructor <;> grind)
  detached _ _ hl :=
    (detached_newReached false).keeps (linked_newReached hl false) (linked_multiplier hl targets).2
      (fun _ _ h => h) (fun h => h)
  own _ _ hl :=
    ((linked_multiplier hl targets).2.own _ (Nat.lt_succ_self _) (fun h => h)).trans
      (own_newReached false)

end devices

/-! ## AHCI and NVMe -/

section phys

variable {h : LinkHeap P} {c x : Nat}

/-- What is behind a phy is connected to its port, which is put on the controller's list. -/
theorem linked_discoverBehind (hl : h.Linked []) (hc : c < h.devices.next)
    (hroutes : h.isEndDevice c = false) (hx : x < h.nextPhy) (hparent : (h.phys x).m_pParent = c)
    (hnone : (h.phys x).m_pPort = none)
    (hname : (h.phys x).port = none) {device : Option (LinkHeap P → LinkHeap P)}
    (hdevice : ∀ discover ∈ device, Discovery discover) :
    (h.discoverBehind c x device).Linked [] ∧
      Keeps { lists := (· = c), owned := (· = c), phys := (· = x) } h (h.discoverBehind c x device) := by
  have hport := hl.newPort hc none fun _ _ _ _ => .inl rfl
  have hloose := (loose_newPort hl hc hroutes none).attachPhy (x := x)
  have hattached := hport.attachPhy hx (Nat.lt_succ_self _) (hparent.trans (by simp [newPort])) hnone
    (hname.trans (by simp [newPort]))
  have hkeeps : Keeps { lists := (· = c), owned := (· = c), phys := (· = x) } h
      ((h.newPort c none).attachPhy h.nextPort x) :=
    ((keeps_newPort h c none).mono (by constructor <;> simp)).trans (keeps_attachPhy _ h.nextPort x)
      (by constructor <;> grind)
  unfold discoverBehind
  dsimp only
  generalize (h.newPort c none).attachPhy h.nextPort x = h₁ at *
  rcases device with _ | discover
  · refine ⟨hattached.listPort List.not_mem_nil hloose.alive hloose.parent hloose.there
      hloose.routes, ?_⟩
    exact hkeeps.trans (keeps_listPort _ c h.nextPort) (by constructor <;> simp)
  · have hdiscovery := hdevice discover rfl
    have hdiscovered := hdiscovery.linked h₁ _ hattached
    have hown := hdiscovery.own h₁ _ hattached
    have hsetParent := keeps_setParent (discover h₁) c h₁.devices.next
    -- the device is attached to the controller
    obtain ⟨hconnected, hkeeps₁⟩ := linked_behind (hdiscovered.setParent h₁.devices.next c) hloose
      ((hdiscovery.keeps h₁ _ hattached).trans hsetParent (by constructor <;> simp))
      ((hdiscovery.detached h₁ _ hattached).keeps hdiscovered hsetParent (fun _ _ h => h) (fun h => h))
      (le_refl _) fun q hq => by
        obtain rfl := Option.some.inj (hown.symm.trans hq)
        exact le_refl _
    dsimp only
    have halive : (((discover h₁).setParent h₁.devices.next c).connect h.nextPort
        h₁.devices.next).destroyed h.nextPort = false := by
      rw [destroyed_connect]
      exact ((hdiscovery.keeps h₁ _ hattached).ports _ hloose.lt (fun h => h)).2.trans hloose.alive
    generalize ((discover h₁).setParent h₁.devices.next c).connect h.nextPort h₁.devices.next = h₂ at *
    refine ⟨hconnected.listPort List.not_mem_nil halive
      ((hkeeps₁.parent _ hloose.lt).trans hloose.parent) (hloose.there.trans_le hkeeps₁.next)
      ((hkeeps₁.isEndDevice c hloose.there).trans hloose.routes), ?_⟩
    refine (hkeeps.trans hkeeps₁ ⟨fun _ _ h => h, fun _ _ h => h.elim, fun _ _ h => h, ?_,
      fun _ _ h => h.elim⟩).trans (keeps_listPort _ c h.nextPort) (by constructor <;> simp)
    rintro q hq rfl
    exact absurd hq (Nat.lt_irrefl _)

/-- A phy of a controller with what is behind it. -/
theorem linked_phy (hl : h.Linked []) (hc : c < h.devices.next) (hroutes : h.isEndDevice c = false)
    {device : Option (LinkHeap P → LinkHeap P)} (hdevice : ∀ discover ∈ device, Discovery discover) :
    (((h.newPhy c none).listPhy c h.nextPhy).discoverBehind c h.nextPhy device).Linked [] ∧
      Keeps { lists := (· = c), owned := (· = c) } h
        (((h.newPhy c none).listPhy c h.nextPhy).discoverBehind c h.nextPhy device) := by
  have hphy := hl.newPhy_listPhy none hc hroutes
  obtain ⟨hlinked, hkeeps⟩ := linked_discoverBehind (x := h.nextPhy) hphy hc hroutes (Nat.lt_succ_self _)
    (by simp [newPhy, listPhy]) (by simp [newPhy, listPhy]) (by simp [newPhy, listPhy]) hdevice
  refine ⟨hlinked, ?_⟩
  exact ((keeps_newPhy_listPhy h c none).mono (by constructor <;> simp)).trans hkeeps
    (by constructor <;> grind)

/-- A phy of an AHCI controller: what it discovers keeps the invariant and touches the controller's
lists only. -/
theorem linked_ahciPhy (hl : h.Linked []) (hc : c < h.devices.next) (hroutes : h.isEndDevice c = false)
    (targets : List (List ScsiDriver)) :
    (AHCI_Phy.discoverLinks c h targets).Linked [] ∧
      Keeps { lists := (· = c), owned := (· = c) } h (AHCI_Phy.discoverLinks c h targets) := by
  unfold AHCI_Phy.discoverLinks
  dsimp only
  split
  next =>
    exact ⟨hl.newPhy_listPhy none hc hroutes,
      (keeps_newPhy_listPhy h c none).mono (by constructor <;> simp)⟩
  next target =>
    refine linked_phy hl hc hroutes fun discover hdiscover => ?_
    split at hdiscover
    next =>
      obtain rfl := Option.some.inj hdiscover
      exact discovery_newReached true
    next => cases hdiscover
  next =>
    refine linked_phy hl hc hroutes fun discover hdiscover => ?_
    obtain rfl := Option.some.inj hdiscover
    exact discovery_multiplier targets

/-- A phy of a VMD domain: what it discovers keeps the invariant and touches the controller's lists
only. -/
theorem linked_nvmePhy (hl : h.Linked []) (hc : c < h.devices.next) (hroutes : h.isEndDevice c = false)
    (identified : Bool) :
    (NVME_Phy.discoverLinks c h identified).Linked [] ∧
      Keeps { lists := (· = c), owned := (· = c) } h (NVME_Phy.discoverLinks c h identified) := by
  refine linked_phy hl hc hroutes fun discover hdiscover => ?_
  split at hdiscover
  next =>
    obtain rfl := Option.some.inj hdiscover
    exact discovery_newReached true
  next => cases hdiscover

end phys

/-! ## SAS -/

/-- No port of the device is connected. -/
def Bare (d : Nat) (h : LinkHeap P) : Prop :=
  ∀ p < h.nextPort, (h.ports p).m_pParent = d → (h.ports p).m_pRemotePort = none

/-- The ports and phys of a device. -/
def Touched.ofDevice (d : Nat) (h : LinkHeap P) : Touched where
  owned := (· = d)
  own := (· = d)
  ports p := (h.ports p).m_pParent = d
  phys x := (h.phys x).m_pParent = d

/-- No phy of the device has a port. -/
def Portless (d : Nat) (h : LinkHeap P) : Prop :=
  ∀ x < h.nextPhy, (h.phys x).m_pParent = d → (h.phys x).m_pPort = none

section sas

variable {h : LinkHeap P} {d p x : Nat}

/-- The ports of a device are all its ports that have not been destroyed. -/
theorem Linked.mem_getPorts_iff (hl : h.Linked []) : p ∈ (h.owned d).getPorts ↔
    p < h.nextPort ∧ h.destroyed p = false ∧ (h.ports p).m_pParent = d := by
  rw [← List.count_pos_iff, hl.port_count]
  split <;> simp_all

/-- The phys of a device are all its phys. -/
theorem Linked.mem_getPhys_iff {pending : List Nat} (hl : h.Linked pending) : x ∈ (h.owned d).getPhys ↔
    x < h.nextPhy ∧ (h.phys x).m_pParent = d := by
  rw [← List.count_pos_iff, hl.phy_count]
  split <;> simp_all

/-- No port is listed twice by a device. -/
theorem Linked.nodup_getPorts {pending : List Nat} (hl : h.Linked pending) (d : Nat) :
    (h.owned d).getPorts.Nodup := by
  refine List.nodup_iff_count_le_one.mpr fun p => ?_
  rw [hl.port_count]
  split <;> omega

/-- No phy is listed twice by a device. -/
theorem Linked.nodup_getPhys {pending : List Nat} (hl : h.Linked pending) (d : Nat) :
    (h.owned d).getPhys.Nodup := by
  refine List.nodup_iff_count_le_one.mpr fun x => ?_
  rw [hl.phy_count]
  split <;> omega

/-- Nothing belongs to a device to come. -/
theorem Linked.parent_lt (hl : h.Linked []) (hx : x < h.nextPhy) :
    (h.phys x).m_pParent < h.devices.next := by
  by_contra hnot
  have hcount := hl.phy_count (h.phys x).m_pParent x
  rw [(hl.unowned _ (by omega)).1, if_pos ⟨hx, rfl⟩] at hcount
  exact absurd hcount (by simp [DevicePorts.getPhys, DevicePorts.empty])

/-- The ports on the list of a device lead away from it. -/
theorem Linked.loose (hl : h.Linked []) (hbare : Bare d h) (hroutes : h.isEndDevice d = false)
    (hp : p ∈ (h.owned d).m_Ports) : Loose d p h := by
  obtain ⟨hlt, halive, hparent⟩ := hl.mem_getPorts_iff.mp (List.mem_append_left _ hp)
  refine ⟨hlt, halive, hbare p hlt hparent, hparent, fun hown => ?_, ?_, hroutes⟩
  · have hdisjoint := List.disjoint_of_nodup_append (hl.nodup_getPorts d)
    exact hdisjoint hp (by simp [hown])
  · by_contra hnot
    rw [(hl.unowned d (by omega)).1] at hp
    cases hp

/-- A device without ports has none when phys are associated elsewhere. -/
theorem Bare.attachPhy (hbare : Bare d h) : Bare d (h.attachPhy p x) := by
  intro q hq hparent
  obtain ⟨hsame, hremote, -⟩ := ports_attachPhy h p x q
  exact hremote.trans (hbare q hq (hsame.symm.trans hparent))

/-- A device without ports has none when others get one. -/
theorem Bare.newPort (hbare : Bare d h) (d' : Nat) (path : Option P) : Bare d (h.newPort d' path) := by
  intro q hq hparent
  have hold := hbare q
  simp only [LinkHeap.newPort, Function.update_apply] at hq hparent ⊢
  grind

variable [DecidableEq P]

/-- A phy comes by its port. -/
theorem linked_sasPhy (hl : h.Linked []) (hd : d < h.devices.next) (hroutes : h.isEndDevice d = false)
    {leadsUp : P → Bool} (hup : h.devices.isController d = true → ∀ path, leadsUp path = false)
    (hbare : Bare d h) (hx : x < h.nextPhy) (hparent : (h.phys x).m_pParent = d)
    (hnone : (h.phys x).m_pPort = none) :
    (SAS_Phy.discover leadsUp d h x).Linked [] ∧ Bare d (SAS_Phy.discover leadsUp d h x) ∧
      Keeps { Touched.ofDevice d h with phys := (· = x) } h (SAS_Phy.discover leadsUp d h x) := by
  unfold SAS_Phy.discover
  split
  next => exact ⟨hl, hbare, .rfl⟩
  next path hpath =>
    split
    next p hp =>
      have hsame : (h.ports p).m_Path = some path := by simpa using List.find?_some hp
      obtain ⟨hlt, -, hp⟩ := hl.mem_getPorts_iff.mp (List.mem_of_find?_eq_some hp)
      refine ⟨hl.attachPhy hx hlt (hparent.trans hp.symm) hnone (hpath.trans hsame.symm),
        hbare.attachPhy, ?_⟩
      exact (keeps_attachPhy h p x).mono (by constructor <;> grind [Touched.ofDevice])
    next hmissing =>
      have hport := hl.newPort hd (some path) fun p hp halive hparent => .inr fun hsame => by
        have hother := List.find?_eq_none.mp hmissing p (hl.mem_getPorts_iff.mpr ⟨hp, halive, hparent⟩)
        exact hother (decide_eq_true hsame)
      have hname : (h.phys x).port = ((h.newPort d (some path)).ports h.nextPort).m_Path :=
        hpath.trans (by simp [newPort])
      have hloose := loose_newPort hl hd hroutes (some path)
      have hparent' : (h.phys x).m_pParent = ((h.newPort d (some path)).ports h.nextPort).m_pParent :=
        hparent.trans hloose.parent.symm
      have hbare' := hbare.newPort d (some path)
      have hkeeps : Keeps { Touched.ofDevice d h with phys := (· = x) } h (h.newPort d (some path)) :=
        (keeps_newPort h d (some path)).mono (by constructor <;> simp [Touched.ofDevice])
      dsimp only
      split
      next hleads =>
        have hcontroller : h.devices.isController d = false := by
          by_contra hnot
          rw [hup (by simpa using hnot) path] at hleads
          cases hleads
        have hset := hport.setPort List.not_mem_nil hloose.alive hloose.parent hd hloose.free hcontroller
          fun q hq => hbare' q (hport.own hq).1 (hport.own hq).2.2.1
        refine ⟨hset.attachPhy hx (Nat.lt_succ_self _) hparent' hnone hname, Bare.attachPhy hbare', ?_⟩
        refine (hkeeps.trans (keeps_setPort _ d h.nextPort) ?_).trans (keeps_attachPhy _ h.nextPort x)
          (by constructor <;> grind [Touched.ofDevice])
        exact ⟨fun _ _ h => h, fun _ _ h => h, fun _ _ h => h, fun q _ hq => (hl.own hq).2.2.1,
          fun _ _ h => h.elim⟩
      next =>
        have hlisted := hport.listPort List.not_mem_nil hloose.alive hloose.parent hd hroutes
        refine ⟨hlisted.attachPhy hx (Nat.lt_succ_self _) hparent' hnone hname, Bare.attachPhy hbare',
          ?_⟩
        have hkeeps' := hkeeps.trans (keeps_listPort _ d h.nextPort)
          (by constructor <;> simp [Touched.ofDevice])
        exact hkeeps'.trans (keeps_attachPhy _ h.nextPort x)
          (by constructor <;> grind [Touched.ofDevice])

/-- Each phy comes by its port. -/
theorem linked_sasPhys (hl : h.Linked []) (hd : d < h.devices.next) (hroutes : h.isEndDevice d = false)
    {leadsUp : P → Bool} (hup : h.devices.isController d = true → ∀ path, leadsUp path = false)
    (hbare : Bare d h) {phys : List Nat} (hnodup : phys.Nodup)
    (hphys : ∀ x ∈ phys, x < h.nextPhy ∧ (h.phys x).m_pParent = d ∧ (h.phys x).m_pPort = none) :
    (phys.foldl (SAS_Phy.discover leadsUp d) h).Linked [] ∧
      Bare d (phys.foldl (SAS_Phy.discover leadsUp d) h) ∧
      Keeps (.ofDevice d h) h (phys.foldl (SAS_Phy.discover leadsUp d) h) := by
  induction phys generalizing h with
  | nil => exact ⟨hl, hbare, .rfl⟩
  | cons x phys ih =>
      obtain ⟨hx, hparent, hnone⟩ := hphys x List.mem_cons_self
      obtain ⟨hnotMem, hnodup⟩ := List.nodup_cons.mp hnodup
      obtain ⟨hlinked, hbare₁, hkeeps⟩ := linked_sasPhy hl hd hroutes hup hbare hx hparent hnone
      obtain ⟨hlinked', hbare', hkeeps'⟩ := ih hlinked (hd.trans_le hkeeps.next)
        ((hkeeps.isEndDevice d hd).trans hroutes)
        (fun hc => hup ((hkeeps.isController d hd).symm.trans hc)) hbare₁ hnodup fun y hy => by
          obtain ⟨hylt, hyparent, hynone⟩ := hphys y (List.mem_cons_of_mem _ hy)
          have hne : y ≠ x := by
            rintro rfl
            exact hnotMem hy
          rw [hkeeps.phys y hylt hne]
          exact ⟨hylt.trans_le hkeeps.nextPhy, hyparent, hynone⟩
      have hkeeps₁ : Keeps (.ofDevice d h) h (SAS_Phy.discover leadsUp d h x) :=
        hkeeps.mono ⟨fun _ _ h => h, fun _ _ h => h, fun _ _ h => h, fun _ _ h => h,
          fun y _ hy => (congrArg (fun y => (h.phys y).m_pParent) hy).trans hparent⟩
      refine ⟨hlinked', hbare', hkeeps₁.trans hkeeps'
        ⟨fun _ _ h => h, fun _ _ h => h, fun _ _ h => h, ?_, ?_⟩⟩
      · exact fun p hp h => (hkeeps.parent p hp).symm.trans h
      · exact fun y hy h => (hkeeps.phyParent y hy).symm.trans h

omit [DecidableEq P] in
/-- The phys of a device are put on its list. -/
theorem linked_newPhys (hl : h.Linked []) (hd : d < h.devices.next) (hroutes : h.isEndDevice d = false)
    (hbare : Bare d h) (hportless : Portless d h) (ports : List (Option P)) :
    (h.newPhys d ports).Linked [] ∧ Bare d (h.newPhys d ports) ∧ Portless d (h.newPhys d ports) ∧
      Keeps { owned := (· = d) } h (h.newPhys d ports) := by
  unfold newPhys
  induction ports generalizing h with
  | nil => exact ⟨hl, hbare, hportless, .rfl⟩
  | cons port ports ih =>
      have hkeeps := keeps_newPhy_listPhy h d port
      obtain ⟨hlinked, hbare', hportless', hkeeps'⟩ := ih (hl.newPhy_listPhy port hd hroutes) hd
        hroutes hbare (by
        intro x hx hparent
        have hold := hportless x
        simp only [newPhy, listPhy, Function.update_apply] at hx hparent ⊢
        grind)
      exact ⟨hlinked, hbare', hportless', hkeeps.trans hkeeps' (by constructor <;> simp)⟩

/-- A device with its phys and their ports, none of which is connected. -/
theorem linked_phys (hl : h.Linked []) (hd : d < h.devices.next) (hroutes : h.isEndDevice d = false)
    (leadsUp : P → Bool) (hup : h.devices.isController d = true → ∀ path, leadsUp path = false)
    (hbare : Bare d h) (hportless : Portless d h) (ports : List (Option P)) :
    let h' := h.discoverPhys (SAS_Phy.discover leadsUp d) d ports
    h'.Linked [] ∧ Bare d h' ∧ Keeps (.ofDevice d h) h h' := by
  obtain ⟨hlinked, hbare', hportless', hkeeps⟩ := linked_newPhys hl hd hroutes hbare hportless ports
  unfold discoverPhys
  dsimp only
  generalize h.newPhys d ports = h₁ at *
  have hnodup := (List.nodup_append.mp (hlinked.nodup_getPhys d)).1
  obtain ⟨hlinked', hbare'', hkeeps'⟩ := linked_sasPhys hlinked (hd.trans_le hkeeps.next)
    ((hkeeps.isEndDevice d hd).trans hroutes)
    (fun hc => hup ((hkeeps.isController d hd).symm.trans hc)) hbare' hnodup fun x hx => by
      obtain ⟨hlt, hparent⟩ := hlinked.mem_getPhys_iff.mp (List.mem_append_left _ hx)
      exact ⟨hlt, hparent, hportless' x hlt hparent⟩
  refine ⟨hlinked', hbare'', (hkeeps.mono ?_).trans hkeeps' ?_⟩
  · exact ⟨fun _ _ h => h.elim, fun _ _ h => h, fun _ _ h => h.elim, fun _ _ h => h.elim,
      fun _ _ h => h.elim⟩
  · exact ⟨fun _ _ h => h, fun _ _ h => h, fun _ _ h => h,
      fun p hp h => (hkeeps.parent p hp).symm.trans h,
      fun y hy h => (hkeeps.phyParent y hy).symm.trans h⟩

omit [DecidableEq P] in
/-- A device that owns nothing has no connected port and no phy. -/
theorem Linked.bare (hl : h.Linked []) (hd : h.owned d = .empty) : Bare d h ∧ Portless d h := by
  constructor
  · intro p hp hparent
    rcases hremote : (h.ports p).m_pRemotePort with _ | q
    · rfl
    · have hcount := hl.port_count d p
      rw [hd, if_pos ⟨hp, (hl.connected p q hremote).2.1, hparent, List.not_mem_nil⟩] at hcount
      exact absurd hcount (by simp [DevicePorts.getPorts, DevicePorts.empty])
  · intro x hx hparent
    have hcount := hl.phy_count d x
    rw [hd, if_pos ⟨hx, hparent⟩] at hcount
    exact absurd hcount (by simp [DevicePorts.getPhys, DevicePorts.empty])

/-- What the discovery of one port does. -/
def DiscoversPort (discoverPort : Nat → LinkHeap P → Except Fault (LinkHeap P)) : Prop :=
  ∀ {h h' : LinkHeap P} {d p : Nat}, h.Linked [] → Loose d p h → discoverPort p h = .ok h' →
    h'.Linked [] ∧ Keeps { lists := (· = d), ports := (· = p) } h h'

omit [DecidableEq P] in
/-- The ports on the list of a device are discovered one by one. -/
theorem linked_ports {discoverPort : Option P → Nat → LinkHeap P → Except Fault (LinkHeap P)}
    (hstep : ∀ path, DiscoversPort (discoverPort path)) {ports : List Nat} (hl : h.Linked [])
    (hnodup : ports.Nodup) (hports : ∀ q ∈ ports, Loose d q h) {h' : LinkHeap P}
    (hfound : ports.foldlM (fun h q => discoverPort (h.ports q).m_Path q h) h = .ok h') :
    h'.Linked [] ∧ Keeps { lists := (· = d), ports := (· ∈ ports) } h h' := by
  induction ports generalizing h with
  | nil =>
      obtain rfl : h = h' := Except.ok.inj hfound
      exact ⟨hl, .rfl⟩
  | cons q ports ih =>
      obtain ⟨hnotMem, hnodup⟩ := List.nodup_cons.mp hnodup
      rw [List.foldlM_cons] at hfound
      rcases hq : discoverPort (h.ports q).m_Path q h with fault | h₁
      · rw [hq] at hfound
        cases hfound
      rw [hq] at hfound
      obtain ⟨hlinked, hkeeps⟩ := hstep _ hl (hports q List.mem_cons_self) hq
      obtain ⟨hlinked', hkeeps'⟩ := ih hlinked hnodup (fun q' hq' =>
        (hports q' (List.mem_cons_of_mem _ hq')).keeps hkeeps (fun heq => by
          subst heq
          exact hnotMem hq') (fun h => h)) hfound
      have hkeeps₁ : Keeps { lists := (· = d), ports := (· ∈ q :: ports) } h h₁ :=
        hkeeps.mono ⟨fun _ _ h => h, fun _ _ h => h, fun _ _ h => h,
          fun q' _ hq' => List.mem_cons.mpr (.inl hq'), fun _ _ h => h⟩
      exact ⟨hlinked', hkeeps₁.trans hkeeps' ⟨fun _ _ h => h, fun _ _ h => h, fun _ _ h => h,
        fun _ _ h => List.mem_cons_of_mem _ h, fun _ _ h => h⟩⟩

/-- A controller or a routing device that is newer than everything before, and none of whose ports is
connected. -/
structure Routes (h : LinkHeap P) (d : Nat) (isController : Bool) (h' : LinkHeap P) : Prop where
  linked : h'.Linked []
  keeps : Keeps {} h h'
  new : h.devices.next ≤ d
  there : d < h'.devices.next
  routes : h'.isEndDevice d = false
  isController : h'.devices.isController d = isController
  bare : Bare d h'

section routes

variable {isController : Bool} {h₂ h₃ h₄ : LinkHeap P}

omit [DecidableEq P] in
/-- A new routing device has nothing of its own. -/
theorem routes_newDevice (hl : h.Linked []) (isController : Bool) :
    Routes h h.devices.next isController (h.newDevice isController false) ∧
      (h.newDevice isController false).owned h.devices.next = .empty := by
  have hunowned := (hl.unowned h.devices.next (le_refl _)).1
  have hdevice := hl.newDevice isController false
  exact ⟨⟨hdevice, keeps_newDevice h isController false, le_refl _, Nat.lt_succ_self _,
    Function.update_self .., Function.update_self .., (hdevice.bare hunowned).1⟩, hunowned⟩

omit [DecidableEq P] in
/-- Setting its parent gives it nothing. -/
theorem Routes.setParent (hr : Routes h d isController h₂) (howned : h₂.owned d = .empty) (c : Nat) :
    Routes h d isController (h₂.setParent d c) ∧ (h₂.setParent d c).owned d = .empty := by
  have hkeeps := keeps_setParent h₂ c d
  have hlinked := hr.linked.setParent d c
  have howned' := (hkeeps.owned d hr.there (fun h => h)).trans howned
  exact ⟨⟨hlinked, hr.keeps.trans hkeeps (by constructor <;> simp), hr.new,
    hr.there.trans_le hkeeps.next, (hkeeps.isEndDevice d hr.there).trans hr.routes,
    (hkeeps.isController d hr.there).trans hr.isController, (hlinked.bare howned').1⟩, howned'⟩

omit [DecidableEq P] in
/-- What is changed of a new device is nothing older. -/
theorem Routes.within (hl : h.Linked []) (hr : Routes h d isController h₂) :
    (Touched.ofDevice d h₂).Within {} h := by
  have hne : ∀ d' < h.devices.next, d' ≠ d := fun d' hd' => Nat.ne_of_lt (hd'.trans_le hr.new)
  refine ⟨fun _ _ h => h, hne, hne, fun q hq hparent => ?_, fun y hy hparent => ?_⟩
  · exact hne _ (hl.port_lt q hq) ((hr.keeps.parent q hq).symm.trans hparent)
  · exact hne _ (hl.parent_lt hy) ((hr.keeps.phyParent y hy).symm.trans hparent)

/-- The phys of a new device come by their ports. -/
theorem Routes.phys (hl : h.Linked []) (hr : Routes h d isController h₂) (howned : h₂.owned d = .empty)
    (leadsUp : P → Bool) (hup : isController = true → ∀ path, leadsUp path = false)
    (phys : List (Option P)) :
    Routes h d isController (h₂.discoverPhys (SAS_Phy.discover leadsUp d) d phys) := by
  obtain ⟨hbare, hportless⟩ := hr.linked.bare howned
  obtain ⟨hlinked, hbare', hkeeps⟩ := linked_phys hr.linked hr.there hr.routes leadsUp
    (fun hc => hup (hr.isController.symm.trans hc)) hbare hportless phys
  exact ⟨hlinked, hr.keeps.trans hkeeps (hr.within hl), hr.new, hr.there.trans_le hkeeps.next,
    (hkeeps.isEndDevice d hr.there).trans hr.routes,
    (hkeeps.isController d hr.there).trans hr.isController, hbare'⟩

omit [DecidableEq P] in
/-- All listed ports of a routing device are loose until something is connected to them. -/
theorem Routes.loose (hr : Routes h d isController h₃) : ∀ q ∈ (h₃.owned d).m_Ports, Loose d q h₃ :=
  fun _ hq => hr.linked.loose hr.bare hr.routes hq

omit [DecidableEq P] in
/-- The listed ports of a routing device are different. -/
theorem Routes.nodup (hr : Routes h d isController h₃) : (h₃.owned d).m_Ports.Nodup :=
  (List.nodup_append.mp (hr.linked.nodup_getPorts d)).1

omit [DecidableEq P] in
/-- The ports of a new device are new. -/
theorem Routes.le_port (hl : h.Linked []) (hr : Routes h d isController h₃) {q : Nat}
    (hq : q ∈ (h₃.owned d).getPorts) : h.nextPort ≤ q := by
  by_contra hnot
  have hlt := hl.port_lt q (by omega)
  rw [← hr.keeps.parent q (by omega), (hr.linked.mem_getPorts_iff.mp hq).2.2] at hlt
  exact absurd hlt (Nat.not_lt.mpr hr.new)

omit [DecidableEq P] in
/-- What is behind the ports of a new device is new, and the port by which the device is reached stays as
it was. -/
theorem Routes.ports (hl : h.Linked []) (hr : Routes h d isController h₃)
    {discoverPort : Option P → Nat → LinkHeap P → Except Fault (LinkHeap P)}
    (hstep : ∀ path, DiscoversPort (discoverPort path))
    (hfound : (h₃.owned d).m_Ports.foldlM (fun h q => discoverPort (h.ports q).m_Path q h) h₃ = .ok h₄) :
    h₄.Linked [] ∧ Keeps {} h h₄ ∧ d < h₄.devices.next ∧ h₄.isEndDevice d = false ∧
      h₄.devices.isController d = isController ∧ (h₄.owned d).m_pPort = (h₃.owned d).m_pPort ∧
      ∀ q, (h₄.owned d).m_pPort = some q → h.nextPort ≤ q ∧ (h₄.ports q).m_pRemotePort = none := by
  obtain ⟨hlinked, hkeeps⟩ := linked_ports hstep hr.linked hr.nodup hr.loose hfound
  have hkept : Keeps {} h h₄ := hr.keeps.trans hkeeps ⟨fun d' hd' heq =>
    absurd (hd'.trans_le hr.new) (by rw [heq]; exact Nat.lt_irrefl _), fun _ _ h => h, fun _ _ h => h,
    fun q hq hmem => absurd hq (Nat.not_lt.mpr (hr.le_port hl (List.mem_append_left _ hmem))),
    fun _ _ h => h⟩
  have hown := hkeeps.own d hr.there (fun h => h)
  refine ⟨hlinked, hkept, hr.there.trans_le hkeeps.next, (hkeeps.isEndDevice d hr.there).trans hr.routes,
    (hkeeps.isController d hr.there).trans hr.isController, hown, fun q hq => ?_⟩
  rw [hown] at hq
  have hmem : q ∈ (h₃.owned d).getPorts := List.mem_append_right _ (by simp [hq])
  have hnotMem : q ∉ (h₃.owned d).m_Ports := fun hq' =>
    List.disjoint_of_nodup_append (hr.linked.nodup_getPorts d) hq' (by simp [hq])
  obtain ⟨hqlt, -, hparent⟩ := hr.linked.mem_getPorts_iff.mp hmem
  rw [(hkeeps.ports q hqlt hnotMem).1]
  exact ⟨hr.le_port hl hmem, hr.bare q hqlt hparent⟩

/-- An expander with its phys and their ports. -/
theorem routes_expander (hl : h.Linked []) (c : Nat) (inner : PortDirs P) (phys : List (Option P)) :
    Routes h h.devices.next false (((h.newDevice false false).setParent h.devices.next c).discoverPhys
      (ISCI_Expander_Phy.discover inner h.devices.next) h.devices.next phys) := by
  obtain ⟨hr, howned⟩ := routes_newDevice hl false
  obtain ⟨hr', howned'⟩ := hr.setParent howned c
  exact hr'.phys hl howned' (fun path => inner.leadsUp path) (fun hc => absurd hc (by decide)) phys

/-- A SAS controller with its phys and their ports. -/
theorem routes_controller (hl : h.Linked []) (phys : List (Option P)) :
    Routes h h.devices.next true ((h.newDevice true false).discoverPhys
      (ISCI_Phy.discover h.devices.next) h.devices.next phys) := by
  obtain ⟨hr, howned⟩ := routes_newDevice hl true
  exact hr.phys hl howned (fun _ => false) (fun _ _ => rfl) phys

end routes

/-- What is behind a port is connected to it. -/
theorem linked_discoverPort (dirs : PortDirs P) (target : Option P) :
    DiscoversPort fun p h => dirs.discoverPort target p h := by
  induction dirs generalizing target with
  | nil =>
      intro h h' d p _ _ hfound
      cases hfound
  | host path rest ih =>
      intro h h' d p hl hp hfound
      simp only [PortDirs.discoverPort] at hfound
      split at hfound
      next =>
        obtain rfl := Except.ok.inj hfound
        exact ⟨hl, .rfl⟩
      next => exact ih target hl hp hfound
  | endDevice path drivers rest ih =>
      intro h h' d p hl hp hfound
      simp only [PortDirs.discoverPort] at hfound
      split at hfound
      next =>
        split at hfound
        next =>
          split at hfound
          next =>
            obtain rfl := Except.ok.inj hfound
            rw [hp.parent]
            have hnew := linked_newReached hl true
            have hown := own_newReached (h := h) true
            refine linked_behind (hnew.setParent h.devices.next d) hp
              ((keeps_newReached hl true).trans (keeps_setParent _ d h.devices.next)
                (by constructor <;> simp))
              ((detached_newReached true).keeps hnew (keeps_setParent _ d h.devices.next)
                (fun _ _ h => h) (fun h => h)) (le_refl _) fun q hq => ?_
            obtain rfl := Option.some.inj (hown.symm.trans hq)
            exact le_refl _
          next =>
            obtain rfl := Except.ok.inj hfound
            exact ⟨hl, .rfl⟩
        next =>
          obtain rfl := Except.ok.inj hfound
          exact ⟨hl, .rfl⟩
      next => exact ih target hl hp hfound
  | expander path above phys inner rest ihinner ih =>
      intro h h' d p hl hp hfound
      simp only [PortDirs.discoverPort] at hfound
      split at hfound
      next =>
        rw [hp.parent] at hfound
        have hr := routes_expander hl d inner phys
        generalize discoverPhys (ISCI_Expander_Phy.discover inner h.devices.next) _ _ _ = linked
          at hr hfound
        rcases hdiscovered : (linked.owned h.devices.next).m_Ports.foldlM
          (fun h q => inner.discoverPort (h.ports q).m_Path q h) linked with fault | h₁
        · rw [hdiscovered] at hfound
          cases hfound
        rw [hdiscovered] at hfound
        change (if (h₁.owned h.devices.next).m_pPort.isSome then Except.ok (h₁.connect p h.devices.next)
          else Except.error Fault.nullDereference) = Except.ok h' at hfound
        split at hfound
        next hown =>
          obtain rfl := Except.ok.inj hfound
          obtain ⟨hlinked, hkeeps, hlt, -, -, -, hnew⟩ := hr.ports hl ihinner hdiscovered
          obtain ⟨q, hq⟩ := Option.isSome_iff_exists.mp hown
          exact linked_behind hlinked hp hkeeps ⟨hlt, q, hq, (hnew q hq).2⟩ (le_refl _)
            fun q hq => (hnew q hq).1
        next => cases hfound
      next => exact ih target hl hp hfound

end sas

/-! ## Controllers -/

section controllers

variable {h h' : LinkHeap P}

/-- **The discovery of a controller keeps the invariant.** The controller is new, and nothing older is
changed. -/
theorem linked_discover [DecidableEq P] {dir : ControllerPorts P} (hl : h.Linked [])
    (hfound : dir.discover h = .ok h') :
    h'.Linked [] ∧ Keeps {} h h' ∧ h.devices.next < h'.devices.next ∧
      h'.devices.isController h.devices.next = true := by
  obtain ⟨hr, howned⟩ := routes_newDevice hl true
  have hwithin :
      Touched.Within { lists := (· = h.devices.next), owned := (· = h.devices.next) } {} h := by
    constructor <;> grind
  have hkept : ∀ {h' : LinkHeap P},
      Keeps { lists := (· = h.devices.next), owned := (· = h.devices.next) } (h.newDevice true false) h' →
      Keeps {} h h' ∧ h.devices.next < h'.devices.next ∧
        h'.devices.isController h.devices.next = true := fun hkeeps =>
    ⟨hr.keeps.trans hkeeps hwithin, hr.there.trans_le hkeeps.next,
      (hkeeps.isController _ hr.there).trans hr.isController⟩
  cases dir with
  | ahci phys =>
      obtain rfl := Except.ok.inj hfound
      obtain ⟨hlinked, hkeeps⟩ := linked_foldl
        (fun targets hl hc hroutes => linked_ahciPhy hl hc hroutes targets) phys hr.linked hr.there
        hr.routes
      exact ⟨hlinked, hkept hkeeps⟩
  | vmd disks =>
      obtain rfl := Except.ok.inj hfound
      obtain ⟨hlinked, hkeeps⟩ := linked_foldl
        (fun identified hl hc hroutes => linked_nvmePhy hl hc hroutes identified) disks hr.linked
        hr.there hr.routes
      exact ⟨hlinked, hkept hkeeps⟩
  | isci phys dirs =>
      obtain ⟨hlinked, hkeeps, hlt, -, hcontroller, -⟩ :=
        (routes_controller hl phys).ports hl (linked_discoverPort dirs) hfound
      exact ⟨hlinked, hkeeps, hlt, hcontroller⟩

end controllers

end LinkHeap

end Irstessi
