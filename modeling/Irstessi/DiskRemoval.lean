import Irstessi.AllOrNothing
import Irstessi.MdStates

/-!
# Taking out NVMe disks

`SsiPhyRemove` takes an NVMe disk out of the system, unless it is needed: the disk of a volume that
`/boot` lies on stays where the volume is not in normal state or is not redundant, and the disk that
`/boot` lies on by itself. The disk is taken out by a write to `device/device/remove` below its
directory, which names the PCI function: whatever disks are namespaces of that function go with it.

The check is as good as the session it reads. It looks for the volumes of the disk among those that
discovery has attached to it, and discovery attaches no volume of a container if one of the disks that md
names for it is not found; so a session is asked to have found them (`FindsVolume`). Nor does the check
know the level raid4 and the namespaces beside the one that is found.

* `RemovalSession`, `NVME_Disk.canRemoveDisk`: what is read of a session, and the check.
* `EndDevice.removeDisk`, `SsiPhyRemove`: the functions, with the calls that they make.
* `Machine`: the disks and volumes; `functionOf` is the PCI function of a disk, and `Machine.remove`
  what the kernel does with its namespaces.
* `Machine.Shows`: what is asked of the session of a call. `Machine.Goes`: what else may happen.
* `Machine.Step`: a call for the disk of any phy, or what happens between two calls.
* **`safe_of_removals`**: calls that come one after another never cost what `/boot` lies on.
* `not_safe_of_overlap`: two calls that both check before one of them is done may.

The invariant of the run is `Safe`: what `/boot` lies on can still be read. A step either takes nothing
away from it (`Goes`) or is a call, and a call removes a disk only if its check has passed. The check is
compared with the machine by way of the session that it reads: the disk it looks at is the one that the
device name stands for, the volumes it sees are those that `/boot` lies on, in the state in which md
runs them, and a volume that misses no member may lose one at a redundant level. The run lemma is an
induction over the steps; nothing about a single call is assumed of the next one but the state that it
leaves.
-/

namespace Irstessi

open Interact

/-! ## The check -/

/-- A session as far as it is read here; the flags are those of the end devices by position and of the
volumes.
Source: `session.h` `Session`, `end_device.h` `EndDevice`, `block_device.h` `BlockDevice`,
`controller.h` `Controller`, `volume.h` `Volume` -/
structure RemovalSession where
  devices : List SessionDevice
  dirs : List MdDir
  /-- `m_hardwareMode` of the controllers. -/
  hardwareMode : Nat → SSI_HardwareKeyType
  isIntelNvme : Nat → Bool
  isSystemDisk : Nat → Bool
  isSystemVolume : VolumeId → Bool

/-- Source: `end_device.cpp` `EndDevice::getId`, `getPartId` -/
def FoundDevice.getId (d : FoundDevice) : Str := (Str.ofLit "ed:").plus d.m_SerialNum

namespace RemovalSession

variable (x : RemovalSession)

def session : Session := .initialized x.devices x.dirs

/-- The volume of that number. -/
def volume (id : VolumeId) : Option MdVolume :=
  match (imsmArrays x.dirs)[id.array]? with
  | some (some a) => a.volumes[id.index]?
  | _ => none

/-- `m_BlockDevices` of a volume. -/
def members (id : VolumeId) : List FoundDevice := devicesAt x.devices (x.session.members id)

/-- The volumes of the disk's controller that have a member with the id of the disk.
Source: `nvme_disk.cpp` `NVME_Disk::canRemoveDisk`, the first loop -/
def volumesOf (d : SessionDevice) : List VolumeId :=
  (x.session.controller d.controller).m_Volumes.filter fun id =>
    (x.members id).any fun device => device.getId.equal d.found.getId

/-- Source: `nvme_disk.cpp` `NVME_Disk::canRemoveDisk`, the second loop -/
def forbids (id : VolumeId) : Bool :=
  match x.volume id with
  | none => false
  | some volume => x.isSystemVolume id &&
      (ui2raidlevel volume.attributes.m_RaidLevel = SSI_Raid0 ||
        volume.stateIn (x.members id) ≠ .normal)

/-- The parent of an NVMe disk is its controller.
Source: `nvme_disk.cpp` `NVME_Disk::canRemoveDisk` -/
def canRemoveDisk (k : Nat) (d : SessionDevice) : Bool :=
  if x.hardwareMode d.controller ≠ .vrocStandard ∧ x.hardwareMode d.controller ≠ .vrocPremium ∧
      x.isIntelNvme k = false then false
  else if x.volumesOf d ≠ [] then !(x.volumesOf d).any x.forbids
  else !x.isSystemDisk k

end RemovalSession

/-! ## The functions -/

/-- The calls that are made for a disk of that device name. -/
inductive RemovalCall
  | locate (mode : Bool) (m_DevName : Str)
  | remove (m_DevName : Str)
  deriving DecidableEq, Repr

/-- The shell command, or the file to which `1` is written.
Source: `end_device.cpp` `EndDevice::locate`, `nvme_disk.cpp` `NVME_Disk::removeDevice` -/
def RemovalCall.text : RemovalCall → Str
  | locate mode m_DevName =>
      Command.concat [.ofLit "ledctl ", .ofLit (if mode then "locate" else "normal"), .ofLit "='/dev/",
        m_DevName, .ofLit "'"]
  | remove m_DevName =>
      Command.concat [.ofLit "/sys/class/block/", m_DevName, .ofLit "/device/device/remove"]

/-- Whether `shell_command` or `sysfs_write` has returned 0. -/
abbrev RemovalReply (_ : RemovalCall) : Type := Bool

abbrev RemovalProg : Type → Type := Prog RemovalCall RemovalReply Empty Empty

/-- Source: `end_device.cpp` `EndDevice::locate` -/
def EndDevice.locate (m_DevName : Str) (mode : Bool) : RemovalProg SSI_Status :=
  .call (.locate mode m_DevName) fun done => .pure (if done then .ok else .failed)

/-- Source: `nvme_disk.cpp` `NVME_Disk::removeDevice`, `end_device.h` `EndDevice::removeDevice` -/
def EndDevice.removeDevice (d : FoundDevice) : RemovalProg SSI_Status :=
  if d.cls = .nvmeDisk then
    .call (.remove d.m_DevName) fun done => .pure (if done then .ok else .failed)
  else .pure .notSupported

/-- Disks of other classes cannot be removed.
Source: `end_device.cpp` `EndDevice::removeDisk`, `end_device.h` `EndDevice::canRemoveDisk` -/
def EndDevice.removeDisk (x : RemovalSession) (k : Nat) (d : SessionDevice) : RemovalProg SSI_Status :=
  if d.found.cls = .nvmeDisk ∧ x.canRemoveDisk k d = true then do
    let status ← EndDevice.locate d.found.m_DevName true
    if status = .ok then EndDevice.removeDevice d.found else pure status
  else pure .notSupported

/-- The parent of a phy: the end device at a position, or a controller or a routing device. -/
inductive PhyParent
  | endDevice (k : Nat)
  | other
  deriving DecidableEq, Repr

/-- Source: `phy.cpp` `Phy::remove`, `storage_object.h` `StorageObject::removeDisk` -/
def Phy.remove (x : RemovalSession) : Option PhyParent → RemovalProg SSI_Status
  | none => .pure .invalidState
  | some .other => .pure .notSupported
  | some (.endDevice k) =>
      match x.devices[k]? with
      | none => .pure .invalidState
      | some d => EndDevice.removeDisk x k d

/-- `temp` is what `getTempSession` does, and `phy` what `getItem` finds, with its parent.
Source: `src/phy.cpp` `SsiPhyRemove` -/
def SsiPhyRemove (mode : Bool) (temp : Except SSI_Status RemovalSession)
    (phy : Option (Option PhyParent)) : RemovalProg SSI_Status :=
  if mode = false then .pure .ok
  else match temp with
    | .error status => .pure status
    | .ok x =>
        match phy with
        | none => .pure .invalidHandle
        | some parent => Phy.remove x parent

/-! ## The machine -/

/-- Where `/boot` lies: on a volume, or on the disk of that device name. -/
inductive BootDevice
  | volume (i : Nat)
  | disk (name : List UInt8)
  deriving DecidableEq, Repr

/-- The volumes that md runs, and the names of the disks that are there. -/
structure Machine where
  boot : BootDevice
  volumes : List MdState
  disks : List (List UInt8)
  deriving DecidableEq, Repr

/-- The volume without the disks that are gone. -/
def MdState.lose (s : MdState) (gone : List UInt8 → Bool) : MdState :=
  { s with
    members := s.members.filter (!gone ·)
    nodup := s.nodup.filter _
    missing := s.missing + s.members.countP gone }

/-- Where one disk at most is gone, one member at most is. -/
theorem MdState.countP_le_one {s : MdState} {gone : List UInt8 → Bool} {name : List UInt8}
    (hgone : ∀ other, gone other = true → other = name) :
    s.members.countP gone ≤ if name ∈ s.members then 1 else 0 := by
  have hle : s.members.countP gone ≤ s.members.count name :=
    List.countP_mono_left fun other _ hother => beq_iff_eq.mpr (hgone other hother)
  refine hle.trans ?_
  split
  next => exact List.nodup_iff_count_le_one.mp s.nodup name
  next hmem => rw [List.count_eq_zero_of_not_mem hmem]

namespace Machine

section kernel

variable (functionOf : List UInt8 → List UInt8) (m : Machine)

/-- The disks that are namespaces of the PCI function behind the disk of that name. -/
def namespacesOf (name other : List UInt8) : Bool := functionOf other == functionOf name

/-- The PCI function behind the disk of that name is taken out, with all its namespaces. -/
def remove (name : List UInt8) : Machine :=
  { m with
    volumes := m.volumes.map (·.lose (namespacesOf functionOf name))
    disks := m.disks.filter (!namespacesOf functionOf name ·) }

/-- What a call does: the kernel takes the function out where the write has succeeded. -/
def apply : Event RemovalCall RemovalReply → Machine
  | ⟨.remove m_DevName, true⟩ => m.remove functionOf m_DevName.m_buffer
  | _ => m

def after (tr : List (Event RemovalCall RemovalReply)) : Machine := tr.foldl (apply functionOf) m

end kernel

variable (functionOf : List UInt8 → List UInt8) (m : Machine)

/-- What `/boot` lies on is there: a redundant volume misses one member at most, any other one none. -/
def Safe : Prop :=
  match m.boot with
  | .volume i => ∃ s, m.volumes[i]? = some s ∧ s.missing ≤ if s.level.redundant then 1 else 0
  | .disk name => name ∈ m.disks

/-- The disk at a position is found to be the one that `/boot` lies on. -/
structure FindsDisk (x : RemovalSession) (k : Nat) (d : SessionDevice) : Prop where
  detected : ∃ (e e' : EndDevice) (env : SysEnv) (o : DfOutput),
    e.m_DevName = d.found.m_DevName ∧ (e.determineDiskIsSystem.run env 0).result = .ok e' ∧
      o.Answers env ∧ o.Names d.found.m_DevName.m_buffer ∧ x.isSystemDisk k = e'.systemDisk
  /-- No other device has its id. -/
  single : ∀ (k' : Nat) d', x.devices[k']? = some d' → d'.found.getId.equal d.found.getId = true → k' = k
  /-- It is no member of a volume. -/
  free : ∀ (i : Nat) a, (imsmArrays x.dirs)[i]? = some (some a) → ∀ v ∈ a.volumes,
    ∀ devName ∈ v.dir.components, d.found.m_DevName.equal devName = false

/-- The volume that `/boot` lies on is found in a session, as a volume of one of its containers. -/
structure FindsVolume (x : RemovalSession) (s : MdState) (id : VolumeId) (a : MdArray) (v : MdVolume) :
    Prop where
  container : (imsmArrays x.dirs)[id.array]? = some (some a)
  volume : a.volumes[id.index]? = some v
  /-- The disks that md names for the container and its volumes are all listed. -/
  found : AllFound x.devices a.dir.components ∧ ∀ v ∈ a.volumes, AllFound x.devices v.dir.components
  /-- Its members are among those that md names. -/
  members : ∀ name ∈ s.members, ∃ devName ∈ v.dir.components, devName.m_buffer = name
  /-- What is told of it is what discovery makes of the volume that md runs. -/
  discovered : ∃ v', s.BootDiscoveredAs v' ∧ v.attributes.m_State = v'.m_State ∧
    v.attributes.m_RaidLevel = v'.m_RaidLevel ∧ x.isSystemVolume id = v'.m_SystemVolume
  /-- The library tells its level apart. -/
  known : s.level.known = true

/-- A session of the machine: a device name is that of one NVMe disk, which is the only namespace of its
PCI function, and what `/boot` lies on is found. -/
structure Shows (x : RemovalSession) : Prop where
  names : ∀ (k : Nat) d, x.devices[k]? = some d → d.found.cls = .nvmeDisk →
    findComponent x.devices d.found.m_DevName = some k
  namespaces : ∀ (k : Nat) d, x.devices[k]? = some d → d.found.cls = .nvmeDisk →
    ∀ name, functionOf name = functionOf d.found.m_DevName.m_buffer → name = d.found.m_DevName.m_buffer
  volume : ∀ i s, m.boot = .volume i → m.volumes[i]? = some s → ∃ id a v, FindsVolume x s id a v
  disk : ∀ name, m.boot = .disk name → ∀ (k : Nat) d, x.devices[k]? = some d →
    d.found.m_DevName.m_buffer = name → FindsDisk x k d

/-- What happens beside the calls takes no disk from what `/boot` lies on, and leaves a redundant volume
redundant; while a call is under way no disk joins it either. -/
structure Goes (underWay : Prop) (m m' : Machine) : Prop where
  boot : m'.boot = m.boot
  volume : ∀ i s, m.boot = .volume i → m.volumes[i]? = some s →
    ∃ s', m'.volumes[i]? = some s' ∧ (s.level.redundant = true → s'.level.redundant = true) ∧
      s'.missing ≤ s.missing ∧ (underWay → ∀ name ∈ s'.members, name ∈ s.members)
  disk : ∀ name, m.boot = .disk name → name ∈ m.disks → name ∈ m'.disks

/-- A call of `SsiPhyRemove`, which checks at its start and writes at its end, or what happens between
two calls. -/
inductive Step : Machine → Machine → Prop
  | goes {m m' : Machine} : Goes False m m' → Step m m'
  | call {m m' : Machine} (mode : Bool) (temp : Except SSI_Status RemovalSession)
      (phy : Option (Option PhyParent)) (env : Env RemovalCall RemovalReply) :
      (∀ x, temp = .ok x → Shows functionOf m x) → Goes True m m' →
      Step m (m'.after functionOf ((SsiPhyRemove mode temp phy).run env 0).trace)

end Machine

/-! ## What a call does -/

section call

variable {functionOf : List UInt8 → List UInt8} {x : RemovalSession} {k : Nat} {d : SessionDevice}
  (env : Env RemovalCall RemovalReply) (i : Nat)

/-- Locating a disk changes nothing. -/
theorem after_locate (m : Machine) (m_DevName : Str) (mode : Bool)
    (f : SSI_Status → RemovalProg SSI_Status) :
    ∃ status, m.after functionOf ((EndDevice.locate m_DevName mode >>= f).run env i).trace =
      m.after functionOf ((f status).run env (i + 1)).trace :=
  ⟨if env i (.locate mode m_DevName) then .ok else .failed, rfl⟩

/-- Removing a device of the `EndDevice` class writes to its `delete` attribute, or fails to: either the
disk is gone or nothing has changed. -/
theorem after_removeDevice (m : Machine) (d : FoundDevice) :
    m.after functionOf ((EndDevice.removeDevice d).run env i).trace = m ∨
      m.after functionOf ((EndDevice.removeDevice d).run env i).trace =
        m.remove functionOf d.m_DevName.m_buffer := by
  unfold EndDevice.removeDevice
  split
  · rcases hdone : env i (.remove d.m_DevName) with _ | _
    · left
      rw [Prog.run_call, hdone]
      rfl
    · right
      rw [Prog.run_call, hdone]
      rfl
  · exact .inl rfl

/-- A removal takes out the disk, where it may be removed, or nothing. -/
theorem after_removeDisk (m : Machine) :
    m.after functionOf ((EndDevice.removeDisk x k d).run env i).trace = m ∨
      d.found.cls = .nvmeDisk ∧ x.canRemoveDisk k d = true ∧
        m.after functionOf ((EndDevice.removeDisk x k d).run env i).trace =
          m.remove functionOf d.found.m_DevName.m_buffer := by
  unfold EndDevice.removeDisk
  split
  next hcan =>
    obtain ⟨status, hafter⟩ := after_locate env i m d.found.m_DevName true fun status =>
      if status = .ok then EndDevice.removeDevice d.found else pure status
    rw [hafter]
    split
    · rcases after_removeDevice env i.succ m d.found with hkept | hremoved
      · exact .inl hkept
      · exact .inr ⟨hcan.1, hcan.2, hremoved⟩
    · exact .inl rfl
  next => exact .inl rfl

/-- A call takes out the disk of the phy's parent, where it may be removed, or nothing. -/
theorem after_SsiPhyRemove (m : Machine) (mode : Bool) (temp : Except SSI_Status RemovalSession)
    (phy : Option (Option PhyParent)) :
    m.after functionOf ((SsiPhyRemove mode temp phy).run env i).trace = m ∨
      ∃ (x : RemovalSession) (k : Nat) (d : SessionDevice), temp = .ok x ∧ x.devices[k]? = some d ∧
        d.found.cls = .nvmeDisk ∧ x.canRemoveDisk k d = true ∧
        m.after functionOf ((SsiPhyRemove mode temp phy).run env i).trace =
          m.remove functionOf d.found.m_DevName.m_buffer := by
  unfold SsiPhyRemove
  split
  · exact .inl rfl
  rcases temp with status | x
  · exact .inl rfl
  rcases phy with _ | _ | k | _
  · exact .inl rfl
  · exact .inl rfl
  · dsimp only [Phy.remove]
    rcases hk : x.devices[k]? with _ | d
    · exact .inl rfl
    · refine (after_removeDisk env i m).imp id ?_
      rintro ⟨hcls, hcan, hremoved⟩
      exact ⟨x, k, d, rfl, hk, hcls, hcan, hremoved⟩
  · exact .inl rfl

end call

/-! ## What may be removed -/

section sessions

variable {functionOf : List UInt8 → List UInt8} {m : Machine} {x : RemovalSession} {k i j : Nat}
  {d : SessionDevice} {a : MdArray} {v : MdVolume} {devName : Str}

/-- Where every component is found, a volume is attached to each of its components. -/
theorem attach_mem_updates (hi : (imsmArrays x.dirs)[i]? = some (some a))
    (hfound : AllFound x.devices a.dir.components)
    (hvolumes : ∀ v ∈ a.volumes, AllFound x.devices v.dir.components) (hj : a.volumes[j]? = some v)
    (hmem : devName ∈ v.dir.components) (hk : findComponent x.devices devName = some k) :
    .attach (.volume ⟨i, j⟩) k ∈ updates x.devices x.dirs := by
  have hreaches := reaches_of_mem (hvolumes v (List.mem_of_getElem? hj)) hmem hk
  refine mem_updates_iff.mpr ⟨a, hi, mem_arrayTrail_iff.mpr (.inr ⟨hfound, .inr (.inl ?_)⟩)⟩
  exact mem_volumesTrail hvolumes hj (mem_volumeTrail_iff.mpr (.inl ⟨k, rfl, hreaches⟩))

/-- A volume is attached to its components only. -/
theorem component_of_attach {id : VolumeId} (h : .attach (.volume id) k ∈ updates x.devices x.dirs) :
    ∃ (i : Nat) (a : MdArray), (imsmArrays x.dirs)[i]? = some (some a) ∧ ∃ v ∈ a.volumes,
      ∃ devName ∈ v.dir.components, findComponent x.devices devName = some k := by
  obtain ⟨a, hi, he⟩ := mem_updates_iff.mp h
  refine ⟨_, a, hi, ?_⟩
  rcases mem_arrayTrail_iff.mp he with ⟨k', heq, -⟩ | ⟨-, heq | he | ⟨-, heq⟩⟩
  · cases heq
  · cases heq
  · obtain ⟨j, v, hj, hv⟩ := exists_of_mem_volumesTrail he
    rcases mem_volumeTrail_iff.mp hv with ⟨k', heq, hreaches⟩ | ⟨-, heq⟩
    · obtain ⟨-, rfl⟩ := Update.attach.inj heq
      exact ⟨v, List.mem_of_getElem? hj, mem_of_reaches hreaches⟩
    · cases heq
  · cases heq

/-- A device's id is equal to itself in the comparison that `canRemoveDisk` makes. -/
theorem FoundDevice.equal_getId (d : FoundDevice) : d.getId.equal d.getId = true :=
  (Str.equal_iff (Str.wellFormed_ofBytes _)).mpr rfl

/-- The devices at some positions of the session, as a set. -/
theorem mem_devicesAt {devices : List SessionDevice} {positions : List Nat} {e : FoundDevice} :
    e ∈ devicesAt devices positions ↔
      ∃ k ∈ positions, ∃ d, devices[k]? = some d ∧ d.found = e := by
  simp [devicesAt, List.mem_filterMap]

/-- A volume that is attached to the disk is among those that are checked. -/
theorem mem_volumesOf {id : VolumeId} (hd : x.devices[k]? = some d)
    (h : .attach (.volume id) k ∈ updates x.devices x.dirs) : id ∈ x.volumesOf d := by
  have hne : x.devices ≠ [] := by
    rintro hnil
    rw [hnil] at hd
    simp at hd
  refine List.mem_filter.mpr ⟨(refersTo_iff hne _ (.volume id)).mpr ⟨k, d, h, hd, rfl⟩, ?_⟩
  refine List.any_eq_true.mpr ⟨d.found, ?_, d.found.equal_getId⟩
  exact mem_devicesAt.mpr ⟨k, (mem_members_iff hne id).mpr h, d, hd, rfl⟩

/-- A volume that is checked is attached to a disk of the same id. -/
theorem attach_of_mem_volumesOf {id : VolumeId} (hne : x.devices ≠ []) (h : id ∈ x.volumesOf d) :
    ∃ (k' : Nat) (d' : SessionDevice), x.devices[k']? = some d' ∧
      d'.found.getId.equal d.found.getId = true ∧ .attach (.volume id) k' ∈ updates x.devices x.dirs := by
  obtain ⟨-, hany⟩ := List.mem_filter.mp h
  obtain ⟨e, he, hequal⟩ := List.any_eq_true.mp hany
  obtain ⟨k', hk', d', hd', rfl⟩ := mem_devicesAt.mp he
  exact ⟨k', d', hd', hequal, (mem_members_iff hne id).mp hk'⟩

/-- Disks that may be removed are on no volume that forbids it. -/
theorem not_forbids (hcan : x.canRemoveDisk k d = true) {id : VolumeId} (hid : id ∈ x.volumesOf d) :
    x.forbids id = false := by
  have hne : x.volumesOf d ≠ [] := List.ne_nil_of_mem hid
  unfold RemovalSession.canRemoveDisk at hcan
  split at hcan
  · cases hcan
  · rw [Bool.not_eq_true', List.any_eq_false] at hcan
    exact Bool.eq_false_iff.mpr (hcan id hid)

/-- A system volume that does not forbid it is redundant, as far as its level is known, and in normal
state. -/
theorem of_not_forbids {id : VolumeId} (hv : x.volume id = some v) (hsystem : x.isSystemVolume id = true)
    (h : x.forbids id = false) :
    ui2raidlevel v.attributes.m_RaidLevel ≠ SSI_Raid0 ∧ v.attributes.m_State = .normal := by
  unfold RemovalSession.forbids at h
  rw [hv] at h
  simp only [hsystem, Bool.true_and, Bool.or_eq_false_iff, decide_eq_false_iff_not, ne_eq,
    not_not] at h
  obtain ⟨hlevel, hstate⟩ := h
  refine ⟨hlevel, ?_⟩
  unfold MdVolume.stateIn at hstate
  split at hstate
  · cases hstate
  · exact hstate

/-- A member of the volume that `/boot` lies on may be removed only where the volume is redundant and
misses none. -/
theorem whole_of_canRemoveDisk {s : MdState} (hshows : Machine.Shows functionOf m x)
    (hboot : m.boot = .volume i) (hs : m.volumes[i]? = some s) (hd : x.devices[k]? = some d)
    (hcls : d.found.cls = .nvmeDisk) (hmem : d.found.m_DevName.m_buffer ∈ s.members)
    (hcan : x.canRemoveDisk k d = true) : s.level.redundant = true ∧ s.missing = 0 := by
  obtain ⟨id, a, v, hfinds⟩ := hshows.volume i s hboot hs
  obtain ⟨v', hdiscovered, hstate, hlevel, hsystem⟩ := hfinds.discovered
  obtain ⟨devName, hdevName, hbuffer⟩ := hfinds.members _ hmem
  obtain ⟨hflag, hnormal⟩ := MdState.of_bootDiscoveredAs hdiscovered
  have hv : x.volume id = some v := by
    unfold RemovalSession.volume
    rw [hfinds.container]
    exact hfinds.volume
  -- the volume is attached to the disk
  have hcomponent : findComponent x.devices devName = some k := by
    have hsame : ∀ e : Str, e.equal devName = e.equal d.found.m_DevName := fun e => by
      rw [Str.equal, Str.equal, hbuffer]
    rw [← hshows.names k d hd hcls]
    simp only [findComponent, hsame]
  have hattach := attach_mem_updates hfinds.container hfinds.found.1 hfinds.found.2 hfinds.volume
    hdevName hcomponent
  -- and does not forbid the removal
  obtain ⟨hraid, hshown⟩ := of_not_forbids hv (hsystem.trans hflag)
    (not_forbids hcan (mem_volumesOf hd hattach))
  rw [hstate] at hshown
  obtain ⟨hnumber, hmissing⟩ := hnormal hshown
  rw [hlevel, hnumber] at hraid
  have hredundant : s.level.redundant = true := by
    by_contra hplain
    rw [MdLevel.number_of_not_redundant (Bool.eq_false_of_not_eq_true hplain)] at hraid
    exact hraid rfl
  exact ⟨hredundant, hmissing hredundant hfinds.known⟩

/-- The disk that `/boot` lies on cannot be removed. -/
theorem not_canRemoveDisk (hd : x.devices[k]? = some d) (hfinds : Machine.FindsDisk x k d) :
    x.canRemoveDisk k d = false := by
  have hne : x.devices ≠ [] := by
    rintro hnil
    rw [hnil] at hd
    simp at hd
  have hnone : x.volumesOf d = [] := by
    refine List.eq_nil_iff_forall_not_mem.mpr fun id hid => ?_
    obtain ⟨k', d', hd', hequal, hattach⟩ := attach_of_mem_volumesOf hne hid
    obtain rfl := hfinds.single k' d' hd' hequal
    obtain ⟨i, a, ha, v, hv, devName, hdevName, hcomponent⟩ := component_of_attach hattach
    obtain ⟨hlt, hfound, -⟩ := List.findIdx?_eq_some_iff_getElem.mp hcomponent
    have hget : x.devices[k'] = d := (List.getElem?_eq_some_iff.mp hd).2
    rw [hget, hfinds.free i a ha v hv devName hdevName, Bool.and_false] at hfound
    cases hfound
  obtain ⟨e, e', env, o, hname, hrun, hanswers, hnames, hflag⟩ := hfinds.detected
  rw [← hname] at hnames
  have hsystem : x.isSystemDisk k = true := by
    rw [e.run_determineDiskIsSystem hanswers] at hrun
    obtain rfl := Except.ok.inj hrun
    rw [hflag]
    exact (Str.find_isSome_iff _ _).mpr (e.deviceFile_isPrefixOf.isInfix.trans hnames.infix_text)
  unfold RemovalSession.canRemoveDisk
  split
  · rfl
  · rw [if_neg (not_not.mpr hnone), hsystem]
    rfl

end sessions

/-! ## Runs -/

namespace Machine

section runs

variable {functionOf : List UInt8 → List UInt8} {m m' : Machine}

/-- What goes on beside the calls leaves a safe machine safe. -/
theorem Goes.safe {underWay : Prop} (h : Goes underWay m m') (hsafe : m.Safe) : m'.Safe := by
  unfold Safe at hsafe ⊢
  rw [h.boot]
  rcases hboot : m.boot with i | name
  · rw [hboot] at hsafe
    obtain ⟨s, hs, hmissing⟩ := hsafe
    obtain ⟨s', hs', hlevel, hle, -⟩ := h.volume i s hboot hs
    refine ⟨s', hs', hle.trans (hmissing.trans ?_)⟩
    split
    next hredundant => rw [if_pos (hlevel hredundant)]
    next => exact Nat.zero_le _
  · rw [hboot] at hsafe
    exact h.disk name hboot hsafe

/-- The removal of a disk that was allowed before leaves a safe machine safe. -/
theorem safe_remove {x : RemovalSession} {k : Nat} {d : SessionDevice} (hshows : Shows functionOf m x)
    (hgoes : Goes True m m') (hsafe : m.Safe) (hd : x.devices[k]? = some d)
    (hcls : d.found.cls = .nvmeDisk) (hcan : x.canRemoveDisk k d = true) :
    (m'.remove functionOf d.found.m_DevName.m_buffer).Safe := by
  have hsafe' := hgoes.safe hsafe
  have hsingle : ∀ other, namespacesOf functionOf d.found.m_DevName.m_buffer other = true →
      other = d.found.m_DevName.m_buffer :=
    fun other hother => hshows.namespaces k d hd hcls other (beq_iff_eq.mp hother)
  unfold Safe at hsafe hsafe' ⊢
  have hboot' : (m'.remove functionOf d.found.m_DevName.m_buffer).boot = m.boot := hgoes.boot
  rw [hgoes.boot] at hsafe'
  rw [hboot']
  rcases hboot : m.boot with i | name
  · rw [hboot] at hsafe hsafe'
    obtain ⟨s, hs, -⟩ := hsafe
    obtain ⟨s', hs', hlevel, hle, hmembers⟩ := hgoes.volume i s hboot hs
    obtain ⟨s'', hs'', hmissing⟩ := hsafe'
    obtain rfl : s' = s'' := Option.some.inj (hs'.symm.trans hs'')
    refine ⟨s'.lose (namespacesOf functionOf d.found.m_DevName.m_buffer), ?_, ?_⟩
    · show (m'.volumes.map _)[i]? = _
      rw [List.getElem?_map, hs']
      rfl
    · show s'.missing + s'.members.countP _ ≤ if s'.level.redundant = true then 1 else 0
      have hcount := s'.countP_le_one hsingle
      split at hcount
      next hmem =>
        obtain ⟨hredundant, hwhole⟩ :=
          whole_of_canRemoveDisk hshows hboot hs hd hcls (hmembers trivial _ hmem) hcan
        rw [if_pos (hlevel hredundant)]
        omega
      next => omega
  · rw [hboot] at hsafe'
    refine List.mem_filter.mpr ⟨hsafe', ?_⟩
    rw [Bool.not_eq_true', Bool.eq_false_iff]
    intro hgone
    obtain rfl := hsingle name hgone
    rw [not_canRemoveDisk hd (hshows.disk _ hboot k d hd rfl)] at hcan
    cases hcan

/-- One step, whether a call or a move of md, keeps what `/boot` lies on usable. -/
theorem Step.safe (h : Step functionOf m m') (hsafe : m.Safe) : m'.Safe := by
  cases h with
  | goes h => exact h.safe hsafe
  | @call m' mode temp phy env hshows hgoes =>
      rcases after_SsiPhyRemove env 0 m' mode temp phy with
        hkept | ⟨x, k, d, rfl, hd, hcls, hcan, hremoved⟩
      · rw [hkept]
        exact hgoes.safe hsafe
      · rw [hremoved]
        exact safe_remove (hshows x rfl) hgoes hsafe hd hcls hcan

end runs

end Machine

/-- **Removals are safe one after another.** Whatever calls are made for whatever phys, what `/boot`
lies on is there afterwards. A step is a call on a session that shows the machine, or a move of md that
takes nothing from what `/boot` lies on. The invariant is that what `/boot` lies on is usable; a call
removes a member only where the volume is in normal state, and this means that it is redundant and
whole. -/
theorem safe_of_removals {functionOf : List UInt8 → List UInt8} {m m' : Machine} (hsafe : m.Safe)
    (hruns : Relation.ReflTransGen (Machine.Step functionOf) m m') : m'.Safe := by
  induction hruns with
  | refl => exact hsafe
  | tail _ hstep ih => exact hstep.safe ih

/-- Two removals from a volume that is whole, with nothing rebuilt between them, cost what `/boot` lies
on: two calls that both check before one of them is done may both be allowed. -/
theorem not_safe_of_overlap {functionOf : List UInt8 → List UInt8} {m : Machine} {i : Nat} {s : MdState}
    {name name' : List UInt8} (hboot : m.boot = .volume i) (hs : m.volumes[i]? = some s)
    (hmem : name ∈ s.members) (hmem' : name' ∈ s.members) (hne : functionOf name' ≠ functionOf name) :
    ¬ ((m.remove functionOf name).remove functionOf name').Safe := by
  let lost := s.lose (Machine.namespacesOf functionOf name)
  have hvolume : ((m.remove functionOf name).remove functionOf name').volumes[i]? =
      some (lost.lose (Machine.namespacesOf functionOf name')) := by
    show ((m.volumes.map _).map _)[i]? = _
    rw [List.getElem?_map, List.getElem?_map, hs]
    rfl
  have hfirst : 0 < s.members.countP (Machine.namespacesOf functionOf name) :=
    List.countP_pos_iff.mpr ⟨name, hmem, beq_self_eq_true _⟩
  have hsecond : 0 < lost.members.countP (Machine.namespacesOf functionOf name') := by
    refine List.countP_pos_iff.mpr ⟨name', List.mem_filter.mpr ⟨hmem', ?_⟩, beq_self_eq_true _⟩
    rw [Bool.not_eq_true', Machine.namespacesOf, beq_eq_false_iff_ne]
    exact hne
  have hsame : ((m.remove functionOf name).remove functionOf name').boot = m.boot := rfl
  unfold Machine.Safe
  rw [hsame, hboot]
  rintro ⟨s', hs', hle⟩
  obtain rfl := Option.some.inj (hvolume.symm.trans hs')
  have hmissing : (lost.lose (Machine.namespacesOf functionOf name')).missing =
      s.missing + s.members.countP (Machine.namespacesOf functionOf name) +
        lost.members.countP (Machine.namespacesOf functionOf name') := rfl
  rw [hmissing] at hle
  split at hle <;> omega

section mirror

/-- A machine with the mirror that `/boot` lies on. -/
def mirrorMachine : Machine := ⟨.volume 0, [mirror], [lit "nvme0n1", lit "nvme1n1"]⟩

def mirrorDisk (devName : String) : SessionDevice :=
  ⟨⟨.nvmeDisk, .ofLit devName, .ofLit devName, 1073741824, 2097152, .arrayMember, .normal, 0, []⟩, 0⟩

/-- A session of the machine, with a standard key. -/
def mirrorSession : RemovalSession where
  devices := [mirrorDisk "nvme0n1", mirrorDisk "nvme1n1"]
  dirs := [⟨lit "md127", some (lit "external:imsm"), [.ofLit "nvme0n1", .ofLit "nvme1n1"], .empty, none⟩,
    ⟨lit "md126", some (lit "external:/md127/0"), [.ofLit "nvme0n1", .ofLit "nvme1n1"], .empty,
      some ⟨1, .normal, 0, 1048576, 512⟩⟩]
  hardwareMode _ := .vrocStandard
  isIntelNvme _ := false
  isSystemDisk _ := false
  isSystemVolume _ := true

/-- The sample session shows the sample machine, so that the witness starts from a state that a
discovery gives. -/
theorem shows_mirror : Machine.Shows id mirrorMachine mirrorSession := by
  have harrays : imsmArrays mirrorSession.dirs =
      [some ⟨mirrorSession.dirs[0], [⟨mirrorSession.dirs[1], 0⟩]⟩] := by decide +kernel
  have hfirst : findComponent mirrorSession.devices (.ofLit "nvme0n1") = some 0 := by decide +kernel
  have hsecond : findComponent mirrorSession.devices (.ofLit "nvme1n1") = some 1 := by decide +kernel
  have hfound : AllFound mirrorSession.devices [.ofLit "nvme0n1", .ofLit "nvme1n1"] := by
    intro devName hdevName
    rcases List.mem_pair.mp hdevName with rfl | rfl
    · exact Option.isSome_of_mem hfirst
    · exact Option.isSome_of_mem hsecond
  constructor
  · intro k d hd _
    rcases k with _ | _ | k
    · obtain rfl := Option.some.inj hd
      exact hfirst
    · obtain rfl := Option.some.inj hd
      exact hsecond
    · cases hd
  · exact fun _ _ _ _ _ hname => hname
  · intro i s hboot hs
    obtain rfl : 0 = i := by cases hboot; rfl
    obtain rfl := Option.some.inj hs
    refine ⟨⟨0, 0⟩, ⟨mirrorSession.dirs[0], [⟨mirrorSession.dirs[1], 0⟩]⟩, ⟨mirrorSession.dirs[1], 0⟩, ?_,
      rfl, ⟨hfound, fun v hv => ?_⟩, fun name hname => ?_, ⟨mirrorVolume, bootDiscoveredAs_mirror, ?_⟩, rfl⟩
    · rw [harrays]
      rfl
    · obtain rfl := List.mem_singleton.mp hv
      exact hfound
    · rcases List.mem_pair.mp hname with rfl | rfl
      · exact ⟨.ofLit "nvme0n1", by decide, by decide⟩
      · exact ⟨.ofLit "nvme1n1", by decide, by decide⟩
    · decide +kernel
  · intro name hboot
    cases hboot

/-- The first disk of the mirror is taken out, each disk being a PCI function of its own. -/
theorem safe_of_removals_mirror :
    (mirrorMachine.after id ((SsiPhyRemove true (.ok mirrorSession) (some (some (.endDevice 0)))).run
      (fun _ _ => true) 0).trace).Safe := by
  have hsafe : mirrorMachine.Safe := ⟨mirror, rfl, by decide⟩
  have hgoes : Machine.Goes True mirrorMachine mirrorMachine :=
    ⟨rfl, fun i s _ hs => ⟨s, hs, id, le_rfl, fun _ _ h => h⟩, fun _ _ h => h⟩
  refine safe_of_removals hsafe (.single (.call true _ _ _ (fun x hx => ?_) hgoes))
  obtain rfl := Except.ok.inj hx
  exact shows_mirror

end mirror

end Irstessi
