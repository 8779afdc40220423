import Irstessi.FreeDisks
import Irstessi.Lib.Turns

/-!
# Containers and volumes across calls

What the commands of the calls do to the containers and volumes that there are, and the runs of
calls.

* `Storage`: which container each disk is in, and the container and level of each volume.
* `Command.Effect`: what a command that exits with 0 does.
* `Shows`: a session shows the storage; `ApiTurn`: a call in such a session.
* `CallSession.Adds`, `CallSession.Collects`: the disks that a call adds to a container, or makes a
  container of.
* `Issued`: the commands that calls issue; `issued_of_call`: there are no others.

A storage is what is recorded on the disks and run by the kernel, as far as the commands change it; it
stays as it is between the calls of the library. Each command has an effect, a relation, since a
creation chooses a new name for what it creates. A call discovers the storage of its time anew, which is
`Shows`, and issues some of the commands that it may issue, each of which may fail; what the commands
are is proved in `IssuedCommands`. Runs are those of `Lib.Turns`, so that an invariant of the storage is
proved command by command.
-/

namespace Irstessi

open Interact

/-! ## The storage -/

/-- The containers and the volumes, under the names of their devices. -/
structure Storage where
  /-- The container that a disk is in. -/
  container : Str → Option Str
  /-- The container and the level of a volume. -/
  volume : Str → Option (Str × UInt32)

namespace Storage

variable (S : Storage)

/-- The disks come to be in the container, or in none. -/
def put (c : Option Str) (disks : List Str) : Storage :=
  { S with container := fun x => if x ∈ disks then c else S.container x }

/-- The volume gets the level. -/
def setLevel (devName : Str) (level : UInt32) : Storage :=
  { S with volume := fun v =>
      if v = devName then (S.volume v).map fun w => (w.1, level) else S.volume v }

/-- The device is stopped: a container with its volumes, or a volume. -/
def stop (devName : Str) : Storage where
  container x := if S.container x = some devName then none else S.container x
  volume v := if v = devName ∨ (S.volume v).map Prod.fst = some devName then none else S.volume v

/-- There is no volume, and no disk in the container, of the name. -/
def Unused (c : Str) : Prop := (∀ x, S.container x ≠ some c) ∧ ∀ v l, S.volume v ≠ some (c, l)

/-- No disk comes into a container, and no volume into being or to another level than 0. -/
structure Shrinks (S' : Storage) : Prop where
  container : ∀ x c, S'.container x = some c → S.container x = some c
  volume : ∀ v c l, S'.volume v = some (c, l) → ∃ l', S.volume v = some (c, l') ∧ (l = l' ∨ l = 0)

variable {S} {S' : Storage}

/-- Who is in a container after disks have been put somewhere: the disks themselves, or who was in it
and has not been moved. -/
theorem container_put_eq_some {c : Option Str} {disks : List Str} {x c' : Str}
    (h : (S.put c disks).container x = some c') :
    (x ∈ disks ∧ c = some c') ∨ (x ∉ disks ∧ S.container x = some c') := by
  by_cases hx : x ∈ disks
  · exact .inl ⟨hx, (if_pos hx).symm.trans h⟩
  · exact .inr ⟨hx, (if_neg hx).symm.trans h⟩

/-- Setting the level of one volume moves no volume to another container and changes no other level. -/
theorem volume_setLevel_eq_some {devName v c : Str} {level l : UInt32}
    (h : (S.setLevel devName level).volume v = some (c, l)) :
    ∃ l', S.volume v = some (c, l') ∧ ((v = devName ∧ l = level) ∨ (v ≠ devName ∧ l = l')) := by
  by_cases hv : v = devName
  · rw [setLevel] at h
    simp only [if_pos hv, Option.map_eq_some_iff] at h
    obtain ⟨⟨c', l'⟩, hw, heq⟩ := h
    obtain ⟨rfl, rfl⟩ := Prod.mk.inj heq
    exact ⟨l', hw, .inl ⟨hv, rfl⟩⟩
  · rw [setLevel] at h
    simp only [if_neg hv] at h
    exact ⟨l, h, .inr ⟨hv, rfl⟩⟩

/-- Putting no disk anywhere changes nothing. -/
@[simp] theorem put_nil (c : Option Str) : S.put c [] = S := by
  simp [put]

/-- Two rounds of putting disks into the same place are one. -/
theorem put_put_append (c : Option Str) (disks disks' : List Str) :
    (S.put c disks).put c disks' = S.put c (disks ++ disks') := by
  unfold put
  congr 1
  funext x
  by_cases hx : x ∈ disks
  · simp [hx]
  · simp [hx]

/-- Disks that are put elsewhere at last. -/
theorem put_put (c c' : Option Str) (disks : List Str) :
    (S.put c disks).put c' disks = S.put c' disks := by
  unfold put
  congr 1
  funext x
  by_cases hx : x ∈ disks
  · simp [hx]
  · simp [hx]

/-- Disks that are there already are not moved. -/
theorem put_eq_self {c : Option Str} {disks : List Str} (h : ∀ x ∈ disks, S.container x = c) :
    S.put c disks = S := by
  have hcontainer : (S.put c disks).container = S.container := by
    funext x
    by_cases hx : x ∈ disks
    · exact (if_pos hx).trans (h x hx).symm
    · exact if_neg hx
  calc
    S.put c disks = ⟨(S.put c disks).container, S.volume⟩ := rfl
    _ = S := by rw [hcontainer]

/-- Nothing lost is a special case of losing. -/
theorem shrinks_refl : S.Shrinks S := ⟨fun _ _ h => h, fun _ _ l h => ⟨l, h, .inl rfl⟩⟩

/-- Taking disks out of their containers only loses. -/
theorem shrinks_put_none (disks : List Str) : S.Shrinks (S.put none disks) := by
  refine ⟨fun x c h => ?_, fun v c l h => ⟨l, h, .inl rfl⟩⟩
  rcases container_put_eq_some h with ⟨-, h⟩ | ⟨-, h⟩
  · simp at h
  · exact h

/-- A change to level 0 only loses redundancy. -/
theorem shrinks_setLevel_zero (devName : Str) : S.Shrinks (S.setLevel devName 0) := by
  refine ⟨fun x c h => h, fun v c l h => ?_⟩
  obtain ⟨l', hv, ⟨-, hl⟩ | ⟨-, hl⟩⟩ := volume_setLevel_eq_some h
  · exact ⟨l', hv, .inr hl⟩
  · exact ⟨l', hv, .inl hl⟩

/-- Stopping an array only loses it. -/
theorem shrinks_stop (devName : Str) : S.Shrinks (S.stop devName) := by
  refine ⟨fun x c h => ?_, fun v c l h => ⟨l, ?_, .inl rfl⟩⟩
  · unfold stop at h
    dsimp only at h
    split_ifs at h
    exact h
  · unfold stop at h
    dsimp only at h
    split_ifs at h
    exact h

end Storage

/-! ## Commands -/

namespace Command

/-- What a command that exits with 0 does. mdadm names a new device, and puts a volume into the
container that its disks are in. -/
def Effect (cmd : Command) (S S' : Storage) : Prop :=
  match cmd with
  | add devName disks => S' = S.put (some devName) disks
  | createContainer _ _ disks => ∃ c, S.Unused c ∧ S' = S.put (some c) disks
  | createVolume _ level _ _ _ _ disks => ∃ c v, disks ≠ [] ∧ (∀ x ∈ disks, S.container x = some c) ∧
      S.volume v = none ∧
      S' = { S with volume := fun w => if w = v then some (c, .ofNat level) else S.volume w }
  | growLevel0 devName _ => S' = S.setLevel devName 0
  | growLevel10 devName => S' = S.setLevel devName 10
  | growLevel5 devName _ => S' = S.setLevel devName 5
  | growChunk5 devName _ => S' = S.setLevel devName 5
  | stop devName => S' = S.stop devName
  | removeDisk _ disk => S' = S.put none [disk]
  | zeroSuperblock disk => S' = S.put none [disk]
  | clearMembers disks => S' = S.put none disks
  | _ => S' = S

/-- The command brings no disk into a container, and no volume into being or to another level than
0. -/
def OnlyShrinks : Command → Prop
  | add _ _ => False
  | createContainer _ _ _ => False
  | createVolume _ _ _ _ _ _ _ => False
  | growLevel10 _ => False
  | growLevel5 _ _ => False
  | growChunk5 _ _ => False
  | _ => True

/-- Commands that only shrink, as a cleaning-up issues them, leave nothing that was not there before. -/
theorem Effect.shrinks {cmd : Command} (hcmd : cmd.OnlyShrinks) {S S' : Storage}
    (h : cmd.Effect S S') : S.Shrinks S' := by
  cases cmd with
  | growLevel0 devName ch => exact h ▸ Storage.shrinks_setLevel_zero devName
  | stop devName => exact h ▸ Storage.shrinks_stop devName
  | removeDisk devName disk => exact h ▸ Storage.shrinks_put_none [disk]
  | zeroSuperblock disk => exact h ▸ Storage.shrinks_put_none [disk]
  | clearMembers disks => exact h ▸ Storage.shrinks_put_none disks
  | add => exact hcmd.elim
  | createContainer => exact hcmd.elim
  | createVolume => exact hcmd.elim
  | growLevel10 => exact hcmd.elim
  | growLevel5 => exact hcmd.elim
  | growChunk5 => exact hcmd.elim
  | _ => exact h ▸ Storage.shrinks_refl

/-- Only a command that takes disks brings one into a container. -/
theorem Effect.container_of_disksTaken {cmd : Command} (hcmd : cmd.disksTaken = []) {S S' : Storage}
    (h : cmd.Effect S S') {x c : Str} (hx : S'.container x = some c) : S.container x = some c := by
  have hshrinks : cmd.OnlyShrinks → S.Shrinks S' := fun hcmd => h.shrinks hcmd
  cases cmd with
  | add devName disks =>
      obtain rfl : disks = [] := hcmd
      obtain rfl : S' = _ := h
      rcases Storage.container_put_eq_some hx with ⟨hmem, -⟩ | ⟨-, hx⟩
      · simp at hmem
      · exact hx
  | createContainer name n disks =>
      obtain rfl : disks = [] := hcmd
      obtain ⟨c, -, rfl⟩ := h
      rcases Storage.container_put_eq_some hx with ⟨hmem, -⟩ | ⟨-, hx⟩
      · simp at hmem
      · exact hx
  | createVolume =>
      obtain ⟨c, v, -, -, -, rfl⟩ := h
      exact hx
  | growLevel10 =>
      obtain rfl : S' = _ := h
      exact hx
  | growLevel5 =>
      obtain rfl : S' = _ := h
      exact hx
  | growChunk5 =>
      obtain rfl : S' = _ := h
      exact hx
  | _ => exact (hshrinks trivial).container x c hx

/-- An mdadm command that is not tried in another form where it fails. -/
def IsSingleMdadm : Command → Prop
  | createVolume _ _ _ _ _ _ _ => False
  | listName _ => False
  | linkName _ _ => False
  | detail _ _ => False
  | bootFilesystem => False
  | _ => True

end Command

/-- A command with its exit status: a command that fails does nothing. -/
def exitEffect (x : Command × UInt8) (S S' : Storage) : Prop :=
  if x.2 = 0 then x.1.Effect S S' else S' = S

/-- The mdadm commands of the trace succeed; a volume creation has two forms, of which the first may
fail. -/
def MdadmSucceeds (tr : List SysEvent) : Prop := ∀ x ∈ exits tr, x.1.IsSingleMdadm → x.2 = 0

/-! ## Sessions of the storage -/

/-- What does not change of the disks. -/
structure Inventory where
  diskType : Str → SSI_DiskType
  fultondalex8 : Str → Bool

/-- The disk is the one of its name. -/
structure Inventory.Describes (D : Inventory) (d : EndDevice) : Prop where
  diskType : d.diskType = D.diskType d.m_DevName
  fultondalex8 : d.fultondalex8 = D.fultondalex8 d.m_DevName

/-- The container object has the disks that are in the container. -/
structure ShowsArray (D : Inventory) (S : Storage) (a : RaidArray) : Prop where
  members : ∀ x, S.container x = some a.m_DevName ↔ ∃ d ∈ a.m_BlockDevices, d.m_DevName = x
  describes : ∀ d ∈ a.m_BlockDevices, D.Describes d

/-- The volume object has the level of the volume, and its parent is the volume's container. -/
structure ShowsVolume (D : Inventory) (S : Storage) (v : Volume) : Prop where
  level : ∀ c l, S.volume v.m_DevName = some (c, l) → l = v.m_RaidLevel
  container : ∀ c l a, S.volume v.m_DevName = some (c, l) → v.m_pParent = some a → c = a.m_DevName
  parent : ∀ a, v.m_pParent = some a → ShowsArray D S a
  describes : ∀ d ∈ v.m_BlockDevices, D.Describes d

/-- The session shows the storage; a disk that it shows as not in use is in no container. -/
structure Shows (D : Inventory) (S : Storage) (s : CallSession) : Prop where
  disks : ∀ d, s.Lists d → D.Describes d.toEndDevice
  free : ∀ d, s.Lists d → d.diskUsage = .passThru → S.container d.m_DevName = none
  controllers : ∀ d, s.Lists d → ∀ a ∈ d.controllerArrays, ShowsArray D S a
  arrays : ∀ handle a, s.getArray handle = some a → ShowsArray D S a.toRaidArray
  volumes : ∀ handle v, s.getVolume handle = some v → ShowsVolume D S v.toVolume

/-- A call in a session that shows the storage and meets the condition `Meets`, its mdadm commands
succeeding. The row of actions is that of its commands. -/
def ApiTurn (D : Inventory) (Meets : Storage → CallSession → SSI_RaidLevelInfo → ApiCall → Prop)
    (S : Storage) (commands : List (Command × UInt8)) : Prop :=
  ∃ (s : CallSession) (info : SSI_RaidLevelInfo) (rounds : Nat) (call : ApiCall) (env : SysEnv)
    (i : Nat), Shows D S s ∧ Meets S s info call ∧
      MdadmSucceeds ((call.prog s info rounds).run env i).trace ∧
      commands = exits ((call.prog s info rounds).run env i).trace

/-- The storages that a run of such calls comes by. -/
abbrev ApiReaches (D : Inventory)
    (Meets : Storage → CallSession → SSI_RaidLevelInfo → ApiCall → Prop) : Storage → Storage → Prop :=
  Turns.Reaches exitEffect (ApiTurn D Meets)

/-! ## The disks of a call -/

/-- The first of the containers that accepts the disk as a spare. -/
def firstTaker (d : EndDevice) (arrays : List RaidArray) : Option RaidArray :=
  arrays.find? fun a => (a.sparesToAdd [d]).isSome

namespace CallSession

variable (s : CallSession) (info : SSI_RaidLevelInfo)

/-- `SsiDiskMarkAsSpare` does not refuse the disk. -/
def MarksAsSpare (diskHandle : Nat) (d : ListedDevice) : Prop :=
  s.getEndDevice diskHandle = some d ∧ d.fultondalex8 = false ∧ checkNvmeOperationSupport d = .ok

/-- The call gets to a command that adds disks of the list to the container. -/
inductive Adds : ApiCall → RaidArray → List ListedDevice → Prop
  | SsiDiskMarkAsSpare {diskHandle arrayHandle : Nat} {d : ListedDevice} {a : ListedArray}
      (hdisk : s.MarksAsSpare diskHandle d) (hhandle : arrayHandle ≠ SSI_NULL_HANDLE)
      (harray : s.getArray arrayHandle = some a) (hother : d.array ≠ some a.id)
      (hplan : a.sparesPlan [d.toEndDevice] ≠ []) :
      Adds (.SsiDiskMarkAsSpare diskHandle arrayHandle) a.toRaidArray [d]
  | anyArray {diskHandle : Nat} {d : ListedDevice} {a : RaidArray}
      (hdisk : s.MarksAsSpare diskHandle d) (hblock : d.isBlockDevice = true)
      (hcontroller : d.controller.isSome)
      (htaker : firstTaker d.toEndDevice d.controllerArrays = some a)
      (hplan : a.sparesPlan [d.toEndDevice] ≠ []) :
      Adds (.SsiDiskMarkAsSpare diskHandle SSI_NULL_HANDLE) a [d]
  | SsiAddDisksToArray {arrayHandle : Nat} {diskHandles : Option (List Nat)} {a : ListedArray}
      {disks : List ListedDevice} (hcheck : s.checkAddDisks arrayHandle diskHandles = .ok (a, disks))
      (hidle : a.m_Busy = false) (hplan : a.sparesPlan (disks.map (·.toEndDevice)) ≠ []) :
      Adds (.SsiAddDisksToArray arrayHandle diskHandles) a.toRaidArray disks
  | SsiVolumeRebuild {volumeHandle diskHandle : Nat} {v : ListedVolume} {d : ListedDevice}
      {a : RaidArray} {size : UInt64} (hvolume : s.getVolume volumeHandle = some v)
      (hdisk : s.getEndDevice diskHandle = some d) (hfdx8 : d.fultondalex8 = false)
      (hstate : v.m_State = .degraded) (hsector : v.logicalSectorSize = d.m_LogicalSectorSize)
      (hlevel : v.requiredSize = some size) (hsize : ¬ d.m_TotalSize < size)
      (hparent : v.m_pParent = some a) (hplan : a.sparesPlan [d.toEndDevice] ≠ []) :
      Adds (.SsiVolumeRebuild volumeHandle diskHandle) a [d]
  | SsiRaidLevelModify {volumeHandle : Nat} {params : SSI_RaidLevelModifyParams} {v : ListedVolume}
      {disks : List ListedDevice} {a : RaidArray} {names : List Str}
      (hcheck : s.checkModify volumeHandle params = .ok (v, disks)) (hparent : v.m_pParent = some a)
      (hplan : .add a.m_DevName names ∈ v.modifyPlan info params.newStripSize params.newRaidLevel
        params.newSizeInBytes (disks.map (·.toEndDevice))) :
      Adds (.SsiRaidLevelModify volumeHandle params) a disks

/-- The call gets to a command that makes a container of the disks. -/
inductive Collects : ApiCall → List ListedDevice → Prop
  | SsiVolumeCreateFromDisks {params : CreateFromDisksParams} {disks : List ListedDevice}
      (hdisks : s.getEndDevices params.disks = some disks)
      (hsector : ∀ d ∈ disks, ∀ d' ∈ disks.head?, d.m_LogicalSectorSize = d'.m_LogicalSectorSize)
      (hsource : s.getEndDevice params.sourceDisk = none)
      (hfree : ∀ d ∈ disks, d.toEndDevice.IsFree) :
      Collects (.SsiVolumeCreateFromDisks params true) disks
  | SsiDiskMarkAsSpare {diskHandle : Nat} {d : ListedDevice} (hdisk : s.MarksAsSpare diskHandle d)
      (hcontroller : d.controller.isSome)
      (htaker : firstTaker d.toEndDevice d.controllerArrays = none) (hfree : d.toEndDevice.IsFree) :
      Collects (.SsiDiskMarkAsSpare diskHandle SSI_NULL_HANDLE) [d]

end CallSession

/-! ## The disks that a call has found -/

section disks

variable {s : CallSession} {info : SSI_RaidLevelInfo} {call : ApiCall} {a : RaidArray}
  {disks : List ListedDevice} {D : Inventory} {S : Storage}

/-- The disks that a call adds are those that its session lists. -/
theorem lists_of_adds (h : s.Adds info call a disks) : ∀ d ∈ disks, s.Lists d := by
  have hone : ∀ {handle : Nat} {d : ListedDevice}, s.getEndDevice handle = some d →
      ∀ d' ∈ [d], s.Lists d' := by
    intro handle d hd d' hd'
    rw [List.mem_singleton.mp hd']
    exact s.lists_of_getEndDevice hd
  cases h with
  | SsiDiskMarkAsSpare hdisk => exact hone hdisk.1
  | anyArray hdisk => exact hone hdisk.1
  | SsiAddDisksToArray hcheck =>
      exact fun d hd => ((CallSession.addsDisks_of_check hcheck).disks d hd).1
  | SsiVolumeRebuild hvolume hdisk => exact hone hdisk
  | SsiRaidLevelModify hcheck =>
      exact fun d hd => ((CallSession.modifiesVolume_of_check hcheck).disks d hd).1

/-- The disks that a call collects are those that its session lists. -/
theorem lists_of_collects (h : s.Collects call disks) : ∀ d ∈ disks, s.Lists d := by
  cases h with
  | SsiVolumeCreateFromDisks hdisks => exact s.lists_of_mem_getEndDevices hdisks
  | SsiDiskMarkAsSpare hdisk =>
      intro d hd
      rw [List.mem_singleton.mp hd]
      exact s.lists_of_getEndDevice hdisk.1

/-- The array that a call adds disks to is shown by its session as the storage has it. -/
theorem showsArray_of_adds (hshows : Shows D S s) (h : s.Adds info call a disks) :
    ShowsArray D S a := by
  cases h with
  | SsiDiskMarkAsSpare _ _ harray => exact hshows.arrays _ _ harray
  | anyArray hdisk _ _ htaker =>
      exact hshows.controllers _ (s.lists_of_getEndDevice hdisk.1) a (List.mem_of_find?_eq_some htaker)
  | SsiAddDisksToArray hcheck =>
      exact hshows.arrays _ _ (CallSession.addsDisks_of_check hcheck).array
  | SsiVolumeRebuild hvolume _ _ _ _ _ _ hparent => exact (hshows.volumes _ _ hvolume).parent a hparent
  | SsiRaidLevelModify hcheck hparent =>
      exact (hshows.volumes _ _ (CallSession.modifiesVolume_of_check hcheck).volume).parent a hparent

/-- A call adds disks to one container only. -/
theorem adds_unique {a' : RaidArray} {disks' : List ListedDevice} (h : s.Adds info call a disks)
    (h' : s.Adds info call a' disks') : a = a' ∧ disks = disks' := by
  cases h with
  | SsiDiskMarkAsSpare hdisk hhandle harray =>
      cases h' with
      | SsiDiskMarkAsSpare hdisk' _ harray' =>
          obtain rfl := Option.some.inj (hdisk.1.symm.trans hdisk'.1)
          obtain rfl := Option.some.inj (harray.symm.trans harray')
          exact ⟨rfl, rfl⟩
      | anyArray => exact absurd rfl hhandle
  | anyArray hdisk _ _ htaker =>
      cases h' with
      | SsiDiskMarkAsSpare _ hhandle => exact absurd rfl hhandle
      | anyArray hdisk' _ _ htaker' =>
          obtain rfl := Option.some.inj (hdisk.1.symm.trans hdisk'.1)
          exact ⟨Option.some.inj (htaker.symm.trans htaker'), rfl⟩
  | SsiAddDisksToArray hcheck =>
      cases h' with
      | SsiAddDisksToArray hcheck' =>
          obtain ⟨rfl, rfl⟩ := Prod.mk.inj (Except.ok.inj (hcheck.symm.trans hcheck'))
          exact ⟨rfl, rfl⟩
  | SsiVolumeRebuild hvolume hdisk _ _ _ _ _ hparent =>
      cases h' with
      | SsiVolumeRebuild hvolume' hdisk' _ _ _ _ _ hparent' =>
          obtain rfl := Option.some.inj (hvolume.symm.trans hvolume')
          obtain rfl := Option.some.inj (hdisk.symm.trans hdisk')
          exact ⟨Option.some.inj (hparent.symm.trans hparent'), rfl⟩
  | SsiRaidLevelModify hcheck hparent =>
      cases h' with
      | SsiRaidLevelModify hcheck' hparent' =>
          obtain ⟨rfl, rfl⟩ := Prod.mk.inj (Except.ok.inj (hcheck.symm.trans hcheck'))
          exact ⟨Option.some.inj (hparent.symm.trans hparent'), rfl⟩

/-- A call that makes a container adds disks to none. -/
theorem not_adds_of_collects {disks' : List ListedDevice} (h : s.Collects call disks') :
    ¬ s.Adds info call a disks := by
  intro hadds
  cases h with
  | SsiVolumeCreateFromDisks => cases hadds
  | SsiDiskMarkAsSpare hdisk _ htaker =>
      cases hadds with
      | SsiDiskMarkAsSpare _ hhandle => exact hhandle rfl
      | anyArray hdisk' _ _ htaker' =>
          obtain rfl := Option.some.inj (hdisk.1.symm.trans hdisk'.1)
          exact nomatch htaker.symm.trans htaker'

end disks

end Irstessi
