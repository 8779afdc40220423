import Irstessi.RaidDevice

/-!
# `class Array`

The container, and the functions that change its members.

* `RaidArray`.
* `canAddEndDevices`, `getSpareableEndDevices`, `addSpare`, `removeSpare`, `removeSpares`, `grow`.
* One postcondition for each (`addSpare_ensures`, `grow_ensures`): what a return of `SSI_StatusOk`
  says about the exit statuses, and that none of them issues a `--grow -lN`.

A disk is put into a container as a spare, and taken out of it with its superblock cleared. Both are
sequences of shell commands whose statuses decide what follows; the functions are programs over the
calls of `Mdadm`, and what they return is stated for every environment. The postconditions are what the
modules on migrations, on the rollback and on the interface use of these functions: none of them is
unfolded again there.
-/

namespace Irstessi

open Interact

/-- A container.
Source: `array.h` `Array` -/
structure RaidArray extends RaidDevice where
  /-- The identity of the object, `this`. -/
  id : Nat
  m_Busy : Bool
  deriving DecidableEq, Repr

namespace RaidArray

/-- Source: `array.cpp` `isBlockDeviceSata` -/
def isBlockDeviceSata (device : EndDevice) : Bool := device.diskType == .sata

/-- Source: `array.cpp` `isBlockDeviceVmd` -/
def isBlockDeviceVmd (device : EndDevice) : Bool := device.diskType == .vmd

/-- The disks have the technology of the container's first member; a container without members
counts as not SATA.
Source: `array.cpp` `Array::canAddEndDevices` -/
def canAddEndDevices (a : RaidArray) (endDevices : List EndDevice) : SSI_Status :=
  let isSata := match a.m_BlockDevices.head? with
    | some device => isBlockDeviceSata device
    | none => false
  if endDevices.any fun device => device.isBlockDevice &&
      ((isBlockDeviceSata device && !isSata) || (isBlockDeviceVmd device && isSata)) then
    .invalidParameter
  else .ok

/-- The disks that are not spares. The result of the cast is used unchecked.
Source: `array.cpp` `Array::getSpareableEndDevices` -/
def getSpareableEndDevices : List EndDevice → SysProg (List EndDevice)
  | [] => pure []
  | device :: rest =>
      if device.isBlockDevice then do
        let result ← getSpareableEndDevices rest
        pure (if device.diskUsage ≠ .spare then device :: result else result)
      else .throw .nullDereference

/-- The disks of the list that the command of `addSpare` names; none where a disk is refused.
Source: `array.cpp` `Array::addSpare`, the loop -/
def sparesToAdd (a : RaidArray) : List EndDevice → Option (List Str)
  | [] => some []
  | device :: rest =>
      if device.isBlockDevice then
        if device.array = some a.id ∧ device.diskUsage = .spare then sparesToAdd a rest
        else if device.controller.isNone then none
        else if device.systemDisk then none
        else if device.diskUsage ≠ .passThru then none
        else if device.diskState ≠ .normal then none
        else (sparesToAdd a rest).map (device.m_DevName :: ·)
      else none

/-- Source: `array.cpp` `Array::addSpare` -/
def addSpare (a : RaidArray) (container : List EndDevice) : SysProg SSI_Status :=
  match sparesToAdd a container with
  | none => pure .invalidState
  | some [] => pure .ok
  | some endDevices => do
      if (← shellEx (.add a.m_DevName endDevices) 3 0) = 0 then pure .ok else pure .failed

/-- What is checked of a disk that is to be removed without force.
Source: `array.cpp` `Array::removeSpare` -/
def removable (a : RaidArray) (endDevice : EndDevice) : Bool :=
  endDevice.array = some a.id ∧ endDevice.isBlockDevice ∧ endDevice.diskUsage = .spare ∧
    (endDevice.diskState = .normal ∨ endDevice.diskState = .failed ∨
      endDevice.diskState = .smartEventTriggered)

/-- Source: `array.cpp` `Array::removeSpare` -/
def removeSpare (a : RaidArray) (endDevice : EndDevice) (force : Bool) : SysProg SSI_Status :=
  if !force && !a.removable endDevice then pure .invalidState
  else do
    let result ← shellEx (.removeDisk a.m_DevName endDevice.m_DevName) 1 0
    let result ← if result = 0 then shellEx (.zeroSuperblock endDevice.m_DevName) 1 0
      else pure result
    pure (if result = 0 then .ok else .failed)

/-- The status is that of the last removal that failed.
Source: `array.cpp` `Array::removeSpare` of a container -/
def removeSpares (a : RaidArray) (force : Bool) :
    List EndDevice → SSI_Status → SysProg SSI_Status
  | [], status => pure status
  | endDevice :: rest, status => do
      let localStatus ← a.removeSpare endDevice force
      removeSpares a force rest (if localStatus ≠ .ok then localStatus else status)

/-- The members that are counted as such.
Source: `array.cpp` `Array::getEndDevices` with `all` false -/
def getEndDevices (a : RaidArray) : List EndDevice :=
  a.m_BlockDevices.filter fun device => device.diskUsage == .arrayMember

/-- The disks become spares, then members; where that fails the disks that were no spares before
are removed again.
Source: `array.cpp` `Array::grow` -/
def grow (a : RaidArray) (container : List EndDevice) : SysProg SSI_Status :=
  if a.m_Busy then pure .invalidState
  else do
    let addedToSpare ← getSpareableEndDevices container
    let status ← a.addSpare container
    if status = .ok then
      let n := a.getEndDevices.length + container.length
      if (← shellEx (.raidDevices a.m_DevName n) 1 0) ≠ 0 then
        let _ ← a.removeSpares true addedToSpare .ok
        pure .failed
      else pure .ok
    else pure status

/-! ## What the functions return -/

/-- A return of `SSI_StatusOk` means that every command issued exited with 0, and no command sets a
RAID level. -/
def Sound (tr : List SysEvent) (res : Except Fault SSI_Status) : Prop :=
  (res = .ok .ok → AllExitZero tr) ∧ KeepsLevel tr

variable (a : RaidArray)

/-- The unchecked cast: without a block device the pointer is dereferenced all the same. -/
theorem getSpareableEndDevices_eq (disks : List EndDevice) :
    getSpareableEndDevices disks =
      if ∀ d ∈ disks, d.isBlockDevice then
        pure (disks.filter fun d => d.diskUsage ≠ .spare)
      else .throw .nullDereference := by
  induction disks with
  | nil => simp [getSpareableEndDevices]
  | cons d disks ih =>
      have hcons : (∀ e ∈ d :: disks, e.isBlockDevice = true) ↔
          d.isBlockDevice = true ∧ ∀ e ∈ disks, e.isBlockDevice = true := List.forall_mem_cons
      rw [getSpareableEndDevices, ih]
      by_cases hd : d.isBlockDevice
      · by_cases hdisks : ∀ e ∈ disks, e.isBlockDevice
        · rw [if_pos hd, if_pos hdisks, if_pos (hcons.mpr ⟨hd, hdisks⟩)]
          by_cases hspare : d.diskUsage = .spare
          · simp [hspare]
          · simp [hspare]
        · rw [if_pos hd, if_neg hdisks, if_neg fun h => hdisks (hcons.mp h).2]
          rfl
      · rw [if_neg hd, if_neg fun h => hd (hcons.mp h).1]

/-- A disk that is no block device is refused by `addSpare`. -/
theorem forall_isBlockDevice_of_sparesToAdd {disks : List EndDevice} {names : List Str}
    (h : a.sparesToAdd disks = some names) : ∀ d ∈ disks, d.isBlockDevice := by
  induction disks generalizing names with
  | nil => simp
  | cons d disks ih =>
      rw [sparesToAdd] at h
      by_cases hd : d.isBlockDevice
      · refine List.forall_mem_cons.mpr ⟨hd, ?_⟩
        rw [if_pos hd] at h
        split_ifs at h
        · exact ih h
        · obtain ⟨rest, hrest, -⟩ := Option.map_eq_some_iff.mp h
          exact ih hrest
      · rw [if_neg hd] at h
        simp at h

/-- One device of the request that is no block device is enough for `sparesToAdd` to give up. -/
theorem sparesToAdd_eq_none {disks : List EndDevice} (h : ¬ ∀ d ∈ disks, d.isBlockDevice) :
    a.sparesToAdd disks = none := by
  by_contra hsome
  obtain ⟨names, hnames⟩ := Option.ne_none_iff_exists'.mp hsome
  exact h (a.forall_isBlockDevice_of_sparesToAdd hnames)

/-- `addSpare` issues one command at most, and returns `SSI_StatusOk` only if it exits with 0. -/
theorem addSpare_ensures (disks : List EndDevice) :
    Ensures (a.addSpare disks) fun tr res => Sound tr res ∧ ∃ status, res = .ok status := by
  unfold addSpare
  rcases a.sparesToAdd disks with _ | _ | ⟨name, names⟩
  · exact ensures_pure ⟨⟨nofun, keepsLevel_nil⟩, _, rfl⟩
  · exact ensures_pure ⟨⟨fun _ => allExitZero_nil, keepsLevel_nil⟩, _, rfl⟩
  · refine ensures_shellEx_bind (fun reply hzero => ?_) fun reply hfail => ?_
    · refine ensures_pure ⟨⟨fun _ => ?_, ?_⟩, _, rfl⟩
      · rw [allExitZero_cons_shell]
        exact ⟨hzero, allExitZero_nil⟩
      · rw [keepsLevel_cons_shell]
        exact ⟨rfl, keepsLevel_nil⟩
    · refine ensures_pure ⟨⟨nofun, ?_⟩, _, rfl⟩
      rw [keepsLevel_cons_shell]
      exact ⟨rfl, keepsLevel_nil⟩

/-- A removal returns, and sets no level. -/
theorem removeSpare_ensures (d : EndDevice) (force : Bool) :
    Ensures (a.removeSpare d force) fun tr res => KeepsLevel tr ∧ ∃ status, res = .ok status := by
  unfold removeSpare
  split
  next => exact ensures_pure ⟨keepsLevel_nil, _, rfl⟩
  next =>
    refine ensures_shellEx_bind (fun reply _ => ?_) fun reply _ => ?_
    · refine ensures_shellEx_bind (fun reply' _ => ?_) fun reply' _ => ?_
      · exact ensures_pure ⟨by simp [Command.level?], _, rfl⟩
      · exact ensures_pure ⟨by simp [Command.level?], _, rfl⟩
    · exact ensures_pure ⟨by simp [Command.level?], _, rfl⟩

/-- Removing spares issues no command that stops or reshapes anything, and throws nothing that it does
not catch. -/
theorem removeSpares_ensures (force : Bool) (disks : List EndDevice) (status : SSI_Status) :
    Ensures (a.removeSpares force disks status) fun tr res =>
      KeepsLevel tr ∧ ∃ status, res = .ok status := by
  induction disks generalizing status with
  | nil => exact ensures_pure ⟨keepsLevel_nil, _, rfl⟩
  | cons d disks ih =>
      refine ensures_bind (a.removeSpare_ensures d force) (fun tr s htr => ?_) fun tr e htr => ?_
      · exact (ih _).mono fun tr' res h => ⟨keepsLevel_append.mpr ⟨htr.1, h.1⟩, h.2⟩
      · obtain ⟨-, status, h⟩ := htr
        simp at h

/-- `grow` returns `SSI_StatusOk` only if every command exits with 0, and sets no level. -/
theorem grow_ensures (disks : List EndDevice) : Ensures (a.grow disks) Sound := by
  unfold grow
  split
  next => exact ensures_pure ⟨nofun, keepsLevel_nil⟩
  next =>
    rw [getSpareableEndDevices_eq]
    split
    next =>
      rw [Prog.pure_bind]
      refine ensures_bind (a.addSpare_ensures disks) (fun tr status htr => ?_) fun tr e htr => ?_
      · obtain ⟨⟨hzero, hlevel⟩, -⟩ := htr
        split
        next hok =>
          refine ensures_shellEx_bind (fun reply hexit => ?_) fun reply hexit => ?_
          · refine ensures_pure ⟨fun _ => ?_, ?_⟩
            · rw [allExitZero_append]
              exact ⟨hzero (by rw [hok]), by simpa using hexit⟩
            · simp [hlevel, Command.level?]
          · refine ensures_bind (a.removeSpares_ensures _ _ _) (fun tr' s htr' => ?_)
              fun tr' e htr' => ?_
            · refine ensures_pure ⟨nofun, ?_⟩
              simp [hlevel, htr'.1, Command.level?]
            · obtain ⟨-, s, hs⟩ := htr'
              simp at hs
        next hok =>
          refine ensures_pure ⟨fun h => ?_, by simpa using hlevel⟩
          exact absurd (Except.ok.inj h) hok
      · obtain ⟨-, status, h⟩ := htr
        simp at h
    next => exact ensures_throw ⟨nofun, keepsLevel_nil⟩

/-! ## When `grow` succeeds -/

/-- The number of commands that `addSpare` issues. -/
def spareCalls (disks : List EndDevice) : Nat :=
  match a.sparesToAdd disks with
  | some (_ :: _) => 1
  | _ => 0

/-- No disk is refused and the command that adds the spares, if one is needed, exits with 0. -/
def SparesAdded (disks : List EndDevice) (env : SysEnv) (i : Nat) : Prop :=
  match a.sparesToAdd disks with
  | none => False
  | some [] => True
  | some names => exitOf env i (.add a.m_DevName names) = 0

/-- The container is not busy, the spares are added and the command that grows it exits with 0. -/
def GrowSucceeds (disks : List EndDevice) (env : SysEnv) (i : Nat) : Prop :=
  a.m_Busy = false ∧ a.SparesAdded disks env i ∧
    exitOf env (i + a.spareCalls disks)
      (.raidDevices a.m_DevName (a.getEndDevices.length + disks.length)) = 0

/-- A disk that is no block device reaches the unchecked cast. -/
def GrowCrashes (disks : List EndDevice) : Prop :=
  a.m_Busy = false ∧ ∃ d ∈ disks, d.isBlockDevice = false

/-- Where a disk is refused the call sequence is empty; otherwise it is the one command. -/
theorem addSpare_run (disks : List EndDevice) (env : SysEnv) (i : Nat) :
    ((a.addSpare disks).run env i).trace.length = a.spareCalls disks ∧
    ∃ status, ((a.addSpare disks).run env i).result = .ok status ∧
      (status = .ok ↔ a.SparesAdded disks env i) := by
  unfold addSpare spareCalls SparesAdded
  rcases a.sparesToAdd disks with _ | _ | ⟨name, names⟩
  · exact ⟨rfl, .invalidState, rfl, by simp⟩
  · exact ⟨rfl, .ok, rfl, by simp⟩
  · obtain ⟨htrace, hresult⟩ := run_shellEx env i (.add a.m_DevName (name :: names)) 3 0
    simp only
    rw [Prog.run_bind_ok env i hresult, htrace]
    by_cases hexit : exitOf env i (.add a.m_DevName (name :: names)) = 0
    · rw [if_pos hexit]
      exact ⟨rfl, .ok, rfl, by simp [hexit]⟩
    · rw [if_neg hexit]
      exact ⟨rfl, .failed, rfl, by simp [hexit]⟩

/-- The removal of spares returns. -/
theorem removeSpares_returns (force : Bool) (disks : List EndDevice) (status : SSI_Status)
    (env : SysEnv) (i : Nat) : ∃ s, ((a.removeSpares force disks status).run env i).result = .ok s :=
  (a.removeSpares_ensures force disks status env i).2

/-- `grow` crashes, or it returns a status, which is `SSI_StatusOk` exactly where it succeeds. -/
theorem grow_run (disks : List EndDevice) (env : SysEnv) (i : Nat) :
    (a.GrowCrashes disks ∧ ((a.grow disks).run env i).result = .error .nullDereference) ∨
    (¬ a.GrowCrashes disks ∧ ∃ status, ((a.grow disks).run env i).result = .ok status ∧
      (status = .ok ↔ a.GrowSucceeds disks env i)) := by
  unfold grow
  by_cases hbusy : a.m_Busy
  · refine .inr ⟨fun h => by simp [h.1] at hbusy, .invalidState, by rw [if_pos hbusy]; rfl, ?_⟩
    simp [GrowSucceeds, hbusy]
  rw [if_neg hbusy, getSpareableEndDevices_eq]
  rw [Bool.not_eq_true] at hbusy
  by_cases hblock : ∀ d ∈ disks, d.isBlockDevice
  · rw [if_pos hblock, Prog.pure_bind]
    refine .inr ⟨?_, ?_⟩
    · rintro ⟨-, d, hd, hnot⟩
      simp [hblock d hd] at hnot
    obtain ⟨hlen, status, hresult, hstatus⟩ := a.addSpare_run disks env i
    rw [Prog.run_bind_ok env i hresult, hlen]
    by_cases hok : status = .ok
    · rw [if_pos hok]
      obtain ⟨-, hgrow⟩ := run_shellEx env (i + a.spareCalls disks)
        (.raidDevices a.m_DevName (a.getEndDevices.length + disks.length)) 1 0
      rw [Prog.run_bind_ok env _ hgrow]
      by_cases hexit : exitOf env (i + a.spareCalls disks)
          (.raidDevices a.m_DevName (a.getEndDevices.length + disks.length)) = 0
      · rw [if_pos hexit]
        exact ⟨.ok, rfl, by simp [GrowSucceeds, hbusy, hstatus.mp hok, hexit]⟩
      · rw [if_neg hexit]
        refine ⟨.failed, ?_, by simp [GrowSucceeds, hexit]⟩
        obtain ⟨s, hs⟩ := a.removeSpares_returns true
          (disks.filter fun d => d.diskUsage ≠ .spare) .ok env
          (i + a.spareCalls disks + ((shellEx (.raidDevices a.m_DevName
            (a.getEndDevices.length + disks.length)) 1 0).run env
              (i + a.spareCalls disks)).trace.length)
        rw [if_pos (by simp), Prog.run_bind_ok env _ hs]
        rfl
    · rw [if_neg hok]
      exact ⟨status, rfl, by simp [GrowSucceeds, hok, ← hstatus]⟩
  · rw [if_neg hblock]
    refine .inl ⟨⟨hbusy, ?_⟩, rfl⟩
    push Not at hblock
    simpa using hblock

end RaidArray

/-! ## Samples -/

/-- A disk of a controller that supports every level. -/
def sampleDisk (devName : Str) (usage : SSI_DiskUsage) : EndDevice :=
  let controller : Controller := ⟨.ahci, .none, []⟩
  ⟨true, devName, .sata, usage, .normal, false, false, some controller, some 1,
    some ⟨⟨true, true, true, true, false, 0xffff, 8⟩, some controller⟩⟩

/-- A container of two disks. -/
def sampleArray : RaidArray :=
  ⟨⟨.empty, .ofLit "md127", .ofLit "imsm0", .ofLit "aa:1",
    [sampleDisk (.ofLit "sda") .arrayMember, sampleDisk (.ofLit "sdb") .arrayMember]⟩, 1, false⟩

/-- A local variable for the information of a level before it is filled. -/
def sampleInfo : SSI_RaidLevelInfo := ⟨false, 0, 0, 0, 0, 0, false, false, 0, false⟩

end Irstessi
