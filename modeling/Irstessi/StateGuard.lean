import Irstessi.FreeDisks
import Irstessi.Rename

/-!
# Changes of a volume that is not Normal

`Volume::expand` and `Volume::rename` look at the state of the volume, `Volume::modify` does not, and
`Array::grow` looks whether the container is busy.

* `ChangeCall`: the four calls that change volumes, with their programs.
* `RaidArray.Grows`, `Volume.Migrates`: the requests that get to a command that changes the
  container or the volume; `mayCall_addDisks`, `mayCall_modify_iff`.
* **`guardsState_iff`**: a call changes only volumes in state Normal, or it does not get to a command.
* `CallSession.Busy`: what `Array::addToSession` notes about the volumes; with it
  `SsiAddDisksToArray` is guarded (`guardsState_addDisks`).

Whether a call may get to a command is asked of its program, over all environments (`MayCall`). For the
migrations the plans of `Plans` answer it: a command may be issued where it is on the plan, and when a
plan has a command that changes something can be read off the arguments, function by function. The two
calls that look at the state are guarded at once; the other two are guarded where they do not get that
far. `CallSession.Busy` is not part of the theorem: it is what a session that has discovered its
containers brings with it, and shows that the check of `Array::grow` is one of the state after all.
-/

namespace Irstessi

open Interact

/-! ## The calls -/

/-- A call that changes a volume, or all volumes of a container. -/
inductive ChangeCall
  | SsiRaidLevelModify (volumeHandle : Nat) (params : SSI_RaidLevelModifyParams)
  | SsiExpandVolume (volumeHandle : Nat) (newSizeMB : UInt64)
  | SsiVolumeRename (volumeHandle : Nat) (volumeName : List UInt8)
  | SsiAddDisksToArray (arrayHandle : Nat) (diskHandles : Option (List Nat))
  deriving DecidableEq, Repr

namespace ChangeCall

variable (s : CallSession) (info : SSI_RaidLevelInfo)

/-- The program of a call in the session that it has opened. -/
def prog : ChangeCall → SysProg SSI_Status
  | SsiRaidLevelModify volumeHandle params =>
      Irstessi.SsiRaidLevelModify s info volumeHandle params
  | SsiExpandVolume volumeHandle newSizeMB => Irstessi.SsiExpandVolume s volumeHandle newSizeMB
  | SsiVolumeRename volumeHandle volumeName => Irstessi.SsiVolumeRename s volumeHandle volumeName
  | SsiAddDisksToArray arrayHandle diskHandles =>
      Irstessi.SsiAddDisksToArray s arrayHandle diskHandles

/-- The volume of the handle is Normal. -/
def VolumeNormal (volumeHandle : Nat) : Prop :=
  ∀ v, s.getVolume volumeHandle = some v → v.m_State = .normal

/-- The volume of the call, or all volumes of its container, are Normal. -/
def TargetsNormal : ChangeCall → Prop
  | SsiRaidLevelModify volumeHandle _ => VolumeNormal s volumeHandle
  | SsiExpandVolume volumeHandle _ => VolumeNormal s volumeHandle
  | SsiVolumeRename volumeHandle _ => VolumeNormal s volumeHandle
  | SsiAddDisksToArray arrayHandle _ =>
      ∀ a, s.getArray arrayHandle = some a → ∀ v ∈ a.m_Volumes, v.m_State = .normal

/-- In no run a command stops, renames, grows or reshapes anything unless the call's volumes are
Normal. -/
def GuardsState (call : ChangeCall) : Prop :=
  ∀ env i, ∀ x ∈ exits ((call.prog s info).run env i).trace, x.1.IsStructural → call.TargetsNormal s

end ChangeCall

/-! ## Requests that get to a command -/

/-- The container is not busy and accepts all disks as spares. -/
def RaidArray.Grows (a : RaidArray) (disks : List EndDevice) : Prop :=
  a.m_Busy = false ∧ a.sparesToAdd disks ≠ none

namespace Volume

variable (v : Volume) (stripSize : SSI_StripSize) (disks : List EndDevice)

/-- Requests for level 0 that get to a command, in the container `a`. -/
def MigratesTo0 (a : RaidArray) : Prop :=
  (v.m_RaidLevel = 0 ∧ disks = [] ∧ v.chunkChange stripSize = true) ∨
  (v.m_RaidLevel = 0 ∧ disks ≠ [] ∧ v.chunkChange stripSize = false ∧
    a.canAddEndDevices disks = .ok ∧ a.Grows disks) ∨
  (v.m_RaidLevel = 1 ∧ v.chunkChange stripSize = false ∧ stripSize = SSI_StripSize64kB ∧
    a.canAddEndDevices disks = .ok) ∨
  (v.m_RaidLevel = 10 ∧ (disks = [] ∨ v.chunkChange stripSize = false) ∧
    a.canAddEndDevices disks = .ok) ∨
  (v.m_RaidLevel = 5 ∧ disks = [] ∧ v.chunkChange stripSize = false)

/-- Requests for level 10 that get to a command. -/
def MigratesTo10 (a : RaidArray) : Prop :=
  v.m_RaidLevel = 0 ∧ v.m_BlockDevices.length = 2 ∧ disks.length = 2 ∧
    v.chunkChange stripSize = false ∧ a.canAddEndDevices disks = .ok ∧ a.sparesToAdd disks ≠ none

/-- Requests for level 5 that get to a command. -/
def MigratesTo5 (a : RaidArray) : Prop :=
  (v.m_RaidLevel = 0 ∧ disks.length = 1 ∧ a.canAddEndDevices disks = .ok ∧
    a.sparesToAdd disks ≠ none) ∨
  (v.m_RaidLevel = 10 ∧ disks = []) ∨
  (v.m_RaidLevel = 5 ∧ disks = []) ∨
  (v.m_RaidLevel = 5 ∧ v.chunkChange stripSize = false ∧ a.canAddEndDevices disks = .ok ∧
    a.Grows disks)

/-- The checks of `modify` let the request pass, the volume has a parent, and the strip size can be
converted; then it is one that gets to a command. -/
def Migrates (info : SSI_RaidLevelInfo) (raidLevel : SSI_RaidLevel) (newSize : UInt64) : Prop :=
  v.modifyCheck info stripSize raidLevel newSize disks = none ∧
    ∃ a, v.m_pParent = some a ∧
      ((raidLevel = SSI_Raid0 ∧ v.chunkArgument stripSize ≠ none ∧ v.MigratesTo0 stripSize disks a) ∨
        (raidLevel = SSI_Raid10 ∧ v.MigratesTo10 stripSize disks a) ∨
        (raidLevel = SSI_Raid5 ∧ v.chunkArgument stripSize ≠ none ∧ v.MigratesTo5 stripSize disks a))

end Volume

/-- The call gets to a command that changes its volumes, whatever their state. -/
def ChangeCall.GetsToCommand (s : CallSession) (info : SSI_RaidLevelInfo) : ChangeCall → Prop
  | SsiRaidLevelModify volumeHandle params =>
      ∃ v container, s.checkModify volumeHandle params = .ok (v, container) ∧
        v.toVolume.Migrates params.newStripSize (container.map (·.toEndDevice)) info
          params.newRaidLevel params.newSizeInBytes
  | SsiAddDisksToArray arrayHandle diskHandles =>
      ∃ a container, s.checkAddDisks arrayHandle diskHandles = .ok (a, container) ∧
        a.Grows (container.map (·.toEndDevice))
  -- the state is looked at first
  | SsiExpandVolume _ _ => False
  | SsiVolumeRename _ _ => False

/-! ## Structural commands of plans -/

/-- A program that keeps to a plan may issue a structural command iff the plan has one: on the run where
all commands succeed it carries out the whole plan. -/
theorem mayCall_iff_of_keeps {p : SysProg SSI_Status} {plan : List Command}
    (h : Volume.Keeps p plan) :
    p.MayCall (IsShell Command.IsStructural) ↔ ∃ cmd ∈ plan, cmd.IsStructural := by
  apply h.mayCall_iff
  intro cmd hcmd hstructural
  cases cmd <;> first | exact hcmd | exact hstructural

section plans

variable {a : RaidArray} {v : Volume} {disks : List EndDevice} {stripSize : SSI_StripSize}

/-- A structural command behind the spares makes the plan structural. -/
theorem exists_sparesPlan_append {cmd : Command} (h : cmd.IsStructural) :
    ∃ cmd' ∈ a.sparesPlan disks ++ [cmd], cmd'.IsStructural :=
  ⟨cmd, by simp, h⟩

/-- Growing a container issues its command only where the disks can all be taken as spares. -/
theorem exists_growPlan_iff :
    (∃ cmd ∈ a.growPlan disks, cmd.IsStructural) ↔ a.Grows disks := by
  unfold RaidArray.growPlan RaidArray.Grows
  by_cases h : a.m_Busy = true ∨ a.sparesToAdd disks = none
  · rw [if_pos h]
    apply iff_of_false (by simp)
    intro hgrows
    rcases h with h | h
    · rw [hgrows.1] at h
      simp at h
    · exact hgrows.2 h
  · rw [if_neg h]
    rw [not_or, Bool.not_eq_true] at h
    exact iff_of_true (exists_sparesPlan_append trivial) h

/-- From level 0 to level 0 there is a change of the strip size, or a growth, but not both. -/
theorem exists_toRaid0From0Plan_iff {chunkChange : Bool} {ch : Option Nat} :
    (∃ cmd ∈ v.toRaid0From0Plan a chunkChange ch disks, cmd.IsStructural) ↔
      (disks = [] ∧ chunkChange = true) ∨
        (disks ≠ [] ∧ chunkChange = false ∧ a.canAddEndDevices disks = .ok ∧ a.Grows disks) := by
  unfold Volume.toRaid0From0Plan
  by_cases hdisks : disks = []
  · cases chunkChange with
    | true => simp [hdisks, Command.IsStructural]
    | false => simp [hdisks]
  · have hlength : disks.length ≠ 0 := by simp [hdisks]
    rw [if_neg hlength]
    split
    next h =>
      apply iff_of_false (by simp)
      rintro (⟨hnil, -⟩ | ⟨-, hchunk, hadd, -⟩)
      · exact hdisks hnil
      · rcases h with h | h
        · rw [hchunk] at h
          simp at h
        · exact h hadd
    next h =>
      rw [not_or, Bool.not_eq_true, not_not] at h
      rw [exists_growPlan_iff]
      simp [hdisks, h]

/-- From level 1 only the strip size of 64 kB is taken. -/
theorem exists_toRaid0From1Plan_iff {chunkChange : Bool} :
    (∃ cmd ∈ v.toRaid0From1Plan a chunkChange stripSize disks, cmd.IsStructural) ↔
      chunkChange = false ∧ stripSize = SSI_StripSize64kB ∧ a.canAddEndDevices disks = .ok := by
  unfold Volume.toRaid0From1Plan
  split
  next h =>
    apply iff_of_false (by simp)
    rintro ⟨hchunk, hstrip, hadd⟩
    simp [hchunk, hstrip, hadd] at h
  next h =>
    refine iff_of_true ⟨_, List.mem_cons_self, trivial⟩ ?_
    simpa only [not_or, Bool.not_eq_true, not_not] using h

/-- From level 10 either disks or another strip size, never both. -/
theorem exists_toRaid0From10Plan_iff {chunkChange : Bool} {ch : Option Nat} :
    (∃ cmd ∈ v.toRaid0From10Plan a chunkChange ch disks, cmd.IsStructural) ↔
      (disks = [] ∨ chunkChange = false) ∧ a.canAddEndDevices disks = .ok := by
  unfold Volume.toRaid0From10Plan
  split
  next h =>
    apply iff_of_false (by simp)
    rintro ⟨hone, hadd⟩
    rcases hone with hnil | hchunk
    · simp [hnil] at h
      exact h (hnil ▸ hadd)
    · simp [hchunk, hadd] at h
  next h =>
    refine iff_of_true ⟨_, List.mem_cons_self, trivial⟩ ?_
    rw [not_or, not_and_or, not_not, Bool.not_eq_true] at h
    refine ⟨h.1.imp_left fun hnone => ?_, h.2⟩
    exact List.length_eq_zero_iff.mp (by omega)

/-- From level 5 neither disks nor another strip size. -/
theorem exists_toRaid0From5Plan_iff {chunkChange : Bool} :
    (∃ cmd ∈ v.toRaid0From5Plan chunkChange disks, cmd.IsStructural) ↔
      disks = [] ∧ chunkChange = false := by
  unfold Volume.toRaid0From5Plan
  by_cases hdisks : disks = []
  · cases chunkChange with
    | true => simp
    | false => simp [hdisks, Command.IsStructural]
  · have hlength : disks.length > 0 := List.length_pos_iff.mpr hdisks
    rw [if_pos (.inl hlength)]
    simp [hdisks]

/-- The migrations to level 0 together: the volume has a parent, the strip size can be written as an
argument, and one of the four is possible. -/
theorem exists_toRaid0Plan_iff :
    (∃ cmd ∈ v.toRaid0Plan stripSize disks, cmd.IsStructural) ↔
      ∃ a, v.m_pParent = some a ∧ v.chunkArgument stripSize ≠ none ∧
        v.MigratesTo0 stripSize disks a := by
  unfold Volume.toRaid0Plan Volume.MigratesTo0
  rcases v.m_pParent with _ | a
  · simp
  rcases v.chunkArgument stripSize with _ | ch
  · simp
  simp only [Option.some.injEq, exists_eq_left', ne_eq, reduceCtorEq, not_false_eq_true, true_and]
  split
  next h => simp [h, exists_toRaid0From0Plan_iff]
  next h0 =>
    split
    next h => simp [h, exists_toRaid0From1Plan_iff]
    next h1 =>
      split
      next h => simp [h, exists_toRaid0From10Plan_iff]
      next h10 =>
        split
        next h => simp [h, exists_toRaid0From5Plan_iff]
        next h5 => simp [h0, h1, h10, h5]

/-- The migration to level 10 is possible in one way only, from level 0 with two disks. -/
theorem exists_toRaid10Plan_iff :
    (∃ cmd ∈ v.toRaid10Plan stripSize disks, cmd.IsStructural) ↔
      ∃ a, v.m_pParent = some a ∧ v.MigratesTo10 stripSize disks a := by
  unfold Volume.toRaid10Plan Volume.MigratesTo10
  rcases v.m_pParent with _ | a
  · simp
  simp only [Option.some.injEq, exists_eq_left']
  split
  next h =>
    apply iff_of_false (by simp)
    rintro ⟨hlevel, hmembers, hdisks, hchunk, hadd, hspares⟩
    simp [hlevel, hmembers, hdisks, hchunk, hadd, hspares] at h
  next h =>
    refine iff_of_true (exists_sparesPlan_append trivial) ?_
    simpa only [not_or, Bool.not_eq_true, not_not] using h

/-- The migrations to level 5 together, from the levels 0, 10 and 5. -/
theorem exists_toRaid5Plan_iff :
    (∃ cmd ∈ v.toRaid5Plan stripSize disks, cmd.IsStructural) ↔
      ∃ a, v.m_pParent = some a ∧ v.chunkArgument stripSize ≠ none ∧
        v.MigratesTo5 stripSize disks a := by
  unfold Volume.toRaid5Plan Volume.MigratesTo5
  rcases v.m_pParent with _ | a
  · simp
  rcases v.chunkArgument stripSize with _ | ch
  · simp
  simp only [Option.some.injEq, exists_eq_left', ne_eq, reduceCtorEq, not_false_eq_true, true_and]
  split
  next hlevel =>
    unfold Volume.toRaid5From0Plan
    split
    next h =>
      apply iff_of_false (by simp)
      simp only [hlevel, true_and]
      rintro (⟨hdisks, hadd, hspares⟩ | ⟨h10, -⟩ | ⟨h5, -⟩ | ⟨h5, -⟩)
      · simp [hdisks, hadd, hspares] at h
      · exact absurd h10 (by simp)
      · exact absurd h5 (by simp)
      · exact absurd h5 (by simp)
    next h =>
      refine iff_of_true (exists_sparesPlan_append trivial) (.inl ⟨hlevel, ?_⟩)
      simpa only [not_or, not_not] using h
  next h0 =>
    split
    next hlevel =>
      unfold Volume.toRaid5From10Plan
      by_cases hdisks : disks = []
      · simp [hlevel, hdisks, Command.IsStructural]
      · simp [hlevel, hdisks]
    next h10 =>
      split
      next hlevel =>
        unfold Volume.toRaid5From5Plan
        by_cases hdisks : disks = []
        · simp [hlevel, hdisks, Command.IsStructural]
        · have hlength : disks.length ≠ 0 := by simp [hdisks]
          rw [if_neg hlength]
          split
          next h =>
            apply iff_of_false (by simp)
            simp only [hlevel, hdisks, and_false, false_or]
            rintro (⟨h0', -⟩ | ⟨-, hchunk, hadd, -⟩)
            · exact absurd h0' (by simp)
            · simp [hchunk, hadd] at h
          next h =>
            rw [not_or, Bool.not_eq_true, not_not] at h
            rw [exists_growPlan_iff]
            simp [hlevel, hdisks, h]
      next h5 => simp [h0, h10, h5]

end plans

/-- `Volume::modify` may issue a structural command exactly where its checks pass and a migration is
possible; the volume's state is nowhere in the condition. -/
theorem mayCall_modify_iff (v : Volume) (info : SSI_RaidLevelInfo) (stripSize : SSI_StripSize)
    (raidLevel : SSI_RaidLevel) (newSize : UInt64) (disks : List EndDevice) :
    (v.modify info stripSize raidLevel newSize disks).MayCall (IsShell Command.IsStructural) ↔
      v.Migrates stripSize disks info raidLevel newSize := by
  rw [mayCall_iff_of_keeps (v.keeps_modify info stripSize raidLevel newSize disks)]
  unfold Volume.modifyPlan Volume.Migrates
  split
  next hcheck =>
    have h0_10 : SSI_Raid0 ≠ SSI_Raid10 := by decide
    have h0_5 : SSI_Raid0 ≠ SSI_Raid5 := by decide
    have h10_5 : SSI_Raid10 ≠ SSI_Raid5 := by decide
    simp only [hcheck, true_and]
    split
    next h => simp [h, exists_toRaid0Plan_iff, h0_10, h0_5]
    next h0 =>
      split
      next h => simp [h, exists_toRaid10Plan_iff, h0_10.symm, h10_5]
      next h10 =>
        split
        next h => simp [h, exists_toRaid5Plan_iff, h0_5.symm, h10_5.symm]
        next h5 => simp [h0, h10, h5]
  next hcheck => simp [hcheck]

/-! ## Guarded calls -/

namespace ChangeCall

variable (s : CallSession) (info : SSI_RaidLevelInfo)

/-- What all runs issue is what the program may issue. -/
theorem guardsState_iff_mayCall (call : ChangeCall) :
    call.GuardsState s info ↔
      ((call.prog s info).MayCall (IsShell Command.IsStructural) → call.TargetsNormal s) := by
  rw [mayCall_isShell_iff]
  constructor
  · rintro hguards ⟨env, i, x, hx, hstructural⟩
    exact hguards env i x hx hstructural
  · intro h env i x hx hstructural
    exact h ⟨env, i, x, hx, hstructural⟩

/-- The entry point gets to a command exactly where `modify` does on the volume and the container that
the handles stand for. -/
theorem mayCall_modify (volumeHandle : Nat) (params : SSI_RaidLevelModifyParams) :
    (prog s info (SsiRaidLevelModify volumeHandle params)).MayCall (IsShell Command.IsStructural) ↔
      GetsToCommand s info (SsiRaidLevelModify volumeHandle params) := by
  unfold prog GetsToCommand Irstessi.SsiRaidLevelModify
  rcases hcheck : s.checkModify volumeHandle params with status | ⟨v, container⟩
  · simp [hcheck]
  · simp [hcheck, mayCall_modify_iff]

/-- The entry point gets to a command exactly where the container may grow. -/
theorem mayCall_addDisks (arrayHandle : Nat) (diskHandles : Option (List Nat)) :
    (prog s info (SsiAddDisksToArray arrayHandle diskHandles)).MayCall
        (IsShell Command.IsStructural) ↔
      GetsToCommand s info (SsiAddDisksToArray arrayHandle diskHandles) := by
  unfold prog GetsToCommand Irstessi.SsiAddDisksToArray
  rcases hcheck : s.checkAddDisks arrayHandle diskHandles with status | ⟨a, container⟩
  · simp [hcheck]
  · have hgrow := mayCall_iff_of_keeps (a.follows_grow (container.map (·.toEndDevice)))
    simp only [hcheck]
    rw [Prog.mayCall_bind, mayCall_attempt, hgrow, exists_growPlan_iff, or_iff_left]
    · simp
    · rintro ⟨r, -, h⟩
      cases r <;> exact h

/-- `Volume::expand` starts with a look at the state, so that a command is issued for a Normal volume
only. -/
theorem targetsNormal_of_expand {volumeHandle : Nat} {newSizeMB : UInt64}
    (h : (prog s info (SsiExpandVolume volumeHandle newSizeMB)).MayCall
      (IsShell Command.IsStructural)) : VolumeNormal s volumeHandle := by
  intro v hv
  by_contra hstate
  simp [prog, Irstessi.SsiExpandVolume, hv, Volume.expand, hstate] at h

/-- `Volume::rename` starts with a look at the state, so that a command is issued for a Normal volume
only. -/
theorem targetsNormal_of_rename {volumeHandle : Nat} {volumeName : List UInt8}
    (h : (prog s info (SsiVolumeRename volumeHandle volumeName)).MayCall
      (IsShell Command.IsStructural)) : VolumeNormal s volumeHandle := by
  intro v hv
  by_contra hstate
  unfold prog Irstessi.SsiVolumeRename at h
  simp only [hv] at h
  split at h
  next => exact h
  next =>
    unfold Volume.rename at h
    split at h
    next => exact h
    next =>
      rw [if_pos hstate] at h
      exact h

end ChangeCall

/-- **A change is guarded by the state** exactly where the volumes of the call are Normal or the request
does not get to a command. Whether a request gets to a command is a condition on the request, the limits
of the level and the session, given by `GetsToCommand` without any run. A request that does get there
issues a command in some run, whatever the state of the volume is. -/
theorem guardsState_iff (s : CallSession) (info : SSI_RaidLevelInfo) (call : ChangeCall) :
    call.GuardsState s info ↔ call.TargetsNormal s ∨ ¬ call.GetsToCommand s info := by
  rw [ChangeCall.guardsState_iff_mayCall, imp_iff_or_not]
  cases call with
  | SsiRaidLevelModify volumeHandle params => rw [ChangeCall.mayCall_modify]
  | SsiAddDisksToArray arrayHandle diskHandles => rw [ChangeCall.mayCall_addDisks]
  | SsiExpandVolume volumeHandle newSizeMB =>
      refine iff_of_true ?_ (.inr id)
      exact or_not_of_imp (ChangeCall.targetsNormal_of_expand s info)
  | SsiVolumeRename volumeHandle volumeName =>
      refine iff_of_true ?_ (.inr id)
      exact or_not_of_imp (ChangeCall.targetsNormal_of_rename s info)

section sample

/-- A degraded volume of level 1 is taken to level 0. -/
theorem not_guardsState_degraded :
    ¬ ∀ (s : CallSession) (info : SSI_RaidLevelInfo) (call : ChangeCall), call.GuardsState s info := by
  intro hguards
  let v : ListedVolume := ⟨{ Volume.sampleMirror with m_State := .degraded }, 1024, 512⟩
  let s : CallSession := ⟨[], [], [(4, v)], 5⟩
  let params : SSI_RaidLevelModifyParams := ⟨SSI_StripSize64kB, SSI_Raid0, 0, some []⟩
  have hrun := hguards s sampleInfo (.SsiRaidLevelModify 4 params) (Volume.constantExit 0) 0
    (.growLevel0 (.ofLit "md126") none, 0) (by decide) trivial v rfl
  simp at hrun

end sample

/-! ## Busy containers -/

/-- A container with a volume that is not Normal is busy, as its volumes and the session see it.
Source: `array.cpp` `Array::addToSession` -/
structure CallSession.Busy (s : CallSession) : Prop where
  arrays : ∀ handle a, s.getArray handle = some a →
    a.m_Busy = a.m_Volumes.any fun v => v.m_State ≠ .normal
  parents : ∀ handle v a, s.getVolume handle = some v → v.m_pParent = some a →
    v.m_State ≠ .normal → a.m_Busy = true

/-- In a session whose containers have been added as a whole, disks are added to Normal volumes
only. -/
theorem guardsState_addDisks {s : CallSession} (hbusy : s.Busy) (info : SSI_RaidLevelInfo)
    (arrayHandle : Nat) (diskHandles : Option (List Nat)) :
    ChangeCall.GuardsState s info (.SsiAddDisksToArray arrayHandle diskHandles) := by
  rw [ChangeCall.guardsState_iff_mayCall, ChangeCall.mayCall_addDisks]
  rintro ⟨a, container, hcheck, hidle, -⟩ a' hget v hv
  obtain rfl := Option.some.inj
    ((CallSession.addsDisks_of_check hcheck).array.symm.trans hget)
  rw [hbusy.arrays _ _ hget, List.any_eq_false] at hidle
  simpa using hidle v hv

end Irstessi
