import Irstessi.Text
import Irstessi.VolumeDiscover

/-!
# `class Volume`: creation

* The setters that `SsiVolumeCreateFromDisks` and `SsiVolumeCreate` call, and what the two do to a
  new volume before they create it: `settings`, `prepare`.
* `createCommands`: the commands of `Volume::create`; `waitForVolume`: its wait for the map file;
  `create`: the function.
* `returns_settings`, `returns_createCommands`: neither the setters nor the commands change device
  name and uuid, and the volume has a name when the wait begins.
* `calls_prepare`, `calls_create_of`: the commands that are issued.

The setters throw, and their exceptions are caught by the callers, which turn them into statuses;
`orRaise` takes a setter's result into a program. A creation names the volume, tries its command with
two spellings of an option, and waits. The wait updates the container and the volume from the map file
up to ten times, as long as the volume has no uuid. The rules on what may be issued are stated for any
predicate on commands, so that the results on disks, on names and on the storage use the same ones.
-/

namespace Irstessi

open Interact

/-- An `Exception` is thrown. -/
def orRaise {α : Type} : Except Exception α → SysProg α
  | .ok a => pure a
  | .error e => raise e

/-- The mdadm command that creates a volume; where it fails, the line about the space, or else the
last one, becomes the last error message.
Source: `volume.cpp` `createVolume`, `findErrorMessage` -/
def createVolume (cmd : Command) : SysProg Unit := do
  let reply ← shellOutput cmd
  if reply.exitStatus ≠ 0 then
    let lines := reply.errorLines
    match lines.find? fun line => (line.find (lit "not enough space") 0).isSome with
    | some found => setLastErrorMessage found
    | none => setLastErrorMessage (lines.getLastD (.ofLit ""))
    raise .volumeCreateFailed

/-- What `SSI_CreateFromDisksParams` and `SSI_CreateFromArrayParams` say about the volume. -/
structure VolumeParams where
  volumeName : List UInt8
  sizeInBytes : UInt64
  raidLevel : SSI_RaidLevel
  stripSize : SSI_StripSize
  rwhPolicy : SSI_RwhPolicy
  deriving DecidableEq, Repr

namespace Volume

variable (v : Volume)

/-! ## Setters -/

/-- The number of disks that carry data, none for a level that cannot be created.
Source: `volume.cpp` `Volume::setComponentSize`, the switch -/
def sizeDivider (level : SSI_RaidLevel) (diskCount : UInt64) : Option UInt64 :=
  if level = SSI_Raid0 then some diskCount
  else if level = SSI_Raid1 then some 1
  else if level = SSI_Raid10 then some 2
  else if level = SSI_Raid5 then some (diskCount - 1)
  else none

/-- `info` is the local variable that `getRaidLevelInfo` fills, as it was before.
Source: `volume.cpp` `Volume::setComponentSize` -/
def setComponentSize (info : SSI_RaidLevelInfo) (volumeSize diskCount : UInt64)
    (level : SSI_RaidLevel) : Except Exception Volume :=
  match v.getRaidInfo with
  | none => .error .invalidHandle
  | some pRaidInfo =>
      let (status, info) := pRaidInfo.getRaidLevelInfo level info
      if status ≠ .ok then .error .invalidRaidLevel
      else if diskCount = 0 ∨ diskCount.toNat < info.minDisks then .error .bufferTooSmall
      else if level = SSI_Raid0 ∧ diskCount = 1 then .error .bufferTooSmall
      else if diskCount.toNat > info.maxDisks then .error .bufferTooLarge
      else
        match sizeDivider level diskCount with
        | some divider => .ok { v with m_ComponentSize := volumeSize / divider }
        | none => .error .invalidRaidLevel

/-- Source: `volume.cpp` `Volume::setRaidLevel` -/
def setRaidLevel (raidLevel : SSI_RaidLevel) : Except Exception Volume :=
  if raidLevel = SSI_Raid0 then .ok { v with m_RaidLevel := 0 }
  else if raidLevel = SSI_Raid1 then .ok { v with m_RaidLevel := 1 }
  else if raidLevel = SSI_Raid10 then .ok { v with m_RaidLevel := 10 }
  else if raidLevel = SSI_Raid5 then .ok { v with m_RaidLevel := 5 }
  else .error .invalidRaidLevel

/-- Source: `volume.cpp` `Volume::setStripSize` -/
def setStripSize (stripSize : SSI_StripSize) : Except Exception Volume :=
  match stripsize2ui stripSize with
  | some bytes => .ok { v with m_StripSize := bytes }
  | none => .error .invalidStripSize

/-- Source: `volume.cpp` `Volume::setRwhPolicy` -/
def setRwhPolicy (policy : SSI_RwhPolicy) : Except Exception Volume :=
  if policy = .off ∨ policy = .distributed then .ok { v with m_RwhPolicy := policy }
  else if policy = .journalingDrive then .error .notSupported
  else .error .invalidObject

/-- `RaidDevice::setName` on a volume. -/
def setVolumeName (name : Str) : Except Exception Volume :=
  match v.toRaidDevice.setName name with
  | .ok d => .ok { v with toRaidDevice := d }
  | .error e => .error e

/-- `RaidDevice::setEndDevices` on a volume. -/
def setVolumeEndDevices (container : List EndDevice) : Except Exception Volume :=
  match v.toRaidDevice.setEndDevices container with
  | (none, d) => .ok { v with toRaidDevice := d }
  | (some e, _) => .error e

/-! ## The commands -/

/-- A `--rwh-policy` or `--consistency-policy` option for the distributed policy.
Source: `volume.cpp` `Volume::create` -/
def policyOption (option : String) (toString : SSI_RwhPolicy → Except Exception Str) :
    Except Exception Str :=
  if v.m_RwhPolicy = .distributed then (toString v.m_RwhPolicy).map (.ofLit option ++ ·)
  else .ok (.ofLit "")

/-- Source: `volume.cpp` `Volume::create` -/
def createCommand (rwhPolicy : Str) : Command :=
  let componentSize :=
    if v.m_ComponentSize = 0 then .ofLit "max" else Str.ofNat (v.m_ComponentSize / 1024).toNat
  let chunk := if v.m_RaidLevel ≠ 1 then .ofLit " --chunk=" ++ Str.ofNat (v.m_StripSize / 1024).toNat
    else .ofLit ""
  .createVolume v.m_Name v.m_RaidLevel.toNat componentSize chunk rwhPolicy v.m_BlockDevices.length
    (v.m_BlockDevices.map (·.m_DevName))

/-- The command is tried with the option of older versions of mdadm first.
Source: `volume.cpp` `Volume::create` -/
def tryCommands : SysProg Unit := do
  let rwhPolicy ← orRaise (v.policyOption " --rwh-policy=" rwhPolicyToString)
  (createVolume (v.createCommand rwhPolicy)).catchAll fun
    | .exception .volumeCreateFailed => do
        let rwhPolicy ← orRaise (v.policyOption " --consistency-policy=" newRwhPolicyToString)
        createVolume (v.createCommand rwhPolicy)
    | e => .throw e

/-- A volume without a name gets one; `rounds` bounds the search for it. -/
def nameVolume (rounds : Nat) : SysProg Volume := do
  if v.m_Name.equal .empty then
    let d ← v.toRaidDevice.determineDeviceName (.ofLit "Volume_") rounds 0
    pure { v with toRaidDevice := d }
  else pure v

/-- Source: `volume.cpp` `Volume::create`, before the wait -/
def createCommands (rounds : Nat) : SysProg Volume := do
  let v ← v.nameVolume rounds
  if v.m_RaidLevel ≠ 0 ∧ v.m_BlockDevices.any EndDevice.fultondalex8 then raise .invalidRaidLevel
  else if v.m_pSourceDisk.isSome then raise .notSupported
  else do
    v.tryCommands
    pure v

/-! ## The wait -/

/-- While the volume has no uuid, the container's and the volume's identity are updated, at most
`polls` times.
Source: `volume.cpp` `Volume::__wait_for_volume` -/
def waitForVolume (v : Volume) (polls : Nat) : SysProg Volume :=
  match polls with
  | 0 => pure v
  | polls + 1 =>
      match v.m_pParent with
      | none => pure v
      | some pArray =>
          if v.m_Uuid.equal .empty then do
            let array ← pArray.toRaidDevice.update
            let d ← v.toRaidDevice.update
            waitForVolume
              { v with toRaidDevice := d, m_pParent := some { pArray with toRaidDevice := array } }
              polls
          else pure v

/-- Source: `volume.cpp` `Volume::create` -/
def create (rounds : Nat) : SysProg Volume := do
  let v ← v.createCommands rounds
  v.waitForVolume 10

/-! ## The two callers -/

/-- What is set on a new volume of a container just created from the disks `container`.
Source: `src/volume.cpp` `SsiVolumeCreateFromDisks` -/
def settingsFromDisks (info : SSI_RaidLevelInfo) (pArray : RaidArray) (container : List EndDevice)
    (params : VolumeParams) (v : Volume) : SysProg Volume := do
  let v := { v with m_pParent := some pArray, m_pSourceDisk := none }
  let v ← orRaise (v.setVolumeEndDevices container)
  let v ← orRaise
    (v.setComponentSize info params.sizeInBytes (UInt64.ofNat container.length) params.raidLevel)
  let v ← orRaise (v.setVolumeName (.ofBytes params.volumeName))
  let v ← orRaise (v.setRaidLevel params.raidLevel)
  let v ← if params.raidLevel ≠ SSI_Raid1 then orRaise (v.setStripSize params.stripSize) else pure v
  orRaise (v.setRwhPolicy params.rwhPolicy)

/-- What is set on a new volume of a container of the session, on its disks `container`.
Source: `src/volume.cpp` `SsiVolumeCreate` -/
def settingsFromArray (info : SSI_RaidLevelInfo) (pArray : RaidArray) (container : List EndDevice)
    (params : VolumeParams) (v : Volume) : SysProg Volume := do
  let v := { v with m_pParent := some pArray }
  let v ← orRaise (v.setVolumeEndDevices container)
  let v ← orRaise
    (v.setComponentSize info params.sizeInBytes (UInt64.ofNat container.length) params.raidLevel)
  let v ← orRaise (v.setVolumeName (.ofBytes params.volumeName))
  let v ← orRaise (v.setStripSize params.stripSize)
  let v ← orRaise (v.setRaidLevel params.raidLevel)
  orRaise (v.setRwhPolicy params.rwhPolicy)

/-- The functions that create volumes. -/
inductive Caller
  | SsiVolumeCreateFromDisks
  | SsiVolumeCreate
  deriving DecidableEq, Repr

/-- What the function sets on a new volume. -/
def settings (caller : Caller) (info : SSI_RaidLevelInfo) (pArray : RaidArray)
    (container : List EndDevice) (params : VolumeParams) (v : Volume) : SysProg Volume :=
  match caller with
  | .SsiVolumeCreateFromDisks => settingsFromDisks info pArray container params v
  | .SsiVolumeCreate => settingsFromArray info pArray container params v

/-- A new volume when the function calls `create` on it. -/
def prepare (caller : Caller) (info : SSI_RaidLevelInfo) (pArray : RaidArray)
    (container : List EndDevice) (params : VolumeParams) : SysProg Volume := do
  let v ← new.discover
  settings caller info pArray container params v

/-! ## What creation leaves alone -/

/-- The device name, the uuid and the container are the same. -/
structure SameIdentity (v v' : Volume) : Prop where
  devName : v'.m_DevName = v.m_DevName
  uuid : v'.m_Uuid = v.m_Uuid
  parent : v'.m_pParent = v.m_pParent

/-- Every volume has its own identity. -/
theorem SameIdentity.rfl {v : Volume} : v.SameIdentity v := ⟨Eq.refl _, Eq.refl _, Eq.refl _⟩

/-- Having the same identity is transitive. -/
theorem SameIdentity.trans {v v' v'' : Volume} (h : v.SameIdentity v') (h' : v'.SameIdentity v'') :
    v.SameIdentity v'' :=
  ⟨h'.devName.trans h.devName, h'.uuid.trans h.uuid, h'.parent.trans h.parent⟩

/-- A check that passes returns its value. -/
theorem returns_orRaise {α : Type} {x : Except Exception α} {P : α → Prop}
    (h : ∀ a, x = .ok a → P a) : Returns (orRaise x) P := by
  cases x with
  | ok a => exact returns_pure (h a rfl)
  | error e => exact returns_throw _

section settings

variable {v} {v' : Volume}

/-- Setting the disks keeps device name, uuid and container. -/
theorem sameIdentity_setVolumeEndDevices {container : List EndDevice}
    (h : v.setVolumeEndDevices container = .ok v') : v.SameIdentity v' := by
  have hkeeps := v.toRaidDevice.setEndDevices_eq container
  unfold setVolumeEndDevices at h
  split at h
  next d hset =>
    obtain rfl := Except.ok.inj h
    rw [hset] at hkeeps
    simp only at hkeeps
    rw [hkeeps]
    exact ⟨rfl, rfl, rfl⟩
  next => simp at h

/-- Setting the size keeps the identity. -/
theorem sameIdentity_setComponentSize {info : SSI_RaidLevelInfo} {volumeSize diskCount : UInt64}
    {level : SSI_RaidLevel} (h : v.setComponentSize info volumeSize diskCount level = .ok v') :
    v.SameIdentity v' := by
  unfold setComponentSize at h
  split at h
  next => simp at h
  next =>
    simp only at h
    split_ifs at h
    split at h
    next =>
      obtain rfl := Except.ok.inj h
      exact ⟨rfl, rfl, rfl⟩
    next => simp at h

/-- Setting the name keeps device name, uuid and container. -/
theorem sameIdentity_setVolumeName {name : Str} (h : v.setVolumeName name = .ok v') :
    v.SameIdentity v' := by
  unfold setVolumeName RaidDevice.setName at h
  split_ifs at h
  · cases h
    exact ⟨rfl, rfl, rfl⟩

/-- Setting the level keeps the identity. -/
theorem sameIdentity_setRaidLevel {level : SSI_RaidLevel} (h : v.setRaidLevel level = .ok v') :
    v.SameIdentity v' := by
  unfold setRaidLevel at h
  split_ifs at h <;>
    · obtain rfl := Except.ok.inj h
      exact ⟨rfl, rfl, rfl⟩

/-- Setting the strip size keeps the identity. -/
theorem sameIdentity_setStripSize {stripSize : SSI_StripSize}
    (h : v.setStripSize stripSize = .ok v') : v.SameIdentity v' := by
  unfold setStripSize at h
  split at h
  next =>
    obtain rfl := Except.ok.inj h
    exact ⟨rfl, rfl, rfl⟩
  next => simp at h

/-- Setting the policy keeps the identity. -/
theorem sameIdentity_setRwhPolicy {policy : SSI_RwhPolicy} (h : v.setRwhPolicy policy = .ok v') :
    v.SameIdentity v' := by
  unfold setRwhPolicy at h
  split_ifs at h
  obtain rfl := Except.ok.inj h
  exact ⟨rfl, rfl, rfl⟩

/-- A setter in a sequence of setters. -/
theorem returns_setter {x : Except Exception Volume} {f : Volume → SysProg Volume}
    (hx : ∀ v', x = .ok v' → v.SameIdentity v') (hf : ∀ v', Returns (f v') v'.SameIdentity) :
    Returns (orRaise x >>= f) v.SameIdentity :=
  returns_bind (returns_orRaise hx) fun v' h => (hf v').mono fun _ h' => h.trans h'

variable {info : SSI_RaidLevelInfo} {pArray : RaidArray} {container : List EndDevice}
  {params : VolumeParams}

/-- The settings of a creation from disks keep the identity; the parent is the new container, and there
is no source disk. -/
theorem returns_settingsFromDisks (v : Volume) :
    Returns (settingsFromDisks info pArray container params v)
      (SameIdentity { v with m_pParent := some pArray, m_pSourceDisk := none }) := by
  refine returns_setter (fun _ => sameIdentity_setVolumeEndDevices) fun v₁ => ?_
  refine returns_setter (fun _ => sameIdentity_setComponentSize) fun v₂ => ?_
  refine returns_setter (fun _ => sameIdentity_setVolumeName) fun v₃ => ?_
  refine returns_setter (fun _ => sameIdentity_setRaidLevel) fun v₄ => ?_
  have hlast : ∀ v₅ : Volume, Returns (orRaise (v₅.setRwhPolicy params.rwhPolicy)) v₅.SameIdentity :=
    fun v₅ => returns_orRaise fun _ => sameIdentity_setRwhPolicy
  split
  next => exact returns_setter (fun _ => sameIdentity_setStripSize) hlast
  next => exact hlast v₄

/-- The settings of a creation in an array keep the identity; the parent is the array. -/
theorem returns_settingsFromArray (v : Volume) :
    Returns (settingsFromArray info pArray container params v)
      (SameIdentity { v with m_pParent := some pArray }) := by
  refine returns_setter (fun _ => sameIdentity_setVolumeEndDevices) fun v₁ => ?_
  refine returns_setter (fun _ => sameIdentity_setComponentSize) fun v₂ => ?_
  refine returns_setter (fun _ => sameIdentity_setVolumeName) fun v₃ => ?_
  refine returns_setter (fun _ => sameIdentity_setStripSize) fun v₄ => ?_
  refine returns_setter (fun _ => sameIdentity_setRaidLevel) fun v₅ => ?_
  exact returns_orRaise fun _ => sameIdentity_setRwhPolicy

/-- Either caller puts the volume into the container and keeps its identity. -/
theorem returns_settings (caller : Caller) (v : Volume) :
    Returns (settings caller info pArray container params v) fun v' =>
      v'.m_DevName = v.m_DevName ∧ v'.m_Uuid = v.m_Uuid ∧ v'.m_pParent = some pArray := by
  cases caller with
  | SsiVolumeCreateFromDisks =>
      exact (returns_settingsFromDisks v).mono fun _ h => ⟨h.devName, h.uuid, h.parent⟩
  | SsiVolumeCreate =>
      exact (returns_settingsFromArray v).mono fun _ h => ⟨h.devName, h.uuid, h.parent⟩

end settings

/-- The volume has its name, or one that has been found where its name is empty. -/
def Named (v v' : Volume) : Prop :=
  if v.m_Name.equal .empty then ∃ n, v' = { v with m_Name := .ofLit "Volume_" ++ .ofNat n }
  else v' = v

/-- Naming returns the volume under another name at most. -/
theorem named_of_mayReturn {rounds : Nat} {v' : Volume} (h : (v.nameVolume rounds).MayReturn v') :
    v.Named v' := by
  unfold nameVolume at h
  unfold Named
  split at h
  next hempty =>
    rw [if_pos hempty]
    obtain ⟨d, hd, h⟩ := Prog.mayReturn_bind.mp h
    obtain ⟨n, rfl⟩ := v.toRaidDevice.eq_of_mayReturn hd
    exact ⟨n, Eq.symm h⟩
  next hempty =>
    rw [if_neg hempty]
    exact Eq.symm h

/-- When the commands are issued the volume has a name. -/
theorem Named.sameIdentity {v v' : Volume} (h : v.Named v') :
    v.SameIdentity v' ∧ v'.lookupByName := by
  unfold Named at h
  unfold RaidDevice.lookupByName
  split at h
  next =>
    obtain ⟨n, rfl⟩ := h
    have hne : ¬ (Str.ofLit "Volume_" ++ Str.ofNat n).equal .empty :=
      Str.append_ne_empty (by decide) _
    exact ⟨⟨rfl, rfl, rfl⟩, by simp [hne]⟩
  next hname =>
    obtain rfl := h
    exact ⟨.rfl, by simp [hname]⟩

/-- The commands change nothing of the object. -/
theorem returns_createCommands (rounds : Nat) :
    Returns (v.createCommands rounds) fun v' => v.SameIdentity v' ∧ v'.lookupByName := by
  have hnamed : Returns (v.nameVolume rounds) fun v' => v.SameIdentity v' ∧ v'.lookupByName :=
    fun _ _ _ h => (v.named_of_mayReturn (Prog.mayReturn_of_result h)).sameIdentity
  refine returns_bind hnamed fun v' h => ?_
  split
  next => exact returns_throw _
  split
  next => exact returns_throw _
  next => exact returns_bind_of_forall fun _ => returns_pure h

/-! ## The commands of creation -/

/-- A command that creates a volume. -/
def IsVolumeCreation : Command → Prop
  | .createVolume _ _ _ _ _ _ _ => True
  | _ => False

instance (cmd : Command) : Decidable (IsVolumeCreation cmd) := by
  cases cmd <;> first | exact instDecidableTrue | exact instDecidableFalse

/-- What a check may return is its value. -/
theorem mayReturn_orRaise {α : Type} {x : Except Exception α} {a : α} :
    (orRaise x).MayReturn a ↔ x = .ok a := by
  cases x with
  | ok b => exact ⟨fun h => congrArg Except.ok h, fun h => Except.ok.inj h⟩
  | error e => exact ⟨fun h => h.elim, fun h => nomatch h⟩

/-- A check makes no call. -/
theorem calls_orRaise {α : Type} (x : Except Exception α) (P : SysCall → Prop) :
    (orRaise x).Calls P := by
  cases x <;> exact trivial

/-- Without a failure there is no message and no exception. -/
theorem calls_createVolume {P : SysCall → Prop} {cmd : Command} (h : P (.shell cmd)) :
    (createVolume cmd).Calls P := by
  unfold createVolume
  rw [shellOutput_bind]
  refine ⟨h, fun reply => ?_⟩
  dsimp only
  split
  next =>
    split
    next => exact trivial
    next => exact trivial
  next => exact trivial

/-- An option that a command has. -/
def HasPolicyOption (rwhPolicy : Str) : Prop :=
  v.policyOption " --rwh-policy=" rwhPolicyToString = .ok rwhPolicy ∨
    v.policyOption " --consistency-policy=" newRwhPolicyToString = .ok rwhPolicy

/-- The creation tries the create command with one policy option and then with the other. -/
theorem calls_tryCommands {P : Command → Prop}
    (h : ∀ rwhPolicy, v.HasPolicyOption rwhPolicy → P (v.createCommand rwhPolicy)) :
    v.tryCommands.Calls (OnShell P) := by
  unfold tryCommands
  apply Prog.calls_bind (calls_orRaise _ _)
  intro rwhPolicy hpolicy
  have hfirst := h rwhPolicy (.inl (mayReturn_orRaise.mp hpolicy))
  apply Prog.calls_catchAll (calls_createVolume hfirst)
  intro f _
  split
  next =>
    apply Prog.calls_bind (calls_orRaise _ _)
    intro rwhPolicy hpolicy
    exact calls_createVolume (h rwhPolicy (.inr (mayReturn_orRaise.mp hpolicy)))
  next => exact trivial

/-- The wait for the volume issues no command: it reads the map file. -/
theorem calls_waitForVolume (P : Command → Prop) (polls : Nat) :
    (v.waitForVolume polls).Calls (OnShell P) := by
  induction polls generalizing v with
  | zero => exact trivial
  | succ polls ih =>
      unfold waitForVolume
      split
      next => exact trivial
      next =>
        split
        next =>
          apply Prog.calls_bind (RaidDevice.calls_update _ _)
          intro _ _
          exact Prog.calls_bind (RaidDevice.calls_update _ _) fun _ _ => ih _
        next => exact trivial

/-- The commands of creation, for the volume with its name; a level other than 0 without FDx8
disks. -/
theorem calls_create_of {P : Command → Prop} (rounds : Nat)
    (h : ∀ v', v.Named v' →
      ¬ (v'.m_RaidLevel ≠ 0 ∧ v'.m_BlockDevices.any EndDevice.fultondalex8 = true) →
      ∀ rwhPolicy, v'.HasPolicyOption rwhPolicy → P (v'.createCommand rwhPolicy)) :
    (v.create rounds).Calls (OnShell P) := by
  refine Prog.calls_bind ?_ fun v' _ => v'.calls_waitForVolume _ 10
  refine Prog.calls_bind ?_ fun v' hv' => ?_
  · unfold nameVolume
    split
    next =>
      refine Prog.calls_bind (RaidDevice.calls_determineDeviceName _ _ _ _ _) fun _ _ => trivial
    next => exact trivial
  split
  next => exact trivial
  next hguard =>
    split
    next => exact trivial
    next =>
      have hcommands := v'.calls_tryCommands (h v' (v.named_of_mayReturn hv') hguard)
      exact Prog.calls_bind hcommands fun _ _ => trivial

/-- Creation issues no command but volume creations. -/
theorem calls_create (rounds : Nat) : (v.create rounds).Calls (OnShell IsVolumeCreation) :=
  v.calls_create_of rounds fun _ _ _ _ _ => trivial

/-- The settings make no call. -/
theorem calls_settings {P : SysCall → Prop} (caller : Caller) (info : SSI_RaidLevelInfo)
    (pArray : RaidArray) (container : List EndDevice) (params : VolumeParams) (v : Volume) :
    (settings caller info pArray container params v).Calls P := by
  cases caller with
  | SsiVolumeCreateFromDisks =>
      apply Prog.calls_bind (calls_orRaise _ _)
      intro _ _
      apply Prog.calls_bind (calls_orRaise _ _)
      intro _ _
      apply Prog.calls_bind (calls_orRaise _ _)
      intro _ _
      apply Prog.calls_bind (calls_orRaise _ _)
      intro _ _
      dsimp only
      split
      next => exact Prog.calls_bind (calls_orRaise _ _) fun _ _ => calls_orRaise _ _
      next => exact calls_orRaise _ _
  | SsiVolumeCreate =>
      apply Prog.calls_bind (calls_orRaise _ _)
      intro _ _
      apply Prog.calls_bind (calls_orRaise _ _)
      intro _ _
      apply Prog.calls_bind (calls_orRaise _ _)
      intro _ _
      apply Prog.calls_bind (calls_orRaise _ _)
      intro _ _
      exact Prog.calls_bind (calls_orRaise _ _) fun _ _ => calls_orRaise _ _

/-- Up to its creation a new volume causes no command but inquiries. -/
theorem calls_prepare (caller : Caller) (info : SSI_RaidLevelInfo) (pArray : RaidArray)
    (container : List EndDevice) (params : VolumeParams) :
    (prepare caller info pArray container params).Calls (OnShell IsInquiry) :=
  Prog.calls_bind new.calls_discover fun _ _ => calls_settings _ _ _ _ _ _

end Volume

end Irstessi
