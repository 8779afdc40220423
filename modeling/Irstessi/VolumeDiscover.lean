import Irstessi.Text
import Irstessi.Volume

/-!
# `class Volume`: discovery

* `Volume.new`, `Volume.ofPath`: the constructors.
* `Volume.discover`: the names and the identity from the map file, then level, state, progress and
  sizes from the attributes under `m_Path`.
* `keepsDevice_discoverAttributes`: the attributes do not touch the names and the identity.
* `calls_discover`: discovery issues no command but inquiries.

The map file comes first, then the discovery of the volume as a block device (`discoverBlockDevice`),
whose inquiries of mdadm and of `df` set what the modelled functions do not read, and then the
attributes. An attribute that cannot be read leaves its field or ends the discovery, as in the source.
The texts of `md/` are of single-byte characters and end with a newline; of such a text a read stores
the bytes, and a number ends within it (`FileRead`). A level that is none of the five is kept as the
greatest number, and the state of such a volume is that of its action, whatever members it misses.
-/

namespace Irstessi

open Interact

/-! ## Attributes -/

/-- `operator >>` into a `String`; `none` is a throw.
Source: `filesystem.h` `File::read`, `operator >>` -/
def readText (path : Str) : SysProg (Option Str) := do
  let content ← readAttribute path
  pure (content.map fun bytes => (Str.ofBytes bytes).trim)

/-- `operator >>` into a number; an empty file leaves no content to convert.
Source: `filesystem.h` `File::read`, `filesystem.cpp` `__internal_to_ulonglong` -/
def readNumber {α : Type} (path : Str) (convert : List UInt8 → α) : SysProg (Option α) := do
  let content ← readAttribute path
  pure (match content with
    | none => none
    | some [] => none
    | some bytes => some (convert bytes))

/-- Source: `volume.cpp` `Volume::rwhPolicyToString` -/
def rwhPolicyToString : SSI_RwhPolicy → Except Exception Str
  | .off => .ok (.ofLit "off")
  | .distributed => .ok (.ofLit "ppl")
  | .journalingDrive => .ok (.ofLit "ppl-journal")
  | .invalid => .error .notSupported

/-- Source: `volume.cpp` `Volume::newRwhPolicyToString` -/
def newRwhPolicyToString : SSI_RwhPolicy → Except Exception Str
  | .off => .ok (.ofLit "resync")
  | .distributed => .ok (.ofLit "ppl")
  | policy => rwhPolicyToString policy

/-- The policy whose text it is.
Source: `volume.cpp` `Volume::parseRwhPolicy`, `parseNewRwhPolicy` -/
def parsePolicy (toString : SSI_RwhPolicy → Except Exception Str) (text : Str) : SSI_RwhPolicy :=
  let isText policy := match toString policy with
    | .ok name => text.equal name
    | .error _ => false
  if isText .off then .off
  else if isText .distributed then .distributed
  else if isText .journalingDrive then .journalingDrive
  else .invalid

/-- Source: `volume.cpp` `Volume::getRaidLevel` -/
def getRaidLevel (raidLevel : Str) : UInt32 :=
  if raidLevel.equal (.ofLit "raid0") then 0
  else if raidLevel.equal (.ofLit "raid1") then 1
  else if raidLevel.equal (.ofLit "raid10") then 10
  else if raidLevel.equal (.ofLit "raid5") then 5
  else if raidLevel.equal (.ofLit "raid6") then 6
  else 0xffffffff

/-- The state by the text of `md/sync_action`; other texts leave it unknown.
Source: `volume.cpp` `Volume::discover` -/
def syncState (temp : Str) : SSI_VolumeState :=
  if temp.equal (.ofLit "resync") then .initializing
  else if temp.equal (.ofLit "recover") then .rebuilding
  else if temp.equal (.ofLit "idle") then .normal
  else if temp.equal (.ofLit "check") then .verifying
  else if temp.equal (.ofLit "repair") then .verifyingAndFix
  else if temp.equal (.ofLit "reshape") then .generalMigration
  else .unknown

/-- The state of a volume that misses disks; levels without redundancy keep theirs.
Source: `volume.cpp` `Volume::discover` -/
def degradedState (level : UInt32) (degraded : Int) (state : SSI_VolumeState) : SSI_VolumeState :=
  if degraded > 0 then
    if level = 1 ∨ level = 5 then if degraded > 1 then .failed else .degraded
    else if level = 6 ∨ level = 10 then if degraded > 2 then .failed else .degraded
    else state
  else state

namespace Volume

/-! ## Construction -/

/-- Source: `volume.cpp` `Volume::Volume(const String &, unsigned int)` -/
def ofPath (path : Str) (ordinal : UInt32) : Volume where
  m_Path := path
  m_DevName := .empty
  m_Name := .empty
  m_Uuid := .empty
  m_BlockDevices := []
  m_pParent := none
  m_Ordinal := ordinal
  m_RaidLevel := 0xffffffff
  m_SystemVolume := false
  m_StripSize := 0
  m_MigrProgress := 0
  m_ComponentSize := 0
  m_State := .unknown
  m_RwhPolicy := .invalid
  m_pSourceDisk := none

/-- Source: `volume.cpp` `Volume::Volume()` -/
def new : Volume := ofPath .empty 0xffffffff

/-! ## Discovery -/

/-- The text behind `attribute` in the first line of `mdadm -D` that has it; `substr` throws where
the text ends before.
Source: `volume.cpp` `Volume::getMdadmAttribute` -/
def getMdadmAttribute (v : Volume) (field : Str) : SysProg Str := do
  let reply ← shellOutput (.detail v.m_Name field)
  let line := reply.output
  match Occurrence.findPos field.m_buffer line with
  | none => pure .empty
  | some pos =>
      let trimStart := pos + field.m_length + 3
      let kept := line.reverse.dropWhile fun b => b = 10 || b = 9 || b = 32
      let trimRange := ((kept.length : Int) - trimStart) % 2 ^ 32
      if line.length < trimStart then .throw .outOfRange
      else pure (.ofBytes ((line.drop trimStart).take trimRange.toNat))

/-- Source: `volume.cpp` `Volume::getPercentageStatus` -/
def getPercentageStatus (v : Volume) (field : Str) : SysProg UInt32 := do
  let progress ← v.getMdadmAttribute field
  match progress.find (lit "%") 0 with
  | none => pure 0
  | some percentPos =>
      let res := Str.atoi (progress.mid 0 percentPos).m_buffer % 2 ^ 32
      if res > 100 then pure 0 else pure (UInt32.ofNat (res.toNat * 0xffffffff / 100))

/-- Source: `volume.cpp` `Volume::getMigrationTargetLevel` -/
def getMigrationTargetLevel (v : Volume) : SysProg UInt32 := do
  let newLevel ← v.getMdadmAttribute (.ofLit "New Level")
  pure (if getRaidLevel newLevel ≠ 0xffffffff then getRaidLevel newLevel else v.m_RaidLevel)

/-- The path of an attribute. -/
def attributePath (v : Volume) (name : String) : Str := v.m_Path ++ Str.ofLit name

/-- The level.
Source: `volume.cpp` `Volume::discover` -/
def discoverLevel (v : Volume) : SysProg Volume := do
  match ← readText (v.attributePath "/md/level") with
  | some temp => pure { v with m_RaidLevel := getRaidLevel temp }
  | none => pure v

/-- The array is read-only.
Source: `volume.cpp` `Volume::discover` -/
def isReadonly (v : Volume) : SysProg Bool := do
  match ← readText (v.attributePath "/md/array_state") with
  | some temp => pure (temp.equal (.ofLit "readonly"))
  | none => pure false

/-- The state: locked where the array is read-only, else by what it is synchronising.
Source: `volume.cpp` `Volume::discover` -/
def discoverState (v : Volume) : SysProg Volume := do
  if v.m_State = .unknown then
    if (← v.isReadonly) then pure { v with m_State := .locked }
    else
      match ← readText (v.attributePath "/md/sync_action") with
      | some temp => pure { v with m_State := syncState temp }
      | none => pure { v with m_State := .normal }
  else pure v

/-- What follows from the state: missing disks, or the level and progress of a migration.
Source: `volume.cpp` `Volume::discover` -/
def discoverProgress (v : Volume) : SysProg Volume := do
  if v.m_State = .unknown ∨ v.m_State = .normal then
    match ← readNumber (v.attributePath "/md/degraded") fun bytes =>
        (Str.strtoll bytes).bmod (2 ^ 32) with
    | some degraded => pure { v with m_State := degradedState v.m_RaidLevel degraded v.m_State }
    | none => pure v
  else if v.m_State = .generalMigration then
    let level ← v.getMigrationTargetLevel
    let progress ← v.getPercentageStatus (.ofLit "Reshape Status")
    pure { v with m_RaidLevel := level, m_MigrProgress := progress }
  else if v.m_State = .verifying ∨ v.m_State = .verifyingAndFix then
    let progress ← v.getPercentageStatus (.ofLit "Check Status")
    pure { v with m_MigrProgress := progress }
  else pure v

/-- The sizes.
Source: `volume.cpp` `Volume::discover` -/
def discoverSizes (v : Volume) : SysProg Volume := do
  let stripSize ← readNumber (v.attributePath "/md/chunk_size") fun bytes =>
    UInt32.ofNat (Str.strtoul bytes)
  let componentSize ← readNumber (v.attributePath "/md/component_size") fun bytes =>
    UInt64.ofNat (Str.strtoul bytes)
  pure { v with
    m_StripSize := stripSize.getD v.m_StripSize
    m_ComponentSize := componentSize.getD v.m_ComponentSize }

/-- Whether `/boot` lies on the volume.
Source: `volume.cpp` `Volume::discover` -/
def discoverSystem (v : Volume) : SysProg Volume := do
  let reply ← shellOutput .bootFilesystem
  if reply.exitStatus = 0 ∧ ((shellCap reply.output).find v.m_DevName.m_buffer 0).isSome then
    pure { v with m_SystemVolume := true }
  else pure v

/-- The policy, under its name of older kernels or under its present one.
Source: `volume.cpp` `Volume::discover` -/
def discoverPolicy (v : Volume) : SysProg Volume := do
  match ← readText (v.attributePath "/md/rwh_policy") with
  | some temp => pure { v with m_RwhPolicy := parsePolicy rwhPolicyToString temp }
  | none =>
      match ← readText (v.attributePath "/md/consistency_policy") with
      | some temp => pure { v with m_RwhPolicy := parsePolicy newRwhPolicyToString temp }
      | none => pure v

/-- What discovery reads under `m_Path`.
Source: `volume.cpp` `Volume::discover` -/
def discoverAttributes (v : Volume) : SysProg Volume := do
  let v ← v.discoverLevel
  let v ← v.discoverState
  let v ← v.discoverProgress
  let v ← v.discoverSizes
  let v ← v.discoverSystem
  v.discoverPolicy

/-- The block device of the volume, constructed of the same path, is discovered by itself; what it finds
out stays in its own fields, which nothing modelled here reads.
Source: `volume.cpp` `Volume::discover` -/
def discover (v : Volume) : SysProg Volume := do
  let d ← v.toRaidDevice.discover
  let _ ← (EndDevice.ofPath v.m_Path).discoverBlockDevice
  discoverAttributes { v with toRaidDevice := d }

/-! ## What the attributes leave alone -/

/-- Programs that keep the names, the identity and the members of a volume. -/
abbrev KeepsDevice (v : Volume) (p : SysProg Volume) : Prop :=
  Returns p fun v' => v'.toRaidDevice = v.toRaidDevice

/-- Programs that also keep whether `/boot` lies on the volume. -/
abbrev KeepsIdentity (v : Volume) (p : SysProg Volume) : Prop :=
  Returns p fun v' => v'.toRaidDevice = v.toRaidDevice ∧ v'.m_SystemVolume = v.m_SystemVolume

section keeps

variable (v : Volume)

/-- Reading the level replaces neither name nor uuid nor device name. -/
theorem keepsIdentity_discoverLevel : v.KeepsIdentity v.discoverLevel := by
  apply returns_bind_of_forall
  intro temp
  cases temp <;> exact returns_pure ⟨rfl, rfl⟩

/-- Reading the state replaces neither name nor uuid nor device name. -/
theorem keepsIdentity_discoverState : v.KeepsIdentity v.discoverState := by
  unfold discoverState
  split
  next =>
    apply returns_bind_of_forall
    intro locked
    split
    next => exact returns_pure ⟨rfl, rfl⟩
    next =>
      apply returns_bind_of_forall
      intro temp
      cases temp <;> exact returns_pure ⟨rfl, rfl⟩
  next => exact returns_pure ⟨rfl, rfl⟩

/-- Reading the progress of a migration or rebuild keeps the identity. -/
theorem keepsIdentity_discoverProgress : v.KeepsIdentity v.discoverProgress := by
  unfold discoverProgress
  split
  next =>
    apply returns_bind_of_forall
    intro degraded
    cases degraded <;> exact returns_pure ⟨rfl, rfl⟩
  split
  next =>
    exact returns_bind_of_forall fun _ => returns_bind_of_forall fun _ => returns_pure ⟨rfl, rfl⟩
  split
  next => exact returns_bind_of_forall fun _ => returns_pure ⟨rfl, rfl⟩
  next => exact returns_pure ⟨rfl, rfl⟩

/-- Reading the sizes keeps the identity. -/
theorem keepsIdentity_discoverSizes : v.KeepsIdentity v.discoverSizes :=
  returns_bind_of_forall fun _ => returns_bind_of_forall fun _ => returns_pure ⟨rfl, rfl⟩

/-- Whether the volume is the system's may be decided with inquiries of its block device, which leave
the volume's device as it is. -/
theorem keepsDevice_discoverSystem : v.KeepsDevice v.discoverSystem := by
  apply returns_bind_of_forall
  intro reply
  split <;> exact returns_pure rfl

/-- Reading the policy keeps the identity. -/
theorem keepsIdentity_discoverPolicy : v.KeepsIdentity v.discoverPolicy := by
  apply returns_bind_of_forall
  intro temp
  cases temp with
  | some temp => exact returns_pure ⟨rfl, rfl⟩
  | none =>
      apply returns_bind_of_forall
      intro temp
      cases temp <;> exact returns_pure ⟨rfl, rfl⟩

/-- The attributes leave the names and the identity alone. -/
theorem keepsDevice_discoverAttributes : v.KeepsDevice v.discoverAttributes := by
  refine returns_bind v.keepsIdentity_discoverLevel fun v₁ h₁ => ?_
  refine returns_bind v₁.keepsIdentity_discoverState fun v₂ h₂ => ?_
  refine returns_bind v₂.keepsIdentity_discoverProgress fun v₃ h₃ => ?_
  refine returns_bind v₃.keepsIdentity_discoverSizes fun v₄ h₄ => ?_
  refine returns_bind v₄.keepsDevice_discoverSystem fun v₅ h₅ => ?_
  refine v₅.keepsIdentity_discoverPolicy.mono fun v₆ h₆ => ?_
  rw [h₆.1, h₅, h₄.1, h₃.1, h₂.1, h₁.1]

end keeps

/-! ## The commands of discovery -/

/-- A command that only asks. -/
def IsInquiry : Command → Prop
  | .examineScan _ => True
  | .detail _ _ => True
  | .bootFilesystem => True
  | _ => False

section inquiries

variable (v : Volume)

/-- Reading an attribute as a text runs no command at all. -/
theorem calls_readText {P : Command → Prop} (path : Str) : (readText path).Calls (OnShell P) :=
  ⟨trivial, fun _ => trivial⟩

/-- Reading an attribute as a number runs no command at all. -/
theorem calls_readNumber {P : Command → Prop} {α : Type} (path : Str) (convert : List UInt8 → α) :
    (readNumber path convert).Calls (OnShell P) :=
  ⟨trivial, fun _ => trivial⟩

/-- An attribute that mdadm prints is an inquiry. -/
theorem calls_getMdadmAttribute (field : Str) :
    (v.getMdadmAttribute field).Calls (OnShell IsInquiry) := by
  unfold getMdadmAttribute
  rw [shellOutput_bind]
  refine ⟨trivial, fun reply => ?_⟩
  dsimp only
  split
  next => exact trivial
  next =>
    split
    next => exact trivial
    next => exact trivial

/-- A percentage that mdadm prints is an inquiry. -/
theorem calls_getPercentageStatus (field : Str) :
    (v.getPercentageStatus field).Calls (OnShell IsInquiry) := by
  apply Prog.calls_bind (v.calls_getMdadmAttribute field)
  intro progress _
  split
  next => exact trivial
  next =>
    simp only
    split
    next => exact trivial
    next => exact trivial

/-- The only commands of the state's discovery are inquiries. -/
theorem calls_discoverState : v.discoverState.Calls (OnShell IsInquiry) := by
  have hreadonly : v.isReadonly.Calls (OnShell IsInquiry) := by
    apply Prog.calls_bind (calls_readText _)
    intro temp _
    cases temp <;> exact trivial
  unfold discoverState
  split
  next =>
    apply Prog.calls_bind hreadonly
    intro locked _
    split
    next => exact trivial
    next =>
      apply Prog.calls_bind (calls_readText _)
      intro temp _
      cases temp <;> exact trivial
  next => exact trivial

/-- The only commands of the progress's discovery are inquiries. -/
theorem calls_discoverProgress : v.discoverProgress.Calls (OnShell IsInquiry) := by
  unfold discoverProgress
  split
  next =>
    apply Prog.calls_bind (calls_readNumber _ _)
    intro degraded _
    cases degraded <;> exact trivial
  split
  next =>
    refine Prog.calls_bind ?_ fun level _ => ?_
    · exact Prog.calls_bind (v.calls_getMdadmAttribute _) fun _ _ => trivial
    · exact Prog.calls_bind (v.calls_getPercentageStatus _) fun _ _ => trivial
  split
  next => exact Prog.calls_bind (v.calls_getPercentageStatus _) fun _ _ => trivial
  next => exact trivial

/-- Discovery issues no command but inquiries. -/
theorem calls_discoverAttributes : v.discoverAttributes.Calls (OnShell IsInquiry) := by
  refine Prog.calls_bind ?_ fun v₁ _ => ?_
  · apply Prog.calls_bind (calls_readText _)
    intro temp _
    cases temp <;> exact trivial
  apply Prog.calls_bind v₁.calls_discoverState
  intro v₂ _
  apply Prog.calls_bind v₂.calls_discoverProgress
  intro v₃ _
  refine Prog.calls_bind ?_ fun v₄ _ => ?_
  · apply Prog.calls_bind (calls_readNumber _ _)
    intro _ _
    exact Prog.calls_bind (calls_readNumber _ _) fun _ _ => trivial
  refine Prog.calls_bind ?_ fun v₅ _ => ?_
  · unfold discoverSystem
    rw [shellOutput_bind]
    refine ⟨trivial, fun reply => ?_⟩
    beta_reduce
    split
    next => exact trivial
    next => exact trivial
  apply Prog.calls_bind (calls_readText _)
  intro temp _
  cases temp with
  | some temp => exact trivial
  | none =>
      apply Prog.calls_bind (calls_readText _)
      intro temp _
      cases temp <;> exact trivial

/-- The block device asks for its use and for the file system of `/boot`. -/
theorem calls_discoverBlockDevice (d : EndDevice) :
    d.discoverBlockDevice.Calls (OnShell IsInquiry) := by
  have husage : ∀ d : EndDevice, d.determineDiskUsage.Calls (OnShell IsInquiry) :=
    fun d => ⟨trivial, fun _ => trivial⟩
  refine Prog.calls_bind (husage _) fun d₁ _ => ?_
  unfold EndDevice.determineDiskIsSystem
  rw [shellOutput_bind]
  refine ⟨trivial, fun reply => ?_⟩
  beta_reduce
  split
  next => exact trivial
  next => exact trivial

/-- **A volume's discovery changes nothing**: every command that it may run, over all answers of the
system, is an inquiry. -/
theorem calls_discover : v.discover.Calls (OnShell IsInquiry) :=
  Prog.calls_bind (RaidDevice.calls_update _ _) fun _ _ =>
    Prog.calls_bind (calls_discoverBlockDevice _) fun _ _ => calls_discoverAttributes _

end inquiries

end Volume

end Irstessi
