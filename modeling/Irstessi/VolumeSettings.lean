import Irstessi.FreshVolume

/-!
# `class Volume`: the checks of creation

Which parameters the setters refuse, and what creation comes to with those that they take.

* `levelCheck`, `NameRefused`, `StripRefused`, `policyCheck`: the checks; `firstRefusal`: the first
  that fails, `settled`: the volume that passes.
* `applySettings`: the setters of a caller; **`applySettings_of_usable`**: they throw what
  `firstRefusal` says.
* `throwsOutOfRange_discover`, `returns_discover_sourceDisk`: discovery.
* `chooseName`, `createNamed`: the two parts of `create`, with `createNamed_of_refused` and
  `createNamed_of_passed`.

The two callers apply the same setters in different orders, and one of them sets the strip size only
where the level is not 1; `applySettings` has them as a function without calls, and `settings_eq` says
that it is what the program does. Whether a request is refused, and by which exception, depends on the
request and on the disks alone: a setter looks at its argument, and at the limits that the disks'
controller has for the level. The creation is cut into the choice of a name and what comes behind it, so
that results on names look at the first part only.
-/

namespace Irstessi

open Interact

/-! ## The checks -/

/-- A local variable before `getRaidLevelInfo` fills it. -/
def blankInfo : SSI_RaidLevelInfo := ⟨false, 0, 0, 0, 0, 0, false, false, 0, false⟩

/-- The exception of `setComponentSize` for a level and a number of disks. -/
def levelCheck (raidInfo : Option RaidInfo) (diskCount : UInt64) (level : SSI_RaidLevel) :
    Option Exception :=
  match raidInfo with
  | none => some .invalidHandle
  | some pRaidInfo =>
      let (status, info) := pRaidInfo.getRaidLevelInfo level blankInfo
      if status ≠ .ok then some .invalidRaidLevel
      else if diskCount = 0 ∨ diskCount.toNat < info.minDisks then some .bufferTooSmall
      else if level = SSI_Raid0 ∧ diskCount = 1 then some .bufferTooSmall
      else if diskCount.toNat > info.maxDisks then some .bufferTooLarge
      else if (Volume.sizeDivider level diskCount).isNone then some .invalidRaidLevel
      else none

/-- `setName` refuses the name. -/
def NameRefused (name : Str) : Prop :=
  name.m_length > 16 ∨ (name.trim.find (lit " ") 0).isSome

instance (name : Str) : Decidable (NameRefused name) := inferInstanceAs (Decidable (_ ∨ _))

/-- For the levels that it knows the information does not depend on what was there before. -/
theorem getRaidLevelInfo_limits (r : RaidInfo) (level : SSI_RaidLevel)
    (info info' : SSI_RaidLevelInfo) :
    (r.getRaidLevelInfo level info).1 = (r.getRaidLevelInfo level info').1 ∧
      ((r.getRaidLevelInfo level info).1 = .ok →
        (r.getRaidLevelInfo level info).2.minDisks = (r.getRaidLevelInfo level info').2.minDisks ∧
        (r.getRaidLevelInfo level info).2.maxDisks = (r.getRaidLevelInfo level info').2.maxDisks) := by
  unfold RaidInfo.getRaidLevelInfo
  dsimp only
  split_ifs <;> simp

namespace Volume

variable {v : Volume}

/-- Both checks and the number of the data disks, as one function. -/
theorem setComponentSize_eq (v : Volume) (info : SSI_RaidLevelInfo) (volumeSize diskCount : UInt64)
    (level : SSI_RaidLevel) : v.setComponentSize info volumeSize diskCount level =
      match levelCheck v.getRaidInfo diskCount level with
      | some e => .error e
      | none => .ok { v with
          m_ComponentSize := volumeSize / (sizeDivider level diskCount).getD 0 } := by
  unfold setComponentSize levelCheck
  rcases v.getRaidInfo with _ | r
  · rfl
  obtain ⟨hstatus, hlimits⟩ := getRaidLevelInfo_limits r level info blankInfo
  dsimp only
  rw [← hstatus]
  by_cases hok : (r.getRaidLevelInfo level info).1 = .ok
  · obtain ⟨hmin, hmax⟩ := hlimits hok
    rw [← hmin, ← hmax]
    rcases sizeDivider level diskCount with _ | divider <;>
      simp only [hok, ne_eq, not_true_eq_false, if_false] <;> split_ifs <;> simp_all
  · simp [hok]

/-! ## The setters -/

/-- A check that may refuse and then a step that may refuse are one such check. -/
theorem orRaise_bind {α β : Type} {x : Except Exception α} {f : α → SysProg β}
    {g : α → Except Exception β} (h : ∀ a, f a = orRaise (g a)) :
    orRaise x >>= f = orRaise (x.bind g) := by
  cases x with
  | ok a => exact h a
  | error e => rfl

/-- The setters of the caller, which call nothing.
Source: `src/volume.cpp` `SsiVolumeCreateFromDisks`, `SsiVolumeCreate` -/
def applySettings (caller : Caller) (info : SSI_RaidLevelInfo) (pArray : RaidArray)
    (container : List EndDevice) (params : VolumeParams) (v : Volume) : Except Exception Volume :=
  let v := match caller with
    | .SsiVolumeCreateFromDisks => { v with m_pParent := some pArray, m_pSourceDisk := none }
    | .SsiVolumeCreate => { v with m_pParent := some pArray }
  (v.setVolumeEndDevices container).bind fun v =>
  (v.setComponentSize info params.sizeInBytes (UInt64.ofNat container.length) params.raidLevel).bind
    fun v =>
  (v.setVolumeName (.ofBytes params.volumeName)).bind fun v =>
  match caller with
  | .SsiVolumeCreateFromDisks =>
      (v.setRaidLevel params.raidLevel).bind fun v =>
      (if params.raidLevel ≠ SSI_Raid1 then v.setStripSize params.stripSize else .ok v).bind fun v =>
      v.setRwhPolicy params.rwhPolicy
  | .SsiVolumeCreate =>
      (v.setStripSize params.stripSize).bind fun v =>
      (v.setRaidLevel params.raidLevel).bind fun v =>
      v.setRwhPolicy params.rwhPolicy

/-- Applying the settings asks nothing of the system: it is a function of the request that refuses or
gives the volume. -/
theorem settings_eq (caller : Caller) (info : SSI_RaidLevelInfo) (pArray : RaidArray)
    (container : List EndDevice) (params : VolumeParams) (v : Volume) :
    settings caller info pArray container params v =
      orRaise (applySettings caller info pArray container params v) := by
  cases caller with
  | SsiVolumeCreateFromDisks =>
      refine orRaise_bind fun v => orRaise_bind fun v => orRaise_bind fun v => orRaise_bind fun v => ?_
      by_cases hlevel : params.raidLevel ≠ SSI_Raid1
      · rw [if_pos hlevel, if_pos hlevel]
        exact orRaise_bind fun v => rfl
      · rw [if_neg hlevel, if_neg hlevel]
        rfl
  | SsiVolumeCreate =>
      exact orRaise_bind fun v => orRaise_bind fun v => orRaise_bind fun v => orRaise_bind fun v =>
        orRaise_bind fun v => rfl

/-- The caller does not convert the strip size of a volume of level 1. -/
def StripRefused (caller : Caller) (params : VolumeParams) : Prop :=
  (caller = .SsiVolumeCreate ∨ params.raidLevel ≠ SSI_Raid1) ∧ stripsize2ui params.stripSize = none

instance (caller : Caller) (params : VolumeParams) : Decidable (StripRefused caller params) :=
  inferInstanceAs (Decidable ((_ ∨ _) ∧ _))

/-- The exception of `setRwhPolicy`. -/
def policyCheck (policy : SSI_RwhPolicy) : Option Exception :=
  if policy = .off ∨ policy = .distributed then none
  else if policy = .journalingDrive then some .notSupported
  else some .invalidObject

/-- The first check after the level that a volume fails. -/
def laterRefusal (caller : Caller) (params : VolumeParams) : Option Exception :=
  (if NameRefused (.ofBytes params.volumeName) then some .invalidName else none).or <|
    (if StripRefused caller params then some .invalidStripSize else none).or <|
    policyCheck params.rwhPolicy

/-- The first check that a volume fails. -/
def firstRefusal (caller : Caller) (container : List EndDevice) (params : VolumeParams) :
    Option Exception :=
  (levelCheck (container.findSome? EndDevice.raidInfo) (UInt64.ofNat container.length)
    params.raidLevel).or (laterRefusal caller params)

/-- The level as `setRaidLevel` stores it. -/
def levelNumber (level : SSI_RaidLevel) : UInt32 :=
  if level = SSI_Raid0 then 0 else if level = SSI_Raid1 then 1
  else if level = SSI_Raid10 then 10 else 5

/-- The volume that passes. -/
def settled (caller : Caller) (pArray : RaidArray) (container : List EndDevice)
    (params : VolumeParams) (v : Volume) : Volume :=
  { v with
    m_pParent := some pArray
    m_pSourceDisk := match caller with
      | .SsiVolumeCreateFromDisks => none
      | .SsiVolumeCreate => v.m_pSourceDisk
    m_BlockDevices := container
    m_ComponentSize := params.sizeInBytes /
      (sizeDivider params.raidLevel (UInt64.ofNat container.length)).getD 0
    m_Name := .ofBytes params.volumeName
    m_RaidLevel := levelNumber params.raidLevel
    m_StripSize :=
      if caller = .SsiVolumeCreateFromDisks ∧ params.raidLevel = SSI_Raid1 then v.m_StripSize
      else (stripsize2ui params.stripSize).getD 0
    m_RwhPolicy := params.rwhPolicy }

/-- A disk that `setEndDevices` takes. -/
def Usable (d : EndDevice) : Prop :=
  d.isBlockDevice = true ∧ d.systemDisk = false ∧ d.diskState = .normal

/-- Devices that can all be used are taken as they are, in the order of the request. -/
theorem setVolumeEndDevices_of_usable (v : Volume) {container : List EndDevice}
    (h : ∀ d ∈ container, Usable d) :
    v.setVolumeEndDevices container = .ok { v with m_BlockDevices := container } := by
  have hgo : ∀ d : RaidDevice, RaidDevice.setEndDevices.go d container =
      (none, { d with m_BlockDevices := d.m_BlockDevices ++ container }) := by
    induction container with
    | nil => simp [RaidDevice.setEndDevices.go]
    | cons device rest ih =>
        intro d
        obtain ⟨hblock, hsystem, hstate⟩ := h device List.mem_cons_self
        rw [RaidDevice.setEndDevices.go]
        simp only [hblock, hsystem, hstate, Bool.not_true, Bool.false_eq_true, if_false, ne_eq,
          not_true_eq_false]
        rw [ih fun d hd => h d (List.mem_cons_of_mem _ hd), List.append_assoc]
        rfl
  unfold setVolumeEndDevices RaidDevice.setEndDevices
  rw [hgo, List.nil_append]

/-- A name is refused or taken; nothing else of the volume changes. -/
theorem setVolumeName_eq (v : Volume) (name : Str) : v.setVolumeName name =
    if NameRefused name then .error .invalidName else .ok { v with m_Name := name } := by
  unfold setVolumeName RaidDevice.setName NameRefused
  by_cases hlength : name.m_length > 16
  · simp [hlength]
  · by_cases hblank : (name.trim.find (lit " ") 0).isSome <;> simp [hlength, hblank]

/-- A strip size is refused or taken in bytes. -/
theorem setStripSize_eq (v : Volume) (stripSize : SSI_StripSize) : v.setStripSize stripSize =
    match stripsize2ui stripSize with
    | none => .error .invalidStripSize
    | some bytes => .ok { v with m_StripSize := bytes } := by
  unfold setStripSize
  rcases stripsize2ui stripSize with _ | bytes <;> rfl

/-- A policy is refused or taken. -/
theorem setRwhPolicy_eq (v : Volume) (policy : SSI_RwhPolicy) : v.setRwhPolicy policy =
    match policyCheck policy with
    | some e => .error e
    | none => .ok { v with m_RwhPolicy := policy } := by
  cases policy <;> rfl

/-- A level that passes is one that `setRaidLevel` stores. -/
theorem setRaidLevel_of_levelCheck (v : Volume) {raidInfo : Option RaidInfo} {diskCount : UInt64}
    {level : SSI_RaidLevel} (h : levelCheck raidInfo diskCount level = none) :
    v.setRaidLevel level = .ok { v with m_RaidLevel := levelNumber level } := by
  have hdivider : (sizeDivider level diskCount).isNone = false := by
    unfold levelCheck at h
    rcases raidInfo with _ | r
    · simp at h
    · dsimp only at h
      split_ifs at h with _ _ _ _ hsome
      exact Bool.eq_false_iff.mpr hsome
  unfold sizeDivider at hdivider
  unfold setRaidLevel levelNumber
  split_ifs at hdivider ⊢ <;> first | rfl | cases hdivider

/-- **The setters as one function.** Over disks that are usable the volume passes iff no check fails,
and the first check that fails is what is thrown. -/
theorem applySettings_of_usable (caller : Caller) (info : SSI_RaidLevelInfo) (pArray : RaidArray)
    {container : List EndDevice} (params : VolumeParams) (v : Volume)
    (h : ∀ d ∈ container, Usable d) :
    applySettings caller info pArray container params v =
      match firstRefusal caller container params with
      | some e => .error e
      | none => .ok (settled caller pArray container params v) := by
  have hinfo : ∀ w : Volume, ({ w with m_BlockDevices := container } : Volume).getRaidInfo =
      container.findSome? EndDevice.raidInfo := fun _ => rfl
  unfold applySettings firstRefusal laterRefusal
  dsimp only
  rw [setVolumeEndDevices_of_usable _ h]
  simp only [Except.bind, setComponentSize_eq, hinfo]
  rcases hlevel : levelCheck (container.findSome? EndDevice.raidInfo) (UInt64.ofNat container.length)
      params.raidLevel with _ | e
  swap
  · rfl
  rw [Option.none_or]
  dsimp only
  rw [setVolumeName_eq]
  by_cases hname : NameRefused (.ofBytes params.volumeName)
  · rw [if_pos hname, if_pos hname]
    rfl
  rw [if_neg hname, if_neg hname, Option.none_or]
  dsimp only
  cases caller with
  | SsiVolumeCreateFromDisks =>
      simp only [setRaidLevel_of_levelCheck _ hlevel, setStripSize_eq, setRwhPolicy_eq]
      by_cases hone : params.raidLevel = SSI_Raid1
      · have hstrip : ¬ StripRefused .SsiVolumeCreateFromDisks params := by
          simp [StripRefused, hone]
        rw [if_neg (not_not.mpr hone), if_neg hstrip, Option.none_or]
        rcases policyCheck params.rwhPolicy with _ | e
        · simp [settled, hone]
        · rfl
      · rw [if_pos hone]
        rcases hbytes : stripsize2ui params.stripSize with _ | bytes
        · have hstrip : StripRefused .SsiVolumeCreateFromDisks params := ⟨.inr hone, hbytes⟩
          rw [if_pos hstrip]
          rfl
        · have hstrip : ¬ StripRefused .SsiVolumeCreateFromDisks params := by
            simp [StripRefused, hbytes]
          rw [if_neg hstrip, Option.none_or]
          dsimp only
          rcases policyCheck params.rwhPolicy with _ | e
          · simp [settled, hone, hbytes]
          · rfl
  | SsiVolumeCreate =>
      simp only [setRaidLevel_of_levelCheck _ hlevel, setStripSize_eq, setRwhPolicy_eq]
      rcases hbytes : stripsize2ui params.stripSize with _ | bytes
      · have hstrip : StripRefused .SsiVolumeCreate params := ⟨.inl rfl, hbytes⟩
        rw [if_pos hstrip]
        rfl
      · have hstrip : ¬ StripRefused .SsiVolumeCreate params := by
          simp [StripRefused, hbytes]
        rw [if_neg hstrip, Option.none_or]
        dsimp only
        rcases policyCheck params.rwhPolicy with _ | e
        · simp [settled, hbytes]
        · rfl

/-! ## Discovery -/

/-- Nothing but `std::out_of_range` is thrown. -/
def ThrowsOutOfRange {α : Type} (p : SysProg α) : Prop :=
  Ensures p fun _ res => ∀ f, res = .error f → f = .outOfRange

section throws

variable {α β : Type} {p : SysProg α} {f : α → SysProg β}

/-- A program that returns throws nothing. -/
theorem throwsOutOfRange_pure (a : α) : ThrowsOutOfRange (pure a) :=
  ensures_pure fun _ h => nomatch h

/-- Sequencing: the exceptions of both parts are those of the search. -/
theorem throwsOutOfRange_bind (hp : ThrowsOutOfRange p) (hf : ∀ a, ThrowsOutOfRange (f a)) :
    ThrowsOutOfRange (p >>= f) :=
  ensures_bind hp (fun _ a _ => hf a) fun _ _ h f hf => h f (congrArg Except.error (Except.error.inj hf))

/-- A call of the system throws nothing by itself. -/
theorem throwsOutOfRange_call {c : SysCall} {k : SysReply c → SysProg α}
    (h : ∀ r, ThrowsOutOfRange (k r)) : ThrowsOutOfRange (.call c k) :=
  ensures_call h

/-- Reading an attribute as a text catches what the file throws. -/
theorem throwsOutOfRange_readText (path : Str) : ThrowsOutOfRange (readText path) :=
  throwsOutOfRange_call fun _ => throwsOutOfRange_pure _

/-- Reading an attribute as a number catches what the file throws. -/
theorem throwsOutOfRange_readNumber (path : Str) (convert : List UInt8 → α) :
    ThrowsOutOfRange (readNumber path convert) :=
  throwsOutOfRange_call fun _ => throwsOutOfRange_pure _

/-- An attribute that mdadm prints is searched for in the output, which may throw. -/
theorem throwsOutOfRange_getMdadmAttribute (v : Volume) (field : Str) :
    ThrowsOutOfRange (v.getMdadmAttribute field) := by
  unfold getMdadmAttribute
  rw [shellOutput_bind]
  apply throwsOutOfRange_call
  intro reply
  dsimp only
  split
  next => exact throwsOutOfRange_pure _
  next =>
    split
    next => exact ensures_throw fun f hf => (Except.error.inj hf).symm
    next => exact throwsOutOfRange_pure _

/-- A percentage is searched for in the output, which may throw. -/
theorem throwsOutOfRange_getPercentageStatus (v : Volume) (field : Str) :
    ThrowsOutOfRange (v.getPercentageStatus field) := by
  apply throwsOutOfRange_bind (throwsOutOfRange_getMdadmAttribute v field)
  intro progress
  split
  next => exact throwsOutOfRange_pure _
  next => dsimp only; split <;> exact throwsOutOfRange_pure _

/-- The discovery of the state throws what the searches throw and nothing else. -/
theorem throwsOutOfRange_discoverState (v : Volume) : ThrowsOutOfRange v.discoverState := by
  have hreadonly : ThrowsOutOfRange v.isReadonly := by
    apply throwsOutOfRange_bind (throwsOutOfRange_readText _)
    intro temp
    cases temp <;> exact throwsOutOfRange_pure _
  unfold discoverState
  split
  next =>
    apply throwsOutOfRange_bind hreadonly
    intro locked
    split
    next => exact throwsOutOfRange_pure _
    next =>
      apply throwsOutOfRange_bind (throwsOutOfRange_readText _)
      intro temp
      cases temp <;> exact throwsOutOfRange_pure _
  next => exact throwsOutOfRange_pure _

/-- The discovery of the progress throws what the searches throw and nothing else. -/
theorem throwsOutOfRange_discoverProgress (v : Volume) : ThrowsOutOfRange v.discoverProgress := by
  unfold discoverProgress
  split
  next =>
    apply throwsOutOfRange_bind (throwsOutOfRange_readNumber _ _)
    intro degraded
    cases degraded <;> exact throwsOutOfRange_pure _
  split
  next =>
    refine throwsOutOfRange_bind ?_ fun level => ?_
    · exact throwsOutOfRange_bind (throwsOutOfRange_getMdadmAttribute v _) fun _ =>
        throwsOutOfRange_pure _
    · exact throwsOutOfRange_bind (throwsOutOfRange_getPercentageStatus v _) fun _ =>
        throwsOutOfRange_pure _
  split
  next =>
    exact throwsOutOfRange_bind (throwsOutOfRange_getPercentageStatus v _) fun _ =>
      throwsOutOfRange_pure _
  next => exact throwsOutOfRange_pure _

/-- The attributes together throw what the searches throw and nothing else. -/
theorem throwsOutOfRange_discoverAttributes (v : Volume) : ThrowsOutOfRange v.discoverAttributes := by
  refine throwsOutOfRange_bind ?_ fun v₁ => ?_
  · apply throwsOutOfRange_bind (throwsOutOfRange_readText _)
    intro temp
    cases temp <;> exact throwsOutOfRange_pure _
  apply throwsOutOfRange_bind (throwsOutOfRange_discoverState v₁)
  intro v₂
  apply throwsOutOfRange_bind (throwsOutOfRange_discoverProgress v₂)
  intro v₃
  refine throwsOutOfRange_bind ?_ fun v₄ => throwsOutOfRange_bind ?_ fun v₅ => ?_
  · exact throwsOutOfRange_bind (throwsOutOfRange_readNumber _ _) fun _ =>
      throwsOutOfRange_bind (throwsOutOfRange_readNumber _ _) fun _ => throwsOutOfRange_pure _
  · unfold discoverSystem
    rw [shellOutput_bind]
    apply throwsOutOfRange_call
    intro reply
    split <;> exact throwsOutOfRange_pure _
  · apply throwsOutOfRange_bind (throwsOutOfRange_readText _)
    intro temp
    cases temp with
    | some temp => exact throwsOutOfRange_pure _
    | none =>
        apply throwsOutOfRange_bind (throwsOutOfRange_readText _)
        intro temp
        cases temp <;> exact throwsOutOfRange_pure _

/-- The discovery of the volume's block device throws what the searches throw and nothing else. -/
theorem throwsOutOfRange_discoverBlockDevice (d : EndDevice) :
    ThrowsOutOfRange d.discoverBlockDevice := by
  have husage : ∀ d : EndDevice, ThrowsOutOfRange d.determineDiskUsage := fun d =>
    throwsOutOfRange_call fun _ => throwsOutOfRange_pure _
  refine throwsOutOfRange_bind (husage _) fun d₁ => ?_
  unfold EndDevice.determineDiskIsSystem
  rw [shellOutput_bind]
  apply throwsOutOfRange_call
  intro reply
  split <;> exact throwsOutOfRange_pure _

/-- Over all answers of the system a volume's discovery throws, if at all, what a search in an output
throws. -/
theorem throwsOutOfRange_discover (v : Volume) : ThrowsOutOfRange v.discover := by
  refine throwsOutOfRange_bind ?_ fun d =>
    throwsOutOfRange_bind (throwsOutOfRange_discoverBlockDevice _) fun _ =>
      throwsOutOfRange_discoverAttributes _
  unfold RaidDevice.discover
  rw [RaidDevice.update_eq]
  exact throwsOutOfRange_call fun reply => throwsOutOfRange_pure _

end throws

/-- Discovery finds no source disk. -/
theorem returns_discover_sourceDisk (v : Volume) :
    Returns v.discover fun v' => v'.m_pSourceDisk = v.m_pSourceDisk := by
  refine returns_bind_of_forall fun d => returns_bind_of_forall fun _ => ?_
  refine returns_bind (P := fun v' => v'.m_pSourceDisk = v.m_pSourceDisk) ?_ fun v₁ h₁ => ?_
  · apply returns_bind_of_forall
    intro temp
    cases temp <;> exact returns_pure rfl
  refine returns_bind (P := fun v' => v'.m_pSourceDisk = v.m_pSourceDisk) ?_ fun v₂ h₂ => ?_
  · unfold discoverState
    split
    next =>
      apply returns_bind_of_forall
      intro locked
      split
      next => exact returns_pure h₁
      next =>
        apply returns_bind_of_forall
        intro temp
        cases temp <;> exact returns_pure h₁
    next => exact returns_pure h₁
  refine returns_bind (P := fun v' => v'.m_pSourceDisk = v.m_pSourceDisk) ?_ fun v₃ h₃ => ?_
  · unfold discoverProgress
    split
    next =>
      apply returns_bind_of_forall
      intro degraded
      cases degraded <;> exact returns_pure h₂
    split
    next => exact returns_bind_of_forall fun _ => returns_bind_of_forall fun _ => returns_pure h₂
    split
    next => exact returns_bind_of_forall fun _ => returns_pure h₂
    next => exact returns_pure h₂
  refine returns_bind (P := fun v' => v'.m_pSourceDisk = v.m_pSourceDisk) ?_ fun v₄ h₄ => ?_
  · exact returns_bind_of_forall fun _ => returns_bind_of_forall fun _ => returns_pure h₃
  refine returns_bind (P := fun v' => v'.m_pSourceDisk = v.m_pSourceDisk) ?_ fun v₅ h₅ => ?_
  · apply returns_bind_of_forall
    intro reply
    split <;> exact returns_pure h₄
  apply returns_bind_of_forall
  intro temp
  cases temp with
  | some temp => exact returns_pure h₅
  | none =>
      apply returns_bind_of_forall
      intro temp
      cases temp <;> exact returns_pure h₅

/-! ## Creation -/

/-- The name that `determineDeviceName` settles on. -/
def findName (namePrefix : Str) : Nat → Nat → SysProg Str
  | 0, _ => .throw .outOfRounds
  | rounds + 1, id => do
      if (← statEnoent (namePrefix ++ Str.ofNat id)) then pure (namePrefix ++ Str.ofNat id)
      else findName namePrefix rounds ((id + 1) % 2 ^ 32)

/-- Choosing a device name changes the name only. -/
theorem determineDeviceName_eq (d : RaidDevice) (namePrefix : Str) (rounds id : Nat) :
    d.determineDeviceName namePrefix rounds id =
      findName namePrefix rounds id >>= fun name => pure { d with m_Name := name } := by
  induction rounds generalizing d id with
  | zero => rfl
  | succ rounds ih =>
      unfold RaidDevice.determineDeviceName findName
      simp only [statEnoent_bind]
      show Prog.call _ _ = Prog.call _ _
      congr 1
      funext enoent
      cases enoent with
      | true => rfl
      | false => exact ih _ _

/-- The name that a volume is created under. -/
def chooseName (name : Str) (rounds : Nat) : SysProg Str :=
  if name.equal .empty then findName (.ofLit "Volume_") rounds 0 else pure name

/-- Naming a volume changes the name only. -/
theorem nameVolume_eq (v : Volume) (rounds : Nat) : v.nameVolume rounds =
    chooseName v.m_Name rounds >>= fun name => pure { v with m_Name := name } := by
  unfold nameVolume chooseName
  split
  next =>
    rw [determineDeviceName_eq, Prog.bind_assoc]
    rfl
  next => rfl

/-- The commands for a volume that has its name. -/
def commandsNamed (v : Volume) : SysProg Volume :=
  if v.m_RaidLevel ≠ 0 ∧ v.m_BlockDevices.any EndDevice.fultondalex8 then raise .invalidRaidLevel
  else if v.m_pSourceDisk.isSome then raise .notSupported
  else v.tryCommands >>= fun _ => pure v

/-- Creation under the name that has been chosen. -/
def createNamed (v : Volume) : SysProg Volume := v.commandsNamed >>= fun v => v.waitForVolume 10

/-- Creation is the choice of a name and the creation under this name. -/
theorem create_eq (v : Volume) (rounds : Nat) : v.create rounds =
    chooseName v.m_Name rounds >>= fun name => createNamed { v with m_Name := name } := by
  have hcommands : v.createCommands rounds = v.nameVolume rounds >>= commandsNamed := rfl
  unfold create
  rw [hcommands, nameVolume_eq, Prog.bind_assoc, Prog.bind_assoc]
  rfl

/-- Disks of the FDx8 kind are for level 0 only. -/
def FultondaleRefused (v : Volume) : Prop :=
  v.m_RaidLevel ≠ 0 ∧ v.m_BlockDevices.any EndDevice.fultondalex8

instance (v : Volume) : Decidable v.FultondaleRefused := inferInstanceAs (Decidable (_ ∧ _))

/-- A volume that a Fultondale X8 board does not take is refused before the first command. -/
theorem createNamed_of_refused {v : Volume} (h : v.FultondaleRefused) :
    createNamed v = raise .invalidRaidLevel := by
  unfold FultondaleRefused at h
  unfold createNamed commandsNamed
  rw [if_pos h]
  rfl

/-- The policy option of the first command. -/
def firstPolicy (policy : SSI_RwhPolicy) : Str :=
  if policy = .distributed then .ofLit " --rwh-policy=" ++ .ofLit "ppl" else .ofLit ""

/-- Otherwise the first call is the command that creates the volume. -/
theorem createNamed_of_passed {v : Volume} (h : ¬ v.FultondaleRefused)
    (hsource : v.m_pSourceDisk = none) :
    ∃ k, createNamed v = .call (.shell (v.createCommand (firstPolicy v.m_RwhPolicy))) k := by
  have hpolicy : v.policyOption " --rwh-policy=" rwhPolicyToString =
      .ok (firstPolicy v.m_RwhPolicy) := by
    unfold policyOption firstPolicy
    split
    next hdistributed =>
      rw [hdistributed]
      rfl
    next => rfl
  unfold FultondaleRefused at h
  unfold createNamed commandsNamed tryCommands
  rw [if_neg h, hsource, hpolicy]
  exact ⟨_, rfl⟩

end Volume

end Irstessi
