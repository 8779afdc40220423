import Irstessi.Migration
import Irstessi.Rebuild
import Mathlib.Data.Nat.ModEq

/-!
# Migrations that leave the strip size or the size as it is

`SsiRaidLevelModify` is asked for a strip size and a size beside the level. No strip size and the
current one should be the same request, and so should no size and the size that `Volume::getInfo`
reports.

* `SameOutcome`: two programs that issue the same commands and return the same.
* `returns_modify`: what `Volume::modify` returns once its checks have passed.
* **`keepsStrip_iff`**: the strip size can be left out, exactly but for the takeover of a level 1
  volume to level 0, which compares it with 64 kB.
* **`passesBackSize_iff`**: the reported size is no change, exactly where the request is refused
  before or the size agrees with that of all members together.

The two requests are compared as programs: the same commands in every environment, and the same results.
A strip size of 0 and the current one go through the same checks and give the same programs, except
where the code compares the requested strip size with a constant. For the size the check compares with
the sum of the members, while `getInfo` reports the size of the volume, so that the two agree for few
levels only; where they do not, the request for the reported size is refused, and this differs from the
other one unless that is refused before. What `modify` can return is needed to tell a refusal of the
check from one that comes later.
-/

namespace Irstessi

open Interact

/-- The same calls and the same result against every environment. -/
def SameOutcome {α : Type} (p q : SysProg α) : Prop :=
  ∀ env i, (p.run env i).trace = (q.run env i).trace ∧ (p.run env i).result = (q.run env i).result

/-! ## What a migration returns -/

section returns

variable {P : SSI_Status → Prop}

/-- A refusal with a message returns its status. -/
theorem returns_message {message : Str} {status : SSI_Status} (h : P status) :
    Returns (do setLastErrorMessage message; pure status) P := by
  intro env i result hresult
  obtain rfl := Except.ok.inj hresult
  exact h

/-- The common refusal returns its status. -/
theorem returns_refuse {status : SSI_Status} (h : P status) : Returns (refuse status) P := by
  unfold refuse
  split
  next => exact returns_message h
  next => exact returns_pure h

/-- `P` holds of all statuses but those that are about the sizes asked for. -/
def HoldsOfOthers (P : SSI_Status → Prop) : Prop :=
  ∀ status, status ≠ .invalidSize → status ≠ .invalidStripSize → P status

variable (hP : HoldsOfOthers P)

include hP

/-- Success is one of the others. -/
theorem HoldsOfOthers.ok : P .ok := hP _ (by simp) (by simp)

/-- So is the status of a command that fails. -/
theorem HoldsOfOthers.failed : P .failed := hP _ (by simp) (by simp)

/-- So is the refusal of a busy container. -/
theorem HoldsOfOthers.invalidState : P .invalidState := hP _ (by simp) (by simp)

/-- So is the refusal of a technology or a level. -/
theorem HoldsOfOthers.notSupported : P .notSupported := hP _ (by simp) (by simp)

/-- So is the refusal of a parameter. -/
theorem HoldsOfOthers.invalidParameter : P .invalidParameter := hP _ (by simp) (by simp)

/-- The check of the added disks never refuses because of the strip size. -/
theorem HoldsOfOthers.canAddEndDevices (a : RaidArray) (disks : List EndDevice) :
    P (a.canAddEndDevices disks) := by
  unfold RaidArray.canAddEndDevices
  extract_lets isSata
  split_ifs
  · exact hP.invalidParameter
  · exact hP.ok

/-- A single command whose success is the status. -/
theorem returns_command (cmd : Command) :
    Returns (do if (← shellEx cmd 1 0) = 0 then pure .ok else pure .failed) P := by
  apply returns_bind_of_forall
  intro r
  split
  next => exact returns_pure hP.ok
  next => exact returns_pure hP.failed

/-- Adding spares never refuses because of the strip size. -/
theorem returns_addSpare (a : RaidArray) (disks : List EndDevice) :
    Returns (a.addSpare disks) P := by
  unfold RaidArray.addSpare
  split
  next => exact returns_pure hP.invalidState
  next => exact returns_pure hP.ok
  next =>
    apply returns_bind_of_forall
    intro r
    split
    next => exact returns_pure hP.ok
    next => exact returns_pure hP.failed

/-- Growing never refuses because of the strip size. -/
theorem returns_grow (a : RaidArray) (disks : List EndDevice) : Returns (a.grow disks) P := by
  unfold RaidArray.grow
  split
  next => exact returns_pure hP.invalidState
  next =>
    apply returns_bind_of_forall
    intro addedToSpare
    refine returns_bind (returns_addSpare hP a disks) fun status hstatus => ?_
    split
    next =>
      apply returns_bind_of_forall
      intro r
      split
      next => exact returns_bind_of_forall fun _ => returns_pure hP.failed
      next => exact returns_pure hP.ok
    next => exact returns_pure hstatus

/-- Spares first, then one command, rolled back where it fails. -/
theorem returns_spares_then (a : RaidArray) (cmd : Command) (disks : List EndDevice) :
    Returns (do
      let addedToSpare ← RaidArray.getSpareableEndDevices disks
      let status ← a.addSpare disks
      if status ≠ .ok then pure status
      else if (← shellEx cmd 1 0) = 0 then pure .ok
      else do
        let _ ← a.removeSpares true addedToSpare .ok
        pure .failed) P := by
  apply returns_bind_of_forall
  intro addedToSpare
  refine returns_bind (returns_addSpare hP a disks) fun status hstatus => ?_
  split
  next => exact returns_pure hstatus
  next =>
    apply returns_bind_of_forall
    intro r
    split
    next => exact returns_pure hP.ok
    next => exact returns_bind_of_forall fun _ => returns_pure hP.failed

namespace Volume

variable (v : Volume) (a : RaidArray) (ch : Option Nat) (disks : List EndDevice)

/-- Level 0 to level 0 never answers that the strip size is invalid, only that both changes together are
not supported. -/
theorem returns_toRaid0From0 (chunkChange : Bool) :
    Returns (v.toRaid0From0 a chunkChange ch disks) P := by
  unfold toRaid0From0
  split
  next => exact returns_pure hP.ok
  split
  next => exact returns_pure hP.notSupported
  split
  next =>
    dsimp only
    split
    next => exact returns_grow hP a disks
    next => exact returns_refuse (hP.canAddEndDevices a disks)
  next => exact returns_command hP _

/-- Level 1 to level 0 refuses the strip size only where it is another one than 64 kB or is to be
changed. -/
theorem returns_toRaid0From1 {chunkChange : Bool} {stripSize : SSI_StripSize}
    (hstrip : chunkChange = true ∨ stripSize ≠ SSI_StripSize64kB → P .invalidStripSize) :
    Returns (v.toRaid0From1 a chunkChange stripSize disks) P := by
  unfold toRaid0From1
  split
  next h => exact returns_message (hstrip (.inl h))
  split
  next h => exact returns_message (hstrip (.inr h))
  dsimp only
  split
  next =>
    apply returns_bind_of_forall
    intro r
    split
    next =>
      split
      next => exact returns_grow hP a disks
      next => exact returns_pure hP.ok
    next => exact returns_refuse (hP.canAddEndDevices a disks)
  next => exact returns_refuse (hP.canAddEndDevices a disks)

/-- Level 10 to level 0 never refuses because of the strip size. -/
theorem returns_toRaid0From10 (chunkChange : Bool) :
    Returns (v.toRaid0From10 a chunkChange ch disks) P := by
  unfold toRaid0From10
  split
  next => exact returns_pure hP.notSupported
  dsimp only
  split
  next =>
    apply returns_bind_of_forall
    intro r
    split
    next =>
      split
      next => exact returns_pure hP.ok
      split
      next => exact returns_grow hP a disks
      next =>
        apply returns_bind_of_forall
        intro r'
        split
        next => exact returns_pure hP.ok
        next => exact returns_refuse (hP.canAddEndDevices a disks)
    next => exact returns_refuse (hP.canAddEndDevices a disks)
  next => exact returns_refuse (hP.canAddEndDevices a disks)

/-- Level 5 to level 0 refuses the strip size only where it is to be changed. -/
theorem returns_toRaid0From5 {chunkChange : Bool}
    (hstrip : chunkChange = true → P .invalidStripSize) :
    Returns (v.toRaid0From5 chunkChange disks) P := by
  unfold toRaid0From5
  split
  next => exact returns_pure hP.notSupported
  split
  next h => exact returns_pure (hstrip h)
  next => exact returns_command hP _

/-- A strip size that is not the current one may be refused; in a takeover from level 1 every one but
64 kB is. -/
theorem returns_toRaid0 {stripSize : SSI_StripSize}
    (hchange : v.chunkChange stripSize = true → P .invalidStripSize)
    (hone : v.m_RaidLevel = 1 → v.m_pParent ≠ none → stripSize ≠ SSI_StripSize64kB →
      P .invalidStripSize) : Returns (v.toRaid0 stripSize disks) P := by
  unfold toRaid0
  split
  next pArray hparent =>
    split
    next hnone =>
      apply returns_pure
      apply hchange
      unfold chunkArgument at hnone
      split at hnone
      next h => exact h
      next => simp at hnone
    split
    next => exact v.returns_toRaid0From0 hP pArray _ disks _
    split
    next hlevel =>
      apply v.returns_toRaid0From1 hP pArray disks
      rintro (h | h)
      · exact hchange h
      · exact hone hlevel (by simp [hparent]) h
    split
    next => exact v.returns_toRaid0From10 hP pArray _ disks _
    split
    next => exact v.returns_toRaid0From5 hP disks hchange
    next => exact returns_pure hP.notSupported
  next => exact returns_pure hP.failed

/-- The migration to level 10 refuses the strip size only where it is to be changed. -/
theorem returns_toRaid10 {stripSize : SSI_StripSize}
    (hchange : v.chunkChange stripSize = true → P .invalidStripSize) :
    Returns (v.toRaid10 stripSize disks) P := by
  unfold toRaid10
  split
  next pArray _ =>
    split
    next => exact returns_pure hP.notSupported
    split
    next => exact returns_message hP.invalidParameter
    split
    next h => exact returns_pure (hchange h)
    dsimp only
    split
    next => exact returns_refuse (hP.canAddEndDevices pArray disks)
    next => exact returns_spares_then hP pArray _ disks
  next => exact returns_pure hP.failed

/-- The migrations to level 5 refuse the strip size only where it is to be changed. -/
theorem returns_toRaid5 {stripSize : SSI_StripSize}
    (hchange : v.chunkChange stripSize = true → P .invalidStripSize) :
    Returns (v.toRaid5 stripSize disks) P := by
  unfold toRaid5
  split
  next pArray _ =>
    split
    next hnone =>
      apply returns_pure
      apply hchange
      unfold chunkArgument at hnone
      split at hnone
      next h => exact h
      next => simp at hnone
    split
    next =>
      unfold toRaid5From0
      split
      next => exact returns_message hP.invalidParameter
      dsimp only
      split
      next => exact returns_refuse (hP.canAddEndDevices pArray disks)
      next => exact returns_spares_then hP pArray _ disks
    split
    next =>
      unfold toRaid5From10
      split
      next => exact returns_message hP.invalidParameter
      apply returns_bind_of_forall
      intro r
      split
      next => exact returns_command hP _
      next => exact returns_pure hP.failed
    split
    next =>
      unfold toRaid5From5
      split
      next => exact returns_pure hP.notSupported
      split
      next =>
        dsimp only
        split
        next => exact returns_refuse (hP.canAddEndDevices pArray disks)
        next => exact returns_grow hP pArray disks
      next => exact returns_command hP _
    next => exact returns_pure hP.notSupported
  next => exact returns_pure hP.failed

/-- After the checks of `modify` nothing is said about the size, and about the strip size only where
it is to change, or in a takeover from level 1. -/
theorem returns_modify {info : SSI_RaidLevelInfo} {stripSize : SSI_StripSize}
    {raidLevel : SSI_RaidLevel} {newSize : UInt64}
    (hcheck : ∀ status, v.modifyCheck info stripSize raidLevel newSize disks = some status → P status)
    (hchange : v.chunkChange stripSize = true → P .invalidStripSize)
    (hone : v.modifyCheck info stripSize raidLevel newSize disks = none → raidLevel = SSI_Raid0 →
      v.m_RaidLevel = 1 → v.m_pParent ≠ none → stripSize ≠ SSI_StripSize64kB →
        P .invalidStripSize) :
    Returns (v.modify info stripSize raidLevel newSize disks) P := by
  unfold modify
  split
  next status h => exact returns_pure (hcheck status h)
  next h =>
    split
    next hlevel => exact v.returns_toRaid0 hP disks hchange (hone h hlevel)
    split
    next => exact v.returns_toRaid10 hP disks hchange
    split
    next => exact v.returns_toRaid5 hP disks hchange
    next => exact returns_pure hP.notSupported

end Volume

end returns

/-! ## The strip size -/

namespace Volume

variable (v : Volume) (info : SSI_RaidLevelInfo) (raidLevel : SSI_RaidLevel) (newSize : UInt64)
  (disks : List EndDevice)

/-- What the RAID information of the volume says about its level. -/
def levelInfo (pRaidInfo : RaidInfo) : SSI_RaidLevelInfo :=
  (pRaidInfo.getRaidLevelInfo (ui2raidlevel v.m_RaidLevel) info).2

/-- For a target level that is advertised, the strip size can be left out: the status is never that of
an invalid strip size, and the call does what it does for the current strip size, where that is
supported. -/
def KeepsStrip : Prop :=
  ∀ pRaidInfo, v.getRaidInfo = some pRaidInfo →
    raidLevel &&& (v.levelInfo info pRaidInfo).migrSupport ≠ 0 →
      (∀ env i, ((v.modify info SSI_StripSizeUnknown raidLevel newSize disks).run env i).result ≠
        .ok .invalidStripSize) ∧
      (ui2stripsize v.m_StripSize &&& (v.levelInfo info pRaidInfo).stripSizesSupported ≠ 0 →
        SameOutcome (v.modify info SSI_StripSizeUnknown raidLevel newSize disks)
          (v.modify info (ui2stripsize v.m_StripSize) raidLevel newSize disks))

/-- The size of all members together, as `modify` compares it. -/
def memberSizes : UInt64 := (v.m_ComponentSize <<< 10) * UInt64.ofNat v.m_BlockDevices.length

/-- A level 1 volume with RAID information and a parent is to become one of level 0, with no size or
the size of its members together. -/
def StripCompared : Prop :=
  v.m_RaidLevel = 1 ∧ raidLevel = SSI_Raid0 ∧ v.getRaidInfo ≠ none ∧ v.m_pParent ≠ none ∧
    (newSize = 0 ∨ newSize = v.memberSizes)

variable {v info raidLevel newSize disks}

/-- The unknown strip size asks for no change. -/
theorem chunkChange_unknown : v.chunkChange SSI_StripSizeUnknown = false := by
  simp [chunkChange, SSI_StripSizeUnknown]

/-- The current strip size asks for no change. -/
theorem chunkChange_current : v.chunkChange (ui2stripsize v.m_StripSize) = false := by
  simp [chunkChange]

/-- The checks of `modify`, one after the other. -/
theorem modifyCheck_eq {pRaidInfo : RaidInfo} (hinfo : v.getRaidInfo = some pRaidInfo)
    (stripSize : SSI_StripSize) :
    v.modifyCheck info stripSize raidLevel newSize disks =
      if stripSize &&& (v.levelInfo info pRaidInfo).stripSizesSupported = 0 ∧
          stripSize ≠ SSI_StripSizeUnknown then some .invalidStripSize
      else if raidLevel &&& (v.levelInfo info pRaidInfo).migrSupport = 0 then some .invalidRaidLevel
      else if newSize ≠ 0 ∧ newSize ≠ v.memberSizes then some .invalidSize
      else if raidLevel ≠ SSI_Raid0 ∧
          (v.m_BlockDevices.any EndDevice.fultondalex8 ∨ disks.any EndDevice.fultondalex8) then
        some .invalidRaidLevel
      else none := by
  unfold modifyCheck
  rw [hinfo]
  rfl

/-- The current strip size passes the checks as no strip size does. -/
theorem modifyCheck_current {pRaidInfo : RaidInfo} (hinfo : v.getRaidInfo = some pRaidInfo)
    (hsupported :
      ui2stripsize v.m_StripSize &&& (v.levelInfo info pRaidInfo).stripSizesSupported ≠ 0) :
    v.modifyCheck info (ui2stripsize v.m_StripSize) raidLevel newSize disks =
      v.modifyCheck info SSI_StripSizeUnknown raidLevel newSize disks := by
  simp only [modifyCheck_eq hinfo, hsupported, ne_eq, not_true_eq_false, false_and, and_false,
    if_false]

/-- Without a strip size none is refused by the checks. -/
theorem modifyCheck_unknown_ne :
    v.modifyCheck info SSI_StripSizeUnknown raidLevel newSize disks ≠ some .invalidStripSize := by
  rcases hinfo : v.getRaidInfo with _ | pRaidInfo
  · simp [modifyCheck, hinfo]
  · rw [modifyCheck_eq hinfo, if_neg (fun h => h.2 rfl)]
    split_ifs <;> simp

/-- A level 1 volume of the kind passes the checks of a request for level 0. -/
theorem modifyCheck_of_level_one {pRaidInfo : RaidInfo} (hinfo : v.getRaidInfo = some pRaidInfo)
    (hlevel : v.m_RaidLevel = 1) (info : SSI_RaidLevelInfo) (newSize : UInt64)
    (disks : List EndDevice) :
    (v.modifyCheck info SSI_StripSizeUnknown SSI_Raid0 newSize disks = none ↔
      newSize = 0 ∨ newSize = v.memberSizes) ∧
      SSI_Raid0 &&& (v.levelInfo info pRaidInfo).migrSupport ≠ 0 := by
  have hmigr : (v.levelInfo info pRaidInfo).migrSupport = SSI_Raid0 := by
    have hraid : ui2raidlevel v.m_RaidLevel = SSI_Raid1 := by rw [hlevel]; rfl
    rw [levelInfo, hraid]
    rfl
  have hadvertised : SSI_Raid0 &&& (v.levelInfo info pRaidInfo).migrSupport ≠ 0 := by
    rw [hmigr]
    simp [SSI_Raid0]
  refine ⟨?_, hadvertised⟩
  rw [modifyCheck_eq hinfo, if_neg (fun h => h.2 rfl), if_neg hadvertised]
  by_cases hsize : newSize ≠ 0 ∧ newSize ≠ v.memberSizes
  · rw [if_pos hsize]
    exact iff_of_false (by simp) (not_or.mpr hsize)
  · rw [if_neg hsize, if_neg (fun h => h.1 rfl)]
    rw [not_and_or, not_not, not_not] at hsize
    exact iff_of_true rfl hsize

/-- But for a takeover from level 1 a strip size only matters where it is to change. -/
theorem toRaid0_eq_of_unchanged {stripSize stripSize' : SSI_StripSize}
    (h : v.chunkChange stripSize = false) (h' : v.chunkChange stripSize' = false)
    (hlevel : v.m_RaidLevel ≠ 1) : v.toRaid0 stripSize disks = v.toRaid0 stripSize' disks := by
  unfold toRaid0
  simp only [h, h', chunkArgument_of_unchanged h, chunkArgument_of_unchanged h', hlevel, if_false]

/-- Requests that change nothing about the strip size have the same migration to level 10. -/
theorem toRaid10_eq_of_unchanged {stripSize stripSize' : SSI_StripSize}
    (h : v.chunkChange stripSize = false) (h' : v.chunkChange stripSize' = false) :
    v.toRaid10 stripSize disks = v.toRaid10 stripSize' disks := by
  unfold toRaid10
  simp only [h, h']

/-- Requests that change nothing about the strip size have the same migration to level 5. -/
theorem toRaid5_eq_of_unchanged {stripSize stripSize' : SSI_StripSize}
    (h : v.chunkChange stripSize = false) (h' : v.chunkChange stripSize' = false) :
    v.toRaid5 stripSize disks = v.toRaid5 stripSize' disks := by
  unfold toRaid5
  simp only [h, h', chunkArgument_of_unchanged h, chunkArgument_of_unchanged h']

/-- But for that takeover the calls without and with the current strip size are one program. -/
theorem modify_current {pRaidInfo : RaidInfo} (hinfo : v.getRaidInfo = some pRaidInfo)
    (hsupported :
      ui2stripsize v.m_StripSize &&& (v.levelInfo info pRaidInfo).stripSizesSupported ≠ 0)
    (hcompared : ¬ v.StripCompared raidLevel newSize) :
    v.modify info SSI_StripSizeUnknown raidLevel newSize disks =
      v.modify info (ui2stripsize v.m_StripSize) raidLevel newSize disks := by
  unfold modify
  rw [modifyCheck_current hinfo hsupported]
  rcases hcheck : v.modifyCheck info SSI_StripSizeUnknown raidLevel newSize disks with _ | status
  · dsimp only
    rw [toRaid10_eq_of_unchanged chunkChange_unknown chunkChange_current,
      toRaid5_eq_of_unchanged chunkChange_unknown chunkChange_current]
    by_cases hraid : raidLevel = SSI_Raid0
    · rw [if_pos hraid, if_pos hraid]
      by_cases hone : v.m_RaidLevel = 1
      · have hparent : v.m_pParent = none := by
          by_contra hparent
          subst hraid
          have hsize := (modifyCheck_of_level_one hinfo hone info newSize disks).1.mp hcheck
          exact hcompared ⟨hone, rfl, by simp [hinfo], hparent, hsize⟩
        simp only [toRaid0, hparent]
      · exact toRaid0_eq_of_unchanged chunkChange_unknown chunkChange_current hone
    · rw [if_neg hraid, if_neg hraid]
  · rfl

/-- In that takeover no strip size is refused. -/
theorem modify_stripCompared (h : v.StripCompared raidLevel newSize) (info : SSI_RaidLevelInfo)
    (disks : List EndDevice) (env : SysEnv) (i : Nat) :
    ((v.modify info SSI_StripSizeUnknown raidLevel newSize disks).run env i).result =
      .ok .invalidStripSize := by
  obtain ⟨hlevel, rfl, hinfo, hparent, hsize⟩ := h
  obtain ⟨pRaidInfo, hinfo⟩ := Option.ne_none_iff_exists'.mp hinfo
  obtain ⟨a, hparent⟩ := Option.ne_none_iff_exists'.mp hparent
  have hcheck := (modifyCheck_of_level_one hinfo hlevel info newSize disks).1.mpr hsize
  have hprogram : v.modify info SSI_StripSizeUnknown SSI_Raid0 newSize disks =
      v.toRaid0From1 a false SSI_StripSizeUnknown disks := by
    simp [modify, hcheck, toRaid0, hparent, chunkArgument_of_unchanged chunkChange_unknown, hlevel,
      chunkChange_unknown]
  rw [hprogram, toRaid0From1, if_neg (by simp), if_pos (by simp [SSI_StripSizeUnknown, SSI_StripSize64kB])]
  rfl

/-- **The strip size can be left out**, exactly but for the takeover of a level 1 volume to level 0. The
level of the request, its size and its disks are arbitrary, and so is what the session knows of the
controller; the two requests issue the same commands in every environment, and return the same. -/
theorem keepsStrip_iff (v : Volume) (info : SSI_RaidLevelInfo) (raidLevel : SSI_RaidLevel)
    (newSize : UInt64) (disks : List EndDevice) :
    v.KeepsStrip info raidLevel newSize disks ↔ ¬ v.StripCompared raidLevel newSize := by
  constructor
  · intro hkeeps h
    have hrun := modify_stripCompared h info disks (fun _ _ => Classical.choice inferInstance) 0
    obtain ⟨hlevel, rfl, hinfo, -⟩ := h
    obtain ⟨pRaidInfo, hinfo⟩ := Option.ne_none_iff_exists'.mp hinfo
    have hadvertised := (modifyCheck_of_level_one hinfo hlevel info newSize disks).2
    exact (hkeeps pRaidInfo hinfo hadvertised).1 _ 0 hrun
  · intro hcompared pRaidInfo hinfo hadvertised
    constructor
    · intro env i hrun
      have hothers : HoldsOfOthers (· ≠ .invalidStripSize) := fun _ _ hne => hne
      refine v.returns_modify hothers disks (fun status h => ?_) (fun h => ?_) (fun hcheck => ?_) env i _
        hrun rfl
      · rintro rfl
        exact modifyCheck_unknown_ne h
      · rw [chunkChange_unknown] at h
        simp at h
      · rintro rfl hone hparent -
        have hsize := (modifyCheck_of_level_one hinfo hone info newSize disks).1.mp hcheck
        exact absurd ⟨hone, rfl, by simp [hinfo], hparent, hsize⟩ hcompared
    · intro hsupported env i
      rw [modify_current hinfo hsupported hcompared]
      exact ⟨rfl, rfl⟩

/-- A level 1 volume with the strip size of 64 kB is to become one of level 0. -/
theorem not_keepsStrip_mirror :
    ¬ ∀ (v : Volume) (info : SSI_RaidLevelInfo) (raidLevel : SSI_RaidLevel) (newSize : UInt64)
      (disks : List EndDevice), v.KeepsStrip info raidLevel newSize disks := by
  intro hkeeps
  have hcompared : sampleMirror.StripCompared SSI_Raid0 0 :=
    ⟨rfl, rfl, by simp [sampleMirror, sampleArray, sampleDisk, getRaidInfo],
      by simp [sampleMirror], .inl rfl⟩
  have hrun := modify_stripCompared hcompared sampleInfo [] (constantExit 0) 0
  exact (hkeeps sampleMirror sampleInfo SSI_Raid0 0 [] _ rfl (by decide)).1 _ 0 hrun

end Volume

/-! ## The size -/

namespace ListedVolume

/-- The size that `Volume::getInfo` reports is that of the data disks.
Source: `volume.cpp` `Volume::getInfo` -/
structure ReportsSize (v : ListedVolume) : Prop where
  level : v.m_RaidLevel = 0 ∨ v.m_RaidLevel = 1 ∨ v.m_RaidLevel = 5 ∨ v.m_RaidLevel = 10
  total : v.totalSize.toNat =
    v.m_ComponentSize.toNat * 1024 * dataDisks v.m_RaidLevel v.m_BlockDevices.length

/-- The request passes the checks of the strip size and of the target level, there is a size, and the
members that hold no data add to it. -/
structure SizeRefused (v : ListedVolume) (info : SSI_RaidLevelInfo) (stripSize : SSI_StripSize)
    (raidLevel : SSI_RaidLevel) (pRaidInfo : RaidInfo) : Prop where
  raidInfo : v.getRaidInfo = some pRaidInfo
  stripSize : stripSize &&& (v.levelInfo info pRaidInfo).stripSizesSupported ≠ 0 ∨
    stripSize = SSI_StripSizeUnknown
  raidLevel : raidLevel &&& (v.levelInfo info pRaidInfo).migrSupport ≠ 0
  size : v.m_ComponentSize ≠ 0 ∧ dataDisks v.m_RaidLevel v.m_BlockDevices.length ≠ 0
  others : ¬ 2 ^ 64 ∣ v.m_ComponentSize.toNat * 1024 *
    (v.m_BlockDevices.length - dataDisks v.m_RaidLevel v.m_BlockDevices.length)

end ListedVolume

/-- No more disks hold data than there are. -/
theorem dataDisks_le (raidLevel : UInt32) {n : Nat} (hn : 0 < n) : dataDisks raidLevel n ≤ n := by
  unfold dataDisks
  split_ifs <;> omega

namespace Volume

variable {v : Volume}

/-- The size of all members is computed modulo 2^64. -/
theorem toNat_memberSizes (v : Volume) :
    v.memberSizes.toNat = v.m_ComponentSize.toNat * 1024 * v.m_BlockDevices.length % 2 ^ 64 := by
  have hshift : v.m_ComponentSize.toNat <<< ((10 : UInt64).toNat % 64) =
      v.m_ComponentSize.toNat * 1024 := Nat.shiftLeft_eq _ _
  rw [memberSizes, UInt64.toNat_mul, UInt64.toNat_shiftLeft, hshift, UInt64.toNat_ofNat',
    ← Nat.mul_mod]

/-- A volume with a RAID info has members. -/
theorem length_pos_of_getRaidInfo {pRaidInfo : RaidInfo} (h : v.getRaidInfo = some pRaidInfo) :
    0 < v.m_BlockDevices.length := by
  rw [List.length_pos_iff]
  intro hnil
  rw [getRaidInfo, hnil] at h
  simp at h

end Volume

namespace ListedVolume

variable {v : ListedVolume}

/-- The reported size is that of all members together where those that hold no data add nothing. -/
theorem totalSize_eq_iff (h : v.ReportsSize) (hmembers : 0 < v.m_BlockDevices.length) :
    v.totalSize = v.memberSizes ↔
      2 ^ 64 ∣ v.m_ComponentSize.toNat * 1024 *
        (v.m_BlockDevices.length - dataDisks v.m_RaidLevel v.m_BlockDevices.length) := by
  have hle := dataDisks_le v.m_RaidLevel hmembers
  have hword := v.totalSize.toNat_lt
  rw [h.total] at hword
  rw [← UInt64.toNat_inj, v.toNat_memberSizes, h.total, Nat.mul_sub,
    ← Nat.modEq_iff_dvd' (Nat.mul_le_mul_left _ hle), Nat.ModEq, Nat.mod_eq_of_lt hword]

/-- A volume whose size is reported has size 0 only without a component size or without data disks. -/
theorem totalSize_eq_zero_iff (h : v.ReportsSize) :
    v.totalSize = 0 ↔ ¬ (v.m_ComponentSize ≠ 0 ∧
      dataDisks v.m_RaidLevel v.m_BlockDevices.length ≠ 0) := by
  have hzero : ∀ size : UInt64, size.toNat = 0 ↔ size = 0 := fun size => by
    rw [← UInt64.toNat_inj]
    rfl
  rw [← hzero, h.total, ← not_or, not_not]
  simp [hzero]

variable {info : SSI_RaidLevelInfo} {stripSize : SSI_StripSize} {raidLevel : SSI_RaidLevel}
  {disks : List EndDevice}

/-- A size that is refused is the one thing that the two requests are told apart by. -/
theorem modifyCheck_totalSize (h : v.ReportsSize) :
    v.modifyCheck info stripSize raidLevel v.totalSize disks =
        v.modifyCheck info stripSize raidLevel 0 disks ∨
      ∃ pRaidInfo, v.SizeRefused info stripSize raidLevel pRaidInfo := by
  rcases hinfo : v.getRaidInfo with _ | pRaidInfo
  · exact .inl (by simp [Volume.modifyCheck, hinfo])
  rw [Volume.modifyCheck_eq hinfo, Volume.modifyCheck_eq hinfo]
  by_cases hstrip : stripSize &&& (v.levelInfo info pRaidInfo).stripSizesSupported = 0 ∧
      stripSize ≠ SSI_StripSizeUnknown
  · exact .inl (by rw [if_pos hstrip, if_pos hstrip])
  by_cases hlevel : raidLevel &&& (v.levelInfo info pRaidInfo).migrSupport = 0
  · exact .inl (by rw [if_neg hstrip, if_neg hstrip, if_pos hlevel, if_pos hlevel])
  by_cases hsize : v.totalSize ≠ 0 ∧ v.totalSize ≠ v.memberSizes
  · rw [ne_eq, ne_eq, totalSize_eq_zero_iff h, not_not,
      totalSize_eq_iff h (Volume.length_pos_of_getRaidInfo hinfo)] at hsize
    rw [not_and_or, ne_eq, not_not] at hstrip
    exact .inr ⟨pRaidInfo, hinfo, hstrip, hlevel, hsize.1, hsize.2⟩
  · have hzero : ¬ ((0 : UInt64) ≠ 0 ∧ (0 : UInt64) ≠ v.memberSizes) := fun h => h.1 rfl
    refine .inl ?_
    rw [if_neg hstrip, if_neg hstrip, if_neg hlevel, if_neg hlevel, if_neg hsize, if_neg hzero]

/-- Where it is refused the status tells so. -/
theorem modifyCheck_of_sizeRefused (h : v.ReportsSize) {pRaidInfo : RaidInfo}
    (hrefused : v.SizeRefused info stripSize raidLevel pRaidInfo) :
    v.modifyCheck info stripSize raidLevel v.totalSize disks = some .invalidSize := by
  have hmembers := Volume.length_pos_of_getRaidInfo hrefused.raidInfo
  have hstrip : ¬ (stripSize &&& (v.levelInfo info pRaidInfo).stripSizesSupported = 0 ∧
      stripSize ≠ SSI_StripSizeUnknown) := by
    rw [not_and_or, ne_eq, not_not]
    exact hrefused.stripSize
  have hsize : v.totalSize ≠ 0 ∧ v.totalSize ≠ v.memberSizes := by
    rw [ne_eq, ne_eq, totalSize_eq_zero_iff h, not_not, totalSize_eq_iff h hmembers]
    exact ⟨hrefused.size, hrefused.others⟩
  rw [Volume.modifyCheck_eq hrefused.raidInfo, if_neg hstrip, if_neg hrefused.raidLevel, if_pos hsize]

/-- No size is never an invalid one. -/
theorem modify_zero_ne (v : Volume) (info : SSI_RaidLevelInfo) (stripSize : SSI_StripSize)
    (raidLevel : SSI_RaidLevel) (disks : List EndDevice) :
    Returns (v.modify info stripSize raidLevel 0 disks) (· ≠ .invalidSize) := by
  have hothers : HoldsOfOthers (· ≠ .invalidSize) := fun _ hne _ => hne
  refine v.returns_modify hothers disks ?_ (by simp) (by simp)
  rintro status hcheck rfl
  rcases hinfo : v.getRaidInfo with _ | pRaidInfo
  · simp [Volume.modifyCheck, hinfo] at hcheck
  · rw [Volume.modifyCheck_eq hinfo] at hcheck
    split_ifs at hcheck with hstrip hlevel hsize
    · simp at hcheck
    · simp at hcheck
    · exact hsize.1 rfl
    · simp at hcheck

end ListedVolume

namespace CallSession

variable (s : CallSession) (info : SSI_RaidLevelInfo) (volumeHandle : Nat)
  (params : SSI_RaidLevelModifyParams)

/-- `SsiRaidLevelModify` with the size that is reported for the volume does what it does with no
size. -/
def PassesBackSize : Prop :=
  ∀ v, s.getVolume volumeHandle = some v → v.ReportsSize →
    SameOutcome
      (SsiRaidLevelModify s info volumeHandle { params with newSizeInBytes := v.totalSize })
      (SsiRaidLevelModify s info volumeHandle { params with newSizeInBytes := 0 })

/-- **Passing back the reported size is no change** exactly where no volume is reached whose size is
refused. `SizeRefused` says when a request is refused for its size alone: the other checks pass, and the
reported size, which counts the disks with data only, is not that of all members together. -/
theorem passesBackSize_iff :
    s.PassesBackSize info volumeHandle params ↔
      ¬ ∃ v container pRaidInfo, s.checkModify volumeHandle params = .ok (v, container) ∧
        v.ReportsSize ∧ v.SizeRefused info params.newStripSize params.newRaidLevel pRaidInfo := by
  have hcheck : ∀ size, s.checkModify volumeHandle { params with newSizeInBytes := size } =
      s.checkModify volumeHandle params := fun _ => rfl
  have hrefused : ∀ {status}, s.checkModify volumeHandle params = .error status → ∀ size,
      SsiRaidLevelModify s info volumeHandle { params with newSizeInBytes := size } = pure status := by
    intro status h size
    rw [SsiRaidLevelModify, hcheck, h]
  have hpassed : ∀ {v container}, s.checkModify volumeHandle params = .ok (v, container) → ∀ size,
      SsiRaidLevelModify s info volumeHandle { params with newSizeInBytes := size } =
        v.modify info params.newStripSize params.newRaidLevel size (container.map (·.toEndDevice)) := by
    intro v container h size
    rw [SsiRaidLevelModify, hcheck, h]
  constructor
  · rintro hsame ⟨v, container, pRaidInfo, hok, hreports, hsize⟩
    have hoth := hsame v (modifiesVolume_of_check hok).volume hreports
      (fun _ _ => Classical.choice inferInstance) 0
    rw [hpassed hok, hpassed hok, Volume.modify,
      ListedVolume.modifyCheck_of_sizeRefused hreports hsize] at hoth
    exact ListedVolume.modify_zero_ne _ _ _ _ _ _ 0 _ hoth.2.symm rfl
  · intro hnone v hv hreports env i
    rcases hresult : s.checkModify volumeHandle params with status | ⟨v', container⟩
    · rw [hrefused hresult, hrefused hresult]
      exact ⟨rfl, rfl⟩
    · obtain rfl := Option.some.inj ((modifiesVolume_of_check hresult).volume.symm.trans hv)
      rw [hpassed hresult, hpassed hresult]
      rcases ListedVolume.modifyCheck_totalSize hreports with heq | ⟨pRaidInfo, hsize⟩
      · rw [Volume.modify, Volume.modify, heq]
        exact ⟨rfl, rfl⟩
      · exact absurd ⟨v', container, pRaidInfo, hresult, hreports, hsize⟩ hnone

/-- A level 1 volume of two members is to become one of level 0 with the size that is reported. -/
theorem not_passesBackSize_mirror :
    ¬ ∀ (s : CallSession) (info : SSI_RaidLevelInfo) (volumeHandle : Nat)
      (params : SSI_RaidLevelModifyParams), s.PassesBackSize info volumeHandle params := by
  intro hsame
  let v : ListedVolume := ⟨Volume.sampleMirror, 1024 * 1024, 512⟩
  let s : CallSession := ⟨[], [], [(4, v)], 5⟩
  let params : SSI_RaidLevelModifyParams := ⟨SSI_StripSize64kB, SSI_Raid0, 0, some []⟩
  have hreports : v.ReportsSize := ⟨.inr (.inl rfl), by decide⟩
  have hrun := hsame s sampleInfo 4 params v rfl hreports (Volume.constantExit 0) 0
  exact absurd hrun.2 (by decide +kernel)

end CallSession

end Irstessi
