import Irstessi.Migration
import Irstessi.Numerals
import Irstessi.VolumeSettings

/-!
# The size of a new volume

`setComponentSize` divides the requested bytes by the number of data disks, and `create` converts the
quotient to the kilobytes of mdadm's `--size`, with 0 for the maximum.

* `reachedDivider`: the divider of a call that does not throw, with `reachedDivider_eq_zero_iff` and
  `levelCheck_one_raid5` for the one that is 0.
* `RequestedSize`, `AsksRequestedSize`: what the request stands for.
* `sizeOptions_create`: the sizes of the commands that create a volume.
* **`asksRequestedSize_iff`**: the request is kept iff there is a disk for data and a kilobyte for each.

The size that is asked for can fail to be a positive number in one way only: the divider of level 5 is
the number of disks less one, and the check of the level lets a single disk through where the firmware
says so; and a quotient below 1024 gives no kilobyte. Both are conditions on the request, which
`asksRequestedSize_iff` states with the sizes of the commands themselves: the theorem is about the
`--size` of every command that `Volume::create` issues in any environment, in both of its forms, and not
about the field that the setter has stored.
-/

namespace Irstessi

open Interact

/-- The value of `--size`. -/
def Command.sizeOption? : Command → Option Str
  | .createVolume _ _ componentSize _ _ _ _ => some componentSize
  | _ => none

namespace Volume

/-! ## The divider -/

/-- What `setComponentSize` divides by, none where it throws.
Source: `volume.cpp` `Volume::setComponentSize` -/
def reachedDivider (v : Volume) (diskCount : UInt64) (level : SSI_RaidLevel) : Option UInt64 :=
  match levelCheck v.getRaidInfo diskCount level with
  | some _ => none
  | none => sizeDivider level diskCount

/-- The number of disks that carry data. -/
def newDataDisks (level : SSI_RaidLevel) (diskCount : UInt64) : Nat :=
  if level = SSI_Raid0 then diskCount.toNat
  else if level = SSI_Raid1 then 1
  else if level = SSI_Raid10 then 2
  else diskCount.toNat - 1

section divider

variable {v : Volume} {diskCount divider : UInt64} {level : SSI_RaidLevel}

/-- A level that `levelCheck` accepts is never asked for without disks. -/
theorem diskCount_ne_zero (h : levelCheck v.getRaidInfo diskCount level = none) : diskCount ≠ 0 := by
  unfold levelCheck at h
  split at h
  next => simp at h
  next =>
    dsimp only at h
    split_ifs at h with _ hcount
    exact fun hzero => hcount (.inl hzero)

/-- A divider is the number of data disks. -/
theorem toNat_reachedDivider (h : v.reachedDivider diskCount level = some divider) :
    divider.toNat = newDataDisks level diskCount := by
  unfold reachedDivider at h
  split at h
  next => simp at h
  next hcheck =>
    have hpos : diskCount.toNat ≠ 0 := fun heq =>
      diskCount_ne_zero hcheck (UInt64.toNat_inj.mp heq)
    unfold sizeDivider at h
    unfold newDataDisks
    split_ifs at h ⊢
    · rw [Option.some.inj h]
    · rw [← Option.some.inj h]
      rfl
    · rw [← Option.some.inj h]
      rfl
    · rw [← Option.some.inj h]
      exact UInt64.toNat_sub_of_le _ _ (UInt64.le_iff_toNat_le.mpr (Nat.pos_of_ne_zero hpos))

/-- Where the division is reached and its divider is not 0 there is a data disk to divide by. -/
theorem newDataDisks_pos (h : v.reachedDivider diskCount level = some divider)
    (hne : v.reachedDivider diskCount level ≠ some 0) : 0 < newDataDisks level diskCount := by
  rw [← toNat_reachedDivider h]
  refine Nat.pos_of_ne_zero fun hzero => hne ?_
  have hdivider : divider = 0 := UInt64.toNat_inj.mp hzero
  rw [h, hdivider]

/-- The divider is 0 for one disk in level 5. -/
theorem reachedDivider_eq_zero_iff : v.reachedDivider diskCount level = some 0 ↔
    levelCheck v.getRaidInfo diskCount level = none ∧ level = SSI_Raid5 ∧ diskCount = 1 := by
  unfold reachedDivider
  rcases hcheck : levelCheck v.getRaidInfo diskCount level with _ | e
  swap
  · simp
  have hpos := diskCount_ne_zero hcheck
  simp only [true_and]
  constructor
  · intro h
    unfold sizeDivider at h
    split_ifs at h with h0 h1 h10 h5
    · exact absurd (Option.some.inj h) hpos
    · exact absurd (Option.some.inj h) (by simp)
    · exact absurd (Option.some.inj h) (by simp)
    · refine ⟨h5, ?_⟩
      have hzero := Option.some.inj h
      calc diskCount = diskCount - 1 + 1 := (UInt64.sub_add_cancel _ _).symm
        _ = 1 := by rw [hzero]; rfl
  · rintro ⟨rfl, rfl⟩
    rfl

/-- One disk passes for level 5 iff the table supports one disk. -/
theorem levelCheck_one_raid5 (r : RaidInfo) :
    levelCheck (some r) 1 SSI_Raid5 = none ↔ r.m_pInfo.tds = 1 := by
  have hmin : (r.getRaidLevelInfo SSI_Raid5 blankInfo).2.minDisks = min 3 r.m_pInfo.tds.toNat := rfl
  have hmax : (r.getRaidLevelInfo SSI_Raid5 blankInfo).2.maxDisks = r.m_pInfo.tds.toNat := rfl
  have hone : r.m_pInfo.tds = 1 ↔ r.m_pInfo.tds.toNat = 1 := UInt16.toNat_inj.symm
  have hcount : (1 : UInt64).toNat = 1 := rfl
  have hstatus : (r.getRaidLevelInfo SSI_Raid5 blankInfo).1 = .ok := rfl
  have hlevel : ¬ SSI_Raid5 = SSI_Raid0 := by decide
  have hdivider : (sizeDivider SSI_Raid5 1).isNone = false := rfl
  have hzero : ¬ (1 : UInt64) = 0 := by decide
  unfold levelCheck
  simp only [hstatus, hmin, hmax, hone, hcount, hlevel, hdivider, hzero, ne_eq, not_true_eq_false,
    false_or, false_and, Bool.false_eq_true, if_false]
  split_ifs with hfew hmany
  · apply iff_of_false (by simp)
    omega
  · apply iff_of_false (by simp)
    omega
  · apply iff_of_true rfl
    omega

end divider

/-! ## The size of the commands -/

/-- The value of `--size` for a component size.
Source: `volume.cpp` `Volume::create`, `componentSize` -/
def componentSizeText (size : UInt64) : Str :=
  if size = 0 then .ofLit "max" else Str.ofNat (size / 1024).toNat

/-- The size that the create command carries is the component size, in both forms of the command. -/
theorem sizeOption_createCommand (v : Volume) (rwhPolicy : Str) :
    (v.createCommand rwhPolicy).sizeOption? = some (componentSizeText v.m_ComponentSize) := rfl

/-- Every command of a creation has the size of the volume. -/
theorem sizeOptions_create (v : Volume) (rounds : Nat) (env : SysEnv) (i : Nat) :
    ∀ x ∈ exits ((v.create rounds).run env i).trace,
      x.1.sizeOption? = some (componentSizeText v.m_ComponentSize) := by
  have hcalls : (v.create rounds).Calls
      (OnShell fun cmd => cmd.sizeOption? = some (componentSizeText v.m_ComponentSize)) := by
    apply v.calls_create_of rounds
    intro v' hnamed _ rwhPolicy _
    have hsize : v'.m_ComponentSize = v.m_ComponentSize := by
      unfold Named at hnamed
      split at hnamed
      next =>
        obtain ⟨n, rfl⟩ := hnamed
        rfl
      next => rw [hnamed]
    rw [sizeOption_createCommand, hsize]
  exact fun x hx => of_mem_exits hcalls hx

/-- A volume of level 0 that has a name is created with one command at least. -/
theorem exits_create_ne_nil {v : Volume} (hname : v.m_Name.equal .empty = false)
    (hlevel : v.m_RaidLevel = 0) (hsource : v.m_pSourceDisk = none) (rounds : Nat) (env : SysEnv)
    (i : Nat) : exits ((v.create rounds).run env i).trace ≠ [] := by
  obtain ⟨k, hfirst⟩ := createNamed_of_passed (v := v) (fun hrefused => hrefused.1 hlevel) hsource
  have hchosen : chooseName v.m_Name rounds = pure v.m_Name := by
    unfold chooseName
    rw [hname]
    rfl
  rw [create_eq, hchosen, Prog.pure_bind, hfirst, Prog.run_call, exits_cons_shell]
  exact List.cons_ne_nil _ _

/-! ## The request -/

/-- `size` is what a request for `sizeInBytes` over `dataDisks` disks asks for. -/
structure RequestedSize (sizeInBytes : UInt64) (dataDisks : Nat) (size : Str) : Prop where
  max : sizeInBytes = 0 → size = .ofLit "max"
  kilobytes : sizeInBytes ≠ 0 →
    ∃ k ≥ 1, size = .ofNat k ∧ k * 1024 * dataDisks ≤ sizeInBytes.toNat

/-- `setComponentSize` throws or divides by a number other than 0, and any volume with the component
size that it has set is created with the requested size. -/
structure AsksRequestedSize (v : Volume) (info : SSI_RaidLevelInfo) (sizeInBytes diskCount : UInt64)
    (level : SSI_RaidLevel) : Prop where
  divides : v.reachedDivider diskCount level ≠ some 0
  sizes : ∀ v', v.setComponentSize info sizeInBytes diskCount level = .ok v' →
    ∀ w : Volume, w.m_ComponentSize = v'.m_ComponentSize → ∀ (rounds : Nat) (env : SysEnv) (i : Nat),
      ∀ x ∈ exits ((w.create rounds).run env i).trace, ∀ size, x.1.sizeOption? = some size →
        RequestedSize sizeInBytes (newDataDisks level diskCount) size

/-- Where the level and the number of disks are taken, one disk is not taken for level 5 and there is
a kilobyte for every data disk. -/
def RequestFits (v : Volume) (sizeInBytes diskCount : UInt64) (level : SSI_RaidLevel) : Prop :=
  levelCheck v.getRaidInfo diskCount level = none →
    ¬ (level = SSI_Raid5 ∧ diskCount = 1) ∧
      (sizeInBytes = 0 ∨ 1024 * newDataDisks level diskCount ≤ sizeInBytes.toNat)

section request

variable {v : Volume} {info : SSI_RaidLevelInfo} {sizeInBytes diskCount divider : UInt64}
  {level : SSI_RaidLevel}

/-- Every level that passes the check reaches the division. -/
theorem reachedDivider_isSome (h : levelCheck v.getRaidInfo diskCount level = none) :
    ∃ divider, v.reachedDivider diskCount level = some divider := by
  unfold reachedDivider
  rw [h]
  apply Option.ne_none_iff_exists'.mp
  intro hnone
  unfold levelCheck at h
  split at h
  next => simp at h
  next =>
    dsimp only at h
    split_ifs at h with _ _ _ _ hdivider
    exact hdivider (Option.isNone_iff_eq_none.mpr hnone)

/-- The component size is the size of the request divided by the divider that is reached, rounded
down. -/
theorem setComponentSize_of_reached (h : v.reachedDivider diskCount level = some divider) :
    v.setComponentSize info sizeInBytes diskCount level =
      .ok { v with m_ComponentSize := sizeInBytes / divider } := by
  unfold reachedDivider at h
  split at h
  next => simp at h
  next hcheck =>
    rw [setComponentSize_eq, hcheck, h, Option.getD_some]

/-- The size of the command is the requested one iff there is a kilobyte for every data disk. -/
theorem requestedSize_iff {dataDisks : Nat} (hdisks : divider.toNat = dataDisks) (hpos : 0 < dataDisks) :
    RequestedSize sizeInBytes dataDisks (componentSizeText (sizeInBytes / divider)) ↔
      sizeInBytes = 0 ∨ 1024 * dataDisks ≤ sizeInBytes.toNat := by
  have hquotient : (sizeInBytes / divider).toNat = sizeInBytes.toNat / dataDisks := by
    rw [UInt64.toNat_div, hdisks]
  by_cases h0 : sizeInBytes = 0
  · subst h0
    have hzero : (0 / divider : UInt64) = 0 := by simp
    rw [hzero]
    exact iff_of_true ⟨fun _ => rfl, fun h => absurd rfl h⟩ (.inl rfl)
  rw [or_iff_right h0]
  have htext : componentSizeText (sizeInBytes / divider) =
      if sizeInBytes.toNat / dataDisks = 0 then .ofLit "max"
      else .ofNat (sizeInBytes.toNat / dataDisks / 1024) := by
    unfold componentSizeText
    have hnumber : (1024 : UInt64).toNat = 1024 := rfl
    rw [UInt64.toNat_div, hquotient, hnumber]
    refine if_congr ?_ rfl rfl
    rw [← UInt64.toNat_inj, hquotient]
    rfl
  have hkilobyte : 1024 * dataDisks ≤ sizeInBytes.toNat ↔ 1024 ≤ sizeInBytes.toNat / dataDisks :=
    (Nat.le_div_iff_mul_le hpos).symm
  rw [htext, hkilobyte]
  constructor
  · intro h
    obtain ⟨k, hk, hsize, -⟩ := h.kilobytes h0
    split_ifs at hsize
    · exact absurd hsize.symm (Str.ofNat_ne_max k)
    · have heq := Str.ofNat_inj hsize
      omega
  · intro h
    rw [if_neg (by omega)]
    refine ⟨fun hzero => absurd hzero h0, fun _ => ⟨_, by omega, rfl, ?_⟩⟩
    calc sizeInBytes.toNat / dataDisks / 1024 * 1024 * dataDisks
      _ ≤ sizeInBytes.toNat / dataDisks * dataDisks :=
          Nat.mul_le_mul_right _ (Nat.div_mul_le_self _ _)
      _ ≤ sizeInBytes.toNat := Nat.div_mul_le_self _ _

/-- **The requested size is asked for iff the request fits.** A table that supports one disk lets level
5 divide by 0; a quotient below a kilobyte becomes 0, and one of 0 the maximum. -/
theorem asksRequestedSize_iff : AsksRequestedSize v info sizeInBytes diskCount level ↔
    v.RequestFits sizeInBytes diskCount level := by
  constructor
  · intro h hcheck
    have hone : ¬ (level = SSI_Raid5 ∧ diskCount = 1) := fun hone =>
      h.divides (reachedDivider_eq_zero_iff.mpr ⟨hcheck, hone⟩)
    obtain ⟨divider, hdivider⟩ := reachedDivider_isSome hcheck
    have hdisks := toNat_reachedDivider hdivider
    have hpos := newDataDisks_pos hdivider h.divides
    refine ⟨hone, (requestedSize_iff hdisks hpos).mp ?_⟩
    let w : Volume := { v with
      m_ComponentSize := sizeInBytes / divider
      m_Name := .ofLit "data"
      m_RaidLevel := 0
      m_pSourceDisk := none }
    have hname : (Str.ofLit "data").equal .empty = false := by decide
    obtain ⟨x, hx⟩ := List.exists_mem_of_ne_nil _
      (exits_create_ne_nil (v := w) hname rfl rfl 0 (constantExit 0) 0)
    exact h.sizes _ (setComponentSize_of_reached hdivider) w rfl 0 (constantExit 0) 0 x hx _
      (sizeOptions_create w 0 (constantExit 0) 0 x hx)
  · intro h
    refine ⟨fun hzero => ?_, fun v' hset w hw rounds env i x hx size hsize => ?_⟩
    · obtain ⟨hcheck, hone⟩ := reachedDivider_eq_zero_iff.mp hzero
      exact (h hcheck).1 hone
    · have hcheck : levelCheck v.getRaidInfo diskCount level = none := by
        rw [setComponentSize_eq] at hset
        split at hset
        next => simp at hset
        next hnone => exact hnone
      obtain ⟨hone, hfits⟩ := h hcheck
      obtain ⟨divider, hdivider⟩ := reachedDivider_isSome hcheck
      have hdisks := toNat_reachedDivider hdivider
      have hpos := newDataDisks_pos hdivider fun hzero =>
        hone (reachedDivider_eq_zero_iff.mp hzero).2
      rw [setComponentSize_of_reached hdivider] at hset
      obtain rfl := Except.ok.inj hset
      have hsizes := sizeOptions_create w rounds env i x hx
      rw [hsize, hw] at hsizes
      rw [Option.some.inj hsizes]
      exact (requestedSize_iff hdisks hpos).mpr hfits

end request

/-- A volume of two disks and 2000 bytes is created with `--size=0`. -/
theorem not_asksRequestedSize_small : ¬ ∀ (v : Volume) (info : SSI_RaidLevelInfo)
    (sizeInBytes diskCount : UInt64) (level : SSI_RaidLevel),
    AsksRequestedSize v info sizeInBytes diskCount level := by
  intro h
  have hset : sampleMirror.setComponentSize blankInfo 2000 2 SSI_Raid0 =
      .ok { sampleMirror with m_ComponentSize := 1000 } := by
    decide +kernel
  let w : Volume := { sampleMirror with m_ComponentSize := 1000, m_RaidLevel := 0 }
  have hcreated : exits ((w.create 0).run (constantExit 0) 0).trace =
      [(w.createCommand (.ofLit ""), 0)] := by
    decide +kernel
  have hsizes := (h sampleMirror blankInfo 2000 2 SSI_Raid0).sizes _ hset w rfl 0 (constantExit 0) 0
  rw [hcreated] at hsizes
  obtain ⟨k, hk, hsize, -⟩ := (hsizes _ (List.mem_singleton_self _) _ rfl).kilobytes (by decide)
  have hzero : componentSizeText w.m_ComponentSize = .ofNat 0 := by decide +kernel
  have heq := Str.ofNat_inj (hzero.symm.trans hsize)
  omega

end Volume

end Irstessi
