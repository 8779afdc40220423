import Irstessi.IssuedCommands
import Irstessi.Migration

/-!
# FDx8 disks

A container with an FDx8 disk is meant to have volumes of level 0 only. Each call has a check of its
own for that.

* `OnlyRaid0`: a container with an FDx8 disk has no volume of another level.
* `KeepsOnlyRaid0`: the condition on a call.
* `Guarded`, `guarded_step`: what every command keeps, but for those that migrate to another level
  than 0; `Migrated`, `migrated_step`: what these keep.
* **`onlyRaid0_of_reaches`**: a run of calls that meet the condition keeps the rule.

The rule is an invariant of the storage: which disks are in which container, and the level of each
volume. A call is a row of commands, each of which may fail, and a run a row of calls, each in a session
that shows the storage of its time. (1) Commands that only take away keep the rule. (2) A command that
creates a volume or puts disks into a container keeps it where the call's condition holds: this is
`Guarded`, which the commands in front of it keep. (3) A migration to another level than 0 sets the
level of one volume, of whose container `Migrated` says that it has no such disk. The two step lemmas
are put together by `Lib.Turns`.
-/

namespace Irstessi

open Interact Turns

/-- Volumes of a container with an FDx8 disk have level 0. -/
def OnlyRaid0 (D : Inventory) (S : Storage) : Prop :=
  ∀ c x v l, S.container x = some c → D.fultondalex8 x = true → S.volume v = some (c, l) → l = 0

/-- There is an FDx8 disk among the disks. -/
def HasFdx8 (disks : List EndDevice) : Prop := ∃ d ∈ disks, d.fultondalex8 = true

/-- Where disks with an FDx8 disk are added, the volumes of the container have level 0, or, in a
migration to level 0, those besides the one that migrates; where a volume is to get another level,
the FDx8 disks of its container, if there are any, are among its own disks, which are checked. -/
def KeepsOnlyRaid0 (D : Inventory) (S : Storage) (s : CallSession) (info : SSI_RaidLevelInfo)
    (call : ApiCall) : Prop :=
  match call with
  | .SsiAddDisksToArray _ _ => ∀ a disks, s.Adds info call a disks →
      HasFdx8 (disks.map (·.toEndDevice)) → ∀ w l, S.volume w = some (a.m_DevName, l) → l = 0
  | .SsiRaidLevelModify volumeHandle params => ∀ v disks a,
      s.checkModify volumeHandle params = .ok (v, disks) → v.m_pParent = some a →
      if params.newRaidLevel = SSI_Raid0 then
        s.Adds info call a disks → HasFdx8 (disks.map (·.toEndDevice)) →
          ∀ w l, w ≠ v.m_DevName → S.volume w = some (a.m_DevName, l) → l = 0
      else
        v.modifyPlan info params.newStripSize params.newRaidLevel params.newSizeInBytes
            (disks.map (·.toEndDevice)) ≠ [] →
          ∀ x, S.container x = some a.m_DevName → (∀ d ∈ v.m_BlockDevices, d.m_DevName ≠ x) →
            D.fultondalex8 x = false
  | .SsiVolumeCreate params => ∀ a container, s.getArray params.arrayHandle = some a →
      s.Builds info call container params.toVolumeParams → params.raidLevel ≠ SSI_Raid0 →
      ¬ HasFdx8 container → ¬ HasFdx8 a.m_BlockDevices
  | _ => True

section

variable {s : CallSession} {info : SSI_RaidLevelInfo} {call : ApiCall} {a : RaidArray}
  {disks : List ListedDevice} {D : Inventory} {S T T' : Storage}

/-! ## Disks and volumes -/

/-- No disk of a list is on the board iff the flag of none is set. -/
theorem not_hasFdx8_iff {disks : List EndDevice} :
    ¬ HasFdx8 disks ↔ ∀ d ∈ disks, d.fultondalex8 = false := by
  simp [HasFdx8]

/-- Calls that refuse an FDx8 disk. -/
theorem hasFdx8_of_adds (h : s.Adds info call a disks) (hfdx8 : HasFdx8 (disks.map (·.toEndDevice))) :
    (∃ handle handles, call = .SsiAddDisksToArray handle handles) ∨
      ∃ handle params, call = .SsiRaidLevelModify handle params := by
  have hone : ∀ {d : ListedDevice}, d.fultondalex8 = false →
      ¬ HasFdx8 (List.map (·.toEndDevice) [d]) := by
    intro d hd
    simpa [HasFdx8] using hd
  cases h with
  | SsiDiskMarkAsSpare hdisk => exact absurd hfdx8 (hone hdisk.2.1)
  | anyArray hdisk => exact absurd hfdx8 (hone hdisk.2.1)
  | SsiAddDisksToArray => exact .inl ⟨_, _, rfl⟩
  | SsiVolumeRebuild _ _ hnone => exact absurd hfdx8 (hone hnone)
  | SsiRaidLevelModify => exact .inr ⟨_, _, rfl⟩

/-- A call that makes a volume adds disks to no container. -/
theorem not_adds_of_builds {container : List EndDevice} {params : VolumeParams}
    (h : s.Builds info call container params) : ¬ s.Adds info call a disks := by
  intro hadds
  cases h with
  | SsiVolumeCreateFromDisks => cases hadds
  | SsiVolumeCreate => cases hadds

/-- A call that makes a container and a volume makes them of the same disks. -/
theorem builds_of_collects {container : List EndDevice} {params : VolumeParams}
    (h : s.Builds info call container params) (hcollects : s.Collects call disks) :
    container = disks.map (·.toEndDevice) := by
  cases h with
  | SsiVolumeCreateFromDisks hdisks =>
      cases hdisks with
      | SsiVolumeCreateFromDisks hdisks =>
          cases hcollects with
          | SsiVolumeCreateFromDisks hdisks' =>
              rw [Option.some.inj (hdisks.symm.trans hdisks')]
  | SsiVolumeCreate => cases hcollects

/-- Losing disks and levels makes no volume of another level. -/
theorem onlyRaid0_of_shrinks (h : T.Shrinks T') (hT : OnlyRaid0 D T) : OnlyRaid0 D T' := by
  intro c x v l hx hfdx8 hv
  obtain ⟨l', hv', hl⟩ := h.volume v c l hv
  rcases hl with rfl | hl
  · exact hT c x v l (h.container x c hx) hfdx8 hv'
  · exact hl

/-! ## Additions and creations -/

/-- While the call goes on: the rule holds, the container that gets an FDx8 disk has volumes of level
0, and a container without FDx8 disks is what a volume of another level is made in. -/
structure Guarded (D : Inventory) (s : CallSession) (info : SSI_RaidLevelInfo) (call : ApiCall)
    (T : Storage) : Prop where
  rule : OnlyRaid0 D T
  additions : ∀ a disks, s.Adds info call a disks → HasFdx8 (disks.map (·.toEndDevice)) →
    ∀ w l, T.volume w = some (a.m_DevName, l) → l = 0
  creations : ∀ container params, s.Builds info call container params →
    params.raidLevel ≠ SSI_Raid0 → ¬ HasFdx8 container → container ≠ [] →
    ∀ c, (∀ d ∈ container, T.container d.m_DevName = some c) →
      ∀ x, T.container x = some c → D.fultondalex8 x = false

/-- What the request is guarded by stays where only something is lost. -/
theorem guarded_of_shrinks (h : T.Shrinks T') (hT : Guarded D s info call T) :
    Guarded D s info call T' := by
  refine ⟨onlyRaid0_of_shrinks h hT.rule, fun a disks hadds hfdx8 w l hw => ?_,
    fun container params hbuilds hlevel hnone hne c hc x hx => ?_⟩
  · obtain ⟨l', hw', hl⟩ := h.volume w _ l hw
    rcases hl with rfl | hl
    · exact hT.additions a disks hadds hfdx8 w l hw'
    · exact hl
  · exact hT.creations container params hbuilds hlevel hnone hne c
      (fun d hd => h.container _ c (hc d hd)) x (h.container x c hx)

/-- What a command of the call keeps, if it is none that sets another level than 0. -/
theorem guarded_step (hshows : Shows D S s) {cmd : Command} (hcmd : Issued s info call cmd)
    (hstructural : cmd.IsStructural → cmd.OnlyShrinks) (hT : Guarded D s info call T)
    (heffect : cmd.Effect T T') : Guarded D s info call T' := by
  cases hcmd with
  | shrinks hcmd => exact guarded_of_shrinks (heffect.shrinks hcmd) hT
  | migration _ _ hcmd => exact guarded_of_shrinks (heffect.shrinks (hstructural hcmd)) hT
  | @add _ a disks names hadds hnames =>
      obtain rfl : T' = _ := heffect
      refine ⟨fun c x v l hx hfdx8 hv => ?_, hT.additions,
        fun container params hbuilds => absurd hadds (not_adds_of_builds hbuilds)⟩
      rcases Storage.container_put_eq_some hx with ⟨hxnew, hc⟩ | ⟨-, hxold⟩
      · obtain rfl := Option.some.inj hc
        obtain ⟨d, hd, -, rfl⟩ := a.sparesToAdd_free hnames x hxnew
        refine hT.additions a disks hadds ⟨d, hd, ?_⟩ v l hv
        obtain ⟨d', hd', rfl⟩ := List.mem_map.mp hd
        exact (hshows.disks d' (lists_of_adds hadds d' hd')).fultondalex8.trans hfdx8
      · exact hT.rule c x v l hxold hfdx8 hv
  | @container _ disks _ _ hcollects =>
      obtain ⟨c, hunused, rfl⟩ := heffect
      refine ⟨fun c' x v l hx hfdx8 hv => ?_,
        fun a disks hadds => absurd hadds (not_adds_of_collects hcollects),
        fun container params hbuilds hlevel hnone hne c' hc' x hx => ?_⟩
      · rcases Storage.container_put_eq_some hx with ⟨-, hc⟩ | ⟨-, hxold⟩
        · obtain rfl := Option.some.inj hc
          exact absurd hv (hunused.2 v l)
        · exact hT.rule c' x v l hxold hfdx8 hv
      · -- the volume is made in the new container, which has no other disks
        obtain rfl := builds_of_collects hbuilds hcollects
        obtain ⟨d, hd⟩ := List.exists_mem_of_ne_nil _ hne
        have hnew : c = c' := by
          obtain ⟨d', hd', rfl⟩ := List.mem_map.mp hd
          rcases Storage.container_put_eq_some (hc' _ hd) with ⟨-, hc⟩ | ⟨hold, -⟩
          · exact Option.some.inj hc
          · exact absurd (List.mem_map_of_mem hd') hold
        subst hnew
        rcases Storage.container_put_eq_some hx with ⟨hxnew, -⟩ | ⟨-, hxold⟩
        · obtain ⟨d', hd', rfl⟩ := List.mem_map.mp hxnew
          rw [← (hshows.disks d' (lists_of_collects hcollects d' hd')).fultondalex8]
          exact not_hasFdx8_iff.mp hnone _ (List.mem_map_of_mem hd')
        · exact absurd hxold (hunused.1 x)
  | @volume _ container params level _ hbuilds hlevel hcmd =>
      obtain ⟨hfdx8, name, size, chunk, rwhPolicy, n, rfl⟩ := hcmd
      obtain ⟨c, v, hne, hc, -, rfl⟩ := heffect
      refine ⟨fun c' x w l hx hx8 hw => ?_,
        fun a disks hadds => absurd hadds (not_adds_of_builds hbuilds), hT.creations⟩
      dsimp only at hx hw
      split at hw
      next =>
        obtain ⟨rfl, rfl⟩ := Prod.mk.inj (Option.some.inj hw)
        rw [UInt32.ofNat_toNat]
        by_contra hlevel'
        have hnone := not_hasFdx8_iff.mpr (hfdx8 hlevel')
        have hfalse := hT.creations container params hbuilds (fun h0 => hlevel' (hlevel h0)) hnone
          (fun hnil => hne (hnil ▸ rfl)) c (fun d hd => hc _ (List.mem_map_of_mem hd)) x hx
        rw [hx8] at hfalse
        simp at hfalse
      next => exact hT.rule c' x w l hx hx8 hw

/-- The disks for a volume are members of its array. -/
theorem mem_of_mem_disksForVolume {a : RaidArray} {d : EndDevice}
    (h : d ∈ CallSession.disksForVolume a) : d ∈ a.m_BlockDevices := by
  unfold CallSession.disksForVolume RaidArray.getEndDevices at h
  split_ifs at h
  · exact h
  · exact List.mem_of_mem_filter h

/-- A call begins guarded, if it is none that migrates. -/
theorem guarded_start (hshows : Shows D S s) (hS : OnlyRaid0 D S)
    (hkeeps : KeepsOnlyRaid0 D S s info call)
    (hcall : ∀ handle params, call ≠ .SsiRaidLevelModify handle params) : Guarded D s info call S := by
  refine ⟨hS, fun a disks hadds hfdx8 => ?_, fun container params hbuilds hlevel hnone hne c hc => ?_⟩
  · rcases hasFdx8_of_adds hadds hfdx8 with ⟨handle, handles, rfl⟩ | ⟨handle, params, rfl⟩
    · exact hkeeps a disks hadds hfdx8
    · exact absurd rfl (hcall handle params)
  · cases hbuilds with
    | @SsiVolumeCreateFromDisks _ disks hdisks =>
        -- free disks are in no container
        cases hdisks with
        | SsiVolumeCreateFromDisks hdisks _ _ hfree =>
            obtain ⟨d, hd⟩ := List.exists_mem_of_ne_nil _ hne
            obtain ⟨d', hd', rfl⟩ := List.mem_map.mp hd
            have hnowhere := hshows.free d' (s.lists_of_mem_getEndDevices hdisks d' hd')
              (hfree d' hd').2.2.1
            exact nomatch hnowhere.symm.trans (hc _ hd)
    | @SsiVolumeCreate _ a _ _ harray hsettings =>
        have hclean := hkeeps a _ harray (.SsiVolumeCreate harray hsettings) hlevel hnone
        have hmembers := hshows.arrays _ _ harray
        obtain ⟨d, hd⟩ := List.exists_mem_of_ne_nil _ hne
        have hcontainer : a.m_DevName = c := by
          have hmember := (hmembers.members d.m_DevName).mpr ⟨d, mem_of_mem_disksForVolume hd, rfl⟩
          exact Option.some.inj (hmember.symm.trans (hc d hd))
        subst hcontainer
        intro x hx
        obtain ⟨d', hd', rfl⟩ := (hmembers.members x).mp hx
        rw [← (hmembers.describes d' hd').fultondalex8]
        exact not_hasFdx8_iff.mp hclean d' hd'

/-- A command has its effect or, where it fails, none. -/
theorem exitEffect_cases {x : Command × UInt8} (h : exitEffect x T T') :
    x.1.Effect T T' ∨ T' = T := by
  unfold exitEffect at h
  split at h
  · exact .inl h
  · exact .inr h

/-- Commands of the call keep what guards it. -/
theorem guarded_within (hshows : Shows D S s) {commands : List (Command × UInt8)}
    (hcommands : ∀ x ∈ commands, Issued s info call x.1)
    (hstructural : ∀ x ∈ commands, x.1.IsStructural → x.1.OnlyShrinks)
    (hT : Guarded D s info call T) (hwithin : Within exitEffect T commands T') :
    Guarded D s info call T' := by
  refine hwithin.invariant (fun x hx U U' hU heffect => ?_) hT
  rcases exitEffect_cases heffect with heffect | rfl
  · exact guarded_step hshows (hcommands x hx) (hstructural x hx) hU heffect
  · exact hU

/-- A call that migrates no volume keeps the rule. -/
theorem onlyRaid0_of_guarded (hshows : Shows D S s) (hS : OnlyRaid0 D S)
    (hkeeps : KeepsOnlyRaid0 D S s info call)
    (hcall : ∀ handle params, call ≠ .SsiRaidLevelModify handle params)
    {commands : List (Command × UInt8)} (hcommands : ∀ x ∈ commands, Issued s info call x.1)
    (hwithin : Within exitEffect S commands T) : OnlyRaid0 D T := by
  refine (guarded_within hshows hcommands (fun x hx hstructural => ?_)
    (guarded_start hshows hS hkeeps hcall) hwithin).rule
  obtain ⟨cmd, status⟩ := x
  have hissued : Issued s info call cmd := hcommands _ hx
  cases hissued with
  | shrinks hcmd => exact hcmd
  | add => exact hstructural.elim
  | container => exact hstructural.elim
  | volume _ _ hcmd =>
      obtain ⟨-, _, _, _, _, _, rfl⟩ := hcmd
      exact hstructural.elim
  | migration => exact absurd rfl (hcall _ _)

end

/-! ## Migrations -/

/-- The structural command of a growth sets no level. -/
theorem RaidArray.onlyShrinks_of_mem_growPlan (a : RaidArray) {disks : List EndDevice} {cmd : Command}
    (h : cmd ∈ a.growPlan disks) (hcmd : cmd.IsStructural) : cmd.OnlyShrinks := by
  unfold growPlan at h
  split at h
  next => simp at h
  next =>
    rcases List.mem_append.mp h with h | h
    · obtain ⟨names, -, rfl⟩ := a.mem_sparesPlan h
      exact hcmd.elim
    · obtain rfl := List.mem_singleton.mp h
      exact trivial

namespace Volume

variable {v : Volume} {stripSize : SSI_StripSize} {disks : List EndDevice} {cmd : Command}

/-- The command takes the volume to a level. -/
def SetsLevel (v : Volume) (cmd : Command) : Prop :=
  ∃ level, ∀ S S', cmd.Effect S S' → S' = S.setLevel v.m_DevName level

/-- A migration to level 0 sets no other level. -/
theorem onlyShrinks_of_mem_toRaid0Plan (h : cmd ∈ v.toRaid0Plan stripSize disks)
    (hcmd : cmd.IsStructural) : cmd.OnlyShrinks := by
  have hlevel0 : ∀ {devName ch}, cmd = .growLevel0 devName ch → cmd.OnlyShrinks := by
    rintro devName ch rfl
    exact trivial
  unfold toRaid0Plan at h
  split at h
  next pArray ch hparent _ =>
    split_ifs at h
    · unfold toRaid0From0Plan at h
      split_ifs at h
      · exact hlevel0 (List.mem_singleton.mp h)
      · simp at h
      · simp at h
      · exact pArray.onlyShrinks_of_mem_growPlan h hcmd
    · unfold toRaid0From1Plan at h
      split_ifs at h
      · simp at h
      · exact (List.mem_cons.mp h).elim hlevel0 (pArray.onlyShrinks_of_mem_growPlan · hcmd)
      · exact hlevel0 (List.mem_singleton.mp h)
    · unfold toRaid0From10Plan at h
      split_ifs at h
      · simp at h
      · exact (List.mem_cons.mp h).elim hlevel0 (pArray.onlyShrinks_of_mem_growPlan · hcmd)
      · exact (List.mem_cons.mp h).elim hlevel0 fun h => hlevel0 (List.mem_singleton.mp h)
      · exact hlevel0 (List.mem_singleton.mp h)
    · unfold toRaid0From5Plan at h
      split_ifs at h
      · simp at h
      · exact hlevel0 (List.mem_singleton.mp h)
    · simp at h
  next => simp at h

/-- A migration from another level to level 0 begins with its command. -/
theorem toRaid0Plan_of_level (hlevel : v.m_RaidLevel ≠ 0) : v.toRaid0Plan stripSize disks = [] ∨
    ∃ ch rest, v.toRaid0Plan stripSize disks = .growLevel0 v.m_DevName ch :: rest := by
  unfold toRaid0Plan
  split
  next pArray ch hparent hchunk =>
    rw [if_neg hlevel]
    split_ifs
    · unfold toRaid0From1Plan
      split_ifs
      · exact .inl rfl
      · exact .inr ⟨_, _, rfl⟩
      · exact .inr ⟨_, _, rfl⟩
    · unfold toRaid0From10Plan
      split_ifs
      · exact .inl rfl
      · exact .inr ⟨_, _, rfl⟩
      · exact .inr ⟨_, _, rfl⟩
      · exact .inr ⟨_, _, rfl⟩
    · unfold toRaid0From5Plan
      split_ifs
      · exact .inl rfl
      · exact .inr ⟨_, _, rfl⟩
    · exact .inl rfl
  next => exact .inl rfl

/-- A migration to another level takes only the volume itself there. -/
theorem setsLevel_of_mem_toRaid10Plan (h : cmd ∈ v.toRaid10Plan stripSize disks)
    (hcmd : cmd.IsStructural) : v.SetsLevel cmd := by
  unfold toRaid10Plan at h
  split at h
  next pArray hparent =>
    split_ifs at h
    · simp at h
    · rcases List.mem_append.mp h with h | h
      · obtain ⟨names, -, rfl⟩ := pArray.mem_sparesPlan h
        exact hcmd.elim
      · obtain rfl := List.mem_singleton.mp h
        exact ⟨10, fun _ _ h => h⟩
  next => simp at h

/-- The structural commands of a migration to level 5 set no level, or that of the volume itself. -/
theorem onlyShrinks_or_setsLevel_of_mem_toRaid5Plan (h : cmd ∈ v.toRaid5Plan stripSize disks)
    (hcmd : cmd.IsStructural) : cmd.OnlyShrinks ∨ v.SetsLevel cmd := by
  have hlevel5 : ∀ {ch}, cmd = .growLevel5 v.m_DevName ch → v.SetsLevel cmd := by
    rintro ch rfl
    exact ⟨5, fun _ _ h => h⟩
  unfold toRaid5Plan at h
  split at h
  next pArray ch hparent _ =>
    split_ifs at h
    · unfold toRaid5From0Plan at h
      split_ifs at h
      · simp at h
      · rcases List.mem_append.mp h with h | h
        · obtain ⟨names, -, rfl⟩ := pArray.mem_sparesPlan h
          exact hcmd.elim
        · exact .inr (hlevel5 (List.mem_singleton.mp h))
    · unfold toRaid5From10Plan at h
      split_ifs at h
      · simp at h
      · rcases List.mem_cons.mp h with rfl | h
        · exact .inl trivial
        · exact .inr (hlevel5 (List.mem_singleton.mp h))
    · unfold toRaid5From5Plan at h
      split_ifs at h
      · obtain rfl := List.mem_singleton.mp h
        exact .inr ⟨5, fun _ _ h => h⟩
      · simp at h
      · exact .inl (pArray.onlyShrinks_of_mem_growPlan h hcmd)
    · simp at h
  next => simp at h

variable {info : SSI_RaidLevelInfo} {raidLevel : SSI_RaidLevel} {newSize : UInt64}

/-- What the commands of a migration to another level than 0 do to levels. -/
theorem onlyShrinks_or_setsLevel (hlevel : raidLevel ≠ SSI_Raid0)
    (h : cmd ∈ v.modifyPlan info stripSize raidLevel newSize disks) (hcmd : cmd.IsStructural) :
    cmd.OnlyShrinks ∨ v.SetsLevel cmd := by
  unfold modifyPlan at h
  rw [if_neg hlevel] at h
  split_ifs at h
  · exact .inr (setsLevel_of_mem_toRaid10Plan h hcmd)
  · exact onlyShrinks_or_setsLevel_of_mem_toRaid5Plan h hcmd
  · simp at h
  · simp at h

/-- Where a migration issues anything its checks have passed. -/
theorem check_of_modifyPlan (hne : v.modifyPlan info stripSize raidLevel newSize disks ≠ []) :
    v.modifyCheck info stripSize raidLevel newSize disks = none := by
  by_contra hcheck
  exact hne (if_neg hcheck)

/-- Where a request for level 0 issues anything its plan is that of the migrations to level 0. -/
theorem modifyPlan_raid0 (hne : v.modifyPlan info stripSize SSI_Raid0 newSize disks ≠ []) :
    v.modifyPlan info stripSize SSI_Raid0 newSize disks = v.toRaid0Plan stripSize disks := by
  unfold modifyPlan
  rw [if_pos (check_of_modifyPlan hne), if_pos rfl]

/-- A migration to another level has refused FDx8 disks. -/
theorem fultondalex8_of_modifyPlan (hlevel : raidLevel ≠ SSI_Raid0)
    (hne : v.modifyPlan info stripSize raidLevel newSize disks ≠ []) :
    (∀ d ∈ v.m_BlockDevices, d.fultondalex8 = false) ∧ ∀ d ∈ disks, d.fultondalex8 = false := by
  have hcheck := check_of_modifyPlan hne
  unfold modifyCheck at hcheck
  split at hcheck
  next => simp at hcheck
  next =>
    dsimp only at hcheck
    split_ifs at hcheck with _ _ _ hfdx8
    rw [not_and, not_or] at hfdx8
    simpa using hfdx8 hlevel

/-- Only a volume with a parent is migrated. -/
theorem parent_of_mem_modifyPlan (h : cmd ∈ v.modifyPlan info stripSize raidLevel newSize disks) :
    ∃ a, v.m_pParent = some a := by
  rcases hparent : v.m_pParent with _ | a
  · unfold modifyPlan toRaid0Plan toRaid10Plan toRaid5Plan at h
    rw [hparent] at h
    simp at h
  · exact ⟨a, rfl⟩

end Volume

section modify

variable {s : CallSession} {info : SSI_RaidLevelInfo} {D : Inventory} {S T T' : Storage}
  {volumeHandle : Nat} {params : SSI_RaidLevelModifyParams} {v : ListedVolume}
  {disks : List ListedDevice} {a : RaidArray} {commands : List (Command × UInt8)}

/-- The plan of the migration. -/
abbrev migrationPlan (info : SSI_RaidLevelInfo) (params : SSI_RaidLevelModifyParams) (v : ListedVolume)
    (disks : List ListedDevice) : List Command :=
  v.modifyPlan info params.newStripSize params.newRaidLevel params.newSizeInBytes
    (disks.map (·.toEndDevice))

/-- While a volume is taken to another level than 0: the rule holds, there is no FDx8 disk in the
container, and the volume is in it. -/
structure Migrated (D : Inventory) (a : RaidArray) (v : Volume) (T : Storage) : Prop where
  rule : OnlyRaid0 D T
  clean : ∀ x, T.container x = some a.m_DevName → D.fultondalex8 x = false
  inside : ∀ c l, T.volume v.m_DevName = some (c, l) → c = a.m_DevName

/-- The state of a migration stays one where only something is lost. -/
theorem migrated_of_shrinks {v : Volume} (h : T.Shrinks T') (hT : Migrated D a v T) :
    Migrated D a v T' := by
  refine ⟨onlyRaid0_of_shrinks h hT.rule, fun x hx => hT.clean x (h.container x _ hx),
    fun c l hv => ?_⟩
  obtain ⟨l', hv', -⟩ := h.volume _ c l hv
  exact hT.inside c l' hv'

/-- The state of a migration stays one under another level of the volume. -/
theorem migrated_setLevel {v : Volume} (level : UInt32) (hT : Migrated D a v T) :
    Migrated D a v (T.setLevel v.m_DevName level) := by
  refine ⟨fun c x w l hx hfdx8 hw => ?_, hT.clean, fun c l hv => ?_⟩
  · obtain ⟨l', hw', ⟨rfl, -⟩ | ⟨-, rfl⟩⟩ := Storage.volume_setLevel_eq_some hw
    · obtain rfl := hT.inside c l' hw'
      rw [hT.clean x hx] at hfdx8
      simp at hfdx8
    · exact hT.rule c x w l hx hfdx8 hw'
  · obtain ⟨l', hv', -⟩ := Storage.volume_setLevel_eq_some hv
    exact hT.inside c l' hv'

/-- What a command of the migration keeps. -/
theorem migrated_step (hshows : Shows D S s) (hlevel : params.newRaidLevel ≠ SSI_Raid0)
    (hcheck : s.checkModify volumeHandle params = .ok (v, disks)) (hparent : v.m_pParent = some a)
    {cmd : Command} (hcmd : Issued s info (.SsiRaidLevelModify volumeHandle params) cmd)
    (hT : Migrated D a v.toVolume T) (heffect : cmd.Effect T T') : Migrated D a v.toVolume T' := by
  cases hcmd with
  | shrinks hcmd => exact migrated_of_shrinks (heffect.shrinks hcmd) hT
  | container hcollects => cases hcollects
  | volume hbuilds => cases hbuilds
  | migration hcheck' hplan hcmd =>
      obtain ⟨rfl, rfl⟩ := Prod.mk.inj (Except.ok.inj (hcheck.symm.trans hcheck'))
      rcases Volume.onlyShrinks_or_setsLevel hlevel hplan hcmd with hshrinks | ⟨level, hset⟩
      · exact migrated_of_shrinks (heffect.shrinks hshrinks) hT
      · rw [hset T T' heffect]
        exact migrated_setLevel level hT
  | @add _ a' disks' names hadds hnames =>
      have hlists := lists_of_adds hadds
      cases hadds with
      | SsiRaidLevelModify hcheck' hparent' hplan =>
          obtain ⟨rfl, rfl⟩ := Prod.mk.inj (Except.ok.inj (hcheck.symm.trans hcheck'))
          obtain rfl := Option.some.inj (hparent.symm.trans hparent')
          obtain rfl : T' = _ := heffect
          -- the disks have been checked
          have hclean : ∀ x ∈ names, D.fultondalex8 x = false := by
            intro x hx
            obtain ⟨d, hd, -, rfl⟩ := a.sparesToAdd_free hnames x hx
            have hnone := (Volume.fultondalex8_of_modifyPlan hlevel (List.ne_nil_of_mem hplan)).2 d hd
            obtain ⟨d', hd', rfl⟩ := List.mem_map.mp hd
            exact (hshows.disks d' (hlists d' hd')).fultondalex8.symm.trans hnone
          refine ⟨fun c x w l hx hfdx8 hw => ?_, fun x hx => ?_, hT.inside⟩
          · rcases Storage.container_put_eq_some hx with ⟨hxnew, -⟩ | ⟨-, hxold⟩
            · rw [hclean x hxnew] at hfdx8
              simp at hfdx8
            · exact hT.rule c x w l hxold hfdx8 hw
          · rcases Storage.container_put_eq_some hx with ⟨hxnew, -⟩ | ⟨-, hxold⟩
            · exact hclean x hxnew
            · exact hT.clean x hxold

/-- A migration that meets the condition starts from such a state. -/
theorem migrated_start (hshows : Shows D S s) (hS : OnlyRaid0 D S)
    (hkeeps : KeepsOnlyRaid0 D S s info (.SsiRaidLevelModify volumeHandle params))
    (hlevel : params.newRaidLevel ≠ SSI_Raid0)
    (hcheck : s.checkModify volumeHandle params = .ok (v, disks)) (hparent : v.m_pParent = some a)
    (hplan : migrationPlan info params v disks ≠ []) : Migrated D a v.toVolume S := by
  have hvolume := hshows.volumes _ _ (CallSession.modifiesVolume_of_check hcheck).volume
  refine ⟨hS, fun x hx => ?_, fun c l hv => hvolume.container c l a hv hparent⟩
  have hkeeps := hkeeps v disks a hcheck hparent
  rw [if_neg hlevel] at hkeeps
  by_cases hmember : ∃ d ∈ v.m_BlockDevices, d.m_DevName = x
  · obtain ⟨d, hd, rfl⟩ := hmember
    rw [← (hvolume.describes d hd).fultondalex8]
    exact (Volume.fultondalex8_of_modifyPlan hlevel hplan).1 d hd
  · exact hkeeps hplan x hx fun d hd hname => hmember ⟨d, hd, hname⟩

/-- A migration to another level than 0 keeps the rule. -/
theorem onlyRaid0_of_migrated (hshows : Shows D S s) (hS : OnlyRaid0 D S)
    (hkeeps : KeepsOnlyRaid0 D S s info (.SsiRaidLevelModify volumeHandle params))
    (hlevel : params.newRaidLevel ≠ SSI_Raid0)
    (hcheck : s.checkModify volumeHandle params = .ok (v, disks)) (hparent : v.m_pParent = some a)
    (hplan : migrationPlan info params v disks ≠ [])
    (hcommands : ∀ x ∈ commands, Issued s info (.SsiRaidLevelModify volumeHandle params) x.1)
    (hwithin : Within exitEffect S commands T) : OnlyRaid0 D T := by
  refine (hwithin.invariant (I := Migrated D a v.toVolume) (fun x hx U U' hU heffect => ?_)
    (migrated_start hshows hS hkeeps hlevel hcheck hparent hplan)).rule
  rcases exitEffect_cases heffect with heffect | rfl
  · exact migrated_step hshows hlevel hcheck hparent (hcommands x hx) hU heffect
  · exact hU

/-- A migration to level 0 keeps the rule: where it is one from another level, its first command
takes the volume there, before disks are added. -/
theorem onlyRaid0_of_raid0 (hshows : Shows D S s) (hS : OnlyRaid0 D S)
    (hkeeps : KeepsOnlyRaid0 D S s info (.SsiRaidLevelModify volumeHandle params))
    (hlevel : params.newRaidLevel = SSI_Raid0)
    (hcheck : s.checkModify volumeHandle params = .ok (v, disks)) (hparent : v.m_pParent = some a)
    (hplan : migrationPlan info params v disks ≠ [])
    (hcommands : commands = (migrationPlan info params v disks).map fun cmd => (cmd, 0))
    (hissued : ∀ x ∈ commands, Issued s info (.SsiRaidLevelModify volumeHandle params) x.1)
    (hwithin : Within exitEffect S commands T) : OnlyRaid0 D T := by
  have hvolume := hshows.volumes _ _ (CallSession.modifiesVolume_of_check hcheck).volume
  have hkeeps := hkeeps v disks a hcheck hparent
  rw [if_pos hlevel] at hkeeps
  have hraid0 : migrationPlan info params v disks =
      v.toRaid0Plan params.newStripSize (disks.map (·.toEndDevice)) := by
    rw [migrationPlan, hlevel] at hplan ⊢
    exact Volume.modifyPlan_raid0 hplan
  have hstructural : ∀ x ∈ commands, x.1.IsStructural → x.1.OnlyShrinks := by
    intro x hx
    rw [hcommands, hraid0] at hx
    obtain ⟨cmd, hcmd, rfl⟩ := List.mem_map.mp hx
    exact Volume.onlyShrinks_of_mem_toRaid0Plan hcmd
  -- the additions that are to come, when the volume has level 0
  have hguarded : ∀ U, OnlyRaid0 D U → (∀ w l, U.volume w = some (a.m_DevName, l) →
      l = 0 ∨ w ≠ v.m_DevName ∧ S.volume w = some (a.m_DevName, l)) →
      Guarded D s info (.SsiRaidLevelModify volumeHandle params) U := by
    intro U hU hlevels
    refine ⟨hU, fun a' disks' hadds hfdx8 w l hw => ?_, fun container params hbuilds => nomatch hbuilds⟩
    have hadds' := hadds
    cases hadds' with
    | SsiRaidLevelModify hcheck' hparent' =>
        obtain ⟨rfl, rfl⟩ := Prod.mk.inj (Except.ok.inj (hcheck.symm.trans hcheck'))
        obtain rfl := Option.some.inj (hparent.symm.trans hparent')
        rcases hlevels w l hw with hl | ⟨hne, hw⟩
        · exact hl
        · exact hkeeps hadds hfdx8 w l hne hw
  by_cases hvlevel : v.m_RaidLevel = 0
  · refine (guarded_within hshows hissued hstructural (hguarded S hS fun w l hw => ?_) hwithin).rule
    by_cases hv : w = v.m_DevName
    · subst hv
      exact .inl ((hvolume.level _ l hw).trans hvlevel)
    · exact .inr ⟨hv, hw⟩
  · have hhead : v.toRaid0Plan params.newStripSize (disks.map (·.toEndDevice)) = [] ∨ _ :=
      Volume.toRaid0Plan_of_level hvlevel
    rcases hhead with hnil | ⟨ch, rest, hcons⟩
    · exact absurd (hraid0.trans hnil) hplan
    · rw [hraid0, hcons, List.map_cons] at hcommands
      subst hcommands
      rcases within_cons_iff.mp hwithin with rfl | ⟨U, hfirst, hrest⟩
      · exact hS
      · obtain rfl : U = S.setLevel v.m_DevName 0 := hfirst
        refine (guarded_within hshows (fun x hx => hissued x (List.mem_cons_of_mem _ hx))
          (fun x hx => hstructural x (List.mem_cons_of_mem _ hx)) (hguarded _ ?_ fun w l hw => ?_)
          hrest).rule
        · exact onlyRaid0_of_shrinks (Storage.shrinks_setLevel_zero _) hS
        · obtain ⟨l', hw', ⟨-, hl⟩ | ⟨hne, rfl⟩⟩ := Storage.volume_setLevel_eq_some hw
          · exact .inl hl
          · exact .inr ⟨hne, hw'⟩

/-- The commands of a migration, where they succeed. -/
theorem exits_of_modify (hcheck : s.checkModify volumeHandle params = .ok (v, disks)) {env : SysEnv}
    {i : Nat} (hzero : MdadmSucceeds ((SsiRaidLevelModify s info volumeHandle params).run env i).trace) :
    exits ((SsiRaidLevelModify s info volumeHandle params).run env i).trace =
      (migrationPlan info params v disks).map fun cmd => (cmd, 0) := by
  unfold SsiRaidLevelModify at hzero ⊢
  rw [hcheck] at hzero ⊢
  obtain ⟨result, hfollows⟩ := v.keeps_modify info params.newStripSize params.newRaidLevel
    params.newSizeInBytes (disks.map (·.toEndDevice))
  refine exits_of_follows hfollows fun x hx => hzero x hx ?_
  rcases of_mem_exits (calls_of_follows hfollows) hx with hcmd | hcmd
  · rcases v.mem_modifyPlan hcmd with hcmd | ⟨a, -, -, hcmd⟩
    · generalize x.1 = cmd at hcmd ⊢
      cases cmd <;> first | exact trivial | exact hcmd.elim
    · obtain ⟨names, -, heq⟩ := a.mem_sparesPlan hcmd
      rw [heq]
      exact trivial
  · generalize x.1 = cmd at hcmd ⊢
    cases cmd <;> first | exact trivial | exact hcmd.elim

/-- A migration does more than shrink the storage only if it has a plan. -/
theorem onlyShrinks_or_plan {cmd : Command}
    (h : Issued s info (.SsiRaidLevelModify volumeHandle params) cmd) :
    cmd.OnlyShrinks ∨ ∃ v disks a, s.checkModify volumeHandle params = .ok (v, disks) ∧
      v.m_pParent = some a ∧ migrationPlan info params v disks ≠ [] := by
  cases h with
  | shrinks hcmd => exact .inl hcmd
  | container hcollects => cases hcollects
  | volume hbuilds => cases hbuilds
  | @migration _ _ v disks _ hcheck hplan =>
      obtain ⟨a, hparent⟩ := Volume.parent_of_mem_modifyPlan hplan
      exact .inr ⟨v, disks, a, hcheck, hparent, List.ne_nil_of_mem hplan⟩
  | add hadds =>
      cases hadds with
      | SsiRaidLevelModify hcheck hparent hplan =>
          exact .inr ⟨_, _, _, hcheck, hparent, List.ne_nil_of_mem hplan⟩

end modify

/-! ## Runs -/

section run

variable {D : Inventory} {S T : Storage} {commands : List (Command × UInt8)}

/-- A call that meets the condition keeps the rule at every point. -/
theorem onlyRaid0_of_turn (hS : OnlyRaid0 D S) (hturn : ApiTurn D (KeepsOnlyRaid0 D) S commands)
    (hwithin : Within exitEffect S commands T) : OnlyRaid0 D T := by
  obtain ⟨s, info, rounds, call, env, i, hshows, hkeeps, hzero, hcommands⟩ := hturn
  have hissued : ∀ x ∈ commands, Issued s info call x.1 := by
    rw [hcommands]
    exact issued_of_call call env i hzero
  by_cases hcall : ∀ handle params, call ≠ .SsiRaidLevelModify handle params
  · exact onlyRaid0_of_guarded hshows hS hkeeps hcall hissued hwithin
  · simp only [not_forall, not_not] at hcall
    obtain ⟨handle, params, rfl⟩ := hcall
    by_cases hplan : ∃ v disks a, s.checkModify handle params = .ok (v, disks) ∧
        v.m_pParent = some a ∧ migrationPlan info params v disks ≠ []
    · obtain ⟨v, disks, a, hcheck, hparent, hne⟩ := hplan
      by_cases hlevel : params.newRaidLevel = SSI_Raid0
      · exact onlyRaid0_of_raid0 hshows hS hkeeps hlevel hcheck hparent hne
          (hcommands.trans (exits_of_modify hcheck hzero)) hissued hwithin
      · exact onlyRaid0_of_migrated hshows hS hkeeps hlevel hcheck hparent hne hissued hwithin
    · refine hwithin.invariant (I := OnlyRaid0 D) (fun x hx U U' hU heffect => ?_) hS
      rcases exitEffect_cases heffect with heffect | rfl
      · exact onlyRaid0_of_shrinks
          (heffect.shrinks ((onlyShrinks_or_plan (hissued x hx)).resolve_right hplan)) hU
      · exact hU

/-- **FDx8 disks serve RAID0 only** in every run of calls that meet the condition. A state of the run is
any that is come by between two commands, so that the rule holds within the calls as well; which
commands of a call are issued and which succeed is left open. -/
theorem onlyRaid0_of_reaches (D : Inventory) (S₀ S : Storage) (h₀ : OnlyRaid0 D S₀)
    (h : ApiReaches D (KeepsOnlyRaid0 D) S₀ S) : OnlyRaid0 D S :=
  h.invariant (fun _ _ _ hS hturn hwithin => onlyRaid0_of_turn hS hturn hwithin) h₀

end run

section sample

/-- VMD disks, of which `nvme3n1` is an FDx8 disk. -/
def sampleFdx8 : Inventory := ⟨fun _ => .vmd, fun x => decide (x = .ofLit "nvme3n1")⟩

/-- A disk of the inventory. -/
def sampleFdx8Disk (usage : SSI_DiskUsage) (devName : Str) : ListedDevice :=
  ⟨{ sampleDisk devName usage with
      diskType := .vmd, fultondalex8 := sampleFdx8.fultondalex8 devName, array := none },
    1000000, 512, false, []⟩

/-- The disks that become the container. -/
def sampleNames : List Str := [.ofLit "nvme0n1", .ofLit "nvme1n1", .ofLit "nvme2n1"]

/-- The container `md127` of these disks. -/
def sampleFdx8Array : RaidArray :=
  ⟨⟨.empty, .ofLit "md127", .ofLit "Imsm_0", .ofLit "aa:1",
    sampleNames.map fun devName => (sampleFdx8Disk .arrayMember devName).toEndDevice⟩, 1, false⟩

/-- A volume of the level on all members. -/
def sampleFdx8Volume (devName : Str) (level : UInt32) : Volume :=
  ⟨⟨.empty, devName, .ofLit "vol", .ofLit "bb:2", sampleFdx8Array.m_BlockDevices⟩,
    some sampleFdx8Array, 0, level, false, 64 * 1024, 0, 1024, .normal, .off, none⟩

/-- A session with the three disks and the FDx8 disk, which is free. -/
def sampleFdx8Session (usage : SSI_DiskUsage) (arrays : List (Nat × ListedArray))
    (volumes : List (Nat × ListedVolume)) : CallSession :=
  ⟨[(2, sampleFdx8Disk usage (.ofLit "nvme0n1")), (3, sampleFdx8Disk usage (.ofLit "nvme1n1")),
      (4, sampleFdx8Disk usage (.ofLit "nvme2n1")), (5, sampleFdx8Disk .passThru (.ofLit "nvme3n1"))],
    arrays, volumes, 9⟩

/-- All disks are free. -/
def sampleFreeSession : CallSession := sampleFdx8Session .passThru [] []

/-- The container with the volumes. -/
def sampleContainerSession (volumes : List (Str × UInt32)) : CallSession :=
  sampleFdx8Session .arrayMember
    [(6, ⟨sampleFdx8Array, volumes.map fun v => sampleFdx8Volume v.1 v.2,
      sampleNames.map (sampleFdx8Disk .arrayMember), rfl⟩)]
    (volumes.mapIdx fun i v => (7 + i, ⟨sampleFdx8Volume v.1 v.2, 1000000, 512⟩))

/-- The sample session shows every storage that its arrays and volumes are shown in. -/
theorem shows_sampleFdx8Session {S : Storage} {usage : SSI_DiskUsage}
    {arrays : List (Nat × ListedArray)} {volumes : List (Nat × ListedVolume)}
    (hfree : ∀ x, S.container x ≠ none → x ∈ sampleNames ∧ usage ≠ .passThru)
    (harrays : ∀ x ∈ arrays, ShowsArray sampleFdx8 S x.2.toRaidArray)
    (hvolumes : ∀ x ∈ volumes, ShowsVolume sampleFdx8 S x.2.toVolume) :
    Shows sampleFdx8 S (sampleFdx8Session usage arrays volumes) := by
  have hdisks : ∀ d, (sampleFdx8Session usage arrays volumes).Lists d →
      ∃ devName usage', d = sampleFdx8Disk usage' devName ∧
        (devName ∈ sampleNames → usage' = usage) := by
    rintro d ⟨handle, hd⟩
    simp only [sampleFdx8Session, List.mem_cons, Prod.mk.injEq, List.not_mem_nil, or_false] at hd
    rcases hd with ⟨-, rfl⟩ | ⟨-, rfl⟩ | ⟨-, rfl⟩ | ⟨-, rfl⟩
    · exact ⟨_, _, rfl, fun _ => rfl⟩
    · exact ⟨_, _, rfl, fun _ => rfl⟩
    · exact ⟨_, _, rfl, fun _ => rfl⟩
    · exact ⟨_, _, rfl, fun h => absurd h (by decide)⟩
  refine ⟨fun d hd => ?_, fun d hd hpass => ?_, fun d hd a ha => ?_, fun handle a ha => ?_,
    fun handle v hv => hvolumes _ (mem_of_findHandle hv)⟩
  · obtain ⟨devName, usage', rfl, -⟩ := hdisks d hd
    exact ⟨rfl, rfl⟩
  · obtain ⟨devName, usage', rfl, husage⟩ := hdisks d hd
    by_contra hsome
    obtain ⟨hmem, hne⟩ := hfree devName hsome
    exact hne ((husage hmem).symm.trans hpass)
  · obtain ⟨devName, usage', rfl, -⟩ := hdisks d hd
    cases ha
  · exact harrays _ (mem_of_findHandle ha)

/-- Without arrays the sample session shows the empty storage. -/
theorem shows_sampleFreeSession : Shows sampleFdx8 ⟨fun _ => none, fun _ => none⟩ sampleFreeSession :=
  shows_sampleFdx8Session (fun _ h => absurd rfl h) (fun _ h => nomatch h) fun _ h => nomatch h

/-- The three disks are in the container, and the volumes. -/
structure HasContainer (S : Storage) (volumes : List (Str × UInt32)) : Prop where
  container : ∀ x, S.container x = if x ∈ sampleNames then some (.ofLit "md127") else none
  volume : ∀ v ∈ volumes, S.volume v.1 = some (.ofLit "md127", v.2)

/-- With one container it shows a storage with this container. -/
theorem shows_sampleContainerSession {S : Storage} {volumes : List (Str × UInt32)}
    (h : HasContainer S volumes) : Shows sampleFdx8 S (sampleContainerSession volumes) := by
  have harray : ShowsArray sampleFdx8 S sampleFdx8Array := by
    refine ⟨fun x => ?_, fun d hd => ?_⟩
    · have hmember : (∃ d ∈ sampleFdx8Array.m_BlockDevices, d.m_DevName = x) ↔ x ∈ sampleNames := by
        simp [sampleFdx8Array, sampleFdx8Disk, sampleDisk]
      rw [hmember, h.container x]
      simp [sampleFdx8Array]
    · obtain ⟨devName, -, rfl⟩ := List.mem_map.mp hd
      exact ⟨rfl, rfl⟩
  refine shows_sampleFdx8Session (fun x hx => ?_) (fun x hx => ?_) fun x hx => ?_
  · rw [h.container x] at hx
    exact ⟨by simpa using hx, by decide⟩
  · rw [List.mem_singleton.mp hx]
    exact harray
  · obtain ⟨i, hi, rfl⟩ := List.mem_mapIdx.mp hx
    have hvolume := h.volume _ (List.getElem_mem hi)
    refine ⟨fun c l hl => ?_, fun c l a hl ha => ?_, fun a ha => ?_, harray.describes⟩
    · exact (Prod.mk.inj (Option.some.inj (hl.symm.trans hvolume))).2
    · obtain rfl := Option.some.inj ha
      exact (Prod.mk.inj (Option.some.inj (hl.symm.trans hvolume))).1
    · obtain rfl := Option.some.inj ha
      exact harray

/-- A volume of the level. -/
def sampleVolumeParams (name : List UInt8) (level : SSI_RaidLevel) : VolumeParams :=
  ⟨name, 6442450944, level, SSI_StripSize64kB, .off⟩

/-- The FDx8 disk is added to the container. -/
theorem reaches_sampleAdd {Meets : Storage → CallSession → SSI_RaidLevelInfo → ApiCall → Prop}
    {S₀ S : Storage} {volumes : List (Str × UInt32)} (hS : ApiReaches sampleFdx8 Meets S₀ S)
    (h : HasContainer S volumes)
    (hmeets : Meets S (sampleContainerSession volumes) sampleInfo (.SsiAddDisksToArray 6 (some [5])))
    (hexits : exits ((SsiAddDisksToArray (sampleContainerSession volumes) 6 (some [5])).run
      (Volume.constantExit 0) 0).trace =
        [(.add (.ofLit "md127") [.ofLit "nvme3n1"], 0), (.raidDevices (.ofLit "md127") 4, 0)]) :
    ApiReaches sampleFdx8 Meets S₀ (S.put (some (.ofLit "md127")) [.ofLit "nvme3n1"]) := by
  refine .turn hS ⟨sampleContainerSession volumes, sampleInfo, 1, _, Volume.constantExit 0, 0,
    shows_sampleContainerSession h, hmeets, ?_, rfl⟩ ?_
  · intro x hx _
    rw [ApiCall.prog, hexits] at hx
    simp only [List.mem_cons, List.not_mem_nil, or_false] at hx
    rcases hx with rfl | rfl <;> rfl
  · rw [ApiCall.prog, hexits]
    exact .step rfl (.here _ _)

/-- The first volume, of level 5, in a new container. -/
def sampleVolumeStorage₁ : Storage :=
  ⟨fun x => if x ∈ sampleNames then some (.ofLit "md127") else none,
    fun v => if v = .ofLit "md126" then some (.ofLit "md127", 5) else none⟩

/-- The second volume, of level 0. -/
def sampleVolumeStorage₂ : Storage :=
  { sampleVolumeStorage₁ with
    volume := fun v => if v = .ofLit "md125" then some (.ofLit "md127", 0)
      else sampleVolumeStorage₁.volume v }

/-- The first volume is reached by a run of calls from the empty storage. -/
theorem reaches_sampleVolumeStorage₁ :
    ApiReaches sampleFdx8 (fun _ _ _ _ => True) ⟨fun _ => none, fun _ => none⟩
      sampleVolumeStorage₁ := by
  have hprog : exits ((ApiCall.prog sampleFreeSession sampleInfo 1 (.SsiVolumeCreateFromDisks
      ⟨sampleVolumeParams (lit "data") SSI_Raid5, [2, 3, 4], 0⟩ true)).run
        (Volume.constantExit 0) 0).trace =
      [(.createContainer (.ofLit "Imsm_0") 3 sampleNames, 0), (.listName (.ofLit "Imsm_0"), 0),
        (.examineScan .empty, 0), (.bootFilesystem, 0), (.bootFilesystem, 0),
        (.createVolume (.ofLit "data") 5 (.ofLit "3145728") (.ofLit " --chunk=64") .empty 3
          sampleNames, 0)] := by
    decide +kernel
  refine .turn .start ⟨sampleFreeSession, sampleInfo, 1, _, Volume.constantExit 0, 0,
    shows_sampleFreeSession, trivial, ?_, hprog.symm⟩ ?_
  · rw [MdadmSucceeds, hprog]
    simp
  · refine .step ⟨.ofLit "md127", ⟨fun _ => by simp, fun _ _ => by simp⟩, rfl⟩ (.step rfl
      (.step rfl (.step rfl (.step rfl (.step ?_ (.here _ _))))))
    refine ⟨.ofLit "md127", .ofLit "md126", by decide, fun x hx => if_pos hx, rfl, rfl⟩

/-- The storage reached has the container with its volume. -/
theorem hasContainer_sampleVolumeStorage₁ :
    HasContainer sampleVolumeStorage₁ [(.ofLit "md126", 5)] := by
  refine ⟨fun x => rfl, fun v hv => ?_⟩
  rw [List.mem_singleton.mp hv]
  rfl

/-- The storage reached has the container with its two volumes. -/
theorem hasContainer_sampleVolumeStorage₂ :
    HasContainer sampleVolumeStorage₂ [(.ofLit "md126", 5), (.ofLit "md125", 0)] := by
  refine ⟨fun x => rfl, fun v hv => ?_⟩
  simp only [List.mem_cons, List.not_mem_nil, or_false] at hv
  rcases hv with rfl | rfl <;> rfl

/-- The second volume is reached by one more call. -/
theorem reaches_sampleVolumeStorage₂ :
    ApiReaches sampleFdx8 (fun _ _ _ _ => True) ⟨fun _ => none, fun _ => none⟩
      sampleVolumeStorage₂ := by
  have hprog : exits ((ApiCall.prog (sampleContainerSession [(.ofLit "md126", 5)]) sampleInfo 1
      (.SsiVolumeCreate ⟨sampleVolumeParams (lit "fast") SSI_Raid0, 6⟩)).run
        (Volume.constantExit 0) 0).trace =
      [(.examineScan .empty, 0), (.bootFilesystem, 0), (.bootFilesystem, 0),
        (.createVolume (.ofLit "fast") 0 (.ofLit "2097152") (.ofLit " --chunk=64") .empty 3
          sampleNames, 0)] := by
    decide +kernel
  refine .turn reaches_sampleVolumeStorage₁ ⟨_, sampleInfo, 1, _, Volume.constantExit 0, 0,
    shows_sampleContainerSession hasContainer_sampleVolumeStorage₁, trivial, ?_, hprog.symm⟩ ?_
  · rw [MdadmSucceeds, hprog]
    simp
  · refine .step rfl (.step rfl (.step rfl (.step ?_ (.here _ _))))
    exact ⟨.ofLit "md127", .ofLit "md125", by decide, fun x hx => if_pos hx, rfl, rfl⟩

/-- A volume of level 5 and one of level 0 on three disks: `isRaid0` is what the last one says, and
the FDx8 disk is added to the container. -/
theorem not_onlyRaid0_lastVolume :
    ¬ ∀ (D : Inventory) (S : Storage),
      ApiReaches D (fun _ _ _ _ => True) ⟨fun _ => none, fun _ => none⟩ S → OnlyRaid0 D S := by
  intro hclaim
  have hrule := hclaim sampleFdx8 _ (reaches_sampleAdd reaches_sampleVolumeStorage₂
    hasContainer_sampleVolumeStorage₂ trivial (by decide +kernel))
  have hlevel : (5 : UInt32) = 0 := hrule (.ofLit "md127") (.ofLit "nvme3n1") (.ofLit "md126") 5
    (by decide) (by decide) (by decide)
  exact absurd hlevel (by simp)

/-- The container with one volume, of level 0. -/
def sampleRaid0Storage : Storage :=
  { sampleVolumeStorage₁ with
    volume := fun v => if v = .ofLit "md126" then some (.ofLit "md127", 0) else none }

/-- The FDx8 disk is added to a container whose volume has level 0. -/
theorem onlyRaid0_raid0 :
    OnlyRaid0 sampleFdx8 (sampleRaid0Storage.put (some (.ofLit "md127")) [.ofLit "nvme3n1"]) := by
  have hzero : ∀ w c l, sampleRaid0Storage.volume w = some (c, l) → l = 0 := by
    intro w c l hw
    unfold sampleRaid0Storage at hw
    dsimp only at hw
    split at hw
    next => exact (Prod.mk.inj (Option.some.inj hw)).2.symm
    next => simp at hw
  have hcontainer : HasContainer sampleRaid0Storage [(.ofLit "md126", 0)] := by
    refine ⟨fun x => rfl, fun v hv => ?_⟩
    rw [List.mem_singleton.mp hv]
    rfl
  exact onlyRaid0_of_reaches sampleFdx8 sampleRaid0Storage _ (fun c x v l _ _ hv => hzero v c l hv)
    (reaches_sampleAdd .start hcontainer (fun a disks _ _ w l hw => hzero w _ l hw) (by decide +kernel))

end sample

end Irstessi
