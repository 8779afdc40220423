import Irstessi.IssuedCommands
import Irstessi.Migration

/-!
# SATA and VMD disks

A container is meant to have disks of one technology. `Array::canAddEndDevices` compares new disks
with the first member; of the calls only migrations ask it.

* `Unmixed`: no container has both a SATA and a VMD disk.
* `KeepsTechnology`: the condition on a call.
* `unmixed_step`: a call that meets it keeps containers unmixed.
* **`unmixed_of_reaches`**: so does every run of such calls.

The rule is an invariant of the storage, for what disks are there and of which technology each is. A
command that puts disks into a container may break it in two ways: its disks are of both technologies,
or the container has a member of the other one. The condition on a call speaks of the request and of
what the session shows, and since a check with the first member of a container covers all of them as
long as the rule holds, the step lemma uses the invariant itself. Commands that only take away keep it.
-/

namespace Irstessi

open Interact Turns

/-- No container has both a SATA and a VMD disk. -/
def Unmixed (D : Inventory) (S : Storage) : Prop :=
  ∀ c x y, S.container x = some c → S.container y = some c →
    ¬ (D.diskType x = .sata ∧ D.diskType y = .vmd)

/-- Both technologies are among the disks. -/
def Mixed (disks : List EndDevice) : Prop :=
  (∃ d ∈ disks, d.diskType = .sata) ∧ ∃ d ∈ disks, d.diskType = .vmd

/-- The first member is a SATA disk. -/
def RaidArray.FirstSata (a : RaidArray) : Prop :=
  ∃ front, a.m_BlockDevices.head? = some front ∧ front.diskType = .sata

/-- What `canAddEndDevices` has checked of a block device. -/
theorem RaidArray.of_canAddEndDevices (a : RaidArray) {disks : List EndDevice}
    (h : a.canAddEndDevices disks = .ok) {d : EndDevice} (hd : d ∈ disks)
    (hblock : d.isBlockDevice = true) :
    (d.diskType = .sata → a.FirstSata) ∧ (d.diskType = .vmd → ¬ a.FirstSata) := by
  unfold canAddEndDevices at h
  simp only [ite_eq_right_iff, reduceCtorEq, imp_false, List.any_eq_true, not_exists, not_and] at h
  have hchecked := h d hd
  unfold FirstSata
  rcases hfront : a.m_BlockDevices.head? with _ | front
  · simp only [hfront, hblock, isBlockDeviceSata] at hchecked
    simpa using hchecked
  · simp only [hfront, hblock, isBlockDeviceSata, isBlockDeviceVmd] at hchecked
    simpa using hchecked

/-- The disks that come together in a container are not mixed. A migration compares them with the
first member, which has to be a SATA disk if there is one. -/
def KeepsTechnology (s : CallSession) (info : SSI_RaidLevelInfo) (call : ApiCall) : Prop :=
  match call with
  | .SsiRaidLevelModify _ _ => ∀ a disks, s.Adds info call a disks →
      (∃ d ∈ a.m_BlockDevices, d.diskType = .sata) → a.FirstSata ∨ ∀ d ∈ disks, d.diskType ≠ .vmd
  | _ => (∀ a disks, s.Adds info call a disks →
        ¬ Mixed (a.m_BlockDevices ++ disks.map (·.toEndDevice))) ∧
      ∀ disks, s.Collects call disks → ¬ Mixed (disks.map (·.toEndDevice))

/-! ## A call -/

section step

variable {s : CallSession} {info : SSI_RaidLevelInfo} {call : ApiCall} {a : RaidArray}
  {disks : List ListedDevice} {D : Inventory} {S T T' : Storage}

/-- Disks that are put into a container: its disks afterwards decide. -/
theorem unmixed_put {c : Str} {names : List Str} (hT : Unmixed D T)
    (hc : ∀ x y, (x ∈ names ∨ T.container x = some c) → (y ∈ names ∨ T.container y = some c) →
      ¬ (D.diskType x = .sata ∧ D.diskType y = .vmd)) : Unmixed D (T.put (some c) names) := by
  intro c' x y hx hy
  rcases Storage.container_put_eq_some hx with ⟨hxnew, hxc⟩ | ⟨-, hxc⟩
  · obtain rfl := Option.some.inj hxc
    rcases Storage.container_put_eq_some hy with ⟨hynew, -⟩ | ⟨-, hyc⟩
    · exact hc x y (.inl hxnew) (.inl hynew)
    · exact hc x y (.inl hxnew) (.inr hyc)
  · rcases Storage.container_put_eq_some hy with ⟨hynew, hyc⟩ | ⟨-, hyc⟩
    · obtain rfl := Option.some.inj hyc
      exact hc x y (.inr hxc) (.inl hynew)
    · exact hT c' x y hxc hyc

/-- The disks added and the members, where the technologies are compared. -/
theorem not_mixed_of_adds (hshows : Shows D S s) (hS : Unmixed D S)
    (hkeeps : KeepsTechnology s info call) (hadds : s.Adds info call a disks)
    (hblocks : ∀ d ∈ disks, d.isBlockDevice = true) :
    ¬ Mixed (a.m_BlockDevices ++ disks.map (·.toEndDevice)) := by
  cases hadds with
  | SsiRaidLevelModify hcheck hparent hplan =>
      have hadds := CallSession.Adds.SsiRaidLevelModify hcheck hparent hplan
      have harray := showsArray_of_adds hshows hadds
      have hcan : a.canAddEndDevices (disks.map (·.toEndDevice)) = .ok := by
        rcases Volume.mem_modifyPlan _ hplan with h | ⟨a', hparent', hcan, -⟩
        · exact h.elim
        · obtain rfl := Option.some.inj (hparent.symm.trans hparent')
          exact hcan
      -- the members are not mixed, and the disks have the technology of the first
      have hmembers : ∀ d ∈ a.m_BlockDevices, ∀ d' ∈ a.m_BlockDevices,
          ¬ (d.diskType = .sata ∧ d'.diskType = .vmd) := by
        intro d hd d' hd' htypes
        rw [(harray.describes d hd).diskType, (harray.describes d' hd').diskType] at htypes
        exact hS _ _ _ ((harray.members _).mpr ⟨d, hd, rfl⟩) ((harray.members _).mpr ⟨d', hd', rfl⟩)
          htypes
      rintro ⟨⟨x, hx, hsata⟩, y, hy, hvmd⟩
      rcases List.mem_append.mp hx with hx | hx
      · rcases List.mem_append.mp hy with hy | hy
        · exact hmembers x hx y hy ⟨hsata, hvmd⟩
        · obtain ⟨d, hd, rfl⟩ := List.mem_map.mp hy
          rcases hkeeps _ _ hadds ⟨x, hx, hsata⟩ with hfirst | hnone
          · exact (a.of_canAddEndDevices hcan hy (hblocks d hd)).2 hvmd hfirst
          · exact hnone d hd hvmd
      · obtain ⟨d, hd, rfl⟩ := List.mem_map.mp hx
        have hfirst := (a.of_canAddEndDevices hcan hx (hblocks d hd)).1 hsata
        rcases List.mem_append.mp hy with hy | hy
        · obtain ⟨front, hfront, hfrontSata⟩ := hfirst
          exact hmembers front (List.mem_of_head? hfront) y hy ⟨hfrontSata, hvmd⟩
        · obtain ⟨d', hd', rfl⟩ := List.mem_map.mp hy
          exact (a.of_canAddEndDevices hcan hy (hblocks d' hd')).2 hvmd hfirst
  | SsiDiskMarkAsSpare hdisk hhandle harray hother hplan =>
      exact hkeeps.1 _ _ (.SsiDiskMarkAsSpare hdisk hhandle harray hother hplan)
  | anyArray hdisk hblock hcontroller htaker hplan =>
      exact hkeeps.1 _ _ (.anyArray hdisk hblock hcontroller htaker hplan)
  | SsiAddDisksToArray hcheck hidle hplan =>
      exact hkeeps.1 _ _ (.SsiAddDisksToArray hcheck hidle hplan)
  | SsiVolumeRebuild hvolume hdisk hfdx8 hstate hsector hlevel hsize hparent hplan =>
      exact hkeeps.1 _ _
        (.SsiVolumeRebuild hvolume hdisk hfdx8 hstate hsector hlevel hsize hparent hplan)

/-- The disk is a member of the container or one of those that are added. -/
def Joined (a : RaidArray) (disks : List ListedDevice) (x : Str) : Prop :=
  ∃ d ∈ a.m_BlockDevices ++ disks.map (·.toEndDevice), d.m_DevName = x

/-- While the call goes on: the containers are unmixed, and the container that it adds disks to has
its members and these disks at most. -/
structure AddingTo (D : Inventory) (s : CallSession) (info : SSI_RaidLevelInfo) (call : ApiCall)
    (T : Storage) : Prop where
  unmixed : Unmixed D T
  joined : ∀ a disks, s.Adds info call a disks →
    ∀ x, T.container x = some a.m_DevName → Joined a disks x

/-- Members and disks to be added that are not mixed, by their names. -/
theorem not_mixed_of_joined (hshows : Shows D S s) (hadds : s.Adds info call a disks)
    (hmixed : ¬ Mixed (a.m_BlockDevices ++ disks.map (·.toEndDevice))) {x y : Str}
    (hx : Joined a disks x) (hy : Joined a disks y) :
    ¬ (D.diskType x = .sata ∧ D.diskType y = .vmd) := by
  have hdescribes : ∀ d ∈ a.m_BlockDevices ++ disks.map (·.toEndDevice),
      d.diskType = D.diskType d.m_DevName := by
    intro d hd
    rcases List.mem_append.mp hd with hd | hd
    · exact ((showsArray_of_adds hshows hadds).describes d hd).diskType
    · obtain ⟨d', hd', rfl⟩ := List.mem_map.mp hd
      exact (hshows.disks d' (lists_of_adds hadds d' hd')).diskType
  obtain ⟨d, hd, rfl⟩ := hx
  obtain ⟨d', hd', rfl⟩ := hy
  rintro ⟨hsata, hvmd⟩
  rw [← hdescribes d hd] at hsata
  rw [← hdescribes d' hd'] at hvmd
  exact hmixed ⟨⟨d, hd, hsata⟩, d', hd', hvmd⟩

/-- Disks that may be added to an array may be added to it in every state of the storage in which the
containers are among those of the first. -/
theorem addingTo_of_container (h : AddingTo D s info call T)
    (hcontainer : ∀ x c, T'.container x = some c → T.container x = some c) :
    AddingTo D s info call T' :=
  ⟨fun c x y hx hy => h.unmixed c x y (hcontainer x c hx) (hcontainer y c hy),
    fun a disks hadds x hx => h.joined a disks hadds x (hcontainer x _ hx)⟩

/-- What a command of the call keeps. -/
theorem addingTo_step (hshows : Shows D S s) (hS : Unmixed D S) (hkeeps : KeepsTechnology s info call)
    {cmd : Command} (hcmd : Issued s info call cmd) (h : AddingTo D s info call T)
    (heffect : cmd.Effect T T') : AddingTo D s info call T' := by
  have hnone : cmd.disksTaken = [] → AddingTo D s info call T' := fun hcmd =>
    addingTo_of_container h fun x c => heffect.container_of_disksTaken hcmd
  cases hcmd with
  | shrinks hcmd =>
      apply hnone
      cases cmd <;> first | rfl | exact hcmd.elim
  | volume _ _ hcmd =>
      obtain ⟨-, _, _, _, _, _, rfl⟩ := hcmd
      exact hnone rfl
  | migration _ _ hcmd => exact hnone (disksTaken_of_isStructural hcmd)
  | @container _ disks' _ _ hcollects =>
      obtain ⟨c, hunused, rfl⟩ := heffect
      refine ⟨unmixed_put h.unmixed fun x y hx hy => ?_,
        fun a disks hadds => absurd hadds (not_adds_of_collects hcollects)⟩
      -- the new container has no other disks
      obtain ⟨d, hd, rfl⟩ := List.mem_map.mp (hx.resolve_right (hunused.1 x))
      obtain ⟨d', hd', rfl⟩ := List.mem_map.mp (hy.resolve_right (hunused.1 y))
      have hlists := lists_of_collects hcollects
      rintro ⟨hsata, hvmd⟩
      rw [← (hshows.disks d (hlists d hd)).diskType] at hsata
      rw [← (hshows.disks d' (hlists d' hd')).diskType] at hvmd
      have hmixed : Mixed (disks'.map (·.toEndDevice)) :=
        ⟨⟨_, List.mem_map_of_mem hd, hsata⟩, _, List.mem_map_of_mem hd', hvmd⟩
      cases hcollects with
      | SsiVolumeCreateFromDisks hdisks hsector hsource hfree =>
          exact hkeeps.2 _ (.SsiVolumeCreateFromDisks hdisks hsector hsource hfree) hmixed
      | SsiDiskMarkAsSpare hdisk hcontroller htaker hfree =>
          exact hkeeps.2 _ (.SsiDiskMarkAsSpare hdisk hcontroller htaker hfree) hmixed
  | @add _ a disks names hadds hnames =>
      obtain rfl : T' = _ := heffect
      have hblocks := a.forall_isBlockDevice_of_sparesToAdd hnames
      have hnew : ∀ x ∈ names, Joined a disks x := fun x hx => by
        obtain ⟨d, hd, -, rfl⟩ := a.sparesToAdd_free hnames x hx
        exact ⟨d, List.mem_append_right _ hd, rfl⟩
      have hmixed := not_mixed_of_adds hshows hS hkeeps hadds fun d hd =>
        hblocks _ (List.mem_map_of_mem hd)
      refine ⟨unmixed_put h.unmixed fun x y hx hy => ?_, fun a' disks' hadds' x hx => ?_⟩
      · refine not_mixed_of_joined hshows hadds hmixed ?_ ?_
        · exact hx.elim (hnew x) (h.joined _ _ hadds x)
        · exact hy.elim (hnew y) (h.joined _ _ hadds y)
      · obtain ⟨rfl, rfl⟩ := adds_unique hadds hadds'
        rcases Storage.container_put_eq_some hx with ⟨hx, -⟩ | ⟨-, hx⟩
        · exact hnew x hx
        · exact h.joined _ _ hadds x hx

/-- A call that meets the condition keeps the containers unmixed at every point. -/
theorem unmixed_step (hshows : Shows D S s) (hS : Unmixed D S) (hkeeps : KeepsTechnology s info call)
    {commands : List (Command × UInt8)} (hcommands : ∀ x ∈ commands, Issued s info call x.1)
    (hwithin : Within exitEffect S commands T) : Unmixed D T := by
  refine (hwithin.invariant (I := AddingTo D s info call) (fun x hx T T' h heffect => ?_) ?_).unmixed
  · unfold exitEffect at heffect
    split at heffect
    next => exact addingTo_step hshows hS hkeeps (hcommands x hx) h heffect
    next =>
      rw [heffect]
      exact h
  · refine ⟨hS, fun a disks hadds x hx => ?_⟩
    obtain ⟨d, hd, hname⟩ := ((showsArray_of_adds hshows hadds).members x).mp hx
    exact ⟨d, List.mem_append_left _ hd, hname⟩

end step

/-! ## Runs -/

/-- **Containers stay unmixed** in every run of calls that meet the condition. The condition of a call
is asked of the storage and of the session at the time of the call; nothing is asked of how many of its
commands are issued, of which of them succeed, or of who makes the calls. -/
theorem unmixed_of_reaches (D : Inventory) (S₀ S : Storage) (h₀ : Unmixed D S₀)
    (h : ApiReaches D (fun _ => KeepsTechnology) S₀ S) : Unmixed D S := by
  refine h.invariant (fun S commands T hS hturn hwithin => ?_) h₀
  obtain ⟨s, info, rounds, call, env, i, hshows, hkeeps, hzero, rfl⟩ := hturn
  exact unmixed_step hshows hS hkeeps (issued_of_call call env i hzero) hwithin

section sample

/-- The disks of a container are all SATA disks or all VMD disks. -/
def OneTechnology (D : Inventory) (S : Storage) : Prop :=
  ∀ c, (∀ x, S.container x = some c → D.diskType x = .sata) ∨
    ∀ x, S.container x = some c → D.diskType x = .vmd

/-- Disks whose names begin with `s` are SATA disks, the others VMD disks. -/
def sampleTypes : Inventory :=
  ⟨fun x => if x.m_buffer.head? = some 115 then .sata else .vmd, fun _ => false⟩

/-- A disk of the inventory. -/
def sampleTyped (devName : Str) (usage : SSI_DiskUsage) : EndDevice :=
  { sampleDisk devName usage with diskType := sampleTypes.diskType devName, array := none }

/-- A container with the SATA disk `sda`. -/
def sampleSataStorage : Storage :=
  ⟨fun x => if x = .ofLit "sda" then some (.ofLit "md127") else none, fun _ => none⟩

/-- The container with a free SATA disk and a free VMD disk. -/
def sampleSataSession : CallSession :=
  let listed (devName : String) (usage : SSI_DiskUsage) : ListedDevice :=
    ⟨sampleTyped (.ofLit devName) usage, 1000000, 512, false, []⟩
  let sda := listed "sda" .arrayMember
  ⟨[(2, sda), (3, listed "sdb" .passThru), (4, listed "nvme0n1" .passThru)],
    [(6, ⟨⟨⟨.empty, .ofLit "md127", .ofLit "imsm0", .ofLit "aa:1", [sda.toEndDevice]⟩, 1, false⟩, [],
      [sda], rfl⟩)], [], 7⟩

/-- The sample session lists the sample storage as a discovery would, so that the witnesses below start
from a state that can be reached. -/
theorem shows_sampleSataSession : Shows sampleTypes sampleSataStorage sampleSataSession := by
  have hdisks : ∀ d, sampleSataSession.Lists d →
      (∃ devName usage, d.toEndDevice = sampleTyped devName usage ∧
        (usage = .passThru → devName ≠ .ofLit "sda")) ∧ d.controllerArrays = [] := by
    rintro d ⟨handle, hd⟩
    simp only [sampleSataSession, List.mem_cons, Prod.mk.injEq, List.not_mem_nil, or_false] at hd
    rcases hd with ⟨-, rfl⟩ | ⟨-, rfl⟩ | ⟨-, rfl⟩
    · exact ⟨⟨_, _, rfl, nofun⟩, rfl⟩
    · exact ⟨⟨_, _, rfl, fun _ => by decide⟩, rfl⟩
    · exact ⟨⟨_, _, rfl, fun _ => by decide⟩, rfl⟩
  refine ⟨fun d hd => ?_, fun d hd hfree => ?_, fun d hd a ha => ?_, fun handle a ha => ?_,
    fun handle v hv => nomatch hv⟩
  · obtain ⟨⟨devName, usage, hd, -⟩, -⟩ := hdisks d hd
    rw [hd]
    exact ⟨rfl, rfl⟩
  · obtain ⟨⟨devName, usage, hd, hname⟩, -⟩ := hdisks d hd
    rw [hd] at hfree ⊢
    exact if_neg (hname hfree)
  · rw [(hdisks d hd).2] at ha
    simp at ha
  · have ha := mem_of_findHandle ha
    simp only [sampleSataSession, List.mem_singleton, Prod.mk.injEq] at ha
    obtain ⟨-, rfl⟩ := ha
    refine ⟨fun x => ?_, fun d hd => ?_⟩
    · simp [sampleSataStorage, sampleTyped, sampleDisk, eq_comm]
    · rw [List.mem_singleton.mp hd]
      exact ⟨rfl, rfl⟩

/-- The disk `devName` is added to the container. -/
theorem reaches_sampleSataSession {Meets : Storage → CallSession → SSI_RaidLevelInfo → ApiCall → Prop}
    (handle : Nat) (devName : Str)
    (hmeets : Meets sampleSataStorage sampleSataSession sampleInfo (.SsiAddDisksToArray 6 (some [handle])))
    (hexits : exits ((SsiAddDisksToArray sampleSataSession 6 (some [handle])).run
      (Volume.constantExit 0) 0).trace =
        [(.add (.ofLit "md127") [devName], 0), (.raidDevices (.ofLit "md127") 2, 0)]) :
    ApiReaches sampleTypes Meets sampleSataStorage
      (sampleSataStorage.put (some (.ofLit "md127")) [devName]) := by
  refine .turn .start ⟨sampleSataSession, sampleInfo, 1, _, Volume.constantExit 0, 0,
    shows_sampleSataSession, hmeets, ?_, rfl⟩ ?_
  · intro x hx _
    rw [ApiCall.prog, hexits] at hx
    simp only [List.mem_cons, List.not_mem_nil, or_false] at hx
    rcases hx with rfl | rfl <;> rfl
  · rw [ApiCall.prog, hexits]
    exact .step rfl (.here _ _)

/-- A VMD disk is added to the container with the SATA disk. -/
theorem not_unmixed_vmd :
    ¬ ∀ (D : Inventory) (S₀ S : Storage), OneTechnology D S₀ →
      ApiReaches D (fun _ _ _ _ => True) S₀ S → Unmixed D S := by
  intro hclaim
  have hone : OneTechnology sampleTypes sampleSataStorage := by
    refine fun c => .inl fun x hx => ?_
    unfold sampleSataStorage at hx
    dsimp only at hx
    split at hx
    next h =>
      rw [h]
      rfl
    next => simp at hx
  have hreaches := hclaim sampleTypes sampleSataStorage _ hone
    (reaches_sampleSataSession 4 (.ofLit "nvme0n1") trivial (by decide +kernel))
  exact hreaches (.ofLit "md127") (.ofLit "sda") (.ofLit "nvme0n1") (by decide) (by decide)
    ⟨by decide, by decide⟩

/-- A SATA disk is added to it. -/
theorem unmixed_sda_sdb :
    Unmixed sampleTypes (sampleSataStorage.put (some (.ofLit "md127")) [.ofLit "sdb"]) := by
  refine unmixed_of_reaches sampleTypes sampleSataStorage _ (fun c x y hx hy htypes => ?_)
    (reaches_sampleSataSession 3 (.ofLit "sdb") ⟨fun a disks hadds => ?_, fun disks h => nomatch h⟩
      (by decide +kernel))
  · unfold sampleSataStorage at hy
    dsimp only at hy
    split at hy
    next h =>
      rw [h] at htypes
      exact absurd htypes.2 (by decide)
    next => simp at hy
  · cases hadds with
    | SsiAddDisksToArray hcheck =>
        cases hcheck
        rintro ⟨-, d, hd, hvmd⟩
        simp only [List.map_cons, List.map_nil, List.cons_append, List.nil_append, List.mem_cons,
          List.not_mem_nil, or_false] at hd
        rcases hd with rfl | rfl
        · exact absurd hvmd (by decide)
        · exact absurd hvmd (by decide)

end sample

end Irstessi
