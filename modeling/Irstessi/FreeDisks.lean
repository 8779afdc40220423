import Irstessi.Interface
import Irstessi.Plans

/-!
# Only free disks are handed to mdadm

The commands that put disks into a container, on all ways that the interface takes to them.

* `Command.disksTaken`; `TakesFree`: the disks of a command are free ones out of a list.
* `sparesToAdd_free`, `mem_modifyPlan`: where `addSpare` is behind a command it has checked the disks.
* `calls_createContainer`: the container of new disks.
* **`onlyFreeDisks`**: every call takes free disks of its session.

The result is about what a program may issue at all (`Prog.Calls`), and so about every run in every
environment and in every state of the session. Each function has a lemma that says which disks its
commands take; the lemmas are put together along the calls of the source, from `addSpare` and `create`
up to the six entry points. The check is made by the functions that add disks and not by their callers,
which is why the migrations need no check of their own.
-/

namespace Irstessi

open Interact

/-- The disks that the command writes metadata to. -/
def Command.disksTaken : Command → List Str
  | .add _ devices => devices
  | .createContainer _ _ devices => devices
  | _ => []

/-- A command that stops, renames, grows or reshapes a container or a volume. -/
def Command.IsStructural : Command → Prop
  | .growLevel0 _ _ => True
  | .growLevel10 _ => True
  | .growLevel5 _ _ => True
  | .growChunk5 _ _ => True
  | .raidDevices _ _ => True
  | .growSize _ _ => True
  | .stop _ => True
  | .updateName _ _ _ => True
  | _ => False

/-- The command takes free disks of the list. -/
def TakesFree (disks : List EndDevice) (cmd : Command) : Prop :=
  ∀ name ∈ cmd.disksTaken, ∃ d ∈ disks, d.IsFree ∧ d.m_DevName = name

/-- A command that takes no disk takes free disks only. -/
theorem takesFree_of_nil {disks : List EndDevice} {cmd : Command} (h : cmd.disksTaken = []) :
    TakesFree disks cmd := by
  intro name hname
  rw [h] at hname
  simp at hname

/-- Free among some disks is free among more. -/
theorem TakesFree.mono {disks disks' : List EndDevice} {cmd : Command} (h : TakesFree disks cmd)
    (hsub : disks ⊆ disks') : TakesFree disks' cmd :=
  fun name hname => (h name hname).imp fun _ hd => ⟨hsub hd.1, hd.2⟩

/-- A structural command names a volume or an array and takes no disk itself. -/
theorem disksTaken_of_isStructural {cmd : Command} (h : cmd.IsStructural) : cmd.disksTaken = [] := by
  cases cmd <;> first | rfl | exact h.elim

/-- A command that takes back takes no disk. -/
theorem disksTaken_of_isRollback {cmd : Command} (h : IsRollback cmd) : cmd.disksTaken = [] := by
  cases cmd <;> first | rfl | exact h.elim

/-! ## Spares -/

namespace RaidArray

variable (a : RaidArray) {disks : List EndDevice}

/-- The disks that `addSpare` names are free. -/
theorem sparesToAdd_free {names : List Str} (h : a.sparesToAdd disks = some names) :
    ∀ name ∈ names, ∃ d ∈ disks, d.IsFree ∧ d.m_DevName = name := by
  induction disks generalizing names with
  | nil =>
      obtain rfl := Option.some.inj h
      intro name hname
      simp at hname
  | cons d disks ih =>
      have hrest : ∀ {names}, a.sparesToAdd disks = some names →
          ∀ name ∈ names, ∃ d' ∈ d :: disks, d'.IsFree ∧ d'.m_DevName = name := by
        intro names hnames name hname
        obtain ⟨d', hd', hfree⟩ := ih hnames name hname
        exact ⟨d', List.mem_cons_of_mem _ hd', hfree⟩
      rw [sparesToAdd] at h
      split_ifs at h with hblock hown hcontroller hsystem husage hstate
      · exact hrest h
      · obtain ⟨names', hnames', rfl⟩ := Option.map_eq_some_iff.mp h
        intro name hname
        rcases List.mem_cons.mp hname with rfl | hname
        · refine ⟨d, List.mem_cons_self, ⟨hblock, ?_, ?_, ?_⟩, rfl⟩
          · exact Bool.eq_false_iff.mpr hsystem
          · exact not_not.mp husage
          · exact not_not.mp hstate
        · exact hrest hnames' name hname

/-- The plan of the spares has one command, which adds all of them. -/
theorem mem_sparesPlan {cmd : Command} (h : cmd ∈ a.sparesPlan disks) :
    ∃ names, a.sparesToAdd disks = some names ∧ cmd = .add a.m_DevName names := by
  unfold sparesPlan at h
  split at h
  next name names hspares =>
    exact ⟨_, hspares, List.mem_singleton.mp h⟩
  next => simp at h

/-- The spares that are added are disks of the request, each without an array of its own. -/
theorem takesFree_sparesPlan {cmd : Command} (h : cmd ∈ a.sparesPlan disks) : TakesFree disks cmd := by
  obtain ⟨names, hnames, rfl⟩ := a.mem_sparesPlan h
  exact a.sparesToAdd_free hnames

/-- Growing adds the spares and then changes the structure. -/
theorem mem_growPlan {cmd : Command} (h : cmd ∈ a.growPlan disks) :
    cmd ∈ a.sparesPlan disks ∨ cmd.IsStructural := by
  unfold growPlan at h
  split at h
  next => simp at h
  next =>
    rcases List.mem_append.mp h with h | h
    · exact .inl h
    · obtain rfl := List.mem_singleton.mp h
      exact .inr trivial

/-- Adding spares issues commands on free disks of the request only. -/
theorem calls_addSpare : (a.addSpare disks).Calls (OnShell (TakesFree disks)) := by
  refine (calls_of_follows (a.follows_addSpare disks)).mono (onShell_mono fun cmd hcmd => ?_)
  rcases hcmd with hcmd | hcmd
  · exact a.takesFree_sparesPlan hcmd
  · exact takesFree_of_nil (disksTaken_of_isRollback hcmd)

/-- A container is created from its members, and no other command takes a disk. -/
theorem calls_create (rounds : Nat) :
    (a.create rounds).Calls (OnShell fun cmd => IsWait cmd ∨ ∃ name,
      cmd = .createContainer name a.m_BlockDevices.length (a.m_BlockDevices.map (·.m_DevName))) := by
  apply Prog.calls_bind (a.toRaidDevice.calls_determineDeviceName _ _ _ _)
  intro d hd
  have hmembers : d.m_BlockDevices = a.m_BlockDevices :=
    a.toRaidDevice.members_of_mayReturn hd
  dsimp only
  split
  next => exact trivial
  next =>
    rw [hmembers]
    refine calls_shellEx_bind (.inr ⟨_, rfl⟩) fun result => ?_
    split
    next => exact trivial
    next =>
      exact (calls_waitForContainer _).mono (onShell_mono fun _ hwait => .inl hwait)

end RaidArray

/-! ## Migration -/

namespace Volume

variable (v : Volume) {disks : List EndDevice}

/-- The command changes the volume or its container, or adds spares to the container that the disks
have been checked against. -/
def FromMigration (disks : List EndDevice) (cmd : Command) : Prop :=
  cmd.IsStructural ∨ ∃ pArray, v.m_pParent = some pArray ∧ pArray.canAddEndDevices disks = .ok ∧
    cmd ∈ pArray.sparesPlan disks

/-- A growth is a part of a migration where the disks may be added to the parent. -/
theorem fromMigration_of_growPlan {pArray : RaidArray} {cmd : Command}
    (hparent : v.m_pParent = some pArray) (hadd : pArray.canAddEndDevices disks = .ok)
    (h : cmd ∈ pArray.growPlan disks) : v.FromMigration disks cmd := by
  rcases pArray.mem_growPlan h with h | h
  · exact .inr ⟨pArray, hparent, hadd, h⟩
  · exact .inl h

/-- The commands of the migrations to level 0 are those of a migration. -/
theorem mem_toRaid0Plan {stripSize : SSI_StripSize} {cmd : Command}
    (h : cmd ∈ v.toRaid0Plan stripSize disks) : v.FromMigration disks cmd := by
  have hlevel0 : ∀ {devName ch}, cmd = .growLevel0 devName ch → v.FromMigration disks cmd := by
    rintro devName ch rfl
    exact .inl trivial
  unfold toRaid0Plan at h
  split at h
  next pArray ch hparent _ =>
    split_ifs at h
    · unfold toRaid0From0Plan at h
      split_ifs at h with hdisks hchunk hcheck
      · exact hlevel0 (List.mem_singleton.mp h)
      · simp at h
      · simp at h
      · exact v.fromMigration_of_growPlan hparent (not_not.mp (not_or.mp hcheck).2) h
    · unfold toRaid0From1Plan at h
      split_ifs at h with hcheck hdisks
      · simp at h
      · rcases List.mem_cons.mp h with h | h
        · exact hlevel0 h
        · have hadd := not_not.mp (not_or.mp (not_or.mp hcheck).2).2
          exact v.fromMigration_of_growPlan hparent hadd h
      · exact hlevel0 (List.mem_singleton.mp h)
    · unfold toRaid0From10Plan at h
      split_ifs at h with hcheck hdisks hchunk
      · simp at h
      · rcases List.mem_cons.mp h with h | h
        · exact hlevel0 h
        · exact v.fromMigration_of_growPlan hparent (not_not.mp (not_or.mp hcheck).2) h
      · rcases List.mem_cons.mp h with h | h
        · exact hlevel0 h
        · exact hlevel0 (List.mem_singleton.mp h)
      · exact hlevel0 (List.mem_singleton.mp h)
    · unfold toRaid0From5Plan at h
      split_ifs at h
      · simp at h
      · exact hlevel0 (List.mem_singleton.mp h)
    · simp at h
  next => simp at h

/-- The commands of the migration to level 10 are those of a migration. -/
theorem mem_toRaid10Plan {stripSize : SSI_StripSize} {cmd : Command}
    (h : cmd ∈ v.toRaid10Plan stripSize disks) : v.FromMigration disks cmd := by
  unfold toRaid10Plan at h
  split at h
  next pArray hparent =>
    split_ifs at h with hcheck
    · simp at h
    · simp only [not_or, not_not] at hcheck
      rcases List.mem_append.mp h with h | h
      · exact .inr ⟨pArray, hparent, hcheck.2.2.2.2.1, h⟩
      · obtain rfl := List.mem_singleton.mp h
        exact .inl trivial
  next => simp at h

/-- The commands of the migrations to level 5 are those of a migration. -/
theorem mem_toRaid5Plan {stripSize : SSI_StripSize} {cmd : Command}
    (h : cmd ∈ v.toRaid5Plan stripSize disks) : v.FromMigration disks cmd := by
  unfold toRaid5Plan at h
  split at h
  next pArray ch hparent _ =>
    split_ifs at h
    · unfold toRaid5From0Plan at h
      split_ifs at h with hcheck
      · simp at h
      · rcases List.mem_append.mp h with h | h
        · exact .inr ⟨pArray, hparent, not_not.mp (not_or.mp (not_or.mp hcheck).2).1, h⟩
        · obtain rfl := List.mem_singleton.mp h
          exact .inl trivial
    · unfold toRaid5From10Plan at h
      split_ifs at h
      · simp at h
      · rcases List.mem_cons.mp h with rfl | h
        · exact .inl trivial
        · obtain rfl := List.mem_singleton.mp h
          exact .inl trivial
    · unfold toRaid5From5Plan at h
      split_ifs at h with hdisks hcheck
      · obtain rfl := List.mem_singleton.mp h
        exact .inl trivial
      · simp at h
      · exact v.fromMigration_of_growPlan hparent (not_not.mp (not_or.mp hcheck).2) h
    · simp at h
  next => simp at h

/-- The commands of a migration. -/
theorem mem_modifyPlan {info : SSI_RaidLevelInfo} {stripSize : SSI_StripSize}
    {raidLevel : SSI_RaidLevel} {newSize : UInt64} {cmd : Command}
    (h : cmd ∈ v.modifyPlan info stripSize raidLevel newSize disks) : v.FromMigration disks cmd := by
  unfold modifyPlan at h
  split_ifs at h
  · exact v.mem_toRaid0Plan h
  · exact v.mem_toRaid10Plan h
  · exact v.mem_toRaid5Plan h
  · simp at h
  · simp at h

/-- The commands of a migration take free disks only. -/
theorem takesFree_of_fromMigration {cmd : Command} (h : v.FromMigration disks cmd) :
    TakesFree disks cmd := by
  rcases h with h | ⟨pArray, -, -, h⟩
  · exact takesFree_of_nil (disksTaken_of_isStructural h)
  · exact pArray.takesFree_sparesPlan h

end Volume

/-! ## The calls -/

/-- A program with a plan whose commands take free disks. -/
theorem calls_of_keeps {p : SysProg SSI_Status} {plan : List Command} {disks : List EndDevice}
    (h : Volume.Keeps p plan) (hplan : ∀ cmd ∈ plan, TakesFree disks cmd) :
    p.Calls (OnShell (TakesFree disks)) := by
  obtain ⟨result, h⟩ := h
  refine (calls_of_follows h).mono (onShell_mono fun cmd hcmd => ?_)
  rcases hcmd with hcmd | hcmd
  · exact hplan cmd hcmd
  · exact takesFree_of_nil (disksTaken_of_isRollback hcmd)

/-- Catching an exception makes no further call. -/
theorem calls_attempt {α : Type} {P : SysCall → Prop} {p : SysProg α} (h : p.Calls P) :
    (attempt p).Calls P := by
  refine Prog.calls_catchAll (Prog.calls_bind h fun _ _ => trivial) fun e _ => ?_
  cases e <;> exact trivial

/-- A container is created from free disks. -/
theorem calls_createContainer {container : List EndDevice} {a : RaidArray}
    (h : RaidArray.new.setEndDevices container = .ok a) (rounds : Nat) :
    (a.create rounds).Calls (OnShell (TakesFree container)) := by
  obtain ⟨hfree, rfl⟩ := RaidArray.setEndDevices_eq_ok_iff.mp h
  refine (RaidArray.calls_create _ rounds).mono (onShell_mono fun cmd hcmd => ?_)
  rcases hcmd with hwait | ⟨name, rfl⟩
  · apply takesFree_of_nil
    cases cmd <;> first | rfl | exact hwait.elim
  · intro devName hname
    obtain ⟨d, hd, rfl⟩ := List.mem_map.mp hname
    exact ⟨d, hd, hfree d hd, rfl⟩

section calls

variable (s : CallSession) (info : SSI_RaidLevelInfo) (rounds : Nat)

/-- The disks of the session. -/
def CallSession.disks : List EndDevice := s.endDevices.map fun d => d.2.toEndDevice

/-- The disks that the session lists are its disks. -/
theorem CallSession.mem_disks {d : ListedDevice} (h : s.Lists d) : d.toEndDevice ∈ s.disks := by
  obtain ⟨handle, hd⟩ := h
  exact List.mem_map.mpr ⟨(handle, d), hd, rfl⟩

/-- Disks looked up are disks of the session. -/
theorem CallSession.subset_disks {devices : List ListedDevice} (h : ∀ d ∈ devices, s.Lists d) :
    devices.map (·.toEndDevice) ⊆ s.disks := by
  intro d hd
  obtain ⟨d', hd', rfl⟩ := List.mem_map.mp hd
  exact s.mem_disks (h d' hd')

/-- A program that takes free disks of a list takes free disks of the session. -/
theorem calls_takesFree {α : Type} {p : SysProg α} {disks : List EndDevice}
    (h : p.Calls (OnShell (TakesFree disks))) (hsub : disks ⊆ s.disks) :
    p.Calls (OnShell (TakesFree s.disks)) :=
  h.mono (onShell_mono fun _ hcmd => hcmd.mono hsub)

/-- Making a spare issues commands on this disk only, and on a free one. -/
theorem calls_makeSpare (d : EndDevice) (arrays : List RaidArray) :
    (Controller.makeSpare rounds d arrays).Calls (OnShell (TakesFree [d])) := by
  induction arrays with
  | nil =>
      unfold Controller.makeSpare
      split
      next => exact trivial
      next a hset =>
        apply Prog.calls_bind (calls_attempt (calls_createContainer hset rounds))
        intro r _
        cases r <;> exact trivial
  | cons a arrays ih =>
      apply Prog.calls_bind a.calls_addSpare
      intro status _
      split
      next => exact trivial
      next => exact ih

/-- The entry point takes the one disk that its handle stands for. -/
theorem calls_SsiDiskMarkAsSpare (diskHandle arrayHandle : Nat) :
    (SsiDiskMarkAsSpare s rounds diskHandle arrayHandle).Calls (OnShell (TakesFree s.disks)) := by
  unfold SsiDiskMarkAsSpare
  split
  next => exact trivial
  next d hd =>
    have hsub : [d.toEndDevice] ⊆ s.disks :=
      List.cons_subset.mpr ⟨s.mem_disks (s.lists_of_getEndDevice hd), List.nil_subset _⟩
    split
    next => exact trivial
    split
    next => exact trivial
    split
    next =>
      unfold ListedDevice.makeSpare
      split
      next => exact trivial
      split
      next => exact trivial
      next => exact calls_takesFree s (calls_makeSpare rounds _ _) hsub
    next =>
      split
      next => exact trivial
      next a _ =>
        split
        next => exact trivial
        next => exact calls_takesFree s a.calls_addSpare hsub

/-- The entry point takes disks of the session only, and free ones. -/
theorem calls_SsiAddDisksToArray (arrayHandle : Nat) (diskHandles : Option (List Nat)) :
    (SsiAddDisksToArray s arrayHandle diskHandles).Calls (OnShell (TakesFree s.disks)) := by
  unfold SsiAddDisksToArray
  split
  next => exact trivial
  next pArray container hcheck =>
    have hlists : ∀ d ∈ container, s.Lists d := fun d hd =>
      ((CallSession.addsDisks_of_check hcheck).disks d hd).1
    have hgrow : (pArray.grow (container.map (·.toEndDevice))).Calls
        (OnShell (TakesFree (container.map (·.toEndDevice)))) := by
      apply calls_of_keeps (pArray.follows_grow _)
      intro cmd hcmd
      rcases pArray.mem_growPlan hcmd with h | h
      · exact pArray.takesFree_sparesPlan h
      · exact takesFree_of_nil (disksTaken_of_isStructural h)
    apply Prog.calls_bind (calls_attempt (calls_takesFree s hgrow (s.subset_disks hlists)))
    intro r _
    cases r <;> exact trivial

/-- The target of a rebuild is a free disk of the session. -/
theorem calls_SsiVolumeRebuild (volumeHandle diskHandle : Nat) :
    (SsiVolumeRebuild s volumeHandle diskHandle).Calls (OnShell (TakesFree s.disks)) := by
  unfold SsiVolumeRebuild
  split
  next => exact trivial
  split
  next => exact trivial
  next d hd =>
    split
    next => exact trivial
    split
    next => exact trivial
    split
    next => exact trivial
    unfold ListedVolume.rebuild
    split
    next => exact trivial
    split
    next => exact trivial
    split
    next pArray _ =>
      apply calls_takesFree s pArray.calls_addSpare
      exact List.cons_subset.mpr ⟨s.mem_disks (s.lists_of_getEndDevice hd), List.nil_subset _⟩
    next => exact trivial

/-- A migration takes free disks of the session only. -/
theorem calls_SsiRaidLevelModify (volumeHandle : Nat) (params : SSI_RaidLevelModifyParams) :
    (SsiRaidLevelModify s info volumeHandle params).Calls (OnShell (TakesFree s.disks)) := by
  unfold SsiRaidLevelModify
  split
  next => exact trivial
  next pVolume container hcheck =>
    have hlists : ∀ d ∈ container, s.Lists d := fun d hd =>
      ((CallSession.modifiesVolume_of_check hcheck).disks d hd).1
    refine calls_takesFree s (calls_of_keeps (pVolume.keeps_modify _ _ _ _ _) ?_)
      (s.subset_disks hlists)
    exact fun cmd hcmd => pVolume.takesFree_of_fromMigration (pVolume.mem_modifyPlan hcmd)

/-- A new volume takes no disk into a container. -/
theorem takesFree_of_volumeInContainer {disks : List EndDevice} {cmd : Command}
    (h : Volume.IsInquiry cmd ∨ Volume.IsVolumeCreation cmd) : TakesFree disks cmd := by
  apply takesFree_of_nil
  rcases h with h | h <;> cases cmd <;> first | rfl | exact h.elim

/-- The container is created, then the volume; where that fails the container is removed. -/
theorem calls_createFromEndDevices_of {P : Command → Prop} {container : List EndDevice}
    {params : VolumeParams} (hcontainer : (containerFromDisks rounds container).Calls (OnShell P))
    (hvolume : ∀ pArray, (containerFromDisks rounds container).MayReturn pArray →
      (volumeInContainer info rounds pArray container params).Calls (OnShell P))
    (hstop : ∀ devName, P (.stop devName)) (hclear : ∀ devNames, P (.clearMembers devNames)) :
    (createFromEndDevices s info rounds container params).Calls (OnShell P) := by
  unfold createFromEndDevices
  apply Prog.calls_bind (calls_attempt hcontainer)
  intro r hr
  cases r with
  | error e =>
      refine Prog.calls_bind ((containerStatus_ne_ok e).2.mono ?_) fun _ _ => trivial
      exact onShell_mono fun _ hcmd => hcmd.elim
  | ok pArray =>
      apply Prog.calls_bind (show (Prog.tell _).Calls _ from trivial)
      intro _ _
      apply Prog.calls_bind (calls_attempt (hvolume pArray (mayReturn_attempt.mp hr)))
      intro r _
      cases r with
      | ok v => exact trivial
      | error e =>
          refine Prog.calls_bind (pArray.calls_remove.mono (onShell_mono fun cmd hcmd => ?_))
            fun _ _ => trivial
          rcases hcmd with rfl | rfl
          · exact hstop _
          · exact hclear _

/-- A creation takes the disks that it is given, and free ones. -/
theorem calls_createFromEndDevices (container : List EndDevice) (params : VolumeParams) :
    (createFromEndDevices s info rounds container params).Calls (OnShell (TakesFree container)) := by
  apply calls_createFromEndDevices_of
  · unfold containerFromDisks
    rcases hset : RaidArray.new.setEndDevices container with e | a
    · exact trivial
    · exact calls_createContainer hset rounds
  · intro pArray _
    exact (calls_volumeInContainer _ _ _ _ _).mono (onShell_mono fun _ => takesFree_of_volumeInContainer)
  · exact fun _ => takesFree_of_nil rfl
  · exact fun _ => takesFree_of_nil rfl

/-- A creation from disks takes free disks of the session only. -/
theorem calls_SsiVolumeCreateFromDisks (params : CreateFromDisksParams) (hasHandle : Bool) :
    (SsiVolumeCreateFromDisks s info rounds params hasHandle).Calls (OnShell (TakesFree s.disks)) := by
  unfold SsiVolumeCreateFromDisks
  split
  next => exact trivial
  split
  next => exact trivial
  split
  next => exact trivial
  next devices hdevices =>
    dsimp only
    split
    next => exact trivial
    split
    next => exact trivial
    next =>
      exact calls_takesFree s (calls_createFromEndDevices s info rounds _ _)
        (s.subset_disks (s.lists_of_mem_getEndDevices hdevices))

/-- A creation in an array takes, if any, free disks of the session only. -/
theorem calls_SsiVolumeCreate (params : CreateFromArrayParams) :
    (SsiVolumeCreate s info rounds params).Calls (OnShell (TakesFree s.disks)) := by
  unfold SsiVolumeCreate
  split
  next => exact trivial
  next pArray _ =>
    have hinquiry : ∀ cmd, Volume.IsInquiry cmd → TakesFree s.disks cmd := fun cmd h =>
      takesFree_of_volumeInContainer (.inl h)
    have hcreation : ∀ cmd, Volume.IsVolumeCreation cmd → TakesFree s.disks cmd := fun cmd h =>
      takesFree_of_volumeInContainer (.inr h)
    have hcreate : (createInArray info rounds pArray.toRaidArray params.toVolumeParams).Calls
        (OnShell (TakesFree s.disks)) := by
      refine Prog.calls_bind ((Volume.calls_prepare _ _ _ _ _).mono ?_) fun v _ => ?_
      · exact onShell_mono hinquiry
      apply Prog.calls_bind ((v.calls_create rounds).mono (onShell_mono hcreation))
      intro v' _
      exact Prog.calls_bind (v'.toRaidDevice.calls_update _) fun _ _ => trivial
    refine Prog.calls_catchAll (Prog.calls_bind hcreate fun _ _ => trivial) fun e _ => ?_
    cases e <;> exact trivial

/-- The commands of the trace that take disks into a container name block devices of the session that
are not system disks, are in state normal and are not in use. -/
def CallSession.OnlyFreeDisks (tr : List SysEvent) : Prop :=
  ∀ x ∈ exits tr, ∀ name ∈ x.1.disksTaken, ∃ d ∈ s.disks, d.m_DevName = name ∧
    d.isBlockDevice = true ∧ d.systemDisk = false ∧ d.diskState = .normal ∧ d.diskUsage = .passThru

/-- **Only free disks are handed to mdadm.** Whatever the session, the call and the answers of the
system. Every disk that a command of the call takes is one that the session lists as a block device in
normal state, which is no system disk and is used for nothing. This holds for any answers of the system,
and so whatever commands the call gets to. -/
theorem onlyFreeDisks (call : ApiCall) (env : SysEnv) (i : Nat) :
    s.OnlyFreeDisks ((call.prog s info rounds).run env i).trace := by
  have hcalls : (call.prog s info rounds).Calls (OnShell (TakesFree s.disks)) := by
    cases call with
    | SsiVolumeCreateFromDisks params hasHandle =>
        exact Prog.calls_bind (calls_SsiVolumeCreateFromDisks s info rounds params hasHandle)
          fun _ _ => trivial
    | SsiVolumeCreate params => exact calls_SsiVolumeCreate s info rounds params
    | SsiDiskMarkAsSpare diskHandle arrayHandle =>
        exact calls_SsiDiskMarkAsSpare s rounds diskHandle arrayHandle
    | SsiAddDisksToArray arrayHandle diskHandles =>
        exact calls_SsiAddDisksToArray s arrayHandle diskHandles
    | SsiVolumeRebuild volumeHandle diskHandle =>
        exact calls_SsiVolumeRebuild s volumeHandle diskHandle
    | SsiRaidLevelModify volumeHandle params =>
        exact calls_SsiRaidLevelModify s info volumeHandle params
  intro x hx name hname
  obtain ⟨d, hd, ⟨hblock, hsystem, husage, hstate⟩, hdev⟩ := of_mem_exits hcalls hx name hname
  exact ⟨d, hd, hdev, hblock, hsystem, hstate, husage⟩

end calls

end Irstessi
