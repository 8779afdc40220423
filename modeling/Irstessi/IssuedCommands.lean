import Irstessi.Storage

/-!
# The commands of the calls

What every call does to containers and volumes, read off its arguments and its session.

* `Settled`, `settled_of_settings`: the members and the level of a new volume.
* `CallSession.Builds`: the disks that a call makes a volume of.
* `Issued`: the commands of a call that do not only shrink the storage.
* **`issued_of_call`**: a call whose mdadm commands succeed issues no others.

For each call there is a bound on what it may issue: the commands of creations, growth and migrations on
the disks and volumes that the call names, those of the cleaning-up, those of the wait and inquiries.
The bound is proved from the programs by the rules of `Prog.Calls`, function by function, along the same
path on which `FreeDisks` follows the disks. Only the marking of a spare needs more: it goes on to the
next array where mdadm fails, so that what it issues is bounded where the commands succeed. `Storage`
turns the bound into steps of the storage.
-/

namespace Irstessi

open Interact

/-! ## The volume that is created -/

namespace Volume

/-- The new volume has the members, and level 0 if RAID0 is asked for. -/
structure Settled (container : List EndDevice) (params : VolumeParams) (v : Volume) : Prop where
  members : v.m_BlockDevices = container
  level : params.raidLevel = SSI_Raid0 → v.m_RaidLevel = 0

/-- Members and level are the same. -/
def SameMembers (v v' : Volume) : Prop :=
  v'.m_BlockDevices = v.m_BlockDevices ∧ v'.m_RaidLevel = v.m_RaidLevel

section setters

variable {v v' : Volume}

/-- The members become the disks of the request. -/
theorem members_setVolumeEndDevices {container : List EndDevice}
    (h : v.setVolumeEndDevices container = .ok v') : v'.m_BlockDevices = container := by
  have hgo : ∀ (d d' : RaidDevice), RaidDevice.setEndDevices.go d container = (none, d') →
      d'.m_BlockDevices = d.m_BlockDevices ++ container := by
    clear h
    induction container with
    | nil =>
        intro d d' h
        obtain ⟨-, rfl⟩ := Prod.mk.inj h
        rw [List.append_nil]
    | cons device rest ih =>
        intro d d' h
        unfold RaidDevice.setEndDevices.go at h
        split_ifs at h
        · simp at h
        · simp at h
        · simp at h
        · rw [ih _ _ h, List.append_assoc, List.singleton_append]
  unfold setVolumeEndDevices at h
  split at h
  next d hset =>
    obtain rfl := Except.ok.inj h
    exact (hgo _ _ hset).trans (List.nil_append _)
  next => simp at h

/-- The size is set without touching members or level. -/
theorem sameMembers_setComponentSize {info : SSI_RaidLevelInfo} {volumeSize diskCount : UInt64}
    {level : SSI_RaidLevel} (h : v.setComponentSize info volumeSize diskCount level = .ok v') :
    v.SameMembers v' := by
  unfold setComponentSize at h
  split at h
  next => simp at h
  next =>
    simp only at h
    split_ifs at h
    split at h
    next =>
      obtain rfl := Except.ok.inj h
      exact ⟨rfl, rfl⟩
    next => simp at h

/-- The name is set without touching members or level. -/
theorem sameMembers_setVolumeName {name : Str} (h : v.setVolumeName name = .ok v') :
    v.SameMembers v' := by
  unfold setVolumeName RaidDevice.setName at h
  split_ifs at h
  cases h
  exact ⟨rfl, rfl⟩

/-- The strip size is set without touching members or level. -/
theorem sameMembers_setStripSize {stripSize : SSI_StripSize}
    (h : v.setStripSize stripSize = .ok v') : v.SameMembers v' := by
  unfold setStripSize at h
  split at h
  next =>
    obtain rfl := Except.ok.inj h
    exact ⟨rfl, rfl⟩
  next => simp at h

/-- The policy is set without touching members or level. -/
theorem sameMembers_setRwhPolicy {policy : SSI_RwhPolicy} (h : v.setRwhPolicy policy = .ok v') :
    v.SameMembers v' := by
  unfold setRwhPolicy at h
  split_ifs at h
  obtain rfl := Except.ok.inj h
  exact ⟨rfl, rfl⟩

/-- The level is set without touching the members, and level 0 is set as 0. -/
theorem members_setRaidLevel {level : SSI_RaidLevel} (h : v.setRaidLevel level = .ok v') :
    v'.m_BlockDevices = v.m_BlockDevices ∧ (level = SSI_Raid0 → v'.m_RaidLevel = 0) := by
  unfold setRaidLevel at h
  split_ifs at h with h0 <;> obtain rfl := Except.ok.inj h
  · exact ⟨rfl, fun _ => rfl⟩
  all_goals exact ⟨rfl, fun hlevel => absurd hlevel h0⟩

/-- Either caller gives the volume the disks and the level. -/
theorem settled_of_settings {caller : Caller} {info : SSI_RaidLevelInfo} {pArray : RaidArray}
    {container : List EndDevice} {params : VolumeParams}
    (h : (settings caller info pArray container params v).MayReturn v') :
    Settled container params v' := by
  cases caller with
  | SsiVolumeCreateFromDisks =>
      obtain ⟨v₁, h₁, h⟩ := Prog.mayReturn_bind.mp h
      obtain ⟨v₂, h₂, h⟩ := Prog.mayReturn_bind.mp h
      obtain ⟨v₃, h₃, h⟩ := Prog.mayReturn_bind.mp h
      obtain ⟨v₄, h₄, h⟩ := Prog.mayReturn_bind.mp h
      rw [mayReturn_orRaise] at h₁ h₂ h₃ h₄
      have hlast : v₄.SameMembers v' := by
        dsimp only at h
        split at h
        next =>
          obtain ⟨v₅, h₅, h⟩ := Prog.mayReturn_bind.mp h
          rw [mayReturn_orRaise] at h₅ h
          have hstrip := sameMembers_setStripSize h₅
          have hpolicy := sameMembers_setRwhPolicy h
          exact ⟨hpolicy.1.trans hstrip.1, hpolicy.2.trans hstrip.2⟩
        next => exact sameMembers_setRwhPolicy (mayReturn_orRaise.mp h)
      obtain ⟨hmembers, hlevel⟩ := members_setRaidLevel h₄
      refine ⟨?_, fun h0 => hlast.2.trans (hlevel h0)⟩
      rw [hlast.1, hmembers, (sameMembers_setVolumeName h₃).1, (sameMembers_setComponentSize h₂).1,
        members_setVolumeEndDevices h₁]
  | SsiVolumeCreate =>
      obtain ⟨v₁, h₁, h⟩ := Prog.mayReturn_bind.mp h
      obtain ⟨v₂, h₂, h⟩ := Prog.mayReturn_bind.mp h
      obtain ⟨v₃, h₃, h⟩ := Prog.mayReturn_bind.mp h
      obtain ⟨v₄, h₄, h⟩ := Prog.mayReturn_bind.mp h
      obtain ⟨v₅, h₅, h⟩ := Prog.mayReturn_bind.mp h
      rw [mayReturn_orRaise] at h₁ h₂ h₃ h₄ h₅ h
      have hpolicy := sameMembers_setRwhPolicy h
      obtain ⟨hmembers, hlevel⟩ := members_setRaidLevel h₅
      refine ⟨?_, fun h0 => hpolicy.2.trans (hlevel h0)⟩
      rw [hpolicy.1, hmembers, (sameMembers_setStripSize h₄).1, (sameMembers_setVolumeName h₃).1,
        (sameMembers_setComponentSize h₂).1, members_setVolumeEndDevices h₁]

/-- A volume that gets a name keeps members and level. -/
theorem Named.sameMembers (h : v.Named v') : v.SameMembers v' := by
  unfold Named at h
  split at h
  next =>
    obtain ⟨n, rfl⟩ := h
    exact ⟨rfl, rfl⟩
  next =>
    obtain rfl := h
    exact ⟨rfl, rfl⟩

/-- The command creates a volume of the level on the disks; a level other than 0 without FDx8
disks. -/
def CreatesOn (container : List EndDevice) (level : UInt32) (cmd : Command) : Prop :=
  (level ≠ 0 → ∀ d ∈ container, d.fultondalex8 = false) ∧ ∃ name size chunk rwhPolicy n,
    cmd = .createVolume name level.toNat size chunk rwhPolicy n (container.map (·.m_DevName))

/-- The create command is on the members and for the level of the volume, unless the board's rule
refuses it. -/
theorem createsOn_createCommand {rwhPolicy : Str}
    (h : ¬ (v.m_RaidLevel ≠ 0 ∧ v.m_BlockDevices.any EndDevice.fultondalex8 = true)) :
    CreatesOn v.m_BlockDevices v.m_RaidLevel (v.createCommand rwhPolicy) := by
  refine ⟨fun hlevel d hd => ?_, _, _, _, _, _, rfl⟩
  rw [Bool.eq_false_iff]
  exact fun hfdx8 => h ⟨hlevel, List.any_eq_true.mpr ⟨d, hd, hfdx8⟩⟩

/-- Creation issues creation commands of the volume's level on its members only. -/
theorem calls_create_on (rounds : Nat) :
    (v.create rounds).Calls (OnShell (CreatesOn v.m_BlockDevices v.m_RaidLevel)) := by
  apply v.calls_create_of rounds
  intro v' hnamed hguard rwhPolicy _
  obtain ⟨hmembers, hlevel⟩ := hnamed.sameMembers
  rw [← hmembers, ← hlevel]
  exact createsOn_createCommand hguard

end setters

end Volume

/-! ## The commands of a call -/

/-- The call gets to the creation of a volume on the disks, as far as its parameters decide. -/
inductive CallSession.Builds (s : CallSession) (info : SSI_RaidLevelInfo) :
    ApiCall → List EndDevice → VolumeParams → Prop
  | SsiVolumeCreateFromDisks {params : CreateFromDisksParams} {disks : List ListedDevice}
      (hdisks : s.Collects (.SsiVolumeCreateFromDisks params true) disks) :
      Builds s info (.SsiVolumeCreateFromDisks params true) (disks.map (·.toEndDevice))
        params.toVolumeParams
  | SsiVolumeCreate {params : CreateFromArrayParams} {a : ListedArray} {v v' : Volume}
      (harray : s.getArray params.arrayHandle = some a)
      (hsettings : (Volume.settings .SsiVolumeCreate info a.toRaidArray
        (CallSession.disksForVolume a.toRaidArray) params.toVolumeParams v).MayReturn v') :
      Builds s info (.SsiVolumeCreate params) (CallSession.disksForVolume a.toRaidArray)
        params.toVolumeParams

/-- The commands that a call issues: those that only shrink the storage, and those that add disks,
make a container, make a volume, or migrate a volume. -/
inductive Issued (s : CallSession) (info : SSI_RaidLevelInfo) : ApiCall → Command → Prop
  | shrinks {call : ApiCall} {cmd : Command} (hcmd : cmd.OnlyShrinks) : Issued s info call cmd
  | add {call : ApiCall} {a : RaidArray} {disks : List ListedDevice} {names : List Str}
      (hadds : s.Adds info call a disks)
      (hnames : a.sparesToAdd (disks.map (·.toEndDevice)) = some names) :
      Issued s info call (.add a.m_DevName names)
  | container {call : ApiCall} {disks : List ListedDevice} {name : Str} {n : Nat}
      (hdisks : s.Collects call disks) :
      Issued s info call (.createContainer name n (disks.map (·.m_DevName)))
  | volume {call : ApiCall} {container : List EndDevice} {params : VolumeParams} {level : UInt32}
      {cmd : Command} (hbuilds : s.Builds info call container params)
      (hlevel : params.raidLevel = SSI_Raid0 → level = 0)
      (hcmd : Volume.CreatesOn container level cmd) : Issued s info call cmd
  | migration {volumeHandle : Nat} {params : SSI_RaidLevelModifyParams} {v : ListedVolume}
      {disks : List ListedDevice} {cmd : Command}
      (hcheck : s.checkModify volumeHandle params = .ok (v, disks))
      (hplan : cmd ∈ v.modifyPlan info params.newStripSize params.newRaidLevel
        params.newSizeInBytes (disks.map (·.toEndDevice)))
      (hcmd : cmd.IsStructural) : Issued s info (.SsiRaidLevelModify volumeHandle params) cmd

section calls

variable {s : CallSession} {info : SSI_RaidLevelInfo} {rounds : Nat} {call : ApiCall}

/-- A command that takes back may be issued by every call. -/
theorem issued_of_isRollback {cmd : Command} (h : IsRollback cmd) : Issued s info call cmd := by
  cases cmd <;> first | exact .shrinks trivial | exact h.elim

/-- A command of the wait may be issued by every call. -/
theorem issued_of_isWait {cmd : Command} (h : RaidArray.IsWait cmd) : Issued s info call cmd := by
  cases cmd <;> first | exact .shrinks trivial | exact h.elim

/-- An inquiry may be issued by every call. -/
theorem issued_of_isInquiry {cmd : Command} (h : Volume.IsInquiry cmd) : Issued s info call cmd := by
  cases cmd <;> first | exact .shrinks trivial | exact h.elim

/-- A container of free disks. -/
theorem calls_create_issued {disks : List ListedDevice} {a : RaidArray}
    (hset : RaidArray.new.setEndDevices (disks.map (·.toEndDevice)) = .ok a)
    (hdisks : (∀ d ∈ disks, d.toEndDevice.IsFree) → s.Collects call disks) :
    (a.create rounds).Calls (OnShell (Issued s info call)) := by
  obtain ⟨hfree, rfl⟩ := RaidArray.setEndDevices_eq_ok_iff.mp hset
  refine (RaidArray.calls_create _ rounds).mono (onShell_mono fun cmd hcmd => ?_)
  rcases hcmd with hwait | ⟨name, rfl⟩
  · exact issued_of_isWait hwait
  · have hcollects := hdisks fun d hd => hfree _ (List.mem_map_of_mem hd)
    show Issued s info call (.createContainer name _ ((disks.map (·.toEndDevice)).map (·.m_DevName)))
    rw [List.map_map]
    exact .container hcollects

/-- The adding of spares, where it is not refused. -/
theorem issued_of_sparesPlan {a : RaidArray} (disks : List ListedDevice) {cmd : Command}
    (hcmd : cmd ∈ a.sparesPlan (disks.map (·.toEndDevice)))
    (hadds : a.sparesPlan (disks.map (·.toEndDevice)) ≠ [] → s.Adds info call a disks) :
    Issued s info call cmd := by
  have hplan := List.ne_nil_of_mem hcmd
  obtain ⟨names, hnames, rfl⟩ := a.mem_sparesPlan hcmd
  exact .add (hadds hplan) hnames

/-! ### New volumes -/

/-- A disk that is refused ends the first step with its exception. -/
theorem containerFromDisks_of_error {container : List EndDevice} {e : Exception}
    (h : RaidArray.new.setEndDevices container = .error e) :
    containerFromDisks rounds container = raise e := by
  unfold containerFromDisks
  rw [h]
  rfl

/-- Where no disk is refused the first step is the creation of the array. -/
theorem containerFromDisks_of_ok {container : List EndDevice} {a : RaidArray}
    (h : RaidArray.new.setEndDevices container = .ok a) :
    containerFromDisks rounds container = a.create rounds := by
  unfold containerFromDisks
  rw [h]
  rfl

/-- A creation from disks that are collected issues commands of such a call only. -/
theorem calls_createFromEndDevices_issued {params : CreateFromDisksParams}
    {disks : List ListedDevice}
    (hdisks : (∀ d ∈ disks, d.toEndDevice.IsFree) →
      s.Collects (.SsiVolumeCreateFromDisks params true) disks) :
    (createFromEndDevices s info rounds (disks.map (·.toEndDevice)) params.toVolumeParams).Calls
      (OnShell (Issued s info (.SsiVolumeCreateFromDisks params true))) := by
  rcases hset : RaidArray.new.setEndDevices (disks.map (·.toEndDevice)) with e | a
  · -- no container, no volume
    have hraises : containerFromDisks rounds (disks.map (·.toEndDevice)) = raise e :=
      containerFromDisks_of_error hset
    apply calls_createFromEndDevices_of
    · rw [hraises]
      exact trivial
    · intro pArray hmade
      rw [hraises] at hmade
      exact hmade.elim
    · exact fun _ => .shrinks trivial
    · exact fun _ => .shrinks trivial
  · have hfree : ∀ d ∈ disks, d.toEndDevice.IsFree := fun d hd =>
      (RaidArray.setEndDevices_eq_ok_iff.mp hset).1 _ (List.mem_map_of_mem hd)
    apply calls_createFromEndDevices_of
    · rw [containerFromDisks_of_ok hset]
      exact calls_create_issued hset hdisks
    · intro pArray _
      refine Prog.calls_bind ((Volume.calls_prepare _ _ _ _ _).mono
        (onShell_mono fun _ => issued_of_isInquiry)) fun v hv => ?_
      obtain ⟨v₀, -, hv⟩ := Prog.mayReturn_bind.mp hv
      have hsettled := Volume.settled_of_settings hv
      refine (Volume.calls_create_on rounds).mono (onShell_mono fun cmd hcmd => ?_)
      rw [hsettled.members] at hcmd
      exact .volume (.SsiVolumeCreateFromDisks (hdisks hfree)) hsettled.level hcmd
    · exact fun _ => .shrinks trivial
    · exact fun _ => .shrinks trivial

/-- The creation from disks issues commands of such a call only. -/
theorem calls_SsiVolumeCreateFromDisks_issued {params : CreateFromDisksParams} {hasHandle : Bool} :
    (SsiVolumeCreateFromDisks s info rounds params hasHandle).Calls
      (OnShell (Issued s info (.SsiVolumeCreateFromDisks params hasHandle))) := by
  unfold SsiVolumeCreateFromDisks
  cases hasHandle with
  | false => exact trivial
  | true =>
      rw [if_neg (by simp)]
      split
      next => exact trivial
      split
      next => exact trivial
      next disks hdisks =>
        dsimp only
        split
        next => exact trivial
        next hsector =>
          split
          next => exact trivial
          next hsource =>
            apply calls_createFromEndDevices_issued
            intro hfree
            refine .SsiVolumeCreateFromDisks hdisks (fun d hd front hfront => ?_) ?_ hfree
            · rw [Bool.not_eq_true, List.any_eq_false] at hsector
              have heq := hsector d hd
              rw [Option.mem_def.mp hfront] at heq
              simpa using heq
            · simpa using hsource

/-- The creation in an array issues commands of such a call only. -/
theorem calls_SsiVolumeCreate_issued {params : CreateFromArrayParams} :
    (SsiVolumeCreate s info rounds params).Calls
      (OnShell (Issued s info (.SsiVolumeCreate params))) := by
  unfold SsiVolumeCreate
  split
  next => exact trivial
  next pArray harray =>
    have hcreate : (createInArray info rounds pArray.toRaidArray params.toVolumeParams).Calls
        (OnShell (Issued s info (.SsiVolumeCreate params))) := by
      refine Prog.calls_bind ((Volume.calls_prepare _ _ _ _ _).mono
        (onShell_mono fun _ => issued_of_isInquiry)) fun v hv => ?_
      obtain ⟨v₀, -, hv⟩ := Prog.mayReturn_bind.mp hv
      have hsettled := Volume.settled_of_settings hv
      refine Prog.calls_bind ((Volume.calls_create_on rounds).mono (onShell_mono fun cmd hcmd => ?_))
        fun v' _ => ?_
      · rw [hsettled.members] at hcmd
        exact .volume (.SsiVolumeCreate harray hv) hsettled.level hcmd
      · exact Prog.calls_bind (v'.toRaidDevice.calls_update _) fun _ _ => trivial
    refine Prog.calls_catchAll (Prog.calls_bind hcreate fun _ _ => trivial) fun e _ => ?_
    cases e <;> exact trivial

/-! ### Spares -/

/-- Adding disks issues commands of such a call only. -/
theorem calls_SsiAddDisksToArray_issued {arrayHandle : Nat} {diskHandles : Option (List Nat)} :
    (SsiAddDisksToArray s arrayHandle diskHandles).Calls
      (OnShell (Issued s info (.SsiAddDisksToArray arrayHandle diskHandles))) := by
  unfold SsiAddDisksToArray
  split
  next => exact trivial
  next pArray container hcheck =>
    obtain ⟨result, hgrow⟩ := pArray.follows_grow (container.map (·.toEndDevice))
    refine Prog.calls_bind (calls_attempt ((calls_of_follows hgrow).mono
      (onShell_mono fun cmd hcmd => ?_))) fun r _ => ?_
    · rcases hcmd with hcmd | hcmd
      · unfold RaidArray.growPlan at hcmd
        split at hcmd
        next => simp at hcmd
        next hgrows =>
          rw [not_or, Bool.not_eq_true] at hgrows
          rcases List.mem_append.mp hcmd with hcmd | hcmd
          · exact issued_of_sparesPlan container hcmd (.SsiAddDisksToArray hcheck hgrows.1)
          · obtain rfl := List.mem_singleton.mp hcmd
            exact .shrinks trivial
      · exact issued_of_isRollback hcmd
    · cases r <;> exact trivial

/-- A rebuild issues commands of such a call only. -/
theorem calls_SsiVolumeRebuild_issued {volumeHandle diskHandle : Nat} :
    (SsiVolumeRebuild s volumeHandle diskHandle).Calls
      (OnShell (Issued s info (.SsiVolumeRebuild volumeHandle diskHandle))) := by
  unfold SsiVolumeRebuild
  split
  next => exact trivial
  next v hvolume =>
    split
    next => exact trivial
    next d hdisk =>
      split
      next => exact trivial
      next hfdx8 =>
        split
        next => exact trivial
        next hstate =>
          split
          next => exact trivial
          next hsector =>
            unfold ListedVolume.rebuild
            split
            next => exact trivial
            next size hlevel =>
              split
              next => exact trivial
              next hsize =>
                split
                next a hparent =>
                  refine (calls_of_follows (a.follows_addSpare _)).mono
                    (onShell_mono fun cmd hcmd => ?_)
                  rcases hcmd with hcmd | hcmd
                  · apply issued_of_sparesPlan [d] hcmd
                    intro hplan
                    exact .SsiVolumeRebuild hvolume hdisk (Bool.eq_false_iff.mpr hfdx8)
                      (not_not.mp hstate) (not_not.mp hsector) hlevel hsize hparent hplan
                  · exact issued_of_isRollback hcmd
                next => exact trivial

/-- A migration issues commands of such a call only. -/
theorem calls_SsiRaidLevelModify_issued {volumeHandle : Nat}
    {params : SSI_RaidLevelModifyParams} :
    (SsiRaidLevelModify s info volumeHandle params).Calls
      (OnShell (Issued s info (.SsiRaidLevelModify volumeHandle params))) := by
  unfold SsiRaidLevelModify
  split
  next => exact trivial
  next v disks hcheck =>
    obtain ⟨result, hmodify⟩ := v.keeps_modify info params.newStripSize params.newRaidLevel
      params.newSizeInBytes (disks.map (·.toEndDevice))
    refine (calls_of_follows hmodify).mono (onShell_mono fun cmd hcmd => ?_)
    rcases hcmd with hplan | hcmd
    · rcases v.mem_modifyPlan hplan with hstructural | ⟨a, hparent, -, hspares⟩
      · exact .migration hcheck hplan hstructural
      · obtain ⟨names, hnames, rfl⟩ := a.mem_sparesPlan hspares
        exact .add (.SsiRaidLevelModify hcheck hparent hplan) hnames
    · exact issued_of_isRollback hcmd

/-- A container with the disk: the first that accepts it as a spare, or else a new one. -/
inductive SpareCommand (d : EndDevice) (arrays : List RaidArray) : Command → Prop
  | wait {cmd : Command} (hcmd : RaidArray.IsWait cmd) : SpareCommand d arrays cmd
  | add {a : RaidArray} {cmd : Command} (htaker : firstTaker d arrays = some a)
      (hcmd : cmd ∈ a.sparesPlan [d]) : SpareCommand d arrays cmd
  | container {name : Str} {n : Nat} (htaker : firstTaker d arrays = none) (hfree : d.IsFree) :
      SpareCommand d arrays (.createContainer name n [d.m_DevName])

/-- An array that cannot take the disk is passed over. -/
theorem SpareCommand.cons {d : EndDevice} {a : RaidArray} {arrays : List RaidArray} {cmd : Command}
    (h : SpareCommand d arrays cmd) (ha : a.sparesToAdd [d] = none) :
    SpareCommand d (a :: arrays) cmd := by
  have htaker : firstTaker d (a :: arrays) = firstTaker d arrays := by
    rw [firstTaker, List.find?_cons, ha]
    rfl
  cases h with
  | wait hcmd => exact .wait hcmd
  | add h hcmd => exact .add (htaker.trans h) hcmd
  | container h hfree => exact .container (htaker.trans h) hfree

/-- The first container that accepts the disk gets it: the command that adds it succeeds. -/
theorem makeSpare_ensures (d : EndDevice) (arrays : List RaidArray) :
    Ensures (Controller.makeSpare rounds d arrays) fun tr _ =>
      MdadmSucceeds tr → ∀ x ∈ exits tr, SpareCommand d arrays x.1 := by
  induction arrays with
  | nil =>
      have hcalls : (Controller.makeSpare rounds d []).Calls (OnShell (SpareCommand d [])) := by
        unfold Controller.makeSpare
        split
        next => exact trivial
        next a hset =>
          obtain ⟨hfree, rfl⟩ := RaidArray.setEndDevices_eq_ok_iff.mp hset
          refine Prog.calls_bind (calls_attempt ((RaidArray.calls_create _ rounds).mono
            (onShell_mono fun cmd hcmd => ?_))) fun r _ => ?_
          · rcases hcmd with hwait | ⟨name, rfl⟩
            · exact .wait hwait
            · exact .container rfl (hfree d List.mem_cons_self)
          · cases r <;> exact trivial
      exact (ensures_of_calls hcalls).mono fun tr _ h _ => h
  | cons a arrays ih =>
      unfold Controller.makeSpare RaidArray.addSpare
      rcases hspares : a.sparesToAdd [d] with _ | _ | ⟨name, names⟩
      · -- the disk is refused, and the next container asked
        rw [Prog.pure_bind, if_neg (by simp)]
        exact ih.mono fun tr _ h hzero x hx => (h hzero x hx).cons hspares
      · rw [Prog.pure_bind, if_pos rfl]
        exact ensures_pure fun _ x hx => nomatch hx
      · have htaker : firstTaker d (a :: arrays) = some a := by
          rw [firstTaker, List.find?_cons, hspares]
          rfl
        have hplan : a.sparesPlan [d] = [.add a.m_DevName (name :: names)] := by
          rw [RaidArray.sparesPlan, hspares]
        dsimp only
        rw [Prog.bind_assoc]
        refine ensures_shellEx_bind (fun reply hzero => ?_) fun reply hfail => ?_
        · rw [if_pos rfl, Prog.pure_bind, if_pos rfl]
          refine ensures_pure fun _ x hx => .add htaker ?_
          rw [exits_cons_shell] at hx
          rw [List.mem_singleton.mp hx, hplan]
          exact List.mem_cons_self
        · intro env i hsucceeds
          rw [MdadmSucceeds, exits_cons_shell] at hsucceeds
          exact absurd (hsucceeds _ List.mem_cons_self trivial) hfail

/-- Marking a spare, where mdadm succeeds, issues commands of such a call only; a failure lets it go on
to the next array. -/
theorem SsiDiskMarkAsSpare_issued {diskHandle arrayHandle : Nat} :
    Ensures (SsiDiskMarkAsSpare s rounds diskHandle arrayHandle) fun tr _ =>
      MdadmSucceeds tr → ∀ x ∈ exits tr,
        Issued s info (.SsiDiskMarkAsSpare diskHandle arrayHandle) x.1 := by
  unfold SsiDiskMarkAsSpare
  have hquiet : ∀ status : SSI_Status, Ensures (pure status : SysProg SSI_Status) fun tr _ =>
      MdadmSucceeds tr → ∀ x ∈ exits tr,
        Issued s info (.SsiDiskMarkAsSpare diskHandle arrayHandle) x.1 :=
    fun status => ensures_pure fun _ x hx => nomatch hx
  split
  next => exact hquiet _
  next d hdisk =>
    split
    next => exact hquiet _
    next hfdx8 =>
      split
      next => exact hquiet _
      next hnvme =>
        have hmarks : s.MarksAsSpare diskHandle d :=
          ⟨hdisk, Bool.eq_false_iff.mpr hfdx8, not_not.mp hnvme⟩
        split
        next hnull =>
          subst hnull
          unfold ListedDevice.makeSpare
          split
          next => exact hquiet _
          next hblock =>
            split
            next => exact hquiet _
            next hcontroller =>
              rw [Bool.not_eq_false] at hblock
              have hsome : d.controller.isSome = true := by
                simpa [Option.isSome_iff_ne_none] using hcontroller
              refine (makeSpare_ensures d.toEndDevice d.controllerArrays).mono
                fun tr _ h hzero x hx => ?_
              rcases x with ⟨cmd, exit⟩
              cases h hzero _ hx with
              | wait hcmd => exact issued_of_isWait hcmd
              | add htaker hcmd =>
                  exact issued_of_sparesPlan [d] hcmd (.anyArray hmarks hblock hsome htaker)
              | container htaker hfree =>
                  exact .container (.SsiDiskMarkAsSpare hmarks hsome htaker hfree)
        next hhandle =>
          split
          next => exact hquiet _
          next a harray =>
            split
            next => exact hquiet _
            next hother =>
              have hcalls := calls_of_follows (a.follows_addSpare [d.toEndDevice])
              refine (ensures_of_calls hcalls).mono fun tr _ h _ x hx => ?_
              rcases h x hx with hcmd | hcmd
              · apply issued_of_sparesPlan [d] hcmd
                exact .SsiDiskMarkAsSpare hmarks hhandle harray hother
              · exact issued_of_isRollback hcmd

/-- **A call whose mdadm commands succeed** only shrinks the storage, but for the disks that it
adds, the container or the volume that it makes and the volume that it migrates. -/
theorem issued_of_call (call : ApiCall) (env : SysEnv) (i : Nat)
    (hzero : MdadmSucceeds ((call.prog s info rounds).run env i).trace) :
    ∀ x ∈ exits ((call.prog s info rounds).run env i).trace, Issued s info call x.1 := by
  intro x hx
  cases call with
  | SsiVolumeCreateFromDisks params hasHandle =>
      have hcalls : (ApiCall.prog s info rounds (.SsiVolumeCreateFromDisks params hasHandle)).Calls
          (OnShell (Issued s info (.SsiVolumeCreateFromDisks params hasHandle))) :=
        Prog.calls_bind calls_SsiVolumeCreateFromDisks_issued fun _ _ => trivial
      exact of_mem_exits hcalls hx
  | SsiVolumeCreate params => exact of_mem_exits calls_SsiVolumeCreate_issued hx
  | SsiDiskMarkAsSpare diskHandle arrayHandle =>
      exact SsiDiskMarkAsSpare_issued env i hzero x hx
  | SsiAddDisksToArray arrayHandle diskHandles =>
      exact of_mem_exits calls_SsiAddDisksToArray_issued hx
  | SsiVolumeRebuild volumeHandle diskHandle =>
      exact of_mem_exits calls_SsiVolumeRebuild_issued hx
  | SsiRaidLevelModify volumeHandle params =>
      exact of_mem_exits calls_SsiRaidLevelModify_issued hx

end calls

end Irstessi
