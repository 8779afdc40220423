import Irstessi.CreatePaths
import Irstessi.NameQuoting

/-!
# Duplicate volume names

`SsiVolumeRename` refuses a name that a volume of the session has. `SsiVolumeCreate` and
`SsiVolumeCreateFromDisks` do not look for it, and the name that they choose for an empty request is
one that `stat` does not find.

* `NamingCall`: the three calls; `requestedName?`: the name that a command gives to a volume.
* `NoDuplicate`: in no run of a call a command gives a volume the name of a listed one.
* `Accepts`, `MayTake`: the checks that creation makes, and the names in use that it may choose.
* `takesUsed_of_stage`, `stage_takesUsed`: creation may request a name in use where the checks pass and
  there is one, and only there.
* **`noDuplicate_iff`**: a rename never does; a creation does unless it is refused, or neither the
  requested name nor, for an empty request, a name that may be generated is in use.

A call may give a name in some run, or in none; both are asked of its program, over all environments. A
rename compares with the names of the session and so never does. For the creations the answer is put
together from the stages of the call: the checks of the request, the container, the settings and the
commands; one lemma says what must have been passed if a command with the name is issued, and its
converse gives a run that issues it. A generated name is one that `stat` does not find; that a listed
volume has it is not excluded.
-/

namespace Irstessi

open Interact

/-! ## Calls and names -/

/-- The name that a command gives to a volume. -/
def requestedName? : SysCall → Option Str
  | .shell (.createVolume name _ _ _ _ _ _) => some name
  | .shell (.updateName _ newName _) => some newName
  | _ => none

/-- A call that gives a volume its name. -/
inductive NamingCall
  | SsiVolumeCreate (params : CreateFromArrayParams)
  | SsiVolumeCreateFromDisks (params : CreateFromDisksParams) (hasHandle : Bool)
  | SsiVolumeRename (volumeHandle : Nat) (volumeName : List UInt8)
  deriving DecidableEq, Repr

/-- The program of a call in the session that it has opened. -/
def NamingCall.prog (s : CallSession) (info : SSI_RaidLevelInfo) (rounds : Nat) :
    NamingCall → SysProg SSI_Status
  | SsiVolumeCreate params => (ApiCall.SsiVolumeCreate params).prog s info rounds
  | SsiVolumeCreateFromDisks params hasHandle =>
      (ApiCall.SsiVolumeCreateFromDisks params hasHandle).prog s info rounds
  | SsiVolumeRename volumeHandle volumeName => Irstessi.SsiVolumeRename s volumeHandle volumeName

section Names

variable (s : CallSession)

/-- The call gives a volume the name of one that the session lists. -/
def TakesUsed (c : SysCall) : Prop := ∃ name ∈ requestedName? c, s.nameInUse name = true

/-- No run of the call gives a volume the name of one that the session lists. -/
def NoDuplicate (call : NamingCall) : Prop :=
  ∀ (info : SSI_RaidLevelInfo) (rounds : Nat) (env : SysEnv) (i : Nat),
    ∀ e ∈ ((call.prog s info rounds).run env i).trace, ¬ TakesUsed s e.1

/-- The checks of a volume pass. -/
def Accepts (caller : Volume.Caller) (container : List EndDevice) (params : VolumeParams) : Prop :=
  (∀ d ∈ container, Volume.Usable d) ∧ Volume.firstRefusal caller container params = none ∧
    ¬ (Volume.levelNumber params.raidLevel ≠ 0 ∧ container.any EndDevice.fultondalex8 = true)

/-- A volume of the session has the requested name or, where none is requested, one that may be
generated. -/
def MayTake (name : Str) : Prop :=
  if name.equal .empty then ∃ n < 2 ^ 32, s.nameInUse (.ofLit "Volume_" ++ .ofNat n) = true
  else s.nameInUse name = true

/-- The disks that `SsiVolumeCreateFromDisks` makes a container of. -/
def Contained (params : CreateFromDisksParams) (hasHandle : Bool) (devices : List ListedDevice) :
    Prop :=
  hasHandle = true ∧ params.disks ≠ [] ∧ s.getEndDevices params.disks = some devices ∧
    (∀ d ∈ devices, d.m_LogicalSectorSize = (devices.head?.map (·.m_LogicalSectorSize)).getD 0) ∧
    s.getEndDevice params.sourceDisk = none ∧ ∀ d ∈ devices, d.toEndDevice.IsFree

/-- Creation passes all checks, and there is a name in use that it may choose. -/
def NamingCall.Unchecked : NamingCall → Prop
  | SsiVolumeCreate params =>
      ∃ pArray, s.getArray params.arrayHandle = some pArray ∧
        Accepts .SsiVolumeCreate (CallSession.disksForVolume pArray.toRaidArray)
          params.toVolumeParams ∧
        MayTake s (.ofBytes params.volumeName)
  | SsiVolumeCreateFromDisks params hasHandle =>
      ∃ devices, Contained s params hasHandle devices ∧
        Accepts .SsiVolumeCreateFromDisks (devices.map (·.toEndDevice)) params.toVolumeParams ∧
        MayTake s (.ofBytes params.volumeName)
  | SsiVolumeRename _ _ => False

end Names

/-! ## Names that are chosen -/

namespace Volume

variable {namePrefix name : Str} {rounds id : Nat}

/-- A free name that is found is the prefix with a number. -/
theorem of_mayReturn_findName (hid : id < 2 ^ 32)
    (h : (findName namePrefix rounds id).MayReturn name) :
    ∃ n < 2 ^ 32, name = namePrefix ++ .ofNat n := by
  induction rounds generalizing id with
  | zero => exact h.elim
  | succ rounds ih =>
      unfold findName at h
      rw [statEnoent_bind, Prog.mayReturn_call] at h
      obtain ⟨enoent, h⟩ := h
      split at h
      next => exact ⟨id, hid, h.symm⟩
      next => exact ih (Nat.mod_lt _ (by simp)) h

/-- Every number may be the first that `stat` does not find. -/
theorem mayReturn_findName (namePrefix : Str) {n : Nat} (hn : n < 2 ^ 32) :
    (findName namePrefix (n + 1) 0).MayReturn (namePrefix ++ .ofNat n) := by
  have hfrom : ∀ k id, id + k = n →
      (findName namePrefix (k + 1) id).MayReturn (namePrefix ++ .ofNat n) := by
    intro k
    induction k with
    | zero =>
        rintro id rfl
        unfold findName
        rw [statEnoent_bind, Prog.mayReturn_call]
        exact ⟨true, rfl⟩
    | succ k ih =>
        intro id hid
        have hmod : (id + 1) % 2 ^ 32 = id + 1 := Nat.mod_eq_of_lt (by omega)
        unfold findName
        rw [statEnoent_bind, Prog.mayReturn_call, hmod]
        exact ⟨false, ih (id + 1) (by omega)⟩
  exact hfrom n 0 (Nat.zero_add n)

/-- Choosing the name issues no command. -/
theorem calls_chooseName (P : Command → Prop) : (chooseName name rounds).Calls (OnShell P) :=
  (chooseName_ensures rounds name).1.mono (onShell_mono fun _ h => h.elim)

end Volume

/-! ## Creation -/

section Creation

variable {s : CallSession} {caller : Volume.Caller} {info : SSI_RaidLevelInfo} {rounds : Nat}
  {pArray : RaidArray} {container : List EndDevice} {params : VolumeParams} {v : Volume}

/-- A program whose commands give no names. -/
theorem not_mayCall_of_calls {α : Type} {p : SysProg α} {P : Command → Prop} (hp : p.Calls (OnShell P))
    (hP : ∀ cmd, P cmd → requestedName? (.shell cmd) = none) : ¬ p.MayCall (TakesUsed s) := by
  intro hmay
  obtain ⟨c, hc, name, hname, -⟩ := hp.exists_of_mayCall hmay
  cases c with
  | shell cmd => exact absurd (hname.symm.trans (hP cmd hc)) (by simp)
  | _ => exact absurd hname (by simp [requestedName?])

/-- The creation's commands ask for the volume's own name. -/
theorem calls_createNamed (v : Volume) : (Volume.createNamed v).Calls (OnShell fun cmd =>
    ¬ v.FultondaleRefused ∧ requestedName? (.shell cmd) = some v.m_Name) := by
  by_cases hrefused : v.FultondaleRefused
  · rw [Volume.createNamed_of_refused hrefused]
    exact trivial
  refine Prog.calls_bind ?_ fun v' _ => v'.calls_waitForVolume _ 10
  unfold Volume.commandsNamed
  split
  next => exact trivial
  split
  next => exact trivial
  next =>
    exact Prog.calls_bind (v.calls_tryCommands fun _ _ => ⟨hrefused, rfl⟩) fun _ _ => trivial

/-- Creation gives a name in use only to a volume that FDx8 disks do not rule out. -/
theorem takesUsed_of_create (h : (v.create rounds).MayCall (TakesUsed s)) :
    ¬ v.FultondaleRefused ∧ MayTake s v.m_Name := by
  rw [Volume.create_eq, Prog.mayCall_bind] at h
  rcases h with h | ⟨name, hname, h⟩
  · exact absurd h (not_mayCall_of_calls (Volume.calls_chooseName fun _ => False) fun _ h => h.elim)
  obtain ⟨c, hc, requested, hrequested, huse⟩ := (calls_createNamed _).exists_of_mayCall h
  have hnamed : ¬ v.FultondaleRefused ∧ s.nameInUse name = true := by
    cases c with
    | shell cmd =>
        obtain ⟨hpassed, hsome⟩ := hc
        obtain rfl := Option.some.inj (hrequested.symm.trans hsome)
        exact ⟨hpassed, huse⟩
    | _ => exact absurd hrequested (by simp [requestedName?])
  refine ⟨hnamed.1, ?_⟩
  unfold Volume.chooseName at hname
  unfold MayTake
  split at hname
  next hempty =>
    obtain ⟨n, hn, rfl⟩ := Volume.of_mayReturn_findName (by decide) hname
    rw [if_pos hempty]
    exact ⟨n, hn, hnamed.2⟩
  next hempty =>
    obtain rfl : v.m_Name = name := hname
    rw [if_neg hempty]
    exact hnamed.2

/-- A search that goes far enough may settle on a name in use. -/
theorem exists_chosen {name : Str} (h : MayTake s name) :
    ∃ rounds chosen, (Volume.chooseName name (rounds + 1)).MayReturn chosen ∧
      s.nameInUse chosen = true := by
  unfold MayTake at h
  split at h
  next hempty =>
    obtain ⟨n, hn, huse⟩ := h
    refine ⟨n, _, ?_, huse⟩
    unfold Volume.chooseName
    rw [if_pos hempty]
    exact Volume.mayReturn_findName _ hn
  next hempty =>
    refine ⟨0, _, ?_, h⟩
    unfold Volume.chooseName
    rw [if_neg hempty]
    rfl

/-- Where a name in use may be chosen the creation may take it: nothing looks at the other volumes on
the way. -/
theorem create_takesUsed {name : Str} (hpassed : ¬ v.FultondaleRefused)
    (hsource : v.m_pSourceDisk = none) (hchosen : (Volume.chooseName v.m_Name rounds).MayReturn name)
    (huse : s.nameInUse name = true) : (v.create rounds).MayCall (TakesUsed s) := by
  rw [Volume.create_eq, Prog.mayCall_bind]
  refine .inr ⟨name, hchosen, ?_⟩
  have hnamed : ¬ ({ v with m_Name := name } : Volume).FultondaleRefused := hpassed
  obtain ⟨k, hk⟩ := Volume.createNamed_of_passed hnamed hsource
  rw [hk, Prog.mayCall_call]
  exact .inl ⟨name, rfl, huse⟩

/-- The disks that are taken can all be used. -/
theorem usable_of_setVolumeEndDevices {v' : Volume} (h : v.setVolumeEndDevices container = .ok v') :
    ∀ d ∈ container, Volume.Usable d := by
  have hgo : ∀ d : RaidDevice, (RaidDevice.setEndDevices.go d container).1 = none →
      ∀ device ∈ container, Volume.Usable device := by
    clear h
    induction container with
    | nil => exact fun _ _ _ hd => absurd hd List.not_mem_nil
    | cons device rest ih =>
        intro d hnone
        unfold RaidDevice.setEndDevices.go at hnone
        split at hnone
        next => exact absurd hnone (by simp)
        next hblock =>
          split at hnone
          next => exact absurd hnone (by simp)
          next hsystem =>
            split at hnone
            next => exact absurd hnone (by simp)
            next hstate =>
              refine List.forall_mem_cons.mpr ⟨⟨?_, ?_, ?_⟩, ih _ hnone⟩
              · simpa using hblock
              · simpa using hsystem
              · simpa using hstate
  unfold Volume.setVolumeEndDevices RaidDevice.setEndDevices at h
  split at h
  next d hset => exact hgo _ (congrArg Prod.fst hset)
  next => simp at h

/-- The setters let a volume pass iff its disks are usable and no check fails. -/
theorem applySettings_eq_ok_iff {v' : Volume} :
    Volume.applySettings caller info pArray container params v = .ok v' ↔
      (∀ d ∈ container, Volume.Usable d) ∧ Volume.firstRefusal caller container params = none ∧
        v' = Volume.settled caller pArray container params v := by
  constructor
  · intro h
    have husable : ∀ d ∈ container, Volume.Usable d := by
      unfold Volume.applySettings at h
      dsimp only at h
      rcases hset : Volume.setVolumeEndDevices _ container with e | v₁
      · rw [hset] at h
        exact nomatch h
      · exact usable_of_setVolumeEndDevices hset
    rw [Volume.applySettings_of_usable _ _ _ _ _ husable] at h
    rcases hrefusal : Volume.firstRefusal caller container params with _ | e
    · rw [hrefusal] at h
      exact ⟨husable, rfl, (Except.ok.inj h).symm⟩
    · rw [hrefusal] at h
      exact nomatch h
  · rintro ⟨husable, hpassed, rfl⟩
    rw [Volume.applySettings_of_usable _ _ _ _ _ husable, hpassed]

/-- What is prepared before the creation: the discovery of the new object and then the settings. -/
theorem mayReturn_prepare_iff {v' : Volume} :
    (Volume.prepare caller info pArray container params).MayReturn v' ↔
      ∃ v, Volume.new.discover.MayReturn v ∧
        Volume.applySettings caller info pArray container params v = .ok v' := by
  unfold Volume.prepare
  rw [Prog.mayReturn_bind]
  simp only [Volume.settings_eq, Volume.mayReturn_orRaise]

/-- A volume that is created has been accepted, and there is a name in use that it may be given. -/
theorem takesUsed_of_stage
    (h : (stage caller info rounds pArray container params).MayCall (TakesUsed s)) :
    Accepts caller container params ∧ MayTake s (.ofBytes params.volumeName) := by
  unfold stage at h
  rw [Prog.mayCall_bind] at h
  rcases h with h | ⟨v', hprepare, h⟩
  · refine absurd h (not_mayCall_of_calls (Volume.calls_prepare _ _ _ _ _) fun cmd hcmd => ?_)
    cases cmd <;> first | rfl | exact hcmd.elim
  obtain ⟨v, -, hsettings⟩ := mayReturn_prepare_iff.mp hprepare
  obtain ⟨husable, hpassed, rfl⟩ := applySettings_eq_ok_iff.mp hsettings
  obtain ⟨hallowed, htake⟩ := takesUsed_of_create h
  exact ⟨⟨husable, hpassed, hallowed⟩, htake⟩

/-- Discovery of a new volume may go well. -/
theorem exists_discovered : ∃ v, Volume.new.discover.MayReturn v ∧ v.m_pSourceDisk = none := by
  have hreturns : (Volume.new.discover.run newerMdadm 0).result.toOption.isSome = true := by
    decide +kernel
  rcases hresult : (Volume.new.discover.run newerMdadm 0).result with e | v
  · rw [hresult] at hreturns
    exact absurd hreturns (by simp [Except.toOption])
  · exact ⟨v, Prog.mayReturn_of_result hresult,
      Volume.returns_discover_sourceDisk Volume.new newerMdadm 0 v hresult⟩

/-- The shared stage may take a used name where the request is accepted and this name may be chosen. -/
theorem stage_takesUsed {name : Str} (haccepts : Accepts caller container params)
    (hchosen : (Volume.chooseName (.ofBytes params.volumeName) rounds).MayReturn name)
    (huse : s.nameInUse name = true) :
    (stage caller info rounds pArray container params).MayCall (TakesUsed s) := by
  obtain ⟨husable, hpassed, hallowed⟩ := haccepts
  obtain ⟨v, hdiscovered, hsource⟩ := exists_discovered
  have hsettled : (Volume.settled caller pArray container params v).m_pSourceDisk = none := by
    cases caller
    · rfl
    · exact hsource
  unfold stage
  rw [Prog.mayCall_bind]
  refine .inr ⟨Volume.settled caller pArray container params v,
    mayReturn_prepare_iff.mpr ⟨v, hdiscovered, ?_⟩, ?_⟩
  · exact applySettings_eq_ok_iff.mpr ⟨husable, hpassed, rfl⟩
  · exact create_takesUsed hallowed hsettled hchosen huse

end Creation

/-! ## The container -/

section Container

variable {s : CallSession} {info : SSI_RaidLevelInfo} {rounds : Nat}
  {container : List EndDevice}

/-- The creation of the container asks for no volume name. -/
theorem calls_containerFromDisks (rounds : Nat) (container : List EndDevice) :
    (containerFromDisks rounds container).Calls
      (OnShell fun cmd => requestedName? (.shell cmd) = none) := by
  unfold containerFromDisks
  apply Prog.calls_bind (Volume.calls_orRaise _ _)
  intro a _
  refine (a.calls_create rounds).mono (onShell_mono fun cmd hcmd => ?_)
  rcases hcmd with hwait | ⟨name, rfl⟩
  · cases cmd <;> first | rfl | exact hwait.elim
  · rfl

/-- Where a container is made its disks were free. -/
theorem isFree_of_mayReturn {a : RaidArray} (h : (containerFromDisks rounds container).MayReturn a) :
    ∀ d ∈ container, d.IsFree := by
  unfold containerFromDisks at h
  obtain ⟨pArray, hset, -⟩ := Prog.mayReturn_bind.mp h
  exact (RaidArray.setEndDevices_eq_ok_iff.mp (Volume.mayReturn_orRaise.mp hset)).1

/-- A container of free disks may be created. -/
theorem exists_container (rounds : Nat) (hfree : ∀ d ∈ container, d.IsFree) (hne : container ≠ []) :
    ∃ a, (containerFromDisks (rounds + 1) container).MayReturn a := by
  have hset := RaidArray.setEndDevices_eq_ok_iff.mpr ⟨hfree, Eq.refl
    ({ RaidArray.new with m_BlockDevices := container } : RaidArray)⟩
  have hfound : (Volume.findName (.ofLit "Imsm_") (rounds + 1) 0).MayReturn
      (.ofLit "Imsm_" ++ .ofNat 0) := by
    unfold Volume.findName
    rw [statEnoent_bind, Prog.mayReturn_call]
    exact ⟨true, rfl⟩
  have hcontainer : ¬ container.length = 0 := fun hzero =>
    hne (List.eq_nil_of_length_eq_zero hzero)
  let a : RaidArray :=
    { RaidArray.new with m_BlockDevices := container, m_Name := .ofLit "Imsm_" ++ .ofNat 0 }
  have hyields : Yields a.waitForContainer fun _ => True := by
    have hnamed : RaidDevice.lookupByName a.toRaidDevice := lookupByName_numbered a.toRaidDevice 0
    refine (waitForContainer_ensures hnamed).mono fun tr res hwait => ?_
    obtain ⟨-, a', hok, -⟩ := hwait
    exact ⟨a', hok, trivial⟩
  obtain ⟨a', hwaited, -⟩ := Prog.exists_mayReturn_of_yields hyields
  refine ⟨a', ?_⟩
  unfold containerFromDisks
  rw [Prog.mayReturn_bind]
  refine ⟨_, Volume.mayReturn_orRaise.mpr hset, ?_⟩
  unfold RaidArray.create
  rw [Volume.determineDeviceName_eq, Prog.mayReturn_bind]
  refine ⟨_, Prog.mayReturn_bind.mpr ⟨_, hfound, rfl⟩, ?_⟩
  dsimp only
  rw [if_neg hcontainer, Prog.mayReturn_bind]
  exact ⟨0, mayReturn_shellEx.mpr (.inl rfl), hwaited⟩

/-- A creation that takes a used name had free disks, an accepted request, and a name that may be one in
use. -/
theorem takesUsed_of_createFromEndDevices {params : VolumeParams}
    (h : (createFromEndDevices s info rounds container params).MayCall (TakesUsed s)) :
    (∀ d ∈ container, d.IsFree) ∧ Accepts .SsiVolumeCreateFromDisks container params ∧
      MayTake s (.ofBytes params.volumeName) := by
  unfold createFromEndDevices at h
  rw [Prog.mayCall_bind, mayCall_attempt] at h
  rcases h with h | ⟨result, hresult, h⟩
  · exact absurd h (not_mayCall_of_calls (calls_containerFromDisks rounds container) fun _ h => h)
  rcases result with e | a
  · have hstatus : (containerStatus e >>= fun status =>
        (pure (status, none) : SysProg (SSI_Status × Option Nat))).Calls (OnShell fun _ => False) :=
      Prog.calls_bind (containerStatus_ne_ok e).2 fun _ _ => trivial
    exact absurd h (not_mayCall_of_calls hstatus fun _ h => h.elim)
  have hfree := isFree_of_mayReturn (mayReturn_attempt.mp hresult)
  rw [Prog.mayCall_bind] at h
  rcases h with h | ⟨-, -, h⟩
  · exact h.elim
  rw [Prog.mayCall_bind, mayCall_attempt] at h
  rcases h with h | ⟨result, -, h⟩
  · exact ⟨hfree, takesUsed_of_stage h⟩
  rcases result with e | v
  · have hremove : (a.remove >>= fun _ =>
        (pure (volumeStatus e, none) : SysProg (SSI_Status × Option Nat))).Calls
          (OnShell fun cmd => cmd = .stop a.m_DevName ∨
            cmd = .clearMembers (a.m_BlockDevices.map (·.m_DevName))) :=
      Prog.calls_bind a.calls_remove fun _ _ => trivial
    refine absurd h (not_mayCall_of_calls hremove fun cmd hcmd => ?_)
    rcases hcmd with rfl | rfl <;> rfl
  · exact h.elim

/-- The converse: such a request has a run that takes the used name. -/
theorem createFromEndDevices_takesUsed {params : VolumeParams} {name : Str}
    (hfree : ∀ d ∈ container, d.IsFree) (hne : container ≠ [])
    (haccepts : Accepts .SsiVolumeCreateFromDisks container params)
    (hchosen : (Volume.chooseName (.ofBytes params.volumeName) (rounds + 1)).MayReturn name)
    (huse : s.nameInUse name = true) :
    (createFromEndDevices s info (rounds + 1) container params).MayCall (TakesUsed s) := by
  obtain ⟨a, hmade⟩ := exists_container rounds hfree hne
  unfold createFromEndDevices
  rw [Prog.mayCall_bind]
  refine .inr ⟨.ok a, mayReturn_attempt.mpr hmade, ?_⟩
  dsimp only
  rw [Prog.mayCall_bind]
  refine .inr ⟨(), rfl, ?_⟩
  rw [Prog.mayCall_bind, mayCall_attempt]
  exact .inl (stage_takesUsed haccepts hchosen huse)

end Container

/-! ## The calls -/

section Calls

variable {s : CallSession} {info : SSI_RaidLevelInfo} {rounds : Nat}

/-- A rename asks for the new name only. -/
theorem calls_rename (v : Volume) (newName : Str) : (v.rename newName).Calls (OnShell fun cmd =>
    ∀ name ∈ requestedName? (.shell cmd), name = newName) := by
  unfold Volume.rename
  split
  next => exact trivial
  next pArray hparent =>
    split
    next => exact trivial
    next =>
      have hassemble : pArray.assemble.Calls (OnShell fun cmd =>
          ∀ name ∈ requestedName? (.shell cmd), name = newName) := by
        refine calls_shellEx_bind (fun _ h => nomatch h) fun r => ?_
        split
        next => exact trivial
        next => exact trivial
      have hagain : pArray.assembleAgain.Calls (OnShell fun cmd =>
          ∀ name ∈ requestedName? (.shell cmd), name = newName) :=
        Prog.calls_bind hassemble fun _ _ => trivial
      refine calls_shellEx_bind (fun _ h => nomatch h) fun r => ?_
      split
      next =>
        refine Prog.calls_bind ?_ fun status _ => ?_
        · refine (pArray.calls_renameVolume _ _).mono (onShell_mono fun cmd hcmd => ?_)
          rcases hcmd with rfl | rfl
          · exact fun name hname => (Option.some.inj hname).symm
          · exact fun _ h => nomatch h
        · split
          next => exact hassemble
          next => exact hagain
      next => exact hagain

/-- A rename never takes a used name, as the entry point looks for it. -/
theorem not_mayCall_SsiVolumeRename (volumeHandle : Nat) (volumeName : List UInt8) :
    ¬ (SsiVolumeRename s volumeHandle volumeName).MayCall (TakesUsed s) := by
  intro h
  unfold SsiVolumeRename at h
  split at h
  next => exact h
  next v hv =>
    dsimp only at h
    split at h
    next => exact h
    next hfree =>
      obtain ⟨c, hc, name, hname, huse⟩ := (calls_rename _ _).exists_of_mayCall h
      cases c with
      | shell cmd =>
          obtain rfl := hc name hname
          exact hfree huse
      | _ => exact absurd hname (by simp [requestedName?])

/-- A creation in an array that takes a used name is one that is not checked. -/
theorem takesUsed_of_SsiVolumeCreate {params : CreateFromArrayParams}
    (h : (SsiVolumeCreate s info rounds params).MayCall (TakesUsed s)) :
    NamingCall.Unchecked s (.SsiVolumeCreate params) := by
  unfold SsiVolumeCreate at h
  split at h
  next => exact h.elim
  next pArray hpArray =>
    rw [Prog.mayCall_catchAll, Prog.mayCall_bind] at h
    rcases h with (h | ⟨_, -, h⟩) | ⟨e, -, h⟩
    · rw [createInArray_eq, Prog.mayCall_bind] at h
      rcases h with h | ⟨v, -, h⟩
      · exact ⟨pArray, hpArray, takesUsed_of_stage h⟩
      · have hupdate : (v.toRaidDevice.update >>= fun _ => (pure () : SysProg Unit)).Calls
            (OnShell fun _ => False) :=
          Prog.calls_bind (RaidDevice.calls_update _ _) fun _ _ => trivial
        exact absurd h (not_mayCall_of_calls hupdate fun _ h => h.elim)
    · exact h.elim
    · cases e <;> exact h.elim

/-- An unchecked creation in an array has a run that takes a used name. -/
theorem SsiVolumeCreate_takesUsed {params : CreateFromArrayParams}
    (h : NamingCall.Unchecked s (.SsiVolumeCreate params)) :
    ∃ rounds, (SsiVolumeCreate s info rounds params).MayCall (TakesUsed s) := by
  obtain ⟨pArray, hpArray, haccepts, htake⟩ := h
  obtain ⟨rounds, name, hchosen, huse⟩ := exists_chosen htake
  refine ⟨rounds + 1, ?_⟩
  unfold SsiVolumeCreate
  rw [hpArray]
  dsimp only
  rw [Prog.mayCall_catchAll, Prog.mayCall_bind, createInArray_eq, Prog.mayCall_bind]
  exact .inl (.inl (.inl (stage_takesUsed haccepts hchosen huse)))

/-- A creation from disks that takes a used name is one that is not checked. -/
theorem takesUsed_of_SsiVolumeCreateFromDisks {params : CreateFromDisksParams} {hasHandle : Bool}
    (h : (SsiVolumeCreateFromDisks s info rounds params hasHandle).MayCall (TakesUsed s)) :
    NamingCall.Unchecked s (.SsiVolumeCreateFromDisks params hasHandle) := by
  unfold SsiVolumeCreateFromDisks at h
  split at h
  next => exact h.elim
  next hhandle =>
    split at h
    next => exact h.elim
    next hdisks =>
      split at h
      next => exact h.elim
      next devices hdevices =>
        dsimp only at h
        split at h
        next => exact h.elim
        next hsector =>
          split at h
          next => exact h.elim
          next hsource =>
            obtain ⟨hfree, haccepts, htake⟩ := takesUsed_of_createFromEndDevices h
            refine ⟨devices, ⟨by simpa using hhandle, ?_, hdevices, ?_, ?_, ?_⟩, haccepts, htake⟩
            · exact fun hnil => hdisks (by rw [hnil]; rfl)
            · simpa using hsector
            · simpa using hsource
            · exact fun d hd => hfree _ (List.mem_map_of_mem hd)

/-- An unchecked creation from disks has a run that takes a used name. -/
theorem SsiVolumeCreateFromDisks_takesUsed {params : CreateFromDisksParams} {hasHandle : Bool}
    (h : NamingCall.Unchecked s (.SsiVolumeCreateFromDisks params hasHandle)) :
    ∃ rounds, (SsiVolumeCreateFromDisks s info rounds params hasHandle).MayCall (TakesUsed s) := by
  obtain ⟨devices, ⟨rfl, hdisks, hdevices, hsector, hsource, hfree⟩, haccepts, htake⟩ := h
  obtain ⟨rounds, name, hchosen, huse⟩ := exists_chosen htake
  refine ⟨rounds + 1, ?_⟩
  have hsame : (devices.any fun d =>
      d.m_LogicalSectorSize ≠ (devices.head?.map (·.m_LogicalSectorSize)).getD 0) = false := by
    simpa using hsector
  have hne : devices.map (·.toEndDevice) ≠ [] := by
    rw [ne_eq, List.map_eq_nil_iff, ← s.eq_nil_iff_of_getEndDevices hdevices]
    exact hdisks
  unfold SsiVolumeCreateFromDisks
  rw [if_neg (by simp), if_neg (by simpa using hdisks), hdevices]
  dsimp only
  rw [hsame, hsource]
  refine createFromEndDevices_takesUsed ?_ hne haccepts hchosen huse
  intro d hd
  obtain ⟨device, hdevice, rfl⟩ := List.mem_map.mp hd
  exact hfree device hdevice

/-- For each of the three calls: it may take a used name exactly where it is not checked. -/
theorem mayCall_iff (call : NamingCall) :
    (∃ rounds, (call.prog s info rounds).MayCall (TakesUsed s)) ↔ call.Unchecked s := by
  cases call with
  | SsiVolumeCreate params =>
      exact ⟨fun ⟨_, h⟩ => takesUsed_of_SsiVolumeCreate h, fun h => SsiVolumeCreate_takesUsed h⟩
  | SsiVolumeCreateFromDisks params hasHandle =>
      have hprog : ∀ rounds,
          ((NamingCall.SsiVolumeCreateFromDisks params hasHandle).prog s info rounds).MayCall
              (TakesUsed s) ↔
            (SsiVolumeCreateFromDisks s info rounds params hasHandle).MayCall (TakesUsed s) := by
        intro rounds
        show (SsiVolumeCreateFromDisks s info rounds params hasHandle >>= fun result =>
          (pure result.1 : SysProg SSI_Status)).MayCall _ ↔ _
        rw [Prog.mayCall_bind, or_iff_left]
        rintro ⟨_, -, h⟩
        exact h
      simp only [hprog]
      exact ⟨fun ⟨_, h⟩ => takesUsed_of_SsiVolumeCreateFromDisks h,
        fun h => SsiVolumeCreateFromDisks_takesUsed h⟩
  | SsiVolumeRename volumeHandle volumeName =>
      exact ⟨fun ⟨_, h⟩ => not_mayCall_SsiVolumeRename volumeHandle volumeName h, fun h => h.elim⟩

end Calls

/-- **No run of the call duplicates a name** unless creation passes all checks and there is a name in
use that it may choose. `Unchecked` is the condition on the request and on the session; it has no case
for a rename, which never duplicates a name. Where it holds there is a run in which a command gives the
name of a listed volume to the new one. -/
theorem noDuplicate_iff (s : CallSession) (call : NamingCall) :
    NoDuplicate s call ↔ ¬ call.Unchecked s := by
  constructor
  · intro hnone hunchecked
    classical
    obtain ⟨rounds, hmay⟩ := (@mayCall_iff s sampleInfo call).mpr hunchecked
    obtain ⟨env, e, he, htakes⟩ := Prog.exists_run_of_mayCall hmay 0
    exact hnone sampleInfo rounds env 0 e he htakes
  · intro hchecked info rounds env i e he htakes
    exact hchecked ((mayCall_iff call).mp ⟨rounds, Prog.mayCall_of_mem_trace he htakes⟩)

/-- Two free disks and a volume called `data`. -/
def sampleNamedSession : CallSession :=
  { sampleCallSession with
    volumes := [(7, ⟨{ Volume.sampleMirror with m_Name := .ofLit "data" }, 1024, 512⟩)] }

/-- A second volume called `data` is created from the two disks. -/
theorem not_noDuplicate_data : ¬ ∀ s call, NoDuplicate s call := by
  intro hall
  have hnone := hall sampleNamedSession (.SsiVolumeCreateFromDisks sampleCreation true) sampleInfo 1
    newerMdadm 0
  have hcreated : (((NamingCall.SsiVolumeCreateFromDisks sampleCreation true).prog sampleNamedSession
      sampleInfo 1).run newerMdadm 0).trace.any (fun e =>
        (requestedName? e.1).any sampleNamedSession.nameInUse) = true := by decide +kernel
  obtain ⟨e, he, htakes⟩ := List.any_eq_true.mp hcreated
  obtain ⟨name, hname, huse⟩ := (Option.any_eq_true _ _).mp htakes
  exact hnone e he ⟨name, hname, huse⟩

end Irstessi
