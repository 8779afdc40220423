import Irstessi.ArrayCreate
import Irstessi.CallSession
import Irstessi.FreshVolume

/-!
# `SsiVolumeCreateFromDisks`

A container is created from the disks and a volume in it; where the second fails the container is
removed again.

* `attempt`: `try` with one handler for every `Exception`.
* `containerFromDisks`, `volumeInContainer`: the two steps; `SsiVolumeCreateFromDisks`.
* `devNameAfter`: the device name that the readings of the map file in a trace show for a name, and
  `IsCreated`: an array is the container that the calls of a trace have created. It is told by its
  members, by the name in the creation command and by the device that the map file shows under this
  name, not by what the code returns.
* `containerFromDisks_ensures`, `volumeInContainer_ensures`: what the two steps issue and when they
  return. `waitForIdentity_ensures` follows the device name of the container through the polls.
* **`cleansUp`**: nothing is removed unless the container has been created and the volume has not.
  Then the last calls of the run are those of `Array::remove` on the container created, which stop
  its device and clear the metadata of the disks given.

`CleansUp` is a statement about the whole trace of a call: the commands with their exit statuses, in
order, and the result. It is put together from the traces of the two steps by the rules of sequencing
(`ensures_bind` and its like), never by unfolding the program again. What has been created is told from
the trace alone: a command that created a container of the given disks under a name, and the device that
the readings of the map file behind it have shown for this name. The removal has to be one of that
device, so that code that stops another container would not meet the statement.
-/

namespace Irstessi

open Interact

/-- An `Exception` becomes a value; nothing else is caught. -/
def attempt {α : Type} (p : SysProg α) : SysProg (Except Exception α) :=
  (p >>= fun a => pure (.ok a)).catchAll fun
    | .exception e => pure (.error e)
    | f => .throw f

/-- The result of `attempt`. -/
def caught {α : Type} : Except Fault α → Except Fault (Except Exception α)
  | .ok a => .ok (.ok a)
  | .error (.exception e) => .ok (.error e)
  | .error f => .error f

/-- Catching an exception makes the same calls and turns an `Exception` into a value. -/
theorem run_attempt {α : Type} (p : SysProg α) (env : SysEnv) (i : Nat) :
    ((attempt p).run env i).trace = (p.run env i).trace ∧
      ((attempt p).run env i).result = caught (p.run env i).result := by
  unfold attempt
  induction p generalizing i with
  | pure a => exact ⟨rfl, rfl⟩
  | throw f => cases f <;> exact ⟨rfl, rfl⟩
  | note n p ih => exact ih i
  | call c k ih =>
      obtain ⟨htrace, hresult⟩ := ih (env i c) (i + 1)
      exact ⟨congrArg (List.cons _) htrace, hresult⟩

/-- Catching an exception neither adds a call nor loses one. -/
theorem mayCall_attempt {α : Type} {P : SysCall → Prop} (p : SysProg α) :
    (attempt p).MayCall P ↔ p.MayCall P := by
  unfold attempt
  induction p with
  | pure a => exact Iff.rfl
  | throw f => cases f <;> exact Iff.rfl
  | note n p ih => exact ih
  | call c k ih => exact or_congr_right (exists_congr fun r => ih r)

/-- The values that are caught are those of the program. -/
theorem mayReturn_attempt {α : Type} {p : SysProg α} {a : α} :
    (attempt p).MayReturn (.ok a) ↔ p.MayReturn a := by
  unfold attempt
  induction p with
  | pure b => exact ⟨fun h => Except.ok.inj h, fun h => congrArg Except.ok h⟩
  | throw f =>
      refine iff_of_false ?_ fun h => h
      cases f <;> exact fun h => nomatch h
  | note n p ih => exact ih
  | call c k ih => exact exists_congr fun r => ih r

/-- `try`, and what follows with the value or the exception. -/
theorem ensures_attempt_bind {α β : Type} {p : SysProg α} {f : Except Exception α → SysProg β}
    {Q : List SysEvent → Except Fault α → Prop} {S : List SysEvent → Except Fault β → Prop}
    (hp : Ensures p Q) (hok : ∀ tr a, Q tr (.ok a) → Ensures (f (.ok a)) fun tr' res => S (tr ++ tr') res)
    (hexception : ∀ tr e, Q tr (.error (.exception e)) →
      Ensures (f (.error e)) fun tr' res => S (tr ++ tr') res)
    (hfault : ∀ tr fault, (∀ e, fault ≠ .exception e) → Q tr (.error fault) → S tr (.error fault)) :
    Ensures (attempt p >>= f) S := by
  have hattempt : Ensures (attempt p) fun tr res => ∃ res', res = caught res' ∧ Q tr res' := by
    intro env i
    obtain ⟨htrace, hresult⟩ := run_attempt p env i
    exact ⟨_, hresult, htrace ▸ hp env i⟩
  refine ensures_bind hattempt ?_ ?_
  · rintro tr r ⟨res', hcaught, hQ⟩
    cases res' with
    | ok a =>
        obtain rfl := Except.ok.inj hcaught
        exact hok tr a hQ
    | error fault =>
        cases fault with
        | exception e =>
            obtain rfl := Except.ok.inj hcaught
            exact hexception tr e hQ
        | _ => cases hcaught
  · rintro tr fault ⟨res', hcaught, hQ⟩
    cases res' with
    | ok a => cases hcaught
    | error fault' =>
        cases fault' with
        | exception e => cases hcaught
        | _ =>
            obtain rfl := Except.error.inj hcaught
            exact hfault tr _ (fun e he => nomatch he) hQ

/-- What `SSI_CreateFromDisksParams` says beyond the volume. -/
structure CreateFromDisksParams extends VolumeParams where
  disks : List Nat
  sourceDisk : Nat
  deriving DecidableEq, Repr

/-- The container is created from the disks.
Source: `src/volume.cpp` `SsiVolumeCreateFromDisks` -/
def containerFromDisks (rounds : Nat) (container : List EndDevice) : SysProg RaidArray := do
  let pArray ← orRaise (RaidArray.new.setEndDevices container)
  pArray.create rounds

/-- The volume is created in the new container.
Source: `src/volume.cpp` `SsiVolumeCreateFromDisks` -/
def volumeInContainer (info : SSI_RaidLevelInfo) (rounds : Nat) (pArray : RaidArray)
    (container : List EndDevice) (params : VolumeParams) : SysProg Volume := do
  let pVolume ← Volume.prepare .SsiVolumeCreateFromDisks info pArray container params
  pVolume.create rounds

/-- The status for an exception before the container is there.
Source: `src/volume.cpp` `SsiVolumeCreateFromDisks`, the first handler -/
def containerStatus : Exception → SysProg SSI_Status
  | .notSupported => pure .notSupported
  | .invalidStripSize => pure .invalidStripSize
  | .invalidName => pure .invalidString
  | .invalidRaidLevel => pure .invalidRaidLevel
  | .invalidUsage => pure .invalidState
  | .bufferTooSmall => pure .bufferTooSmall
  | .systemDevice => do
      setLastErrorMessage (.ofLit "Volume with system device is not allowed")
      pure .invalidParameter
  | _ => pure .failed

/-- The status for an exception after the container is there.
Source: `src/volume.cpp` `SsiVolumeCreateFromDisks`, the second handler -/
def volumeStatus : Exception → SSI_Status
  | .invalidStripSize => .invalidStripSize
  | .invalidName => .invalidString
  | .invalidRaidLevel => .invalidRaidLevel
  | .bufferTooSmall => .bufferTooSmall
  | .bufferTooLarge => .bufferTooLarge
  | .invalidObject => .invalidParameter
  | .notSupported => .notSupported
  | _ => .failed

section createFromDisks

variable (s : CallSession) (info : SSI_RaidLevelInfo) (rounds : Nat)

/-- The two steps, once the disks have been looked up. The status comes with the handle that is
written to `*volumeHandle`, if one is.
Source: `src/volume.cpp` `SsiVolumeCreateFromDisks` -/
def createFromEndDevices (container : List EndDevice) (params : VolumeParams) :
    SysProg (SSI_Status × Option Nat) := do
  match ← attempt (containerFromDisks rounds container) with
  | .error e => do
      let status ← containerStatus e
      pure (status, none)
  | .ok pArray => do
      -- `clearLastErrorMessage`
      Prog.tell .empty
      match ← attempt (volumeInContainer info rounds pArray container params) with
      | .ok _ => pure (.ok, some s.nextHandle)
      | .error e => do
          let _ ← pArray.remove
          pure (volumeStatus e, none)

/-- `hasHandle` is false where `volumeHandle` is `NULL`. `info` is the local variable of
`setComponentSize`, `rounds` bounds the searches for names.
Source: `src/volume.cpp` `SsiVolumeCreateFromDisks` -/
def SsiVolumeCreateFromDisks (params : CreateFromDisksParams) (hasHandle : Bool) :
    SysProg (SSI_Status × Option Nat) :=
  if !hasHandle then pure (.invalidParameter, none)
  else if params.disks.length = 0 then do
    setLastErrorMessage (.ofLit "Not enough disks to create volume")
    pure (.invalidParameter, none)
  else
    match s.getEndDevices params.disks with
    | none => pure (.invalidHandle, none)
    | some devices =>
        let blockSize := (devices.head?.map (·.m_LogicalSectorSize)).getD 0
        if devices.any fun d => d.m_LogicalSectorSize ≠ blockSize then pure (.notSupported, none)
        else if (s.getEndDevice params.sourceDisk).isSome then pure (.notSupported, none)
        else createFromEndDevices s info rounds (devices.map (·.toEndDevice)) params.toVolumeParams

end createFromDisks

/-! ## The container -/

/-- The device name that a reading of the map file shows for a name: the first field of the first
line whose last path component contains the name. -/
def shownDevName (name : Str) : SysEvent → Option Str
  | ⟨.readMap, reply⟩ =>
      ((readFile reply.text reply.behind).bind fun map =>
        (RaidDevice.linesOf map).find? (RaidDevice.lineMatches true name)).map RaidDevice.lineDevName
  | ⟨.shell _, _⟩ => none
  | ⟨.readAttribute _, _⟩ => none
  | ⟨.stat _, _⟩ => none
  | ⟨.appendConfig _, _⟩ => none

/-- The device name of a name after the calls of a trace: the last reading of the map file that
shows the name decides, and where none does the device name is what it was. -/
def devNameAfter (name devName : Str) (tr : List SysEvent) : Str :=
  tr.foldl (fun devName x => (shownDevName name x).getD devName) devName

/-- The device name behind two traces is that of the second one, starting from that of the first. -/
theorem devNameAfter_append (name devName : Str) (tr tr' : List SysEvent) :
    devNameAfter name devName (tr ++ tr') = devNameAfter name (devNameAfter name devName tr) tr' :=
  List.foldl_append

/-- A program that does not look into the map file leaves the device names alone. -/
theorem ensures_devNameAfter {α : Type} {p : SysProg α} (hp : p.Calls (· ≠ .readMap)) :
    Ensures p fun tr _ => ∀ name devName, devNameAfter name devName tr = devName := by
  intro env i name devName
  have hnone : ∀ tr : List SysEvent, (∀ x ∈ tr, shownDevName name x = none) →
      devNameAfter name devName tr = devName := by
    intro tr
    induction tr with
    | nil => exact fun _ => rfl
    | cons x tr ih =>
        intro h
        obtain ⟨hx, htr⟩ := List.forall_mem_cons.mp h
        rw [devNameAfter, List.foldl_cons, hx]
        exact ih htr
  apply hnone
  rintro ⟨c, reply⟩ hx
  have hne := hp.of_mem_trace hx
  cases c with
  | readMap => exact absurd rfl hne
  | _ => rfl

namespace RaidDevice

/-- The device name after an update by name is the one that the reading shows. -/
theorem updated_shownDevName {d : RaidDevice} (hname : d.lookupByName) (reply : MapReply) :
    (d.updated reply).m_DevName =
      (shownDevName d.m_Name ⟨.readMap, reply⟩).getD d.m_DevName := by
  have hmatch : d.firstMatch = fun map => (linesOf map).find? (lineMatches true d.m_Name) := by
    funext map
    rw [firstMatch, wanted, if_pos hname, hname]
  have hshown : shownDevName d.m_Name ⟨.readMap, reply⟩ = (d.taken reply).map lineDevName := by
    rw [taken, hmatch]
    rfl
  rw [hshown]
  rcases hline : d.taken reply with _ | line
  · rw [updated_of_none hline]
    rfl
  · rw [updated_devName hline, if_pos hname]
    rfl

/-- An update from the map file leaves the members as they are. -/
theorem updated_members (d : RaidDevice) (reply : MapReply) :
    (d.updated reply).m_BlockDevices = d.m_BlockDevices := by
  unfold updated
  split
  next => rfl
  next => unfold take; split <;> rfl

/-- The search for a free name asks for nothing but whether the names are there. -/
theorem calls_determineDeviceName_stat (d : RaidDevice) (namePrefix : Str) (rounds id : Nat) :
    (d.determineDeviceName namePrefix rounds id).Calls (· ≠ .readMap) := by
  induction rounds generalizing d id with
  | zero => exact trivial
  | succ rounds ih =>
      refine ⟨by simp, fun enoent => ?_⟩
      cases enoent with
      | true => exact trivial
      | false => exact ih _ _

end RaidDevice

namespace RaidArray

variable (a : RaidArray)

/-- One poll of the wait for the container's identity, and those behind it. -/
theorem waitForIdentity_succ (polls : Nat) :
    a.waitForIdentity (polls + 1) = .call .readMap fun reply =>
      let a' := { a with toRaidDevice := a.toRaidDevice.updated reply }
      if a'.m_Uuid.equal .empty then a'.waitForIdentity polls else pure a' := by
  rw [waitForIdentity, RaidDevice.update_eq]
  rfl

/-- What the wait for a container makes of it: the members and the name stay, and the device name is
the one that the map file shows. -/
def Waited (tr : List SysEvent) (a' : RaidArray) : Prop :=
  a'.m_BlockDevices = a.m_BlockDevices ∧ a'.m_Name = a.m_Name ∧
    a'.m_DevName = devNameAfter a.m_Name a.m_DevName tr

variable {a} in
/-- A poll that was answered in front of a wait is a part of it. -/
theorem waited_cons {reply : MapReply} (hname : a.lookupByName) {tr : List SysEvent} {a' : RaidArray}
    (h : Waited { a with toRaidDevice := a.toRaidDevice.updated reply } tr a') :
    a.Waited (⟨.readMap, reply⟩ :: tr) a' := by
  obtain ⟨hmembers, hsame, hdev⟩ := h
  dsimp only at hmembers hsame hdev
  have hkept := RaidDevice.updated_name hname reply
  refine ⟨hmembers.trans (RaidDevice.updated_members _ _), hsame.trans hkept, ?_⟩
  rw [hdev, hkept, RaidDevice.updated_shownDevName hname]
  rfl

/-- By induction over the polls: the wait returns the array with what the readings of the map have shown
last. -/
theorem waitForIdentity_ensures (polls : Nat) (hname : a.lookupByName) :
    Ensures (a.waitForIdentity polls) fun tr res => ∃ a', res = .ok a' ∧ a.Waited tr a' := by
  induction polls generalizing a with
  | zero => exact ensures_pure ⟨a, rfl, rfl, rfl, rfl⟩
  | succ polls ih =>
      rw [waitForIdentity_succ]
      apply ensures_call
      intro reply
      dsimp only
      split
      next =>
        have hname' : RaidDevice.lookupByName (a.toRaidDevice.updated reply) := by
          rw [RaidDevice.lookupByName, RaidDevice.updated_name hname]
          exact hname
        refine (ih { a with toRaidDevice := a.toRaidDevice.updated reply } hname').mono ?_
        rintro tr res ⟨a', rfl, hwaited⟩
        exact ⟨a', rfl, waited_cons hname hwaited⟩
      next => exact ensures_pure ⟨_, rfl, waited_cons hname ⟨rfl, rfl, rfl⟩⟩

/-- A command of the wait returns, whatever its status is. -/
theorem yields_shellCommand (cmd : Command) : Yields (shellCommand cmd) fun _ => True :=
  yields_call fun _ => yields_pure trivial

/-- The wait for the link returns. -/
theorem yields_waitForLink (polls : Nat) : Yields (a.waitForLink polls) fun _ => True := by
  induction polls with
  | zero => exact yields_pure trivial
  | succ polls ih =>
      apply yields_bind (yields_shellCommand _)
      intro found _
      split
      next => exact yields_pure trivial
      next =>
        split
        next => exact ih
        next =>
          apply yields_bind (yields_shellCommand _)
          intro linked _
          split
          next => exact yields_pure trivial
          next => exact ih

/-- The wait for the link does not touch the object. -/
theorem waitForLink_ensures (polls : Nat) :
    Ensures (a.waitForLink polls) fun tr res =>
      res = .ok () ∧ ∀ name devName, devNameAfter name devName tr = devName := by
  have hcalls : (a.waitForLink polls).Calls (· ≠ .readMap) :=
    (a.calls_waitForLink polls).mono fun c hc heq => by
      rw [heq] at hc
      exact hc
  exact ((a.yields_waitForLink polls).and (ensures_devNameAfter hcalls)).mono
    fun tr res ⟨⟨_, hok, _⟩, htold⟩ => ⟨hok, htold⟩

/-- `Array::remove` returns a status in every run. -/
theorem yields_remove : Yields a.remove fun _ => True := by
  have hrounds : ∀ rounds, Yields (a.removeRounds rounds) fun _ => True := by
    intro rounds
    induction rounds with
    | zero => exact yields_pure trivial
    | succ rounds ih =>
        apply yields_bind yields_shellEx
        intro stopped _
        split
        next =>
          apply yields_bind yields_shellEx
          intro cleared _
          split
          next => exact yields_pure trivial
          next => exact ih
        next => exact ih
  exact hrounds 4

end RaidArray

/-- A container creation command has exited with 0. -/
def ContainerCreated (tr : List SysEvent) : Prop :=
  ∃ cmd, RaidArray.IsContainerCreation cmd ∧ (cmd, 0) ∈ exits tr

/-- A volume creation command has exited with 0. -/
def VolumeCreated (tr : List SysEvent) : Prop :=
  ∃ cmd, Volume.IsVolumeCreation cmd ∧ (cmd, 0) ∈ exits tr

/-- No command of the trace stops a device or clears metadata. -/
def NoCleanup (tr : List SysEvent) : Prop := ∀ x ∈ exits tr, ¬ RaidArray.IsCleanup x.1

/-- Nothing is cleaned up in a trace iff nothing is in its parts. -/
theorem noCleanup_append {tr tr' : List SysEvent} :
    NoCleanup (tr ++ tr') ↔ NoCleanup tr ∧ NoCleanup tr' := by
  simp [NoCleanup, or_imp, forall_and]

/-- A container is created in a trace iff it is in one of its parts. -/
theorem containerCreated_append {tr tr' : List SysEvent} :
    ContainerCreated (tr ++ tr') ↔ ContainerCreated tr ∨ ContainerCreated tr' := by
  simp [ContainerCreated, and_or_left, exists_or]

/-- A volume is created in a trace iff it is in one of its parts. -/
theorem volumeCreated_append {tr tr' : List SysEvent} :
    VolumeCreated (tr ++ tr') ↔ VolumeCreated tr ∨ VolumeCreated tr' := by
  simp [VolumeCreated, and_or_left, exists_or]

/-- `a` is the container that the calls `creation` have created from the disks. -/
structure IsCreated (container : List EndDevice) (creation : List SysEvent) (a : RaidArray) : Prop where
  members : a.m_BlockDevices = container
  /-- The command that creates a container of these disks under the name of `a` has succeeded. -/
  created : (.createContainer a.m_Name container.length (container.map (·.m_DevName)), 0) ∈ exits creation
  /-- It is the only one that creates a container. -/
  only : ∀ x ∈ exits creation, RaidArray.IsContainerCreation x.1 →
    x.1 = .createContainer a.m_Name container.length (container.map (·.m_DevName))
  /-- The device is the one that the map file shows under this name, none where it shows none. -/
  devName : a.m_DevName = devNameAfter a.m_Name .empty creation

/-- What creates the array of these disks creates a container. -/
theorem IsCreated.containerCreated {container : List EndDevice} {creation : List SysEvent}
    {a : RaidArray} (h : IsCreated container creation a) : ContainerCreated creation :=
  ⟨.createContainer a.m_Name container.length (container.map (·.m_DevName)), trivial, h.created⟩

/-- What the creation of a container does: it returns the container that it has created, and has
created none where it throws. -/
def ContainerStep (container : List EndDevice) (tr : List SysEvent)
    (res : Except Fault RaidArray) : Prop :=
  NoCleanup tr ∧ match res with
    | .ok a => IsCreated container tr a
    | .error _ => ¬ ContainerCreated tr

/-- A program that may issue no command issues none. -/
theorem exits_eq_nil_of_calls {α : Type} {p : SysProg α} (hp : p.Calls (OnShell fun _ => False)) :
    Ensures p fun tr _ => exits tr = [] := by
  intro env i
  exact List.eq_nil_iff_forall_not_mem.mpr fun _ hx => of_mem_exits hp hx

/-- Without commands no container is created. -/
theorem not_containerCreated_of_nil {tr : List SysEvent} (h : exits tr = []) :
    ¬ ContainerCreated tr := by
  rintro ⟨cmd, -, hmem⟩
  rw [h] at hmem
  simp at hmem

/-- Without commands nothing is cleaned up. -/
theorem noCleanup_of_nil {tr : List SysEvent} (h : exits tr = []) : NoCleanup tr := by
  intro x hx
  rw [h] at hx
  simp at hx

/-- The wait for a new container creates nothing and cleans nothing up, and looks up the device
name. -/
theorem waitForContainer_ensures {a : RaidArray} (hname : a.lookupByName) :
    Ensures a.waitForContainer fun tr res =>
      (∀ x ∈ exits tr, RaidArray.IsWait x.1) ∧ ∃ a', res = .ok a' ∧ a.Waited tr a' := by
  have hwaits : Ensures a.waitForContainer fun tr res => ∃ a', res = .ok a' ∧ a.Waited tr a' := by
    refine ensures_bind (a.waitForIdentity_ensures 10 hname) ?_ ?_
    · rintro tr a' ⟨_, heq, hwaited⟩
      obtain rfl := Except.ok.inj heq
      refine ensures_bind (a'.waitForLink_ensures 10) ?_ ?_
      · rintro tr' _ ⟨-, hlink⟩
        obtain ⟨hmembers, hsame, hdev⟩ := hwaited
        refine ensures_pure ⟨a', rfl, hmembers, hsame, ?_⟩
        rw [List.append_nil, devNameAfter_append, hlink, hdev]
      · rintro tr' e ⟨hok, -⟩
        exact nomatch hok
    · rintro tr e ⟨_, hok, -⟩
      exact nomatch hok
  exact (ensures_of_calls a.calls_waitForContainer).and hwaits

/-- The commands of the wait clean nothing up. -/
theorem noCleanup_of_isWait {tr : List SysEvent} (h : ∀ x ∈ exits tr, RaidArray.IsWait x.1) :
    NoCleanup tr := by
  intro x hx hcleanup
  have hwait := h x hx
  obtain ⟨cmd, status⟩ := x
  cases cmd <;> first | exact hcleanup | exact hwait

/-- A container that has been given a number as its name is looked up by this name. -/
theorem lookupByName_numbered (d : RaidDevice) (n : Nat) :
    RaidDevice.lookupByName { d with m_Name := .ofLit "Imsm_" ++ .ofNat n } := by
  have hne : ¬ (Str.ofLit "Imsm_" ++ Str.ofNat n).equal .empty :=
    Str.append_ne_empty (by decide) _
  unfold RaidDevice.lookupByName
  rw [Bool.eq_false_of_not_eq_true hne]
  rfl

/-- A successful command is followed by the wait, which ends with the container just created. -/
theorem isCreated_of_waited {tr tr' : List SysEvent} {a a' : RaidArray} {reply : ShellReply}
    (hnil : exits tr = []) (hkept : ∀ name devName, devNameAfter name devName tr = devName)
    (hdev : a.m_DevName = .empty) (hzero : reply.exitStatus = 0)
    (hwait : ∀ x ∈ exits tr', RaidArray.IsWait x.1) (hwaited : a.Waited tr' a') :
    IsCreated a.m_BlockDevices (tr ++ ⟨.shell (.createContainer a.m_Name a.m_BlockDevices.length
      (a.m_BlockDevices.map (·.m_DevName))), reply⟩ :: tr') a' := by
  obtain ⟨hmembers, hsame, hname⟩ := hwaited
  refine ⟨hmembers, ?_, ?_, ?_⟩
  · rw [exits_append, hnil, exits_cons_shell, hzero, hsame]
    exact List.mem_cons_self
  · intro x hx hcreation
    rw [exits_append, hnil, exits_cons_shell] at hx
    rcases List.mem_cons.mp hx with rfl | hx
    · rw [hsame]
    · have hx' := hwait x hx
      obtain ⟨cmd, status⟩ := x
      cases cmd <;> first | exact absurd hcreation id | exact absurd hx' id
  · rw [devNameAfter_append, hkept, hname, hsame, hdev]
    rfl

/-- The creation of a container that has no device name yet. -/
theorem create_ensures {a : RaidArray} (hdev : a.m_DevName = .empty) (rounds : Nat) :
    Ensures (a.create rounds) (ContainerStep a.m_BlockDevices) := by
  have hname := ((exits_eq_nil_of_calls (a.toRaidDevice.calls_determineDeviceName (.ofLit "Imsm_")
    rounds 0 _)).and (ensures_devNameAfter (a.toRaidDevice.calls_determineDeviceName_stat
      (.ofLit "Imsm_") rounds 0))).and
        (a.toRaidDevice.returns_determineDeviceName (.ofLit "Imsm_") rounds 0).ensures
  unfold RaidArray.create
  refine ensures_bind hname ?_ ?_
  · rintro tr d ⟨⟨hnil, hkept⟩, hd⟩
    obtain ⟨hmembers, hnone, hlookup⟩ : d.m_BlockDevices = a.m_BlockDevices ∧
        d.m_DevName = .empty ∧ d.lookupByName := by
      obtain ⟨n, rfl⟩ := hd d rfl
      exact ⟨rfl, hdev, lookupByName_numbered a.toRaidDevice n⟩
    rw [← hmembers]
    dsimp only
    split
    next =>
      apply ensures_throw
      rw [List.append_nil]
      exact ⟨noCleanup_of_nil hnil, not_containerCreated_of_nil hnil⟩
    next =>
      refine ensures_shellEx_bind ?_ ?_
      · intro reply hzero
        rw [if_neg (by simp)]
        have hnamed : RaidDevice.lookupByName { a with toRaidDevice := d }.toRaidDevice := hlookup
        refine (waitForContainer_ensures hnamed).mono ?_
        rintro tr' res ⟨hwait, a', rfl, hwaited⟩
        refine ⟨noCleanup_append.mpr ⟨noCleanup_of_nil hnil, ?_⟩,
          isCreated_of_waited hnil hkept hnone hzero hwait hwaited⟩
        intro x hx
        rw [exits_cons_shell] at hx
        rcases List.mem_cons.mp hx with rfl | hx
        · exact id
        · exact noCleanup_of_isWait hwait x hx
      · intro reply hfail
        rw [if_pos (by simp)]
        refine ensures_throw ⟨noCleanup_append.mpr ⟨noCleanup_of_nil hnil, ?_⟩, ?_⟩
        · intro x hx
          rw [exits_cons_shell] at hx
          obtain rfl := List.mem_singleton.mp hx
          exact id
        · rintro ⟨cmd, -, hmem⟩
          rw [exits_append, hnil, exits_cons_shell, exits_nil] at hmem
          have heq := List.mem_singleton.mp hmem
          exact hfail (Prod.mk.inj heq).2.symm
  · rintro tr e ⟨⟨hnil, -⟩, -⟩
    exact ⟨noCleanup_of_nil hnil, not_containerCreated_of_nil hnil⟩

/-- The first step in all its runs: the container is created and known by its name and device, or
nothing is left of it. -/
theorem containerFromDisks_ensures (rounds : Nat) (container : List EndDevice) :
    Ensures (containerFromDisks rounds container) (ContainerStep container) := by
  unfold containerFromDisks
  rcases hset : RaidArray.new.setEndDevices container with e | a
  · exact ensures_throw ⟨noCleanup_of_nil rfl, not_containerCreated_of_nil rfl⟩
  · obtain ⟨-, rfl⟩ := RaidArray.setEndDevices_eq_ok_iff.mp hset
    have hnew : ({ RaidArray.new with m_BlockDevices := container } : RaidArray).m_DevName = .empty :=
      rfl
    exact create_ensures hnew rounds

/-! ## The volume -/

/-- What the creation of a volume does. -/
def VolumeStep (tr : List SysEvent) (res : Except Fault Volume) : Prop :=
  NoCleanup tr ∧ ¬ ContainerCreated tr ∧ ∀ v, res = .ok v → VolumeCreated tr

/-- The second step issues inquiries and the two forms of the volume's creation. -/
theorem calls_volumeInContainer (info : SSI_RaidLevelInfo) (rounds : Nat) (pArray : RaidArray)
    (container : List EndDevice) (params : VolumeParams) :
    (volumeInContainer info rounds pArray container params).Calls
      (OnShell fun cmd => Volume.IsInquiry cmd ∨ Volume.IsVolumeCreation cmd) := by
  refine Prog.calls_bind ?_ fun v _ => ?_
  · apply (Volume.calls_prepare _ _ _ _ _).mono
    intro c hc
    cases c with
    | shell cmd => exact .inl hc
    | _ => exact trivial
  · apply (v.calls_create rounds).mono
    intro c hc
    cases c with
    | shell cmd => exact .inr hc
    | _ => exact trivial

/-- Where the program returns, a volume creation command has exited with 0. -/
def Creates {α : Type} (p : SysProg α) : Prop :=
  Ensures p fun tr res => ∀ a, res = .ok a → VolumeCreated tr

section creates

variable {α β : Type} {p : SysProg α} {f : α → SysProg β}

/-- What creates a volume where it returns creates it also in front of more. -/
theorem Creates.bind (hp : Creates p) : Creates (p >>= f) := by
  refine ensures_bind hp (fun tr a h => ?_) fun tr e _ b hb => nomatch hb
  exact fun env i b _ => volumeCreated_append.mpr (.inl (h a rfl))

/-- What is put in front of a creation does not take it away. -/
theorem creates_bind (hf : ∀ a, Creates (f a)) : Creates (p >>= f) := by
  have hany : Ensures p fun _ _ => True := fun _ _ => trivial
  refine ensures_bind hany (fun tr a _ => ?_) fun tr e _ b hb => nomatch hb
  exact (hf a).mono fun tr' res h b hb => volumeCreated_append.mpr (.inr (h b hb))

/-- A program that throws returns nothing, so that nothing is claimed of it. -/
theorem creates_throw (e : Fault) : Creates (.throw e : SysProg α) :=
  ensures_throw fun _ h => nomatch h

/-- Catching keeps a creation where the handler creates too. -/
theorem creates_catchAll {handler : Fault → SysProg α} (hp : Creates p)
    (hhandler : ∀ e, Creates (handler e)) : Creates (p.catchAll handler) := by
  refine ensures_catchAll hp (fun tr a h => h) fun tr e _ => ?_
  exact (hhandler e).mono fun tr' res h a ha => volumeCreated_append.mpr (.inr (h a ha))

end creates

/-- The two forms of the command: where the first one fails the second one is tried, and one of them has
succeeded where the function returns. -/
theorem creates_createVolume (v : Volume) (rwhPolicy : Str) :
    Creates (createVolume (v.createCommand rwhPolicy)) := by
  unfold createVolume
  rw [shellOutput_bind]
  apply ensures_call
  intro reply
  dsimp only
  split
  next hfail =>
    split
    next => exact ensures_note (ensures_throw fun u hu => nomatch hu)
    next => exact ensures_note (ensures_throw fun u hu => nomatch hu)
  next hzero =>
    refine ensures_pure fun u _ => ⟨v.createCommand rwhPolicy, trivial, ?_⟩
    rw [exits_cons_shell, not_not.mp hzero]
    exact List.mem_cons_self

/-- Where creation returns, one of its two commands has exited with 0. -/
theorem creates_tryCommands (v : Volume) : Creates v.tryCommands := by
  unfold Volume.tryCommands
  refine creates_bind fun rwhPolicy => creates_catchAll (creates_createVolume v rwhPolicy) fun f => ?_
  split
  next => exact creates_bind fun rwhPolicy' => creates_createVolume v rwhPolicy'
  next => exact creates_throw _

/-- `Volume::create` returns only behind a creation that has succeeded. -/
theorem creates_create (v : Volume) (rounds : Nat) : Creates (v.create rounds) := by
  refine Creates.bind (creates_bind fun v' => ?_)
  split
  next => exact creates_throw _
  split
  next => exact creates_throw _
  next => exact (creates_tryCommands v').bind

/-- The second step in all its runs: a volume has been created where it returns normally. -/
theorem volumeInContainer_ensures (info : SSI_RaidLevelInfo) (rounds : Nat) (pArray : RaidArray)
    (container : List EndDevice) (params : VolumeParams) :
    Ensures (volumeInContainer info rounds pArray container params) VolumeStep := by
  have hcalls := ensures_of_calls (calls_volumeInContainer info rounds pArray container params)
  have hcreates : Creates (volumeInContainer info rounds pArray container params) :=
    creates_bind fun v => creates_create v rounds
  refine (hcalls.and hcreates).mono fun tr res h => ⟨fun x hx hclean => ?_, ?_, h.2⟩
  · rcases h.1 x hx with hx | hx
    · obtain ⟨cmd, status⟩ := x
      cases cmd <;> first | exact hclean | exact hx
    · obtain ⟨cmd, status⟩ := x
      cases cmd <;> first | exact hclean | exact hx
  · rintro ⟨cmd, hcreation, hmem⟩
    rcases h.1 _ hmem with hx | hx <;> cases cmd <;> first | exact hcreation | exact hx

/-! ## The call -/

section main

variable (s : CallSession) (info : SSI_RaidLevelInfo) (rounds : Nat)

/-- The calls of a run of the program. -/
def TraceOf {α : Type} (p : SysProg α) (tr : List SysEvent) : Prop :=
  ∃ env i, (p.run env i).trace = tr

/-- The calls are those of a removal of the container, which stop it and clear the metadata of its
members. -/
def IsRemoval (a : RaidArray) (removal : List SysEvent) : Prop :=
  TraceOf a.remove removal ∧ ∀ x ∈ exits removal,
    x.1 = .stop a.m_DevName ∨ x.1 = .clearMembers (a.m_BlockDevices.map (·.m_DevName))

/-- The cleaning-up returns, and its commands are those that stop this container and clear its
members. -/
theorem remove_ensures (a : RaidArray) :
    Ensures a.remove fun removal res => (∃ s, res = .ok s) ∧ IsRemoval a removal := by
  intro env i
  refine ⟨(a.yields_remove env i).imp fun _ h => h.1, ⟨env, i, rfl⟩, ?_⟩
  exact ensures_of_calls a.calls_remove env i

/-- What a call leaves behind that is given the disks `container`. -/
structure CleansUp (container : List EndDevice) (tr : List SysEvent)
    (res : Except Fault (SSI_Status × Option Nat)) : Prop where
  /-- No `Exception` leaves the call. -/
  returns : ∀ e, res ≠ .error (.exception e)
  /-- Where it succeeds both have been created and nothing has been removed. -/
  done : ∀ handle, res = .ok (.ok, handle) →
    handle = some s.nextHandle ∧ ContainerCreated tr ∧ VolumeCreated tr ∧ NoCleanup tr
  /-- Where it fails no handle is written, and either no container has been created and nothing is
  removed, or the run is the creation of a container, an attempt at the volume that removes nothing,
  and the removal of this very container. -/
  undone : ∀ status handle, res = .ok (status, handle) → status ≠ .ok →
    handle = none ∧ ((¬ ContainerCreated tr ∧ NoCleanup tr) ∨
      ∃ (a : RaidArray) (creation volume removal : List SysEvent),
        tr = creation ++ volume ++ removal ∧ IsCreated container creation a ∧ NoCleanup creation ∧
          ¬ ContainerCreated volume ∧ NoCleanup volume ∧ IsRemoval a removal)

/-- No exception of the first step is answered with the status of success. -/
theorem containerStatus_ne_ok (e : Exception) :
    Yields (containerStatus e) (· ≠ .ok) ∧
      (containerStatus e).Calls (OnShell fun _ => False) := by
  unfold containerStatus
  split
  all_goals first
    | exact ⟨yields_pure (by decide), trivial⟩
    | exact ⟨yields_note (yields_pure (by decide)), trivial⟩

/-- No exception of the second step is answered with the status of success. -/
theorem volumeStatus_ne_ok (e : Exception) : volumeStatus e ≠ .ok := by
  unfold volumeStatus
  split <;> decide

/-- Behind the checks, the two steps and the cleaning-up between them. -/
theorem createFromEndDevices_cleansUp (container : List EndDevice) (params : VolumeParams) :
    Ensures (createFromEndDevices s info rounds container params) (CleansUp s container) := by
  unfold createFromEndDevices
  refine ensures_attempt_bind (containerFromDisks_ensures rounds container) ?_ ?_ ?_
  · rintro tr a ⟨hclean, hcreated⟩
    refine ensures_note (ensures_attempt_bind
      (volumeInContainer_ensures info rounds a container params) ?_ ?_ ?_)
    · rintro tr' v ⟨hclean', -, hvolume⟩
      refine ensures_pure ⟨fun e he => (nomatch he), ?_, ?_⟩
      · intro handle hhandle
        obtain ⟨-, rfl⟩ := Prod.mk.inj (Except.ok.inj hhandle)
        rw [List.append_nil]
        exact ⟨rfl, containerCreated_append.mpr (.inl hcreated.containerCreated),
          volumeCreated_append.mpr (.inr (hvolume v rfl)), noCleanup_append.mpr ⟨hclean, hclean'⟩⟩
      · intro status handle hstatus hne
        exact absurd (Prod.mk.inj (Except.ok.inj hstatus)).1.symm hne
    · rintro tr' e ⟨hclean', hnone, -⟩
      refine ensures_bind (remove_ensures a) ?_ ?_
      · rintro removal removed ⟨-, hremoval⟩
        refine ensures_pure ⟨fun e he => (nomatch he), ?_, ?_⟩
        · intro handle hhandle
          exact absurd (Prod.mk.inj (Except.ok.inj hhandle)).1 (volumeStatus_ne_ok e)
        · intro status handle hstatus _
          obtain ⟨-, rfl⟩ := Prod.mk.inj (Except.ok.inj hstatus)
          refine ⟨rfl, .inr ⟨a, tr, tr', removal, ?_, hcreated, hclean, hnone, hclean', hremoval⟩⟩
          rw [List.append_nil, List.append_assoc]
      · rintro removal fault ⟨⟨_, hok⟩, -⟩
        exact nomatch hok
    · rintro tr' fault hfault -
      exact ⟨fun e he => hfault e (Except.error.inj he), fun _ h => (nomatch h), fun _ _ h => (nomatch h)⟩
  · rintro tr e ⟨hclean, hnone⟩
    obtain ⟨hyields, hcalls⟩ := containerStatus_ne_ok e
    refine ensures_bind (hyields.and (exits_eq_nil_of_calls hcalls)) ?_ ?_
    · rintro tr' status ⟨⟨status', heq, hne⟩, hnil⟩
      obtain rfl := Except.ok.inj heq
      refine ensures_pure ⟨fun e he => (nomatch he), ?_, ?_⟩
      · intro handle hhandle
        exact absurd (Prod.mk.inj (Except.ok.inj hhandle)).1 hne
      · intro status'' handle hstatus _
        obtain ⟨-, rfl⟩ := Prod.mk.inj (Except.ok.inj hstatus)
        rw [List.append_nil]
        refine ⟨rfl, .inl ⟨fun hcreated => ?_, noCleanup_append.mpr ⟨hclean, noCleanup_of_nil hnil⟩⟩⟩
        rcases containerCreated_append.mp hcreated with h | h
        · exact hnone h
        · exact not_containerCreated_of_nil hnil h
    · rintro tr' fault ⟨⟨_, hok, -⟩, -⟩
      exact nomatch hok
  · rintro tr fault hfault -
    exact ⟨fun e he => hfault e (Except.error.inj he), fun _ h => (nomatch h), fun _ _ h => (nomatch h)⟩

/-- The disks that the call is given. -/
def givenDisks (params : CreateFromDisksParams) : List EndDevice :=
  ((s.getEndDevices params.disks).getD []).map (·.toEndDevice)

/-- A refusal leaves nothing behind. -/
theorem cleansUp_refused {container : List EndDevice} {status : SSI_Status} (h : status ≠ .ok) :
    CleansUp s container [] (.ok (status, none)) where
  returns e he := nomatch he
  done handle hhandle := absurd (Prod.mk.inj (Except.ok.inj hhandle)).1 h
  undone status' handle hstatus _ := by
    obtain ⟨-, rfl⟩ := Prod.mk.inj (Except.ok.inj hstatus)
    exact ⟨rfl, .inl ⟨not_containerCreated_of_nil rfl, noCleanup_of_nil rfl⟩⟩

/-- Every run of the entry point cleans up after itself. -/
theorem ensures_cleansUp (params : CreateFromDisksParams) (hasHandle : Bool) :
    Ensures (SsiVolumeCreateFromDisks s info rounds params hasHandle)
      (CleansUp s (givenDisks s params)) := by
  unfold SsiVolumeCreateFromDisks
  split
  next => exact ensures_pure (cleansUp_refused s (by decide))
  split
  next => exact ensures_note (ensures_pure (cleansUp_refused s (by decide)))
  split
  next => exact ensures_pure (cleansUp_refused s (by decide))
  next devices hdevices =>
    have hgiven : givenDisks s params = devices.map (·.toEndDevice) := by
      rw [givenDisks, hdevices]
      rfl
    rw [hgiven]
    dsimp only
    split
    next => exact ensures_pure (cleansUp_refused s (by decide))
    split
    next => exact ensures_pure (cleansUp_refused s (by decide))
    next => exact createFromEndDevices_cleansUp s info rounds _ _

end main

section sample

/-- A session that lists two free disks of an AHCI controller, with the port and the phy of each disk, the
two ports and the two phys of the controller. -/
def sampleCallSession : CallSession :=
  let listed (devName : String) : ListedDevice :=
    ⟨{ sampleDisk (.ofLit devName) .passThru with array := none }, 1000000, 512, false, []⟩
  ⟨[(2, listed "sda"), (5, listed "sdb")], [], [], 12⟩

/-- A volume of level 1 with the distributed policy on the two disks. -/
def sampleCreation : CreateFromDisksParams :=
  ⟨⟨lit "data", 0, SSI_Raid1, SSI_StripSize64kB, .distributed⟩, [2, 5], 0⟩

/-- An mdadm that does not know the option `--rwh-policy`. -/
def newerMdadm : SysEnv
  | _, .shell (.createVolume _ _ _ _ rwhPolicy _ _) =>
      if (rwhPolicy.find (lit "--rwh-policy") 0).isSome then ⟨1, [], []⟩ else ⟨0, [], []⟩
  | _, .shell _ => ⟨0, [], []⟩
  | _, .readMap => ⟨none, [], fun path => path⟩
  | _, .readAttribute _ => none
  | _, .stat _ => true
  | _, .appendConfig _ => none

end sample

end Irstessi
