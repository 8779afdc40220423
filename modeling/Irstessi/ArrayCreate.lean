import Irstessi.Array

/-!
# `class Array`: creation and removal

* `RaidArray.setEndDevices`, `create`, `remove`; `EndDevice.IsFree` is what `setEndDevices` asks of
  a disk.
* `setEndDevices_eq_ok_iff`: the container takes the disks iff they are all free.
* `calls_waitForContainer`, `calls_remove`: the commands of the wait for a new container and of a
  removal.

A container is created under a name that no device has, and its identity is then waited for: the map
file is read until it has a line for the name, and the link under `/dev/md` is looked for with `ls` and
made with `ln`. A removal stops the container and clears the metadata of its members, in up to four
rounds. The commands of the three parts are told apart by predicates on `Command`, so that later modules
can say which part a command of a trace belongs to.
-/

namespace Irstessi

open Interact

/-- A block device that is not a system disk, is in state normal and is not in use. -/
def EndDevice.IsFree (d : EndDevice) : Prop :=
  d.isBlockDevice = true ∧ d.systemDisk = false ∧ d.diskUsage = .passThru ∧ d.diskState = .normal

instance (d : EndDevice) : Decidable d.IsFree := inferInstanceAs (Decidable (_ ∧ _))

/-- The result of a command without a message.
Source: `utils.cpp` `shell_command` -/
def shellCommand (cmd : Command) : SysProg Int := do
  let reply ← shellOutput cmd
  pure (if reply.exitStatus ≠ 0 then -1 else 0)

namespace RaidArray

/-- Source: `array.cpp` `Array::Array` -/
def new : RaidArray := ⟨⟨.empty, .empty, .empty, .empty, []⟩, 0, false⟩

/-- What is thrown at a disk.
Source: `array.cpp` `Array::setEndDevices`, the loop -/
def refusal (device : EndDevice) : Option Exception :=
  if device.isBlockDevice then
    if device.systemDisk then some .systemDevice
    else if device.diskUsage ≠ .passThru then some .invalidUsage
    else if device.diskState ≠ .normal then some .notAvailable
    else none
  else some .invalidObject

/-- The first disk that is refused ends the function; its callers drop the container then.
Source: `array.cpp` `Array::setEndDevices` -/
def setEndDevices (a : RaidArray) (container : List EndDevice) : Except Exception RaidArray :=
  match container.findSome? refusal with
  | some e => .error e
  | none => .ok { a with m_BlockDevices := container }

/-- While there is no uuid the identity is updated, at most `polls` times.
Source: `array.cpp` `Array::__wait_for_container`, the first loop -/
def waitForIdentity (a : RaidArray) : Nat → SysProg RaidArray
  | 0 => pure a
  | polls + 1 => do
      let d ← a.toRaidDevice.update
      let a := { a with toRaidDevice := d }
      if a.m_Uuid.equal .empty then waitForIdentity a polls else pure a

/-- The link to the device is waited for, or made if the device is known, at most `polls` times.
Source: `array.cpp` `Array::__wait_for_container`, the second loop -/
def waitForLink (a : RaidArray) : Nat → SysProg Unit
  | 0 => pure ()
  | polls + 1 => do
      if (← shellCommand (.listName a.m_Name)) = 0 then pure ()
      else if a.m_DevName.equal .empty then waitForLink a polls
      else if (← shellCommand (.linkName a.m_DevName a.m_Name)) = 0 then pure ()
      else waitForLink a polls

/-- Source: `array.cpp` `Array::__wait_for_container` -/
def waitForContainer (a : RaidArray) : SysProg RaidArray := do
  let a ← a.waitForIdentity 10
  a.waitForLink 10
  pure a

/-- `rounds` bounds the search for a name.
Source: `array.cpp` `Array::create` -/
def create (a : RaidArray) (rounds : Nat) : SysProg RaidArray := do
  let d ← a.toRaidDevice.determineDeviceName (.ofLit "Imsm_") rounds 0
  let a := { a with toRaidDevice := d }
  if a.m_BlockDevices.length = 0 then raise .bufferTooSmall
  else do
    let result ← shellEx (.createContainer a.m_Name a.m_BlockDevices.length
      (a.m_BlockDevices.map (·.m_DevName))) 3 0
    if result ≠ 0 then raise .arrayCreateFailed else a.waitForContainer

/-- One round and those that are left.
Source: `array.cpp` `Array::remove`, the loop -/
def removeRounds (a : RaidArray) : Nat → SysProg SSI_Status
  | 0 => pure .failed
  | rounds + 1 => do
      if (← shellEx (.stop a.m_DevName) 1 0) = 0 then
        if (← shellEx (.clearMembers (a.m_BlockDevices.map (·.m_DevName))) 1 0) = 0 then pure .ok
        else removeRounds a rounds
      else removeRounds a rounds

/-- Source: `array.cpp` `Array::remove` -/
def remove (a : RaidArray) : SysProg SSI_Status := a.removeRounds 4

/-! ## Members -/

/-- `setEndDevices` refuses no free disk, and every other one. -/
theorem refusal_eq_none_iff (d : EndDevice) : refusal d = none ↔ d.IsFree := by
  unfold refusal EndDevice.IsFree
  split_ifs <;> simp_all

/-- The container takes the disks iff they are all free. -/
theorem setEndDevices_eq_ok_iff {a a' : RaidArray} {container : List EndDevice} :
    a.setEndDevices container = .ok a' ↔
      (∀ d ∈ container, d.IsFree) ∧ a' = { a with m_BlockDevices := container } := by
  have hfree : container.findSome? refusal = none ↔ ∀ d ∈ container, d.IsFree := by
    simp only [List.findSome?_eq_none_iff, refusal_eq_none_iff]
  unfold setEndDevices
  split
  next e hsome =>
    constructor
    · exact fun h => nomatch h
    · rintro ⟨hall, -⟩
      exact nomatch hsome.symm.trans (hfree.mpr hall)
  next hnone =>
    constructor
    · intro h
      exact ⟨hfree.mp hnone, (Except.ok.inj h).symm⟩
    · rintro ⟨-, rfl⟩
      rfl

/-! ## The commands of creation and removal -/

/-- A command that stops a device or clears metadata. -/
def IsCleanup : Command → Prop
  | .stop _ => True
  | .clearMembers _ => True
  | .zeroSuperblock _ => True
  | _ => False

/-- A command that waits for the link to the container. -/
def IsWait : Command → Prop
  | .listName _ => True
  | .linkName _ _ => True
  | _ => False

/-- A command that creates a container. -/
def IsContainerCreation : Command → Prop
  | .createContainer _ _ _ => True
  | _ => False

variable {P : Command → Prop} (a : RaidArray)

/-- The wait for the identity issues no command: it reads the map file. -/
theorem calls_waitForIdentity (polls : Nat) : (a.waitForIdentity polls).Calls (OnShell P) := by
  induction polls generalizing a with
  | zero => exact trivial
  | succ polls ih =>
      apply Prog.calls_bind (a.toRaidDevice.calls_update P)
      intro d _
      simp only
      split
      next => exact ih _
      next => exact trivial

/-- The calls of a sequence that starts with a command of the wait. -/
theorem calls_shellCommand_bind {α : Type} {cmd : Command} {f : Int → SysProg α} (h : P cmd)
    (hf : ∀ r, (f r).Calls (IsShell P)) : (shellCommand cmd >>= f).Calls (IsShell P) :=
  Prog.calls_bind ⟨h, fun _ => trivial⟩ fun r _ => hf r

/-- The wait for the link makes no calls but its two shell commands: it does not look into the map
file again. -/
theorem calls_waitForLink (polls : Nat) : (a.waitForLink polls).Calls (IsShell IsWait) := by
  induction polls with
  | zero => exact trivial
  | succ polls ih =>
      apply calls_shellCommand_bind trivial
      intro found
      split
      next => exact trivial
      next =>
        split
        next => exact ih
        next =>
          apply calls_shellCommand_bind trivial
          intro linked
          split
          next => exact trivial
          next => exact ih

/-- The wait for the container issues the commands of the wait for its link only. -/
theorem calls_waitForContainer : a.waitForContainer.Calls (OnShell IsWait) := by
  apply Prog.calls_bind (a.calls_waitForIdentity 10)
  intro a _
  exact Prog.calls_bind ((a.calls_waitForLink 10).mono onShell_of_isShell) fun _ _ => trivial

/-- A removal stops the container and clears the metadata of its members. -/
theorem calls_remove : a.remove.Calls (OnShell fun cmd =>
    cmd = .stop a.m_DevName ∨ cmd = .clearMembers (a.m_BlockDevices.map (·.m_DevName))) := by
  have hrounds : ∀ rounds, (a.removeRounds rounds).Calls (OnShell fun cmd =>
      cmd = .stop a.m_DevName ∨ cmd = .clearMembers (a.m_BlockDevices.map (·.m_DevName))) := by
    intro rounds
    induction rounds with
    | zero => exact trivial
    | succ rounds ih =>
        apply calls_shellEx_bind (.inl rfl)
        intro stopped
        split
        next =>
          apply calls_shellEx_bind (.inr rfl)
          intro cleared
          split
          next => exact trivial
          next => exact ih
        next => exact ih
  exact hrounds 4

end RaidArray

end Irstessi
