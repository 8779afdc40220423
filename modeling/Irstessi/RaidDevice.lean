import Irstessi.BlockDevice

/-!
# `class RaidDevice`

What containers and volumes have in common: the names, the identity, and their update from
mdadm's map file.

* `RaidDevice`, `RaidDevice.setName`, `RaidDevice.setEndDevices`.
* `internalUpdate`: the lookup in the text of the map file.
* `update`, `discover`, `determineDeviceName`: the functions that read the system.

An update can throw, and the fields that have been set by then stay set; `internalUpdate` gives both the
exception and the object. The map file is read anew by every update, as `readFile` does, so that what
stands in memory behind the text may be read along with it. A name is looked up by `m_Name` if there is
one, and by the device name otherwise. The rules say what a function may return and which commands it
may issue: none, since an update only reads, and the search for a free device name asks `stat`.
-/

namespace Irstessi

open Interact

/-- Source: `raid_device.h` `RaidDevice` -/
structure RaidDevice where
  m_Path : Str
  m_DevName : Str
  m_Name : Str
  m_Uuid : Str
  /-- The member disks, weak pointers that lock since the session keeps the disks. -/
  m_BlockDevices : List EndDevice
  deriving DecidableEq, Repr

namespace RaidDevice

/-! ## The lookup in the map file -/

/-- The part of a line that is compared: the last path component where a name is looked up, the
first field where a device name is.
Source: `raid_device.cpp` `RaidDevice::__internal_update`, the loop -/
def lineKey (create : Bool) (line : Str) : Str :=
  if create then line.reverseAfter (.ofLit "/") else line.leftOf (lit " ")

/-- `tmp.find(name)` does not throw. -/
def lineMatches (create : Bool) (name line : Str) : Bool :=
  ((lineKey create line).find name.m_buffer 0).isSome

/-- The loop; every round but the last takes a line off the text, so that the length of the text
bounds the rounds.
Source: `raid_device.cpp` `RaidDevice::__internal_update`, the loop -/
def lookupLine (create : Bool) (name : Str) (rounds : Nat) (map line : Str) : Str :=
  match rounds with
  | 0 => .empty
  | rounds + 1 =>
      if line.equal .empty then line
      else if lineMatches create name line then line
      else
        let map := map.after (.ofLit "\n")
        lookupLine create name rounds map (map.leftOf (lit "\n"))

/-- A name is looked up where there is one, else the device name. -/
def lookupByName (d : RaidDevice) : Bool := !d.m_Name.equal .empty

/-- What is looked up. -/
def wanted (d : RaidDevice) : Str := if d.lookupByName then d.m_Name else d.m_DevName

/-- The exception thrown, if any, and the object afterwards.
Source: `raid_device.cpp` `RaidDevice::__internal_update` -/
def internalUpdate (d : RaidDevice) (map : Str) : Option Exception × RaidDevice :=
  let map := map ++ Str.ofLit "\n"
  let create := d.lookupByName
  let line := lookupLine create d.wanted (map.size + 1) map (map.leftOf (lit "\n"))
  if line.equal .empty then (some .arrayCreateFailed, d)
  else
    let d := if create then { d with m_DevName := line.leftOf (lit " ") }
      else { d with m_Name := line.reverseAfter (.ofLit "/") }
    let line := line.reverseLeft (lit " ")
    (none, { d with m_Uuid := line.reverseAfter (.ofLit " ") })

/-! ## The functions that read the system -/

/-- Any exception on the way is caught and ends the update.
Source: `raid_device.cpp` `RaidDevice::update` -/
def update (d : RaidDevice) : SysProg RaidDevice := do
  let reply ← readMap
  match readFile reply.text reply.behind with
  | none => pure d
  | some map =>
      match d.internalUpdate map with
      | (some _, d) => pure d
      | (none, d) =>
          pure { d with m_Path := reply.canonicalPath (Str.ofLit "/sys/block/" ++ d.m_DevName) }

/-- The device name is the last component of the path; the slaves are read by `slaves`.
Source: `raid_device.cpp` `RaidDevice::discover` -/
def discover (d : RaidDevice) : SysProg RaidDevice :=
  update { d with m_DevName := d.m_Path.reverseAfter (.ofLit "/") }

/-- The first name with the prefix that `stat` does not find. `rounds` bounds the loop, which the
source does not.
Source: `raid_device.cpp` `RaidDevice::determineDeviceName` -/
def determineDeviceName (d : RaidDevice) (namePrefix : Str) : Nat → Nat → SysProg RaidDevice
  | 0, _ => .throw .outOfRounds
  | rounds + 1, id => do
      let d := { d with m_Name := namePrefix ++ Str.ofNat id }
      if (← statEnoent d.m_Name) then pure d
      else determineDeviceName d namePrefix rounds ((id + 1) % 2 ^ 32)

/-- The name found is the prefix and a number. -/
theorem eq_of_mayReturn (d : RaidDevice) {namePrefix : Str} {rounds id : Nat} {d' : RaidDevice}
    (h : (d.determineDeviceName namePrefix rounds id).MayReturn d') :
    ∃ n, d' = { d with m_Name := namePrefix ++ Str.ofNat n } := by
  induction rounds generalizing d id with
  | zero => exact h.elim
  | succ rounds ih =>
      obtain ⟨enoent, h⟩ := h
      cases enoent with
      | true => exact ⟨id, Eq.symm h⟩
      | false =>
          let next : RaidDevice := { d with m_Name := namePrefix ++ Str.ofNat id }
          have hnext : (next.determineDeviceName namePrefix rounds ((id + 1) % 2 ^ 32)).MayReturn d' := h
          exact ih next hnext

/-- Choosing a device name leaves the members as they are. -/
theorem members_of_mayReturn (d : RaidDevice) {namePrefix : Str} {rounds id : Nat} {d' : RaidDevice}
    (h : (d.determineDeviceName namePrefix rounds id).MayReturn d') :
    d'.m_BlockDevices = d.m_BlockDevices := by
  obtain ⟨n, rfl⟩ := d.eq_of_mayReturn h
  rfl

/-- The name chosen is the prefix with a number behind it. -/
theorem returns_determineDeviceName (d : RaidDevice) (namePrefix : Str) (rounds id : Nat) :
    Returns (d.determineDeviceName namePrefix rounds id) fun d' =>
      ∃ n, d' = { d with m_Name := namePrefix ++ Str.ofNat n } :=
  fun _ _ _ h => d.eq_of_mayReturn (Prog.mayReturn_of_result h)

/-- An update makes no shell command. -/
theorem calls_update (d : RaidDevice) (P : Command → Prop) :
    d.update.Calls (OnShell P) := by
  unfold update
  rw [readMap_bind]
  refine ⟨trivial, fun reply => ?_⟩
  beta_reduce
  split
  next => exact trivial
  next map hmap =>
    generalize d.internalUpdate map = updated
    obtain ⟨_ | e, d'⟩ := updated
    · exact trivial
    · exact trivial

/-- Choosing a device name issues no command: it asks for files only. -/
theorem calls_determineDeviceName (d : RaidDevice) (namePrefix : Str) (rounds id : Nat)
    (P : Command → Prop) : (d.determineDeviceName namePrefix rounds id).Calls (OnShell P) := by
  induction rounds generalizing d id with
  | zero => exact trivial
  | succ rounds ih =>
      refine ⟨trivial, fun enoent => ?_⟩
      cases enoent with
      | true => exact trivial
      | false => exact ih _ _

/-! ## Setters -/

/-- Source: `raid_device.cpp` `RaidDevice::setName` -/
def setName (d : RaidDevice) (deviceName : Str) : Except Exception RaidDevice :=
  if deviceName.m_length > 16 then .error .invalidName
  else if (deviceName.trim.find (lit " ") 0).isSome then .error .invalidName
  else .ok { d with m_Name := deviceName }

/-- The disks are checked one by one; those before a refused one stay.
Source: `raid_device.cpp` `RaidDevice::setEndDevices` -/
def setEndDevices (d : RaidDevice) (container : List EndDevice) : Option Exception × RaidDevice :=
  go { d with m_BlockDevices := [] } container
where
  go (d : RaidDevice) : List EndDevice → Option Exception × RaidDevice
    | [] => (none, d)
    | device :: rest =>
        if !device.isBlockDevice then (some .invalidObject, d)
        else if device.systemDisk then (some .systemDevice, d)
        else if device.diskState ≠ .normal then (some .notAvailable, d)
        else go { d with m_BlockDevices := d.m_BlockDevices ++ [device] } rest

/-- Only the members change. -/
theorem setEndDevices_eq (d : RaidDevice) (container : List EndDevice) :
    (d.setEndDevices container).2 =
      { d with m_BlockDevices := (d.setEndDevices container).2.m_BlockDevices } := by
  have hgo : ∀ d : RaidDevice, (setEndDevices.go d container).2 =
      { d with m_BlockDevices := (setEndDevices.go d container).2.m_BlockDevices } := by
    induction container with
    | nil => intro d; rfl
    | cons device rest ih =>
        intro d
        unfold setEndDevices.go
        split
        · rfl
        split
        · rfl
        split
        · rfl
        · exact ih _
  exact hgo _

end RaidDevice

end Irstessi
