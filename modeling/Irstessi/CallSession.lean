import Irstessi.Volume

/-!
# The session of a call

What the functions of the library's interface see of the session that they open: the end devices,
arrays and volumes in the order of their lists, each with its handle.

* `ListedDevice`, `ListedArray`, `ListedVolume`: the objects with what the interface reads of them
  beyond the container and volume functions.
* `CallSession`, with `getEndDevice`, `getArray`, `getVolume`; `getEndDevices` looks up a list of
  handles.

The library finds an object by asking the handle manager for the object under the handle and casting it
to the wanted class. Here the lists of a session carry the handles with them, and a look-up goes through
one list: that a handle belongs to one object only is proved in `HandleManager` and `Sessions`, where
the handles are given. A session that a call opens is thus an argument of the functions of the
interface, and their results hold for all sessions; where a result is about what a real discovery gives,
the hypotheses of its theorem say so.
-/

namespace Irstessi

/-- An end device of a session.
Source: `end_device.h` `EndDevice` -/
structure ListedDevice extends EndDevice where
  m_TotalSize : UInt64
  m_LogicalSectorSize : UInt32
  m_isIntelNvme : Bool
  /-- `m_Arrays` of its controller. -/
  controllerArrays : List RaidArray
  deriving DecidableEq

/-- A container of a session with its volumes.
Source: `array.h` `Array` -/
structure ListedArray extends RaidArray where
  m_Volumes : List Volume
  members : List ListedDevice
  members_eq : m_BlockDevices = members.map (·.toEndDevice)
  deriving DecidableEq

/-- A volume of a session with the sizes of its block device.
Source: `volume.h` `Volume` -/
structure ListedVolume extends Volume where
  totalSize : UInt64
  logicalSectorSize : UInt32
  deriving DecidableEq

/-- The session that a call opens.
Source: `session.h` `Session`, `src/session.cpp` `getTempSession` -/
structure CallSession where
  endDevices : List (Nat × ListedDevice)
  arrays : List (Nat × ListedArray)
  volumes : List (Nat × ListedVolume)
  /-- The handle that the next object to be added gets. -/
  nextHandle : Nat

/-- Source: `container.h` `Container::find` -/
def findHandle {α : Type} (l : List (Nat × α)) (handle : Nat) : Option α :=
  (l.find? fun x => x.1 = handle).map Prod.snd

/-- What is found under a handle is in the list under this handle. -/
theorem mem_of_findHandle {α : Type} {l : List (Nat × α)} {handle : Nat} {a : α}
    (h : findHandle l handle = some a) : (handle, a) ∈ l := by
  obtain ⟨⟨handle', a'⟩, hfind, rfl⟩ := Option.map_eq_some_iff.mp h
  have heq := List.find?_some hfind
  obtain rfl : handle' = handle := by simpa using heq
  exact List.mem_of_find?_eq_some hfind

namespace CallSession

variable (s : CallSession)

/-- Source: `session.cpp` `Session::getEndDevice` -/
def getEndDevice (handle : Nat) : Option ListedDevice := findHandle s.endDevices handle

/-- Source: `session.cpp` `Session::getArray` -/
def getArray (handle : Nat) : Option ListedArray := findHandle s.arrays handle

/-- Source: `session.cpp` `Session::getVolume` -/
def getVolume (handle : Nat) : Option ListedVolume := findHandle s.volumes handle

/-- The end devices of the handles, none where a handle is invalid. -/
def getEndDevices (handles : List Nat) : Option (List ListedDevice) := handles.mapM s.getEndDevice

/-- The session lists the end device. -/
def Lists (d : ListedDevice) : Prop := ∃ h, (h, d) ∈ s.endDevices

/-- A disk that a handle stands for is listed by the session. -/
theorem lists_of_getEndDevice {handle : Nat} {d : ListedDevice} (h : s.getEndDevice handle = some d) :
    s.Lists d :=
  ⟨handle, mem_of_findHandle h⟩

/-- So are the disks of a row of handles. -/
theorem lists_of_mem_getEndDevices {handles : List Nat} {devices : List ListedDevice}
    (h : s.getEndDevices handles = some devices) : ∀ d ∈ devices, s.Lists d := by
  unfold getEndDevices at h
  induction handles generalizing devices with
  | nil =>
      obtain rfl := Option.some.inj h
      intro d hd
      simp at hd
  | cons handle handles ih =>
      rw [List.mapM_cons] at h
      obtain ⟨first, hfirst, h⟩ := Option.bind_eq_some_iff.mp h
      obtain ⟨rest, hrest, h⟩ := Option.bind_eq_some_iff.mp h
      obtain rfl := Option.some.inj h
      intro d hd
      rcases List.mem_cons.mp hd with rfl | hd
      · exact s.lists_of_getEndDevice hfirst
      · exact ih hrest d hd

/-- A row of handles stands for as many disks, so that one is empty iff the other is. -/
theorem eq_nil_iff_of_getEndDevices {handles : List Nat} {devices : List ListedDevice}
    (h : s.getEndDevices handles = some devices) : handles = [] ↔ devices = [] := by
  unfold getEndDevices at h
  cases handles with
  | nil => exact iff_of_true rfl (Option.some.inj h).symm
  | cons handle handles =>
      rw [List.mapM_cons] at h
      obtain ⟨first, -, h⟩ := Option.bind_eq_some_iff.mp h
      obtain ⟨rest, -, h⟩ := Option.bind_eq_some_iff.mp h
      obtain rfl := Option.some.inj h
      exact iff_of_false (List.cons_ne_nil _ _) (List.cons_ne_nil _ _)

end CallSession

end Irstessi
