import Irstessi.Str
import Irstessi.Types

/-!
# Discovery of md devices

What a session reads of the md devices under `/sys/devices/virtual/block`, and how a container finds
its volumes there.

* `MdDir`: a directory, with what discovery reads in it.
* `namesContainer`, `discoverVolumes`: the loop of `Array::discover`.
* `discoverArrays`: the containers of a session, in the order of the directories.

A directory shows a name, the attributes that are read and, where they can be read, their texts; that an
attribute cannot be read is `none`. A container takes every directory whose metadata text has its device
name behind a slash or a dash, so that `/md1` is found in the text of a volume of `md127` as well. Where
the discovery of one volume throws, that of the container ends with it; hence the `Option` of
`discoverVolumes`. `filter_discovered` compares the volumes that are found with the directories that
show them and is what the results on volumes rest on.
-/

namespace Irstessi

/-- What `Volume::discover` finds under the path of a volume, as far as the session uses it. -/
structure VolumeAttributes where
  m_RaidLevel : UInt32
  m_State : SSI_VolumeState
  m_StripSize : UInt32
  m_ComponentSize : UInt64
  logicalSectorSize : UInt32
  deriving DecidableEq, Repr

/-- A directory under `/sys/devices/virtual/block`. -/
structure MdDir where
  name : List UInt8
  /-- The content of `md/metadata_version`, if it can be read. -/
  metadata : Option (List UInt8)
  /-- The directories under `slaves`, the members' device names. -/
  components : List Str
  /-- What `RaidDevice::update` finds in the map file. -/
  uuid : Str
  /-- None where `Volume::discover` throws. -/
  attributes : Option VolumeAttributes
  deriving DecidableEq, Repr

/-- A volume of a container, `ordinal` being its number in it.
Source: `volume.h` `Volume` -/
structure MdVolume where
  dir : MdDir
  ordinal : Nat
  deriving DecidableEq, Repr

/-- A container with the volumes that it has found.
Source: `array.h` `Array` -/
structure MdArray where
  dir : MdDir
  volumes : List MdVolume
  deriving DecidableEq, Repr

namespace MdDir

/-- The canonical path. -/
def path (d : MdDir) : Str := .ofBytes (lit "/sys/devices/virtual/block/" ++ d.name)

/-- Source: `raid_device.cpp` `RaidDevice::discover` -/
def devName (d : MdDir) : Str := d.path.reverseAfter (.ofLit "/")

/-- The text of `md/metadata_version`, as `operator >>` reads it. -/
def metadataText (d : MdDir) : Option Str := d.metadata.map fun content => (Str.ofBytes content).trim

end MdDir

/-- The metadata mentions the device name after a slash or a dash.
Source: `array.cpp` `Array::discover` -/
def namesContainer (devName metadata : Str) : Bool :=
  (metadata.find (Str.ofLit "/" ++ devName).m_buffer 0).isSome ||
    (metadata.find (Str.ofLit "-" ++ devName).m_buffer 0).isSome

/-- The volume that a container takes a directory for.
Source: `array.cpp` `Array::discover` -/
def volumeOf (devName : Str) (dir : MdDir) : Option MdVolume :=
  match dir.metadataText with
  | none => none
  | some metadata =>
      if namesContainer devName metadata then
        some ⟨dir, (metadata.reverseAfter (.ofLit "/")).toUint⟩
      else none

/-- The volumes of a container; none where the discovery of one of them throws.
Source: `array.cpp` `Array::discover` -/
def discoverVolumes (devName : Str) : List MdDir → Option (List MdVolume)
  | [] => some []
  | dir :: dirs =>
      match volumeOf devName dir with
      | none => discoverVolumes devName dirs
      | some pVolume =>
          if dir.attributes.isSome then (discoverVolumes devName dirs).map (pVolume :: ·) else none

/-- Source: `array.cpp` `Array::discover` -/
def discoverArray (dirs : List MdDir) (dir : MdDir) : Option MdArray :=
  (discoverVolumes dir.devName dirs).map fun volumes => ⟨dir, volumes⟩

/-- Source: `session.cpp` `Session::__internal_attach_imsm_device` -/
def isImsm (dir : MdDir) : Bool :=
  match dir.metadataText with
  | none => false
  | some metadata => metadata.equal (.ofLit "external:imsm")

/-- The containers whose discovery returns.
Source: `session.cpp` `Session::initialize`, `__internal_attach_imsm_array` -/
def discoverArrays (dirs : List MdDir) : List MdArray :=
  (dirs.filter isImsm).filterMap (discoverArray dirs)

/-- Where the discovery of the volumes returns, a container finds those that it takes. -/
theorem discoverVolumes_eq {devName : Str} {dirs : List MdDir}
    (h : ∀ dir ∈ dirs, dir.attributes.isSome) :
    discoverVolumes devName dirs = some (dirs.filterMap (volumeOf devName)) := by
  induction dirs with
  | nil => rfl
  | cons dir dirs ih =>
      have hrest := ih fun d hd => h d (List.mem_cons_of_mem _ hd)
      rw [discoverVolumes, hrest]
      rcases hvolume : volumeOf devName dir with _ | v
      · rw [List.filterMap_cons_none hvolume]
      · rw [List.filterMap_cons_some hvolume]
        simp only [h dir List.mem_cons_self, if_true, Option.map_some]

/-- The volume that a directory gives remembers the directory. -/
theorem dir_of_volumeOf {devName : Str} {dir : MdDir} {v : MdVolume}
    (h : volumeOf devName dir = some v) : v.dir = dir := by
  unfold volumeOf at h
  split at h
  next => simp at h
  next =>
    split at h
    next => obtain rfl := Option.some.inj h; rfl
    next => simp at h

/-- Each directory stands for one volume at most. -/
theorem filter_discovered {devName : Str} {dirs : List MdDir} (hnodup : dirs.Nodup) {dir : MdDir}
    (hdir : dir ∈ dirs) :
    (dirs.filterMap (volumeOf devName)).filter (fun v => v.dir = dir) =
      (volumeOf devName dir).toList := by
  induction dirs with
  | nil => simp at hdir
  | cons d dirs ih =>
      obtain ⟨hnotin, hrest⟩ := List.nodup_cons.mp hnodup
      by_cases hd : d = dir
      · subst hd
        have hnone : (dirs.filterMap (volumeOf devName)).filter (fun v => v.dir = d) = [] := by
          refine List.filter_eq_nil_iff.mpr fun v hv heq => hnotin ?_
          obtain ⟨d', hd', hv⟩ := List.mem_filterMap.mp hv
          rw [decide_eq_true_iff, dir_of_volumeOf hv] at heq
          rwa [← heq]
        rcases hvolume : volumeOf devName d with _ | v
        · rw [List.filterMap_cons_none hvolume, hnone]
          rfl
        · rw [List.filterMap_cons_some hvolume,
            List.filter_cons_of_pos (by simpa using dir_of_volumeOf hvolume), hnone]
          rfl
      · have hmem : dir ∈ dirs := List.mem_of_ne_of_mem (Ne.symm hd) hdir
        rw [← ih hrest hmem]
        rcases hvolume : volumeOf devName d with _ | v
        · rw [List.filterMap_cons_none hvolume]
        · rw [List.filterMap_cons_some hvolume, List.filter_cons_of_neg]
          rw [dir_of_volumeOf hvolume, decide_eq_true_iff]
          exact hd

end Irstessi
