import Irstessi.StateGuard
import Mathlib.Data.Finset.Card

/-!
# The number of members that a growth asks for

`Array::grow` adds the length of the caller's list to the number of the active members.

* `RaidArray.membersWith`: the disks that are members or named, each once.
* `diskUsage_of_sparesToAdd`: a disk that is accepted is no member yet.
* **`asksForMembers_iff`**: the number asked for is that of these disks exactly where the growth is
  refused or nothing is listed twice.

The number in `--raid-devices` is the sum of two lengths. That of the caller's list counts a disk as
often as it is named; a disk that is accepted as a spare is no member, by the check of its usage, so
that the two lists have no disk in common. Nothing else has to be shown: the sum is the number of
different disks iff neither list names one twice. The theorem is about `Array::grow` for any list; the
entry point hands on the disks of its handles, and that these handles may repeat is the subject of the
sample at the end.
-/

namespace Irstessi

open Interact

section lists

variable {α : Type} [DecidableEq α] {l l' : List α}

/-- The lengths of two lists that have nothing in common add up to the number of their elements
exactly where both are without repetition. -/
theorem card_toFinset_append_iff (h : l.Disjoint l') :
    (l ++ l').toFinset.card = l.length + l'.length ↔ l.Nodup ∧ l'.Nodup := by
  rw [← List.length_append]
  have hnodup := Multiset.toFinset_card_eq_card_iff_nodup (m := (↑(l ++ l') : Multiset α))
  rw [List.toFinset_coe, Multiset.coe_card, Multiset.coe_nodup, List.nodup_append'] at hnodup
  rw [hnodup]
  exact ⟨fun hl => ⟨hl.1, hl.2.1⟩, fun hl => ⟨hl.1, hl.2, h⟩⟩

end lists

namespace RaidArray

variable (a : RaidArray) (disks : List EndDevice)

/-- The disks that are active members or named in the list. -/
def membersWith : Finset EndDevice := (a.getEndDevices ++ disks).toFinset

/-- In every run a command that sets the number of members sets it to that of the members and the
named disks. -/
def AsksForMembers : Prop :=
  ∀ env i, ∀ x ∈ exits ((a.grow disks).run env i).trace, ∀ devName n,
    x.1 = .raidDevices devName n → n = (a.membersWith disks).card

variable {a disks}

/-- The disks that `addSpare` accepts are spares or free. -/
theorem diskUsage_of_sparesToAdd {names : List Str} (h : a.sparesToAdd disks = some names) :
    ∀ d ∈ disks, d.diskUsage = .spare ∨ d.diskUsage = .passThru := by
  induction disks generalizing names with
  | nil => simp
  | cons d disks ih =>
      rw [sparesToAdd] at h
      split_ifs at h with hblock hspare hcontroller hsystem husage hstate
      · exact List.forall_mem_cons.mpr ⟨.inl hspare.2, ih h⟩
      · obtain ⟨rest, hrest, -⟩ := Option.map_eq_some_iff.mp h
        exact List.forall_mem_cons.mpr ⟨.inr (not_not.mp husage), ih hrest⟩

/-- A disk that is accepted is no active member. -/
theorem disjoint_getEndDevices (h : a.sparesToAdd disks ≠ none) :
    a.getEndDevices.Disjoint disks := by
  obtain ⟨names, hnames⟩ := Option.ne_none_iff_exists'.mp h
  intro d hmember hd
  have hactive : d.diskUsage = .arrayMember := by
    simpa using (List.mem_filter.mp hmember).2
  rcases diskUsage_of_sparesToAdd hnames d hd with husage | husage
  · rw [hactive] at husage
    simp at husage
  · rw [hactive] at husage
    simp at husage

/-- The commands of a growth that set the number of members. -/
theorem mayCall_grow_iff {devName : Str} {n : Nat} :
    (a.grow disks).MayCall (IsShell (· = .raidDevices devName n)) ↔
      a.Grows disks ∧ devName = a.m_DevName ∧ n = a.getEndDevices.length + disks.length := by
  have hspares : Command.raidDevices devName n ∉ a.sparesPlan disks := by
    unfold sparesPlan
    split <;> simp
  have hkeeps : Volume.Keeps (a.grow disks) (a.growPlan disks) := a.follows_grow disks
  have hrollback : ∀ cmd, IsRollback cmd → ¬ cmd = .raidDevices devName n := by
    rintro _ h rfl
    exact h
  rw [hkeeps.mayCall_iff hrollback, growPlan, Grows]
  by_cases h : a.m_Busy = true ∨ a.sparesToAdd disks = none
  · rw [if_pos h]
    apply iff_of_false (by simp)
    rintro ⟨⟨hidle, hsome⟩, -⟩
    rcases h with h | h
    · rw [hidle] at h
      simp at h
    · exact hsome h
  · rw [if_neg h]
    rw [not_or, Bool.not_eq_true] at h
    simp [h, hspares]

/-- Where the array grows, `--raid-devices` is the number of members there will be iff nothing is
counted twice: neither a member of the array nor a disk of the request. -/
theorem asksForMembers_iff_of_grows (hgrows : a.Grows disks) :
    a.AsksForMembers disks ↔ a.getEndDevices.Nodup ∧ disks.Nodup := by
  rw [← card_toFinset_append_iff (disjoint_getEndDevices hgrows.2)]
  constructor
  · intro hasks
    obtain ⟨env, i, x, hx, hcmd⟩ := mayCall_isShell_iff.mp (mayCall_grow_iff.mpr ⟨hgrows, rfl, rfl⟩)
    exact (hasks env i x hx _ _ hcmd).symm
  · intro hcard env i x hx devName n hcmd
    obtain ⟨-, -, rfl⟩ := mayCall_grow_iff.mp (mayCall_isShell_iff.mpr ⟨env, i, x, hx, hcmd⟩)
    exact hcard.symm

/-- **A growth asks for the right number of members** exactly where it is refused, or no member and no
disk is listed twice. A disk that the call names twice is counted twice, while it can be added only
once; a container that lists a member twice would count it twice as well. The requests that are refused
ask for nothing. -/
theorem asksForMembers_iff (a : RaidArray) (disks : List EndDevice) :
    a.AsksForMembers disks ↔ ¬ a.Grows disks ∨ (a.getEndDevices.Nodup ∧ disks.Nodup) := by
  by_cases hgrows : a.Grows disks
  · rw [or_iff_right (not_not.mpr hgrows), asksForMembers_iff_of_grows hgrows]
  · refine iff_of_true ?_ (.inl hgrows)
    intro env i x hx devName n hcmd
    exact absurd (mayCall_grow_iff.mp (mayCall_isShell_iff.mpr ⟨env, i, x, hx, hcmd⟩)).1 hgrows

/-- One free disk is named twice: a container of two disks is grown to four. -/
theorem not_asksForMembers_twice :
    ¬ ∀ (a : RaidArray) (disks : List EndDevice), (∀ d ∈ disks, d.isBlockDevice) →
      a.AsksForMembers disks := by
  intro hasks
  let d := sampleDisk (.ofLit "sdc") .passThru
  have hrun := hasks sampleArray [d, d] (by simp [d, sampleDisk]) (Volume.constantExit 0) 0
    (.raidDevices (.ofLit "md127") 4, 0) (by decide) (.ofLit "md127") 4 rfl
  exact absurd hrun (by decide)

end RaidArray

/-! ## Repeated handles -/

namespace CallSession

variable {s : CallSession}

/-- A handle that is given twice names its disk twice. -/
theorem nodup_of_takeDisks {refusal : ListedDevice → Option SSI_Status} {handles : List Nat}
    {devices : List ListedDevice} (h : s.takeDisks refusal handles = .ok devices)
    (hdevices : (devices.map (·.toEndDevice)).Nodup) : handles.Nodup := by
  induction handles generalizing devices with
  | nil => exact List.nodup_nil
  | cons handle handles ih =>
      obtain ⟨d, rest, hd, -, hrest, rfl⟩ := takeDisks_cons h
      rw [List.map_cons, List.nodup_cons] at hdevices
      refine List.nodup_cons.mpr ⟨fun hmem => hdevices.1 ?_, ih hrest hdevices.2⟩
      exact List.mem_map_of_mem ((mem_takeDisks_iff hrest).mpr ⟨handle, hmem, hd⟩)

/-- The devices that the checks of `SsiAddDisksToArray` hand on are those that the handles stand for. -/
theorem takeDisks_of_checkAddDisks {arrayHandle : Nat} {diskHandles : Option (List Nat)}
    {pArray : ListedArray} {container : List ListedDevice}
    (h : s.checkAddDisks arrayHandle diskHandles = .ok (pArray, container)) :
    ∃ refusal, s.takeDisks refusal (diskHandles.getD []) = .ok container := by
  unfold checkAddDisks at h
  split at h
  next => simp at h
  next =>
    split at h
    next => simp at h
    next =>
      split at h
      next => simp at h
      next => simp at h
      next handles _ =>
        split at h
        next => simp at h
        next front _ =>
          obtain ⟨devices, hdevices, hpair⟩ := map_eq_ok h
          obtain ⟨rfl, rfl⟩ := Prod.mk.inj hpair
          exact ⟨_, hdevices⟩

/-- `SsiAddDisksToArray` with a handle that is given twice asks for too many members, once it gets
to the growth. -/
theorem not_asksForMembers_of_repeated {arrayHandle : Nat} {handles : List Nat}
    {pArray : ListedArray} {container : List ListedDevice}
    (h : s.checkAddDisks arrayHandle (some handles) = .ok (pArray, container))
    (hgrows : pArray.Grows (container.map (·.toEndDevice))) (hrepeated : ¬ handles.Nodup) :
    ¬ pArray.AsksForMembers (container.map (·.toEndDevice)) := by
  obtain ⟨refusal, htake⟩ := takeDisks_of_checkAddDisks h
  rw [RaidArray.asksForMembers_iff_of_grows hgrows]
  rintro ⟨-, hdevices⟩
  exact hrepeated (nodup_of_takeDisks htake hdevices)

end CallSession

end Irstessi
