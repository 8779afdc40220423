import Irstessi.Text
import Mathlib.Data.List.Nodup

/-!
# The enclosures of a controller

Every SES device behind an expander becomes an `Enclosure` object of its own. `Port::attachEnclosure`
links it with the expander and hands it on to the controller, which looks for the object in its list.

* `Enclosure`, `Sighting`, `ControllerEnclosures`: the objects, what an expander reports, and the
  links from the controller and from the routing devices.
* `attachEnclosure`, `portAttachEnclosure`, `discoverEnclosure`: one report; `run`: all of them.
* `run_entries`, `mem_run_iff`, `enclosureOf_run`: what a run leaves behind.
* **`single_run_iff`**: there is one entry for each enclosure exactly where no enclosure is reported
  twice and no routing device reports two.

A run is a list of sightings, in the order in which the expanders are discovered. The list of the
controller is searched with `==`, which compares addresses of objects and not the logical ids, so that a
new object is always appended; `passUp` hands it on from one routing device to the next, and a routing
device keeps a pointer to one enclosure only. `Made` says that the entries are those of the sightings,
one for each. The two conditions of the theorem are then read off: two sightings of one enclosure leave
two entries, and two sightings of one routing device leave it with the last.
-/

namespace Irstessi

/-- An object for an enclosure; `id` is its identity.
Source: `enclosure.h` `Enclosure` -/
structure Enclosure where
  id : Nat
  m_LogicalId : Str
  /-- `m_pParent.lock()`, if it is a routing device. -/
  parent : Option Nat
  m_RoutingDevices : List Nat
  wellFormed : WellFormed m_LogicalId.m_buffer
  deriving DecidableEq

namespace Enclosure

/-- Source: `enclosure.cpp` `Enclosure::operator ==` -/
def equal (e e' : Enclosure) : Bool := e.m_LogicalId.equal e'.m_LogicalId

/-- Source: `enclosure.cpp` `Enclosure::attachRoutingDevice` -/
def attachRoutingDevice (e : Enclosure) (routingDevice : Nat) : Enclosure :=
  { e with m_RoutingDevices := e.m_RoutingDevices ++ [routingDevice] }

/-- Enclosures are compared by their logical ids only; slots and names do not enter. -/
theorem equal_iff (e e' : Enclosure) :
    e.equal e' = true ↔ e.m_LogicalId.m_buffer = e'.m_LogicalId.m_buffer :=
  Str.equal_iff e'.wellFormed

end Enclosure

/-- An SES device that is found at a port of a routing device: the logical identifier that `sg_ses`
prints for it, and the routing devices between that one and the controller. -/
structure Sighting where
  routingDevice : Nat
  outer : List Nat
  logicalId : Str
  wellFormed : WellFormed logicalId.m_buffer
  deriving DecidableEq

/-- The enclosures of a controller and those of the routing devices; `next` is the identity of the
object that is made next. -/
structure ControllerEnclosures where
  m_Enclosures_Direct : List Enclosure
  /-- `m_pEnclosure` of a routing device. -/
  enclosureOf : Nat → Option Nat
  next : Nat

namespace ControllerEnclosures

/-- No enclosure has been found. -/
def empty : ControllerEnclosures := ⟨[], fun _ => none, 0⟩

/-- Source: `routing_device.h` `RoutingDevice::setEnclosure` -/
def setEnclosure (c : ControllerEnclosures) (routingDevice id : Nat) : ControllerEnclosures :=
  { c with enclosureOf := Function.update c.enclosureOf routingDevice (some id) }

/-- The first entry that is the same object takes over its routing device. Two shared pointers are
compared, not what they point to.
Source: `controller.cpp` `Controller::attachEnclosure`, the loop -/
def mergeInto (pEnclosure : Enclosure) : List Enclosure → Option (List Enclosure × Nat)
  | [] => none
  | i :: rest =>
      match if pEnclosure.id = i.id then pEnclosure.parent else none with
      | some pRoutingDevice => some (i.attachRoutingDevice pRoutingDevice :: rest, pRoutingDevice)
      | none => (mergeInto pEnclosure rest).map fun merged => (i :: merged.1, merged.2)

/-- Source: `controller.cpp` `Controller::attachEnclosure` -/
def attachEnclosure (c : ControllerEnclosures) (pEnclosure : Enclosure) : ControllerEnclosures :=
  match mergeInto pEnclosure c.m_Enclosures_Direct with
  | some (entries, pRoutingDevice) =>
      { c with m_Enclosures_Direct := entries }.setEnclosure pRoutingDevice pEnclosure.id
  | none => { c with m_Enclosures_Direct := c.m_Enclosures_Direct ++ [pEnclosure] }

/-- A routing device hands the enclosure on to its parent, up to the controller.
Source: `routing_device.cpp` `RoutingDevice::attachEnclosure` -/
def passUp (c : ControllerEnclosures) (pEnclosure : Enclosure) : List Nat → ControllerEnclosures
  | [] => c.attachEnclosure pEnclosure
  | _ :: outer => passUp c pEnclosure outer

/-- Source: `port.cpp` `Port::attachEnclosure`; the port is one of the routing device. -/
def portAttachEnclosure (c : ControllerEnclosures) (pEnclosure : Enclosure) (pRoutingDevice : Nat)
    (outer : List Nat) : ControllerEnclosures :=
  let pEnclosure := pEnclosure.attachRoutingDevice pRoutingDevice
  let c := c.setEnclosure pRoutingDevice pEnclosure.id
  c.passUp pEnclosure outer

/-- A new object is made for an SES device, the parent of the port becomes its parent, and it is
attached to the port.
Source: `isci_port.cpp` `ISCI_Port::discover` -/
def discoverEnclosure (c : ControllerEnclosures) (x : Sighting) : ControllerEnclosures :=
  let pEnclosure : Enclosure := ⟨c.next, x.logicalId, some x.routingDevice, [], x.wellFormed⟩
  { c with next := c.next + 1 }.portAttachEnclosure pEnclosure x.routingDevice x.outer

/-- The SES devices are found one after the other. -/
def run (sightings : List Sighting) : ControllerEnclosures :=
  sightings.foldl discoverEnclosure empty

/-- There is one entry for an enclosure, and every routing device that has reported it is in its list
and leads to it. -/
structure Single (c : ControllerEnclosures) (sightings : List Sighting) : Prop where
  distinct : c.m_Enclosures_Direct.Pairwise fun e e' => e.equal e' = false
  linked : ∀ x ∈ sightings, ∃ e ∈ c.m_Enclosures_Direct, e.m_LogicalId.equal x.logicalId = true ∧
    x.routingDevice ∈ e.m_RoutingDevices ∧ c.enclosureOf x.routingDevice = some e.id

/-! ## One report -/

/-- The object for a report. -/
def entry (id : Nat) (x : Sighting) : Enclosure :=
  ⟨id, x.logicalId, some x.routingDevice, [x.routingDevice], x.wellFormed⟩

/-- An enclosure with a new id is merged into none of the entries. -/
theorem mergeInto_of_fresh {pEnclosure : Enclosure} {entries : List Enclosure}
    (h : ∀ e ∈ entries, pEnclosure.id ≠ e.id) : mergeInto pEnclosure entries = none := by
  induction entries with
  | nil => rfl
  | cons i rest ih =>
      obtain ⟨hi, hrest⟩ := List.forall_mem_cons.mp h
      rw [mergeInto, if_neg hi, ih hrest]
      rfl

/-- However many expanders there are on the way, an enclosure is attached at the controller only. -/
@[simp] theorem passUp_eq (c : ControllerEnclosures) (pEnclosure : Enclosure) (outer : List Nat) :
    c.passUp pEnclosure outer = c.attachEnclosure pEnclosure := by
  induction outer with
  | nil => rfl
  | cons _ outer ih => exact ih

/-- The objects of the list have been made before. -/
def Made (c : ControllerEnclosures) : Prop := ∀ e ∈ c.m_Enclosures_Direct, e.id < c.next

/-- A new object is never found in the list: it becomes another entry. -/
theorem discoverEnclosure_eq {c : ControllerEnclosures} (h : c.Made) (x : Sighting) :
    c.discoverEnclosure x =
      ⟨c.m_Enclosures_Direct ++ [entry c.next x],
        Function.update c.enclosureOf x.routingDevice (some c.next), c.next + 1⟩ := by
  have hfresh : mergeInto (entry c.next x) c.m_Enclosures_Direct = none := by
    apply mergeInto_of_fresh
    intro e he
    exact Nat.ne_of_gt (h e he)
  have hattach : c.discoverEnclosure x =
      ({ c with next := c.next + 1 }.setEnclosure x.routingDevice c.next).attachEnclosure
        (entry c.next x) := by
    rw [discoverEnclosure, portAttachEnclosure, passUp_eq]
    rfl
  rw [hattach, attachEnclosure, setEnclosure, hfresh]

/-! ## All of them -/

/-- A run with one more sighting is the run and then this sighting; the induction over runs below goes
from the back. -/
theorem run_append_singleton (sightings : List Sighting) (x : Sighting) :
    run (sightings ++ [x]) = (run sightings).discoverEnclosure x := by
  rw [run, List.foldl_append]
  rfl

/-- What a run leaves behind: an entry for each report, in their order. -/
theorem run_entries (sightings : List Sighting) :
    (run sightings).next = sightings.length ∧
      (run sightings).m_Enclosures_Direct = sightings.zipIdx.map fun x => entry x.2 x.1 := by
  induction sightings using List.reverseRecOn with
  | nil => exact ⟨rfl, rfl⟩
  | append_singleton sightings x ih =>
      obtain ⟨hnext, hentries⟩ := ih
      have hmade : (run sightings).Made := by
        intro e he
        rw [hentries] at he
        obtain ⟨⟨y, k⟩, hy, rfl⟩ := List.mem_map.mp he
        rw [hnext]
        exact List.snd_lt_of_mem_zipIdx hy
      rw [run_append_singleton, discoverEnclosure_eq hmade, hnext, hentries]
      simp [List.zipIdx_append]

/-- Every state that a run of sightings reaches is made of the entries of its sightings. -/
theorem made_run (sightings : List Sighting) : (run sightings).Made := by
  intro e he
  obtain ⟨hnext, hentries⟩ := run_entries sightings
  rw [hentries] at he
  obtain ⟨⟨y, k⟩, hy, rfl⟩ := List.mem_map.mp he
  rw [hnext]
  exact List.snd_lt_of_mem_zipIdx hy

/-- The enclosures of the controller are exactly the entries that the sightings have made. -/
theorem mem_run_iff {sightings : List Sighting} {e : Enclosure} :
    e ∈ (run sightings).m_Enclosures_Direct ↔
      ∃ (k : Nat) (x : Sighting), sightings[k]? = some x ∧ entry k x = e := by
  rw [(run_entries sightings).2, List.mem_map]
  constructor
  · rintro ⟨⟨x, k⟩, hx, rfl⟩
    exact ⟨k, x, List.mem_zipIdx_iff_getElem?.mp hx, rfl⟩
  · rintro ⟨k, x, hx, rfl⟩
    exact ⟨(x, k), List.mem_zipIdx_iff_getElem?.mpr hx, rfl⟩

/-- A routing device leads to the entry of one of its own reports. -/
theorem enclosureOf_run (sightings : List Sighting) :
    (∀ x ∈ sightings, ∃ k, (run sightings).enclosureOf x.routingDevice = some k) ∧
      ∀ routingDevice (k : Nat), (run sightings).enclosureOf routingDevice = some k →
        ∃ x : Sighting, sightings[k]? = some x ∧ x.routingDevice = routingDevice := by
  induction sightings using List.reverseRecOn with
  | nil => exact ⟨by simp, fun _ _ h => by simp [run, empty] at h⟩
  | append_singleton sightings x ih =>
      obtain ⟨hsome, hown⟩ := ih
      rw [run_append_singleton, discoverEnclosure_eq (made_run sightings), (run_entries sightings).1]
      constructor
      · intro y hy
        by_cases heq : y.routingDevice = x.routingDevice
        · exact ⟨sightings.length, by simp [heq]⟩
        · have hy' : y ∈ sightings := by
            rcases List.mem_append.mp hy with hy | hy
            · exact hy
            · exact absurd (congrArg _ (List.mem_singleton.mp hy)) heq
          obtain ⟨k, hk⟩ := hsome y hy'
          exact ⟨k, by simpa [heq] using hk⟩
      · intro routingDevice k hk
        by_cases heq : routingDevice = x.routingDevice
        · obtain rfl : sightings.length = k := by simpa [heq] using hk
          exact ⟨x, by simp, heq.symm⟩
        · obtain ⟨y, hy, hrouting⟩ := hown routingDevice k (by simpa [heq] using hk)
          refine ⟨y, ?_, hrouting⟩
          rw [List.getElem?_append_left (List.getElem?_eq_some_iff.mp hy).1, hy]

/-- No two entries are equal where no logical identifier is reported twice. -/
theorem distinct_run_iff (sightings : List Sighting) :
    ((run sightings).m_Enclosures_Direct.Pairwise fun e e' => e.equal e' = false) ↔
      (sightings.map (·.logicalId.m_buffer)).Nodup := by
  have hids : (run sightings).m_Enclosures_Direct.map (·.m_LogicalId.m_buffer) =
      sightings.map (·.logicalId.m_buffer) := by
    rw [(run_entries sightings).2, List.map_map, ← List.zipIdx_map_fst 0 sightings, List.map_map]
    rw [List.zipIdx_map_fst]
    rfl
  rw [← hids, List.Nodup, List.pairwise_map]
  apply iff_of_eq
  congr 1
  funext e e'
  rw [Ne, ← Enclosure.equal_iff, Bool.not_eq_true]

end ControllerEnclosures

open ControllerEnclosures

/-- **Enclosures are not duplicated** exactly where no logical identifier is reported twice and no
routing device reports two enclosures. The sightings come in any order and number. The entries are
compared as pointers, so that an enclosure that is seen again is not found among them and gets a second
entry; and a routing device that is set a second enclosure forgets the first. -/
theorem single_run_iff (sightings : List Sighting) :
    (run sightings).Single sightings ↔
      (sightings.map (·.logicalId.m_buffer)).Nodup ∧ (sightings.map (·.routingDevice)).Nodup := by
  obtain ⟨hsome, hown⟩ := enclosureOf_run sightings
  constructor
  · rintro ⟨hdistinct, hlinked⟩
    have hids := (distinct_run_iff sightings).mp hdistinct
    refine ⟨hids, (List.nodup_map_iff_inj_on (List.Nodup.of_map _ hids)).mpr fun x hx y hy heq => ?_⟩
    obtain ⟨e, he, hx', -, hlink⟩ := hlinked x hx
    obtain ⟨e', he', hy', -, hlink'⟩ := hlinked y hy
    obtain ⟨k, z, hz, rfl⟩ := mem_run_iff.mp he
    obtain ⟨k', z', hz', rfl⟩ := mem_run_iff.mp he'
    obtain rfl : k = k' := Option.some.inj (hlink.symm.trans ((congrArg _ heq).trans hlink'))
    obtain rfl := Option.some.inj (hz.symm.trans hz')
    rw [Str.equal_iff x.wellFormed] at hx'
    rw [Str.equal_iff y.wellFormed] at hy'
    exact List.inj_on_of_nodup_map hids hx hy (hx'.symm.trans hy')
  · rintro ⟨hids, hrouting⟩
    refine ⟨(distinct_run_iff sightings).mpr hids, fun x hx => ?_⟩
    obtain ⟨k, hk⟩ := hsome x hx
    obtain ⟨y, hy, heq⟩ := hown _ k hk
    have hxy : y = x := List.inj_on_of_nodup_map hrouting (List.mem_of_getElem? hy) hx heq
    subst hxy
    refine ⟨entry k y, mem_run_iff.mpr ⟨k, y, hy, rfl⟩, ?_, List.mem_singleton_self _, hk⟩
    exact (Str.equal_iff y.wellFormed).mpr rfl

/-- Two expanders report one enclosure: it has two entries. -/
theorem not_single_run_twice : ¬ ∀ sightings : List Sighting, (run sightings).Single sightings := by
  intro hsingle
  let x (routingDevice : Nat) : Sighting :=
    ⟨routingDevice, [], .ofLit "500605b0000272bf", Str.wellFormed_ofBytes _⟩
  have hpairwise := (hsingle [x 1, x 2]).distinct
  rw [(run_entries [x 1, x 2]).2] at hpairwise
  have hne := List.rel_of_pairwise_cons hpairwise List.mem_cons_self
  rw [Bool.eq_false_iff] at hne
  exact hne ((Enclosure.equal_iff _ _).mpr rfl)

end Irstessi
