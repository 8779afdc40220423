import Irstessi.Hardware
import Irstessi.RaidInfo
import Mathlib.Data.List.Induction
import Mathlib.Data.List.Nodup
import Mathlib.Logic.Function.Basic

/-!
# Controllers and their RAID information

When a session has found its controllers each one looks for its RAID information among those that the
session lists, or makes a new one. A controller refers to its RAID information, which refers back to
one controller.

* `PciController`, `firmwareInfo`: the controllers, and what the firmware has for them.
* `RaidLinks`, `joinOrCreate`, `findRaidInfo`, `linkControllers`: the references and the functions.
* `Linked`, `linked_linkControllers`: each controller with firmware information has a RAID information
  of its class and id, and each RAID information refers to a controller that has it.
* **`twoWay_iff`**: the references are two-way, and no two RAID informations are of one type and id,
  iff no two controllers of a class have firmware information of one id, and at most one ISCI
  controller has any.

The controllers are taken one after another, in the order of the session. The invariant `Linked` relates
the references to the controllers that have been taken so far: what they refer to, of which class and id
it is, and that the one it refers back to is among them. `joinOrCreate` has two cases, and each keeps it
(`Linked.join`, `Linked.create`). A RAID information refers to the controller that has joined it last,
and those before are not referred back to any more. For the converse two controllers are compared by the
pair of type and id; of the ids of ISCI controllers none is kept, so that each of these makes a RAID
information of its own.
-/

namespace Irstessi

/-! ## Controllers -/

/-- The classes of the controllers that a session looks for. -/
inductive ControllerClass
  | AHCI
  | ISCI
  | VMD
  deriving DecidableEq, Repr

/-- Source: `ahci.h`, `isci.h`, `vmd.h` and the headers of their RAID informations,
`getControllerType` -/
def ControllerClass.getControllerType : ControllerClass → SSI_ControllerType
  | AHCI => .ahci
  | ISCI => .scu
  | VMD => .vmd

/-- Source: `orom.h` `struct orom_info_ext` -/
structure OromInfoExt where
  data : OromInfo
  orom_dev_id : UInt32
  deriving DecidableEq, Repr

/-- A controller with what `efi_get` and `orom_get` find for its type and device id.
Source: `controller.h` `Controller` -/
structure PciController where
  cls : ControllerClass
  m_ClassId : UInt8
  m_SubClassCode : UInt8
  m_prgIface : UInt8
  efi : Option OromInfoExt
  orom : Option OromInfoExt
  deriving DecidableEq, Repr

namespace PciController

variable (c : PciController)

/-- Source: `ahci.cpp` `AHCI::findRaidInfo`, the first condition -/
def isRaidClass : Bool :=
  c.m_ClassId.toUInt32 <<< 16 ||| c.m_SubClassCode.toUInt32 <<< 8 ||| c.m_prgIface.toUInt32 =
    0x010400

/-- What the firmware has for the controller: there is no legacy option ROM for VMD, and an AHCI
controller has to be in RAID mode.
Source: `ahci.cpp` `AHCI::findRaidInfo`, `isci.cpp`, `vmd.cpp` -/
def firmwareInfo : Option OromInfoExt :=
  match c.cls with
  | .AHCI => if c.isRaidClass then c.efi.or c.orom else none
  | .ISCI => c.efi.or c.orom
  | .VMD => c.efi

end PciController

/-! ## References -/

/-- A RAID information. The controller is given by its place among the controllers of the session.
Source: `raid_info.h` `RaidInfo` -/
structure LinkedRaidInfo where
  cls : ControllerClass
  m_OromDevId : UInt32
  m_pInfo : OromInfo
  m_Controller : Nat
  deriving DecidableEq, Repr

/-- The device id that the constructors keep: that of `ISCI_RaidInfo` leaves the 0 of the base class.
Source: `ahci_raid_info.cpp`, `isci_raid_info.cpp`, `vmd_raid_info.cpp`, the constructors -/
def ControllerClass.keptDevId (orom_dev_id : UInt32) : ControllerClass → UInt32
  | AHCI => orom_dev_id
  | ISCI => 0
  | VMD => orom_dev_id

/-- The RAID informations in the order of their creation, the session's list of them, and the
reference of each controller; RAID informations are given by their places in the first list.
Source: `session.h` `Session`, `controller.h` `Controller` -/
structure RaidLinks where
  created : List LinkedRaidInfo
  m_RaidInfo : List Nat
  m_pRaidInfo : Nat → Option Nat

namespace RaidLinks

def empty : RaidLinks := ⟨[], [], fun _ => none⟩

variable (s : RaidLinks)

/-- The controller looks among the RAID informations of the session for one of its type and of the
id, and makes a new one where there is none, which the session then adds.
Source: `ahci.cpp` `AHCI::findRaidInfo`, `isci.cpp`, `vmd.cpp`; `raid_info.h`
`RaidInfo::attachController`; `raid_info.cpp` `RaidInfo::addToSession` -/
def joinOrCreate (n : Nat) (cls : ControllerClass) (info : OromInfoExt) : RaidLinks :=
  match s.m_RaidInfo.find? fun r => s.created[r]?.any fun i =>
    i.cls.getControllerType = cls.getControllerType ∧ i.m_OromDevId = info.orom_dev_id with
  | some r =>
      { s with
        created := s.created.modify r fun i => { i with m_Controller := n }
        m_pRaidInfo := Function.update s.m_pRaidInfo n (some r) }
  | none =>
      { created := s.created ++ [⟨cls, cls.keptDevId info.orom_dev_id, info.data, n⟩]
        m_RaidInfo := s.m_RaidInfo ++ [s.created.length]
        m_pRaidInfo := Function.update s.m_pRaidInfo n (some s.created.length) }

/-- The `n`-th controller.
Source: `ahci.cpp` `AHCI::findRaidInfo`, `isci.cpp`, `vmd.cpp` -/
def findRaidInfo (n : Nat) (c : PciController) : RaidLinks :=
  match c.firmwareInfo with
  | none => s
  | some info => s.joinOrCreate n c.cls info

/-- The controllers that a RAID information refers to.
Source: `raid_info.cpp` `RaidInfo::getControllers` -/
def getControllers (r : Nat) : List Nat := (s.created[r]?.map (·.m_Controller)).toList

end RaidLinks

/-- The loop over the controllers of the session.
Source: `session.cpp` `Session::initialize` -/
def linkControllers (controllers : List PciController) : RaidLinks :=
  controllers.zipIdx.foldl (fun s x => s.findRaidInfo x.2 x.1) .empty

/-- One more controller is linked behind the others; the induction over the controllers goes from the
back. -/
@[simp] theorem linkControllers_append_singleton (controllers : List PciController)
    (c : PciController) : linkControllers (controllers ++ [c]) =
      (linkControllers controllers).findRaidInfo controllers.length c := by
  simp [linkControllers, List.zipIdx_append]

/-! ## What the references say -/

/-- What the RAID informations of a session are looked for by. -/
def LinkedRaidInfo.key (i : LinkedRaidInfo) : SSI_ControllerType × UInt32 :=
  (i.cls.getControllerType, i.m_OromDevId)

/-- The key of the RAID information of a controller, if it has one. -/
def PciController.raidKey (c : PciController) : Option (SSI_ControllerType × UInt32) :=
  c.firmwareInfo.map fun info =>
    (c.cls.getControllerType, c.cls.keptDevId info.orom_dev_id)

/-- Controllers and RAID informations after the loop: a controller has one iff the firmware has
information for it, and it is of the controller's key; each of them refers to a controller that has
it. -/
structure Linked (controllers : List PciController) (s : RaidLinks) : Prop where
  listed : s.m_RaidInfo = List.range s.created.length
  forward : ∀ n, (s.m_pRaidInfo n).map (fun r => s.created[r]?.map (·.key)) =
    (controllers[n]?.bind (·.raidKey)).map some
  back : ∀ r i, s.created[r]? = some i → s.m_pRaidInfo i.m_Controller = some r

/-- No controllers and no RAID infos are linked. -/
theorem linked_empty : Linked [] .empty where
  listed := rfl
  forward _ := rfl
  back r i h := by cases h

section step

variable {controllers : List PciController} {s : RaidLinks} (h : Linked controllers s)

include h

/-- The next controller has none yet. -/
theorem Linked.next_none : s.m_pRaidInfo controllers.length = none := by
  have hforward := h.forward controllers.length
  rw [List.getElem?_eq_none le_rfl, Option.bind_none, Option.map_none, Option.map_eq_none_iff]
    at hforward
  exact hforward

/-- The RAID information of a controller is listed, under the key of the controller. -/
theorem Linked.key_of_some {n r : Nat} (hn : s.m_pRaidInfo n = some r) :
    ∃ i c, s.created[r]? = some i ∧ controllers[n]? = some c ∧ c.raidKey = some i.key := by
  have hforward := h.forward n
  rw [hn, Option.map_some] at hforward
  obtain ⟨key, hkey, hsome⟩ := Option.map_eq_some_iff.mp hforward.symm
  obtain ⟨c, hc, hckey⟩ := Option.bind_eq_some_iff.mp hkey
  obtain ⟨i, hi, rfl⟩ := Option.map_eq_some_iff.mp hsome.symm
  exact ⟨i, c, hi, hc, hckey⟩

/-- A controller of a key has a RAID information, of that key. -/
theorem Linked.exists_of_raidKey {n : Nat} {c : PciController}
    {key : SSI_ControllerType × UInt32} (hc : controllers[n]? = some c)
    (hkey : c.raidKey = some key) :
    ∃ r i, s.m_pRaidInfo n = some r ∧ s.created[r]? = some i ∧ i.key = key := by
  have hforward := h.forward n
  rw [hc, Option.bind_some, hkey, Option.map_some] at hforward
  obtain ⟨r, hr, hsome⟩ := Option.map_eq_some_iff.mp hforward
  obtain ⟨i, hi, hikey⟩ := Option.map_eq_some_iff.mp hsome
  exact ⟨r, i, hr, hi, hikey⟩

/-- Each RAID information is of the key of the controller that it refers to. -/
theorem Linked.raidKey_m_Controller {r : Nat} {i : LinkedRaidInfo} (hi : s.created[r]? = some i) :
    ∃ c, controllers[i.m_Controller]? = some c ∧ c.raidKey = some i.key := by
  obtain ⟨i', c, hi', hc, hkey⟩ := h.key_of_some (h.back r i hi)
  rw [hi] at hi'
  obtain rfl := Option.some.inj hi'
  exact ⟨c, hc, hkey⟩

end step

/-- A controller's key keeps the id unless it is an ISCI controller. -/
theorem PciController.raidKey_eq_some_iff {c : PciController} {key : SSI_ControllerType × UInt32} :
    c.raidKey = some key ↔ ∃ info, c.firmwareInfo = some info ∧
      key = (c.cls.getControllerType, c.cls.keptDevId info.orom_dev_id) := by
  simp [raidKey, eq_comm]

/-- An id that is found for the class is one that the class keeps. -/
theorem ControllerClass.keptDevId_of_found {cls cls' : ControllerClass} {id id' : UInt32}
    (htype : cls'.getControllerType = cls.getControllerType) (hid : cls'.keptDevId id' = id) :
    cls.keptDevId id = id := by
  cases cls with
  | AHCI => rfl
  | VMD => rfl
  | ISCI =>
      cases cls' with
      | AHCI => cases htype
      | VMD => cases htype
      | ISCI => exact hid

/-- The key of the controller that comes next. -/
theorem bind_raidKey_append_singleton (controllers : List PciController) (c : PciController)
    (n : Nat) : (controllers ++ [c])[n]?.bind (·.raidKey) =
      if n = controllers.length then c.raidKey else controllers[n]?.bind (·.raidKey) := by
  by_cases heq : n = controllers.length
  · simp [heq]
  · rw [if_neg heq]
    rcases Nat.lt_or_gt_of_ne heq with hlt | hgt
    · rw [List.getElem?_append_left hlt]
    · have hlast : (controllers ++ [c]).length ≤ n := by
        rw [List.length_append, List.length_singleton]
        exact hgt
      rw [List.getElem?_eq_none hlast, List.getElem?_eq_none (Nat.le_of_lt hgt)]

section step

variable {controllers : List PciController} {s : RaidLinks} (h : Linked controllers s)
  {c : PciController}

include h

/-- The next controller refers to `r`; the RAID informations there are keep their keys. -/
theorem Linked.forward_update {created : List LinkedRaidInfo} {r : Nat}
    (hold : ∀ (k : Nat) (i : LinkedRaidInfo), s.created[k]? = some i →
      created[k]?.map (·.key) = some i.key)
    (hnew : created[r]?.map (·.key) = c.raidKey) (hkey : c.raidKey ≠ none) (n : Nat) :
    (Function.update s.m_pRaidInfo controllers.length (some r) n).map
        (fun r => created[r]?.map (·.key)) =
      ((controllers ++ [c])[n]?.bind (·.raidKey)).map some := by
  rw [bind_raidKey_append_singleton]
  by_cases heq : n = controllers.length
  · obtain ⟨key, hsome⟩ := Option.ne_none_iff_exists'.mp hkey
    rw [if_pos heq, heq, Function.update_self, Option.map_some, hnew, hsome, Option.map_some]
  · rw [if_neg heq, Function.update_of_ne heq, ← h.forward n]
    rcases hn : s.m_pRaidInfo n with _ | k
    · rfl
    · obtain ⟨i, -, hi, -, -⟩ := h.key_of_some hn
      rw [Option.map_some, Option.map_some, hold k i hi, hi, Option.map_some]

/-- No RAID information refers to the next controller yet. -/
theorem Linked.m_Controller_ne {r : Nat} {i : LinkedRaidInfo} (hi : s.created[r]? = some i) :
    i.m_Controller ≠ controllers.length := by
  intro heq
  have hback := h.back r i hi
  rw [heq, h.next_none] at hback
  simp at hback

/-- The next controller joins. -/
theorem Linked.join {r : Nat} {i : LinkedRaidInfo} (hi : s.created[r]? = some i)
    (hkey : c.raidKey = some i.key) :
    Linked (controllers ++ [c])
      { s with
        created := s.created.modify r fun i => { i with m_Controller := controllers.length }
        m_pRaidInfo := Function.update s.m_pRaidInfo controllers.length (some r) } := by
  have hkeys : ∀ (k : Nat) (j : LinkedRaidInfo), s.created[k]? = some j →
      (s.created.modify r fun i => { i with m_Controller := controllers.length })[k]?.map (·.key) =
        some j.key := by
    intro k j hj
    rw [List.getElem?_modify, hj]
    split <;> rfl
  refine ⟨?_, ?_, ?_⟩
  · rw [h.listed, List.length_modify]
  · exact h.forward_update hkeys ((hkeys r i hi).trans hkey.symm) (by simp [hkey])
  · intro k j hj
    show Function.update s.m_pRaidInfo controllers.length (some r) j.m_Controller = some k
    rw [List.getElem?_modify] at hj
    by_cases hk : r = k
    · subst hk
      simp only [hi, if_true, Option.map_eq_map, Option.map_some] at hj
      obtain rfl := Option.some.inj hj
      exact Function.update_self _ _ _
    · simp only [hk, if_false, Option.map_eq_map, Option.map_id_fun', id] at hj
      rw [Function.update_of_ne (h.m_Controller_ne hj)]
      exact h.back k j hj

/-- The next controller has a RAID information made. -/
theorem Linked.create {i : LinkedRaidInfo} (hi : i.m_Controller = controllers.length)
    (hkey : c.raidKey = some i.key) :
    Linked (controllers ++ [c])
      { created := s.created ++ [i]
        m_RaidInfo := s.m_RaidInfo ++ [s.created.length]
        m_pRaidInfo :=
          Function.update s.m_pRaidInfo controllers.length (some s.created.length) } := by
  have hlast : (s.created ++ [i])[s.created.length]? = some i := by simp
  refine ⟨?_, ?_, ?_⟩
  · rw [h.listed, List.length_append, List.length_singleton, List.range_succ]
  · refine h.forward_update ?_ ?_ (by simp [hkey])
    · intro k j hj
      have hlt := (List.getElem?_eq_some_iff.mp hj).1
      rw [List.getElem?_append_left hlt, hj, Option.map_some]
    · rw [hlast, hkey, Option.map_some]
  · intro k j hj
    show Function.update s.m_pRaidInfo controllers.length (some s.created.length) j.m_Controller =
      some k
    by_cases hk : k < s.created.length
    · rw [List.getElem?_append_left hk] at hj
      rw [Function.update_of_ne (h.m_Controller_ne hj)]
      exact h.back k j hj
    · have hlt := (List.getElem?_eq_some_iff.mp hj).1
      rw [List.length_append, List.length_singleton] at hlt
      obtain rfl : k = s.created.length := by omega
      obtain rfl := Option.some.inj (hlast.symm.trans hj)
      rw [hi, Function.update_self]

/-- A controller looks for its RAID information. -/
theorem Linked.step (c : PciController) :
    Linked (controllers ++ [c]) (s.findRaidInfo controllers.length c) := by
  unfold RaidLinks.findRaidInfo
  split
  next hinfo =>
    have hkey : c.raidKey = none := by simp [PciController.raidKey, hinfo]
    refine ⟨h.listed, ?_, h.back⟩
    intro n
    rw [bind_raidKey_append_singleton, hkey]
    by_cases heq : n = controllers.length
    · rw [heq, h.next_none, if_pos rfl]
      rfl
    · rw [if_neg heq]
      exact h.forward n
  next info hinfo =>
    have hkey := PciController.raidKey_eq_some_iff.mpr ⟨info, hinfo, rfl⟩
    unfold RaidLinks.joinOrCreate
    split
    next r hfind =>
      have hmatch := List.find?_some hfind
      rcases hi : s.created[r]? with _ | i
      · rw [hi] at hmatch
        simp at hmatch
      · rw [hi, Option.any_some, decide_eq_true_eq] at hmatch
        obtain ⟨htype, hid⟩ := hmatch
        obtain ⟨c', -, hckey⟩ := h.raidKey_m_Controller hi
        obtain ⟨info', -, hkept⟩ := PciController.raidKey_eq_some_iff.mp hckey
        obtain ⟨htype', hid'⟩ := Prod.mk.inj hkept
        apply h.join hi
        rw [hkey, LinkedRaidInfo.key, htype, hid]
        rw [ControllerClass.keptDevId_of_found (htype'.symm.trans htype) (hid'.symm.trans hid)]
    next hfind => exact h.create rfl hkey

end step

/-- The references after the loop. -/
theorem linked_linkControllers (controllers : List PciController) :
    Linked controllers (linkControllers controllers) := by
  induction controllers using List.reverseRecOn with
  | nil => exact linked_empty
  | append_singleton controllers c ih =>
      rw [linkControllers_append_singleton]
      exact ih.step c

/-! ## Two-way references -/

/-- After the loop the RAID information of each controller is listed once and refers to the
controller, and no two of them are of one type and id. -/
structure TwoWay (controllers : List PciController) : Prop where
  refersBack : ∀ n r, (linkControllers controllers).m_pRaidInfo n = some r →
    (linkControllers controllers).m_RaidInfo.count r = 1 ∧
      n ∈ (linkControllers controllers).getControllers r
  distinct : ∀ r ∈ (linkControllers controllers).m_RaidInfo,
    ∀ r' ∈ (linkControllers controllers).m_RaidInfo, ∀ i i',
      (linkControllers controllers).created[r]? = some i →
      (linkControllers controllers).created[r']? = some i' →
      i.cls.getControllerType = i'.cls.getControllerType → i.m_OromDevId = i'.m_OromDevId →
      r = r'

/-- Two controllers of one class have firmware information of different ids, and at most one of two
ISCI controllers has any. -/
def PciController.Apart (c d : PciController) : Prop :=
  ∀ info info', c.firmwareInfo = some info → d.firmwareInfo = some info' → c.cls = d.cls →
    c.cls ≠ .ISCI ∧ info.orom_dev_id ≠ info'.orom_dev_id

/-- The classes of controllers have different types, so that the search by type is one by class. -/
theorem ControllerClass.getControllerType_inj {cls cls' : ControllerClass}
    (h : cls.getControllerType = cls'.getControllerType) : cls = cls' := by
  cases cls <;> cases cls' <;> first | rfl | cases h

/-- Controllers are apart iff they do not have one key. -/
theorem PciController.apart_iff {c d : PciController} :
    c.Apart d ↔ ∀ key, c.raidKey = some key → d.raidKey ≠ some key := by
  constructor
  · intro hapart key hc hd
    obtain ⟨info, hinfo, rfl⟩ := raidKey_eq_some_iff.mp hc
    obtain ⟨info', hinfo', hkey⟩ := raidKey_eq_some_iff.mp hd
    obtain ⟨htype, hid⟩ := Prod.mk.inj hkey
    have hcls := ControllerClass.getControllerType_inj htype
    obtain ⟨hisci, hne⟩ := hapart info info' hinfo hinfo' hcls
    rw [← hcls] at hid
    cases hc' : c.cls with
    | AHCI =>
        rw [hc'] at hid
        exact hne hid
    | VMD =>
        rw [hc'] at hid
        exact hne hid
    | ISCI => exact hisci hc'
  · intro hkeys info info' hinfo hinfo' hcls
    have hkey := hkeys _ (raidKey_eq_some_iff.mpr ⟨info, hinfo, rfl⟩)
    have hkey' := raidKey_eq_some_iff.mpr ⟨info', hinfo', rfl⟩
    rw [hkey', ← hcls] at hkey
    refine ⟨?_, ?_⟩
    · intro hisci
      rw [hisci] at hkey
      exact hkey rfl
    · intro hid
      rw [hid] at hkey
      exact hkey rfl

/-- All controllers are apart iff a key determines its controller. -/
theorem pairwise_apart_iff {controllers : List PciController} :
    controllers.Pairwise PciController.Apart ↔
      ∀ (n m : Nat) (c d : PciController), controllers[n]? = some c → controllers[m]? = some d →
        ∀ key, c.raidKey = some key → d.raidKey = some key → n = m := by
  rw [List.pairwise_iff_getElem]
  constructor
  · intro hapart n m c d hn hm key hc hd
    obtain ⟨hnlt, rfl⟩ := List.getElem?_eq_some_iff.mp hn
    obtain ⟨hmlt, rfl⟩ := List.getElem?_eq_some_iff.mp hm
    rcases Nat.lt_trichotomy n m with hlt | heq | hgt
    · exact absurd hd (PciController.apart_iff.mp (hapart n m hnlt hmlt hlt) key hc)
    · exact heq
    · exact absurd hc (PciController.apart_iff.mp (hapart m n hmlt hnlt hgt) key hd)
  · intro hkeys n m hnlt hmlt hlt
    rw [PciController.apart_iff]
    intro key hc hd
    have heq := hkeys n m _ _ (List.getElem?_eq_getElem hnlt) (List.getElem?_eq_getElem hmlt)
      key hc hd
    exact Nat.ne_of_lt hlt heq

/-- The controllers of a session and their RAID informations refer to each other, and no two of these
are of one type and id, iff no two AHCI controllers and no two VMD controllers have firmware
information of one id, and at most one ISCI controller has any. -/
theorem twoWay_iff (controllers : List PciController) :
    TwoWay controllers ↔ controllers.Pairwise PciController.Apart := by
  have h := linked_linkControllers controllers
  rw [pairwise_apart_iff]
  constructor
  · intro htwo n m c d hn hm key hc hd
    obtain ⟨r, i, hr, hi, hikey⟩ := h.exists_of_raidKey hn hc
    obtain ⟨r', i', hr', hi', hikey'⟩ := h.exists_of_raidKey hm hd
    obtain ⟨htype, hid⟩ := Prod.mk.inj (hikey.trans hikey'.symm)
    have hlist := (htwo.refersBack n r hr).1
    have hlist' := (htwo.refersBack m r' hr').1
    have hsame : r = r' := by
      refine htwo.distinct r ?_ r' ?_ i i' hi hi' htype hid
      · exact List.count_pos_iff.mp (by omega)
      · exact List.count_pos_iff.mp (by omega)
    -- One RAID information refers to one controller.
    have hn' := (htwo.refersBack n r hr).2
    have hm' := (htwo.refersBack m r' hr').2
    rw [← hsame] at hm'
    simp only [RaidLinks.getControllers, hi, Option.map_some, Option.toList_some,
      List.mem_singleton] at hn' hm'
    exact hn'.trans hm'.symm
  · intro hkeys
    refine ⟨?_, ?_⟩
    · intro n r hr
      obtain ⟨i, c, hi, hc, hckey⟩ := h.key_of_some hr
      obtain ⟨d, hd, hdkey⟩ := h.raidKey_m_Controller hi
      have hlt := (List.getElem?_eq_some_iff.mp hi).1
      refine ⟨?_, ?_⟩
      · rw [h.listed]
        exact List.count_eq_one_of_mem List.nodup_range (List.mem_range.mpr hlt)
      · rw [RaidLinks.getControllers, hi, hkeys n _ c d hc hd _ hckey hdkey]
        simp
    · intro r _ r' _ i i' hi hi' htype hid
      obtain ⟨c, hc, hckey⟩ := h.raidKey_m_Controller hi
      obtain ⟨d, hd, hdkey⟩ := h.raidKey_m_Controller hi'
      have hkey : i.key = i'.key := Prod.ext htype hid
      have hsame := hkeys _ _ c d hc hd _ hckey (hdkey.trans (congrArg some hkey.symm))
      have hback := h.back r i hi
      rw [hsame, h.back r' i' hi'] at hback
      exact (Option.some.inj hback).symm

/-- An AHCI controller in RAID mode, whose option ROM has the id `0x2822`. -/
def sampleAhci : PciController :=
  ⟨.AHCI, 1, 4, 0, none, some ⟨⟨true, true, true, true, false, 0xff, 6⟩, 0x2822⟩⟩

/-- The first of two such controllers joins no other, and its RAID information refers to the second
one. -/
theorem not_twoWay_sample : ¬ ∀ controllers : List PciController, TwoWay controllers := by
  intro h
  have hback := ((h [sampleAhci, sampleAhci]).refersBack 0 0 (by decide)).2
  exact absurd hback (by decide)

/-! ## The RAID informations of a device tree -/

/-- A RAID information is found iff there is one of the key. -/
theorem isSome_find_iff {s : RaidLinks} (hlisted : s.m_RaidInfo = List.range s.created.length)
    (cls : ControllerClass) (id : UInt32) :
    (s.m_RaidInfo.find? fun r => s.created[r]?.any fun i =>
        i.cls.getControllerType = cls.getControllerType ∧ i.m_OromDevId = id).isSome ↔
      (cls.getControllerType, id) ∈ s.created.map (·.key) := by
  rw [List.find?_isSome, hlisted, List.mem_map]
  constructor
  · rintro ⟨r, hr, hany⟩
    have hlt := List.mem_range.mp hr
    rw [List.getElem?_eq_getElem hlt, Option.any_some, decide_eq_true_eq] at hany
    exact ⟨_, List.getElem_mem hlt, Prod.ext hany.1 hany.2⟩
  · rintro ⟨i, hi, hkey⟩
    obtain ⟨r, hr⟩ := List.mem_iff_getElem?.mp hi
    obtain ⟨htype, hid⟩ := Prod.mk.inj hkey
    refine ⟨r, List.mem_range.mpr (List.getElem?_eq_some_iff.mp hr).1, ?_⟩
    rw [hr, Option.any_some, decide_eq_true_eq]
    exact ⟨htype, hid⟩

/-- The list of the session stays complete, and a key that is not there comes to the end. -/
theorem keys_joinOrCreate {s : RaidLinks} (hlisted : s.m_RaidInfo = List.range s.created.length)
    (n : Nat) (cls : ControllerClass) (info : OromInfoExt) :
    (s.joinOrCreate n cls info).m_RaidInfo =
        List.range (s.joinOrCreate n cls info).created.length ∧
    (s.joinOrCreate n cls info).created.map (·.key) =
      if (cls.getControllerType, info.orom_dev_id) ∈ s.created.map (·.key) then
        s.created.map (·.key)
      else s.created.map (·.key) ++
        [(cls.getControllerType, cls.keptDevId info.orom_dev_id)] := by
  rw [← if_congr (isSome_find_iff hlisted cls info.orom_dev_id) rfl rfl]
  unfold RaidLinks.joinOrCreate
  split
  next r hfind =>
    rw [hfind, Option.isSome_some, if_pos rfl]
    refine ⟨?_, ?_⟩
    · rw [hlisted, List.length_modify]
    · apply List.ext_getElem?
      intro k
      rw [List.getElem?_map, List.getElem?_map, List.getElem?_modify]
      rcases s.created[k]? with _ | i
      · rfl
      · split <;> rfl
  next hfind =>
    rw [hfind, if_neg (by simp)]
    refine ⟨?_, ?_⟩
    · rw [hlisted, List.length_append, List.length_singleton, List.range_succ]
    · rw [List.map_append]
      rfl

/-- The controllers of a device tree, in the order of the tree. -/
def OfTree (tree : DeviceTree) (controllers : List PciController) : Prop :=
  List.Forall₂ (fun found c => found.controllerType = c.cls.getControllerType ∧
    found.oromDevId = c.firmwareInfo.map (·.orom_dev_id)) tree controllers

/-- A session registers the RAID informations that the references lead to. -/
theorem raidInfos_ofTree {tree : DeviceTree} {controllers : List PciController}
    (h : OfTree tree controllers) :
    tree.raidInfos = (linkControllers controllers).created.map (·.key) := by
  obtain ⟨f, hraidInfos, hnone, hsome⟩ :
      ∃ f : List (SSI_ControllerType × UInt32) → FoundController → List (SSI_ControllerType × UInt32),
        (∀ tree : DeviceTree, tree.raidInfos = tree.foldl f []) ∧
        (∀ infos c, c.oromDevId = none → f infos c = infos) ∧
        ∀ infos c id, c.oromDevId = some id → f infos c =
          if (c.controllerType, id) ∈ infos then infos
          else infos ++ [(c.controllerType, if c.controllerType = .scu then 0 else id)] :=
    ⟨_, fun _ => rfl, fun _ _ h => by simp only [h], fun _ _ _ h => by simp only [h]⟩
  have hloop : ∀ (n : Nat) (s : RaidLinks), s.m_RaidInfo = List.range s.created.length →
      tree.foldl f (s.created.map (·.key)) =
        ((controllers.zipIdx n).foldl (fun s x => s.findRaidInfo x.2 x.1) s).created.map (·.key) := by
    induction h with
    | nil => exact fun _ _ _ => rfl
    | @cons found c tree controllers hc h ih =>
        intro n s hlisted
        obtain ⟨htype, hid⟩ := hc
        rw [List.zipIdx_cons, List.foldl_cons, List.foldl_cons]
        rcases hinfo : c.firmwareInfo with _ | info
        · have hsame : s.findRaidInfo n c = s := by simp [RaidLinks.findRaidInfo, hinfo]
          rw [hinfo] at hid
          rw [hsame, hnone _ _ hid]
          exact ih (n + 1) s hlisted
        · have hjoin : s.findRaidInfo n c = s.joinOrCreate n c.cls info := by
            simp [RaidLinks.findRaidInfo, hinfo]
          have hkept : c.cls.keptDevId info.orom_dev_id =
              if c.cls.getControllerType = .scu then 0 else info.orom_dev_id := by
            cases c.cls <;> rfl
          obtain ⟨hlisted', hkeys⟩ := keys_joinOrCreate hlisted n c.cls info
          rw [hinfo] at hid
          rw [hjoin, ← ih (n + 1) _ hlisted', hkeys, hkept, hsome _ _ _ hid, htype]
  rw [hraidInfos]
  exact hloop 0 .empty rfl

end Irstessi
