import Irstessi.Sessions
import Irstessi.Types
import Mathlib.Data.List.Perm.Subperm

/-!
# Listing the handles of a session

A session is opened under a handle of its own, and lists the handles of its objects in a buffer of
the caller.

* `ContextManager`, `ContextEvent`: the sessions by their handles, over the process of `Sessions`, and
  the insertions into the handle manager that have failed.
* `getHandles`, `getObject`, `SsiGetHandles`: the listing and the look-up.
* `ContextManager.Invariant`, `invariant_run`: the lists of a session are the objects of its opening,
  and those whose insertion has not failed have a handle.
* **`handleListing_of_run`**: what a listing returns and writes, and what its handles are taken for.

The sessions of a process are those of `Sessions`, extended by the lists of the context manager: by
kind, in the order of registration, with the insertions that have failed noted. The invariant is kept by
opening, closing, calls and by a discovery that throws, which leaves its session registered only until
it is destroyed. For a session in the list the handles of a kind are then distinct and real for all
objects whose insertion did not fail; the listing writes as many of them as there is room for, returns
their number, and each is taken for its own object and for no other kind.
-/

namespace Irstessi

/-- Source: `ssi.h` `SSI_ScopeType` -/
inductive SSI_ScopeType
  | none
  | controllerDirect
  | controllerAll
  | raidInfo
  | endDevice
  | routingDevice
  | port
  | phy
  | array
  | enclosure
  deriving DecidableEq, Repr

/-! ## Insertions that fail -/

namespace HandleManager

variable {α : Type} [DecidableEq α]

/-- The objects among those added that `insert` does not take. -/
def rejected (m : HandleManager α) : List α → List α
  | [] => []
  | o :: objects =>
      let ret := m.insert o
      if ret.2.2 then rejected ret.1 objects else o :: rejected ret.1 objects

/-- An object that is taken has a handle. -/
theorem handle_insert_ne_zero {m : HandleManager α} (hm : m.Consistent) {o : α}
    (h : (m.insert o).2.2 = true) : (m.insert o).1.handle o ≠ 0 := by
  by_cases ho : m.handle o = 0
  · rcases eq_or_lt_of_le hm.greatest_le with hfull | hroom
    · rw [insert_of_full ho hfull] at h
      exact absurd h Bool.false_ne_true
    · rw [insert_of_fresh hm ho hroom]
      show Function.update m.handle o (m.greatest + 1) o ≠ 0
      rw [Function.update_self]
      exact Nat.succ_ne_zero _
  · rw [insert_of_registered hm ho]
    exact ho

/-- Objects that are not rejected have a handle after all insertions. -/
theorem handle_addAll_ne_zero {m : HandleManager α} (hm : m.Consistent) {objects : List α}
    (hnodup : objects.Nodup) {o : α} (ho : o ∈ objects) (h : o ∉ m.rejected objects) :
    (m.addAll objects).handle o ≠ 0 := by
  induction objects generalizing m with
  | nil => simp at ho
  | cons o' objects ih =>
      obtain ⟨hfresh, hnodup⟩ := List.nodup_cons.mp hnodup
      have hnext := consistent_insert hm o'
      rw [rejected] at h
      rcases List.mem_cons.mp ho with rfl | ho
      · have hkept := handle_addAll_of_notMem hnext hfresh
        show ((m.insert o).1.addAll objects).handle o ≠ 0
        rw [hkept]
        apply handle_insert_ne_zero hm
        by_contra hfails
        rw [if_neg hfails] at h
        exact h List.mem_cons_self
      · refine ih hnext hnodup ho fun hmem => h ?_
        split
        · exact hmem
        · exact List.mem_cons_of_mem _ hmem

end HandleManager

/-! ## The sessions by their handles -/

/-- The sessions with their handles, and the objects whose insertion into the handle manager has
failed.
Source: `context_manager.h` `ContextManager`, `session_manager.h` `SessionManager` -/
structure ContextManager where
  process : Process
  m_sessions : HandleManager Nat
  failed : List ObjectId

/-- What clients do: they open a session, whose discovery may throw when some objects have been
registered; they close one; they call a function that opens a session of its own. -/
inductive ContextEvent
  | openSession (objects : List SessionObject)
  | discoveryThrows (objects : List SessionObject)
  | closeSession (session : Nat)
  | call (objects : List SessionObject)
  deriving DecidableEq, Repr

namespace ContextManager

def start : ContextManager := ⟨.start, .empty, []⟩

/-- The objects of a session opened next that the handle manager does not take.
Source: `context_manager.cpp` `ContextManager::add` -/
def rejected (c : ContextManager) (objects : List SessionObject) : List ObjectId :=
  c.process.registry.manager.rejected (Process.ids c.process.next objects)

/-- Source: `session_manager.cpp` `SessionManager::openSession` -/
def openSession (c : ContextManager) (objects : List SessionObject) : ContextManager :=
  let ret := c.m_sessions.insert c.process.next
  if !ret.2.2 then c
  else
    { process := c.process.openSession objects
      m_sessions := ret.1
      failed := c.failed ++ c.rejected objects }

/-- The session is removed again, and its destructor removes what has been registered.
Source: `session_manager.cpp` `SessionManager::openSession`, `catch (...)` -/
def discoveryThrows (c : ContextManager) (objects : List SessionObject) : ContextManager :=
  let ret := c.m_sessions.insert c.process.next
  if !ret.2.2 then c
  else
    { process := c.process.call objects
      m_sessions := (ret.1.remove (ret.1.handle c.process.next)).1
      failed := c.failed ++ c.rejected objects }

/-- Source: `session_manager.cpp` `SessionManager::closeSession` -/
def closeSession (c : ContextManager) (session : Nat) : ContextManager :=
  let ret := c.m_sessions.remove session
  match ret.2 with
  | none => { c with m_sessions := ret.1 }
  | some number => { c with process := c.process.closeSession number, m_sessions := ret.1 }

/-- Source: `src/session.cpp` `getTempSession` -/
def call (c : ContextManager) (objects : List SessionObject) : ContextManager :=
  { c with process := c.process.call objects, failed := c.failed ++ c.rejected objects }

def step (c : ContextManager) : ContextEvent → ContextManager
  | .openSession objects => c.openSession objects
  | .discoveryThrows objects => c.discoveryThrows objects
  | .closeSession session => c.closeSession session
  | .call objects => c.call objects

/-- The sessions after some events. -/
def run (events : List ContextEvent) : ContextManager := events.foldl step start

/-- A run with one more event is the run and then this event. -/
@[simp] theorem run_append_singleton (events : List ContextEvent) (e : ContextEvent) :
    run (events ++ [e]) = (run events).step e := by
  simp [run]

/-- Source: `session_manager.cpp` `SessionManager::getSession` -/
def getSession (c : ContextManager) (session : Nat) : Option OpenSession :=
  (c.m_sessions.objectAt session).bind fun number =>
    c.process.sessions.find? fun S => S.number = number

/-! ## Listing and look-up -/

/-- A list of the session: `m_EndDevices`, `m_Arrays`, `m_Volumes` and so on.
Source: `session.h` `Session`, `getEndDevices`, `getArrays`, `getVolumes` -/
def listOf (c : ContextManager) (number : Nat) (k : ObjectKind) : List ObjectId :=
  c.process.registry.added number k

/-- Source: `object.cpp` `Object::getHandle` -/
def getHandle (c : ContextManager) (o : ObjectId) : Nat := c.process.registry.manager.handle o

/-- The first object of the list that has the handle: `Session::getEndDevice`, `getArray`,
`getVolume` and so on.
Source: `container.h` `Container::find` -/
def find (c : ContextManager) (number : Nat) (k : ObjectKind) (h : Nat) : Option ObjectId :=
  (c.listOf number k).find? fun o => c.getHandle o = h

/-- The lists in the order in which `getObject` searches them. -/
def searchOrder : List ObjectKind :=
  [.endDevice, .array, .enclosure, .phy, .volume, .port, .routingDevice, .raidInfo, .controller]

end ContextManager

/-- What a handle stands for as the scope of a listing. -/
inductive ScopeObject
  | session
  | object (o : ObjectId)
  deriving DecidableEq, Repr

/-- Source: `session.cpp` `Session::getObject` -/
def ContextManager.getObject (c : ContextManager) (number h : Nat) : Option ScopeObject :=
  if h = SSI_NULL_HANDLE then some .session
  else (searchOrder.findSome? fun k => c.find number k h).map .object

/-- The slots of a buffer from `pBuffer` on. -/
abbrev HandleSlots : Type := Nat → Nat

/-- The handles are written to one slot after the other.
Source: `container.h` `Container::getHandles`, the loop -/
def writeHandles (slots : HandleSlots) (position : Nat) : List Nat → HandleSlots
  | [] => slots
  | h :: handles => writeHandles (Function.update slots position h) (position + 1) handles

/-- The status, the buffer and `*bufferSize`; a null pointer is none. The handles are those of the
objects in the container.
Source: `container.h` `Container::getHandles` -/
def getHandles (handles : List Nat) (pBuffer : Option HandleSlots) (bufferSize : Option UInt32) :
    SSI_Status × Option HandleSlots × Option UInt32 :=
  match bufferSize with
  | none => (.invalidParameter, pBuffer, none)
  | some capacity =>
      if capacity ≠ 0 ∧ pBuffer.isNone then (.invalidParameter, pBuffer, some capacity)
      else if capacity.toNat < handles.length then
        (.bufferTooSmall, pBuffer, some (UInt32.ofNat handles.length))
      else
        (.ok, pBuffer.map fun slots => writeHandles slots 0 handles,
          some (UInt32.ofNat handles.length))

section SsiGetHandles

-- What an object other than a session lists of a kind: none where it is not of the scope type or has
-- no such list.
variable (items : ObjectKind → ObjectId → SSI_ScopeType → Option (List ObjectId))

/-- Source: `templates.h` `SsiGetHandles`, with `getItems` for the given kind -/
def SsiGetHandles (c : ContextManager) (k : ObjectKind) (session : Nat) (scopeType : SSI_ScopeType)
    (scopeHandle : Nat) (handleList : Option HandleSlots) (handleCount : Option UInt32) :
    SSI_Status × Option HandleSlots × Option UInt32 :=
  match c.getSession session with
  | none => (if session = SSI_NULL_HANDLE then .failed else .invalidSession, handleList, handleCount)
  | some S =>
      match c.getObject S.number scopeHandle with
      | none => (.invalidScope, handleList, handleCount)
      | some .session =>
          if scopeType = .none then
            getHandles ((c.listOf S.number k).map c.getHandle) handleList handleCount
          else (.invalidScope, handleList, handleCount)
      | some (.object o) =>
          match items k o scopeType with
          | none => (.invalidScope, handleList, handleCount)
          | some objects => getHandles (objects.map c.getHandle) handleList handleCount

/-- Source: `src/array.cpp` `SsiGetArrayHandles` -/
def SsiGetArrayHandles (c : ContextManager) := SsiGetHandles items c .array

/-- Source: `src/volume.cpp` `SsiGetVolumeHandles` -/
def SsiGetVolumeHandles (c : ContextManager) := SsiGetHandles items c .volume

/-- Source: `src/end_device.cpp` `SsiGetEndDeviceHandles` -/
def SsiGetEndDeviceHandles (c : ContextManager) := SsiGetHandles items c .endDevice

end SsiGetHandles

/-- The slots after a listing: the handles, and behind them what was there. -/
theorem writeHandles_eq (slots : HandleSlots) (position : Nat) (handles : List Nat) (i : Nat) :
    writeHandles slots position handles i =
      if position ≤ i then (handles[i - position]?).getD (slots i) else slots i := by
  induction handles generalizing slots position with
  | nil => simp [writeHandles]
  | cons h handles ih =>
      rw [writeHandles, ih]
      rcases Nat.lt_trichotomy i position with hlt | rfl | hgt
      · rw [if_neg (by omega), if_neg (by omega), Function.update_of_ne (Nat.ne_of_lt hlt)]
      · simp
      · have hindex : i - position = i - (position + 1) + 1 := by omega
        rw [if_pos (by omega), if_pos (by omega), Function.update_of_ne (Nat.ne_of_gt hgt), hindex,
          List.getElem?_cons_succ]

/-! ## The invariant -/

/-- The objects of a kind among those of the opening. -/
def OpenSession.idsOf (S : OpenSession) (k : ObjectKind) : List ObjectId :=
  (S.objects.zipIdx.filter fun x => x.1.kind = k).map fun x => (S.number, x.2)

namespace ContextManager

/-- Sessions are open iff they have a handle, each of its own; their lists are the objects of the
opening, and an object is without a handle only if its insertion has failed. -/
structure Invariant (c : ContextManager) : Prop where
  process : c.process.Invariant
  consistent : c.m_sessions.Consistent
  registered : ∀ number, c.m_sessions.handle number ≠ 0 ↔
    ∃ S ∈ c.process.sessions, S.number = number
  unique : ∀ S ∈ c.process.sessions, ∀ S' ∈ c.process.sessions, S.number = S'.number → S = S'
  lists : ∀ S ∈ c.process.sessions, ∀ k, c.listOf S.number k = S.idsOf k
  handles : ∀ S ∈ c.process.sessions, ∀ o ∈ Process.ids S.number S.objects, o ∉ c.failed →
    c.getHandle o ≠ 0

section lists

open Process

variable {registry : RegistryState ObjectId Nat} {number : Nat} {objects : List SessionObject}

/-- The registration of a session appends its objects, kind by kind. -/
theorem added_register (k : ObjectKind) : (register registry number objects).added number k =
    registry.added number k ++ (⟨number, objects⟩ : OpenSession).idsOf k := by
  unfold register OpenSession.idsOf
  generalize objects.zipIdx = l
  induction l generalizing registry with
  | nil => simp
  | cons x l ih =>
      rw [List.foldl_cons, ih]
      show Function.update registry.added number _ number k ++ _ = _
      rw [Function.update_self, List.filter_cons]
      by_cases hk : x.1.kind = k
      · subst hk
        simp
      · rw [Function.update_of_ne (Ne.symm hk)]
        simp [hk]

/-- The registration of a session adds nothing to another one's lists. -/
theorem added_register_of_ne {s : Nat} (hs : s ≠ number) :
    (register registry number objects).added s = registry.added s := by
  unfold register
  generalize objects.zipIdx = l
  induction l generalizing registry with
  | nil => rfl
  | cons x l ih =>
      rw [List.foldl_cons, ih]
      exact Function.update_of_ne hs _ _

/-- Destroying a session leaves the lists of the others. -/
theorem added_destroy_of_ne {s : Nat} (hs : s ≠ number) :
    (registry.destroy number).added s = registry.added s :=
  Function.update_of_ne hs _ _

/-- What has added nothing has nothing in any of its lists. -/
theorem added_eq_nil {st : RegistryState ObjectId Nat} {s : Nat} (h : st.addedBy s = [])
    (k : ObjectKind) : st.added s k = [] :=
  List.flatMap_eq_nil_iff.mp h k k.mem_all

end lists

section steps

variable {c : ContextManager} (hc : c.Invariant)

include hc

/-- The number of the next session has no handle yet. -/
theorem Invariant.next_fresh : c.m_sessions.handle c.process.next = 0 := by
  by_contra h
  obtain ⟨S, hS, hnumber⟩ := (hc.registered _).mp h
  exact absurd (hc.process.used S hS) (by omega)

/-- A session is opened. -/
theorem invariant_openSession (objects : List SessionObject) : (c.openSession objects).Invariant := by
  unfold openSession
  by_cases hinsert : (c.m_sessions.insert c.process.next).2.2 = true
  swap
  · rw [if_pos (by simpa using hinsert)]
    exact hc
  rw [if_neg (by simpa using hinsert)]
  have hopen := Process.invariant_openSession hc.process objects
  have hne : ∀ S ∈ c.process.sessions, S.number ≠ c.process.next := fun S hS =>
    Nat.ne_of_lt (hc.process.used S hS)
  refine ⟨hopen, HandleManager.consistent_insert hc.consistent _, ?_, ?_, ?_, ?_⟩
  · intro number
    show _ ↔ ∃ S ∈ c.process.sessions ++ [⟨c.process.next, objects⟩], S.number = number
    by_cases hnumber : number = c.process.next
    · subst hnumber
      apply iff_of_true (HandleManager.handle_insert_ne_zero hc.consistent hinsert)
      exact ⟨_, List.mem_append_right _ (List.mem_singleton_self _), rfl⟩
    · rw [HandleManager.handle_insert_of_ne hc.consistent hnumber, hc.registered]
      simp [Ne.symm hnumber]
  · intro S hS S' hS' hnumber
    rcases List.mem_append.mp hS with hS | hS <;> rcases List.mem_append.mp hS' with hS' | hS'
    · exact hc.unique S hS S' hS' hnumber
    · rw [List.mem_singleton.mp hS'] at hnumber
      exact absurd hnumber (hne S hS)
    · rw [List.mem_singleton.mp hS] at hnumber
      exact absurd hnumber.symm (hne S' hS')
    · rw [List.mem_singleton.mp hS, List.mem_singleton.mp hS']
  · intro S hS k
    show (Process.register c.process.registry c.process.next objects).added S.number k = _
    rcases List.mem_append.mp hS with hS | hS
    · rw [added_register_of_ne (hne S hS)]
      exact hc.lists S hS k
    · rw [List.mem_singleton.mp hS, added_register]
      rw [added_eq_nil (hc.process.unused _ (Nat.le_refl _)), List.nil_append]
  · intro S hS o ho hnotfailed
    obtain ⟨hbefore, hnew⟩ := not_or.mp (List.mem_append.not.mp hnotfailed)
    show (Process.register c.process.registry c.process.next objects).manager.handle o ≠ 0
    rw [Process.manager_register]
    rcases List.mem_append.mp hS with hS | hS
    · have hout : o ∉ Process.ids c.process.next objects := by
        intro hmem
        obtain ⟨x, -, rfl⟩ := List.mem_map.mp ho
        obtain ⟨y, -, heq⟩ := List.mem_map.mp hmem
        exact hne S hS (Prod.mk.inj heq).1.symm
      rw [HandleManager.handle_addAll_of_notMem hc.process.consistent hout]
      exact hc.handles S hS o ho hbefore
    · rw [List.mem_singleton.mp hS] at ho
      exact HandleManager.handle_addAll_ne_zero hc.process.consistent Process.nodup_ids ho hnew

/-- The process after a session for the time of a call, with sessions' handles as before. -/
theorem invariant_of_call (objects : List SessionObject) {sessions : HandleManager Nat}
    (hconsistent : sessions.Consistent) (hsessions : ∀ number, sessions.handle number =
      c.m_sessions.handle number) (failed : List ObjectId) :
    (⟨c.process.call objects, sessions, c.failed ++ failed⟩ : ContextManager).Invariant := by
  have hne : ∀ S ∈ c.process.sessions, S.number ≠ c.process.next := fun S hS =>
    Nat.ne_of_lt (hc.process.used S hS)
  refine ⟨Process.invariant_call hc.process objects, hconsistent, ?_, hc.unique, ?_, ?_⟩
  · intro number
    rw [hsessions]
    exact hc.registered number
  · intro S hS k
    show ((Process.register c.process.registry c.process.next objects).destroy
      c.process.next).added S.number k = _
    rw [added_destroy_of_ne (hne S hS), added_register_of_ne (hne S hS)]
    exact hc.lists S hS k
  · intro S hS o ho hnotfailed
    have hbefore := (not_or.mp (List.mem_append.not.mp hnotfailed)).1
    have hkept : (c.process.call objects).handle o.1 o.2 = c.process.handle o.1 o.2 :=
      Process.handle_call hc.process objects o.1 o.2
    exact fun hzero => hc.handles S hS o ho hbefore (hkept.symm.trans hzero)

/-- A session whose discovery throws is destroyed again and leaves the invariant as it was. -/
theorem invariant_discoveryThrows (objects : List SessionObject) :
    (c.discoveryThrows objects).Invariant := by
  unfold discoveryThrows
  by_cases hinsert : (c.m_sessions.insert c.process.next).2.2 = true
  swap
  · rw [if_pos (by simpa using hinsert)]
    exact hc
  rw [if_neg (by simpa using hinsert)]
  have hinserted := HandleManager.consistent_insert hc.consistent c.process.next
  refine invariant_of_call hc objects (HandleManager.consistent_remove hinserted _) ?_ _
  -- The handle that the session has got is taken from it again.
  intro number
  refine (HandleManager.handle_removeObject hinserted c.process.next number).trans ?_
  by_cases hnumber : number = c.process.next
  · rw [if_pos hnumber, hnumber, hc.next_fresh]
  · rw [if_neg hnumber, HandleManager.handle_insert_of_ne hc.consistent hnumber]

/-- A call with a session of its own keeps the invariant. -/
theorem invariant_call (objects : List SessionObject) : (c.call objects).Invariant :=
  invariant_of_call hc objects hc.consistent (fun _ => rfl) _

/-- Closing a session keeps the invariant. -/
theorem invariant_closeSession (session : Nat) : (c.closeSession session).Invariant := by
  unfold closeSession
  rcases hat : c.m_sessions.objectAt session with _ | number
  · rw [HandleManager.remove_of_none hat]
    exact hc
  · have hafter : ∀ s, (c.m_sessions.remove session).1.handle s =
        if s = number then 0 else c.m_sessions.handle s := by
      obtain ⟨-, rfl⟩ := hc.consistent.objectAt_iff.mp hat
      exact HandleManager.handle_removeObject hc.consistent number
    have hconsistent := HandleManager.consistent_remove hc.consistent session
    have hopen : c.process.sessions.any (fun S => S.number = number) := by
      obtain ⟨h0, rfl⟩ := hc.consistent.objectAt_iff.mp hat
      obtain ⟨S, hS, hnumber⟩ := (hc.registered number).mp h0
      exact List.any_eq_true.mpr ⟨S, hS, decide_eq_true hnumber⟩
    have hsome : (c.m_sessions.remove session).2 = some number := by
      rw [HandleManager.remove_of_some hat]
    simp only [hsome]
    have hsessions : (c.process.closeSession number).sessions =
        c.process.sessions.filter fun S => S.number ≠ number := by
      rw [Process.closeSession, if_pos hopen]
    have hmem : ∀ {S}, S ∈ (c.process.closeSession number).sessions →
        S ∈ c.process.sessions ∧ S.number ≠ number := by
      intro S hS
      rw [hsessions] at hS
      simpa using hS
    refine ⟨Process.invariant_closeSession hc.process number, hconsistent, ?_, ?_, ?_, ?_⟩
    · intro s
      rw [hafter]
      by_cases hs : s = number
      · rw [if_pos hs]
        refine iff_of_false (fun h => h rfl) ?_
        rintro ⟨S, hS, hnumber⟩
        exact (hmem hS).2 (hnumber.trans hs)
      · rw [if_neg hs, hc.registered, hsessions]
        refine exists_congr fun S => and_congr_left fun hnumber => ?_
        simp [hnumber, hs]
    · intro S hS S' hS'
      exact hc.unique S (hmem hS).1 S' (hmem hS').1
    · intro S hS k
      have hlist : (c.process.closeSession number).registry = c.process.registry.destroy number := by
        rw [Process.closeSession, if_pos hopen]
      show (c.process.closeSession number).registry.added S.number k = _
      rw [hlist, added_destroy_of_ne (hmem hS).2]
      exact hc.lists S (hmem hS).1 k
    · intro S hS o ho hnotfailed
      obtain ⟨x, -, rfl⟩ := List.mem_map.mp ho
      have hkept := Process.handle_closeSession hc.process (hmem hS).2 x.2
      have hhandle := hc.handles S (hmem hS).1 _ ho hnotfailed
      exact fun hzero => hhandle (hkept.symm.trans hzero)

end steps

/-- The state of a new process meets the invariant. -/
theorem invariant_start : start.Invariant where
  process := Process.invariant_start
  consistent := HandleManager.consistent_empty
  registered number := by simp [start, Process.start, HandleManager.empty, SSI_NULL_HANDLE]
  unique _ h := absurd h List.not_mem_nil
  lists _ h := absurd h List.not_mem_nil
  handles _ h := absurd h List.not_mem_nil

/-- Each event of the context manager keeps the invariant, a discovery that throws included. -/
theorem invariant_step {c : ContextManager} (hc : c.Invariant) (e : ContextEvent) :
    (c.step e).Invariant := by
  cases e with
  | openSession objects => exact invariant_openSession hc objects
  | discoveryThrows objects => exact invariant_discoveryThrows hc objects
  | closeSession session => exact invariant_closeSession hc session
  | call objects => exact invariant_call hc objects

/-- The invariant holds after all events. -/
theorem invariant_run (events : List ContextEvent) : (run events).Invariant := by
  induction events using List.reverseRecOn with
  | nil => exact invariant_start
  | append_singleton events e ih =>
      rw [run_append_singleton]
      exact invariant_step ih e

/-! ## Look-up -/

section lookup

variable {c : ContextManager} (hc : c.Invariant) {S : OpenSession}

include hc

/-- Every open session is found under its handle, and nothing else is found. -/
theorem getSession_eq_some_iff {session : Nat} : c.getSession session = some S ↔
    S ∈ c.process.sessions ∧ session ≠ 0 ∧ c.m_sessions.handle S.number = session := by
  unfold getSession
  rw [Option.bind_eq_some_iff]
  constructor
  · rintro ⟨number, hat, hfind⟩
    have hnumber : S.number = number := by simpa using List.find?_some hfind
    obtain ⟨h0, hhandle⟩ := hc.consistent.objectAt_iff.mp hat
    exact ⟨List.mem_of_find?_eq_some hfind, h0, hnumber ▸ hhandle⟩
  · rintro ⟨hS, h0, hhandle⟩
    refine ⟨S.number, hc.consistent.objectAt_iff.mpr ⟨h0, hhandle⟩, ?_⟩
    have hsome : (c.process.sessions.find? fun S' => S'.number = S.number).isSome :=
      List.find?_isSome.mpr ⟨S, hS, decide_eq_true rfl⟩
    obtain ⟨S', hfind⟩ := Option.isSome_iff_exists.mp hsome
    have hnumber : S'.number = S.number := by simpa using List.find?_some hfind
    rw [hfind, hc.unique S' (List.mem_of_find?_eq_some hfind) S hS hnumber]

/-- Two objects do not have one handle. -/
theorem getHandle_inj {o o' : ObjectId} (h0 : c.getHandle o ≠ 0)
    (h : c.getHandle o' = c.getHandle o) : o' = o := by
  have hat := hc.process.consistent.objectAt_iff.mpr ⟨h0, rfl⟩
  have hat' := hc.process.consistent.objectAt_iff.mpr ⟨h0, h⟩
  exact Option.some.inj (hat'.symm.trans hat)

omit hc in
/-- The object that is found under a handle has this handle. -/
theorem getHandle_of_find {number h : Nat} {k : ObjectKind} {o : ObjectId}
    (hfind : c.find number k h = some o) : c.getHandle o = h := by
  unfold find at hfind
  simpa using List.find?_some hfind

/-- What is found under the handle of an object is the object. -/
theorem find_getHandle {number : Nat} {k : ObjectKind} {o : ObjectId} (ho : o ∈ c.listOf number k)
    (h0 : c.getHandle o ≠ 0) : c.find number k (c.getHandle o) = some o := by
  have hsome : (c.find number k (c.getHandle o)).isSome :=
    List.find?_isSome.mpr ⟨o, ho, decide_eq_true rfl⟩
  obtain ⟨o', hfind⟩ := Option.isSome_iff_exists.mp hsome
  rw [hfind, getHandle_inj hc h0 (getHandle_of_find hfind)]

omit hc in
/-- Every kind of object is searched. -/
theorem mem_searchOrder (k : ObjectKind) : k ∈ searchOrder := by
  cases k <;> decide

/-- The search through all lists finds it too. -/
theorem getObject_getHandle {number : Nat} {k : ObjectKind} {o : ObjectId}
    (ho : o ∈ c.listOf number k) (h0 : c.getHandle o ≠ 0) :
    c.getObject number (c.getHandle o) = some (.object o) := by
  have hsome : (searchOrder.findSome? fun k => c.find number k (c.getHandle o)).isSome := by
    refine List.findSome?_isSome_iff.mpr ⟨k, mem_searchOrder k, ?_⟩
    rw [find_getHandle hc ho h0]
    rfl
  obtain ⟨o', hfind⟩ := Option.isSome_iff_exists.mp hsome
  obtain ⟨k', -, hkind⟩ := List.exists_of_findSome?_eq_some hfind
  rw [getObject, if_neg (show c.getHandle o ≠ SSI_NULL_HANDLE from h0), hfind,
    getHandle_inj hc h0 (getHandle_of_find hkind)]
  rfl

end lookup

/-! ## The listing -/

/-- The handles that a session lists of a kind. -/
def handlesOf (c : ContextManager) (number : Nat) (k : ObjectKind) : List Nat :=
  (c.listOf number k).map c.getHandle

/-- No insertion into the handle manager has failed when the session was opened. -/
def Inserted (c : ContextManager) (S : OpenSession) : Prop :=
  ∀ o ∈ Process.ids S.number S.objects, o ∉ c.failed

instance (c : ContextManager) (S : OpenSession) : Decidable (c.Inserted S) :=
  inferInstanceAs (Decidable (∀ o ∈ Process.ids S.number S.objects, o ∉ c.failed))

end ContextManager

/-- A listing over the session as scope, with a buffer unless the capacity is 0. It reports the number
of the objects; it writes their handles in the order of the list where there is room for all, and
nothing elsewhere. The handles are those of the objects, each its own. -/
structure HandleListing (items : ObjectKind → ObjectId → SSI_ScopeType → Option (List ObjectId))
    (c : ContextManager) (session : Nat) (S : OpenSession) (k : ObjectKind) : Prop where
  objects : c.listOf S.number k = S.idsOf k
  listing : ∀ (pBuffer : Option HandleSlots) (capacity : UInt32), (pBuffer = none → capacity = 0) →
    let handles := c.handlesOf S.number k
    SsiGetHandles items c k session .none SSI_NULL_HANDLE pBuffer (some capacity) =
      if capacity.toNat < handles.length then
        (.bufferTooSmall, pBuffer, some (UInt32.ofNat handles.length))
      else
        (.ok, pBuffer.map fun slots i => (handles[i]?).getD (slots i),
          some (UInt32.ofNat handles.length))
  counted : c.Inserted S →
    (UInt32.ofNat (c.handlesOf S.number k).length).toNat = (S.idsOf k).length
  nonNull : c.Inserted S → ∀ h ∈ c.handlesOf S.number k, h ≠ SSI_NULL_HANDLE
  distinct : c.Inserted S → (c.handlesOf S.number k).Nodup
  lookup : c.Inserted S → ∀ (i : Nat) (o : ObjectId), (S.idsOf k)[i]? = some o →
    ∃ h, (c.handlesOf S.number k)[i]? = some h ∧ c.find S.number k h = some o ∧
      c.getObject S.number h = some (.object o)

namespace ContextManager

section listing

variable {c : ContextManager} (hc : c.Invariant) {S : OpenSession} (hS : S ∈ c.process.sessions)
  (k : ObjectKind)

/-- The objects of a kind are some of the objects, in their order. -/
theorem idsOf_sublist : (S.idsOf k).Sublist (Process.ids S.number S.objects) :=
  (List.filter_sublist).map _

include hc hS

/-- The listed objects of a session that have all been inserted have real handles. -/
theorem getHandle_ne_zero (hinserted : c.Inserted S) {o : ObjectId}
    (ho : o ∈ c.listOf S.number k) : c.getHandle o ≠ 0 := by
  rw [hc.lists S hS] at ho
  have hmem := (idsOf_sublist k).subset ho
  exact hc.handles S hS o hmem (hinserted o hmem)

/-- The handles of one list are different from each other. -/
theorem nodup_handlesOf (hinserted : c.Inserted S) : (c.handlesOf S.number k).Nodup := by
  have hnodup : (c.listOf S.number k).Nodup := by
    rw [hc.lists S hS]
    exact Process.nodup_ids.sublist (idsOf_sublist k)
  refine List.Nodup.map_on (fun o _ o' ho' heq => ?_) hnodup
  exact getHandle_inj hc (getHandle_ne_zero hc hS k hinserted ho') heq

/-- There are not more objects than handles. -/
theorem length_handlesOf_le (hinserted : c.Inserted S) :
    (c.handlesOf S.number k).length ≤ handleMax := by
  have hsubset : c.handlesOf S.number k ⊆ List.range' 1 handleMax := by
    intro h hh
    obtain ⟨o, ho, rfl⟩ := List.mem_map.mp hh
    have hpos := getHandle_ne_zero hc hS k hinserted ho
    have hle := (hc.process.consistent.handle_le o).trans hc.process.consistent.greatest_le
    have hle' : c.getHandle o ≤ handleMax := hle
    rw [List.mem_range'_1]
    omega
  have hlength := ((nodup_handlesOf hc hS k hinserted).subperm hsubset).length_le
  rwa [List.length_range'] at hlength

/-- The listing of an open session, put together: each clause is a lemma above. -/
theorem handleListing (items : ObjectKind → ObjectId → SSI_ScopeType → Option (List ObjectId))
    {session : Nat} (hsession : c.getSession session = some S) :
    HandleListing items c session S k where
  objects := hc.lists S hS k
  listing pBuffer capacity hbuffer := by
    show (match c.getSession session with | none => _ | some S => _) = _
    rw [hsession]
    show getHandles (c.handlesOf S.number k) pBuffer (some capacity) = _
    have hpointer : ¬ (capacity ≠ 0 ∧ pBuffer.isNone = true) := by
      rintro ⟨h0, hnone⟩
      exact h0 (hbuffer (Option.isNone_iff_eq_none.mp hnone))
    rw [getHandles, if_neg hpointer]
    refine if_congr Iff.rfl rfl (Prod.ext rfl (Prod.ext ?_ rfl))
    refine congrArg (pBuffer.map ·) (funext fun slots => funext fun i => ?_)
    rw [writeHandles_eq, if_pos (Nat.zero_le i), Nat.sub_zero]
  counted hinserted := by
    have hle := length_handlesOf_le hc hS k hinserted
    have hlt : (c.handlesOf S.number k).length < 2 ^ 32 := Nat.lt_of_le_of_lt hle (by decide)
    rw [UInt32.toNat_ofNat_of_lt' hlt, handlesOf, List.length_map, hc.lists S hS]
  nonNull hinserted h hh := by
    obtain ⟨o, ho, rfl⟩ := List.mem_map.mp hh
    exact getHandle_ne_zero hc hS k hinserted ho
  distinct := nodup_handlesOf hc hS k
  lookup hinserted i o hi := by
    rw [← hc.lists S hS] at hi
    have ho := List.mem_of_getElem? hi
    have h0 := getHandle_ne_zero hc hS k hinserted ho
    refine ⟨c.getHandle o, ?_, find_getHandle hc ho h0, getObject_getHandle hc ho h0⟩
    rw [handlesOf, List.getElem?_map, hi]
    rfl

end listing

end ContextManager

section example_run

/-- A session with two ports is closed while another one with two disks is open. -/
def sampleListing : List ContextEvent :=
  let disk : SessionObject :=
    .hardware (.endDevice ⟨⟨.ahciDisk, .empty, .empty, 0, 0, .unknown, .normal, 1, []⟩, 0⟩)
  [.openSession [.hardware .port, .hardware .port],
    .openSession [disk, .hardware .phy, disk, .hardware .phy], .closeSession 1]

end example_run

end Irstessi
