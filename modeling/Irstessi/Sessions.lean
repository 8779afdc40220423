import Irstessi.Attach
import Irstessi.Registry
import Mathlib.Data.List.Find

/-!
# Sessions and the handles of their objects

Every session discovers the devices anew and registers its objects, in the order of discovery, with
the handle manager that all sessions share. A function that changes something opens a session of its
own for the time of the call and looks up the handles that it is given in it.

* `SessionObject`, `discoverSession`: the objects of a session in the order of their registration.
* `Process`, `SessionEvent`, `Process.step`: opening and closing sessions, and calls.
* `Process.resolve`: the object that a call takes a handle for; `resolve_eq_some_iff`, `resolve_zero`.
* `Process.handle_of_mem_sessions`: the handles that a session lists follow the greatest key at its
  opening; `Process.resolve_handle`: a call finds nothing under them.

An object of a session is named by the session and its place in the order of registration, so that
different sessions have different objects for one device. Registering a row of objects gives the handles
that follow the greatest key, up to the greatest handle, where the null handle comes. The invariant says
that the handle manager and the lists of the sessions agree, and that numbers to come are unused; it is
kept by every event. A call registers the objects of its own session behind those of the open ones and
removes them at its end, hence it changes no handle, and the keys that it looks up are its own.
-/

namespace Irstessi

/-! ## The objects of a session -/

/-- An object that a session has registered. -/
inductive SessionObject
  | hardware (o : HardwareObject)
  | array (dir : MdDir)
  | volume (dir : MdDir)
  deriving DecidableEq, Repr

/-- The list of the session that the object is in. -/
def SessionObject.kind : SessionObject → ObjectKind
  | hardware (.controller _) => .controller
  | hardware (.endDevice _) => .endDevice
  | hardware .phy => .phy
  | hardware .port => .port
  | hardware .routingDevice => .routingDevice
  | hardware .enclosure => .enclosure
  | hardware .raidInfo => .raidInfo
  | array _ => .array
  | volume _ => .volume

/-- Two objects describe the same device; defined for end devices, arrays and volumes.
Source: `end_device.cpp` `EndDevice::operator ==`, `raid_device.cpp` `RaidDevice::operator ==` -/
def SessionObject.same : SessionObject → SessionObject → Bool
  | hardware (.endDevice d), hardware (.endDevice d') => d.found.equal d'.found
  | array dir, array dir' => dir'.uuid.equal dir.uuid
  | volume dir, volume dir' => dir'.uuid.equal dir.uuid
  | _, _ => false

/-- The array or volume that is listed. -/
def mdObject (containers : List (Option MdArray)) : MdRef → Option SessionObject
  | .array i => (containers[i]?.join).map fun a => .array a.dir
  | .volume v => (containers[v.array]?.join).bind fun a => (a.volumes[v.index]?).map fun v => .volume v.dir

/-- The objects of a session in the order of their registration.
Source: `session.cpp` `Session::initialize` -/
def discoverSession (tree : DeviceTree) (dirs : List MdDir) : List SessionObject :=
  tree.hardware.map .hardware ++
    (Session.initialized tree.endDevices dirs).listed.filterMap (mdObject (imsmArrays dirs))

/-! ## The process -/

/-- An object by its session and its place among the session's objects. -/
abbrev ObjectId : Type := Nat × Nat

/-- A session that is open, by its number in the order of opening. -/
structure OpenSession where
  number : Nat
  objects : List SessionObject
  deriving DecidableEq, Repr

/-- The handle manager and the sessions of a process.
Source: `context_manager.h` `ContextManager`, `session_manager.h` `SessionManager` -/
structure Process where
  registry : RegistryState ObjectId Nat
  sessions : List OpenSession
  next : Nat

namespace Process

/-- No session has been opened. -/
def start : Process := ⟨.start, [], 0⟩

/-- Registration of the objects of the session with the given number.
Source: `session.cpp` `Session::initialize`, the calls of `addToSession` -/
def register (registry : RegistryState ObjectId Nat) (number : Nat) (objects : List SessionObject) :
    RegistryState ObjectId Nat :=
  objects.zipIdx.foldl (fun registry x => registry.add number x.1.kind (number, x.2)) registry

/-- Source: `session_manager.cpp` `SessionManager::openSession` -/
def openSession (w : Process) (objects : List SessionObject) : Process where
  registry := register w.registry w.next objects
  sessions := w.sessions ++ [⟨w.next, objects⟩]
  next := w.next + 1

/-- Source: `session_manager.cpp` `SessionManager::closeSession` -/
def closeSession (w : Process) (number : Nat) : Process :=
  if w.sessions.any (fun s => s.number = number) then
    { w with registry := w.registry.destroy number
             sessions := w.sessions.filter fun s => s.number ≠ number }
  else w

/-- A call opens a session of its own, and closes it when it returns.
Source: `src/session.cpp` `getTempSession` -/
def call (w : Process) (objects : List SessionObject) : Process :=
  { w with registry := (register w.registry w.next objects).destroy w.next
           next := w.next + 1 }

/-- The handle of an object of a session. -/
def handle (w : Process) (number j : Nat) : Nat := w.registry.manager.handle (number, j)

/-- What a call finds under a handle in the list of the given kind of its session.
Source: `container.h` `Container::find`, `session.cpp` `Session::getEndDevice`, `getArray`,
`getVolume` -/
def resolve (w : Process) (objects : List SessionObject) (k : ObjectKind) (h : Nat) :
    Option SessionObject :=
  let handleOf := (w.openSession objects).handle w.next
  ((objects.zipIdx.filter fun x => x.1.kind = k).find? fun x => handleOf x.2 = h).map Prod.fst

end Process

/-- What happens in a process. The objects are those that are discovered at the time. -/
inductive SessionEvent
  | openSession (objects : List SessionObject)
  | closeSession (number : Nat)
  | call (objects : List SessionObject)
  deriving DecidableEq, Repr

namespace Process

def step (w : Process) : SessionEvent → Process
  | .openSession objects => w.openSession objects
  | .closeSession number => w.closeSession number
  | .call objects => w.call objects

/-- The process after some events. -/
def run (events : List SessionEvent) : Process := events.foldl step start

/-- The greatest key of the handle manager. -/
def greatest (w : Process) : Nat := w.registry.manager.greatest

/-- A run with one more event is the run and then this event. -/
@[simp] theorem run_append_singleton (events : List SessionEvent) (e : SessionEvent) :
    run (events ++ [e]) = (run events).step e := by
  simp [run]

/-! ## Registration -/

section register

variable {registry : RegistryState ObjectId Nat} {number : Nat} {objects : List SessionObject}

/-- The objects of a session. -/
def ids (number : Nat) (objects : List SessionObject) : List ObjectId :=
  objects.zipIdx.map fun x => (number, x.2)

/-- The objects of a session have different numbers. -/
theorem nodup_ids : (ids number objects).Nodup := by
  have hmap : ids number objects = (List.range objects.length).map fun j => (number, j) := by
    rw [ids, List.range_eq_range', ← List.zipIdx_map_snd 0 objects, List.map_map]
    rfl
  rw [hmap]
  refine List.Nodup.map (fun _ _ heq => (Prod.mk.inj heq).2) List.nodup_range

/-- The object at a position is numbered with it. -/
theorem getElem?_ids (j : Nat) :
    (ids number objects)[j]? = (objects[j]?).map fun _ => (number, j) := by
  unfold ids
  rw [List.getElem?_map, List.getElem?_zipIdx, Option.map_map, Nat.zero_add]
  rfl

/-- Registering a session's objects inserts them one after the other. -/
theorem manager_register :
    (register registry number objects).manager = registry.manager.addAll (ids number objects) := by
  unfold register ids HandleManager.addAll
  rw [List.foldl_map]
  generalize objects.zipIdx = l
  induction l generalizing registry with
  | nil => rfl
  | cons x l ih => exact ih

/-- What a session has added behind the registration is what it had and its objects. -/
theorem mem_addedBy_register {s : Nat} {o : ObjectId} :
    o ∈ (register registry number objects).addedBy s ↔
      o ∈ registry.addedBy s ∨ (s = number ∧ o ∈ ids number objects) := by
  unfold register ids
  generalize objects.zipIdx = l
  induction l generalizing registry with
  | nil => simp
  | cons x l ih =>
      rw [List.foldl_cons, ih, RegistryState.mem_addedBy_add, or_assoc, List.map_cons, List.mem_cons]
      apply or_congr_right
      rw [← and_or_left]

end register

/-! ## The invariant of a process -/

/-- Map and objects agree, sessions have added their own objects, and the numbers of later sessions
are not in use. -/
structure Invariant (w : Process) : Prop where
  consistent : w.registry.manager.Consistent
  own : ∀ s, ∀ o ∈ w.registry.addedBy s, o.1 = s
  fresh : ∀ s ≥ w.next, ∀ j, w.handle s j = 0
  used : ∀ S ∈ w.sessions, S.number < w.next
  unused : ∀ s ≥ w.next, w.registry.addedBy s = []

section invariant

variable {w : Process} (hw : w.Invariant) (objects : List SessionObject)

include hw

/-- The objects of a session that is opened are numbered from behind the greatest key. -/
theorem handle_register {j : Nat} (hj : j < objects.length) :
    (register w.registry w.next objects).manager.handle (w.next, j) =
      HandleManager.handleAt w.greatest j := by
  rw [manager_register]
  refine HandleManager.handle_addAll hw.consistent nodup_ids ?_ ?_
  · intro o ho
    obtain ⟨x, -, rfl⟩ := List.mem_map.mp ho
    exact hw.fresh w.next (Nat.le_refl _) x.2
  · rw [getElem?_ids, List.getElem?_eq_getElem hj]
    rfl

/-- The registration of a session's objects changes no handle of another session. -/
theorem handle_register_of_ne {s j : Nat} (hs : s ≠ w.next) :
    (register w.registry w.next objects).manager.handle (s, j) = w.handle s j := by
  rw [manager_register]
  apply HandleManager.handle_addAll_of_notMem hw.consistent
  intro hmem
  obtain ⟨x, -, heq⟩ := List.mem_map.mp hmem
  exact hs (Prod.mk.inj heq).1.symm

/-- The registration keeps keys and handles consistent. -/
theorem consistent_register : (register w.registry w.next objects).manager.Consistent := by
  rw [manager_register]
  exact HandleManager.consistent_addAll hw.consistent _

/-- Behind the registration every session has still added its own objects only. -/
theorem own_register (s : Nat) :
    ∀ o ∈ (register w.registry w.next objects).addedBy s, o.1 = s := by
  intro o ho
  rcases mem_addedBy_register.mp ho with hold | ⟨rfl, hnew⟩
  · exact hw.own s o hold
  · obtain ⟨x, -, rfl⟩ := List.mem_map.mp hnew
    rfl

/-- Sessions that have not been opened yet have added nothing. -/
theorem unused_register {s : Nat} (hs : s > w.next) :
    (register w.registry w.next objects).addedBy s = [] := by
  apply List.eq_nil_iff_forall_not_mem.mpr
  intro o ho
  rcases mem_addedBy_register.mp ho with ho | ⟨rfl, -⟩
  · rw [hw.unused s (Nat.le_of_lt hs)] at ho
    simp at ho
  · exact absurd hs (Nat.lt_irrefl _)

/-- Opening a session keeps the invariant. -/
theorem invariant_openSession : (w.openSession objects).Invariant where
  consistent := consistent_register hw objects
  own := own_register hw objects
  fresh s hs j := by
    have hne : s ≠ w.next := Nat.ne_of_gt hs
    exact (handle_register_of_ne hw objects hne).trans (hw.fresh s (Nat.le_of_lt hs) j)
  used S hS := by
    rcases List.mem_append.mp hS with hS | hS
    · exact Nat.lt_succ_of_lt (hw.used S hS)
    · rw [List.mem_singleton.mp hS]
      exact Nat.lt_succ_self _
  unused s hs := unused_register hw objects hs

/-- Closing a session keeps the invariant, also where there is no such session. -/
theorem invariant_closeSession (number : Nat) : (w.closeSession number).Invariant := by
  unfold closeSession
  split
  next =>
    refine ⟨HandleManager.consistent_removeAll hw.consistent _, ?_, ?_, ?_, ?_⟩
    · intro s o ho
      rw [RegistryState.addedBy_destroy] at ho
      split at ho
      next => simp at ho
      next => exact hw.own s o ho
    · intro s hs j
      refine (HandleManager.handle_removeAll hw.consistent _ _).trans ?_
      split
      next => rfl
      next => exact hw.fresh s hs j
    · exact fun S hS => hw.used S (List.mem_of_mem_filter hS)
    · intro s hs
      rw [RegistryState.addedBy_destroy]
      split
      next => rfl
      next => exact hw.unused s hs
  next => exact hw

/-- The handles of the other sessions after a call. -/
theorem handle_call (s j : Nat) : (w.call objects).handle s j = w.handle s j := by
  have hconsistent := consistent_register hw objects
  refine (HandleManager.handle_removeAll hconsistent _ (s, j)).trans ?_
  by_cases hs : s = w.next
  · subst hs
    rw [hw.fresh w.next (Nat.le_refl _) j]
    split
    next => rfl
    next hnot =>
      rw [manager_register, HandleManager.handle_addAll_of_notMem hw.consistent]
      · exact hw.fresh w.next (Nat.le_refl _) j
      · exact fun hmem => hnot (mem_addedBy_register.mpr (.inr ⟨rfl, hmem⟩))
  · rw [if_neg, handle_register_of_ne hw objects hs]
    intro hmem
    exact hs (own_register hw objects _ _ hmem)

/-- A call with a session of its own keeps the invariant. -/
theorem invariant_call : (w.call objects).Invariant where
  consistent := HandleManager.consistent_removeAll (consistent_register hw objects) _
  own s o ho := by
    have ho' : o ∈ ((register w.registry w.next objects).destroy w.next).addedBy s := ho
    rw [RegistryState.addedBy_destroy] at ho'
    split at ho'
    next => simp at ho'
    next => exact own_register hw objects s o ho'
  fresh s hs j := by
    rw [handle_call hw]
    exact hw.fresh s (Nat.le_of_lt hs) j
  used S hS := Nat.lt_succ_of_lt (hw.used S hS)
  unused s hs := by
    show ((register w.registry w.next objects).destroy w.next).addedBy s = []
    rw [RegistryState.addedBy_destroy]
    split
    next => rfl
    next => exact unused_register hw objects hs

/-- A call leaves the greatest key as it is. -/
theorem greatest_call : (w.call objects).greatest = w.greatest := by
  have hafter := (invariant_call hw objects).consistent
  have hhandle : ∀ o : ObjectId, (w.call objects).registry.manager.handle o =
      w.registry.manager.handle o := fun o => handle_call hw objects o.1 o.2
  exact le_antisymm (hafter.greatest_le_of_handle hw.consistent hhandle)
    (hw.consistent.greatest_le_of_handle hafter fun o => (hhandle o).symm)

omit hw in
/-- A session that is closed at once leaves what a call leaves. -/
theorem registry_closeSession_openSession :
    ((w.openSession objects).closeSession w.next).registry = (w.call objects).registry := by
  have hany : (w.openSession objects).sessions.any (fun s => s.number = w.next) :=
    List.any_eq_true.mpr ⟨⟨w.next, objects⟩, List.mem_append_right _ (List.mem_singleton_self _),
      decide_eq_true rfl⟩
  rw [closeSession, if_pos hany]
  rfl

end invariant

/-- The state of a new process meets the invariant. -/
theorem invariant_start : start.Invariant where
  consistent := HandleManager.consistent_empty
  own _ _ h := absurd h List.not_mem_nil
  fresh _ _ _ := rfl
  used _ h := absurd h List.not_mem_nil
  unused _ _ := rfl

/-- One event keeps the invariant: opening, closing and calling. -/
theorem invariant_step {w : Process} (hw : w.Invariant) (e : SessionEvent) : (w.step e).Invariant := by
  cases e with
  | openSession objects => exact invariant_openSession hw objects
  | closeSession number => exact invariant_closeSession hw number
  | call objects => exact invariant_call hw objects

/-- The invariant holds after all events. -/
theorem invariant_run (events : List SessionEvent) : (run events).Invariant := by
  induction events using List.reverseRecOn with
  | nil => exact invariant_start
  | append_singleton events e ih =>
      rw [run_append_singleton]
      exact invariant_step ih e

/-! ## Resolution -/

/-- An object gets the null handle iff no key is left for its position. -/
theorem handleAt_eq_zero_iff {b j : Nat} : HandleManager.handleAt b j = 0 ↔ handleMax ≤ b + j := by
  unfold HandleManager.handleAt SSI_NULL_HANDLE
  split <;> omega

/-- A handle other than the null handle belongs to one position only, counted from the greatest key. -/
theorem handleAt_eq_iff {b j h : Nat} (h0 : h ≠ 0) :
    HandleManager.handleAt b j = h ↔ b + 1 + j = h ∧ h ≤ handleMax := by
  unfold HandleManager.handleAt SSI_NULL_HANDLE
  split <;> omega

/-- Handles but the null handle are given once. -/
theorem handleAt_inj {b i j : Nat} (h0 : HandleManager.handleAt b i ≠ 0)
    (heq : HandleManager.handleAt b i = HandleManager.handleAt b j) : i = j := by
  have hi := ((handleAt_eq_iff h0).mp rfl).1
  have hj := ((handleAt_eq_iff h0).mp heq.symm).1
  omega

/-- The object that a call takes a handle for is the first of its kind that the handle falls to. -/
theorem resolve_eq {w : Process} (hw : w.Invariant) (objects : List SessionObject) (k : ObjectKind)
    (h : Nat) : w.resolve objects k h =
      (objects.zipIdx.find? fun x =>
        x.1.kind = k ∧ HandleManager.handleAt w.greatest x.2 = h).map Prod.fst := by
  show Option.map Prod.fst (List.find? _ (List.filter _ _)) = _
  rw [List.find?_filter]
  refine congrArg (Option.map Prod.fst) (List.find?_congr fun x hx => ?_)
  have hlt : x.2 < objects.length := by
    have hj := (List.mem_zipIdx hx).2.1
    omega
  have hhandle : (w.openSession objects).handle w.next x.2 = HandleManager.handleAt w.greatest x.2 :=
    handle_register hw objects hlt
  simp [hhandle]

/-- A handle other than the null handle is taken for the object that it has been given to. -/
theorem resolve_eq_some_iff {w : Process} (hw : w.Invariant) {objects : List SessionObject}
    {k : ObjectKind} {h : Nat} (h0 : h ≠ 0) {o : SessionObject} :
    w.resolve objects k h = some o ↔
      ∃ q, objects[q]? = some o ∧ o.kind = k ∧ HandleManager.handleAt w.greatest q = h := by
  rw [resolve_eq hw]
  constructor
  · intro hfind
    obtain ⟨⟨o', q⟩, hsome, rfl⟩ := Option.map_eq_some_iff.mp hfind
    have hmem := List.mem_of_find?_eq_some hsome
    have hspec := List.find?_some hsome
    simp only [decide_eq_true_eq] at hspec
    exact ⟨q, List.mk_mem_zipIdx_iff_getElem?.mp hmem, hspec⟩
  · rintro ⟨q, hq, hkind, hhandle⟩
    have hmem : (o, q) ∈ objects.zipIdx := List.mk_mem_zipIdx_iff_getElem?.mpr hq
    have hsome : (objects.zipIdx.find? fun x =>
        x.1.kind = k ∧ HandleManager.handleAt w.greatest x.2 = h).isSome :=
      List.find?_isSome.mpr ⟨(o, q), hmem, decide_eq_true ⟨hkind, hhandle⟩⟩
    obtain ⟨⟨o', q'⟩, hfind⟩ := Option.isSome_iff_exists.mp hsome
    have hspec := List.find?_some hfind
    simp only [decide_eq_true_eq] at hspec
    have hqq : q' = q := handleAt_inj (by rw [hspec.2]; exact h0) (by rw [hspec.2, hhandle])
    subst hqq
    have ho' := List.mk_mem_zipIdx_iff_getElem?.mp (List.mem_of_find?_eq_some hfind)
    rw [hfind]
    exact ho'.symm.trans hq

/-- The null handle is taken for the first object of the kind that no handle was left for. -/
theorem resolve_zero {w : Process} (hw : w.Invariant) (objects : List SessionObject)
    (k : ObjectKind) :
    w.resolve objects k 0 = (objects.drop (handleMax - w.greatest)).find? fun o => o.kind = k := by
  have hloop : ∀ n, ((objects.zipIdx n).find? fun x =>
      x.1.kind = k ∧ HandleManager.handleAt w.greatest x.2 = 0).map Prod.fst =
        (objects.drop (handleMax - w.greatest - n)).find? fun o => o.kind = k := by
    induction objects with
    | nil => intro n; simp
    | cons o objects ih =>
        intro n
        rw [List.zipIdx_cons, List.find?_cons]
        by_cases hroom : handleMax ≤ w.greatest + n
        · have hdrop : handleMax - w.greatest - n = 0 := by omega
          have hnext : handleMax - w.greatest - (n + 1) = 0 := by omega
          have hrest := ih (n + 1)
          rw [hnext, List.drop_zero] at hrest
          rw [hdrop, List.drop_zero, List.find?_cons]
          by_cases hkind : o.kind = k
          · simp [hkind, handleAt_eq_zero_iff, hroom]
          · simp only [hkind, false_and, decide_false]
            exact hrest
        · have hdrop : handleMax - w.greatest - n = handleMax - w.greatest - (n + 1) + 1 := by omega
          rw [hdrop, List.drop_succ_cons]
          simp only [handleAt_eq_zero_iff, hroom, and_false, decide_false]
          rw [← ih (n + 1)]
          simp only [handleAt_eq_zero_iff]
  rw [resolve_eq hw]
  exact hloop 0

/-! ## Sessions of a run -/

/-- Closing a session changes no handle of another one. -/
theorem handle_closeSession {w : Process} (hw : w.Invariant) {number s : Nat} (hs : s ≠ number)
    (j : Nat) : (w.closeSession number).handle s j = w.handle s j := by
  unfold closeSession
  split
  next =>
    refine (HandleManager.handle_removeAll hw.consistent _ (s, j)).trans (if_neg ?_)
    exact fun hmem => hs (hw.own number _ hmem)
  next => rfl

/-- An event keeps the handles of the sessions that stay open. -/
theorem handle_step {w : Process} (hw : w.Invariant) (e : SessionEvent) {S : OpenSession}
    (hbefore : S ∈ w.sessions) (hafter : S ∈ (w.step e).sessions) (j : Nat) :
    (w.step e).handle S.number j = w.handle S.number j := by
  cases e with
  | openSession objects =>
      exact handle_register_of_ne hw objects (Nat.ne_of_lt (hw.used S hbefore))
  | call objects => exact handle_call hw objects S.number j
  | closeSession number =>
      by_cases hnumber : S.number = number
      · have hany : w.sessions.any (fun s => s.number = number) :=
          List.any_eq_true.mpr ⟨S, hbefore, decide_eq_true hnumber⟩
        have hafter' : S ∈ (w.closeSession number).sessions := hafter
        rw [closeSession, if_pos hany] at hafter'
        have hne := of_decide_eq_true (List.mem_filter.mp hafter').2
        exact absurd hnumber hne
      · exact handle_closeSession hw hnumber j

/-- A session that is open behind an event was open before or is the one that the event opens. -/
theorem mem_sessions_step {w : Process} {e : SessionEvent} {S : OpenSession}
    (hS : S ∈ (w.step e).sessions) :
    S ∈ w.sessions ∨ (e = .openSession S.objects ∧ S.number = w.next) := by
  cases e with
  | openSession objects =>
      rcases List.mem_append.mp hS with hS | hS
      · exact .inl hS
      · rw [List.mem_singleton.mp hS]
        exact .inr ⟨rfl, rfl⟩
  | call objects => exact .inl hS
  | closeSession number =>
      have hS' : S ∈ (w.closeSession number).sessions := hS
      unfold closeSession at hS'
      split at hS'
      next => exact .inl (List.mem_of_mem_filter hS')
      next => exact .inl hS'

/-- The handles that a session lists follow the greatest key at its opening. -/
theorem handle_of_mem_sessions (events : List SessionEvent) {S : OpenSession}
    (hS : S ∈ (run events).sessions) :
    ∃ earlier, earlier ++ [.openSession S.objects] <+: events ∧ ∀ j < S.objects.length,
      (run events).handle S.number j = HandleManager.handleAt (run earlier).greatest j := by
  induction events using List.reverseRecOn with
  | nil => cases hS
  | append_singleton events e ih =>
      rw [run_append_singleton] at hS ⊢
      have hw := invariant_run events
      rcases mem_sessions_step hS with hbefore | ⟨rfl, hnumber⟩
      · obtain ⟨earlier, hopening, hhandles⟩ := ih hbefore
        refine ⟨earlier, hopening.trans (List.prefix_append _ _), fun j hj => ?_⟩
        rw [handle_step hw e hbefore hS]
        exact hhandles j hj
      · refine ⟨events, List.prefix_rfl, fun j hj => ?_⟩
        rw [hnumber]
        exact handle_register hw S.objects hj

/-- A call finds nothing under the handle of an object of another session, but for the null
handle. -/
theorem resolve_handle {w : Process} (hw : w.Invariant) (objects : List SessionObject)
    (k : ObjectKind) {s j : Nat} (h0 : w.handle s j ≠ 0) :
    w.resolve objects k (w.handle s j) = none := by
  apply Option.eq_none_iff_forall_ne_some.mpr
  intro o ho
  obtain ⟨q, -, -, hq⟩ := (resolve_eq_some_iff hw h0).mp ho
  have hgreater := ((handleAt_eq_iff h0).mp hq).1
  have hle : w.handle s j ≤ w.greatest := hw.consistent.handle_le (s, j)
  omega

end Process

end Irstessi
