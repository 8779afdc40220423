import Irstessi.Lib.History
import Irstessi.HandleManager
import Irstessi.Types

/-!
# Events and their semaphore sets

Clients register for events and wait for them on a semaphore set, which is found under a key that
all processes of the system share.

* `EventSystem`: the registered events, the set that each one refers to, the sets of the system, and
  what `semget` and `semctl` have done.
* `registerEvent`, `unregisterEvent`, `destroy`: the operations of `EventManager`, with the outcomes
  of `ftok` and `semget`; `EventAction`: these, and other processes' creating sets.
* `EventSystem.Usable`, `FailureKeeps`: what is asked of the states and of the registrations.
* **`eventsUsable_iff`**: a history is as asked iff no call of `ftok` fails in a registration while
  there is a set with number 0.

The state has the table of the registered events, the numbers of their semaphore sets and the sets of
the system, and a log of what has been created and removed. The invariant is in two parts: `Sound` is
about the table and the numbers, and holds whatever the system answers; `Usable` says that every
registered event has its set, and is kept by every action except a registration in which `ftok` fails
while there is a set of number 0. The run lemma is that of `Lib.History`: a history is good iff all of
its steps meet the condition.
-/

namespace Irstessi

/-- Source: `event_manager.h` -/
def MAX_EVENT_HANDLES : Nat := 1

/-- What is done to a semaphore set for an event. -/
inductive SemOperation
  /-- `semget` has returned the number of the set. -/
  | obtained (event id : Nat)
  /-- `semctl` has removed the set with the number. -/
  | removed (event id : Nat)
  deriving DecidableEq, Repr

/-- Events are numbered as they are created. The sets are given by their numbers and keys, and the
operations are kept with the newest one first.
Source: `event_manager.h` `EventManager`, `event.h` `Event` -/
structure EventSystem where
  m_events : HandleManager Nat
  next : Nat
  m_semId : Nat → Int
  sets : List (Nat × Int)
  log : List SemOperation

namespace EventSystem

variable (st : EventSystem)

/-- No event; the sets are those of other processes. -/
def start (sets : List (Nat × Int)) : EventSystem := ⟨.empty, 0, fun _ => 0, sets, []⟩

/-- There is a set with the number. -/
def Exists (id : Nat) : Prop := ∃ set ∈ st.sets, set.1 = id

instance (id : Nat) : Decidable (st.Exists id) :=
  inferInstanceAs (Decidable (∃ set ∈ st.sets, set.1 = id))

/-- `semget` with `IPC_CREAT`. The key's set is found; where there is none the system chooses the
number of a new one, or fails. -/
def semget (key : Int) (outcome : Option Nat) : Option (Nat × List (Nat × Int)) :=
  match outcome with
  | none => none
  | some id =>
      match st.sets.find? fun set => set.2 = key with
      | some set => some (set.1, st.sets)
      | none => if st.Exists id then none else some (id, st.sets ++ [(id, key)])

/-- Source: `event.cpp` `Event::Event` -/
def newEvent : EventSystem :=
  { st with next := st.next + 1, m_semId := Function.update st.m_semId st.next 0 }

/-- `semctl` with `IPC_RMID` fails where there is no such set.
Source: `event.cpp` `Event::~Event` -/
def deleteEvent (event : Nat) : EventSystem :=
  let id := (st.m_semId event).toNat
  if 0 ≤ st.m_semId event ∧ st.Exists id then
    { st with
      sets := st.sets.filter fun set => set.1 ≠ id
      log := .removed event id :: st.log }
  else st

/-- The key is -1 where `ftok` has failed.
Source: `event.cpp` `Event::registerEvent` -/
def acquire (event : Nat) (key : Int) (outcome : Option Nat) : EventSystem × Bool :=
  if key = -1 then (st, false)
  else match st.semget key outcome with
    | none => ({ st with m_semId := Function.update st.m_semId event (-1) }, false)
    | some (id, sets) =>
        ({ st with
            m_semId := Function.update st.m_semId event id
            sets := sets
            log := .obtained event id :: st.log }, true)

/-- The event that is removed is deleted with the last pointer to it.
Source: `event_manager.cpp` `EventManager::unregisterEvent` -/
def unregisterEvent (handle : Nat) : EventSystem × SSI_Status :=
  if handle = SSI_NULL_HANDLE then (st, .invalidParameter)
  else
    let ret := st.m_events.remove handle
    match ret.2 with
    | none => ({ st with m_events := ret.1 }, .invalidHandle)
    | some event => (({ st with m_events := ret.1 }).deleteEvent event, .ok)

/-- An event that the handle manager does not take is deleted on return.
Source: `event_manager.cpp` `EventManager::registerEvent` -/
def registerEvent (key : Int) (outcome : Option Nat) : EventSystem × Nat :=
  if st.m_events.m_objects.length = MAX_EVENT_HANDLES then (st, SSI_NULL_HANDLE)
  else
    let event := st.next
    let created := st.newEvent
    let ret := created.m_events.insert event
    if !ret.2.2 then (created.deleteEvent event, SSI_NULL_HANDLE)
    else
      let (acquired, success) := { created with m_events := ret.1 }.acquire event key outcome
      let handle := acquired.m_events.handle event
      if success then (acquired, handle)
      else ((acquired.unregisterEvent handle).1, SSI_NULL_HANDLE)

/-- The loop unregisters the first event until there is none, `rounds` times at most.
Source: `event_manager.cpp` `EventManager::~EventManager` -/
def destroyRounds : Nat → EventSystem → EventSystem
  | 0, st => st
  | rounds + 1, st =>
      match st.m_events.m_objects with
      | [] => st
      | first :: _ => destroyRounds rounds (st.unregisterEvent first.1).1

/-- Every round removes one event. -/
def destroy : EventSystem := destroyRounds st.m_events.m_objects.length st

end EventSystem

/-- What happens: a call, with the key that `ftok` returns and the outcome of `semget`; the end of
the library; a new set of another process. -/
inductive EventAction
  | registerEvent (key : Int) (outcome : Option Nat)
  | unregisterEvent (handle : Nat)
  | destroy
  | otherSet (id : Nat) (key : Int)
  deriving DecidableEq, Repr

namespace EventSystem

/-- The state after an action. -/
def act (st : EventSystem) : EventAction → EventSystem
  | .registerEvent key outcome => (st.registerEvent key outcome).1
  | .unregisterEvent handle => (st.unregisterEvent handle).1
  | .destroy => st.destroy
  | .otherSet id key =>
      if st.Exists id then st else { st with sets := st.sets ++ [(id, key)] }

/-- Every registered event has obtained its set, which is there and has not been removed since; every
set removed was obtained for the event that removed it; and there are not too many events. -/
structure Usable (st : EventSystem) : Prop where
  registered : ∀ x ∈ st.m_events.m_objects, ∃ (id : Nat) (newer older : List SemOperation),
    st.m_semId x.2 = id ∧ st.Exists id ∧ st.log = newer ++ .obtained x.2 id :: older ∧
      ∀ event, .removed event id ∉ newer
  own : ∀ event id newer older, st.log = newer ++ .removed event id :: older →
    .obtained event id ∈ older
  bounded : st.m_events.m_objects.length ≤ MAX_EVENT_HANDLES

end EventSystem

/-- A registration that fails leaves the registered events and the sets of the system. -/
def FailureKeeps (step : EventSystem × EventAction) : Prop :=
  match step with
  | (st, .registerEvent key outcome) =>
      (st.registerEvent key outcome).2 = SSI_NULL_HANDLE →
        (st.registerEvent key outcome).1.m_events.m_objects = st.m_events.m_objects ∧
          (st.registerEvent key outcome).1.sets = st.sets
  | _ => True

/-- A registration that gets to `ftok`, which fails, finds no set with number 0. -/
def NoStraySet (step : EventSystem × EventAction) : Prop :=
  match step with
  | (st, .registerEvent key _) =>
      st.m_events.m_objects.length ≠ MAX_EVENT_HANDLES → key = -1 → ¬ st.Exists 0
  | _ => True

/-! ## What the operations do -/

namespace EventSystem

variable {st : EventSystem}

/-- What holds of the registered events whatever becomes of the sets. -/
structure Sound (st : EventSystem) : Prop where
  consistent : st.m_events.Consistent
  fresh : ∀ event, st.next ≤ event → st.m_events.handle event = 0
  bounded : st.m_events.m_objects.length ≤ MAX_EVENT_HANDLES

/-- A new process has no events, and every number is free. -/
theorem sound_start (sets : List (Nat × Int)) : (start sets).Sound where
  consistent := HandleManager.consistent_empty
  fresh _ _ := rfl
  bounded := Nat.zero_le _

/-- The set whose number `semget` returns is there behind the call. -/
theorem semget_exists {key : Int} {outcome : Option Nat} {id : Nat} {sets : List (Nat × Int)}
    (h : st.semget key outcome = some (id, sets)) : ∃ set ∈ sets, set.1 = id := by
  unfold semget at h
  split at h
  next => simp at h
  next new =>
    split at h
    next set hset =>
      obtain ⟨rfl, rfl⟩ := Prod.mk.inj (Option.some.inj h)
      exact ⟨set, List.mem_of_find?_eq_some hset, rfl⟩
    next =>
      split at h
      next => simp at h
      next =>
        obtain ⟨rfl, rfl⟩ := Prod.mk.inj (Option.some.inj h)
        exact ⟨(_, key), List.mem_append_right _ (List.mem_singleton_self _), rfl⟩

/-- The destructor of an event leaves the table of the events. -/
@[simp] theorem m_events_deleteEvent (event : Nat) :
    (st.deleteEvent event).m_events = st.m_events := by
  unfold deleteEvent
  dsimp only
  split <;> rfl

/-- The destructor of an event uses up no number. -/
@[simp] theorem next_deleteEvent (event : Nat) : (st.deleteEvent event).next = st.next := by
  unfold deleteEvent
  dsimp only
  split <;> rfl

/-- An event without a set, or with one that is not there, is deleted without effect. -/
theorem deleteEvent_of_not_exists {event : Nat}
    (h : st.m_semId event < 0 ∨ ¬ st.Exists (st.m_semId event).toNat) :
    st.deleteEvent event = st := by
  unfold deleteEvent
  dsimp only
  rw [if_neg]
  rintro ⟨hpos, hexists⟩
  rcases h with h | h
  · omega
  · exact h hexists

/-- Deleting an event removes its set, also if other events or processes use it. -/
theorem deleteEvent_of_exists {event id : Nat} (hid : st.m_semId event = id) (h : st.Exists id) :
    st.deleteEvent event =
      { st with
        sets := st.sets.filter fun set => set.1 ≠ id
        log := .removed event id :: st.log } := by
  unfold deleteEvent
  rw [hid]
  dsimp only
  rw [Int.toNat_natCast, if_pos ⟨Int.natCast_nonneg id, h⟩]

/-- Below the limit there is no event. -/
theorem Sound.objects_eq_nil (hs : st.Sound)
    (h : st.m_events.m_objects.length ≠ MAX_EVENT_HANDLES) : st.m_events.m_objects = [] := by
  have hbounded := hs.bounded
  unfold MAX_EVENT_HANDLES at h hbounded
  exact List.length_eq_zero_iff.mp (by omega)

/-- The state in which a registration that has failed deletes its event. -/
def released (st : EventSystem) (semId : Int) : EventSystem where
  m_events := ⟨[], Function.update st.m_events.handle st.next 0⟩
  next := st.next + 1
  m_semId := Function.update st.m_semId st.next semId
  sets := st.sets
  log := st.log

/-- The state after a registration for which `semget` has succeeded. -/
def registered (st : EventSystem) (id : Nat) (sets : List (Nat × Int)) : EventSystem where
  m_events := ⟨[(1, st.next)], Function.update st.m_events.handle st.next 1⟩
  next := st.next + 1
  m_semId := Function.update st.m_semId st.next id
  sets := sets
  log := .obtained st.next id :: st.log

/-- A registration finds the limit reached, or fails in `ftok` or in `semget`, or succeeds. -/
theorem registerEvent_cases (hs : st.Sound) (key : Int) (outcome : Option Nat) :
    (st.m_events.m_objects.length = MAX_EVENT_HANDLES ∧
      st.registerEvent key outcome = (st, SSI_NULL_HANDLE)) ∨
    st.m_events.m_objects.length ≠ MAX_EVENT_HANDLES ∧
      ((key = -1 ∧ st.registerEvent key outcome =
          ((st.released 0).deleteEvent st.next, SSI_NULL_HANDLE)) ∨
        (key ≠ -1 ∧ st.registerEvent key outcome =
          ((st.released (-1)).deleteEvent st.next, SSI_NULL_HANDLE)) ∨
        (key ≠ -1 ∧ ∃ id sets, (∃ set ∈ sets, set.1 = id) ∧
          st.registerEvent key outcome = (st.registered id sets, 1))) := by
  by_cases hfull : st.m_events.m_objects.length = MAX_EVENT_HANDLES
  · exact .inl ⟨hfull, if_pos hfull⟩
  refine .inr ⟨hfull, ?_⟩
  have hnil := hs.objects_eq_nil hfull
  have hgreatest : st.m_events.greatest = 0 := by
    unfold HandleManager.greatest
    rw [hnil]
    rfl
  have hinsert : st.m_events.insert st.next =
      (⟨[(1, st.next)], Function.update st.m_events.handle st.next 1⟩, 1, true) := by
    rw [HandleManager.insert_of_fresh hs.consistent (hs.fresh _ le_rfl) (by rw [hgreatest]; decide),
      hgreatest, hnil]
    rfl
  -- what `unregisterEvent` finds under the handle of the event
  have hunregister : ∀ semId : Int,
      ((⟨⟨[(1, st.next)], Function.update st.m_events.handle st.next 1⟩, st.next + 1,
        Function.update st.m_semId st.next semId, st.sets, st.log⟩ : EventSystem).unregisterEvent 1).1 =
        (st.released semId).deleteEvent st.next := by
    intro semId
    have hremove : (⟨[(1, st.next)], Function.update st.m_events.handle st.next 1⟩ :
        HandleManager Nat).remove 1 =
        (⟨[], Function.update st.m_events.handle st.next 0⟩, some st.next) := by
      rw [HandleManager.remove_of_some (o := st.next) rfl, Function.update_idem]
      rfl
    unfold unregisterEvent
    dsimp only
    rw [hremove]
    rfl
  have hhandle : Function.update st.m_events.handle st.next 1 st.next = 1 := Function.update_self _ _ _
  unfold registerEvent acquire
  rw [if_neg hfull]
  have hcreated : st.newEvent.m_events = st.m_events := rfl
  dsimp only
  rw [hcreated, hinsert]
  by_cases hkey : key = -1
  · refine .inl ⟨hkey, ?_⟩
    simp only [if_pos hkey, hhandle, Bool.not_true, Bool.false_eq_true, if_false]
    exact congrArg (fun st' => (st', SSI_NULL_HANDLE)) (hunregister 0)
  · refine .inr ?_
    simp only [if_neg hkey, Bool.not_true, Bool.false_eq_true, if_false]
    rcases hsemget : st.semget key outcome with _ | ⟨id, sets⟩
    · refine .inl ⟨hkey, ?_⟩
      have hnone : ({ st.newEvent with
          m_events := ⟨[(1, st.next)], Function.update st.m_events.handle st.next 1⟩ } :
          EventSystem).semget key outcome = none := hsemget
      simp only [hnone, hhandle, Bool.false_eq_true, if_false]
      have hsemId : Function.update st.newEvent.m_semId st.next (-1) =
          Function.update st.m_semId st.next (-1) := Function.update_idem _ _ _
      rw [hsemId]
      exact congrArg (fun st' => (st', SSI_NULL_HANDLE)) (hunregister (-1))
    · refine .inr ⟨hkey, id, sets, semget_exists hsemget, ?_⟩
      have hsome : ({ st.newEvent with
          m_events := ⟨[(1, st.next)], Function.update st.m_events.handle st.next 1⟩ } :
          EventSystem).semget key outcome = some (id, sets) := hsemget
      simp only [hsome, hhandle, if_true]
      have hsemId : Function.update st.newEvent.m_semId st.next (id : Int) =
          Function.update st.m_semId st.next (id : Int) := Function.update_idem _ _ _
      rw [hsemId]
      rfl

/-- The event under the handle is removed from the map and deleted; there is no other one. -/
theorem unregisterEvent_cases (hs : st.Sound) (handle : Nat) :
    (st.unregisterEvent handle).1 = st ∨
      ∃ event, st.m_events.m_objects = [(handle, event)] ∧
        (st.m_events.remove handle).1.m_objects = [] ∧
        (st.unregisterEvent handle).1 =
          ({ st with m_events := (st.m_events.remove handle).1 } : EventSystem).deleteEvent event := by
  unfold unregisterEvent
  by_cases hnull : handle = SSI_NULL_HANDLE
  · exact .inl (by rw [if_pos hnull])
  rw [if_neg hnull]
  dsimp only
  rcases hat : st.m_events.objectAt handle with _ | event
  · rw [HandleManager.remove_of_none hat]
    exact .inl rfl
  · have hmem : (handle, event) ∈ st.m_events.m_objects :=
      hs.consistent.mem_iff.mpr (hs.consistent.objectAt_iff.mp hat)
    have hobjects : st.m_events.m_objects = [(handle, event)] := by
      have hlength : st.m_events.m_objects.length = 1 :=
        le_antisymm hs.bounded (List.length_pos_of_mem hmem)
      obtain ⟨x, hx⟩ := List.length_eq_one_iff.mp hlength
      rw [hx] at hmem ⊢
      rw [List.mem_singleton.mp hmem]
    have hremoved : (st.m_events.remove handle).1.m_objects = [] := by
      rw [HandleManager.remove_of_some hat]
      simp [hobjects]
    refine .inr ⟨event, hobjects, hremoved, ?_⟩
    rw [HandleManager.remove_of_some hat]

/-! ## Soundness -/

/-- Unregistering keeps the state sound. -/
theorem sound_unregisterEvent (hs : st.Sound) (handle : Nat) : (st.unregisterEvent handle).1.Sound := by
  rcases unregisterEvent_cases hs handle with h | ⟨event, -, hremoved, h⟩
  · rw [h]
    exact hs
  · rw [h]
    refine ⟨?_, fun other hother => ?_, ?_⟩
    · rw [m_events_deleteEvent]
      exact HandleManager.consistent_remove hs.consistent handle
    · rw [next_deleteEvent] at hother
      rw [m_events_deleteEvent]
      show (st.m_events.remove handle).1.handle other = 0
      rw [HandleManager.handle_remove hs.consistent, hs.fresh other hother, ite_self]
    · rw [m_events_deleteEvent]
      show (st.m_events.remove handle).1.m_objects.length ≤ _
      rw [hremoved]
      exact Nat.zero_le _

/-- Releasing the last event keeps the state sound. -/
theorem sound_released (hs : st.Sound) (hnil : st.m_events.m_objects = []) (semId : Int) :
    (st.released semId).Sound := by
  have hhandles : Function.update st.m_events.handle st.next 0 = st.m_events.handle := by
    rw [← hs.fresh st.next le_rfl, Function.update_eq_self]
  refine ⟨?_, fun event hevent => ?_, Nat.zero_le _⟩
  · show (⟨[], Function.update st.m_events.handle st.next 0⟩ : HandleManager Nat).Consistent
    rw [hhandles, ← hnil]
    exact hs.consistent
  · show Function.update st.m_events.handle st.next 0 event = 0
    rw [hhandles]
    exact hs.fresh event ((Nat.le_succ _).trans hevent)

/-- The first registration keeps the state sound. -/
theorem sound_registered (hs : st.Sound) (hnil : st.m_events.m_objects = []) (id : Nat)
    (sets : List (Nat × Int)) : (st.registered id sets).Sound := by
  have hgreatest : st.m_events.greatest = 0 := by
    unfold HandleManager.greatest
    rw [hnil]
    rfl
  have happend := HandleManager.consistent_append hs.consistent (hs.fresh st.next le_rfl)
    (by rw [hgreatest]; decide)
  rw [hnil, hgreatest] at happend
  refine ⟨happend, fun event hevent => ?_, le_rfl⟩
  have hlt : st.next < event := hevent
  show Function.update st.m_events.handle st.next 1 event = 0
  rw [Function.update_of_ne hlt.ne']
  exact hs.fresh event hlt.le

/-- Deleting an event keeps the state sound. -/
theorem sound_deleteEvent (hs : st.Sound) (event : Nat) : (st.deleteEvent event).Sound where
  consistent := by
    rw [m_events_deleteEvent]
    exact hs.consistent
  fresh other hother := by
    rw [next_deleteEvent] at hother
    rw [m_events_deleteEvent]
    exact hs.fresh other hother
  bounded := by
    rw [m_events_deleteEvent]
    exact hs.bounded

/-- Registering keeps the state sound, with and without a set. -/
theorem sound_registerEvent (hs : st.Sound) (key : Int) (outcome : Option Nat) :
    (st.registerEvent key outcome).1.Sound := by
  rcases registerEvent_cases hs key outcome with
    ⟨-, h⟩ | ⟨hroom, ⟨-, h⟩ | ⟨-, h⟩ | ⟨-, id, sets, -, h⟩⟩
  · rw [h]
    exact hs
  · rw [h]
    exact sound_deleteEvent (sound_released hs (hs.objects_eq_nil hroom) 0) _
  · rw [h]
    exact sound_deleteEvent (sound_released hs (hs.objects_eq_nil hroom) (-1)) _
  · rw [h]
    exact sound_registered hs (hs.objects_eq_nil hroom) id sets

/-- What unregistering keeps, the end of the library keeps. -/
theorem destroyRounds_induction {P : EventSystem → Prop}
    (hstep : ∀ st handle, P st → P (st.unregisterEvent handle).1) (hst : P st) (rounds : Nat) :
    P (destroyRounds rounds st) := by
  induction rounds generalizing st with
  | zero => exact hst
  | succ rounds ih =>
      rw [destroyRounds]
      split
      · exact hst
      · exact ih (hstep _ _ hst)

/-- Every action keeps the state sound. -/
theorem sound_act (hs : st.Sound) (action : EventAction) : (st.act action).Sound := by
  cases action with
  | registerEvent key outcome => exact sound_registerEvent hs key outcome
  | unregisterEvent handle => exact sound_unregisterEvent hs handle
  | destroy =>
      exact destroyRounds_induction (P := Sound) (fun st handle h => sound_unregisterEvent h handle) hs _
  | otherSet id key =>
      rw [act]
      split
      · exact hs
      · exact ⟨hs.consistent, hs.fresh, hs.bounded⟩

/-! ## Usable events -/

/-- Without an event, only what has been removed counts. -/
theorem usable_of_objects_eq_nil (hu : st.Usable) {st' : EventSystem} (hlog : st'.log = st.log)
    (hnil : st'.m_events.m_objects = []) : st'.Usable where
  registered x hx := by
    rw [hnil] at hx
    exact absurd hx List.not_mem_nil
  own := by
    rw [hlog]
    exact hu.own
  bounded := by
    rw [hnil]
    exact Nat.zero_le _

/-- A registration whose set is there keeps the events usable. -/
theorem usable_registered (hu : st.Usable) {id : Nat} {sets : List (Nat × Int)}
    (hexists : ∃ set ∈ sets, set.1 = id) : (st.registered id sets).Usable where
  registered x hx := by
    rw [List.mem_singleton.mp hx]
    exact ⟨id, [], st.log, Function.update_self _ _ _, hexists, rfl, fun event => List.not_mem_nil⟩
  own event id' newer older hlog := by
    rcases newer with _ | ⟨operation, newer⟩
    · cases hlog
    · exact hu.own event id' newer older (List.cons.inj hlog).2
  bounded := le_rfl

/-- Unregistering keeps the other events usable. -/
theorem usable_unregisterEvent (hs : st.Sound) (hu : st.Usable) (handle : Nat) :
    (st.unregisterEvent handle).1.Usable := by
  rcases unregisterEvent_cases hs handle with h | ⟨event, hobjects, hremoved, h⟩
  · rw [h]
    exact hu
  · obtain ⟨id, newer, older, hid, hexists, hlog, -⟩ :=
      hu.registered (handle, event) (by rw [hobjects]; exact List.mem_singleton_self _)
    have hdelete : ({ st with m_events := (st.m_events.remove handle).1 } : EventSystem).deleteEvent
        event = _ := deleteEvent_of_exists hid hexists
    rw [h, hdelete]
    refine ⟨fun x hx => ?_, fun event' id' newer' older' hlog' => ?_, ?_⟩
    · exact absurd (hremoved ▸ hx : x ∈ ([] : List (Nat × Nat))) List.not_mem_nil
    · rcases newer' with _ | ⟨operation, newer'⟩
      · -- the event that is deleted had obtained its set
        obtain ⟨hoperation, rfl⟩ := List.cons.inj hlog'
        obtain ⟨rfl, rfl⟩ := SemOperation.removed.inj hoperation
        show _ ∈ st.log
        rw [hlog]
        exact List.mem_append_right _ List.mem_cons_self
      · exact hu.own event' id' newer' older' (List.cons.inj hlog').2
    · show (st.m_events.remove handle).1.m_objects.length ≤ _
      rw [hremoved]
      exact Nat.zero_le _

/-- A registration that fails leaves everything, unless `ftok` fails and there is a set with number
0. -/
theorem registerEvent_failed (hs : st.Sound) {key : Int} {outcome : Option Nat}
    (hfailed : (st.registerEvent key outcome).2 = SSI_NULL_HANDLE)
    (hstray : NoStraySet (st, .registerEvent key outcome)) :
    (st.registerEvent key outcome).1.m_events.m_objects = st.m_events.m_objects ∧
      (st.registerEvent key outcome).1.sets = st.sets ∧
      (st.registerEvent key outcome).1.log = st.log := by
  rcases registerEvent_cases hs key outcome with
    ⟨-, h⟩ | ⟨hroom, ⟨hkey, h⟩ | ⟨-, h⟩ | ⟨-, id, sets, -, h⟩⟩
  · rw [h]
    exact ⟨rfl, rfl, rfl⟩
  · have hsemId : (st.released 0).m_semId st.next = 0 := Function.update_self _ _ _
    rw [h, deleteEvent_of_not_exists (.inr (by rw [hsemId]; exact hstray hroom hkey)),
      hs.objects_eq_nil hroom]
    exact ⟨rfl, rfl, rfl⟩
  · have hsemId : (st.released (-1)).m_semId st.next = -1 := Function.update_self _ _ _
    rw [h, deleteEvent_of_not_exists (.inl (by rw [hsemId]; decide)), hs.objects_eq_nil hroom]
    exact ⟨rfl, rfl, rfl⟩
  · rw [h] at hfailed
    exact absurd hfailed Nat.one_ne_zero

/-- Registering keeps the events usable where no set is left stray. -/
theorem usable_registerEvent (hs : st.Sound) (hu : st.Usable) {key : Int} {outcome : Option Nat}
    (hstray : NoStraySet (st, .registerEvent key outcome)) :
    (st.registerEvent key outcome).1.Usable := by
  by_cases hfailed : (st.registerEvent key outcome).2 = SSI_NULL_HANDLE
  · obtain ⟨hobjects, hsets, hlog⟩ := registerEvent_failed hs hfailed hstray
    rcases registerEvent_cases hs key outcome with ⟨-, h⟩ | ⟨hroom, -⟩
    · rw [h]
      exact hu
    · exact usable_of_objects_eq_nil hu hlog (hobjects.trans (hs.objects_eq_nil hroom))
  · rcases registerEvent_cases hs key outcome with
      ⟨-, h⟩ | ⟨-, ⟨-, h⟩ | ⟨-, h⟩ | ⟨-, id, sets, hexists, h⟩⟩
    · exact absurd (by rw [h]) hfailed
    · exact absurd (by rw [h]) hfailed
    · exact absurd (by rw [h]) hfailed
    · rw [h]
      exact usable_registered hu hexists

/-- A set of another program does not matter. -/
theorem usable_otherSet (hu : st.Usable) (id : Nat) (key : Int) :
    (st.act (.otherSet id key)).Usable := by
  rw [act]
  split
  · exact hu
  · refine ⟨fun x hx => ?_, hu.own, hu.bounded⟩
    obtain ⟨id', newer, older, hid, ⟨set, hset, hsetid⟩, hlog⟩ := hu.registered x hx
    exact ⟨id', newer, older, hid, ⟨set, List.mem_append_left _ hset, hsetid⟩, hlog⟩

/-- Every action keeps the events usable where no set is left stray. -/
theorem usable_act (hs : st.Sound) (hu : st.Usable) (action : EventAction)
    (hstray : NoStraySet (st, action)) : (st.act action).Usable := by
  cases action with
  | registerEvent key outcome => exact usable_registerEvent hs hu hstray
  | unregisterEvent handle => exact usable_unregisterEvent hs hu handle
  | destroy =>
      have hboth : (st.act .destroy).Sound ∧ (st.act .destroy).Usable :=
        destroyRounds_induction (P := fun st => st.Sound ∧ st.Usable)
          (fun st handle h => ⟨sound_unregisterEvent h.1 handle, usable_unregisterEvent h.1 h.2 handle⟩)
          ⟨hs, hu⟩ _
      exact hboth.2
  | otherSet id key => exact usable_otherSet hu id key

/-- A registration in which `ftok` fails removes set 0. -/
theorem not_failureKeeps (hs : st.Sound) {action : EventAction} (hstray : ¬ NoStraySet (st, action)) :
    ¬ FailureKeeps (st, action) := by
  cases action with
  | registerEvent key outcome =>
      simp only [NoStraySet, Classical.not_imp, not_not] at hstray
      obtain ⟨hroom, hkey, hexists⟩ := hstray
      intro hkeeps
      rcases registerEvent_cases hs key outcome with
        ⟨hfull, -⟩ | ⟨-, ⟨-, h⟩ | ⟨hother, -⟩ | ⟨hother, -⟩⟩
      · exact hroom hfull
      · have hsets := (hkeeps (by rw [h])).2
        have hsemId : (st.released 0).m_semId st.next = (0 : Nat) := Function.update_self _ _ _
        have hdelete := deleteEvent_of_exists hsemId hexists
        rw [h, hdelete] at hsets
        obtain ⟨set, hset, hzero⟩ := hexists
        have hleft : set ∈ st.sets.filter fun set => set.1 ≠ 0 := by
          rw [show st.sets.filter (fun set => set.1 ≠ 0) = st.sets from hsets]
          exact hset
        exact absurd hzero (by simpa using (List.mem_filter.mp hleft).2)
      · exact hother hkey
      · exact hother hkey
  | unregisterEvent handle => exact absurd trivial hstray
  | destroy => exact absurd trivial hstray
  | otherSet id key => exact absurd trivial hstray

/-- An action that fails leaves the events as they were. -/
theorem failureKeeps (hs : st.Sound) {action : EventAction} (hstray : NoStraySet (st, action)) :
    FailureKeeps (st, action) := by
  cases action with
  | registerEvent key outcome =>
      intro hfailed
      obtain ⟨hobjects, hsets, -⟩ := registerEvent_failed hs hfailed hstray
      exact ⟨hobjects, hsets⟩
  | unregisterEvent handle => trivial
  | destroy => trivial
  | otherSet id key => trivial

/-- At the start there is no event that would have to be usable. -/
theorem usable_start (sets : List (Nat × Int)) : (start sets).Usable where
  registered _ hx := absurd hx List.not_mem_nil
  own _ _ newer _ hlog := by
    rcases newer with _ | ⟨operation, newer⟩ <;> cases hlog
  bounded := Nat.zero_le _

end EventSystem

/-- For every history from any sets of other processes: all states are usable and failed registrations
leave everything iff no registration whose `ftok` fails finds a set with number 0. Here the numbers and
keys of the sets are what matters, and their values are left out; the sets of other processes are any,
and may come and go between the operations. -/
theorem eventsUsable_iff (sets : List (Nat × Int)) (actions : List EventAction) :
    ((∀ st ∈ History.states EventSystem.act (.start sets) actions, st.Usable) ∧
        ∀ step ∈ History.steps EventSystem.act (.start sets) actions, FailureKeeps step) ↔
      ∀ step ∈ History.steps EventSystem.act (.start sets) actions, NoStraySet step :=
  History.good_iff (I := EventSystem.Sound) (fun _ action hs => EventSystem.sound_act hs action)
    (fun _ action hs hu hstray =>
      ⟨EventSystem.usable_act hs hu action hstray, EventSystem.failureKeeps hs hstray⟩)
    (fun _ _ hs _ hstray _ => EventSystem.not_failureKeeps hs hstray)
    (EventSystem.sound_start sets) (EventSystem.usable_start sets)

/-- `ftok` fails, and the set with number 0, which another process has made, is removed. -/
theorem not_eventsUsable_zero :
    ¬ ((∀ st ∈ History.states EventSystem.act (.start [(0, 7)]) [.registerEvent (-1) none],
          st.Usable) ∧
        ∀ step ∈ History.steps EventSystem.act (.start [(0, 7)]) [.registerEvent (-1) none],
          FailureKeeps step) := by
  rintro ⟨-, hkeeps⟩
  have hsame := (hkeeps _ List.mem_cons_self rfl).2
  exact absurd hsame (by decide)

end Irstessi
