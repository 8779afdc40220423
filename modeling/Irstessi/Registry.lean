import Irstessi.HandleManager
import Mathlib.Data.Set.Insert

/-!
# Sessions over one handle manager

Sessions add the objects that they have created to the handle manager and to their lists, and remove
them when they are destroyed.

* `RegistryState`, `RegistryState.add`, `remove`, `destroy`: the operations of sessions.
* `RegistryRun`: runs, with the set of the objects that are registered and, for each session, the set of
  those that it has added.
* **`registryInvariant_of_run`**: in every state of a run keys and handles agree with that set.

A session has a list for each kind of object, which the destructor goes through. A run records beside
the state which objects are registered and which each session has added since it was begun. These are
sets, kept by the steps and not read off the lists, so that the invariant says of the lists what it
should: the destructor removes what the session has added, all of it and nothing else. That the lists
agree with the sets is an invariant of its own (`mem_addedBy_iff_of_run`), and so is that keys and
handles agree.
-/

namespace Irstessi

/-- The lists of a session, in the order in which its destructor goes through them.
Source: `session.cpp` `Session::~Session` -/
inductive ObjectKind
  | controller
  | array
  | enclosure
  | raidInfo
  | phy
  | port
  | volume
  | endDevice
  | routingDevice
  deriving DecidableEq, Repr

/-- The lists in the order of the destructor. -/
def ObjectKind.all : List ObjectKind :=
  [controller, array, enclosure, raidInfo, phy, port, volume, endDevice, routingDevice]

/-- Every kind of object is one of those that the destructor goes over. -/
theorem ObjectKind.mem_all (k : ObjectKind) : k ∈ ObjectKind.all := by
  cases k <;> decide

/-- The handle manager and the lists of the sessions.
Source: `context_manager.h` `ContextManager`, `session.h` `Session` -/
structure RegistryState (α ι : Type) where
  manager : HandleManager α
  added : ι → ObjectKind → List α

namespace RegistryState

variable {α ι : Type} [DecidableEq α] [DecidableEq ι]

/-- Before the first session. -/
def start : RegistryState α ι := ⟨.empty, fun _ _ => []⟩

/-- The objects of a session, in the order of its destructor. -/
def addedBy (st : RegistryState α ι) (s : ι) : List α := ObjectKind.all.flatMap (st.added s)

/-- Source: `session.cpp` `Session::addEndDevice`, `addArray`, `addRoutingDevice`, `addEnclosure`,
`addPhy`, `addVolume`, `addPort`, `addController`, `addRaidInfo` -/
def add (st : RegistryState α ι) (s : ι) (k : ObjectKind) (o : α) : RegistryState α ι where
  manager := (st.manager.insert o).1
  added := Function.update st.added s
    (Function.update (st.added s) k (st.added s k ++ [o]))

/-- Source: `context_manager.cpp` `ContextManager::remove` -/
def remove (st : RegistryState α ι) (h : Nat) : RegistryState α ι :=
  { st with manager := (st.manager.remove h).1 }

/-- Source: `session.cpp` `Session::~Session` -/
def destroy (st : RegistryState α ι) (s : ι) : RegistryState α ι where
  manager := st.manager.removeAll (st.addedBy s)
  added := Function.update st.added s fun _ => []

/-- What a session has added behind an addition is what it had and the object. -/
theorem mem_addedBy_add {st : RegistryState α ι} {s s' : ι} {k : ObjectKind} {o o' : α} :
    o' ∈ (st.add s k o).addedBy s' ↔ o' ∈ st.addedBy s' ∨ (s' = s ∧ o' = o) := by
  simp only [RegistryState.addedBy, RegistryState.add, List.mem_flatMap, Function.update_apply]
  by_cases hs : s' = s
  · subst hs
    simp only [if_true, Function.update_apply, true_and]
    constructor
    · rintro ⟨k', hk', ho'⟩
      split at ho'
      next heq =>
        subst heq
        rcases List.mem_append.mp ho' with ho' | ho'
        · exact .inl ⟨k', hk', ho'⟩
        · exact .inr (List.mem_singleton.mp ho')
      next => exact .inl ⟨k', hk', ho'⟩
    · rintro (⟨k', hk', ho'⟩ | rfl)
      · refine ⟨k', hk', ?_⟩
        split
        next heq => subst heq; exact List.mem_append_left _ ho'
        next => exact ho'
      · refine ⟨k, k.mem_all, ?_⟩
        rw [if_pos rfl]
        exact List.mem_append_right _ (List.mem_singleton_self _)
  · simp [hs]

/-- A destroyed session has added nothing any more; the others are left as they were. -/
theorem addedBy_destroy {st : RegistryState α ι} {s s' : ι} :
    (st.destroy s).addedBy s' = if s' = s then [] else st.addedBy s' := by
  show ObjectKind.all.flatMap (Function.update st.added s (fun _ => []) s') = _
  by_cases hs : s' = s
  · subst hs
    rw [if_pos rfl, Function.update_self]
    simp
  · rw [if_neg hs, Function.update_of_ne hs]
    rfl

end RegistryState

variable {α ι : Type} [DecidableEq α] [DecidableEq ι]

/-- A run of the sessions, with the objects that have been added and not been removed since, and those that
each session has added since it was begun. Both are kept by the steps themselves, whatever is in the lists
of the sessions. Sessions add objects that they have created, and the greatest key is below the greatest
handle. -/
inductive RegistryRun : RegistryState α ι → Set α → (ι → Set α) → Prop
  | start : RegistryRun .start ∅ fun _ => ∅
  | add {st : RegistryState α ι} {registered : Set α} {own : ι → Set α} (s : ι) (k : ObjectKind) (o : α)
      (run : RegistryRun st registered own) (hroom : st.manager.greatest < handleMax)
      (hown : ∀ s' ≠ s, o ∉ own s') :
      RegistryRun (st.add s k o) (insert o registered) (Function.update own s (insert o (own s)))
  | remove {st : RegistryState α ι} {registered : Set α} {own : ι → Set α} (h : Nat)
      (run : RegistryRun st registered own) :
      RegistryRun (st.remove h) {o ∈ registered | st.manager.handle o ≠ h} own
  | destroy {st : RegistryState α ι} {registered : Set α} {own : ι → Set α} (s : ι)
      (run : RegistryRun st registered own) :
      RegistryRun (st.destroy s) {o ∈ registered | o ∉ own s} (Function.update own s ∅)

/-- Keys and handles agree with the objects registered, and the operations keep to that: a destruction
removes what the session has added and nothing else. -/
structure RegistryInvariant (st : RegistryState α ι) (registered : Set α) (own : ι → Set α) : Prop where
  nonNull : ∀ x ∈ st.manager.m_objects, x.1 ≠ SSI_NULL_HANDLE
  keys : ∀ h o, st.manager.objectAt h = some o ↔ o ∈ registered ∧ st.manager.handle o = h
  insert : ∀ o, st.manager.greatest < handleMax →
    (st.manager.insert o).2.1 ≠ SSI_NULL_HANDLE ∧
      (st.manager.insert o).1.handle o = (st.manager.insert o).2.1 ∧
      ∀ o' ∈ registered, st.manager.handle o' = (st.manager.insert o).2.1 → o' = o
  destroyKeys : ∀ s h o, (st.destroy s).manager.objectAt h = some o ↔
    st.manager.objectAt h = some o ∧ o ∉ own s
  destroyHandles : ∀ s o, o ∈ own s → (st.destroy s).manager.handle o = SSI_NULL_HANDLE
  keepsHandles : ∀ s o, o ∉ own s → (st.destroy s).manager.handle o = st.manager.handle o

/-- The destructor of a session finds what the session has added in one of its lists, and finds nothing
else there. -/
theorem mem_addedBy_iff_of_run {st : RegistryState α ι} {registered : Set α} {own : ι → Set α}
    (run : RegistryRun st registered own) (s : ι) (o : α) : o ∈ st.addedBy s ↔ o ∈ own s := by
  induction run generalizing s with
  | start => exact iff_of_false (by simp [RegistryState.addedBy, RegistryState.start]) id
  | add s' k o' run hroom hown ih =>
      rw [RegistryState.mem_addedBy_add, ih]
      by_cases hs : s = s'
      · subst hs
        rw [Function.update_self, Set.mem_insert_iff, or_comm]
        simp
      · rw [Function.update_of_ne hs]
        exact or_iff_left fun h => hs h.1
  | remove h run ih => exact ih s
  | destroy s' run ih =>
      rw [RegistryState.addedBy_destroy]
      by_cases hs : s = s'
      · subst hs
        rw [if_pos rfl, Function.update_self]
        exact iff_of_false List.not_mem_nil id
      · rw [if_neg hs, Function.update_of_ne hs, ih]

/-- In a run map and objects agree, and the registered objects are those with a handle. -/
theorem consistent_of_run {st : RegistryState α ι} {registered : Set α} {own : ι → Set α}
    (run : RegistryRun st registered own) :
    st.manager.Consistent ∧ ∀ o, o ∈ registered ↔ st.manager.handle o ≠ 0 := by
  induction run with
  | start => exact ⟨HandleManager.consistent_empty, fun o => by simp [RegistryState.start,
      HandleManager.empty, SSI_NULL_HANDLE]⟩
  | @add st registered own s k o run hroom hown ih =>
      obtain ⟨hm, hregistered⟩ := ih
      refine ⟨HandleManager.consistent_insert hm o, fun o' => ?_⟩
      show o' ∈ insert o registered ↔ (st.manager.insert o).1.handle o' ≠ 0
      by_cases heq : o' = o
      · subst heq
        apply iff_of_true (Set.mem_insert _ _)
        rw [HandleManager.handle_insert hm]
        by_cases ho : st.manager.handle o' = 0
        · rw [HandleManager.insert_of_fresh hm ho hroom]
          exact Nat.succ_ne_zero _
        · rw [HandleManager.insert_of_registered hm ho]
          exact ho
      · rw [HandleManager.handle_insert_of_ne hm heq, ← hregistered, Set.mem_insert_iff]
        exact or_iff_right heq
  | @remove st registered own h run ih =>
      obtain ⟨hm, hregistered⟩ := ih
      refine ⟨HandleManager.consistent_remove hm h, fun o => ?_⟩
      show o ∈ registered ∧ st.manager.handle o ≠ h ↔ (st.manager.remove h).1.handle o ≠ 0
      rw [HandleManager.handle_remove hm, hregistered]
      split
      next heq => simp [heq]
      next hne => simp [hne]
  | @destroy st registered own s run ih =>
      obtain ⟨hm, hregistered⟩ := ih
      refine ⟨HandleManager.consistent_removeAll hm _, fun o => ?_⟩
      show o ∈ registered ∧ o ∉ own s ↔ (st.manager.removeAll (st.addedBy s)).handle o ≠ 0
      rw [HandleManager.handle_removeAll hm, hregistered, ← mem_addedBy_iff_of_run run]
      split
      next hmem => simp [hmem]
      next hnot => simp [hnot]

/-- **The registry invariant.** In every state of every run of the sessions, the keys are not null, a
key has an object iff the object is registered and has the key for its handle, insertion returns a
handle that no other object has, and the destruction of a session removes exactly the objects that it has
added, with their handles, and leaves the others. -/
theorem registryInvariant_of_run {st : RegistryState α ι} {registered : Set α} {own : ι → Set α}
    (run : RegistryRun st registered own) : RegistryInvariant st registered own := by
  obtain ⟨hm, hregistered⟩ := consistent_of_run run
  refine ⟨?_, ?_, ?_, ?_, ?_, ?_⟩
  · intro x hx
    exact (hm.mem_iff.mp hx).1
  · intro h o
    rw [hm.objectAt_iff, hregistered]
    constructor
    · rintro ⟨h0, rfl⟩
      exact ⟨h0, rfl⟩
    · rintro ⟨h0, rfl⟩
      exact ⟨h0, rfl⟩
  · intro o hroom
    rw [HandleManager.handle_insert hm]
    by_cases ho : st.manager.handle o = 0
    · rw [HandleManager.insert_of_fresh hm ho hroom]
      refine ⟨Nat.succ_ne_zero _, rfl, ?_⟩
      intro o' _ heq
      have hle := hm.handle_le o'
      have heq' : st.manager.handle o' = st.manager.greatest + 1 := heq
      omega
    · rw [HandleManager.insert_of_registered hm ho]
      refine ⟨ho, rfl, ?_⟩
      intro o' ho' heq
      have hat := hm.objectAt_iff.mpr ⟨ho, rfl⟩
      have hat' := hm.objectAt_iff.mpr ⟨ho, heq⟩
      exact Option.some.inj (hat'.symm.trans hat)
  · intro s h o
    have hdestroyed : (st.destroy s).manager.Consistent := HandleManager.consistent_removeAll hm _
    rw [hdestroyed.objectAt_iff, hm.objectAt_iff, ← mem_addedBy_iff_of_run run]
    show h ≠ 0 ∧ (st.manager.removeAll (st.addedBy s)).handle o = h ↔ _
    rw [HandleManager.handle_removeAll hm]
    split
    next hmem =>
      constructor
      · rintro ⟨h0, rfl⟩
        exact absurd rfl h0
      · exact fun h => absurd hmem h.2
    next hnot => simp [hnot]
  · intro s o ho
    rw [← mem_addedBy_iff_of_run run] at ho
    exact (HandleManager.handle_removeAll hm _ o).trans (if_pos ho)
  · intro s o ho
    rw [← mem_addedBy_iff_of_run run] at ho
    exact (HandleManager.handle_removeAll hm _ o).trans (if_neg ho)

section example_run

/-- Two sessions have added an end device each. -/
def sampleRegistry : RegistryState Nat Nat :=
  ((RegistryState.start : RegistryState Nat Nat).add 0 .endDevice 7).add 1 .endDevice 8

/-- What they have added. -/
def sampleOwn : Nat → Set Nat :=
  Function.update (Function.update (fun _ => ∅) 0 (insert 7 ∅)) 1 (insert 8 ∅)

/-- The invariant after one of two sessions is destroyed. -/
theorem registryInvariant_sample :
    RegistryInvariant (sampleRegistry.destroy 0)
      {o ∈ (insert 8 (insert 7 ∅) : Set Nat) | o ∉ sampleOwn 0} (Function.update sampleOwn 0 ∅) :=
  registryInvariant_of_run (.destroy 0 (.add 1 .endDevice 8
    (.add 0 .endDevice 7 .start (by decide) fun _ _ => id) (by decide)
    (by
      intro s hs hmem
      by_cases h0 : s = 0
      · subst h0
        rw [Function.update_self, Set.mem_insert_iff] at hmem
        exact hmem.elim (by decide) id
      · rw [Function.update_of_ne h0] at hmem
        exact hmem)))

end example_run

end Irstessi
