import Irstessi.Events
import Irstessi.HandleList
import Irstessi.Lib.Teardown

/-!
# The end of the library

`SsiFinalize` deletes the context manager, whose destructor leaves the rest to those of its members.
The sessions that are still open remove their objects from the handle manager, the events that are
still registered are unregistered.

* `ContextMember`, `ContextUse`, `ContextManager.uses`: the members, and what their destructors do.
* `SsiFinalize`: the status, and what happens in the destruction.
* `usedAfterEnd_SsiFinalize_iff`: the handle manager is used after its end iff a session that is in
  the map of the sessions has added an object.
* **`shutdownSafe_iff`**: in terms of runs, it is not iff the sessions still open have no objects.

The members of an object are destroyed in the reverse order of their declaration. That of the handle
manager stands last, so it is destroyed first, and the sessions, which stand first, remove their objects
from it afterwards. A session without objects makes no such call. The result on runs therefore needs
what an open session has added, in terms of the devices that were there at its opening, and this is what
the invariant of the context manager says.
-/

namespace Irstessi

open Teardown

/-- The members of the context manager.
Source: `context_manager.h` `ContextManager` -/
inductive ContextMember
  | m_SessionMgr
  | m_EventMgr
  | m_HandleMgr
  deriving DecidableEq, Repr

/-- What the destructors call. -/
inductive ContextUse
  /-- `HandleManager::remove` of an object. -/
  | remove (o : ObjectId)
  /-- `EventManager::unregisterEvent`. -/
  | unregisterEvent (handle : Nat)
  deriving DecidableEq, Repr

namespace ContextManager

/-- The members in the order of their declarations.
Source: `context_manager.h` `ContextManager` -/
def members : List ContextMember := [.m_SessionMgr, .m_EventMgr, .m_HandleMgr]

variable (c : ContextManager)

/-- Each object of a session is removed.
Source: `session.cpp` `Session::~Session` -/
def sessionUses (number : Nat) : List (ContextMember × ContextUse) :=
  (c.process.registry.addedBy number).map fun o => (.m_HandleMgr, .remove o)

/-- What the destructors of the members do. A session is deleted with the map of its manager.
Source: `session_manager.h` `SessionManager`, `event_manager.cpp` `EventManager::~EventManager`,
`handle_manager.h` `HandleManager` -/
def uses (m_EventMgr : EventSystem) : ContextMember → List (ContextMember × ContextUse)
  | .m_SessionMgr => c.m_sessions.m_objects.flatMap fun session => c.sessionUses session.2
  | .m_EventMgr => m_EventMgr.m_events.m_objects.map fun event =>
      (.m_EventMgr, .unregisterEvent event.1)
  | .m_HandleMgr => []

end ContextManager

/-- The status, and what happens in the destruction of the context manager, if there is one.
Source: `src/initialize.cpp` `SsiFinalize`, `context_manager.cpp` `ContextManager::~ContextManager` -/
def SsiFinalize (pContextMgr : Option (ContextManager × EventSystem)) :
    SSI_Status × List (TeardownEvent ContextMember ContextUse) :=
  match pContextMgr with
  | none => (.notInitialized, [])
  | some (c, m_EventMgr) => (.ok, teardown ContextManager.members (c.uses m_EventMgr))

section shutdown

variable {c : ContextManager} {m_EventMgr : EventSystem}

/-- The handle manager is used after its end iff a session in the map has added an object. -/
theorem usedAfterEnd_SsiFinalize_iff :
    UsedAfterEnd .m_HandleMgr (SsiFinalize (some (c, m_EventMgr))).2 ↔
      ∃ session ∈ c.m_sessions.m_objects, c.process.registry.addedBy session.2 ≠ [] := by
  have hteardown := @usedAfterEnd_teardown_iff _ _ (c.uses m_EventMgr) ContextMember.m_HandleMgr
    [.m_SessionMgr, .m_EventMgr] [] (by simp) (by simp)
  apply hteardown.trans
  constructor
  · rintro ⟨m, hm, w, hw⟩
    rcases List.mem_pair.mp hm with rfl | rfl
    · obtain ⟨session, hsession, hw⟩ := List.mem_flatMap.mp hw
      obtain ⟨o, ho, -⟩ := List.mem_map.mp hw
      exact ⟨session, hsession, List.ne_nil_of_mem ho⟩
    · obtain ⟨event, -, heq⟩ := List.mem_map.mp hw
      cases (Prod.mk.inj heq).1
  · rintro ⟨session, hsession, hadded⟩
    obtain ⟨o, ho⟩ := List.exists_mem_of_ne_nil _ hadded
    refine ⟨.m_SessionMgr, by simp, .remove o, ?_⟩
    exact List.mem_flatMap.mpr ⟨session, hsession, List.mem_map_of_mem ho⟩

/-- The objects that an open session has added are those of its opening. -/
theorem addedBy_eq_nil_iff (hc : c.Invariant) {S : OpenSession} (hS : S ∈ c.process.sessions) :
    c.process.registry.addedBy S.number = [] ↔ S.objects = [] := by
  have hlists : c.process.registry.addedBy S.number = ObjectKind.all.flatMap S.idsOf :=
    congrArg ObjectKind.all.flatMap (funext (hc.lists S hS))
  rw [hlists, List.flatMap_eq_nil_iff]
  constructor
  · intro hnone
    by_contra hne
    obtain ⟨o, ho⟩ := List.exists_mem_of_ne_nil _ hne
    obtain ⟨j, hj⟩ := List.mem_iff_getElem?.mp ho
    have hmem : (S.number, j) ∈ S.idsOf o.kind := by
      refine List.mem_map.mpr ⟨(o, j), ?_, rfl⟩
      rw [List.mem_filter]
      exact ⟨List.mk_mem_zipIdx_iff_getElem?.mpr hj, by simp⟩
    rw [hnone _ o.kind.mem_all] at hmem
    simp at hmem
  · intro hobjects k _
    simp [OpenSession.idsOf, hobjects]

/-- The sessions in the map are those that are open. -/
theorem mem_m_sessions_iff (hc : c.Invariant) (number : Nat) :
    (∃ session ∈ c.m_sessions.m_objects, session.2 = number) ↔
      ∃ S ∈ c.process.sessions, S.number = number := by
  rw [← hc.registered]
  constructor
  · rintro ⟨session, hsession, rfl⟩
    obtain ⟨h0, hown⟩ := hc.consistent.mem_iff.mp hsession
    rwa [hown]
  · intro h0
    exact ⟨_, hc.consistent.registered number h0, rfl⟩

end shutdown

/-- When `SsiFinalize` is called in a run of the sessions, whatever events are registered, the handle
manager is not used after its end iff no session that is still open has an object. The sessions are
destroyed behind the handle manager, since they are declared in front of it, and each of their objects
is then removed from it. -/
theorem shutdownSafe_iff (events : List ContextEvent) (m_EventMgr : EventSystem) :
    ¬ UsedAfterEnd .m_HandleMgr (SsiFinalize (some (.run events, m_EventMgr))).2 ↔
      ∀ S ∈ (ContextManager.run events).process.sessions, S.objects = [] := by
  have hc := ContextManager.invariant_run events
  rw [usedAfterEnd_SsiFinalize_iff]
  constructor
  · intro hsafe S hS
    by_contra hobjects
    obtain ⟨session, hsession, hnumber⟩ := (mem_m_sessions_iff hc S.number).mpr ⟨S, hS, rfl⟩
    refine hsafe ⟨session, hsession, ?_⟩
    rw [hnumber]
    exact fun hnone => hobjects ((addedBy_eq_nil_iff hc hS).mp hnone)
  · rintro hobjects ⟨session, hsession, hadded⟩
    obtain ⟨S, hS, hnumber⟩ := (mem_m_sessions_iff hc session.2).mp ⟨session, hsession, rfl⟩
    rw [← hnumber] at hadded
    exact hadded ((addedBy_eq_nil_iff hc hS).mpr (hobjects S hS))

/-- One session is open and lists a controller with one phy, behind which there is nothing. -/
theorem not_shutdownSafe_phy :
    ¬ ∀ (events : List ContextEvent) (m_EventMgr : EventSystem),
      ¬ UsedAfterEnd .m_HandleMgr (SsiFinalize (some (.run events, m_EventMgr))).2 := by
  intro h
  apply h [.openSession [.hardware (.controller 0), .hardware .phy]] (.start [])
  rw [usedAfterEnd_SsiFinalize_iff]
  exact ⟨(1, 0), by decide, by decide⟩

end Irstessi
