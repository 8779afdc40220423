import Irstessi.Sessions

/-!
# Handles over time

What the handles that a session has listed designate in a later call.

* `HandlesValid`: while the hardware stays as it is, every handle designates its object.
  **`handlesValid_iff`**: that is so of the null handle alone, once the keys have run out.
* `StaleSafe`: a handle of an end device designates no other end device later on.
  **`staleSafe_iff`**: that is so iff the end devices of earlier sessions and of calls agree where
  their places, counted from the greatest keys, do.

In a call the objects of the open sessions are still registered, so that the call's own session counts
its keys from the greatest of them: no handle of an open session is a key of it, and the null handle is
the only one that can still mean something there. `designates_iff` says this of one handle in one state,
and the two results say it of runs: for handles that are valid while the hardware stays, and for handles
that must not mean another device when it has changed. Both are equivalences over all runs of openings,
closings and calls.
-/

namespace Irstessi

open Process

/-! ## The hardware stays as it is -/

/-- What happens to the sessions of a process. -/
inductive SessionUse
  | openSession
  | closeSession (number : Nat)
  | call
  deriving DecidableEq, Repr

/-- The event where the given objects are discovered. -/
def SessionUse.event (objects : List SessionObject) : SessionUse → SessionEvent
  | openSession => .openSession objects
  | closeSession number => .closeSession number
  | call => .call objects

/-- The process after some uses over the same hardware. -/
def runOver (objects : List SessionObject) (uses : List SessionUse) : Process :=
  run (uses.map (SessionUse.event objects))

/-- The object is one whose handle a mutating call takes. -/
def SessionObject.IsTarget (o : SessionObject) : Prop :=
  o.kind = .endDevice ∨ o.kind = .array ∨ o.kind = .volume

/-- A call takes the handle for an object that describes the same device. -/
def Designates (w : Process) (objects : List SessionObject) (h : Nat) (o : SessionObject) : Prop :=
  ∃ o', w.resolve objects o.kind h = some o' ∧ o.same o'

/-- Every open session's handles of end devices, arrays and volumes designate these in a call. -/
def HandlesValid (objects : List SessionObject) (uses : List SessionUse) : Prop :=
  ∀ S ∈ (runOver objects uses).sessions, ∀ j o, S.objects[j]? = some o → o.IsTarget →
    Designates (runOver objects uses) objects ((runOver objects uses).handle S.number j) o

/-- The handle is null, and the first object of the kind for which a call has no handle left
describes the device. -/
def NullDesignates (w : Process) (objects : List SessionObject) (h : Nat) (o : SessionObject) :
    Prop :=
  h = 0 ∧ ∃ o', ((objects.drop (handleMax - w.greatest)).find? fun o' => o'.kind = o.kind) = some o' ∧
    o.same o'

/-- A handle of an open session designates an object in a call only as the null handle: the keys of the
call's own session are all above the greatest one. -/
theorem designates_iff {w : Process} (hw : w.Invariant) (objects : List SessionObject)
    (s j : Nat) (o : SessionObject) :
    Designates w objects (w.handle s j) o ↔ NullDesignates w objects (w.handle s j) o := by
  unfold Designates NullDesignates
  by_cases h0 : w.handle s j = 0
  · simp only [h0, true_and, resolve_zero hw]
  · rw [resolve_handle hw objects o.kind h0]
    constructor
    · rintro ⟨o', ho', -⟩
      simp at ho'
    · rintro ⟨hzero, -⟩
      exact absurd hzero h0

/-- **Handles designate nothing beyond their session.** The handles that a session lists are keys of the
handle manager, those of the session that a call opens lie behind all of them. So no call takes a handle
of an open session for anything, its own object included; the exception is the null handle of an object
whose insertion has failed, which a call takes for the first object of the kind that gets none. -/
theorem handlesValid_iff (tree : DeviceTree) (dirs : List MdDir) (uses : List SessionUse) :
    let objects := discoverSession tree dirs
    HandlesValid objects uses ↔
      ∀ S ∈ (runOver objects uses).sessions, ∀ j o, S.objects[j]? = some o → o.IsTarget →
        NullDesignates (runOver objects uses) objects ((runOver objects uses).handle S.number j) o := by
  intro objects
  have hw : (runOver objects uses).Invariant := invariant_run _
  constructor
  · intro hvalid S hS j o ho hkind
    exact (designates_iff hw _ S.number j o).mp (hvalid S hS j o ho hkind)
  · intro hnull S hS j o ho hkind
    exact (designates_iff hw _ S.number j o).mpr (hnull S hS j o ho hkind)

/-! ## The hardware changes -/

/-- An open session has listed the end device under the handle. -/
def Reported (events : List SessionEvent) (h : Nat) (d : SessionDevice) : Prop :=
  ∃ S ∈ (run events).sessions, ∃ j,
    S.objects[j]? = some (.hardware (.endDevice d)) ∧ (run events).handle S.number j = h

/-- A handle once reported for an end device designates that device or none in every later call. -/
def StaleSafe (events : List SessionEvent) : Prop :=
  ∀ before objects, before ++ [.call objects] <+: events →
    ∀ earlier, earlier <+: before → ∀ h d, Reported earlier h d →
      ∀ o, (run before).resolve objects .endDevice h = some o →
        (SessionObject.hardware (.endDevice d)).same o

/-- The end devices `listed` by a session that is opened at the greatest key `b'`, and those of a
call at the greatest key `b`, agree where they get the same handle. -/
def Agree (b' : Nat) (listed : List SessionObject) (b : Nat) (objects : List SessionObject) : Prop :=
  (∀ p q d o, listed[p]? = some (.hardware (.endDevice d)) → objects[q]? = some o →
    o.kind = .endDevice → b' + p = b + q → b + q < handleMax →
      (SessionObject.hardware (.endDevice d)).same o) ∧
  (∀ p d o, listed[p]? = some (.hardware (.endDevice d)) → handleMax ≤ b' + p →
    ((objects.drop (handleMax - b)).find? fun o => o.kind = .endDevice) = some o →
      (SessionObject.hardware (.endDevice d)).same o)

/-- What a call at the greatest key `b` finds under the handles of the end devices `listed` by a
session that was opened at the greatest key `b'`. -/
theorem agree_iff {w : Process} (hw : w.Invariant) (b' : Nat) (listed objects : List SessionObject) :
    Agree b' listed w.greatest objects ↔
      ∀ p d, listed[p]? = some (.hardware (.endDevice d)) →
        ∀ o, w.resolve objects .endDevice (HandleManager.handleAt b' p) = some o →
          (SessionObject.hardware (.endDevice d)).same o := by
  constructor
  · rintro ⟨hkeys, hnull⟩ p d hp o ho
    by_cases h0 : HandleManager.handleAt b' p = 0
    · rw [h0, resolve_zero hw] at ho
      exact hnull p d o hp (handleAt_eq_zero_iff.mp h0) ho
    · obtain ⟨q, hq, hkind, hhandle⟩ := (resolve_eq_some_iff hw h0).mp ho
      obtain ⟨hsum, hmax⟩ := (handleAt_eq_iff h0).mp hhandle
      obtain ⟨hsum', -⟩ := (handleAt_eq_iff h0).mp rfl
      exact hkeys p q d o hp hq hkind (by omega) (by omega)
  · intro hresolve
    constructor
    · intro p q d o hp hq hkind hsum hmax
      have h0 : HandleManager.handleAt b' p ≠ 0 := fun hzero => by
        have hle := handleAt_eq_zero_iff.mp hzero
        omega
      have hsame : HandleManager.handleAt w.greatest q = HandleManager.handleAt b' p := by
        obtain ⟨hsum', hmax'⟩ := (handleAt_eq_iff h0).mp rfl
        exact (handleAt_eq_iff h0).mpr ⟨by omega, hmax'⟩
      exact hresolve p d hp o ((resolve_eq_some_iff hw h0).mpr ⟨q, hq, hkind, hsame⟩)
    · intro p d o hp hmax ho
      apply hresolve p d hp o
      rw [handleAt_eq_zero_iff.mpr hmax, resolve_zero hw]
      exact ho

/-- **A stale handle designates the same device or none iff places agree.** A call numbers its
objects from the greatest key that is left, so that a handle designates what has come to stand at
its place. -/
theorem staleSafe_iff (events : List SessionEvent) :
    StaleSafe events ↔
      ∀ before objects, before ++ [.call objects] <+: events →
        ∀ earlier listed, earlier ++ [.openSession listed] <+: before →
          Agree (run earlier).greatest listed (run before).greatest objects := by
  constructor
  · intro hsafe before objects hcall earlier listed hopen
    rw [agree_iff (invariant_run before)]
    intro p d hp o ho
    refine hsafe before objects hcall _ hopen _ d ⟨⟨(run earlier).next, listed⟩, ?_, p, hp, rfl⟩ o ?_
    · rw [run_append_singleton]
      exact List.mem_append_right _ (List.mem_singleton_self _)
    · rw [run_append_singleton]
      have hlt : p < listed.length := (List.getElem?_eq_some_iff.mp hp).1
      have hhandle := handle_register (invariant_run earlier) listed hlt
      rw [← hhandle] at ho
      exact ho
  · intro hagree before objects hcall earlier hearlier h d hreported o ho
    obtain ⟨S, hS, j, hj, rfl⟩ := hreported
    obtain ⟨opening, hopening, hhandles⟩ := handle_of_mem_sessions earlier hS
    have hlt : j < S.objects.length := (List.getElem?_eq_some_iff.mp hj).1
    rw [hhandles j hlt] at ho
    have hplaces := hagree before objects hcall opening S.objects (hopening.trans hearlier)
    exact (agree_iff (invariant_run before) _ _ _).mp hplaces j d hj o ho

section sample

/-- A disk of an AHCI controller. -/
def foundDisk (devName serial : String) : FoundDevice :=
  ⟨.ahciDisk, .ofLit devName, .ofLit serial, 1000000, 2000, .passThru, .normal, (1, [])⟩

/-- An AHCI controller with so many phys and a disk behind some of them; each disk has a port. -/
def ahciTree (phys : Nat) (disks : List FoundDevice) : DeviceTree :=
  [⟨.ahci, disks, .nil, disks.length, phys, 0, none⟩]

/-- The objects of a session over one disk. -/
def sampleOne : List SessionObject := discoverSession (ahciTree 1 [foundDisk "sda" "A"]) []

/-- The objects of a session over two disks. -/
def sampleTwo : List SessionObject :=
  discoverSession (ahciTree 2 [foundDisk "sda" "A", foundDisk "sdb" "B"]) []

/-- The objects of a session after the first of the two disks is taken out. -/
def sampleRest : List SessionObject := discoverSession (ahciTree 2 [foundDisk "sdb" "B"]) []

/-- A session is opened; a call does not know the handle that it has listed for the disk. -/
theorem not_handlesValid_disk : ¬ HandlesValid sampleOne [.openSession] := by
  intro hvalid
  obtain ⟨o', ho', -⟩ := hvalid ⟨0, sampleOne⟩ (by decide +kernel) 1
    (.hardware (.endDevice ⟨foundDisk "sda" "A", 0⟩)) (by decide +kernel) (.inl rfl)
  have hnone : (runOver sampleOne [.openSession]).resolve sampleOne .endDevice
      ((runOver sampleOne [.openSession]).handle 0 1) = none := by decide +kernel
  exact nomatch hnone.symm.trans ho'

/-- A session has listed disks A and B and is closed, A is taken out: the handle of A designates B. -/
theorem not_staleSafe_removed :
    ¬ StaleSafe [.openSession sampleTwo, .closeSession 0, .call sampleRest] := by
  intro hsafe
  have hreported : Reported [.openSession sampleTwo] 2 ⟨foundDisk "sda" "A", 0⟩ :=
    ⟨⟨0, sampleTwo⟩, by decide +kernel, 1, by decide +kernel, by decide +kernel⟩
  have hgreatest : (run [.openSession sampleTwo, .closeSession 0]).greatest = 0 := by
    have hregistry := registry_closeSession_openSession (w := start) sampleTwo
    exact (congrArg (fun r => r.manager.greatest) hregistry).trans
      (greatest_call invariant_start sampleTwo)
  have hresolve : (run [.openSession sampleTwo, .closeSession 0]).resolve sampleRest .endDevice 2 =
      some (.hardware (.endDevice ⟨foundDisk "sdb" "B", 0⟩)) := by
    rw [resolve_eq_some_iff (invariant_run _) (by decide), hgreatest]
    exact ⟨1, by decide +kernel, rfl, by decide⟩
  have hcall : [.openSession sampleTwo, .closeSession 0] ++ [.call sampleRest] <+:
      [.openSession sampleTwo, .closeSession 0, SessionEvent.call sampleRest] := List.prefix_rfl
  have hearlier : [.openSession sampleTwo] <+: [.openSession sampleTwo, SessionEvent.closeSession 0] :=
    ⟨[.closeSession 0], rfl⟩
  have hsame := hsafe _ _ hcall _ hearlier 2 _ hreported _ hresolve
  have hother : (SessionObject.hardware (.endDevice ⟨foundDisk "sda" "A", 0⟩)).same
      (.hardware (.endDevice ⟨foundDisk "sdb" "B", 0⟩)) = false := by decide +kernel
  rw [hother] at hsame
  simp at hsame

end sample

end Irstessi
