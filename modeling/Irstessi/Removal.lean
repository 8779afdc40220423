import Irstessi.ArrayCreate
import Irstessi.CallSession
import Irstessi.Migration

/-!
# Removal of a volume and of its container

`Volume::remove` stops the volume and has its subarray killed; with the last volume the container
goes as well, which `Array::remove` stops and clears in at most four rounds.

* `removeVolume`, `Volume.remove`: the functions; `Array::remove` is `RaidArray.remove`.
* `StopsAndClears`: some round of `Array::remove` does both; `run_removeRounds`: it is what a removal
  needs.
* `TransientFailures`, `Removed`: failures of single commands, and a removal that survives them.
  **`removed_iff`**: it does iff the first try to clear the members succeeds.
* `Presence`: what there is of a volume after the commands of a trace; `DeletesAtomically`.
  **`deletesAtomically_iff`**: exactly when a deletion has all of its effects or none.

For the container the run is followed round by round: an attempt to stop it that fails is followed by
the next one, and one that succeeds by a try to clear the members. `TransientFailures` is the class of
outcomes of the claim, with the attempt that stops the container as a parameter, and under it the rounds
come to one condition on one command. The effects of a deletion are kept in three flags, changed by the
commands that exit with 0. The cases are those of the source: the stop of the volume fails, it was the
last volume, or others remain, and the exact condition is put together from them.
-/

namespace Irstessi

open Interact

/-! ## The functions -/

/-- The last volume goes with its container.
Source: `array.cpp` `Array::removeVolume` -/
def ListedArray.removeVolume (a : ListedArray) (ordinal : UInt32) : SysProg SSI_Status :=
  if a.m_Volumes.length = 1 then pure .ok
  else do
    if (← shellEx (.killSubarray ordinal.toNat a.m_DevName) 1 0) = 0 then pure .ok
    else pure .failed

/-- Source: `volume.cpp` `Volume::remove`, behind the cast -/
def Volume.removeFrom (v : Volume) (pArray : ListedArray) : SysProg SSI_Status := do
  if (← shellEx (.stop v.m_DevName) 1 0) = 0 then
    if (← pArray.removeVolume v.m_Ordinal) = .ok then
      if pArray.m_Volumes.length > 1 then pure .ok else pArray.remove
    else pure .failed
  else pure .failed

/-- `parent` is the container that `m_pParent` refers to.
Source: `volume.cpp` `Volume::remove` -/
def Volume.remove (v : Volume) (parent : Option ListedArray) : SysProg SSI_Status :=
  match parent with
  | none => pure .invalidState
  | some pArray => v.removeFrom pArray

/-! ## The rounds of a removal -/

namespace RaidArray

variable (a : RaidArray) (env : SysEnv)

/-- The command that clears the members. -/
def clearAll : Command := .clearMembers (a.m_BlockDevices.map (·.m_DevName))

/-- In one of the rounds from call number `i` on the container is stopped and its members are
cleared. -/
def StopsAndClears : Nat → Nat → Prop
  | 0, _ => False
  | rounds + 1, i =>
      if exitOf env i (.stop a.m_DevName) = 0 then
        exitOf env (i + 1) a.clearAll = 0 ∨ StopsAndClears rounds (i + 2)
      else StopsAndClears rounds (i + 1)

variable {a env}

/-- Where the stop fails the next round starts behind it. -/
theorem stopsAndClears_of_stop_fails {i : Nat} (rounds : Nat)
    (hstop : exitOf env i (.stop a.m_DevName) ≠ 0) :
    a.StopsAndClears env (rounds + 1) i ↔ a.StopsAndClears env rounds (i + 1) := by
  rw [StopsAndClears, if_neg hstop]

/-- Where the stop succeeds the metadata is cleared, and the next round starts behind both commands. -/
theorem stopsAndClears_of_stopped {i : Nat} (rounds : Nat)
    (hstop : exitOf env i (.stop a.m_DevName) = 0) :
    a.StopsAndClears env (rounds + 1) i ↔
      exitOf env (i + 1) a.clearAll = 0 ∨ a.StopsAndClears env rounds (i + 2) := by
  rw [StopsAndClears, if_pos hstop]

/-- Without a stop that succeeds nothing is cleared. -/
theorem not_stopsAndClears {i : Nat} (rounds : Nat)
    (hstop : ∀ j, i ≤ j → exitOf env j (.stop a.m_DevName) ≠ 0) :
    ¬ a.StopsAndClears env rounds i := by
  induction rounds generalizing i with
  | zero => exact fun h => h
  | succ rounds ih =>
      rw [stopsAndClears_of_stop_fails rounds (hstop i le_rfl)]
      apply ih
      intro j hj
      exact hstop j (Nat.le_of_succ_le hj)

/-- The loop of `Array::remove`, one round at a time: the stop is tried again in every round, also
behind a stop that has succeeded. -/
theorem removeRounds_succ (rounds : Nat) :
    a.removeRounds (rounds + 1) = shellEx (.stop a.m_DevName) 1 0 >>= fun stopped =>
      if stopped = 0 then
        shellEx a.clearAll 1 0 >>= fun cleared =>
          if cleared = 0 then pure .ok else a.removeRounds rounds
      else a.removeRounds rounds := rfl

/-- A round whose stop fails. -/
theorem run_removeRounds_of_stop_fails {i : Nat} (rounds : Nat)
    (hstop : exitOf env i (.stop a.m_DevName) ≠ 0) :
    ((a.removeRounds (rounds + 1)).run env i).trace =
      ⟨.shell (.stop a.m_DevName), env i (.shell (.stop a.m_DevName))⟩ ::
        ((a.removeRounds rounds).run env (i + 1)).trace ∧
    ((a.removeRounds (rounds + 1)).run env i).result =
      ((a.removeRounds rounds).run env (i + 1)).result := by
  rw [removeRounds_succ, (run_shellEx_bind env i _ 1 0 _).1, (run_shellEx_bind env i _ 1 0 _).2,
    if_neg hstop, if_neg (by simp)]
  exact ⟨rfl, rfl⟩

/-- A round whose stop succeeds. -/
theorem run_removeRounds_of_stopped {i : Nat} (rounds : Nat)
    (hstop : exitOf env i (.stop a.m_DevName) = 0) :
    ((a.removeRounds (rounds + 1)).run env i).trace =
      ⟨.shell (.stop a.m_DevName), env i (.shell (.stop a.m_DevName))⟩ ::
        ⟨.shell a.clearAll, env (i + 1) (.shell a.clearAll)⟩ ::
          (if exitOf env (i + 1) a.clearAll = 0 then []
            else ((a.removeRounds rounds).run env (i + 2)).trace) ∧
    ((a.removeRounds (rounds + 1)).run env i).result =
      if exitOf env (i + 1) a.clearAll = 0 then .ok .ok
        else ((a.removeRounds rounds).run env (i + 2)).result := by
  rw [removeRounds_succ, (run_shellEx_bind env i _ 1 0 _).1, (run_shellEx_bind env i _ 1 0 _).2,
    if_pos hstop, if_pos rfl, (run_shellEx_bind env (i + 1) _ 1 0 _).1,
    (run_shellEx_bind env (i + 1) _ 1 0 _).2]
  by_cases hclear : exitOf env (i + 1) a.clearAll = 0
  · simp [hclear]
  · simp [hclear]

/-- A removal succeeds iff some round stops the container and clears its members. -/
theorem run_removeRounds (rounds i : Nat) :
    ((a.removeRounds rounds).run env i).result = .ok .ok ↔ a.StopsAndClears env rounds i := by
  induction rounds generalizing i with
  | zero =>
      constructor
      · intro h
        cases Except.ok.inj h
      · exact False.elim
  | succ rounds ih =>
      by_cases hstop : exitOf env i (.stop a.m_DevName) = 0
      · rw [(run_removeRounds_of_stopped rounds hstop).2, stopsAndClears_of_stopped rounds hstop]
        by_cases hclear : exitOf env (i + 1) a.clearAll = 0
        · simp [hclear]
        · simp [hclear, ih]
      · rw [(run_removeRounds_of_stop_fails rounds hstop).2, stopsAndClears_of_stop_fails rounds hstop]
        exact ih (i + 1)

/-- A removal that succeeds has cleared the members. -/
theorem cleared_of_stopsAndClears {rounds i : Nat} (h : a.StopsAndClears env rounds i) :
    (a.clearAll, 0) ∈ exits ((a.removeRounds rounds).run env i).trace := by
  induction rounds generalizing i with
  | zero => exact h.elim
  | succ rounds ih =>
      by_cases hstop : exitOf env i (.stop a.m_DevName) = 0
      · rw [(run_removeRounds_of_stopped rounds hstop).1, exits_cons_shell, exits_cons_shell]
        rw [stopsAndClears_of_stopped rounds hstop] at h
        apply List.mem_cons_of_mem
        rcases h with hclear | hlater
        · rw [← hclear]
          exact List.mem_cons_self
        · by_cases hclear : exitOf env (i + 1) a.clearAll = 0
          · rw [← hclear]
            exact List.mem_cons_self
          · rw [if_neg hclear]
            exact List.mem_cons_of_mem _ (ih hlater)
      · rw [(run_removeRounds_of_stop_fails rounds hstop).1, exits_cons_shell]
        rw [stopsAndClears_of_stop_fails rounds hstop] at h
        exact List.mem_cons_of_mem _ (ih h)

/-! ## Failures of single commands -/

variable (a env) in
/-- Outcomes of the commands from call number `i` on: the container is stopped at attempt `k` and by
no later one, and where clearing its members fails there is a round left and each later try
succeeds. -/
structure TransientFailures (i k : Nat) : Prop where
  attempt : k < 4
  failing : ∀ j < k, exitOf env (i + j) (.stop a.m_DevName) ≠ 0
  stopped : exitOf env (i + k) (.stop a.m_DevName) = 0
  stoppedOnce : ∀ j, k < j → exitOf env (i + j) (.stop a.m_DevName) ≠ 0
  retried : exitOf env (i + k + 1) a.clearAll ≠ 0 →
    k + 1 < 4 ∧ ∀ j, k + 1 < j → exitOf env (i + j) a.clearAll = 0

/-- The metadata of the disk has been cleared. -/
def Cleared (tr : List SysEvent) (d : EndDevice) : Prop :=
  ∃ devices, (.clearMembers devices, 0) ∈ exits tr ∧ d.m_DevName ∈ devices

variable (a) in
/-- The removal has succeeded and the metadata of all members is gone. -/
def Removed (tr : List SysEvent) (res : Except Fault SSI_Status) : Prop :=
  res = .ok .ok ∧ ∀ d ∈ a.m_BlockDevices, Cleared tr d

/-- Stops that fail are passed over. -/
theorem stopsAndClears_of_failing {i k : Nat} (rounds : Nat)
    (h : ∀ j < k, exitOf env (i + j) (.stop a.m_DevName) ≠ 0) :
    a.StopsAndClears env (rounds + k) i ↔ a.StopsAndClears env rounds (i + k) := by
  induction k generalizing i with
  | zero => exact Iff.rfl
  | succ k ih =>
      have hfirst : exitOf env i (.stop a.m_DevName) ≠ 0 := h 0 (Nat.succ_pos k)
      rw [← Nat.add_assoc, stopsAndClears_of_stop_fails _ hfirst, ih]
      · rw [Nat.add_assoc, Nat.add_comm 1 k]
      · intro j hj
        rw [Nat.add_assoc, Nat.add_comm 1 j]
        exact h (j + 1) (Nat.succ_lt_succ hj)

/-- Once the container is stopped only the next command may clear the members. -/
theorem TransientFailures.stopsAndClears_iff {i k : Nat} (h : a.TransientFailures env i k) :
    a.StopsAndClears env 4 i ↔ exitOf env (i + k + 1) a.clearAll = 0 := by
  obtain ⟨rounds, hrounds⟩ := Nat.exists_eq_add_of_lt h.attempt
  have hfour : 4 = rounds + 1 + k := by omega
  rw [hfour, stopsAndClears_of_failing _ h.failing, stopsAndClears_of_stopped _ h.stopped]
  refine or_iff_left (not_stopsAndClears rounds ?_)
  intro j hj
  have hlater := h.stoppedOnce (j - i) (by omega)
  rwa [Nat.add_sub_cancel' (by omega)] at hlater

/-- A removal survives failures of single commands iff the command that follows the successful stop
clears the members. Before that, up to three stops may fail, and later tries to clear the members may
succeed: they do not help any more, as the container is stopped only once. -/
theorem removed_iff {i k : Nat} (h : a.TransientFailures env i k) :
    a.Removed (a.remove.run env i).trace (a.remove.run env i).result ↔
      exitOf env (i + k + 1) a.clearAll = 0 := by
  rw [← h.stopsAndClears_iff]
  constructor
  · intro hremoved
    exact (run_removeRounds 4 i).mp hremoved.1
  · intro hrounds
    refine ⟨(run_removeRounds 4 i).mpr hrounds, ?_⟩
    intro d hd
    exact ⟨_, cleared_of_stopsAndClears hrounds, List.mem_map_of_mem hd⟩

/-- The container is stopped by call number 1, and its members are cleared by calls number `first`
and later. -/
def sampleFailures (first : Nat) : SysEnv
  | i, .shell (.stop _) => ⟨if i = 1 then 0 else 1, [], []⟩
  | i, .shell (.clearMembers _) => ⟨if first ≤ i then 0 else 1, [], []⟩
  | _, .shell _ => ⟨0, [], []⟩
  | _, .readMap => ⟨none, [], fun path => path⟩
  | _, .readAttribute _ => none
  | _, .stat _ => true
  | _, .appendConfig _ => none

/-- The sample's failures are transient: every command succeeds at a later attempt. -/
theorem sampleFailures_transient {first : Nat} (h : first ≤ 3) :
    sampleArray.TransientFailures (sampleFailures first) 0 1 where
  attempt := by decide
  failing j hj := by
    show (if 0 + j = 1 then (0 : UInt8) else 1) ≠ 0
    rw [if_neg (by omega)]
    decide
  stopped := rfl
  stoppedOnce j hj := by
    show (if 0 + j = 1 then (0 : UInt8) else 1) ≠ 0
    rw [if_neg (by omega)]
    decide
  retried _ := by
    refine ⟨by decide, ?_⟩
    intro j hj
    show (if first ≤ 0 + j then (0 : UInt8) else 1) = 0
    rw [if_pos (by omega)]

/-- With these failures the container is removed iff its members can be cleared right behind the
stop. -/
theorem removed_iff_sample :
    sampleArray.TransientFailures (sampleFailures 2) 0 1 ∧
      (sampleArray.Removed (sampleArray.remove.run (sampleFailures 2) 0).trace
          (sampleArray.remove.run (sampleFailures 2) 0).result ↔
        exitOf (sampleFailures 2) (0 + 1 + 1) sampleArray.clearAll = 0) :=
  ⟨sampleFailures_transient (by decide), removed_iff (sampleFailures_transient (by decide))⟩

/-- The second attempt stops the container, the members are not cleared at once, and they are not
tried again. -/
theorem not_removed_sample :
    ¬ ∀ (a : RaidArray) (env : SysEnv) (i k : Nat), a.TransientFailures env i k →
      a.Removed (a.remove.run env i).trace (a.remove.run env i).result := by
  intro h
  have htransient : sampleArray.TransientFailures (sampleFailures 3) 0 1 :=
    sampleFailures_transient (by decide)
  have hremoved := h sampleArray (sampleFailures 3) 0 1 htransient
  have hcleared := htransient.stopsAndClears_iff.mp ((run_removeRounds 4 0).mp hremoved.1)
  exact absurd hcleared (by decide)

end RaidArray

/-! ## Deletions -/

/-- What there is of a volume: its metadata on the members, its device, and the device of its
container. -/
structure Presence where
  stored : Bool
  running : Bool
  containerRunning : Bool
  deriving DecidableEq, Repr

namespace Presence

variable (v : Volume) (a : RaidArray)

/-- The volume runs in its container. -/
def active : Presence := ⟨true, true, true⟩

/-- The effect of a command that exits with 0. An assembly of the container starts its volumes. -/
def step (p : Presence) : Command → Presence
  | .stop devName =>
      ⟨p.stored, p.running && devName ≠ v.m_DevName && devName ≠ a.m_DevName,
        p.containerRunning && devName ≠ a.m_DevName⟩
  | .killSubarray ordinal devName =>
      { p with stored := p.stored && !(ordinal = v.m_Ordinal.toNat && devName = a.m_DevName) }
  | .clearMembers devices =>
      { p with stored := p.stored && devices ≠ a.m_BlockDevices.map (·.m_DevName) }
  | .incremental name =>
      if name = a.m_Name then ⟨p.stored, p.stored, true⟩ else p
  | _ => p

/-- What there is after the commands of a trace: those that fail have no effect. -/
def after (p : Presence) (tr : List SysEvent) : Presence :=
  (exits tr).foldl (fun p x => if x.2 = 0 then p.step v a x.1 else p) p

variable {v a} {p : Presence}

/-- Without a command all that there is stays. -/
@[simp] theorem after_nil : p.after v a [] = p := rfl

/-- What is there behind a trace, command by command: a command that fails has changed nothing. -/
theorem after_cons_shell (env : SysEnv) (i : Nat) (cmd : Command) (tr : List SysEvent) :
    p.after v a (⟨.shell cmd, env i (.shell cmd)⟩ :: tr) =
      (if exitOf env i cmd = 0 then p.step v a cmd else p).after v a tr := rfl

/-- Stopping the container stops its volumes too, and leaves the metadata. -/
@[simp] theorem step_stop_container :
    p.step v a (.stop a.m_DevName) = ⟨p.stored, false, false⟩ := by simp [step]

/-- Clearing the metadata takes the stored description away. -/
@[simp] theorem step_clearAll : p.step v a a.clearAll = { p with stored := false } := by
  simp [step, RaidArray.clearAll]

/-- A removal of the container starts nothing. -/
theorem after_removeRounds_running {env : SysEnv} (h : p.running = false) (rounds i : Nat) :
    (p.after v a ((a.removeRounds rounds).run env i).trace).running = false := by
  induction rounds generalizing p i with
  | zero => exact h
  | succ rounds ih =>
      by_cases hstop : exitOf env i (.stop a.m_DevName) = 0
      · rw [(RaidArray.run_removeRounds_of_stopped rounds hstop).1, after_cons_shell,
          after_cons_shell, if_pos hstop, step_stop_container]
        by_cases hclear : exitOf env (i + 1) a.clearAll = 0
        · simp [hclear]
        · simp only [hclear, if_false]
          exact ih rfl (i + 2)
      · rw [(RaidArray.run_removeRounds_of_stop_fails rounds hstop).1, after_cons_shell,
          if_neg hstop]
        exact ih h (i + 1)

/-- A removal of the container that succeeds leaves neither metadata nor the container. -/
theorem after_removeRounds_of_stopsAndClears {env : SysEnv} {rounds i : Nat}
    (h : a.StopsAndClears env rounds i) :
    (p.after v a ((a.removeRounds rounds).run env i).trace).stored = false ∧
      (p.after v a ((a.removeRounds rounds).run env i).trace).containerRunning = false := by
  induction rounds generalizing p i with
  | zero => exact h.elim
  | succ rounds ih =>
      by_cases hstop : exitOf env i (.stop a.m_DevName) = 0
      · rw [(RaidArray.run_removeRounds_of_stopped rounds hstop).1, after_cons_shell,
          after_cons_shell, if_pos hstop, step_stop_container]
        rw [RaidArray.stopsAndClears_of_stopped rounds hstop] at h
        by_cases hclear : exitOf env (i + 1) a.clearAll = 0
        · simp [hclear]
        · simp only [hclear, if_false]
          exact ih (h.resolve_left hclear)
      · rw [(RaidArray.run_removeRounds_of_stop_fails rounds hstop).1, after_cons_shell]
        rw [RaidArray.stopsAndClears_of_stop_fails rounds hstop] at h
        exact ih h

end Presence

/-- A deletion that succeeds leaves no metadata, and not the container of a last volume; any other
leaves the volume as it was. -/
structure DeletesAtomically (v : Volume) (a : ListedArray) (tr : List SysEvent)
    (res : Except Fault SSI_Status) : Prop where
  deleted : res = .ok .ok → (Presence.active.after v a.toRaidArray tr).stored = false ∧
    (a.m_Volumes.length = 1 →
      (Presence.active.after v a.toRaidArray tr).containerRunning = false)
  kept : res ≠ .ok .ok → Presence.active.after v a.toRaidArray tr = .active

/-- The volume is not stopped, or what the deletion has to do then succeeds: its subarray is killed,
and a container of no other volume is removed. -/
def DeletionFits (v : Volume) (a : ListedArray) (env : SysEnv) (i : Nat) : Prop :=
  exitOf env i (.stop v.m_DevName) = 0 →
    if a.m_Volumes.length = 1 then a.toRaidArray.StopsAndClears env 4 (i + 1)
    else exitOf env (i + 1) (.killSubarray v.m_Ordinal.toNat a.m_DevName) = 0 ∧
      (a.m_Volumes.length = 0 → a.toRaidArray.StopsAndClears env 4 (i + 2))

section deletion

variable {v : Volume} {a : ListedArray} {env : SysEnv} {i : Nat}

/-- A deletion that does not return `SSI_StatusOk` behind a stop of the volume. -/
theorem not_deletesAtomically {tr : List SysEvent} {res : Except Fault SSI_Status}
    (hrunning : (Presence.active.after v a.toRaidArray tr).running = false)
    (hres : res ≠ .ok .ok) : ¬ DeletesAtomically v a tr res := by
  intro h
  rw [h.kept hres] at hrunning
  cases hrunning

/-- The volume is not stopped. -/
theorem removeFrom_run_of_stop_fails (hstop : exitOf env i (.stop v.m_DevName) ≠ 0) :
    ((v.removeFrom a).run env i).trace =
      [⟨.shell (.stop v.m_DevName), env i (.shell (.stop v.m_DevName))⟩] ∧
    ((v.removeFrom a).run env i).result = .ok .failed := by
  rw [Volume.removeFrom, (run_shellEx_bind env i _ 1 0 _).1, (run_shellEx_bind env i _ 1 0 _).2,
    if_neg hstop, if_neg (by simp)]
  exact ⟨rfl, rfl⟩

/-- The volume is stopped, and it is the last one: its container is removed. -/
theorem removeFrom_run_of_last (hstop : exitOf env i (.stop v.m_DevName) = 0)
    (hlast : a.m_Volumes.length = 1) :
    ((v.removeFrom a).run env i).trace =
      ⟨.shell (.stop v.m_DevName), env i (.shell (.stop v.m_DevName))⟩ ::
        (a.remove.run env (i + 1)).trace ∧
    ((v.removeFrom a).run env i).result = (a.remove.run env (i + 1)).result := by
  have hvolume : a.removeVolume v.m_Ordinal = pure .ok := if_pos hlast
  rw [Volume.removeFrom, (run_shellEx_bind env i _ 1 0 _).1, (run_shellEx_bind env i _ 1 0 _).2,
    if_pos hstop, if_pos rfl, hvolume, hlast]
  exact ⟨rfl, rfl⟩

/-- A volume that is not the last one is removed with one command, whose status the call returns. -/
theorem removeVolume_run (env : SysEnv) (i : Nat) (hlast : a.m_Volumes.length ≠ 1)
    (ordinal : UInt32) :
    ((a.removeVolume ordinal).run env i).trace =
      [⟨.shell (.killSubarray ordinal.toNat a.m_DevName),
        env i (.shell (.killSubarray ordinal.toNat a.m_DevName))⟩] ∧
    ((a.removeVolume ordinal).run env i).result =
      .ok (if exitOf env i (.killSubarray ordinal.toNat a.m_DevName) = 0 then .ok
        else .failed) := by
  rw [ListedArray.removeVolume, if_neg hlast, (run_shellEx_bind env i _ 1 0 _).1,
    (run_shellEx_bind env i _ 1 0 _).2]
  by_cases hkill : exitOf env i (.killSubarray ordinal.toNat a.m_DevName) = 0
  · simp [hkill]
  · simp [hkill]

/-- The volume is stopped, and it is not the only one: its subarray is killed. -/
theorem removeFrom_run_of_others (hstop : exitOf env i (.stop v.m_DevName) = 0)
    (hlast : a.m_Volumes.length ≠ 1) :
    ((v.removeFrom a).run env i).trace =
      ⟨.shell (.stop v.m_DevName), env i (.shell (.stop v.m_DevName))⟩ ::
        ⟨.shell (.killSubarray v.m_Ordinal.toNat a.m_DevName),
          env (i + 1) (.shell (.killSubarray v.m_Ordinal.toNat a.m_DevName))⟩ ::
        (if exitOf env (i + 1) (.killSubarray v.m_Ordinal.toNat a.m_DevName) = 0 ∧
            a.m_Volumes.length = 0 then (a.remove.run env (i + 2)).trace else []) ∧
    ((v.removeFrom a).run env i).result =
      if exitOf env (i + 1) (.killSubarray v.m_Ordinal.toNat a.m_DevName) = 0 then
        if a.m_Volumes.length = 0 then (a.remove.run env (i + 2)).result else .ok .ok
      else .ok .failed := by
  obtain ⟨htrace, hresult⟩ := removeVolume_run env (i + 1) hlast v.m_Ordinal
  rw [Volume.removeFrom, (run_shellEx_bind env i _ 1 0 _).1, (run_shellEx_bind env i _ 1 0 _).2,
    if_pos hstop, if_pos rfl, Prog.run_bind_ok env (i + 1) hresult, htrace]
  by_cases hkill : exitOf env (i + 1) (.killSubarray v.m_Ordinal.toNat a.m_DevName) = 0
  · by_cases hnone : a.m_Volumes.length = 0
    · simp [hkill, hnone]
    · have hmany : a.m_Volumes.length > 1 := by omega
      simp [hkill, hnone, hmany]
  · simp [hkill]

/-- A stop of the volume that fails keeps it. -/
theorem deletesAtomically_of_stop_fails (hstop : exitOf env i (.stop v.m_DevName) ≠ 0) :
    DeletesAtomically v a ((v.removeFrom a).run env i).trace
      ((v.removeFrom a).run env i).result := by
  obtain ⟨htrace, hresult⟩ := removeFrom_run_of_stop_fails (a := a) hstop
  rw [htrace, hresult]
  refine ⟨fun hok => ?_, fun _ => ?_⟩
  · cases Except.ok.inj hok
  · rw [Presence.after_cons_shell, if_neg hstop]
    rfl

/-- What a volume that has been stopped leaves for the commands behind the stop. -/
theorem running_after_stop (hstop : exitOf env i (.stop v.m_DevName) = 0) :
    (if exitOf env i (.stop v.m_DevName) = 0 then
        Presence.active.step v a.toRaidArray (.stop v.m_DevName)
      else .active).running = false := by
  rw [if_pos hstop]
  simp [Presence.step]

/-- A removal of the container, behind commands that have stopped the volume. -/
theorem deletesAtomically_remove_iff {p : Presence} {tr : List SysEvent} (hp : p.running = false)
    (htr : Presence.active.after v a.toRaidArray tr =
      p.after v a.toRaidArray (a.remove.run env i).trace) :
    DeletesAtomically v a tr (a.remove.run env i).result ↔
      a.toRaidArray.StopsAndClears env 4 i := by
  have hresult := @RaidArray.run_removeRounds a.toRaidArray env 4 i
  constructor
  · intro hatomic
    by_contra hrounds
    refine not_deletesAtomically ?_ ?_ hatomic
    · rw [htr]
      exact Presence.after_removeRounds_running hp 4 i
    · exact fun hok => hrounds (hresult.mp hok)
  · intro hrounds
    have hgone := Presence.after_removeRounds_of_stopsAndClears (v := v) (p := p) hrounds
    refine ⟨fun _ => ?_, fun hfails => absurd (hresult.mpr hrounds) hfails⟩
    rw [htr]
    exact ⟨hgone.1, fun _ => hgone.2⟩

/-- The last volume is deleted atomically iff its whole container is stopped and cleared. -/
theorem deletesAtomically_of_last (hstop : exitOf env i (.stop v.m_DevName) = 0)
    (hlast : a.m_Volumes.length = 1) :
    DeletesAtomically v a ((v.removeFrom a).run env i).trace
        ((v.removeFrom a).run env i).result ↔
      a.toRaidArray.StopsAndClears env 4 (i + 1) := by
  obtain ⟨htrace, hresult⟩ := removeFrom_run_of_last hstop hlast
  rw [htrace, hresult]
  apply deletesAtomically_remove_iff (running_after_stop hstop)
  exact Presence.after_cons_shell env i _ _

/-- One of several volumes is deleted atomically iff the one command succeeds, and where no volume is
left the container goes too. -/
theorem deletesAtomically_of_others (hstop : exitOf env i (.stop v.m_DevName) = 0)
    (hlast : a.m_Volumes.length ≠ 1) :
    DeletesAtomically v a ((v.removeFrom a).run env i).trace
        ((v.removeFrom a).run env i).result ↔
      exitOf env (i + 1) (.killSubarray v.m_Ordinal.toNat a.m_DevName) = 0 ∧
        (a.m_Volumes.length = 0 → a.toRaidArray.StopsAndClears env 4 (i + 2)) := by
  obtain ⟨htrace, hresult⟩ := removeFrom_run_of_others hstop hlast
  have hstopped := running_after_stop (a := a) hstop
  rw [htrace, hresult]
  by_cases hkill : exitOf env (i + 1) (.killSubarray v.m_Ordinal.toNat a.m_DevName) = 0
  · by_cases hnone : a.m_Volumes.length = 0
    · simp only [hkill, hnone, and_self, if_true, true_and, forall_const]
      refine deletesAtomically_remove_iff ?_ (by rw [Presence.after_cons_shell,
        Presence.after_cons_shell, if_pos hkill])
      exact hstopped
    · simp only [hnone, and_false, if_false, hkill, true_and, false_implies, iff_true]
      refine ⟨fun _ => ⟨?_, fun hone => absurd hone hlast⟩, fun hfails => absurd rfl hfails⟩
      rw [Presence.after_cons_shell, Presence.after_cons_shell, if_pos hkill]
      simp [Presence.step]
  · simp only [hkill, false_and, if_false, iff_false]
    apply not_deletesAtomically
    · rw [Presence.after_cons_shell, Presence.after_cons_shell, if_neg hkill]
      exact hstopped
    · simp

/-- A deletion has all of its effects or none iff the volume is not stopped, or everything that has to
follow the stop succeeds. What has to follow depends on whether other volumes remain in the container:
if they do, the subarray of the volume is killed; if not, the container is stopped and the metadata of
its members cleared, in one of at most four rounds. -/
theorem deletesAtomically_iff (v : Volume) (a : ListedArray) (env : SysEnv) (i : Nat) :
    DeletesAtomically v a ((v.remove (some a)).run env i).trace
        ((v.remove (some a)).run env i).result ↔ DeletionFits v a env i := by
  show DeletesAtomically v a ((v.removeFrom a).run env i).trace
    ((v.removeFrom a).run env i).result ↔ _
  unfold DeletionFits
  by_cases hstop : exitOf env i (.stop v.m_DevName) = 0
  · simp only [hstop, forall_const]
    split
    next hlast => exact deletesAtomically_of_last hstop hlast
    next hlast => exact deletesAtomically_of_others hstop hlast
  · simp only [hstop, false_implies, iff_true]
    exact deletesAtomically_of_stop_fails hstop

end deletion

/-- The mirror and a second volume in its container. -/
def samplePair : ListedArray :=
  ⟨sampleArray, [Volume.sampleMirror,
      { Volume.sampleMirror with m_DevName := .ofLit "md125", m_Ordinal := 1 }],
    [⟨sampleDisk (.ofLit "sda") .arrayMember, 4096, 512, false, []⟩,
      ⟨sampleDisk (.ofLit "sdb") .arrayMember, 4096, 512, false, []⟩], rfl⟩

/-- No subarray can be killed; all other commands exit with 0. -/
def sampleKillFails : SysEnv
  | _, .shell (.killSubarray _ _) => ⟨1, [], []⟩
  | _, .shell _ => ⟨0, [], []⟩
  | _, .readMap => ⟨none, [], fun path => path⟩
  | _, .readAttribute _ => none
  | _, .stat _ => true
  | _, .appendConfig _ => none

/-- The mirror is stopped, its subarray is not killed, and it is not assembled again. -/
theorem not_deletesAtomically_pair :
    ¬ ∀ (v : Volume) (a : ListedArray) (env : SysEnv) (i : Nat), v ∈ a.m_Volumes →
      DeletesAtomically v a ((v.remove (some a)).run env i).trace
        ((v.remove (some a)).run env i).result := by
  intro h
  have hatomic := h Volume.sampleMirror samplePair sampleKillFails 0 List.mem_cons_self
  have hkill := ((deletesAtomically_of_others rfl (by decide)).mp hatomic).1
  exact absurd hkill (by decide)

end Irstessi
