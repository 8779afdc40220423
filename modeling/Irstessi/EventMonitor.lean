import Irstessi.Lib.Interact
import Mathlib.Logic.Function.Basic

/-!
# The steps of the event monitor

`ssieventmonitor` keeps the membership of the containers as it was read last and the time before, and
starts `ssimsg`, which notifies the clients, when it takes them to have changed.

* `ContainerSets`: the two sets of containers, over any type of sets.
* `handleMdstat`, `handleInotify`: the two handlers as programs, which read the membership at an
  instant that the environment chooses; `handleAll`: the handlers that the loop runs.
* `MonitorStep`, `stepsFrom`: the handler steps of a run, each with the sets it starts from and the
  instant of its first call.
* `MonitorStep.Notifies`: a notification follows the reading of a new membership.
* **`neverSwallows_iff`**: all steps of a run notify iff no inotify step ends on a membership that is
  new to the monitor.

A run of the monitor is a list of turns, and a turn a list of handler steps; the environment chooses the
membership that each reading finds, so that changes between two readings are covered. The step lemma
says what a handler does with the two sets: the handler of mdstat compares what it has read with what
was there before, while the handler of inotify may read and record a membership without telling anybody.
The result on runs is about all steps that a run comes by (`stepsFrom`), each with the sets that it
starts from.
-/

namespace Irstessi

open Interact

/-! ## The sets of containers -/

/-- The array `containers` with its two sets, and the index of the current one.
Source: `ssieventmonitor.cpp` `containers`, `current` -/
structure ContainerSets (T : Type) where
  containers : Bool → T
  current : Bool

namespace ContainerSets

variable {T : Type} (s : ContainerSets T)

/-- Source: `ssieventmonitor.cpp` `_get_current_container` -/
def getCurrentContainer : T := s.containers s.current

/-- Source: `ssieventmonitor.cpp` `_get_other_container` -/
def getOtherContainer : T := s.containers (!s.current)

/-- Source: `ssieventmonitor.cpp` `_switch_current` -/
def switchCurrent : ContainerSets T := { s with current := !s.current }

/-- What `f` does to the current set. -/
def modifyCurrent (f : T → T) : ContainerSets T :=
  { s with containers := Function.update s.containers s.current (f s.getCurrentContainer) }

/-- What `f` does to the other set. -/
def modifyOther (f : T → T) : ContainerSets T :=
  { s with containers := Function.update s.containers (!s.current) (f s.getOtherContainer) }

/-- The other set is cleared, becomes the current one and takes what is read.
Source: `ssieventmonitor.cpp` `_read_mdstat` -/
def readMdstat (clear collect : T → T) : ContainerSets T :=
  ((s.modifyOther clear).switchCurrent).modifyCurrent collect

/-- What is read from mdstat becomes the current membership; it is collected into the set that was the
other one. -/
@[simp] theorem getCurrentContainer_readMdstat (clear collect : T → T) :
    (s.readMdstat clear collect).getCurrentContainer = collect (clear s.getOtherContainer) := by
  simp [readMdstat, modifyCurrent, modifyOther, switchCurrent, getCurrentContainer]

/-- The membership that was current is the other one after a reading, so that the two can be
compared. -/
@[simp] theorem getOtherContainer_readMdstat (clear collect : T → T) :
    (s.readMdstat clear collect).getOtherContainer = s.getCurrentContainer := by
  simp [readMdstat, modifyCurrent, modifyOther, switchCurrent, getCurrentContainer,
    getOtherContainer]

end ContainerSets

/-! ## The handlers -/

/-- What the monitor asks of its environment. -/
inductive MonitorCall
  /-- `/proc/mdstat` is read. -/
  | mdstat
  /-- `ssimsg` is started and waited for. -/
  | execSsimsg
  /-- The inotify handle is read. -/
  | inotify
  deriving DecidableEq, Repr

/-- The answers: the membership of the instant, a status, and the watch numbers of the events in the
buffer, none where the handle cannot be read. -/
abbrev MonitorCall.Reply (M : Type) : MonitorCall → Type
  | .mdstat => M
  | .execSsimsg => Int
  | .inotify => Option (List Int)

/-- A program of the monitor, with memberships from `M`. -/
abbrev MonitorProg (M : Type) : Type → Type :=
  Prog MonitorCall (MonitorCall.Reply M) Empty Empty

section handlers

variable {M : Type}

/-- Source: `ssieventmonitor.cpp` `_exec_ssimsg` -/
def execSsimsg : MonitorProg M Int := Prog.request MonitorCall.execSsimsg

/-- The membership that is read replaces what was recorded before the last time.
Source: `ssieventmonitor.cpp` `_read_mdstat` -/
def readMembership (s : ContainerSets M) : MonitorProg M (ContainerSets M) := do
  let membership ← Prog.request MonitorCall.mdstat
  return s.readMdstat id fun _ => membership

/-- Source: `ssieventmonitor.cpp` `_members_changed` -/
def membersChanged [DecidableEq M] (s : ContainerSets M) : Bool :=
  s.getCurrentContainer ≠ s.getOtherContainer

/-- Source: `ssieventmonitor.cpp` `_handle_mdstat` -/
def handleMdstat [DecidableEq M] (s : ContainerSets M) : MonitorProg M (ContainerSets M × Int) := do
  let s ← readMembership s
  if membersChanged s then
    let status ← execSsimsg
    return (s, status)
  return (s, 0)

/-- The loop over the events in the buffer. Those with number 0 are passed over first.
Source: `ssieventmonitor.cpp` `_handle_inotify`, `while(i < read_count)` -/
def doReadEvents (watchFd : Int) (s : ContainerSets M) : List Int → MonitorProg M (ContainerSets M)
  | [] => return s
  | wd :: events =>
      if wd = 0 then doReadEvents watchFd s events
      else if wd = watchFd then do
        let _ ← execSsimsg
        let s ← readMembership s
        doReadEvents watchFd s events
      else doReadEvents watchFd s events

/-- The number of events that `doReadEvents` acts on. -/
def watchedEvents (watchFd : Int) (events : List Int) : Nat :=
  if watchFd = 0 then 0 else events.count watchFd

/-- Source: `ssieventmonitor.cpp` `_handle_inotify` -/
def handleInotify (watchFd : Int) (s : ContainerSets M) : MonitorProg M (ContainerSets M × Int) := do
  match ← (Prog.request MonitorCall.inotify : MonitorProg M (Option (List Int))) with
  | none => return (s, 1)
  | some events =>
      let s ← doReadEvents watchFd s events
      return (s, 0)

/-- The two handlers. -/
inductive MonitorHandler
  | mdstat
  | inotify
  deriving DecidableEq, Repr

/-- One step of the monitor. -/
def MonitorHandler.handle [DecidableEq M] (watchFd : Int) (s : ContainerSets M) :
    MonitorHandler → MonitorProg M (ContainerSets M × Int)
  | .mdstat => handleMdstat s
  | .inotify => handleInotify watchFd s

/-- The handlers that run in the turns of the loop, by what `pselect` returns in each of them: the
number of handles that are ready, and whether those of mdstat and of inotify are set. A negative
number ends the loop.
Source: `ssieventmonitor.cpp` `_handle_all` -/
def handleAll : List (Int × Bool × Bool) → List MonitorHandler
  | [] => []
  | (ready, statFd, inotFd) :: turns =>
      if ready < 0 then []
      else (if statFd || ready = 0 then [.mdstat] else []) ++ (if inotFd then [.inotify] else []) ++
        handleAll turns

end handlers

/-! ## Steps of a run -/

/-- A handler step: the sets before it, the instant of its first call, and the handler. -/
structure MonitorStep (M : Type) where
  sets : ContainerSets M
  instant : Nat
  handler : MonitorHandler

section steps

variable {M : Type} [DecidableEq M] (watchFd : Int)
  (env : Env MonitorCall (MonitorCall.Reply M))

namespace MonitorStep

/-- The run of the step. -/
def run (st : MonitorStep M) :
    Run MonitorCall (MonitorCall.Reply M) Empty Empty (ContainerSets M × Int) :=
  (st.handler.handle watchFd st.sets).run env st.instant

/-- The sets after the step. -/
def after (st : MonitorStep M) : ContainerSets M :=
  match (st.run watchFd env).result with
  | .ok (s, _) => s
  | .error e => e.elim

/-- Where the recorded membership is another one than before the step, it was read for the last time
before a notification of the step. -/
def Notifies (st : MonitorStep M) : Prop :=
  (st.after watchFd env).getCurrentContainer ≠ st.sets.getCurrentContainer →
    ∃ before behind status,
      (st.run watchFd env).trace =
        before ++ ⟨.mdstat, (st.after watchFd env).getCurrentContainer⟩ :: behind ∧
      (∀ e ∈ behind, e.1 ≠ .mdstat) ∧ ⟨.execSsimsg, status⟩ ∈ behind

/-- The number of events of the watched directory among those that the step reads. -/
def watched (st : MonitorStep M) : Nat :=
  match st.handler, env st.instant .inotify with
  | .inotify, some events => watchedEvents watchFd events
  | _, _ => 0

/-- An inotify step with events of the watched directory finds, when it reads the membership for the
last of them, the one that was recorded before the step. The reading for the first event is the third
call of the step, and each further one is two calls later. -/
def EndsOnRecorded (st : MonitorStep M) : Prop :=
  st.watched watchFd env ≠ 0 →
    env (st.instant + 2 * st.watched watchFd env) .mdstat = st.sets.getCurrentContainer

end MonitorStep

/-- The steps of a run of the handlers from an instant on. -/
def stepsFrom : List MonitorHandler → ContainerSets M → Nat → List (MonitorStep M)
  | [], _, _ => []
  | handler :: handlers, s, i =>
      let st : MonitorStep M := ⟨s, i, handler⟩
      st :: stepsFrom handlers (st.after watchFd env) (i + (st.run watchFd env).trace.length)

/-! ## What the steps do -/

omit [DecidableEq M] in
/-- The loop ends with the reading for the last event of the watched directory. -/
theorem doReadEvents_run (events : List Int) (s : ContainerSets M) (i : Nat) :
    ∃ s', ((doReadEvents watchFd s events).run env i).result = .ok s' ∧
      (watchedEvents watchFd events = 0 →
        s' = s ∧ ((doReadEvents watchFd s events).run env i).trace = []) ∧
      (watchedEvents watchFd events ≠ 0 →
        s'.getCurrentContainer = env (i + 2 * watchedEvents watchFd events - 1) .mdstat ∧
        ∃ before, ((doReadEvents watchFd s events).run env i).trace =
          before ++ [⟨.mdstat, s'.getCurrentContainer⟩]) := by
  induction events generalizing s i with
  | nil => exact ⟨s, rfl, fun _ => ⟨rfl, rfl⟩, fun h => by simp [watchedEvents] at h⟩
  | cons wd events ih =>
      by_cases hact : wd ≠ 0 ∧ wd = watchFd
      · obtain ⟨hwd, rfl⟩ := hact
        have hcount : watchedEvents wd (wd :: events) = watchedEvents wd events + 1 := by
          simp [watchedEvents, hwd]
        have hstep : doReadEvents wd s (wd :: events) =
            (Prog.call .execSsimsg fun _ => .call .mdstat fun m =>
              doReadEvents wd (s.readMdstat id fun _ => m) events) := by
          rw [doReadEvents, if_neg hwd, if_pos rfl]
          rfl
        obtain ⟨s', hresult, hnone, hsome⟩ :=
          ih (s.readMdstat id fun _ => env (i + 1) .mdstat) (i + 2)
        rw [hstep, hcount]
        simp only [Prog.run_call]
        refine ⟨s', hresult, fun h => absurd h (Nat.succ_ne_zero _), fun _ => ?_⟩
        by_cases hmore : watchedEvents wd events = 0
        · obtain ⟨rfl, htrace⟩ := hnone hmore
          have hcurrent : (s.readMdstat id fun _ => env (i + 1) .mdstat).getCurrentContainer =
              env (i + 1) .mdstat := s.getCurrentContainer_readMdstat id _
          refine ⟨?_, [⟨.execSsimsg, env i .execSsimsg⟩], ?_⟩
          · rw [hcurrent, hmore]
            rfl
          · rw [hcurrent, htrace]
            rfl
        · obtain ⟨hcurrent, before, htrace⟩ := hsome hmore
          refine ⟨?_, ⟨.execSsimsg, env i .execSsimsg⟩ :: ⟨.mdstat, env (i + 1) .mdstat⟩ :: before, ?_⟩
          · have hinstant : i + 2 * (watchedEvents wd events + 1) - 1 =
                i + 2 + 2 * watchedEvents wd events - 1 := by omega
            rw [hcurrent, hinstant]
          · rw [htrace]
            rfl
      · have hcount : watchedEvents watchFd (wd :: events) = watchedEvents watchFd events := by
          unfold watchedEvents
          by_cases hfd : watchFd = 0
          · simp [hfd]
          · have hne : wd ≠ watchFd := fun h => hact ⟨h ▸ hfd, h⟩
            rw [if_neg hfd, if_neg hfd, List.count_cons_of_ne hne]
        have hstep : doReadEvents watchFd s (wd :: events) = doReadEvents watchFd s events := by
          rw [doReadEvents]
          by_cases hwd : wd = 0
          · rw [if_pos hwd]
          · rw [if_neg hwd, if_neg fun h => hact ⟨hwd, h⟩]
        rw [hstep, hcount]
        exact ih s i

namespace MonitorStep

variable {watchFd env}

omit [DecidableEq M] in
/-- A row of calls that ends with a reading has no notification behind its last reading. -/
theorem not_notified (tr : List (Event MonitorCall (MonitorCall.Reply M)))
    {before behind : List (Event MonitorCall (MonitorCall.Reply M))} {m m' : M} {status : Int}
    (htrace : tr ++ [⟨.mdstat, m⟩] = before ++ ⟨.mdstat, m'⟩ :: behind)
    (hreads : ∀ e ∈ behind, e.1 ≠ .mdstat) : ⟨.execSsimsg, status⟩ ∉ behind := by
  intro hexec
  have hne : behind ≠ [] := List.ne_nil_of_mem hexec
  have hlast := congrArg List.getLast? htrace
  rw [List.getLast?_concat, List.getLast?_append, List.getLast?_cons,
    List.getLast?_eq_some_getLast hne] at hlast
  simp only [Option.getD_some, Option.some_or, Option.some.injEq] at hlast
  apply hreads _ (List.getLast_mem hne)
  rw [← hlast]

/-- A step of `handleMdstat` compares behind its reading. -/
theorem notifies_mdstat (s : ContainerSets M) (i : Nat) :
    (⟨s, i, .mdstat⟩ : MonitorStep M).Notifies watchFd env := by
  have hcurrent : (s.readMdstat id fun _ => env i .mdstat).getCurrentContainer = env i .mdstat :=
    s.getCurrentContainer_readMdstat id _
  have hother : (s.readMdstat id fun _ => env i .mdstat).getOtherContainer =
      s.getCurrentContainer := s.getOtherContainer_readMdstat id _
  have hprog : handleMdstat s = Prog.call .mdstat fun m =>
      if membersChanged (s.readMdstat id fun _ => m) then
        Prog.call .execSsimsg fun status => pure (s.readMdstat id fun _ => m, status)
      else pure (s.readMdstat id fun _ => m, 0) := rfl
  unfold Notifies after run MonitorHandler.handle
  dsimp only
  rw [hprog, Prog.run_call]
  by_cases hnew : env i .mdstat = s.getCurrentContainer
  · have hsame : membersChanged (s.readMdstat id fun _ => env i .mdstat) = false := by
      simp [membersChanged, hnew]
    simp only [hsame, Bool.false_eq_true, if_false, Prog.run_pure]
    intro hchange
    rw [hcurrent] at hchange
    exact absurd hnew hchange
  · have hchanged : membersChanged (s.readMdstat id fun _ => env i .mdstat) = true := by
      simp [membersChanged, hcurrent, hother, hnew]
    simp only [hchanged, if_true, Prog.run_call, Prog.run_pure]
    intro _
    refine ⟨[], [⟨.execSsimsg, env (i + 1) .execSsimsg⟩], env (i + 1) .execSsimsg, ?_, ?_, ?_⟩
    · rw [hcurrent]
      rfl
    · intro e he
      rw [List.mem_singleton.mp he]
      exact nofun
    · exact List.mem_singleton_self _

/-- A step of `handleInotify` reads behind its notifications. -/
theorem notifies_inotify_iff (s : ContainerSets M) (i : Nat) :
    (⟨s, i, .inotify⟩ : MonitorStep M).Notifies watchFd env ↔
      (⟨s, i, .inotify⟩ : MonitorStep M).EndsOnRecorded watchFd env := by
  unfold Notifies EndsOnRecorded watched after run MonitorHandler.handle handleInotify
  dsimp only
  rw [Prog.request_bind, Prog.run_call]
  rcases hevents : env i .inotify with _ | events
  · simp
  · dsimp only
    obtain ⟨s', hresult, hnone, hsome⟩ :=
      doReadEvents_run watchFd env events s (i + 1)
    rw [Prog.run_bind_ok _ _ hresult, Prog.run_pure, List.append_nil]
    dsimp only
    by_cases hwatched : watchedEvents watchFd events = 0
    · obtain ⟨rfl, -⟩ := hnone hwatched
      exact iff_of_true (fun h => absurd rfl h) fun h => absurd hwatched h
    · obtain ⟨hcurrent, before, htrace⟩ := hsome hwatched
      have hinstant : i + 1 + 2 * watchedEvents watchFd events - 1 =
          i + 2 * watchedEvents watchFd events := by omega
      rw [hinstant] at hcurrent
      rw [htrace, ← hcurrent]
      constructor
      · intro hnotifies _
        by_contra hchange
        obtain ⟨before', behind, status, heq, hreads, hexec⟩ := hnotifies hchange
        exact not_notified (⟨.inotify, some events⟩ :: before) heq hreads hexec
      · intro hrecorded hchange
        exact absurd (hrecorded hwatched) hchange

/-- A step notifies iff it does not end on a membership that its own reading made known. -/
theorem notifies_iff (st : MonitorStep M) :
    st.Notifies watchFd env ↔ st.EndsOnRecorded watchFd env := by
  obtain ⟨s, i, handler⟩ := st
  cases handler with
  | mdstat => exact iff_of_true (notifies_mdstat s i) fun h => absurd rfl h
  | inotify => exact notifies_inotify_iff s i

end MonitorStep

/-- Every step of the loop is that of one of the handlers that it was started with. -/
theorem handler_mem_of_mem_stepsFrom {handlers : List MonitorHandler} {s : ContainerSets M} {i : Nat}
    {st : MonitorStep M} (h : st ∈ stepsFrom watchFd env handlers s i) : st.handler ∈ handlers := by
  induction handlers generalizing s i with
  | nil => exact absurd h List.not_mem_nil
  | cons handler handlers ih =>
      rcases List.mem_cons.mp h with rfl | h
      · exact List.mem_cons_self
      · exact List.mem_cons_of_mem _ (ih h)

/-- For every environment and every sequence of handler steps: a notification follows the reading of
a new membership in all of them iff every inotify step reads, for the last event of the watched
directory, the membership that was recorded before. -/
theorem neverSwallows_iff (watchFd : Int) (env : Env MonitorCall (MonitorCall.Reply M))
    (handlers : List MonitorHandler) (s : ContainerSets M) (i : Nat) :
    (∀ st ∈ stepsFrom watchFd env handlers s i, st.Notifies watchFd env) ↔
      ∀ st ∈ stepsFrom watchFd env handlers s i, st.EndsOnRecorded watchFd env :=
  forall₂_congr fun st _ => st.notifies_iff

/-- The membership changes, and its change shows in the directory: the step of the event notifies
before it reads. -/
theorem not_neverSwallows_device :
    ¬ ∀ st ∈ stepsFrom (M := List String) 1
        (fun _ c => match c with
          | .mdstat => ["sda"]
          | .execSsimsg => 0
          | .inotify => some [1])
        [.inotify] ⟨fun _ => [], true⟩ 0,
      st.Notifies 1 fun _ c => match c with
          | .mdstat => ["sda"]
          | .execSsimsg => 0
          | .inotify => some [1] := by
  intro h
  have hends := (MonitorStep.notifies_inotify_iff _ _).mp (h _ List.mem_cons_self)
  have hsame : ["sda"] = [] := hends (by decide)
  exact absurd hsame (by simp)

/-- As long as `poll` reports nothing on the inotify descriptor only the handler of mdstat is called. -/
theorem mem_handleAll_of_no_inotify {turns : List (Int × Bool × Bool)} {handler : MonitorHandler}
    (hturns : ∀ turn ∈ turns, turn.2.2 = false) (h : handler ∈ handleAll turns) :
    handler = .mdstat := by
  induction turns with
  | nil => exact absurd h List.not_mem_nil
  | cons turn turns ih =>
      obtain ⟨ready, statFd, inotFd⟩ := turn
      obtain rfl : inotFd = false := hturns _ List.mem_cons_self
      rw [handleAll] at h
      split at h
      · exact absurd h List.not_mem_nil
      · rw [List.mem_append, List.mem_append] at h
        rcases h with (h | h) | h
        · split at h
          · exact List.mem_singleton.mp h
          · exact absurd h List.not_mem_nil
        · exact absurd h List.not_mem_nil
        · exact ih (fun turn hturn => hturns turn (List.mem_cons_of_mem _ hturn)) h

/-- A loop in which no event of the directory comes in notifies of every change. -/
theorem notifies_of_no_inotify {turns : List (Int × Bool × Bool)} {s : ContainerSets M} {i : Nat}
    {st : MonitorStep M} (hturns : ∀ turn ∈ turns, turn.2.2 = false)
    (h : st ∈ stepsFrom watchFd env (handleAll turns) s i) : st.Notifies watchFd env := by
  have hhandler := mem_handleAll_of_no_inotify hturns (handler_mem_of_mem_stepsFrom watchFd env h)
  obtain ⟨s, i, handler⟩ := st
  obtain rfl : handler = .mdstat := hhandler
  exact MonitorStep.notifies_mdstat s i

end steps

end Irstessi
