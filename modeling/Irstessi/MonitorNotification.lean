import Irstessi.Notification

/-!
# The event monitor among the clients

The monitor runs `ssimsg` for each change that it sees. Here the handlers of the monitor make the calls
of the system, with the calls of `ssimsg` among them, while clients and other monitors run.

* `Monitor.execSsimsg`: `ssimsg` is looked for, run and waited for; `monitorCall`: what the calls of the
  handlers stand for.
* `Monitor.runHandlers`: the handlers one after the other.
* **`taken_behind_change`**: a wait that ends behind a handler which has recorded a change and has run
  `ssimsg` with success has not timed out, unless the notification was taken behind the reading.
* **`posted_le_monitors`**: no set has a greater value than there are monitors and notifiers, and over a
  run the posts to a set are as many as what is taken from it, and at most one more for each of them.

A monitor is one more program of the pool of `Notification`, with its tables as the state between two
handlers. The calls of the handlers are those of `EventMonitor`; to run `ssimsg` is to make the calls of
its `main`, where the path that is run can be executed. So the first result follows from the one on
notifications, once it is shown that a recorded change with an exit status of 0 contains a notification
that has succeeded. For the second, a monitor posts only behind a reading of 0, which its handlers do
not do by any other way than `ssimsg`.
-/

namespace Irstessi

open Interact

namespace Monitor

variable {M : Type}

/-- The first path under which there is a program is run.
Source: `ssieventmonitor.cpp` `_exec_ssimsg`, the loop over `paths` -/
def execPaths : List String → SystemProc M Bool
  | [] => return false
  | path :: paths => do
      if ← (Prog.request (SystemCall.execve path) : SystemProc M Bool) then return true
      execPaths paths

/-- The paths that are tried; the first one is put together in a buffer.
Source: `ssieventmonitor.cpp` `_exec_ssimsg`, `paths` -/
def ssimsgPaths (buffer : String) : List String :=
  [buffer, "/usr/local/bin/ssimsg", "/usr/bin/ssimsg", "/bin/ssimsg", "ssimsg"]

/-- The status that `wait` gives for a program that has ended with a number: its 8 low bits, shifted. -/
def waitStatus (rv : Int) : Int := rv % 256 * 256

/-- The child that has found no program returns as the monitor, which is still suspended.
Source: `ssieventmonitor.cpp` `_exec_ssimsg` -/
def execSsimsg (buffer : String) : SystemProc M Int := do
  if !(← (Prog.request SystemCall.vfork : SystemProc M Bool)) then return 1
  if !(← execPaths (ssimsgPaths buffer)) then return 1
  let rv ← Ssimsg.main
  if !(← (Prog.request SystemCall.wait : SystemProc M Bool)) then return 1
  return if waitStatus rv ≠ 0 then 1 else 0

/-- What the calls of the handlers are made of. -/
def monitorCall (buffer : String) : (c : MonitorCall) → SystemProc M (MonitorCall.Reply M c)
  | .mdstat => Prog.request SystemCall.mdstat
  | .execSsimsg => execSsimsg buffer
  | .inotify => Prog.request SystemCall.inotify

/-- The handlers that the loop runs.
Source: `ssieventmonitor.cpp` `_handle_all` -/
def runHandlers [DecidableEq M] (watchFd : Int) :
    List MonitorHandler → ContainerSets M → MonitorProg M (ContainerSets M)
  | [], s => return s
  | handler :: handlers, s => do
      let (s, _) ← handler.handle watchFd s
      runHandlers watchFd handlers s

end Monitor

/-! ## What running `ssimsg` does -/

section exec

variable {M : Type} {tr : List (Event (SystemCall M) (SystemCall.Reply M))}

/-- The calls of `ssimsg` are in the middle of a run of it that ends with 0, and it has ended with 0. -/
theorem execSsimsg_ended {buffer : String}
    (h : (Monitor.execSsimsg buffer).Makes tr (pure 0)) :
    ∃ before main behind, tr = before ++ main ++ behind ∧ Ssimsg.main.Makes main (pure 0) := by
  unfold Monitor.execSsimsg at h
  rw [Prog.request_bind] at h
  obtain ⟨forked, rest, rfl, h₁⟩ := Prog.makes_call_pure_iff.mp h
  split at h₁
  · exact absurd (Prog.makes_pure_iff.mp h₁).2 (by simp [pure])
  obtain ⟨found, before, rest, rfl, -, h₂⟩ := Prog.makes_bind_pure_iff.mp h₁
  split at h₂
  · exact absurd (Prog.makes_pure_iff.mp h₂).2 (by simp [pure])
  obtain ⟨rv, main, behind, rfl, hmain, h₃⟩ := Prog.makes_bind_pure_iff.mp h₂
  refine ⟨⟨.vfork, forked⟩ :: before, main, behind, by simp, ?_⟩
  rw [Prog.request_bind] at h₃
  obtain ⟨waited, rest, rfl, h₄⟩ := Prog.makes_call_pure_iff.mp h₃
  split at h₄
  · exact absurd (Prog.makes_pure_iff.mp h₄).2 (by simp [pure])
  have hstatus : (if Monitor.waitStatus rv ≠ 0 then 1 else 0 : Int) = 0 :=
    (Prog.pure.inj (Prog.makes_pure_iff.mp h₄).2).symm
  rcases main_result hmain with rfl | rfl
  · exact hmain
  · exact absurd hstatus (by decide)

/-- A handler that records a change and ends with 0 has read it, and has then run `ssimsg` with
success. -/
theorem handleMdstat_ended [DecidableEq M] {buffer : String} {s s' : ContainerSets M}
    (h : ((handleMdstat s).translate (Monitor.monitorCall buffer)).Makes tr (pure (s', 0)))
    (hchange : s'.getCurrentContainer ≠ s.getCurrentContainer) :
    ∃ before main behind,
      tr = ⟨.mdstat, s'.getCurrentContainer⟩ :: (before ++ main ++ behind) ∧
        Ssimsg.main.Makes main (pure 0) := by
  have hprog : (handleMdstat s).translate (Monitor.monitorCall buffer) =
      Prog.call SystemCall.mdstat fun m => Prog.translate (Monitor.monitorCall buffer)
        (if membersChanged (s.readMdstat id fun _ => m) then
          Prog.call .execSsimsg fun status => pure (s.readMdstat id fun _ => m, status)
        else pure (s.readMdstat id fun _ => m, 0)) := rfl
  rw [hprog] at h
  obtain ⟨m, rest, rfl, hafter⟩ := Prog.makes_call_pure_iff.mp h
  have hcurrent : (s.readMdstat id fun _ => m).getCurrentContainer = m :=
    s.getCurrentContainer_readMdstat id _
  have hother : (s.readMdstat id fun _ => m).getOtherContainer = s.getCurrentContainer :=
    s.getOtherContainer_readMdstat id _
  by_cases hchanged : membersChanged (s.readMdstat id fun _ => m) = true
  · rw [if_pos hchanged, Prog.translate_call] at hafter
    obtain ⟨status, exec, behind, rfl, hexec, hdone⟩ := Prog.makes_bind_pure_iff.mp hafter
    obtain ⟨rfl, heq⟩ := Prog.makes_pure_iff.mp hdone
    obtain ⟨rfl, rfl⟩ := Prod.mk.inj (Prog.pure.inj heq)
    obtain ⟨before, main, behind, rfl, hmain⟩ := execSsimsg_ended hexec
    rw [hcurrent, List.append_nil]
    exact ⟨before, main, behind, rfl, hmain⟩
  · rw [if_neg hchanged] at hafter
    obtain ⟨-, heq⟩ := Prog.makes_pure_iff.mp hafter
    obtain ⟨rfl, -⟩ := Prod.mk.inj (Prog.pure.inj heq)
    exact absurd (decide_eq_true (hother.symm ▸ hchange)) hchanged

end exec

/-! ## A change is delivered -/

section change

variable {M ι : Type} [DecidableEq M] [DecidableEq ι] {α : ι → Type}
  {stat : String → Option (Nat × Nat)} {st st₁ st₂ : Callers M ι α}
  {tr₁ tr₂ : List (Caller ι × Event (SystemCall M) (SystemCall.Reply M))}

/-- The monitor has handled mdstat, with `ssimsg` run successfully, and has recorded a membership that
is another one than before. A wait on the registered set that ends behind this has timed out: behind the
reading of this membership the notification was taken from the set by another wait. -/
theorem taken_behind_change (hs : st.shared.Sound) (h₁ : Callers.Runs stat st tr₁ st₁)
    (h₂ : Callers.Runs stat st₁ tr₂ st₂) {id : Nat} (hid : st.shared.Registered stat id)
    {m w : ι} {buffer : String} {s s' : ContainerSets M} {timeout : BitVec 32}
    (hhandle : ((handleMdstat s).translate (Monitor.monitorCall buffer)).Makes
      (Pool.own (.other m) tr₁) (pure (s', 0)))
    (hchange : s'.getCurrentContainer ≠ s.getCurrentContainer)
    (hwait : st₁.procs (.waiting w) = SemEvent.wait id timeout)
    (htimeout : st₂.procs (.waiting w) = pure .timeout)
    (hkeep : ∀ step ∈ tr₁ ++ tr₂, ¬ Removes id step.2) :
    ∃ before behind, tr₁ = before ++ (.other m, ⟨.mdstat, s'.getCurrentContainer⟩) :: behind ∧
      ∃ step ∈ behind ++ tr₂, delta id step.2 < 0 := by
  obtain ⟨hshared₁, -⟩ := Pool.runs_iff.mp h₁
  obtain ⟨hshared₂, hprocs₂⟩ := Pool.runs_iff.mp h₂
  obtain ⟨first, main, last, hown, hmain⟩ := handleMdstat_ended hhandle hchange
  obtain ⟨before, behind, rfl, hbehind⟩ := Pool.exists_of_own_cons hown
  refine ⟨before, behind, rfl, ?_⟩
  by_contra hnone
  push Not at hnone
  -- the run of `ssimsg` is a part of what comes behind the reading
  rw [List.append_assoc] at hbehind
  obtain ⟨trA, trB, rfl, -, hrest⟩ := Pool.exists_of_own_append hbehind
  obtain ⟨trC, trD, rfl, hownC, -⟩ := Pool.exists_of_own_append hrest
  simp only [List.map_append, List.map_cons, Effects.append_iff, Effects.cons_iff] at hshared₁
  obtain ⟨s₁, hbefore, s₂, hread, s₃, hA, s₄, hC, hD⟩ := hshared₁
  simp only [List.mem_append, List.mem_cons] at hkeep hnone
  have hs₁ := sound_of_effects hbefore hs
  obtain ⟨rfl, -⟩ : s₂ = s₁ ∧ _ := hread
  have hs₃ := sound_of_effects hA hs₁
  have hs₄ := sound_of_effects hC hs₃
  have hid₁ := registered_of_effects hs hid hbefore fun step hstep => hkeep step (.inl (.inl hstep))
  have hid₃ := registered_of_effects hs₁ hid₁ hA fun step hstep =>
    hkeep step (.inl (.inr (.inr (.inl hstep))))
  have hpending₄ := pending_of_main hs₃ hid₃ hC (hownC ▸ hmain)
    (fun step hstep => hkeep step (.inl (.inr (.inr (.inr (.inl hstep))))))
    fun step hstep => hnone step (.inl (.inr (.inl hstep)))
  have hpending := pending_of_effects hs₄ hpending₄ hD
    (fun step hstep => hkeep step (.inl (.inr (.inr (.inr (.inr hstep))))))
    fun step hstep => hnone step (.inl (.inr (.inr hstep)))
  have hmakes := hprocs₂ (.waiting w)
  rw [hwait, htimeout] at hmakes
  obtain ⟨step, hstep, htaken⟩ := not_timeout_of_pending (sound_of_effects hD hs₄) hpending hshared₂
    hmakes fun step hstep => hkeep step (.inr hstep)
  exact absurd (hnone step (.inr hstep)) (not_le.mpr htaken)

/-- A system with one set of the clients' key, and a monitor that has recorded `false`. -/
def Callers.watched : Callers Bool Bool fun _ => ContainerSets Bool × Int where
  shared := ⟨[⟨5, ftokKey (0, 0) KEY_GEN_NUM, 0⟩], true⟩
  procs
    | .registering _ => SemEvent.registerEvent 0
    | .waiting _ => SemEvent.wait 5 0
    | .destroying _ => SemEvent.destroy 5
    | .notifying _ => Ssimsg.main
    | .other _ => (handleMdstat ⟨fun _ => false, true⟩).translate (Monitor.monitorCall "/usr/sbin/")

/-- The monitor sees a change and posts, and two clients wait: one of them takes the notification, the
other one waits for the whole of its time. -/
theorem taken_behind_change_watched :
    ∃ tr : List (Caller Bool × Event (SystemCall Bool) (SystemCall.Reply Bool)),
      (.waiting true, ⟨.semop (5 : Nat) (-1) (some (0, 0)), .error EAGAIN⟩) ∈ tr ∧
      ∃ step ∈ tr, delta 5 step.2 < 0 := by
  have hsound : Callers.watched.shared.Sound :=
    ⟨List.nodup_singleton _, fun a ha b hb _ _ => by
      rw [List.mem_singleton.mp ha, List.mem_singleton.mp hb]⟩
  have hregistered : Callers.watched.shared.Registered (fun _ => some (0, 0)) 5 :=
    ⟨(0, 0), rfl, _, List.mem_singleton_self _, rfl, rfl⟩
  have hruns : ∃ st₁ st₂,
      Callers.Runs (fun _ => some (0, 0)) Callers.watched
        [(.other true, ⟨.mdstat, true⟩), (.other true, ⟨.vfork, true⟩),
          (.other true, ⟨.execve "/usr/sbin/", false⟩),
          (.other true, ⟨.execve "/usr/local/bin/ssimsg", true⟩),
          (.other true, ⟨.ftok KEY_GEN_PATH KEY_GEN_NUM, ftokKey (0, 0) KEY_GEN_NUM⟩),
          (.other true, ⟨.semget (ftokKey (0, 0) KEY_GEN_NUM) false, (5 : Int)⟩),
          (.other true, ⟨.getval 5, (0 : Int)⟩), (.other true, ⟨.semop 5 1 none, .ok ()⟩),
          (.other true, ⟨.wait, true⟩)] st₁ ∧
      Callers.Runs (fun _ => some (0, 0)) st₁
        [(.waiting false, ⟨.semop (5 : Nat) (-1) (some (0, 0)), .ok ()⟩),
          (.waiting true, ⟨.semop (5 : Nat) (-1) (some (0, 0)), .error EAGAIN⟩)] st₂ ∧
      st₁.procs (.other true) =
        Prog.pure ((⟨fun _ => false, true⟩ : ContainerSets Bool).readMdstat id fun _ => true, (0 : Int)) ∧
      st₁.procs (.waiting true) = SemEvent.wait (5 : Nat) 0 ∧
      st₂.procs (.waiting true) = Prog.pure SemEvent.Status.timeout := by
    refine ⟨_, _, .cons rfl ⟨rfl, rfl⟩ (.cons rfl rfl (.cons rfl rfl (.cons rfl rfl
      (.cons rfl ⟨rfl, .inr ⟨(0, 0), rfl, rfl⟩⟩
      (.cons rfl (.inr (.inl ⟨by decide, rfl, _, List.mem_singleton_self _, rfl, rfl⟩))
      (.cons rfl ⟨rfl, .inr ⟨_, List.mem_singleton_self _, rfl, rfl⟩⟩
      (.cons rfl ⟨_, List.mem_singleton_self _, rfl, by decide, by decide, by decide, rfl⟩
      (.cons rfl rfl (.nil _))))))))),
      .cons rfl ⟨_, List.mem_singleton_self _, rfl, by decide, by decide, by decide, rfl⟩
      (.cons rfl ⟨rfl, fun _ => ⟨rfl, _, List.mem_singleton_self _, rfl, .inl (by decide)⟩⟩ (.nil _)),
      rfl, rfl, rfl⟩
  obtain ⟨st₁, st₂, h₁, h₂, hhandled, hwait, htimeout⟩ := hruns
  have hhandle := (Pool.runs_iff.mp h₁).2 (.other true)
  rw [hhandled] at hhandle
  obtain ⟨before, behind, -, htaken⟩ := taken_behind_change hsound h₁ h₂ hregistered hhandle
    (by rw [ContainerSets.getCurrentContainer_readMdstat]; decide) hwait htimeout (by simp [Removes])
  exact ⟨_, by simp, htaken⟩

end change

/-! ## All notifiers together -/

section notifiers

variable {M ι : Type} {held : Option Int}

/-- Trying the paths one after the other posts nothing. -/
theorem cautious_execPaths (paths : List String) :
    Cautious (M := M) held (Monitor.execPaths paths) := by
  induction paths generalizing held with
  | nil => trivial
  | cons path paths ih =>
      unfold Monitor.execPaths
      rw [Prog.request_bind]
      intro found
      beta_reduce
      split
      · trivial
      · exact ih

/-- Running `ssimsg` is cautious, whatever has been read before. -/
theorem cautious_execSsimsg (buffer : String) :
    Cautious (M := M) held (Monitor.execSsimsg buffer) := by
  unfold Monitor.execSsimsg
  rw [Prog.request_bind]
  intro forked
  beta_reduce
  split
  · trivial
  refine cautious_bind (cautious_execPaths _) fun found held => ?_
  split
  · trivial
  refine cautious_bind cautious_main fun rv held => ?_
  rw [Prog.request_bind]
  intro waited
  beta_reduce
  split <;> trivial

/-- Each call that a handler makes is cautious: only `ssimsg` posts, and it reads the value first. -/
theorem cautious_monitorCall (buffer : String) (c : MonitorCall) :
    Cautious (M := M) held (Monitor.monitorCall buffer c) := by
  cases c with
  | mdstat => exact fun _ => trivial
  | execSsimsg => exact cautious_execSsimsg buffer
  | inotify => exact fun _ => trivial

/-- Whatever the monitor does with these calls is cautious. -/
theorem cautious_translate {α : Type} (buffer : String) (p : MonitorProg M α) :
    Cautious held (p.translate (Monitor.monitorCall buffer)) := by
  induction p generalizing held with
  | pure a => trivial
  | throw e => exact e.elim
  | note n => exact n.elim
  | call c k ih =>
      rw [Prog.translate_call]
      exact cautious_bind (cautious_monitorCall buffer c) fun r held => ih r

/-- What runs on the system: the calls of the library by any number of clients, `ssimsg`, the monitors,
and programs that post to no set. -/
structure Notifiers [DecidableEq M] (monitors notifiers : Finset ι)
    (st : Callers M ι fun _ => ContainerSets M) : Prop where
  registering : ∀ i, ∃ m_semId, st.procs (.registering i) = SemEvent.registerEvent m_semId
  waiting : ∀ i, ∃ m_semId timeout, st.procs (.waiting i) = SemEvent.wait m_semId timeout
  destroying : ∀ i, ∃ m_semId, st.procs (.destroying i) = SemEvent.destroy m_semId
  notifying : ∀ i ∈ notifiers, st.procs (.notifying i) = Ssimsg.main
  idle : ∀ i ∉ notifiers, NeverPosts (st.procs (.notifying i))
  monitor : ∀ i ∈ monitors, ∃ watchFd buffer handlers s,
    st.procs (.other i) = (Monitor.runHandlers watchFd handlers s).translate (Monitor.monitorCall buffer)
  other : ∀ i ∉ monitors, NeverPosts (st.procs (.other i))

/-- Those who post. -/
def Notifiers.posters (monitors notifiers : Finset ι) [DecidableEq ι] : Finset (Caller ι) :=
  monitors.image .other ∪ notifiers.image .notifying

/-- Registering creates or finds the set and posts nothing. -/
theorem neverPosts_registerEvent (m_semId : Int) :
    NeverPosts (M := M) (SemEvent.registerEvent m_semId) := by
  unfold SemEvent.registerEvent NeverPosts
  rw [Prog.request_bind]
  refine ⟨fun id op timeout h => by simp at h, fun key => ?_⟩
  beta_reduce
  split
  · trivial
  rw [Prog.request_bind]
  refine ⟨fun id op timeout h => by simp at h, fun id => ?_⟩
  beta_reduce
  split <;> trivial

/-- Waiting takes from the set and never adds to it. -/
theorem neverPosts_wait (m_semId : Int) (timeout : BitVec 32) :
    NeverPosts (M := M) (SemEvent.wait m_semId timeout) := by
  unfold SemEvent.wait NeverPosts
  rw [Prog.request_bind]
  refine ⟨fun id op time h => ?_, ?_⟩
  · obtain ⟨-, rfl, -⟩ := SystemCall.semop.inj h
    decide
  · rintro (errno | ⟨⟩) <;> trivial

/-- Destroying removes the set and posts nothing. -/
theorem neverPosts_destroy (m_semId : Int) :
    NeverPosts (M := M) (SemEvent.destroy m_semId) := by
  unfold SemEvent.destroy NeverPosts
  rw [Prog.request_bind]
  exact ⟨fun id op timeout h => by simp at h, fun _ => trivial⟩

variable [DecidableEq ι] {monitors notifiers : Finset ι}

/-- There are no more posters than monitors and notifiers together. -/
theorem Notifiers.card_posters_le :
    (Notifiers.posters monitors notifiers).card ≤ monitors.card + notifiers.card := by
  unfold Notifiers.posters
  exact (Finset.card_union_le _ _).trans (add_le_add Finset.card_image_le Finset.card_image_le)

variable [DecidableEq M] {stat : String → Option (Nat × Nat)}
  {st st' : Callers M ι fun _ => ContainerSets M}
  {tr : List (Caller ι × Event (SystemCall M) (SystemCall.Reply M))}

/-- Every poster posts only behind a reading of 0, which bounds what can be in the set by their
number. -/
theorem Notifiers.cautious (h : Notifiers monitors notifiers st) :
    ∀ i ∈ Notifiers.posters monitors notifiers, Cautious none (st.procs i) := by
  intro i hi
  unfold Notifiers.posters at hi
  rw [Finset.mem_union, Finset.mem_image, Finset.mem_image] at hi
  rcases hi with ⟨i, hi, rfl⟩ | ⟨i, hi, rfl⟩
  · obtain ⟨watchFd, buffer, handlers, s, hmonitor⟩ := h.monitor i hi
    rw [hmonitor]
    exact cautious_translate buffer _
  · rw [h.notifying i hi]
    exact cautious_main

/-- Whoever is neither monitor nor notifier never posts. -/
theorem Notifiers.neverPosts (h : Notifiers monitors notifiers st) :
    ∀ i ∉ Notifiers.posters monitors notifiers, NeverPosts (st.procs i) := by
  intro i hi
  unfold Notifiers.posters at hi
  rw [Finset.mem_union, Finset.mem_image, Finset.mem_image, not_or] at hi
  cases i with
  | registering i =>
      obtain ⟨m_semId, hregister⟩ := h.registering i
      exact hregister ▸ neverPosts_registerEvent m_semId
  | waiting i =>
      obtain ⟨m_semId, timeout, hwait⟩ := h.waiting i
      exact hwait ▸ neverPosts_wait m_semId timeout
  | destroying i =>
      obtain ⟨m_semId, hdestroy⟩ := h.destroying i
      exact hdestroy ▸ neverPosts_destroy m_semId
  | notifying i => exact h.idle i fun hmem => hi.2 ⟨i, hmem, rfl⟩
  | other i => exact h.other i fun hmem => hi.1 ⟨i, hmem, rfl⟩

/-- **Notifications do not pile up.** Any number of clients register, wait and destroy their events while
monitors and notifiers run, in any order. No set has a greater value in the end than there are monitors
and notifiers. From a set that is not removed no more is taken than was there and is posted, and no more
is posted than is taken and one for each monitor and each notifier. -/
theorem posted_le_monitors (hs : st.shared.Sound) (hall : Notifiers monitors notifiers st)
    (h : Callers.Runs stat st tr st')
    (hvalue : ∀ set ∈ st.shared.sets, set.value ≤ monitors.card + notifiers.card) :
    (∀ set ∈ st'.shared.sets, set.value ≤ monitors.card + notifiers.card) ∧
      ∀ set ∈ st.shared.sets, (∀ step ∈ tr, ¬ Removes set.id step.2) →
        0 ≤ (set.value : Int) + ((tr.map Prod.snd).map (delta set.id)).sum ∧
          (set.value : Int) + ((tr.map Prod.snd).map (delta set.id)).sum ≤
            (monitors.card : Int) + notifiers.card := by
  have hbounds := value_le_of_runs hs h Notifiers.card_posters_le hall.cautious hall.neverPosts hvalue
  refine ⟨hbounds, fun set hset hkeep => ?_⟩
  obtain ⟨hshared, -⟩ := Pool.runs_iff.mp h
  obtain ⟨set', hset', hid, -, hsum⟩ := effects_value hshared hs hset fun e he => by
    obtain ⟨step, hstep, rfl⟩ := List.mem_map.mp he
    exact hkeep step hstep
  have hbound := hbounds set' hset'
  omega

/-- A monitor that has recorded `false` and a notifier. -/
def Callers.monitored : Callers Bool Bool fun _ => ContainerSets Bool where
  shared := ⟨[⟨5, ftokKey (0, 0) KEY_GEN_NUM, 0⟩], true⟩
  procs
    | .registering _ => SemEvent.registerEvent 0
    | .waiting _ => SemEvent.wait 5 0
    | .destroying _ => SemEvent.destroy 5
    | .notifying true => Ssimsg.main
    | .notifying false => pure 0
    | .other true =>
        (Monitor.runHandlers 1 [.mdstat] ⟨fun _ => false, true⟩).translate
          (Monitor.monitorCall "/usr/sbin/")
    | .other false => pure ⟨fun _ => false, true⟩

/-- The sample system meets the condition with one monitor and one notifier. -/
theorem notifiers_monitored : Notifiers {true} {true} Callers.monitored where
  registering _ := ⟨0, rfl⟩
  waiting _ := ⟨5, 0, rfl⟩
  destroying _ := ⟨5, rfl⟩
  notifying i hi := by
    obtain rfl := Finset.mem_singleton.mp hi
    rfl
  idle i hi := by
    obtain rfl : i = false := by simpa using hi
    trivial
  monitor i hi := by
    obtain rfl := Finset.mem_singleton.mp hi
    exact ⟨1, "/usr/sbin/", [.mdstat], ⟨fun _ => false, true⟩, rfl⟩
  other i hi := by
    obtain rfl : i = false := by simpa using hi
    trivial

/-- Both the monitor and the notifier read 0 before either of them posts. -/
theorem posted_le_monitors_monitored :
    ∃ (tr : List (Caller Bool × Event (SystemCall Bool) (SystemCall.Reply Bool)))
        (st' : Callers Bool Bool fun _ => ContainerSets Bool),
      (.notifying true, ⟨.semop 5 1 none, .ok ()⟩) ∈ tr ∧ (.other true, ⟨.semop 5 1 none, .ok ()⟩) ∈ tr ∧
        (∀ set ∈ st'.shared.sets, set.value ≤ ({true} : Finset Bool).card + ({true} : Finset Bool).card) ∧
        0 ≤ (0 : Int) + ((tr.map Prod.snd).map (delta 5)).sum ∧
        (0 : Int) + ((tr.map Prod.snd).map (delta 5)).sum ≤
          (({true} : Finset Bool).card : Int) + ({true} : Finset Bool).card := by
  have hsound : Callers.monitored.shared.Sound :=
    ⟨List.nodup_singleton _, fun a ha b hb _ _ => by
      rw [List.mem_singleton.mp ha, List.mem_singleton.mp hb]⟩
  have hruns : ∃ st', Callers.Runs (fun _ => some (0, 0)) Callers.monitored
      [(.other true, ⟨.mdstat, true⟩), (.other true, ⟨.vfork, true⟩),
        (.other true, ⟨.execve "/usr/sbin/", false⟩),
        (.other true, ⟨.execve "/usr/local/bin/ssimsg", true⟩),
        (.other true, ⟨.ftok KEY_GEN_PATH KEY_GEN_NUM, ftokKey (0, 0) KEY_GEN_NUM⟩),
        (.other true, ⟨.semget (ftokKey (0, 0) KEY_GEN_NUM) false, (5 : Int)⟩),
        (.other true, ⟨.getval 5, (0 : Int)⟩),
        (.notifying true, ⟨.ftok KEY_GEN_PATH KEY_GEN_NUM, ftokKey (0, 0) KEY_GEN_NUM⟩),
        (.notifying true, ⟨.semget (ftokKey (0, 0) KEY_GEN_NUM) false, (5 : Int)⟩),
        (.notifying true, ⟨.getval 5, (0 : Int)⟩),
        (.notifying true, ⟨.semop 5 1 none, .ok ()⟩),
        (.other true, ⟨.semop 5 1 none, .ok ()⟩)] st' :=
    ⟨_, .cons rfl ⟨rfl, rfl⟩ (.cons rfl rfl (.cons rfl rfl (.cons rfl rfl
      (.cons rfl ⟨rfl, .inr ⟨(0, 0), rfl, rfl⟩⟩
      (.cons rfl (.inr (.inl ⟨by decide, rfl, _, List.mem_singleton_self _, rfl, rfl⟩))
      (.cons rfl ⟨rfl, .inr ⟨_, List.mem_singleton_self _, rfl, rfl⟩⟩
      (.cons rfl ⟨rfl, .inr ⟨(0, 0), rfl, rfl⟩⟩
      (.cons rfl (.inr (.inl ⟨by decide, rfl, _, List.mem_singleton_self _, rfl, rfl⟩))
      (.cons rfl ⟨rfl, .inr ⟨_, List.mem_singleton_self _, rfl, rfl⟩⟩
      (.cons rfl ⟨_, List.mem_singleton_self _, rfl, by decide, by decide, by decide, rfl⟩
      (.cons rfl ⟨_, List.mem_singleton_self _, rfl, by decide, by decide, by decide, rfl⟩
      (.nil _))))))))))))⟩
  obtain ⟨st', h⟩ := hruns
  obtain ⟨hvalues, hposted⟩ :=
    posted_le_monitors hsound notifiers_monitored h (by simp [Callers.monitored])
  refine ⟨_, st', ?_, ?_, hvalues, hposted _ (List.mem_singleton_self _) (by simp [Removes])⟩
  · simp
  · simp

end notifiers

end Irstessi
