import Irstessi.Lib.Pool
import Irstessi.Events
import Irstessi.EventMonitor

/-!
# Semaphore sets with their values

The calls that the library, `ssimsg` and `ssieventmonitor` make to notify clients, with what the
system does in them. Programs of several processes make these calls in any order.

* `SemSet`, `SystemState`: the sets of one semaphore that all processes share, and the membership of
  the containers that `/proc/mdstat` shows.
* `SystemCall`, `SystemState.Effect`: the calls, the answers that the system may give, and the state
  that it leaves; `ftokKey`: the key of a file.
* `SemEvent`: what an `Event` does; `Ssimsg.main`: what `ssimsg` does.
* `SystemState.Sound`: the numbers of the sets are distinct, and so are their keys.
* `effects_value`: the value of a set that is not removed changes by what is posted and taken.
* `registerEvent_acquire`, `destroy_deleteEvent`: without the values these are the operations of
  `EventSystem`.

The calls are those of the system, with the answers that it may give: more than one answer may be
possible, so `Effect` is a relation. Failures of the calls are among them wherever the system may fail.
A set has a number, a key and a value; that numbers and keys are distinct is kept by all calls, whoever
makes them. The key of a file is what `ftok` makes of its device and inode numbers. `EventSystem` has
been written for the life of the sets without their values, and the last two results say that the sets
of this module, with the values left out, behave as they do there.
-/

namespace Irstessi

open Interact

/-! ## The system -/

/-- A set with one semaphore. -/
structure SemSet where
  id : Nat
  key : Int
  value : Nat
  deriving DecidableEq, Repr

/-- The greatest value of a semaphore. -/
def SEMVMX : Nat := 32767

/-- A call of `semop` that has waited for the whole of its time. -/
def EAGAIN : Int := 11

/-- The key of a set that is found by its number only. -/
def IPC_PRIVATE : Int := 0

/-- What the processes share. -/
structure SystemState (M : Type) where
  sets : List SemSet
  membership : M

/-- The calls. A set has one semaphore, so the calls do not name it. -/
inductive SystemCall (M : Type)
  | ftok (path : String) (proj : Nat)
  /-- `create` tells whether `IPC_CREAT` is set. -/
  | semget (key : Int) (create : Bool)
  /-- `semctl` with `GETVAL` -/
  | getval (id : Int)
  /-- `semctl` with `IPC_RMID` -/
  | rmid (id : Int)
  /-- `semop`, or `semtimedop` with seconds and nanoseconds -/
  | semop (id : Int) (op : Int) (timeout : Option (Nat × Nat))
  | vfork
  | execve (path : String)
  | wait
  /-- `/proc/mdstat` is read. -/
  | mdstat
  /-- The inotify handle is read. -/
  | inotify
  /-- The system changes the containers. -/
  | change (m : M)

/-- The answers. `semop` tells the error number where it fails; `vfork`, `execve` and `wait` tell whether
they succeed; `inotify` gives the watch numbers of the events. -/
abbrev SystemCall.Reply (M : Type) : SystemCall M → Type
  | .ftok _ _ => Int
  | .semget _ _ => Int
  | .getval _ => Int
  | .rmid _ => Int
  | .semop _ _ _ => Except Int Unit
  | .vfork => Bool
  | .execve _ => Bool
  | .wait => Bool
  | .mdstat => M
  | .inotify => Option (List Int)
  | .change _ => Unit

/-- A program that makes these calls. -/
abbrev SystemProc (M : Type) : Type → Type := Proc (SystemCall M) (SystemCall.Reply M)

/-- The key of a file, by its device and its inode: the 8 low bits of the number, 8 bits of the device
and 16 of the inode, as a number with a sign. -/
def ftokKey (file : Nat × Nat) (proj : Nat) : Int :=
  let bits : Nat := proj % 256 * 2 ^ 24 + file.1 % 256 * 2 ^ 16 + file.2 % 2 ^ 16
  if bits < 2 ^ 31 then bits else (bits : Int) - 2 ^ 32

namespace SystemState

variable {M : Type}

/-- The value of the set with the number changes by `op`. -/
def changeValue (s : SystemState M) (id : Nat) (op : Int) : SystemState M :=
  { s with sets := s.sets.map fun set =>
      if set.id = id then { set with value := (set.value + op).toNat } else set }

/-- What the system answers and does. `stat` gives the device and the inode of a file. A call may also
fail for reasons of its own, and leaves the state then; `IPC_RMID` fails where there is no such set. -/
def Effect (stat : String → Option (Nat × Nat)) :
    (c : SystemCall M) → SystemState M → SystemCall.Reply M c → SystemState M → Prop
  | .ftok path proj, s, key, s' =>
      s' = s ∧ (key = -1 ∨ ∃ file, stat path = some file ∧ key = ftokKey file proj)
  | .semget key create, s, id, s' =>
      (id = -1 ∧ s' = s) ∨
      (key ≠ IPC_PRIVATE ∧ s' = s ∧ ∃ set ∈ s.sets, set.key = key ∧ id = set.id) ∨
      ((key = IPC_PRIVATE ∨ create = true ∧ ∀ set ∈ s.sets, set.key ≠ key) ∧
        ∃ n : Nat, id = n ∧ (∀ set ∈ s.sets, set.id ≠ n) ∧
          s' = { s with sets := s.sets ++ [⟨n, key, 0⟩] })
  | .getval id, s, value, s' =>
      s' = s ∧ (value = -1 ∨ ∃ set ∈ s.sets, id = set.id ∧ value = set.value)
  | .rmid id, s, rv, s' =>
      (rv = -1 ∧ s' = s ∧ ∀ set ∈ s.sets, id ≠ set.id) ∨
      (rv = 0 ∧ (∃ set ∈ s.sets, id = set.id) ∧
        s' = { s with sets := s.sets.filter fun set => (set.id : Int) ≠ id })
  | .semop id op _, s, .ok (), s' =>
      ∃ set ∈ s.sets, id = set.id ∧ 0 ≤ set.value + op ∧ set.value + op ≤ SEMVMX ∧
        (op = 0 → set.value = 0) ∧ s' = s.changeValue set.id op
  | .semop id op timeout, s, .error errno, s' =>
      s' = s ∧ (errno = EAGAIN →
        timeout.isSome = true ∧ ∃ set ∈ s.sets, id = set.id ∧ (set.value + op < 0 ∨ op = 0))
  | .vfork, s, _, s' => s' = s
  | .execve _, s, _, s' => s' = s
  | .wait, s, _, s' => s' = s
  | .mdstat, s, m, s' => s' = s ∧ m = s.membership
  | .inotify, s, _, s' => s' = s
  | .change m, s, _, s' => s' = { s with membership := m }

end SystemState

/-! ## The programs -/

section programs

variable {M : Type}

/-- Source: `event.h` `KEY_GEN_PATH` -/
def KEY_GEN_PATH : String := "/usr"

/-- Source: `event.h` `KEY_GEN_NUM` -/
def KEY_GEN_NUM : Nat := 2001

namespace SemEvent

/-- The number of the set, which is -1 where `semget` has failed, and whether the event is registered.
Source: `event.cpp` `Event::registerEvent` -/
def registerEvent (m_semId : Int) : SystemProc M (Int × Bool) := do
  let key ← Prog.request (SystemCall.ftok KEY_GEN_PATH KEY_GEN_NUM)
  if key = -1 then return (m_semId, false)
  let m_semId ← Prog.request (SystemCall.semget key true)
  if m_semId = -1 then return (m_semId, false)
  return (m_semId, true)

/-- The time that is given to `semtimedop`: seconds, and what is called nanoseconds.
Source: `event.cpp` `Event::wait`, `t` -/
def timespec (timeout : BitVec 32) : Nat × Nat :=
  (timeout.toNat / 1000, timeout.toNat % 1000 * 1000)

/-- The statuses that a wait returns.
Source: `ssi.h` `SSI_Status` -/
inductive Status
  | ok
  | timeout
  | failed
  deriving DecidableEq, Repr

/-- Source: `event.cpp` `Event::wait` -/
def wait (m_semId : Int) (timeout : BitVec 32) : SystemProc M Status := do
  match ← (Prog.request (SystemCall.semop m_semId (-1) (some (timespec timeout))) :
      SystemProc M (Except Int Unit)) with
  | .error errno => return if errno = EAGAIN then .timeout else .failed
  | .ok () => return .ok

/-- Source: `event.cpp` `Event::~Event` -/
def destroy (m_semId : Int) : SystemProc M Unit := do
  let _ ← Prog.request (SystemCall.rmid m_semId)
  return ()

end SemEvent

namespace Ssimsg

/-- Source: `ssimsg.cpp` `KEY_GEN_PATH` -/
def KEY_GEN_PATH : String := "/usr"

/-- Source: `ssimsg.cpp` `KEY_GEN_NUM` -/
def KEY_GEN_NUM : Nat := 2001

/-- Source: `ssimsg.cpp` `main` -/
def main : SystemProc M Int := do
  let key ← Prog.request (SystemCall.ftok KEY_GEN_PATH KEY_GEN_NUM)
  if key = -1 then return -1
  let id ← Prog.request (SystemCall.semget key false)
  if id = -1 then return -1
  let rv ← Prog.request (SystemCall.getval id)
  if rv = -1 then return -1
  if rv ≥ 1 then return 0
  match ← (Prog.request (SystemCall.semop id 1 none) : SystemProc M (Except Int Unit)) with
  | .error _ => return -1
  | .ok () => return 0

end Ssimsg

end programs

/-! ## What the calls do to the sets -/

section sets

variable {M : Type} {stat : String → Option (Nat × Nat)} {s t u : SystemState M}
  {e : Event (SystemCall M) (SystemCall.Reply M)} {tr : List (Event (SystemCall M) (SystemCall.Reply M))}

/-- By how much a call changes the value of the set with the number. -/
def delta (id : Nat) : Event (SystemCall M) (SystemCall.Reply M) → Int
  | ⟨.semop id' op _, r⟩ =>
      match r with
      | .ok () => if id' = id then op else 0
      | .error _ => 0
  | _ => 0

/-- The call has removed the set with the number. -/
def Removes (id : Nat) (e : Event (SystemCall M) (SystemCall.Reply M)) : Prop :=
  e = ⟨.rmid id, (0 : Int)⟩

/-- A `semop` that succeeds changes the value of its own set by its operand and of no other. -/
@[simp] theorem delta_semop (id : Nat) (id' op : Int) (timeout : Option (Nat × Nat)) :
    delta (M := M) id ⟨.semop id' op timeout, .ok ()⟩ = if id' = id then op else 0 := rfl

/-- The numbers of the sets are distinct, and so are their keys but for `IPC_PRIVATE`. -/
structure SystemState.Sound (s : SystemState M) : Prop where
  ids : (s.sets.map SemSet.id).Nodup
  keys : ∀ a ∈ s.sets, ∀ b ∈ s.sets, a.key = b.key → a.key ≠ IPC_PRIVATE → a = b

/-- The sets are left, or a set with the value 0 is created, or one is removed, or the value of one is
changed. -/
theorem effect_cases (h : SystemState.Effect stat e.1 s e.2 t) :
    (t.sets = s.sets ∧ ∀ id, delta id e = 0) ∨
    (∃ (n : Nat) (key : Int) (create : Bool), e = ⟨.semget key create, (n : Int)⟩ ∧
      (key = IPC_PRIVATE ∨ create = true ∧ ∀ set ∈ s.sets, set.key ≠ key) ∧
      (∀ set ∈ s.sets, set.id ≠ n) ∧ t.sets = s.sets ++ [⟨n, key, 0⟩] ∧ ∀ id, delta id e = 0) ∨
    (∃ set ∈ s.sets, Removes set.id e ∧ (t.sets = s.sets.filter fun a => a.id ≠ set.id) ∧
      ∀ id, delta id e = 0) ∨
    ∃ set ∈ s.sets, ∃ op timeout, e = ⟨.semop set.id op timeout, .ok ()⟩ ∧ 0 ≤ set.value + op ∧
      set.value + op ≤ SEMVMX ∧ t = s.changeValue set.id op := by
  obtain ⟨c, r⟩ := e
  cases c with
  | ftok path proj => exact .inl ⟨congrArg _ h.1, fun _ => rfl⟩
  | semget key create =>
      rcases h with ⟨-, rfl⟩ | ⟨-, rfl, -⟩ | ⟨hkey, n, rfl, hn, rfl⟩
      · exact .inl ⟨rfl, fun _ => rfl⟩
      · exact .inl ⟨rfl, fun _ => rfl⟩
      · exact .inr (.inl ⟨n, key, create, rfl, hkey, hn, rfl, fun _ => rfl⟩)
  | getval id => exact .inl ⟨congrArg _ h.1, fun _ => rfl⟩
  | rmid id =>
      rcases h with ⟨-, rfl, -⟩ | ⟨rfl, ⟨set, hset, rfl⟩, rfl⟩
      · exact .inl ⟨rfl, fun _ => rfl⟩
      · refine .inr (.inr (.inl ⟨set, hset, rfl, ?_, fun _ => rfl⟩))
        dsimp only
        congr 1
        funext a
        simp
  | semop id op timeout =>
      rcases r with errno | ⟨⟩
      · exact .inl ⟨congrArg _ h.1, fun _ => rfl⟩
      · obtain ⟨set, hset, rfl, hlow, hhigh, -, rfl⟩ := h
        exact .inr (.inr (.inr ⟨set, hset, op, timeout, rfl, hlow, hhigh, rfl⟩))
  | vfork => exact .inl ⟨congrArg _ h, fun _ => rfl⟩
  | execve path => exact .inl ⟨congrArg _ h, fun _ => rfl⟩
  | wait => exact .inl ⟨congrArg _ h, fun _ => rfl⟩
  | mdstat => exact .inl ⟨congrArg _ h.1, fun _ => rfl⟩
  | inotify => exact .inl ⟨congrArg _ h, fun _ => rfl⟩
  | change m =>
      obtain rfl : t = { s with membership := m } := h
      exact .inl ⟨rfl, fun _ => rfl⟩

namespace SystemState.Sound

/-- In a sound state a set is determined by its number. -/
theorem eq_of_id (hs : s.Sound) {a b : SemSet} (ha : a ∈ s.sets) (hb : b ∈ s.sets)
    (h : a.id = b.id) : a = b :=
  List.inj_on_of_nodup_map hs.ids ha hb h

end SystemState.Sound

/-- After an operation the sets are those from before, with the value of the one set changed. -/
theorem mem_changeValue_iff {id : Nat} {op : Int} {a : SemSet} :
    a ∈ (s.changeValue id op).sets ↔
      ∃ set ∈ s.sets, a = if set.id = id then { set with value := (set.value + op).toNat } else set := by
  unfold SystemState.changeValue
  dsimp only
  rw [List.mem_map]
  exact exists_congr fun set => and_congr_right fun _ => eq_comm

/-- A call keeps the numbers and the keys distinct. -/
theorem sound_of_effect (h : SystemState.Effect stat e.1 s e.2 t) (hs : s.Sound) : t.Sound := by
  rcases effect_cases h with ⟨hsets, -⟩ | ⟨n, key, create, -, hkey, hn, hsets, -⟩ |
    ⟨set, -, -, hsets, -⟩ | ⟨set, -, op, -, -, -, -, rfl⟩
  · exact ⟨hsets ▸ hs.ids, hsets ▸ hs.keys⟩
  · refine ⟨?_, ?_⟩
    · rw [hsets, List.map_append, List.map_singleton, List.nodup_append]
      refine ⟨hs.ids, List.nodup_singleton _, fun id hid id' hid' => ?_⟩
      obtain ⟨a, ha, rfl⟩ := List.mem_map.mp hid
      rw [List.mem_singleton.mp hid']
      exact hn a ha
    · rw [hsets]
      intro a ha b hb heq hprivate
      rcases List.mem_append.mp ha with ha | ha <;> rcases List.mem_append.mp hb with hb | hb
      · exact hs.keys a ha b hb heq hprivate
      · obtain rfl := List.mem_singleton.mp hb
        rcases hkey with hkey | hkey
        · exact absurd (heq.trans hkey) hprivate
        · exact absurd heq (hkey.2 a ha)
      · obtain rfl := List.mem_singleton.mp ha
        rcases hkey with hkey | hkey
        · exact absurd hkey hprivate
        · exact absurd heq.symm (hkey.2 b hb)
      · rw [List.mem_singleton.mp ha, List.mem_singleton.mp hb]
  · refine ⟨?_, ?_⟩
    · rw [hsets]
      exact hs.ids.sublist (List.filter_sublist.map _)
    · rw [hsets]
      intro a ha b hb
      exact hs.keys a (List.mem_of_mem_filter ha) b (List.mem_of_mem_filter hb)
  · refine ⟨?_, ?_⟩
    · have hids : (s.changeValue set.id op).sets.map SemSet.id = s.sets.map SemSet.id := by
        unfold SystemState.changeValue
        dsimp only
        rw [List.map_map]
        refine List.map_congr_left fun a _ => ?_
        dsimp only [Function.comp_apply]
        split <;> rfl
      rw [hids]
      exact hs.ids
    · intro a ha b hb heq hprivate
      obtain ⟨a', ha', rfl⟩ := mem_changeValue_iff.mp ha
      obtain ⟨b', hb', rfl⟩ := mem_changeValue_iff.mp hb
      have hkeyOf : ∀ x : SemSet, (if x.id = set.id then { x with value := (x.value + op).toNat }
          else x : SemSet).key = x.key := by
        intro x
        split <;> rfl
      rw [hkeyOf, hkeyOf] at heq
      rw [hkeyOf] at hprivate
      rw [hs.keys a' ha' b' hb' heq hprivate]

/-- A set that a call does not remove is still there, with what the call posts or takes. -/
theorem exists_of_effect (h : SystemState.Effect stat e.1 s e.2 t) (hs : s.Sound) {set : SemSet}
    (hset : set ∈ s.sets) (hkeep : ¬ Removes set.id e) :
    ∃ set' ∈ t.sets, set'.id = set.id ∧ set'.key = set.key ∧
      (set'.value : Int) = set.value + delta set.id e := by
  rcases effect_cases h with ⟨hsets, hdelta⟩ | ⟨n, key, create, -, -, -, hsets, hdelta⟩ |
    ⟨a, ha, hremoves, hsets, hdelta⟩ | ⟨a, ha, op, timeout, rfl, hlow, -, rfl⟩
  · exact ⟨set, hsets ▸ hset, rfl, rfl, by rw [hdelta, add_zero]⟩
  · exact ⟨set, hsets ▸ List.mem_append_left _ hset, rfl, rfl, by rw [hdelta, add_zero]⟩
  · have hne : set.id ≠ a.id := fun heq => hkeep (heq ▸ hremoves)
    refine ⟨set, hsets ▸ List.mem_filter.mpr ⟨hset, ?_⟩, rfl, rfl, by rw [hdelta, add_zero]⟩
    exact decide_eq_true hne
  · refine ⟨_, mem_changeValue_iff.mpr ⟨set, hset, rfl⟩, ?_⟩
    by_cases heq : set.id = a.id
    · obtain rfl := hs.eq_of_id hset ha heq
      rw [if_pos rfl, delta_semop, if_pos rfl]
      exact ⟨rfl, rfl, Int.toNat_of_nonneg hlow⟩
    · have hne : ¬ ((a.id : Int) = set.id) := fun h => heq (Int.ofNat_inj.mp h).symm
      rw [if_neg heq, delta_semop, if_neg hne]
      exact ⟨rfl, rfl, (add_zero _).symm⟩

/-- Soundness (numbers and keys that are not given twice) is an invariant of every run of system
calls. -/
theorem sound_of_effects (h : Effects (SystemState.Effect stat) s tr u) (hs : s.Sound) : u.Sound :=
  h.invariant (fun _ _ _ _ hs h => sound_of_effect h hs) hs

/-- What has been posted to and taken from a set that has not been removed is the difference of its
values. -/
theorem effects_value (h : Effects (SystemState.Effect stat) s tr u) (hs : s.Sound) {set : SemSet}
    (hset : set ∈ s.sets) (hkeep : ∀ e ∈ tr, ¬ Removes set.id e) :
    ∃ set' ∈ u.sets, set'.id = set.id ∧ set'.key = set.key ∧
      (set'.value : Int) = set.value + (tr.map (delta set.id)).sum := by
  induction h generalizing set with
  | nil => exact ⟨set, hset, rfl, rfl, by simp⟩
  | cons h _ ih =>
      obtain ⟨set₁, hset₁, hid₁, hkey₁, hvalue₁⟩ :=
        exists_of_effect (e := ⟨_, _⟩) h hs hset (hkeep _ List.mem_cons_self)
      obtain ⟨set₂, hset₂, hid₂, hkey₂, hvalue₂⟩ :=
        ih (sound_of_effect (e := ⟨_, _⟩) h hs) hset₁ (by
          rw [hid₁]
          exact fun e he => hkeep e (List.mem_cons_of_mem _ he))
      refine ⟨set₂, hset₂, hid₂.trans hid₁, hkey₂.trans hkey₁, ?_⟩
      rw [hvalue₂, hvalue₁, hid₁, List.map_cons, List.sum_cons, add_assoc]

end sets

/-! ## Without the values -/

section erase

variable {M : Type} {stat : String → Option (Nat × Nat)} {s t : SystemState M}

/-- The sets by their numbers and keys. -/
def SystemState.erase (s : SystemState M) : List (Nat × Int) :=
  s.sets.map fun set => (set.id, set.key)

/-- The key of a number whose low bits are not 0 or 255 is neither of the two special ones. -/
theorem ftokKey_ne (file : Nat × Nat) :
    ftokKey file KEY_GEN_NUM ≠ -1 ∧ ftokKey file KEY_GEN_NUM ≠ IPC_PRIVATE := by
  unfold ftokKey KEY_GEN_NUM IPC_PRIVATE
  dsimp only
  split <;> omega

/-- What `semget` with `IPC_CREAT` does to the sets is what it does to them without their values. -/
theorem semget_erase {key id : Int} (hs : s.Sound) (hkey : key ≠ IPC_PRIVATE)
    (h : SystemState.Effect stat (.semget key true) s id t) (st : EventSystem)
    (hsets : st.sets = s.erase) :
    ∃ outcome, st.semget key outcome = if id = -1 then none else some (id.toNat, t.erase) := by
  rcases h with ⟨rfl, rfl⟩ | ⟨-, rfl, set, hset, rfl, rfl⟩ | ⟨hnew, n, rfl, hn, rfl⟩
  · exact ⟨none, rfl⟩
  · refine ⟨some 0, ?_⟩
    have hfind : st.sets.find? (fun x => x.2 = set.key) = some (set.id, set.key) := by
      rw [hsets]
      rcases hfound : t.erase.find? (fun x => x.2 = set.key) with _ | x
      · have hnone := List.find?_eq_none.mp hfound (set.id, set.key) (List.mem_map.mpr ⟨set, hset, rfl⟩)
        exact absurd (decide_eq_true rfl) hnone
      · have hx := List.find?_some hfound
        obtain ⟨a, ha, rfl⟩ := List.mem_map.mp (List.mem_of_find?_eq_some hfound)
        have hkeys : a.key = set.key := of_decide_eq_true hx
        obtain rfl := hs.keys a ha set hset hkeys (hkeys ▸ hkey)
        exact hfound
    have hne : ((set.id : Nat) : Int) ≠ -1 := by omega
    unfold EventSystem.semget
    dsimp only
    rw [hfind, if_neg hne, Int.toNat_natCast, hsets]
  · refine ⟨some n, ?_⟩
    have habsent : ∀ set ∈ s.sets, set.key ≠ key := by
      rcases hnew with hnew | hnew
      · exact absurd hnew hkey
      · exact hnew.2
    have hfind : st.sets.find? (fun x => x.2 = key) = none := by
      rw [hsets, List.find?_eq_none]
      intro x hx hxkey
      obtain ⟨a, ha, rfl⟩ := List.mem_map.mp hx
      exact habsent a ha (of_decide_eq_true hxkey)
    have hexists : ¬ st.Exists n := by
      rintro ⟨x, hx, hxid⟩
      rw [hsets] at hx
      obtain ⟨a, ha, rfl⟩ := List.mem_map.mp hx
      exact hn a ha hxid
    have hne : ((n : Nat) : Int) ≠ -1 := by omega
    unfold EventSystem.semget
    dsimp only
    rw [hfind, if_neg hne, Int.toNat_natCast]
    dsimp only
    rw [if_neg hexists, hsets, SystemState.erase, SystemState.erase, List.map_append]
    rfl

/-- Registering an event is what it is without the values. -/
theorem registerEvent_acquire {m_semId m_semId' : Int} {registered : Bool}
    {tr : List (Interact.Event (SystemCall M) (SystemCall.Reply M))} (hs : s.Sound)
    (hprog : (SemEvent.registerEvent m_semId).Makes tr (pure (m_semId', registered)))
    (heffects : Effects (SystemState.Effect stat) s tr t) (st : EventSystem) (event : Nat)
    (hsets : st.sets = s.erase) (hid : st.m_semId event = m_semId) :
    ∃ key outcome, (st.acquire event key outcome).2 = registered ∧
      (st.acquire event key outcome).1.sets = t.erase ∧
      (st.acquire event key outcome).1.m_semId event = m_semId' := by
  unfold SemEvent.registerEvent at hprog
  rw [Prog.request_bind] at hprog
  obtain ⟨key, rest, rfl, hafter⟩ := Prog.makes_call_pure_iff.mp hprog
  obtain ⟨s₁, ⟨rfl, hkey⟩, hrest⟩ := Effects.cons_iff.mp heffects
  refine ⟨key, ?_⟩
  by_cases hfailed : key = -1
  · rw [if_pos hfailed] at hafter
    obtain ⟨rfl, heq⟩ := Prog.makes_pure_iff.mp hafter
    obtain ⟨rfl, rfl⟩ := Prod.mk.inj (Prog.pure.inj heq)
    obtain rfl := Effects.nil_iff.mp hrest
    refine ⟨none, ?_⟩
    unfold EventSystem.acquire
    rw [if_pos hfailed]
    exact ⟨rfl, hsets, hid⟩
  · rw [if_neg hfailed, Prog.request_bind] at hafter
    obtain ⟨id, rest, rfl, hdone⟩ := Prog.makes_call_pure_iff.mp hafter
    obtain ⟨s₂, hsemget, hnil⟩ := Effects.cons_iff.mp hrest
    have hprivate : key ≠ IPC_PRIVATE := by
      rcases hkey with hkey | ⟨file, -, rfl⟩
      · exact absurd hkey hfailed
      · exact (ftokKey_ne file).2
    obtain ⟨outcome, houtcome⟩ := semget_erase hs hprivate hsemget st hsets
    refine ⟨outcome, ?_⟩
    unfold EventSystem.acquire
    rw [if_neg hfailed, houtcome]
    by_cases hnone : id = -1
    · rw [if_pos hnone] at hdone
      obtain ⟨rfl, heq⟩ := Prog.makes_pure_iff.mp hdone
      obtain ⟨rfl, rfl⟩ := Prod.mk.inj (Prog.pure.inj heq)
      obtain rfl := Effects.nil_iff.mp hnil
      rw [if_pos hnone]
      have hsame : t = s₁ := by
        rcases hsemget with ⟨-, heq⟩ | ⟨-, heq, -⟩ | ⟨-, n, hn, -⟩
        · exact heq
        · exact heq
        · have hneg : (n : Int) = -1 := hn.symm.trans hnone
          omega
      exact ⟨rfl, hsame ▸ hsets, hnone ▸ Function.update_self _ _ _⟩
    · rw [if_neg hnone] at hdone
      obtain ⟨rfl, heq⟩ := Prog.makes_pure_iff.mp hdone
      obtain ⟨rfl, rfl⟩ := Prod.mk.inj (Prog.pure.inj heq)
      obtain rfl := Effects.nil_iff.mp hnil
      rw [if_neg hnone]
      have hnonneg : (0 : Int) ≤ m_semId' := by
        rcases hsemget with ⟨heq, -⟩ | ⟨-, -, set, -, -, hset⟩ | ⟨-, n, hn, -⟩
        · exact absurd heq hnone
        · exact le_of_le_of_eq (Int.natCast_nonneg _) hset.symm
        · exact le_of_le_of_eq (Int.natCast_nonneg _) hn.symm
      refine ⟨rfl, rfl, ?_⟩
      dsimp only
      rw [Function.update_self, Int.toNat_of_nonneg hnonneg]

/-- Destroying an event is what it is without the values. -/
theorem destroy_deleteEvent {m_semId : Int}
    {tr : List (Interact.Event (SystemCall M) (SystemCall.Reply M))}
    (hprog : (SemEvent.destroy m_semId).Makes tr (pure ()))
    (heffects : Effects (SystemState.Effect stat) s tr t) (st : EventSystem) (event : Nat)
    (hsets : st.sets = s.erase) (hid : st.m_semId event = m_semId) :
    (st.deleteEvent event).sets = t.erase := by
  unfold SemEvent.destroy at hprog
  rw [Prog.request_bind] at hprog
  obtain ⟨rv, rest, rfl, hdone⟩ := Prog.makes_call_pure_iff.mp hprog
  obtain ⟨rfl, -⟩ := Prog.makes_pure_iff.mp hdone
  obtain ⟨s₁, hrmid, hnil⟩ := Effects.cons_iff.mp heffects
  obtain rfl := Effects.nil_iff.mp hnil
  rcases hrmid with ⟨-, rfl, hnone⟩ | ⟨-, ⟨set, hset, hset_id⟩, rfl⟩
  · rw [EventSystem.deleteEvent_of_not_exists, hsets]
    rw [hid]
    by_cases hneg : m_semId < 0
    · exact .inl hneg
    · refine .inr ?_
      rintro ⟨x, hx, hxid⟩
      rw [hsets] at hx
      obtain ⟨a, ha, rfl⟩ := List.mem_map.mp hx
      refine hnone a ha ?_
      dsimp only at hxid
      omega
  · have hexists : st.Exists set.id := ⟨(set.id, set.key), by
      rw [hsets]
      exact List.mem_map.mpr ⟨set, hset, rfl⟩, rfl⟩
    rw [EventSystem.deleteEvent_of_exists (hid.trans hset_id) hexists]
    dsimp only
    rw [hsets, SystemState.erase, SystemState.erase, List.filter_map]
    congr 1
    refine List.filter_congr fun a _ => ?_
    rw [hset_id]
    simp

end erase

end Irstessi
