import Irstessi.Semaphores
import Irstessi.Lib.Reach
import Mathlib.Algebra.Order.BigOperators.Group.List
import Mathlib.Data.Finset.Card

/-!
# Notifications

Clients wait on the semaphore set of their key, `ssimsg` posts to it where its value is 0. All of them
run side by side.

* `SystemState.Pending`, `SystemState.Registered`: a notification that nobody has taken, and the set
  with the clients' key.
* **`taken_of_timeout`**: no wait times out behind a notification, unless somebody took it.
* `Cautious`, `value_le_of_runs`: what posts only where it has just read 0; the value never gets greater
  than the number of such programs.
* **`failed_of_destroyed`**: once one client has removed the set, the waits of all clients fail, and so
  does every notification until a client registers again.

The calls of the system are those of `Semaphores`, made by any number of clients, notifiers and other
programs in any order. What holds of a semaphore set is kept by the calls of all programs, whichever
comes next: a set that has been posted to stays so until somebody takes it, and a set keeps its key as
long as nobody removes it. A program that has ended has made certain calls in a certain order, and the
results are about two such programs with anything between their calls. For the bound on the values it
has to be remembered which programs have read 0 and not yet posted (`holders`); each of them may add
one.
-/

namespace Irstessi

open Interact

variable {M : Type} {stat : String → Option (Nat × Nat)} {s t u : SystemState M}

/-- The value of the set is 1 at least. -/
def SystemState.Pending (s : SystemState M) (id : Nat) : Prop :=
  ∃ set ∈ s.sets, set.id = id ∧ 1 ≤ set.value

/-- The set has the key of the clients. -/
def SystemState.Registered (stat : String → Option (Nat × Nat)) (s : SystemState M) (id : Nat) : Prop :=
  ∃ file, stat KEY_GEN_PATH = some file ∧
    ∃ set ∈ s.sets, set.id = id ∧ set.key = ftokKey file KEY_GEN_NUM

/-! ## What the programs have done when they have ended -/

section ended

variable {tr : List (Event (SystemCall M) (SystemCall.Reply M))}

/-- A registration has obtained a set under a key. -/
theorem registerEvent_ended {m_semId m_semId' : Int}
    (h : (SemEvent.registerEvent m_semId).Makes tr (pure (m_semId', true))) :
    ∃ key : Int, key ≠ -1 ∧ m_semId' ≠ -1 ∧
      tr = [⟨.ftok KEY_GEN_PATH KEY_GEN_NUM, key⟩, ⟨.semget key true, m_semId'⟩] := by
  unfold SemEvent.registerEvent at h
  rw [Prog.request_bind] at h
  obtain ⟨key, rest, rfl, hafter⟩ := Prog.makes_call_pure_iff.mp h
  split at hafter
  · exact absurd (Prog.makes_pure_iff.mp hafter).2 (by simp [pure])
  next hkey =>
    rw [Prog.request_bind] at hafter
    obtain ⟨id, rest, rfl, hdone⟩ := Prog.makes_call_pure_iff.mp hafter
    split at hdone
    · exact absurd (Prog.makes_pure_iff.mp hdone).2 (by simp [pure])
    next hid =>
      obtain ⟨rfl, heq⟩ := Prog.makes_pure_iff.mp hdone
      obtain ⟨rfl, -⟩ := Prod.mk.inj (Prog.pure.inj heq)
      exact ⟨key, hkey, hid, rfl⟩

/-- A notification that succeeds has found a value other than 0, or has posted. -/
theorem main_ended (h : Ssimsg.main.Makes tr (pure 0)) :
    ∃ key id value : Int, key ≠ -1 ∧ id ≠ -1 ∧ ∃ last,
      tr = ⟨.ftok Ssimsg.KEY_GEN_PATH Ssimsg.KEY_GEN_NUM, key⟩ :: ⟨.semget key false, id⟩ ::
        ⟨.getval id, value⟩ :: last ∧
      ((1 ≤ value ∧ last = []) ∨ last = [⟨.semop id 1 none, .ok ()⟩]) := by
  unfold Ssimsg.main at h
  rw [Prog.request_bind] at h
  obtain ⟨key, rest, rfl, h₁⟩ := Prog.makes_call_pure_iff.mp h
  split at h₁
  · exact absurd (Prog.makes_pure_iff.mp h₁).2 (by simp [pure])
  next hkey =>
    rw [Prog.request_bind] at h₁
    obtain ⟨id, rest, rfl, h₂⟩ := Prog.makes_call_pure_iff.mp h₁
    split at h₂
    · exact absurd (Prog.makes_pure_iff.mp h₂).2 (by simp [pure])
    next hid =>
      rw [Prog.request_bind] at h₂
      obtain ⟨value, rest, rfl, h₃⟩ := Prog.makes_call_pure_iff.mp h₂
      refine ⟨key, id, value, hkey, hid, ?_⟩
      split at h₃
      · exact absurd (Prog.makes_pure_iff.mp h₃).2 (by simp [pure])
      split at h₃
      next hvalue =>
        obtain ⟨rfl, -⟩ := Prog.makes_pure_iff.mp h₃
        exact ⟨[], rfl, .inl ⟨hvalue, rfl⟩⟩
      next =>
        rw [Prog.request_bind] at h₃
        obtain ⟨posted, rest, rfl, h₄⟩ := Prog.makes_call_pure_iff.mp h₃
        refine ⟨_, rfl, .inr ?_⟩
        rcases posted with errno | ⟨⟩
        · exact absurd (Prog.makes_pure_iff.mp h₄).2 (by simp [pure])
        · obtain ⟨rfl, -⟩ := Prog.makes_pure_iff.mp h₄
          rfl

/-- A notification ends with 0 or -1. -/
theorem main_result {rv : Int} (h : Ssimsg.main.Makes tr (pure rv)) : rv = 0 ∨ rv = -1 := by
  unfold Ssimsg.main at h
  rw [Prog.request_bind] at h
  obtain ⟨key, rest, rfl, h₁⟩ := Prog.makes_call_pure_iff.mp h
  split at h₁
  · exact .inr (Prog.pure.inj (Prog.makes_pure_iff.mp h₁).2)
  rw [Prog.request_bind] at h₁
  obtain ⟨id, rest, rfl, h₂⟩ := Prog.makes_call_pure_iff.mp h₁
  split at h₂
  · exact .inr (Prog.pure.inj (Prog.makes_pure_iff.mp h₂).2)
  rw [Prog.request_bind] at h₂
  obtain ⟨value, rest, rfl, h₃⟩ := Prog.makes_call_pure_iff.mp h₂
  split at h₃
  · exact .inr (Prog.pure.inj (Prog.makes_pure_iff.mp h₃).2)
  split at h₃
  · exact .inl (Prog.pure.inj (Prog.makes_pure_iff.mp h₃).2)
  rw [Prog.request_bind] at h₃
  obtain ⟨posted, rest, rfl, h₄⟩ := Prog.makes_call_pure_iff.mp h₃
  rcases posted with errno | ⟨⟩
  · exact .inr (Prog.pure.inj (Prog.makes_pure_iff.mp h₄).2)
  · exact .inl (Prog.pure.inj (Prog.makes_pure_iff.mp h₄).2)

/-- A wait has made one call, whose answer is its status. -/
theorem wait_ended {m_semId : Int} {timeout : BitVec 32} {status : SemEvent.Status}
    (h : (SemEvent.wait m_semId timeout).Makes tr (pure status)) :
    ∃ r : Except Int Unit,
      tr = [⟨.semop m_semId (-1) (some (SemEvent.timespec timeout)), r⟩] ∧
      status = match r with
        | .error errno => if errno = EAGAIN then .timeout else .failed
        | .ok () => .ok := by
  unfold SemEvent.wait at h
  rw [Prog.request_bind] at h
  obtain ⟨r, rest, rfl, hdone⟩ := Prog.makes_call_pure_iff.mp h
  refine ⟨r, ?_⟩
  rcases r with errno | ⟨⟩
  · obtain ⟨rfl, heq⟩ := Prog.makes_pure_iff.mp hdone
    exact ⟨rfl, Prog.pure.inj heq⟩
  · obtain ⟨rfl, heq⟩ := Prog.makes_pure_iff.mp hdone
    exact ⟨rfl, Prog.pure.inj heq⟩

end ended

/-! ## No notification is lost -/

section delivery

variable {ι : Type} {tr : List (ι × Event (SystemCall M) (SystemCall.Reply M))} {id : Nat}

/-- A registered set that is not removed stays registered. -/
theorem registered_of_effects (hs : s.Sound) (hid : s.Registered stat id)
    (h : Effects (SystemState.Effect stat) s (tr.map Prod.snd) u)
    (hkeep : ∀ step ∈ tr, ¬ Removes id step.2) : u.Registered stat id := by
  obtain ⟨file, hstat, set, hset, rfl, hkey⟩ := hid
  obtain ⟨set', hset', hid', hkey', -⟩ := effects_value h hs hset fun e he => by
    obtain ⟨step, hstep, rfl⟩ := List.mem_map.mp he
    exact hkeep step hstep
  exact ⟨file, hstat, set', hset', hid', hkey'.trans hkey⟩

/-- A notification stays there while nothing is taken from the set. -/
theorem pending_of_effects (hs : s.Sound) (hpending : s.Pending id)
    (h : Effects (SystemState.Effect stat) s (tr.map Prod.snd) u)
    (hkeep : ∀ step ∈ tr, ¬ Removes id step.2) (hleft : ∀ step ∈ tr, 0 ≤ delta id step.2) :
    u.Pending id := by
  obtain ⟨set, hset, rfl, hvalue⟩ := hpending
  obtain ⟨set', hset', hid', -, hvalue'⟩ := effects_value h hs hset fun e he => by
    obtain ⟨step, hstep, rfl⟩ := List.mem_map.mp he
    exact hkeep step hstep
  refine ⟨set', hset', hid', ?_⟩
  have hsum : 0 ≤ ((tr.map Prod.snd).map (delta set.id)).sum := by
    refine List.sum_nonneg fun x hx => ?_
    rw [List.map_map] at hx
    obtain ⟨step, hstep, rfl⟩ := List.mem_map.mp hx
    exact hleft step hstep
  omega

/-- The set that is found under the clients' key is the registered one. -/
theorem eq_of_registered (hs : s.Sound) (hid : s.Registered stat id) {key id' : Int}
    (hkey : ∃ file, stat Ssimsg.KEY_GEN_PATH = some file ∧ key = ftokKey file Ssimsg.KEY_GEN_NUM)
    (hfailed : id' ≠ -1) (h : SystemState.Effect stat (.semget key false) s id' t) :
    t = s ∧ id' = id := by
  obtain ⟨file, hstat, set, hset, rfl, hsetKey⟩ := hid
  obtain ⟨file', hstat', rfl⟩ := hkey
  obtain rfl : file = file' := Option.some.inj (hstat.symm.trans hstat')
  rcases h with ⟨heq, -⟩ | ⟨hprivate, rfl, a, ha, hakey, rfl⟩ | ⟨hprivate | ⟨hcreate, -⟩, -⟩
  · exact absurd heq hfailed
  · have heq : a = set := hs.keys a ha set hset (hakey.trans hsetKey.symm) (hakey ▸ hprivate)
    exact ⟨rfl, heq ▸ rfl⟩
  · exact absurd hprivate (ftokKey_ne file).2
  · exact absurd hcreate (by simp)

variable [DecidableEq ι]

/-- Behind a notification that has succeeded the registered set is not at 0, unless something was taken
from it since the notification began. -/
theorem pending_of_main {i : ι} (hs : s.Sound) (hid : s.Registered stat id)
    (h : Effects (SystemState.Effect stat) s (tr.map Prod.snd) u)
    (hmain : Ssimsg.main.Makes (Pool.own i tr) (pure 0))
    (hkeep : ∀ step ∈ tr, ¬ Removes id step.2) (hleft : ∀ step ∈ tr, 0 ≤ delta id step.2) :
    u.Pending id := by
  obtain ⟨key, id', value, hkey, hid', last, hown, hlast⟩ := main_ended hmain
  -- the calls of the program with the states between them
  obtain ⟨tr₁, rest₁, rfl, hrest₁⟩ := Pool.exists_of_own_cons hown
  obtain ⟨tr₂, rest₂, rfl, hrest₂⟩ := Pool.exists_of_own_cons hrest₁
  obtain ⟨tr₃, rest₃, rfl, hrest₃⟩ := Pool.exists_of_own_cons hrest₂
  simp only [List.map_append, List.map_cons, Effects.append_iff, Effects.cons_iff] at h
  obtain ⟨s₁, h₁, s₁', hftok, s₂, h₂, s₂', hsemget, s₃, h₃, s₃', hgetval, hrest⟩ := h
  simp only [List.mem_append, List.mem_cons] at hkeep hleft
  obtain ⟨rfl, hfile⟩ : s₁' = s₁ ∧ _ := hftok
  have hs₁ := sound_of_effects h₁ hs
  have hs₂ := sound_of_effects h₂ hs₁
  have hid₁ := registered_of_effects hs hid h₁ fun step hstep => hkeep step (.inl hstep)
  have hid₂ := registered_of_effects hs₁ hid₁ h₂ fun step hstep =>
    hkeep step (.inr (.inr (.inl hstep)))
  obtain ⟨rfl, rfl⟩ := eq_of_registered hs₂ hid₂ (hfile.resolve_left hkey) hid' hsemget
  have hs₃ := sound_of_effects h₃ hs₂
  have hid₃ := registered_of_effects hs₂ hid₂ h₃ fun step hstep =>
    hkeep step (.inr (.inr (.inr (.inr (.inl hstep)))))
  obtain ⟨rfl, hvalue⟩ : s₃' = s₃ ∧ _ := hgetval
  have hkeep₃ : ∀ step ∈ rest₃, ¬ Removes id step.2 := fun step hstep =>
    hkeep step (.inr (.inr (.inr (.inr (.inr (.inr hstep))))))
  have hleft₃ : ∀ step ∈ rest₃, 0 ≤ delta id step.2 := fun step hstep =>
    hleft step (.inr (.inr (.inr (.inr (.inr (.inr hstep))))))
  rcases hlast with ⟨hone, -⟩ | rfl
  · -- the value was 1 or more when it was read
    have hpending : s₃'.Pending id := by
      rcases hvalue with hvalue | ⟨set, hset, hsetId, hvalue⟩
      · obtain rfl : value = -1 := hvalue
        exact absurd hone (by decide)
      · obtain rfl : value = set.value := hvalue
        exact ⟨set, hset, (Int.ofNat_inj.mp hsetId).symm, by omega⟩
    exact pending_of_effects hs₃ hpending hrest hkeep₃ hleft₃
  · -- it is 1 or more when the notification is posted
    obtain ⟨tr₄, rest₄, rfl, -⟩ := Pool.exists_of_own_cons hrest₃
    simp only [List.map_append, List.map_cons, Effects.append_iff, Effects.cons_iff] at hrest
    obtain ⟨s₄, h₄, s₅, hsemop, hrest⟩ := hrest
    simp only [List.mem_append, List.mem_cons] at hkeep₃ hleft₃
    have hs₄ := sound_of_effects h₄ hs₃
    have hpending : s₅.Pending id := by
      obtain ⟨set, hset, hsetId, -, -, -, rfl⟩ := hsemop
      obtain rfl := Int.ofNat_inj.mp hsetId
      refine ⟨_, mem_changeValue_iff.mpr ⟨set, hset, rfl⟩, ?_, ?_⟩
      · rw [if_pos rfl]
      · rw [if_pos rfl]
        dsimp only
        omega
    exact pending_of_effects (sound_of_effect (e := ⟨_, _⟩) hsemop hs₄) hpending hrest
      (fun step hstep => hkeep₃ step (.inr (.inr hstep)))
      fun step hstep => hleft₃ step (.inr (.inr hstep))

/-- A wait on a set does not time out while a notification is there. -/
theorem not_timeout_of_pending {i : ι} {timeout : BitVec 32} (hs : s.Sound) (hpending : s.Pending id)
    (h : Effects (SystemState.Effect stat) s (tr.map Prod.snd) u)
    (hwait : (SemEvent.wait id timeout).Makes (Pool.own i tr) (pure .timeout))
    (hkeep : ∀ step ∈ tr, ¬ Removes id step.2) : ∃ step ∈ tr, delta id step.2 < 0 := by
  obtain ⟨r, hown, hstatus⟩ := wait_ended hwait
  obtain ⟨tr₁, rest₁, rfl, -⟩ := Pool.exists_of_own_cons hown
  simp only [List.map_append, List.map_cons, Effects.append_iff, Effects.cons_iff] at h
  obtain ⟨s₁, h₁, s₂, hsemop, -⟩ := h
  by_contra hnone
  push Not at hnone
  simp only [List.mem_append, List.mem_cons] at hkeep hnone
  obtain ⟨set, hset, rfl, hvalue⟩ := pending_of_effects hs hpending h₁
    (fun step hstep => hkeep step (.inl hstep)) fun step hstep => hnone step (.inl hstep)
  rcases r with errno | ⟨⟩
  · by_cases hagain : errno = EAGAIN
    · obtain ⟨-, hblocked⟩ := hsemop
      obtain ⟨-, a, ha, haId, hlow⟩ := hblocked hagain
      obtain rfl := (sound_of_effects h₁ hs).eq_of_id hset ha (Int.ofNat_inj.mp haId)
      omega
    · dsimp only at hstatus
      rw [if_neg hagain] at hstatus
      exact absurd hstatus (by simp)
  · exact absurd hstatus (by simp)

end delivery

/-! ## The calls in progress -/

/-- The calls of the library and the other programs that are in progress, each with a number of its
own. -/
inductive Caller (ι : Type)
  | registering (i : ι)
  | waiting (i : ι)
  | destroying (i : ι)
  | notifying (i : ι)
  | other (i : ι)
  deriving DecidableEq

/-- What the programs end with. -/
abbrev Caller.Result {ι : Type} (α : ι → Type) : Caller ι → Type
  | .registering _ => Int × Bool
  | .waiting _ => SemEvent.Status
  | .destroying _ => Unit
  | .notifying _ => Int
  | .other i => α i

/-- All that runs on the system. -/
abbrev Callers (M ι : Type) (α : ι → Type) : Type :=
  Pool (SystemCall M) (SystemCall.Reply M) (SystemState M) (Caller ι) (Caller.Result α)

/-- A run of all of it. -/
abbrev Callers.Runs {ι : Type} [DecidableEq ι] {α : ι → Type} (stat : String → Option (Nat × Nat)) :
    Callers M ι α → List (Caller ι × Event (SystemCall M) (SystemCall.Reply M)) →
      Callers M ι α → Prop :=
  Pool.Runs (SystemState.Effect stat)

section callers

variable {ι : Type} [DecidableEq ι] {α : ι → Type} {st st₁ st₂ st₃ : Callers M ι α}
  {tr tr₁ tr₂ tr₃ : List (Caller ι × Event (SystemCall M) (SystemCall.Reply M))}

/-- What an ended registration has obtained is registered. -/
theorem registered_of_registerEvent (hs : st.shared.Sound) (h : Callers.Runs stat st tr st₁)
    {c : ι} {m_semId : Int} {id : Nat}
    (hregister : st.procs (.registering c) = SemEvent.registerEvent m_semId)
    (hregistered : st₁.procs (.registering c) = pure ((id : Int), true))
    (hkeep : ∀ step ∈ tr, ¬ Removes id step.2) : st₁.shared.Registered stat id := by
  obtain ⟨hshared, hprocs⟩ := Pool.runs_iff.mp h
  have hmakes := hprocs (.registering c)
  rw [hregister, hregistered] at hmakes
  obtain ⟨key, hkey, hid, hown⟩ := registerEvent_ended hmakes
  obtain ⟨before, rest₁, rfl, hrest₁⟩ := Pool.exists_of_own_cons hown
  obtain ⟨between, behind, rfl, -⟩ := Pool.exists_of_own_cons hrest₁
  simp only [List.map_append, List.map_cons, Effects.append_iff, Effects.cons_iff] at hshared
  obtain ⟨s₁, h₁, s₁', hftok, s₂, h₂, s₃, hsemget, hrest⟩ := hshared
  obtain ⟨rfl, hfile⟩ : s₁' = s₁ ∧ _ := hftok
  obtain ⟨file, hstat, rfl⟩ := hfile.resolve_left hkey
  have hs₂ := sound_of_effects h₂ (sound_of_effects h₁ hs)
  have hid₃ : s₃.Registered stat id := by
    rcases hsemget with ⟨heq, -⟩ | ⟨-, rfl, set, hset, hsetKey, hsetId⟩ | ⟨-, n, hn, -, rfl⟩
    · exact absurd heq hid
    · exact ⟨file, hstat, set, hset, (Int.ofNat_inj.mp hsetId).symm, hsetKey⟩
    · exact ⟨file, hstat, _, List.mem_append_right _ (List.mem_singleton_self _),
        (Int.ofNat_inj.mp hn).symm, rfl⟩
  refine registered_of_effects (sound_of_effect (e := ⟨_, _⟩) hsemget hs₂) hid₃ hrest ?_
  intro step hstep
  refine hkeep step ?_
  simp only [List.mem_append, List.mem_cons]
  exact .inr (.inr (.inr (.inr hstep)))

/-- A client has registered, a notification has then begun and succeeded, and a wait that ends behind
it has timed out: the notification has been taken from the set in between, by another wait. -/
theorem taken_of_timeout (hs : st.shared.Sound) (h₁ : Callers.Runs stat st tr₁ st₁)
    (h₂ : Callers.Runs stat st₁ tr₂ st₂) (h₃ : Callers.Runs stat st₂ tr₃ st₃) {c n w : ι}
    {m_semId : Int} {id : Nat} {timeout : BitVec 32}
    (hregister : st.procs (.registering c) = SemEvent.registerEvent m_semId)
    (hregistered : st₁.procs (.registering c) = pure ((id : Int), true))
    (hnotify : st₁.procs (.notifying n) = Ssimsg.main)
    (hnotified : st₂.procs (.notifying n) = pure 0)
    (hwait : st₂.procs (.waiting w) = SemEvent.wait id timeout)
    (htimeout : st₃.procs (.waiting w) = pure .timeout)
    (hkeep : ∀ step ∈ tr₁ ++ tr₂ ++ tr₃, ¬ Removes id step.2) :
    ∃ step ∈ tr₂ ++ tr₃, delta id step.2 < 0 := by
  simp only [List.mem_append] at hkeep
  have hs₁ := sound_of_effects (Pool.runs_iff.mp h₁).1 hs
  have hid := registered_of_registerEvent hs h₁ hregister hregistered fun step hstep =>
    hkeep step (.inl (.inl hstep))
  obtain ⟨hshared₂, hprocs₂⟩ := Pool.runs_iff.mp h₂
  obtain ⟨hshared₃, hprocs₃⟩ := Pool.runs_iff.mp h₃
  by_contra hnone
  push Not at hnone
  simp only [List.mem_append] at hnone
  have hmain := hprocs₂ (.notifying n)
  rw [hnotify, hnotified] at hmain
  have hpending := pending_of_main hs₁ hid hshared₂ hmain
    (fun step hstep => hkeep step (.inl (.inr hstep))) fun step hstep => hnone step (.inl hstep)
  have hmakes := hprocs₃ (.waiting w)
  rw [hwait, htimeout] at hmakes
  obtain ⟨step, hstep, htaken⟩ := not_timeout_of_pending (sound_of_effects hshared₂ hs₁) hpending
    hshared₃ hmakes fun step hstep => hkeep step (.inr hstep)
  exact absurd (hnone step (.inr hstep)) (not_le.mpr htaken)

/-- A system with one set of the clients' key, in which calls of every kind have begun. -/
def Callers.begun : Callers Unit Bool fun _ => Unit where
  shared := ⟨[⟨5, ftokKey (0, 0) KEY_GEN_NUM, 0⟩], ()⟩
  procs
    | .registering _ => SemEvent.registerEvent 0
    | .waiting _ => SemEvent.wait 5 0
    | .destroying _ => SemEvent.destroy 5
    | .notifying _ => Ssimsg.main
    | .other _ => pure ()

/-- The sample state gives no number and no key twice. -/
theorem sound_begun : Callers.begun.shared.Sound where
  ids := List.nodup_singleton _
  keys a ha b hb _ _ := by rw [List.mem_singleton.mp ha, List.mem_singleton.mp hb]

/-- A client registers, `ssimsg` posts, and two clients wait: one of them takes the notification, the
other one waits for the whole of its time. -/
theorem taken_of_timeout_begun :
    ∃ tr : List (Caller Bool × Event (SystemCall Unit) (SystemCall.Reply Unit)),
      (.waiting true, ⟨.semop 5 (-1) (some (0, 0)), .error EAGAIN⟩) ∈ tr ∧
      ∃ step ∈ tr, delta 5 step.2 < 0 := by
  have hruns : ∃ st₁ st₂ st₃,
      Callers.Runs (fun _ => some (0, 0)) Callers.begun
        [(.registering true, ⟨.ftok KEY_GEN_PATH KEY_GEN_NUM, ftokKey (0, 0) KEY_GEN_NUM⟩),
          (.registering true, ⟨.semget (ftokKey (0, 0) KEY_GEN_NUM) true, (5 : Int)⟩)] st₁ ∧
      Callers.Runs (fun _ => some (0, 0)) st₁
        [(.notifying true, ⟨.ftok KEY_GEN_PATH KEY_GEN_NUM, ftokKey (0, 0) KEY_GEN_NUM⟩),
          (.notifying true, ⟨.semget (ftokKey (0, 0) KEY_GEN_NUM) false, (5 : Int)⟩),
          (.notifying true, ⟨.getval 5, (0 : Int)⟩),
          (.notifying true, ⟨.semop 5 1 none, .ok ()⟩)] st₂ ∧
      Callers.Runs (fun _ => some (0, 0)) st₂
        [(.waiting false, ⟨.semop 5 (-1) (some (0, 0)), .ok ()⟩),
          (.waiting true, ⟨.semop 5 (-1) (some (0, 0)), .error EAGAIN⟩)] st₃ ∧
      st₁.procs (.registering true) = Prog.pure (((5 : Nat) : Int), true) ∧
      st₁.procs (.notifying true) = Ssimsg.main ∧ st₂.procs (.notifying true) = Prog.pure (0 : Int) ∧
      st₂.procs (.waiting true) = SemEvent.wait (5 : Nat) 0 ∧
      st₃.procs (.waiting true) = Prog.pure SemEvent.Status.timeout := by
    refine ⟨_, _, _, .cons rfl ⟨rfl, .inr ⟨(0, 0), rfl, rfl⟩⟩
      (.cons rfl (.inr (.inl ⟨by decide, rfl, _, List.mem_singleton_self _, rfl, rfl⟩)) (.nil _)),
      .cons rfl ⟨rfl, .inr ⟨(0, 0), rfl, rfl⟩⟩
      (.cons rfl (.inr (.inl ⟨by decide, rfl, _, List.mem_singleton_self _, rfl, rfl⟩))
      (.cons rfl ⟨rfl, .inr ⟨_, List.mem_singleton_self _, rfl, rfl⟩⟩
      (.cons rfl ⟨_, List.mem_singleton_self _, rfl, by decide, by decide, by decide, rfl⟩ (.nil _)))),
      .cons rfl ⟨_, List.mem_singleton_self _, rfl, by decide, by decide, by decide, rfl⟩
      (.cons rfl ⟨rfl, fun _ => ⟨rfl, _, List.mem_singleton_self _, rfl, .inl (by decide)⟩⟩ (.nil _)),
      rfl, rfl, rfl, rfl, rfl⟩
  obtain ⟨st₁, st₂, st₃, h₁, h₂, h₃, hregistered, hnotify, hnotified, hwait, htimeout⟩ := hruns
  have htaken := taken_of_timeout sound_begun h₁ h₂ h₃ rfl hregistered hnotify hnotified hwait
    htimeout (by simp [Removes])
  exact ⟨_, by simp, htaken⟩

end callers

/-! ## How many notifications there can be -/

/-- A value that is read is not positive, and the reading has not failed. -/
def ReadsNone (value : Int) : Prop := value ≠ -1 ∧ ¬ 1 ≤ value

instance (value : Int) : Decidable (ReadsNone value) :=
  inferInstanceAs (Decidable (value ≠ -1 ∧ ¬ 1 ≤ value))

/-- The program posts 1 to a set at most, and only where the last value that it has read was that of
this set and not positive; `held` is the set that it has read so and not posted to yet. -/
def Cautious {α : Type} (held : Option Int) : SystemProc M α → Prop
  | .pure _ => True
  | .throw _ => True
  | .note _ p => Cautious held p
  | .call (.getval id) k => ∀ value : Int, Cautious (if ReadsNone value then some id else none) (k value)
  | .call (.semop id op _) k =>
      (0 < op → op = 1 ∧ held = some id) ∧ ∀ r : Except Int Unit, Cautious none (k r)
  | .call _ k => ∀ r, Cautious held (k r)

section cautious

variable {α β : Type} {held : Option Int}

/-- A sequence is cautious where its first part is, and its second part whatever has been read. -/
theorem cautious_bind {p : SystemProc M α} {f : α → SystemProc M β} (hp : Cautious held p)
    (hf : ∀ a held, Cautious held (f a)) : Cautious held (p >>= f) := by
  induction p generalizing held with
  | pure a => exact hf a held
  | throw e => exact e.elim
  | note n => exact n.elim
  | call c k ih =>
      cases c with
      | getval id => exact fun value => ih value (hp value)
      | semop id op timeout => exact ⟨hp.1, fun r => ih r (hp.2 r)⟩
      | ftok => exact fun r => ih r (hp r)
      | semget => exact fun r => ih r (hp r)
      | rmid => exact fun r => ih r (hp r)
      | vfork => exact fun r => ih r (hp r)
      | execve => exact fun r => ih r (hp r)
      | wait => exact fun r => ih r (hp r)
      | mdstat => exact fun r => ih r (hp r)
      | inotify => exact fun r => ih r (hp r)
      | change => exact fun r => ih r (hp r)

/-- `ssimsg` is cautious. -/
theorem cautious_main : Cautious (M := M) held Ssimsg.main := by
  unfold Ssimsg.main
  rw [Prog.request_bind]
  intro key
  beta_reduce
  split
  · trivial
  rw [Prog.request_bind]
  intro id
  beta_reduce
  split
  · trivial
  rw [Prog.request_bind]
  intro value
  beta_reduce
  by_cases hfailed : value = -1
  · rw [if_pos hfailed]
    trivial
  by_cases hvalue : value ≥ 1
  · rw [if_neg hfailed, if_pos hvalue]
    trivial
  · have hnone : ReadsNone value := ⟨hfailed, hvalue⟩
    rw [if_neg hfailed, if_neg hvalue, if_pos hnone, Prog.request_bind]
    refine ⟨fun _ => ⟨rfl, rfl⟩, ?_⟩
    rintro (errno | ⟨⟩) <;> trivial

/-- What a call of a cautious program leaves of what it has read. -/
def heldAfter (held : Option Int) : Event (SystemCall M) (SystemCall.Reply M) → Option Int
  | ⟨.getval id, value⟩ => if ReadsNone value then some id else none
  | ⟨.semop _ _ _, _⟩ => none
  | _ => held

/-- What is left of a cautious program behind a call is cautious with respect to what it has now
read. -/
theorem cautious_after {c : SystemCall M} {k : SystemCall.Reply M c → SystemProc M α}
    {r : SystemCall.Reply M c} (h : Cautious held (.call c k)) :
    Cautious (heldAfter held ⟨c, r⟩) (k r) := by
  cases c with
  | semop id op timeout => exact h.2 r
  | getval id => exact h r
  | ftok => exact h r
  | semget => exact h r
  | rmid => exact h r
  | vfork => exact h r
  | execve => exact h r
  | wait => exact h r
  | mdstat => exact h r
  | inotify => exact h r
  | change => exact h r

end cautious

section bound

variable {κ : Type} [DecidableEq κ] {α : κ → Type} {posters : Finset κ} {K : Nat}
  {held : κ → Option Int} {tr : List (κ × Event (SystemCall M) (SystemCall.Reply M))}
  {st st' : Pool (SystemCall M) (SystemCall.Reply M) (SystemState M) κ α}

/-- The programs that have read no notification in the set, and have not posted to it yet. -/
def holders (posters : Finset κ) (held : κ → Option Int) (id : Nat) : Finset κ :=
  posters.filter fun i => held i = some (id : Int)

/-- The program posts to no set. -/
def NeverPosts {α : Type} (p : SystemProc M α) : Prop :=
  p.Calls fun c => ∀ id op timeout, c = .semop id op timeout → op ≤ 0

/-- The posters are cautious, nobody else posts, and the value of a set with what may be posted to it
right away is not greater than `K`. -/
structure Bounded (posters : Finset κ) (K : Nat) (held : κ → Option Int)
    (st : Pool (SystemCall M) (SystemCall.Reply M) (SystemState M) κ α) : Prop where
  sound : st.shared.Sound
  cautious : ∀ i ∈ posters, Cautious (held i) (st.procs i)
  others : ∀ i ∉ posters, NeverPosts (st.procs i)
  value : ∀ set ∈ st.shared.sets, set.value + (holders posters held set.id).card ≤ K

/-- A step that takes up no set makes no program a holder that was none. -/
theorem holders_update_subset {i : κ} {x : Option Int} {id : Nat}
    (h : x = some (id : Int) → held i = some (id : Int)) :
    holders posters (Function.update held i x) id ⊆ holders posters held id := by
  intro j hj
  obtain ⟨hj, hheld⟩ := Finset.mem_filter.mp hj
  refine Finset.mem_filter.mpr ⟨hj, ?_⟩
  by_cases hji : j = i
  · obtain rfl := hji
    rw [Function.update_self] at hheld
    exact h hheld
  · rw [Function.update_of_ne hji] at hheld
    exact hheld

/-- Who posts has been counted, and is not counted any more. -/
theorem card_holders_update_none {i : κ} {id : Nat} (hi : i ∈ posters)
    (hheld : held i = some (id : Int)) :
    (holders posters (Function.update held i none) id).card + 1 = (holders posters held id).card := by
  have hmem : i ∈ holders posters held id := Finset.mem_filter.mpr ⟨hi, hheld⟩
  have herase : holders posters (Function.update held i none) id = (holders posters held id).erase i := by
    ext j
    unfold holders
    rw [Finset.mem_filter, Finset.mem_erase, Finset.mem_filter]
    by_cases hji : j = i
    · obtain rfl := hji
      simp
    · rw [Function.update_of_ne hji]
      simp [hji]
  rw [herase, Finset.card_erase_add_one hmem]

/-- What a call leaves of what has been read is what was there before, unless it is a reading. -/
theorem heldAfter_eq {x : Option Int} {id : Nat} {e : Event (SystemCall M) (SystemCall.Reply M)}
    (h : heldAfter x e = some (id : Int)) :
    x = some (id : Int) ∨ ∃ value : Int, e = ⟨.getval id, value⟩ ∧ ReadsNone value := by
  obtain ⟨c, r⟩ := e
  cases c with
  | getval id' =>
      by_cases hvalue : ReadsNone r
      · unfold heldAfter at h
        dsimp only at h
        rw [if_pos hvalue] at h
        obtain rfl := Option.some.inj h
        exact .inr ⟨r, rfl, hvalue⟩
      · unfold heldAfter at h
        dsimp only at h
        rw [if_neg hvalue] at h
        exact absurd h (by simp)
  | semop => exact absurd h (by simp [heldAfter])
  | ftok => exact .inl h
  | semget => exact .inl h
  | rmid => exact .inl h
  | vfork => exact .inl h
  | execve => exact .inl h
  | wait => exact .inl h
  | mdstat => exact .inl h
  | inotify => exact .inl h
  | change => exact .inl h

/-- What the programs hold behind a call of one of them. -/
def heldStep (posters : Finset κ) (held : κ → Option Int) (i : κ)
    (e : Event (SystemCall M) (SystemCall.Reply M)) : κ → Option Int :=
  if i ∈ posters then Function.update held i (heldAfter (held i) e) else held

/-- A call that is no reading of a 0 in the set makes nobody more hold it. -/
theorem card_holders_step_le {i : κ} {id : Nat} {e : Event (SystemCall M) (SystemCall.Reply M)}
    (h : ∀ value : Int, e = ⟨.getval id, value⟩ → ¬ ReadsNone value) :
    (holders posters (heldStep posters held i e) id).card ≤ (holders posters held id).card := by
  unfold heldStep
  split
  · refine Finset.card_le_card (holders_update_subset fun hafter => ?_)
    rcases heldAfter_eq hafter with hbefore | ⟨value, heq, hvalue⟩
    · exact hbefore
    · exact absurd hvalue (h value heq)
  · exact le_rfl

/-- One call of one program keeps the bound: a value that is added to has been given up by the holder
that adds to it. -/
theorem bounded_step {i : κ} {c : SystemCall M}
    {k : SystemCall.Reply M c → SystemProc M (α i)} {r : SystemCall.Reply M c}
    (hcard : posters.card ≤ K) (h : Bounded posters K held st) (hproc : st.procs i = .call c k)
    (heffect : SystemState.Effect stat c st.shared r s) :
    Bounded posters K (heldStep posters held i ⟨c, r⟩) ⟨s, Function.update st.procs i (k r)⟩ where
  sound := sound_of_effect (e := ⟨c, r⟩) heffect h.sound
  cautious j hj := by
    unfold heldStep
    dsimp only
    by_cases hji : j = i
    · obtain rfl := hji
      rw [if_pos hj, Function.update_self, Function.update_self]
      have hcautious := h.cautious j hj
      rw [hproc] at hcautious
      exact cautious_after hcautious
    · rw [Function.update_of_ne hji]
      have hheld : (if i ∈ posters then Function.update held i (heldAfter (held i) ⟨c, r⟩) else held) j =
          held j := by
        split
        · rw [Function.update_of_ne hji]
        · rfl
      rw [hheld]
      exact h.cautious j hj
  others j hj := by
    dsimp only
    by_cases hji : j = i
    · obtain rfl := hji
      rw [Function.update_self]
      have hothers := h.others j hj
      rw [hproc] at hothers
      exact hothers.2 r
    · rw [Function.update_of_ne hji]
      exact h.others j hj
  value set hset := by
    dsimp only at hset
    by_cases hread : ∃ value : Int, (⟨c, r⟩ : Event (SystemCall M) (SystemCall.Reply M)) =
        ⟨.getval set.id, value⟩ ∧ ReadsNone value
    · -- nobody can hold the set but who has read its 0
      obtain ⟨value, heq, hfailed, hnone⟩ := hread
      obtain ⟨rfl, hr⟩ := Sigma.mk.inj heq
      obtain rfl := eq_of_heq hr
      obtain ⟨rfl, hvalue⟩ : s = st.shared ∧ _ := heffect
      obtain ⟨a, ha, haId, haValue⟩ := hvalue.resolve_left hfailed
      obtain rfl := h.sound.eq_of_id hset ha (Int.ofNat_inj.mp haId)
      have hlow : ¬ (1 : Int) ≤ set.value := fun hone => hnone (hone.trans_eq haValue.symm)
      have hzero : set.value = 0 := by omega
      rw [hzero, Nat.zero_add]
      exact (Finset.card_le_card (Finset.filter_subset _ _)).trans hcard
    · push Not at hread
      have hholders : (holders posters (heldStep posters held i ⟨c, r⟩) set.id).card ≤
          (holders posters held set.id).card := card_holders_step_le hread
      rcases effect_cases (e := ⟨c, r⟩) heffect with ⟨hsets, -⟩ | ⟨n, key, create, -, -, -, hsets, -⟩ |
        ⟨a, -, -, hsets, -⟩ | ⟨a, ha, op, timeout, heq, hlow, -, rfl⟩
      · have hvalue := h.value set (hsets ▸ hset)
        omega
      · rw [hsets] at hset
        rcases List.mem_append.mp hset with hset | hset
        · have hvalue := h.value set hset
          omega
        · rw [List.mem_singleton.mp hset, Nat.zero_add]
          exact (Finset.card_le_card (Finset.filter_subset _ _)).trans hcard
      · rw [hsets] at hset
        have hvalue := h.value set (List.mem_of_mem_filter hset)
        omega
      · obtain ⟨b, hb, rfl⟩ := mem_changeValue_iff.mp hset
        by_cases hba : b.id = a.id
        · obtain rfl := h.sound.eq_of_id hb ha hba
          rw [if_pos rfl] at hholders ⊢
          dsimp only at hholders ⊢
          have hvalue := h.value b hb
          by_cases hop : op ≤ 0
          · omega
          · -- it is a post, so the program is counted before it and not behind it
            obtain ⟨rfl, hr⟩ := Sigma.mk.inj heq
            have hi : i ∈ posters := by
              by_contra hi
              have hothers := h.others i hi
              rw [hproc] at hothers
              exact hop (hothers.1 _ _ _ rfl)
            have hcautious := h.cautious i hi
            rw [hproc] at hcautious
            obtain ⟨rfl, hheld⟩ := hcautious.1 (by omega)
            have hstep : heldStep posters held i ⟨.semop b.id 1 timeout, r⟩ =
                Function.update held i none := if_pos hi
            rw [hstep]
            have hcount := card_holders_update_none hi hheld
            omega
        · rw [if_neg hba] at hholders ⊢
          have hvalue := h.value b hb
          omega

/-- The posters are cautious and nobody else posts: the value of a set never gets greater than a bound
that is not below the number of the posters. -/
theorem value_le_of_runs {st st' : Pool (SystemCall M) (SystemCall.Reply M) (SystemState M) κ α}
    (hs : st.shared.Sound) (h : Pool.Runs (SystemState.Effect stat) st tr st')
    (hcard : posters.card ≤ K) (hposters : ∀ i ∈ posters, Cautious none (st.procs i))
    (hothers : ∀ i ∉ posters, NeverPosts (st.procs i))
    (hvalue : ∀ set ∈ st.shared.sets, set.value ≤ K) :
    ∀ set ∈ st'.shared.sets, set.value ≤ K := by
  have hstart : Bounded posters K (fun _ => none) st := by
    refine ⟨hs, hposters, hothers, fun set hset => ?_⟩
    have hnone : holders posters (fun _ => none) set.id = ∅ :=
      Finset.filter_eq_empty_iff.mpr fun i _ => by simp
    rw [hnone, Finset.card_empty, Nat.add_zero]
    exact hvalue set hset
  have hbounded : ∃ held, Bounded posters K held st' := by
    refine h.invariant (I := fun st => ∃ held, Bounded posters K held st)
      (fun st i c k r s hI hproc heffect => ?_) ⟨_, hstart⟩
    obtain ⟨held, hheld⟩ := hI
    exact ⟨_, bounded_step hcard hheld hproc heffect⟩
  obtain ⟨held, hheld⟩ := hbounded
  intro set hset
  exact (Nat.le_add_right _ _).trans (hheld.value set hset)

end bound

/-! ## A set that is removed -/

section destroyed

variable {ι : Type} [DecidableEq ι] {α : ι → Type} {st st' : Callers M ι α}
  {tr : List (Caller ι × Event (SystemCall M) (SystemCall.Reply M))} {id : Nat}

/-- Every set with the number or with the key of the clients has both. -/
def SystemState.Single (stat : String → Option (Nat × Nat)) (s : SystemState M) (id : Nat) : Prop :=
  ∀ file, stat KEY_GEN_PATH = some file → ∀ set ∈ s.sets,
    set.id = id ↔ set.key = ftokKey file KEY_GEN_NUM

/-- There is no set with the number, and none with the key of the clients. -/
def SystemState.Gone (stat : String → Option (Nat × Nat)) (s : SystemState M) (id : Nat) : Prop :=
  (∀ set ∈ s.sets, set.id ≠ id) ∧ s.Single stat id

/-- The call has succeeded and may have created a set with the number, or one with the key of the
clients. -/
def Recreates (stat : String → Option (Nat × Nat)) (id : Nat)
    (e : Event (SystemCall M) (SystemCall.Reply M)) : Prop :=
  ∃ (key : Int) (create : Bool) (n : Int), e = ⟨.semget key create, n⟩ ∧ n ≠ -1 ∧
    (create = true ∨ key = IPC_PRIVATE) ∧
    (n = id ∨ ∃ file, stat KEY_GEN_PATH = some file ∧ key = ftokKey file KEY_GEN_NUM)

/-- The sets behind a call are those before it, or one more that the call has created. -/
theorem old_of_effect {e : Event (SystemCall M) (SystemCall.Reply M)}
    (h : SystemState.Effect stat e.1 s e.2 t) (hcreates : ¬ Recreates stat id e) {a : SemSet}
    (ha : a ∈ t.sets) :
    (∃ b ∈ s.sets, b.id = a.id ∧ b.key = a.key) ∨
      a.id ≠ id ∧ ∀ file, stat KEY_GEN_PATH = some file → a.key ≠ ftokKey file KEY_GEN_NUM := by
  rcases effect_cases h with ⟨hsets, -⟩ | ⟨n, key, create, he, hkey, -, hsets, -⟩ |
    ⟨b, -, -, hsets, -⟩ | ⟨b, -, op, timeout, -, -, -, rfl⟩
  · exact .inl ⟨a, hsets ▸ ha, rfl, rfl⟩
  · rw [hsets] at ha
    rcases List.mem_append.mp ha with ha | ha
    · exact .inl ⟨a, ha, rfl, rfl⟩
    · obtain rfl := List.mem_singleton.mp ha
      have hmay : create = true ∨ key = IPC_PRIVATE := hkey.symm.imp_left And.left
      have hdone : (n : Int) ≠ -1 := by omega
      refine .inr ⟨fun hn => hcreates ⟨key, create, n, he, hdone, hmay, .inl (congrArg _ hn)⟩, ?_⟩
      exact fun file hstat hfile =>
        hcreates ⟨key, create, n, he, hdone, hmay, .inr ⟨file, hstat, hfile⟩⟩
  · exact .inl ⟨a, List.mem_of_mem_filter (hsets ▸ ha), rfl, rfl⟩
  · obtain ⟨b', hb', rfl⟩ := mem_changeValue_iff.mp ha
    refine .inl ⟨b', hb', ?_⟩
    split <;> exact ⟨rfl, rfl⟩

/-- As long as nobody recreates the set, the registered number and key belong together in every state of
a run. -/
theorem single_of_effects {tr : List (Event (SystemCall M) (SystemCall.Reply M))}
    (h : Effects (SystemState.Effect stat) s tr u) (hsingle : s.Single stat id)
    (hcreates : ∀ e ∈ tr, ¬ Recreates stat id e) : u.Single stat id := by
  refine h.invariant (I := fun s => s.Single stat id) (fun e he s t hs heffect => ?_) hsingle
  intro file hstat a ha
  rcases old_of_effect heffect (hcreates e he) ha with ⟨b, hb, hid, hkey⟩ | ⟨hid, hkey⟩
  · rw [← hid, ← hkey]
    exact hs file hstat b hb
  · exact iff_of_false hid (hkey file hstat)

/-- As long as nobody recreates the set, it stays gone over every run. -/
theorem gone_of_effects {tr : List (Event (SystemCall M) (SystemCall.Reply M))}
    (h : Effects (SystemState.Effect stat) s tr u) (hgone : s.Gone stat id)
    (hcreates : ∀ e ∈ tr, ¬ Recreates stat id e) : u.Gone stat id := by
  refine ⟨?_, single_of_effects h hgone.2 hcreates⟩
  refine h.invariant (I := fun s => ∀ set ∈ s.sets, set.id ≠ id) (fun e he s t hs heffect => ?_) hgone.1
  intro a ha
  rcases old_of_effect heffect (hcreates e he) ha with ⟨b, hb, hid, -⟩ | ⟨hid, -⟩
  · exact hid ▸ hs b hb
  · exact hid

/-- In a sound state a registered set is the only one with its number and with the clients' key. -/
theorem single_of_registered (hs : s.Sound) (hid : s.Registered stat id) : s.Single stat id := by
  obtain ⟨file, hstat, set, hset, rfl, hkey⟩ := hid
  intro file' hstat' a ha
  obtain rfl : file = file' := Option.some.inj (hstat.symm.trans hstat')
  constructor
  · intro heq
    rw [hs.eq_of_id ha hset heq, hkey]
  · intro heq
    rw [hs.keys a ha set hset (heq.trans hkey.symm) (heq ▸ (ftokKey_ne file).2)]

/-- Behind the end of an event with the registered set there is none. -/
theorem gone_of_destroy {κ : Type} [DecidableEq κ] {i : κ}
    {tr : List (κ × Event (SystemCall M) (SystemCall.Reply M))} (hs : s.Sound)
    (hid : s.Registered stat id) (h : Effects (SystemState.Effect stat) s (tr.map Prod.snd) u)
    (hdestroy : (SemEvent.destroy id).Makes (Pool.own i tr) (pure ()))
    (hcreates : ∀ step ∈ tr, ¬ Recreates stat id step.2) : u.Gone stat id := by
  have hmapped : ∀ e ∈ tr.map Prod.snd, ¬ Recreates stat id e := by
    intro e he
    obtain ⟨step, hstep, rfl⟩ := List.mem_map.mp he
    exact hcreates step hstep
  unfold SemEvent.destroy at hdestroy
  rw [Prog.request_bind] at hdestroy
  obtain ⟨rv, rest, hown, -⟩ := Prog.makes_call_pure_iff.mp hdestroy
  obtain ⟨before, behind, rfl, -⟩ := Pool.exists_of_own_cons hown
  simp only [List.map_append, List.map_cons, Effects.append_iff, Effects.cons_iff, List.mem_append,
    List.mem_cons] at h hmapped
  obtain ⟨s₁, hbefore, s₂, hrmid, hbehind⟩ := h
  have hsingle := single_of_effects hbefore (single_of_registered hs hid) fun e he =>
    hmapped e (.inl he)
  refine gone_of_effects hbehind ?_ fun e he => hmapped e (.inr (.inr he))
  rcases hrmid with ⟨-, rfl, hnone⟩ | ⟨-, -, rfl⟩
  · exact ⟨fun a ha heq => hnone a ha (congrArg _ heq.symm), hsingle⟩
  · refine ⟨fun a ha heq => ?_, fun file hstat a ha => hsingle file hstat a (List.mem_of_mem_filter ha)⟩
    exact of_decide_eq_true (List.mem_filter.mp ha).2 (congrArg _ heq)

/-- One client destroys its event, whose set is the registered one; nothing recreates the set. All
waits of all clients that are in progress then and end later have failed, and so has every notification
that begins then. -/
theorem failed_of_destroyed {st₁ st₂ : Callers M ι α}
    {tr₁ tr₂ : List (Caller ι × Event (SystemCall M) (SystemCall.Reply M))}
    (hs : st.shared.Sound) (h₁ : Callers.Runs stat st tr₁ st₁) (h₂ : Callers.Runs stat st₁ tr₂ st₂)
    {d : ι} (hid : st.shared.Registered stat id)
    (hdestroy : st.procs (.destroying d) = SemEvent.destroy id)
    (hdestroyed : st₁.procs (.destroying d) = pure ())
    (hcreates : ∀ step ∈ tr₁ ++ tr₂, ¬ Recreates stat id step.2) :
    (∀ w timeout status, st₁.procs (.waiting w) = SemEvent.wait id timeout →
      st₂.procs (.waiting w) = pure status → status = .failed) ∧
    ∀ n rv, st₁.procs (.notifying n) = Ssimsg.main → st₂.procs (.notifying n) = pure rv → rv = -1 := by
  obtain ⟨hshared₁, hprocs₁⟩ := Pool.runs_iff.mp h₁
  obtain ⟨hshared₂, hprocs₂⟩ := Pool.runs_iff.mp h₂
  have hcreates₂ : ∀ e ∈ tr₂.map Prod.snd, ¬ Recreates stat id e := by
    intro e he
    obtain ⟨step, hstep, rfl⟩ := List.mem_map.mp he
    exact hcreates step (List.mem_append_right _ hstep)
  have hgone : st₁.shared.Gone stat id := gone_of_destroy hs hid hshared₁ (by
    have hmakes := hprocs₁ (.destroying d)
    rw [hdestroy, hdestroyed] at hmakes
    exact hmakes) fun step hstep => hcreates step (List.mem_append_left _ hstep)
  refine ⟨fun w timeout status hwait hended => ?_, fun n rv hmain hended => ?_⟩
  · have hmakes := hprocs₂ (.waiting w)
    rw [hwait, hended] at hmakes
    obtain ⟨r, hown, rfl⟩ := wait_ended hmakes
    obtain ⟨before, behind, rfl, -⟩ := Pool.exists_of_own_cons hown
    simp only [List.map_append, List.map_cons, Effects.append_iff, Effects.cons_iff,
      List.mem_append] at hshared₂ hcreates₂
    obtain ⟨s₁, hbefore, s₂, hsemop, -⟩ := hshared₂
    have hgone₁ := gone_of_effects hbefore hgone fun e he => hcreates₂ e (.inl he)
    rcases r with errno | ⟨⟩
    · have hagain : errno ≠ EAGAIN := by
        intro hagain
        obtain ⟨-, hblocked⟩ := hsemop
        obtain ⟨-, a, ha, haId, -⟩ := hblocked hagain
        exact hgone₁.1 a ha (Int.ofNat_inj.mp haId).symm
      exact if_neg hagain
    · obtain ⟨a, ha, haId, -⟩ := hsemop
      exact absurd (Int.ofNat_inj.mp haId).symm (hgone₁.1 a ha)
  · have hmakes := hprocs₂ (.notifying n)
    rw [hmain, hended] at hmakes
    rcases main_result hmakes with rfl | rfl
    · obtain ⟨key, id', value, hkey, hid', last, hown, -⟩ := main_ended hmakes
      obtain ⟨before, rest₁, rfl, hrest₁⟩ := Pool.exists_of_own_cons hown
      obtain ⟨between, behind, rfl, -⟩ := Pool.exists_of_own_cons hrest₁
      simp only [List.map_append, List.map_cons, Effects.append_iff, Effects.cons_iff,
        List.mem_append, List.mem_cons] at hshared₂ hcreates₂
      obtain ⟨s₁, hbefore, s₁', ⟨rfl, hfile⟩, s₂, hbetween, s₃, hsemget, -⟩ := hshared₂
      have hgone₁ := gone_of_effects hbefore hgone fun e he => hcreates₂ e (.inl he)
      have hgone₂ := gone_of_effects hbetween hgone₁ fun e he => hcreates₂ e (.inr (.inr (.inl he)))
      obtain ⟨file, hstat, rfl⟩ := hfile.resolve_left hkey
      rcases hsemget with ⟨heq, -⟩ | ⟨-, -, a, ha, hakey, -⟩ | ⟨hprivate | ⟨hcreate, -⟩, -⟩
      · exact absurd heq hid'
      · exact absurd ((hgone₂.2 file hstat a ha).mpr hakey) (hgone₂.1 a ha)
      · exact absurd hprivate (ftokKey_ne file).2
      · exact absurd hcreate (by simp)
    · rfl

/-- A client removes the set while another one waits; `ssimsg` then finds no set. -/
theorem failed_of_destroyed_begun :
    ∃ (st : Callers Unit Bool fun _ => Unit) (status : SemEvent.Status) (rv : Int),
      st.procs (.waiting true) = Prog.pure status ∧ st.procs (.notifying true) = Prog.pure rv ∧
        status = .failed ∧ rv = -1 := by
  have hruns : ∃ st₁ st₂,
      Callers.Runs (fun _ => some (0, 0)) Callers.begun
        [(.destroying true, ⟨.rmid (5 : Nat), (0 : Int)⟩)] st₁ ∧
      Callers.Runs (fun _ => some (0, 0)) st₁
        [(.waiting true, ⟨.semop (5 : Nat) (-1) (some (0, 0)), .error 43⟩),
          (.notifying true, ⟨.ftok KEY_GEN_PATH KEY_GEN_NUM, ftokKey (0, 0) KEY_GEN_NUM⟩),
          (.notifying true, ⟨.semget (ftokKey (0, 0) KEY_GEN_NUM) false, (-1 : Int)⟩)] st₂ ∧
      st₁.procs (.destroying true) = Prog.pure () ∧
      st₁.procs (.waiting true) = SemEvent.wait (5 : Nat) 0 ∧
      st₁.procs (.notifying true) = Ssimsg.main ∧
      st₂.procs (.waiting true) = Prog.pure SemEvent.Status.failed ∧
      st₂.procs (.notifying true) = Prog.pure (-1 : Int) := by
    refine ⟨_, _, .cons rfl (.inr ⟨rfl, ⟨_, List.mem_singleton_self _, rfl⟩, rfl⟩) (.nil _),
      .cons rfl ⟨rfl, fun h => absurd h (by decide)⟩
      (.cons rfl ⟨rfl, .inr ⟨(0, 0), rfl, rfl⟩⟩ (.cons rfl (.inl ⟨rfl, rfl⟩) (.nil _))),
      rfl, rfl, rfl, rfl, rfl⟩
  obtain ⟨st₁, st₂, h₁, h₂, hdestroyed, hwait, hnotify, hfailed, hrefused⟩ := hruns
  have hregistered : Callers.begun.shared.Registered (fun _ => some (0, 0)) 5 :=
    ⟨(0, 0), rfl, _, List.mem_singleton_self _, rfl, rfl⟩
  obtain ⟨hwaits, hnotifies⟩ := failed_of_destroyed sound_begun h₁ h₂ hregistered rfl hdestroyed (by
    rintro step hstep ⟨key, create, n, heq, -, hmay, -⟩
    simp only [List.cons_append, List.nil_append, List.mem_cons, List.not_mem_nil, or_false] at hstep
    rcases hstep with rfl | rfl | rfl | rfl
    · exact absurd (Sigma.mk.inj heq).1 (by simp)
    · exact absurd (Sigma.mk.inj heq).1 (by simp)
    · exact absurd (Sigma.mk.inj heq).1 (by simp)
    · obtain ⟨rfl, rfl⟩ := SystemCall.semget.inj (Sigma.mk.inj heq).1
      exact (ftokKey_ne (0, 0)).2 (hmay.resolve_left (by simp)))
  exact ⟨st₂, _, _, hfailed, hrefused, hwaits true 0 _ hwait hfailed,
    hnotifies true _ hnotify hrefused⟩

end destroyed

end Irstessi
