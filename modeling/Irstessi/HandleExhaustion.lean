import Irstessi.Registry
import Mathlib.Data.List.Induction
import Mathlib.Data.List.Perm.Subperm

/-!
# When handles run out

A fresh object gets the handle behind the greatest one in use. Sessions ignore a failed insertion and
list the object all the same.

* `RegistryOp`, `RegistryState.run`: runs of insertions and removals by any number of sessions.
* `AllInUse`: no handle is free; `insert_fails_iff`: an insertion of a fresh object fails iff the
  greatest handle is in use.
* `entitled`: the objects that have been added while fewer objects than handles were registered.
* **`neverRunsOut_iff`**: in a run insertions fail only for want of handles, and all these objects
  have one, iff no fresh object is added while the greatest handle is in use and another is free.

A run is a list of operations of any number of sessions. That keys and handles agree is kept by each of
them whatever they are, an insertion that fails included. An insertion of a fresh object fails iff the
greatest handle is in use, which need not mean that all are: keys are counted from the greatest one on,
and those below that have become free are not used again. `entitled` follows the objects that should
have got a handle as long as there were fewer objects than handles. The relay at the end shows that two
objects at a time are enough to run out: each session is opened before the one before it is closed.
-/

namespace Irstessi

/-! ## Runs -/

/-- What sessions do to the handle manager. -/
inductive RegistryOp (α ι : Type)
  /-- A session adds an object to one of its lists. -/
  | add (s : ι) (k : ObjectKind) (o : α)
  /-- The object with the handle is removed; its session goes on to list it. -/
  | remove (h : Nat)
  /-- A session is destroyed. -/
  | destroy (s : ι)
  deriving DecidableEq, Repr

namespace RegistryState

variable {α ι : Type} [DecidableEq α] [DecidableEq ι]

def step (st : RegistryState α ι) : RegistryOp α ι → RegistryState α ι
  | .add s k o => st.add s k o
  | .remove h => st.remove h
  | .destroy s => st.destroy s

/-- The registry after some operations. -/
def run (ops : List (RegistryOp α ι)) : RegistryState α ι := ops.foldl step start

/-- A run with one more operation is the run and then this operation. -/
@[simp] theorem run_append_singleton (ops : List (RegistryOp α ι)) (op : RegistryOp α ι) :
    run (ops ++ [op]) = (run ops).step op := by
  simp [run]

/-- Each operation keeps keys and handles consistent: registering, removing and looking up. -/
theorem consistent_step {st : RegistryState α ι} (h : st.manager.Consistent)
    (op : RegistryOp α ι) : (st.step op).manager.Consistent := by
  cases op with
  | add s k o => exact HandleManager.consistent_insert h o
  | remove handle => exact HandleManager.consistent_remove h handle
  | destroy s => exact HandleManager.consistent_removeAll h _

/-- By induction over the operations, keys and handles are consistent after every run from an empty
registry. -/
theorem consistent_run (ops : List (RegistryOp α ι)) : (run ops).manager.Consistent := by
  induction ops using List.reverseRecOn with
  | nil => exact HandleManager.consistent_empty
  | append_singleton ops op ih =>
      rw [run_append_singleton]
      exact consistent_step ih op

end RegistryState

/-! ## Full maps -/

namespace HandleManager

variable {α : Type} {m : HandleManager α}

/-- Every handle but the null handle is in use. -/
def AllInUse (m : HandleManager α) : Prop :=
  ∀ h, 0 < h → h ≤ handleMax → m.objectAt h ≠ none

/-- The keys up to `n` are all there: there are as many objects. -/
theorem le_length_of_keys {n : Nat} (h : ∀ k, 0 < k → k ≤ n → ∃ o, (k, o) ∈ m.m_objects) :
    n ≤ m.m_objects.length := by
  have hsubset : List.range' 1 n ⊆ m.m_objects.map Prod.fst := by
    intro k hk
    obtain ⟨hpos, hle⟩ := List.mem_range'_1.mp hk
    obtain ⟨o, ho⟩ := h k hpos (by omega)
    exact List.mem_map_of_mem ho
  have hnodup : (List.range' 1 n).Nodup := List.nodup_range'
  have hlength := hnodup.length_le_of_subset hsubset
  rwa [List.length_range', List.length_map] at hlength

/-- If all handles are in use there are at least as many objects as handles, since no two objects share
one. -/
theorem Consistent.handleMax_le_length (hm : m.Consistent) (h : m.AllInUse) :
    handleMax ≤ m.m_objects.length := by
  apply le_length_of_keys
  intro k hpos hle
  obtain ⟨o, ho⟩ := Option.ne_none_iff_exists'.mp (h k hpos hle)
  obtain ⟨h0, hown⟩ := hm.objectAt_iff.mp ho
  exact ⟨o, hm.mem_iff.mpr ⟨h0, hown⟩⟩

/-- The greatest key is the greatest handle exactly where an object has this handle, whatever the gaps
below it are. -/
theorem Consistent.greatest_eq_iff (hm : m.Consistent) :
    m.greatest = handleMax ↔ m.objectAt handleMax ≠ none := by
  constructor
  · intro hfull
    rcases hm.greatest_eq_zero_or with hzero | ⟨o, ho⟩
    · exact absurd (hzero.symm.trans hfull) (by decide)
    · exact hm.objectAt_ne_none (by decide) (ho.trans hfull)
  · intro hused
    obtain ⟨o, ho⟩ := Option.ne_none_iff_exists'.mp hused
    have hle := hm.handle_le o
    rw [(hm.objectAt_iff.mp ho).2] at hle
    exact le_antisymm hm.greatest_le hle

variable [DecidableEq α]

/-- An insertion of a fresh object fails iff the greatest handle is in use. -/
theorem Consistent.insert_fails_iff (hm : m.Consistent) {o : α} (ho : m.handle o = 0) :
    (m.insert o).2.2 = false ↔ m.objectAt handleMax ≠ none := by
  rw [← hm.greatest_eq_iff]
  rcases eq_or_lt_of_le hm.greatest_le with hfull | hroom
  · rw [insert_of_full ho hfull]
    exact iff_of_true rfl hfull
  · rw [insert_of_fresh hm ho hroom]
    exact iff_of_false (by simp) (Nat.ne_of_lt hroom)

end HandleManager

/-! ## Exhaustion -/

section exhaustion

variable {α ι : Type} [DecidableEq α] [DecidableEq ι]

/-- The objects that an operation leaves of those that have been added while fewer objects than
handles were registered, and not been removed since. -/
def entitledStep (st : RegistryState α ι) (objects : Set α) : RegistryOp α ι → Set α
  | .add _ _ o => {o' | o' ∈ objects ∨ (o' = o ∧ st.manager.m_objects.length < handleMax)}
  | .remove h => {o ∈ objects | st.manager.handle o = h → h = SSI_NULL_HANDLE}
  | .destroy s => {o ∈ objects | o ∉ st.addedBy s}

/-- The objects that have been added while fewer objects than handles were registered, and not been
removed since. -/
def entitled (ops : List (RegistryOp α ι)) : Set α :=
  (ops.foldl (fun x op => (x.1.step op, entitledStep x.1 x.2 op))
    ((.start : RegistryState α ι), (∅ : Set α))).2

/-- What is entitled to a handle after one more operation depends on the state before it. -/
theorem entitled_append_singleton (ops : List (RegistryOp α ι)) (op : RegistryOp α ι) :
    entitled (ops ++ [op]) = entitledStep (.run ops) (entitled ops) op := by
  have hstate : ∀ x : RegistryState α ι × Set α,
      (ops.foldl (fun x op => (x.1.step op, entitledStep x.1 x.2 op)) x).1 =
        ops.foldl RegistryState.step x.1 := by
    induction ops with
    | nil => exact fun _ => rfl
    | cons op ops ih => exact fun x => ih _
  unfold entitled RegistryState.run
  rw [List.foldl_append, List.foldl_cons, List.foldl_nil, hstate]

/-- Insertions of fresh objects in the run fail only if all handles are in use, and objects that were
added while fewer objects than handles were registered have one. -/
structure NeverRunsOut (ops : List (RegistryOp α ι)) : Prop where
  insert : ∀ before s k o, before ++ [.add s k o] <+: ops →
    (RegistryState.run before).manager.handle o = SSI_NULL_HANDLE →
    ((RegistryState.run before).manager.insert o).2.2 = false →
    (RegistryState.run before).manager.AllInUse
  listed : ∀ before, before <+: ops → ∀ o ∈ entitled before,
    (RegistryState.run before).manager.handle o ≠ SSI_NULL_HANDLE

/-- Where a fresh object is added the greatest handle is free, or all are in use. -/
def GreatestStaysFree (ops : List (RegistryOp α ι)) : Prop :=
  ∀ before s k o, before ++ [.add s k o] <+: ops →
    (RegistryState.run before).manager.handle o = SSI_NULL_HANDLE →
    (RegistryState.run before).manager.objectAt handleMax = none ∨
      (RegistryState.run before).manager.AllInUse

/-- An operation leaves the entitled objects with their handles. -/
theorem handle_ne_of_mem_entitledStep {st : RegistryState α ι} {objects : Set α}
    (hm : st.manager.Consistent)
    (hobjects : ∀ o ∈ objects, st.manager.handle o ≠ SSI_NULL_HANDLE) {op : RegistryOp α ι}
    (hfree : ∀ s k o, op = .add s k o → st.manager.handle o = SSI_NULL_HANDLE →
      st.manager.objectAt handleMax = none ∨ st.manager.AllInUse) :
    ∀ o ∈ entitledStep st objects op, (st.step op).manager.handle o ≠ SSI_NULL_HANDLE := by
  intro o ho
  cases op with
  | add s k added =>
      show (st.manager.insert added).1.handle o ≠ SSI_NULL_HANDLE
      by_cases heq : o = added
      · subst heq
        rw [HandleManager.handle_insert hm]
        by_cases hfresh : st.manager.handle o = 0
        · rcases ho with hold | ⟨-, hroom⟩
          · exact absurd hfresh (hobjects o hold)
          · have hmax : st.manager.objectAt handleMax = none := by
              apply (hfree s k o rfl hfresh).resolve_right
              intro hall
              exact absurd (hm.handleMax_le_length hall) (Nat.not_le_of_lt hroom)
            have hless : st.manager.greatest < handleMax := by
              apply lt_of_le_of_ne hm.greatest_le
              intro hfull
              exact hm.greatest_eq_iff.mp hfull hmax
            rw [HandleManager.insert_of_fresh hm hfresh hless]
            exact Nat.succ_ne_zero _
        · rw [HandleManager.insert_of_registered hm hfresh]
          exact hfresh
      · rw [HandleManager.handle_insert_of_ne hm heq]
        exact hobjects o (ho.resolve_right fun hnew => heq hnew.1)
  | remove h =>
      show (st.manager.remove h).1.handle o ≠ SSI_NULL_HANDLE
      obtain ⟨hold, hkept⟩ := ho
      rw [HandleManager.handle_remove hm, if_neg]
      · exact hobjects o hold
      · intro hown
        exact hobjects o hold (hown.trans (hkept hown))
  | destroy s =>
      show (st.manager.removeAll (st.addedBy s)).handle o ≠ SSI_NULL_HANDLE
      rw [HandleManager.handle_removeAll hm, if_neg ho.2]
      exact hobjects o ho.1

/-- In a run insertions fail only for want of handles, and objects added while fewer objects than
handles were registered have one, iff a fresh object is never added while the greatest handle is in
use and another is free. -/
theorem neverRunsOut_iff (ops : List (RegistryOp α ι)) :
    NeverRunsOut ops ↔ GreatestStaysFree ops := by
  constructor
  · intro h before s k o hprefix hfresh
    rw [or_iff_not_imp_left]
    intro hused
    apply h.insert before s k o hprefix hfresh
    exact ((RegistryState.consistent_run before).insert_fails_iff hfresh).mpr hused
  · intro h
    refine ⟨?_, ?_⟩
    · intro before s k o hprefix hfresh hfails
      have hused := ((RegistryState.consistent_run before).insert_fails_iff hfresh).mp hfails
      exact (h before s k o hprefix hfresh).resolve_left hused
    · intro before hprefix
      induction before using List.reverseRecOn with
      | nil => exact fun o ho => ho.elim
      | append_singleton before op ih =>
          rw [entitled_append_singleton, RegistryState.run_append_singleton]
          apply handle_ne_of_mem_entitledStep (RegistryState.consistent_run before)
          · exact ih ((List.prefix_append before [op]).trans hprefix)
          · rintro s k o rfl
            exact h before s k o hprefix

end exhaustion

/-! ## Overlapping sessions -/

/-- Sessions follow one another, each opened before the one before is closed; the last one is number
`n`. Each adds one object. -/
def sampleRelay : Nat → List (RegistryOp Nat Nat)
  | 0 => [.add 0 .endDevice 0]
  | n + 1 => sampleRelay n ++ [.add (n + 1) .endDevice (n + 1)] ++ [.destroy n]

/-- The object `n` of session `n` is the only one, and its handle is `n + 1`. -/
structure Alone (st : RegistryState Nat Nat) (n : Nat) : Prop where
  consistent : st.manager.Consistent
  handle : ∀ o, st.manager.handle o = if o = n then n + 1 else 0
  added : ∀ s o, o ∈ st.addedBy s ↔ s = n ∧ o = n

/-- Where the object `n` is the only one, the greatest key is its handle, and the next one is counted
from there. -/
theorem Alone.greatest {st : RegistryState Nat Nat} {n : Nat} (h : Alone st n) :
    st.manager.greatest = n + 1 := by
  have hown : st.manager.handle n = n + 1 := (h.handle n).trans (if_pos rfl)
  rcases h.consistent.greatest_eq_zero_or with hzero | ⟨o, ho⟩
  · have hle := h.consistent.handle_le n
    omega
  · have hle := h.consistent.handle_le n
    rw [h.handle o] at ho
    split at ho
    next => exact ho.symm
    next => omega

/-- The next session is opened, and the one before is closed. -/
theorem Alone.relay {st : RegistryState Nat Nat} {n : Nat} (h : Alone st n)
    (hn : n + 1 < handleMax) : Alone ((st.add (n + 1) .endDevice (n + 1)).destroy n) (n + 1) := by
  have hfresh : st.manager.handle (n + 1) = 0 := (h.handle _).trans (if_neg (Nat.succ_ne_self n))
  have hinsert := HandleManager.insert_of_fresh h.consistent hfresh (by rwa [h.greatest])
  have hm : (st.add (n + 1) .endDevice (n + 1)).manager.Consistent :=
    HandleManager.consistent_insert h.consistent _
  have hadded : ∀ s o, o ∈ (st.add (n + 1) .endDevice (n + 1)).addedBy s ↔
      s = n ∧ o = n ∨ s = n + 1 ∧ o = n + 1 := by
    intro s o
    rw [RegistryState.mem_addedBy_add, h.added]
  refine ⟨HandleManager.consistent_removeAll hm _, ?_, ?_⟩
  · intro o
    refine (HandleManager.handle_removeAll hm _ o).trans ?_
    rw [if_congr (hadded n o) rfl rfl]
    show (if n = n ∧ o = n ∨ n = n + 1 ∧ o = n + 1 then 0
      else (st.manager.insert (n + 1)).1.handle o) = _
    by_cases hnew : o = n + 1
    · rw [if_neg (by omega), if_pos hnew, hnew, HandleManager.handle_insert h.consistent, hinsert,
        h.greatest]
    · rw [HandleManager.handle_insert_of_ne h.consistent hnew, h.handle o, if_neg hnew]
      by_cases hold : o = n
      · rw [if_pos (.inl ⟨rfl, hold⟩)]
      · rw [if_neg hold, ite_self]
  · intro s o
    rw [RegistryState.addedBy_destroy]
    split
    next heq =>
      apply iff_of_false List.not_mem_nil
      omega
    next hne =>
      rw [hadded]
      omega

/-- By induction on the number of rounds: the relay leaves one object only, whose handle has grown with
every round. -/
theorem alone_sampleRelay {n : Nat} (hn : n < handleMax) :
    Alone (.run (sampleRelay n)) n := by
  induction n with
  | zero =>
      refine ⟨RegistryState.consistent_run _, ?_, ?_⟩
      · intro o
        show ((HandleManager.empty : HandleManager Nat).insert 0).1.handle o = _
        by_cases hzero : o = 0
        · rw [hzero]
          rfl
        · rw [HandleManager.handle_insert_of_ne HandleManager.consistent_empty hzero, if_neg hzero]
          rfl
      · intro s o
        show o ∈ ((RegistryState.start : RegistryState Nat Nat).add 0 .endDevice 0).addedBy s ↔ _
        rw [RegistryState.mem_addedBy_add]
        exact or_iff_right (by simp [RegistryState.addedBy, RegistryState.start])
  | succ n ih =>
      rw [sampleRelay, RegistryState.run_append_singleton, RegistryState.run_append_singleton]
      exact (ih (by omega)).relay hn

/-- The sessions of a relay never have more than two objects between them, and a session that is
opened when all handles have been given once gets none. -/
theorem not_neverRunsOut_relay : ¬ ∀ ops : List (RegistryOp Nat Nat), NeverRunsOut ops := by
  intro h
  obtain ⟨n, hn⟩ : ∃ n, n + 1 = handleMax := ⟨2 ^ 32 - 2, by decide⟩
  have halone : Alone (.run (sampleRelay n)) n := alone_sampleRelay (by omega)
  have hm := halone.consistent
  have hfresh : (RegistryState.run (sampleRelay n)).manager.handle (n + 1) = 0 :=
    (halone.handle _).trans (if_neg (Nat.succ_ne_self n))
  have hused : (RegistryState.run (sampleRelay n)).manager.objectAt handleMax ≠ none :=
    hm.greatest_eq_iff.mp (halone.greatest.trans hn)
  have hall := (h (sampleRelay n ++ [.add (n + 1) .endDevice (n + 1)])).insert (sampleRelay n)
    (n + 1) .endDevice (n + 1) List.prefix_rfl hfresh ((hm.insert_fails_iff hfresh).mpr hused)
  obtain ⟨o, ho⟩ := Option.ne_none_iff_exists'.mp (hall 1 (by decide) (by decide))
  have hone := (hm.objectAt_iff.mp ho).2
  rw [halone.handle o] at hone
  have hlarge : 1 < handleMax := by decide
  split at hone
  next => omega
  next => omega

end Irstessi
