import Irstessi.Lib.KeyMap
import Mathlib.Logic.Function.Basic
import Mathlib.Data.List.Nodup
import Mathlib.Order.Nat
import Mathlib.Algebra.Order.Group.Nat

/-!
# `class HandleManager`

The map from handles to objects that all sessions of a process share. A handle is kept twice: as the
key in the map and as `m_handle` of the object.

* `HandleManager.insert`, `HandleManager.remove`, `HandleManager.objectAt`: the operations.
* `Consistent`, `consistent_insert`, `consistent_remove`: map and objects agree.
* `handle_addAll`: fresh objects get the handles behind the greatest key, one after the other, until
  there are none left.

The map is a list of pairs in the order of the keys (`Lib.KeyMap`), and the handles of the objects are a
function beside it. `Consistent` says that they agree: an object is under the key that is its handle,
and objects without a handle are under none. An insertion offers the greatest key and one, and the null
handle behind the greatest handle value; the entry is made only under a key that is free. The lemmas say
what each operation does to both sides; sessions and calls insert rows of objects, for which
`handle_addAll` gives all handles at once.
-/

namespace Irstessi

/-- Source: `ssi.h` -/
def SSI_NULL_HANDLE : Nat := 0

/-- `numeric_limits<SSI_Handle>::max()` -/
def handleMax : Nat := 2 ^ 32 - 1

/-- The map in the order of its keys, and the handles that the objects have.
Source: `handle_manager.h` `HandleManager`, `object.h` `Object` -/
structure HandleManager (α : Type) where
  m_objects : List (Nat × α)
  handle : α → Nat

namespace HandleManager

variable {α : Type}

/-- No object, and none has a handle. -/
def empty : HandleManager α := ⟨[], fun _ => SSI_NULL_HANDLE⟩

/-- Source: `handle_manager.h` `HandleManager::at` -/
def objectAt (m : HandleManager α) (h : Nat) : Option α :=
  if h = SSI_NULL_HANDLE then none else KeyMap.lookup m.m_objects h

/-- Source: `handle_manager.h` `HandleManager::getUniqueHandle` -/
def getUniqueHandle (m : HandleManager α) (o : α) : Nat :=
  if (m.objectAt (m.handle o)).isSome then m.handle o
  else match m.m_objects.getLast? with
    | some last => if last.1 = handleMax then SSI_NULL_HANDLE else last.1 + 1
    | none => 1

section operations

variable [DecidableEq α]

/-- The handle of the object, and whether the object is new in the map.
Source: `handle_manager.h` `HandleManager::insert` -/
def insert (m : HandleManager α) (o : α) : HandleManager α × Nat × Bool :=
  let unique := m.getUniqueHandle o
  if unique = SSI_NULL_HANDLE then (m, SSI_NULL_HANDLE, false)
  else
    let ret := KeyMap.insertNew unique o m.m_objects
    (if ret.2 then ⟨ret.1, Function.update m.handle o unique⟩ else m, unique, ret.2)

/-- Source: `handle_manager.h` `HandleManager::remove(SSI_Handle)` -/
def remove (m : HandleManager α) (h : Nat) : HandleManager α × Option α :=
  match m.objectAt h with
  | none => (m, none)
  | some o =>
      (⟨m.m_objects.filter fun x => x.1 ≠ h, Function.update m.handle o SSI_NULL_HANDLE⟩, some o)

/-- Source: `handle_manager.h` `HandleManager::remove(T *)` -/
def removeObject (m : HandleManager α) (o : α) : HandleManager α := (m.remove (m.handle o)).1

end operations

/-- The greatest key; 0 where there is none. -/
def greatest (m : HandleManager α) : Nat :=
  match m.m_objects.getLast? with
  | some last => last.1
  | none => 0

/-! ## Consistency -/

/-- The keys ascend and are handles, and map and objects agree on them. -/
structure Consistent (m : HandleManager α) : Prop where
  sorted : KeyMap.Sorted m.m_objects
  isHandle : ∀ x ∈ m.m_objects, 0 < x.1 ∧ x.1 ≤ handleMax
  own : ∀ x ∈ m.m_objects, m.handle x.2 = x.1
  registered : ∀ o, m.handle o ≠ 0 → (m.handle o, o) ∈ m.m_objects

/-- A new handle manager has no keys and no handles. -/
theorem consistent_empty : (empty : HandleManager α).Consistent where
  sorted := KeyMap.sorted_nil
  isHandle _ h := absurd h List.not_mem_nil
  own _ h := absurd h List.not_mem_nil
  registered _ h := absurd rfl h

section consistent

variable {m : HandleManager α} (hm : m.Consistent)

include hm

/-- The greatest key is an upper bound of the keys. -/
theorem Consistent.le_greatest {x : Nat × α} (hx : x ∈ m.m_objects) : x.1 ≤ m.greatest := by
  unfold greatest
  split
  next last hlast => exact hm.sorted.le_getLast hlast hx
  next hnone =>
    rw [List.getLast?_eq_none_iff] at hnone
    rw [hnone] at hx
    simp at hx

/-- No key is above the greatest handle. -/
theorem Consistent.greatest_le : m.greatest ≤ handleMax := by
  unfold greatest
  split
  next last hlast => exact (hm.isHandle last (List.mem_of_getLast? hlast)).2
  next => exact Nat.zero_le _

/-- No handle is above the greatest key. -/
theorem Consistent.handle_le (o : α) : m.handle o ≤ m.greatest := by
  by_cases ho : m.handle o = 0
  · rw [ho]
    exact Nat.zero_le _
  · exact hm.le_greatest (hm.registered o ho)

/-- The object under a key is the one whose handle is the key, and there is none under the null
handle. -/
theorem Consistent.objectAt_iff {h : Nat} {o : α} :
    m.objectAt h = some o ↔ h ≠ 0 ∧ m.handle o = h := by
  unfold objectAt
  split
  next h0 => simp [h0, SSI_NULL_HANDLE]
  next h0 =>
    rw [KeyMap.lookup_eq_some_iff hm.sorted]
    constructor
    · exact fun hmem => ⟨h0, hm.own _ hmem⟩
    · rintro ⟨h0, rfl⟩
      exact hm.registered o h0

/-- The entries are the objects under their own handles. -/
theorem Consistent.mem_iff {x : Nat × α} : x ∈ m.m_objects ↔ x.1 ≠ 0 ∧ m.handle x.2 = x.1 := by
  constructor
  · exact fun hx => ⟨Nat.ne_of_gt (hm.isHandle x hx).1, hm.own x hx⟩
  · rintro ⟨h0, hown⟩
    have hmem := hm.registered x.2 (by rwa [hown])
    rwa [hown] at hmem

/-- The greatest key is the handle of an object. -/
theorem Consistent.greatest_eq_zero_or : m.greatest = 0 ∨ ∃ o, m.handle o = m.greatest := by
  unfold greatest
  split
  next last hlast => exact .inr ⟨last.2, hm.own last (List.mem_of_getLast? hlast)⟩
  next => exact .inl rfl

/-- The handles of the objects determine the greatest key. -/
theorem Consistent.greatest_le_of_handle {m' : HandleManager α} (hm' : m'.Consistent)
    (h : ∀ o, m.handle o = m'.handle o) : m.greatest ≤ m'.greatest := by
  rcases hm.greatest_eq_zero_or with hzero | ⟨o, ho⟩
  · rw [hzero]
    exact Nat.zero_le _
  · rw [← ho, h o]
    exact hm'.handle_le o

omit hm in
/-- An object without a handle is offered the greatest key and one, or the null handle where this is no
handle any more. -/
theorem getUniqueHandle_of_fresh {o : α} (ho : m.handle o = 0) :
    m.getUniqueHandle o = if m.greatest = handleMax then 0 else m.greatest + 1 := by
  unfold getUniqueHandle greatest
  rw [ho]
  rcases m.m_objects.getLast? with _ | last <;> rfl

omit hm in
/-- The map is sorted, so that its greatest key is the last one. -/
theorem greatest_append (k : Nat) (o : α) (handle : α → Nat) :
    (⟨m.m_objects ++ [(k, o)], handle⟩ : HandleManager α).greatest = k := by
  simp [greatest]

/-! ## Insertion -/

variable [DecidableEq α]

/-- An object that is registered keeps its handle. -/
theorem insert_of_registered {o : α} (ho : m.handle o ≠ 0) : m.insert o = (m, m.handle o, false) := by
  have hsome : m.objectAt (m.handle o) = some o := hm.objectAt_iff.mpr ⟨ho, rfl⟩
  have hunique : m.getUniqueHandle o = m.handle o := by
    unfold getUniqueHandle
    rw [hsome]
    rfl
  unfold insert
  rw [hunique]
  simp only [if_neg (show ¬ m.handle o = SSI_NULL_HANDLE from ho)]
  rw [KeyMap.insertNew_of_mem hm.sorted (hm.registered o ho)]
  rfl

/-- A fresh object gets the handle behind the greatest key. -/
theorem insert_of_fresh {o : α} (ho : m.handle o = 0) (hroom : m.greatest < handleMax) :
    m.insert o = (⟨m.m_objects ++ [(m.greatest + 1, o)], Function.update m.handle o (m.greatest + 1)⟩,
      m.greatest + 1, true) := by
  have hlt : ∀ x ∈ m.m_objects, x.1 < m.greatest + 1 := by
    intro x hx
    have := hm.le_greatest hx
    omega
  unfold insert
  rw [getUniqueHandle_of_fresh ho, if_neg (Nat.ne_of_lt hroom)]
  simp only [SSI_NULL_HANDLE, Nat.add_one_ne_zero, if_false]
  rw [KeyMap.insertNew_of_forall_lt hlt]
  rfl

omit hm in
/-- There is no handle left. -/
theorem insert_of_full {o : α} (ho : m.handle o = 0) (hfull : m.greatest = handleMax) :
    m.insert o = (m, 0, false) := by
  unfold insert
  rw [getUniqueHandle_of_fresh ho, if_pos hfull]
  rfl

/-- A fresh object behind the greatest key. -/
theorem consistent_append {o : α} (ho : m.handle o = 0) (hroom : m.greatest < handleMax) :
    (⟨m.m_objects ++ [(m.greatest + 1, o)], Function.update m.handle o (m.greatest + 1)⟩ :
      HandleManager α).Consistent where
  sorted := hm.sorted.append_singleton fun x hx => Nat.lt_succ_of_le (hm.le_greatest hx)
  isHandle x hx := by
    rcases List.mem_append.mp hx with hx | hx
    · exact hm.isHandle x hx
    · rw [List.mem_singleton.mp hx]
      exact ⟨Nat.succ_pos _, hroom⟩
  own x hx := by
    show Function.update m.handle o (m.greatest + 1) x.2 = x.1
    rcases List.mem_append.mp hx with hold | hnew
    · have hne : x.2 ≠ o := by
        rintro rfl
        have hown := hm.own x hold
        have hpos := (hm.isHandle x hold).1
        omega
      rw [Function.update_of_ne hne]
      exact hm.own x hold
    · rw [List.mem_singleton.mp hnew, Function.update_self]
  registered o' ho' := by
    show (Function.update m.handle o (m.greatest + 1) o', o') ∈ m.m_objects ++ [(m.greatest + 1, o)]
    by_cases heq : o' = o
    · subst heq
      rw [Function.update_self]
      exact List.mem_append_right _ (List.mem_singleton_self _)
    · have hother : m.handle o' ≠ 0 := by
        rwa [← Function.update_of_ne heq (m.greatest + 1) m.handle]
      rw [Function.update_of_ne heq]
      exact List.mem_append_left _ (hm.registered o' hother)

/-- Insertion keeps map and objects in agreement. -/
theorem consistent_insert (o : α) : (m.insert o).1.Consistent := by
  by_cases ho : m.handle o = 0
  · rcases eq_or_lt_of_le hm.greatest_le with hfull | hroom
    · rw [insert_of_full ho hfull]
      exact hm
    · rw [insert_of_fresh hm ho hroom]
      exact consistent_append hm ho hroom
  · rw [insert_of_registered hm ho]
    exact hm

/-- Insertion leaves the other objects' handles. -/
theorem handle_insert_of_ne {o o' : α} (hne : o' ≠ o) : (m.insert o).1.handle o' = m.handle o' := by
  by_cases ho : m.handle o = 0
  · rcases eq_or_lt_of_le hm.greatest_le with hfull | hroom
    · rw [insert_of_full ho hfull]
    · rw [insert_of_fresh hm ho hroom]
      exact Function.update_of_ne hne _ _
  · rw [insert_of_registered hm ho]

/-- The handle that is returned is the object's. -/
theorem handle_insert (o : α) : (m.insert o).1.handle o = (m.insert o).2.1 := by
  by_cases ho : m.handle o = 0
  · rcases eq_or_lt_of_le hm.greatest_le with hfull | hroom
    · rw [insert_of_full ho hfull]
      exact ho
    · rw [insert_of_fresh hm ho hroom]
      exact Function.update_self _ _ _
  · rw [insert_of_registered hm ho]

/-! ## Removal -/

omit hm in
/-- Removing under a key that is not there changes nothing. -/
theorem remove_of_none {h : Nat} (hat : m.objectAt h = none) : m.remove h = (m, none) := by
  unfold remove
  rw [hat]

omit hm in
/-- Removing under a key drops its entry and resets the handle of the object that it held. -/
theorem remove_of_some {h : Nat} {o : α} (hat : m.objectAt h = some o) : m.remove h =
    (⟨m.m_objects.filter fun x => x.1 ≠ h, Function.update m.handle o SSI_NULL_HANDLE⟩, some o) := by
  unfold remove
  rw [hat]

omit [DecidableEq α] in
/-- A handle of an object is a key. -/
theorem Consistent.objectAt_ne_none {h : Nat} {o : α} (h0 : h ≠ 0) (ho : m.handle o = h) :
    m.objectAt h ≠ none := by
  rw [hm.objectAt_iff.mpr ⟨h0, ho⟩]
  exact Option.some_ne_none o

/-- Removal takes the handle from the object that has it. -/
theorem handle_remove (h : Nat) (o : α) :
    (m.remove h).1.handle o = if m.handle o = h then 0 else m.handle o := by
  rcases hat : m.objectAt h with _ | o'
  · rw [remove_of_none hat]
    split
    next heq =>
      by_contra h0
      exact hm.objectAt_ne_none (fun hzero => h0 (heq.trans hzero)) heq hat
    next => rfl
  · rw [remove_of_some hat]
    obtain ⟨h0, hown⟩ := hm.objectAt_iff.mp hat
    by_cases heq : o = o'
    · subst heq
      rw [if_pos hown]
      exact Function.update_self _ _ _
    · have hne : m.handle o ≠ h := by
        intro hh
        have hsome := hm.objectAt_iff.mpr ⟨h0, hh⟩
        rw [hat] at hsome
        exact heq (Option.some.inj hsome).symm
      rw [if_neg hne]
      exact Function.update_of_ne heq _ _

/-- The entries that are left are those of the other keys. -/
theorem mem_remove_iff (h : Nat) {x : Nat × α} :
    x ∈ (m.remove h).1.m_objects ↔ x ∈ m.m_objects ∧ x.1 ≠ h := by
  rcases hat : m.objectAt h with _ | o'
  · rw [remove_of_none hat]
    constructor
    · intro hx
      refine ⟨hx, ?_⟩
      rintro rfl
      obtain ⟨h0, hown⟩ := hm.mem_iff.mp hx
      exact hm.objectAt_ne_none h0 hown hat
    · exact And.left
  · rw [remove_of_some hat]
    simp

/-- Removal keeps map and objects in agreement. -/
theorem consistent_remove (h : Nat) : (m.remove h).1.Consistent := by
  refine ⟨?_, ?_, ?_, ?_⟩
  · unfold remove
    split
    next => exact hm.sorted
    next => exact hm.sorted.filter _
  · intro x hx
    exact hm.isHandle x ((mem_remove_iff hm h).mp hx).1
  · intro x hx
    obtain ⟨hx, hne⟩ := (mem_remove_iff hm h).mp hx
    have hown := hm.own x hx
    rw [handle_remove hm, if_neg (by rwa [hown]), hown]
  · intro o ho
    rw [handle_remove hm] at ho ⊢
    split
    next heq => exact absurd (if_pos heq) ho
    next hne =>
      rw [if_neg hne] at ho
      exact (mem_remove_iff hm h).mpr ⟨hm.registered o ho, hne⟩

/-- Removing an object by its own handle keeps keys and handles consistent. -/
theorem consistent_removeObject (o : α) : (m.removeObject o).Consistent := consistent_remove hm _

/-- Removing an object takes its handle, and no other's. -/
theorem handle_removeObject (o o' : α) :
    (m.removeObject o).handle o' = if o' = o then 0 else m.handle o' := by
  unfold removeObject
  rw [handle_remove hm]
  by_cases heq : o' = o
  · rw [if_pos heq, if_pos (by rw [heq])]
  · rw [if_neg heq]
    split
    next hh =>
      by_contra h0
      have h1 := hm.objectAt_iff.mpr ⟨fun hzero => h0 (by rw [hh, hzero]), hh⟩
      have h2 := hm.objectAt_iff.mpr ⟨fun hzero => h0 (by rw [hh, hzero]), rfl⟩
      exact heq (Option.some.inj (h1.symm.trans h2))
    next => rfl

end consistent

/-! ## Several objects -/

variable [DecidableEq α]

/-- Objects are added one after the other. -/
def addAll (m : HandleManager α) (objects : List α) : HandleManager α :=
  objects.foldl (fun m o => (m.insert o).1) m

/-- Objects are removed one after the other. -/
def removeAll (m : HandleManager α) (objects : List α) : HandleManager α :=
  objects.foldl removeObject m

/-- The handle of the `j`-th fresh object behind the greatest key. -/
def handleAt (greatest j : Nat) : Nat :=
  if greatest + 1 + j ≤ handleMax then greatest + 1 + j else SSI_NULL_HANDLE

/-- Counting from the next key on is counting one position further. -/
theorem handleAt_succ (greatest j : Nat) : handleAt (greatest + 1) j = handleAt greatest (j + 1) := by
  have harith : greatest + 1 + 1 + j = greatest + 1 + (j + 1) := by omega
  unfold handleAt
  rw [harith]

section several

variable {m : HandleManager α} (hm : m.Consistent)

include hm

/-- A row of insertions keeps keys and handles consistent. -/
theorem consistent_addAll (objects : List α) : (m.addAll objects).Consistent := by
  induction objects generalizing m with
  | nil => exact hm
  | cons o objects ih => exact ih (consistent_insert hm o)

/-- A row of removals keeps keys and handles consistent. -/
theorem consistent_removeAll (objects : List α) : (m.removeAll objects).Consistent := by
  induction objects generalizing m with
  | nil => exact hm
  | cons o objects ih => exact ih (consistent_removeObject hm o)

/-- Inserting some objects leaves the handles of the others. -/
theorem handle_addAll_of_notMem {objects : List α} {o : α} (h : o ∉ objects) :
    (m.addAll objects).handle o = m.handle o := by
  induction objects generalizing m with
  | nil => rfl
  | cons o' objects ih =>
      obtain ⟨hne, hrest⟩ := not_or.mp (List.mem_cons.not.mp h)
      exact (ih (consistent_insert hm o') hrest).trans (handle_insert_of_ne hm hne)

/-- Fresh objects are numbered from behind the greatest key until there is no handle left. -/
theorem handle_addAll {objects : List α} (hnodup : objects.Nodup)
    (hfresh : ∀ o ∈ objects, m.handle o = 0) {j : Nat} {o : α} (hj : objects[j]? = some o) :
    (m.addAll objects).handle o = handleAt m.greatest j := by
  induction objects generalizing m j with
  | nil => simp at hj
  | cons o' objects ih =>
      obtain ⟨hnotin, hnodup⟩ := List.nodup_cons.mp hnodup
      have ho' := hfresh o' List.mem_cons_self
      have hfresh' : ∀ o ∈ objects, (m.insert o').1.handle o = 0 := by
        intro o ho
        have hne : o ≠ o' := fun heq => hnotin (heq ▸ ho)
        rw [handle_insert_of_ne hm hne]
        exact hfresh o (List.mem_cons_of_mem _ ho)
      have hrest := @ih (m.insert o').1 (consistent_insert hm o') hnodup hfresh'
      show ((m.insert o').1.addAll objects).handle o = _
      rcases j with _ | j
      · obtain rfl : o' = o := Option.some.inj hj
        rw [handle_addAll_of_notMem (consistent_insert hm o') hnotin, handle_insert hm]
        rcases eq_or_lt_of_le hm.greatest_le with hfull | hroom
        · rw [insert_of_full ho' hfull, handleAt, if_neg (by omega)]
          rfl
        · rw [insert_of_fresh hm ho' hroom, handleAt, if_pos (by omega)]
      · rw [hrest hj]
        rcases eq_or_lt_of_le hm.greatest_le with hfull | hroom
        · have hnone : ∀ j, handleAt m.greatest j = SSI_NULL_HANDLE := fun j => if_neg (by omega)
          rw [insert_of_full ho' hfull, hnone, hnone]
        · rw [insert_of_fresh hm ho' hroom, greatest_append, handleAt_succ]

/-- Removal takes the handles of the objects, and no others. -/
theorem handle_removeAll (objects : List α) (o : α) :
    (m.removeAll objects).handle o = if o ∈ objects then 0 else m.handle o := by
  induction objects generalizing m with
  | nil => rfl
  | cons o' objects ih =>
      show ((m.removeObject o').removeAll objects).handle o = _
      rw [ih (consistent_removeObject hm o'), handle_removeObject hm]
      by_cases hmem : o ∈ objects
      · rw [if_pos hmem, if_pos (List.mem_cons_of_mem _ hmem)]
      · rw [if_neg hmem]
        by_cases heq : o = o'
        · rw [if_pos heq, if_pos (by rw [heq]; exact List.mem_cons_self)]
        · rw [if_neg heq, if_neg (by simp [heq, hmem])]

end several

end HandleManager

end Irstessi
