import Mathlib.Data.List.Basic
import Mathlib.Logic.Function.Basic

/-!
# Memory by addresses

Memory gives what is at each address. Cells are moved within it in transfers, each of which reads all of
its cells before it writes them.

* `move`, `fill`: cells are moved to another place, which may overlap with their own; cells are filled.
* `Transfer`, `transferAll`: a row of transfers.
* `copyUp`, `copyDown`: equal transfers at increasing and at decreasing addresses.
* `transferAll_copyUp`, `transferAll_copyDown`, `move_move_up`, `move_move_down`: whichever way they are
  cut, the transfers move the cells, where the direction is the one in which no cell is written before it
  is read.
* `store`, `storeAll`: cells are written, in a row of stores.
* `block`: the cells of a place as a list.
-/

namespace Address

variable {α : Type*}

/-- The `n` cells from `sp` on are read, and then written from `dp` on. -/
def move (mem : Nat → α) (dp sp n : Nat) : Nat → α := fun a =>
  if dp ≤ a ∧ a < dp + n then mem (sp + (a - dp)) else mem a

/-- The `n` cells from `dp` on are written. -/
def fill (mem : Nat → α) (dp n : Nat) (x : α) : Nat → α := fun a =>
  if dp ≤ a ∧ a < dp + n then x else mem a

section move

variable {mem : Nat → α} {dp sp n m a : Nat} {x : α}

/-- A cell of the destination gets what was at the corresponding address of the source. -/
theorem move_of_mem (h : a < n) : move mem dp sp n (dp + a) = mem (sp + a) := by
  unfold move
  rw [if_pos (by omega), Nat.add_sub_cancel_left]

/-- Cells outside of the destination stay as they are. -/
theorem move_of_not_mem (h : a < dp ∨ dp + n ≤ a) : move mem dp sp n a = mem a := if_neg (by omega)

/-- To move no cell changes nothing. -/
@[simp] theorem move_zero : move mem dp sp 0 = mem := by
  funext a
  exact move_of_not_mem (by omega)

/-- One cell more is moved. -/
theorem update_move : Function.update (move mem dp sp n) (dp + n) (mem (sp + n)) =
    move mem dp sp (n + 1) := by
  funext a
  by_cases ha : a = dp + n
  · rw [ha, Function.update_self, move_of_mem (Nat.lt_succ_self n)]
  · rw [Function.update_of_ne ha]
    unfold move
    by_cases hin : dp ≤ a ∧ a < dp + n
    · rw [if_pos hin, if_pos (by omega)]
    · rw [if_neg hin, if_neg (by omega)]

/-- Cells that are moved down are moved in two parts, the lower one first. -/
theorem move_move_up (h : dp ≤ sp) :
    move (move mem dp sp n) (dp + n) (sp + n) m = move mem dp sp (n + m) := by
  funext a
  unfold move
  by_cases hlow : dp + n ≤ a ∧ a < dp + n + m
  · rw [if_pos hlow, if_neg (by omega), if_pos (by omega)]
    congr 1
    omega
  · rw [if_neg hlow]
    by_cases hfirst : dp ≤ a ∧ a < dp + n
    · rw [if_pos hfirst, if_pos (by omega)]
    · rw [if_neg hfirst, if_neg (by omega)]

/-- Cells that are moved up are moved in two parts, the upper one first. -/
theorem move_move_down (h : sp ≤ dp) :
    move (move mem (dp + n) (sp + n) m) dp sp n = move mem dp sp (n + m) := by
  funext a
  unfold move
  by_cases hlow : dp ≤ a ∧ a < dp + n
  · rw [if_pos hlow, if_neg (by omega), if_pos (by omega)]
  · rw [if_neg hlow]
    by_cases hlast : dp + n ≤ a ∧ a < dp + n + m
    · rw [if_pos hlast, if_pos (by omega)]
      congr 1
      omega
    · rw [if_neg hlast, if_neg (by omega)]

/-- A cell of the place is filled. -/
theorem fill_of_mem (h : a < n) : fill mem dp n x (dp + a) = x := if_pos (by omega)

/-- Cells outside of the place stay as they are. -/
theorem fill_of_not_mem (h : a < dp ∨ dp + n ≤ a) : fill mem dp n x a = mem a := if_neg (by omega)

/-- To fill no cell changes nothing. -/
@[simp] theorem fill_zero : fill mem dp 0 x = mem := by
  funext a
  exact fill_of_not_mem (by omega)

/-- Two places one behind the other are filled as one. -/
theorem fill_fill : fill (fill mem dp n x) (dp + n) m x = fill mem dp (n + m) x := by
  funext a
  unfold fill
  by_cases hlast : dp + n ≤ a ∧ a < dp + n + m
  · rw [if_pos hlast, if_pos (by omega)]
  · rw [if_neg hlast]
    by_cases hfirst : dp ≤ a ∧ a < dp + n
    · rw [if_pos hfirst, if_pos (by omega)]
    · rw [if_neg hfirst, if_neg (by omega)]

end move

/-! ## Transfers -/

/-- The `width` cells from `sp` on are read and written from `dp` on. -/
structure Transfer where
  dp : Nat
  sp : Nat
  width : Nat
  deriving DecidableEq, Repr

/-- The transfers are made one after the other. -/
def transferAll (mem : Nat → α) (ts : List Transfer) : Nat → α :=
  ts.foldl (fun mem t => move mem t.dp t.sp t.width) mem

/-- `n` transfers at increasing addresses, from those given on. -/
def copyUp (width : Nat) : Nat → Nat → Nat → List Transfer
  | 0, _, _ => []
  | n + 1, dp, sp => ⟨dp, sp, width⟩ :: copyUp width n (dp + width) (sp + width)

/-- `n` transfers at decreasing addresses, from below those given on. -/
def copyDown (width : Nat) : Nat → Nat → Nat → List Transfer
  | 0, _, _ => []
  | n + 1, dp, sp => ⟨dp - width, sp - width, width⟩ :: copyDown width n (dp - width) (sp - width)

section transfers

variable {mem : Nat → α} {width n dp sp : Nat} {ts ts' : List Transfer} {t : Transfer}

/-- An empty row of transfers changes nothing. -/
@[simp] theorem transferAll_nil : transferAll mem [] = mem := rfl

/-- The first transfer is made before the others. -/
@[simp] theorem transferAll_cons :
    transferAll mem (t :: ts) = transferAll (move mem t.dp t.sp t.width) ts := rfl

/-- Rows of transfers are made one after the other. -/
@[simp] theorem transferAll_append :
    transferAll mem (ts ++ ts') = transferAll (transferAll mem ts) ts' := List.foldl_append

/-- Transfers at increasing addresses move the cells to a place that does not begin behind theirs: no
transfer overwrites what a later one reads. -/
theorem transferAll_copyUp (h : dp ≤ sp) :
    transferAll mem (copyUp width n dp sp) = move mem dp sp (width * n) := by
  induction n generalizing mem dp sp with
  | zero => simp [copyUp]
  | succ n ih =>
      rw [copyUp, transferAll_cons, ih (by omega), move_move_up h, Nat.mul_succ, Nat.add_comm]

/-- Transfers at decreasing addresses move the cells to a place that does not begin in front of
theirs. -/
theorem transferAll_copyDown (h : sp ≤ dp) (hsp : width * n ≤ sp) :
    transferAll mem (copyDown width n dp sp) =
      move mem (dp - width * n) (sp - width * n) (width * n) := by
  induction n generalizing mem dp sp with
  | zero => simp [copyDown]
  | succ n ih =>
      rw [Nat.mul_succ] at hsp
      rw [copyDown, transferAll_cons, ih (by omega) (by omega)]
      dsimp only
      have hdown : move (move mem (dp - width * (n + 1) + width * n) (sp - width * (n + 1) + width * n)
          width) (dp - width * (n + 1)) (sp - width * (n + 1)) (width * n) =
          move mem (dp - width * (n + 1)) (sp - width * (n + 1)) (width * n + width) :=
        move_move_down (by omega)
      rw [Nat.mul_succ] at hdown ⊢
      rw [← hdown]
      congr 1
      · congr 1 <;> omega
      · omega
      · omega

/-- The transfers are at multiples of their width from the first one, and do not pass the last one. -/
theorem mem_copyUp (h : t ∈ copyUp width n dp sp) :
    t.width = width ∧ ∃ k < n, t.dp = dp + width * k ∧ t.sp = sp + width * k := by
  induction n generalizing dp sp with
  | zero => exact absurd h List.not_mem_nil
  | succ n ih =>
      rcases List.mem_cons.mp h with rfl | h
      · exact ⟨rfl, 0, Nat.succ_pos n, rfl, rfl⟩
      · obtain ⟨hwidth, k, hk, hdp, hsp⟩ := ih h
        refine ⟨hwidth, k + 1, Nat.succ_lt_succ hk, ?_, ?_⟩
        · rw [hdp, Nat.mul_succ]
          omega
        · rw [hsp, Nat.mul_succ]
          omega

/-- Where the transfers at decreasing addresses lie: so many widths below the two ends. -/
theorem mem_copyDown (h : t ∈ copyDown width n dp sp) (hdp : width * n ≤ dp) (hsp : width * n ≤ sp) :
    t.width = width ∧ ∃ k < n, t.dp + width * (k + 1) = dp ∧ t.sp + width * (k + 1) = sp := by
  induction n generalizing dp sp with
  | zero => exact absurd h List.not_mem_nil
  | succ n ih =>
      rw [Nat.mul_succ] at hdp hsp
      rcases List.mem_cons.mp h with rfl | h
      · exact ⟨rfl, 0, Nat.succ_pos n, by simp; omega, by simp; omega⟩
      · obtain ⟨hwidth, k, hk, hdp', hsp'⟩ := ih h (by omega) (by omega)
        refine ⟨hwidth, k + 1, Nat.succ_lt_succ hk, ?_, ?_⟩
        · rw [Nat.mul_succ]
          omega
        · rw [Nat.mul_succ]
          omega

end transfers

/-! ## Stores -/

/-- The cells are written from the address on. -/
def store (mem : Nat → α) (dp : Nat) (xs : List α) : Nat → α := fun a =>
  if dp ≤ a then (xs[a - dp]?).getD (mem a) else mem a

/-- The stores are made one after the other. -/
def storeAll (mem : Nat → α) (stores : List (Nat × List α)) : Nat → α :=
  stores.foldl (fun mem st => store mem st.1 st.2) mem

section stores

variable {mem : Nat → α} {dp n m : Nat} {x : α} {stores stores' : List (Nat × List α)}

/-- An empty row of stores changes nothing. -/
@[simp] theorem storeAll_nil : storeAll mem [] = mem := rfl

/-- The first store is made before the others. -/
@[simp] theorem storeAll_cons {xs : List α} :
    storeAll mem ((dp, xs) :: stores) = storeAll (store mem dp xs) stores := rfl

/-- Rows of stores are made one after the other. -/
@[simp] theorem storeAll_append :
    storeAll mem (stores ++ stores') = storeAll (storeAll mem stores) stores' := List.foldl_append

/-- A store of equal cells fills them. -/
theorem store_replicate : store mem dp (List.replicate n x) = fill mem dp n x := by
  funext a
  unfold store fill
  by_cases hin : dp ≤ a ∧ a < dp + n
  · rw [if_pos hin, if_pos hin.1, List.getElem?_replicate, if_pos (by omega), Option.getD_some]
  · rw [if_neg hin]
    split
    · rw [List.getElem?_replicate, if_neg (by omega), Option.getD_none]
    · rfl

end stores

/-! ## Blocks -/

/-- The `n` cells from `a` on. -/
def block (mem : Nat → α) (a n : Nat) : List α := (List.range n).map fun i => mem (a + i)

section block

variable {mem : Nat → α} {a dp sp n m : Nat} {x : α}

/-- The block of a place has as many cells as the place. -/
@[simp] theorem length_block : (block mem a n).length = n := by simp [block]

/-- The cells of the block are those of the place, in the order of their addresses. -/
@[simp] theorem getElem_block {i : Nat} (h : i < (block mem a n).length) :
    (block mem a n)[i] = mem (a + i) := by simp [block]

/-- The front of a block is the block of a shorter place. -/
theorem take_block : (block mem a n).take m = block mem a (min n m) := by
  refine List.ext_getElem (by simp [Nat.min_comm]) fun i hi hi' => ?_
  rw [List.getElem_take, getElem_block, getElem_block]

/-- One cell of a block is written. -/
theorem block_update (i : Nat) (x : α) :
    block (Function.update mem (a + i) x) a n = (block mem a n).set i x := by
  refine List.ext_getElem (by simp) fun j hj hj' => ?_
  rw [getElem_block, List.getElem_set]
  by_cases hij : i = j
  · rw [if_pos hij, hij, Function.update_self]
  · rw [if_neg hij, Function.update_of_ne (by omega), getElem_block]

/-- Moving fewer cells than a block has replaces its front and keeps the rest. -/
theorem block_move (hn : m ≤ n) :
    block (move mem dp sp m) dp n = block mem sp m ++ (block mem dp n).drop m := by
  refine List.ext_getElem (by simp; omega) fun i hi hi' => ?_
  rw [getElem_block]
  by_cases him : i < m
  · rw [List.getElem_append_left (by simpa using him), getElem_block, move_of_mem him]
  · rw [List.getElem_append_right (by simpa using him), List.getElem_drop, getElem_block,
      move_of_not_mem (by omega), length_block]
    congr 1
    omega

/-- Filling fewer cells than a block has replaces its front and keeps the rest. -/
theorem block_fill (hn : m ≤ n) :
    block (fill mem dp m x) dp n = List.replicate m x ++ (block mem dp n).drop m := by
  refine List.ext_getElem (by simp; omega) fun i hi hi' => ?_
  rw [getElem_block]
  by_cases him : i < m
  · rw [List.getElem_append_left (by simpa using him), List.getElem_replicate, fill_of_mem him]
  · rw [List.getElem_append_right (by simpa using him), List.getElem_drop, getElem_block,
      fill_of_not_mem (by omega), List.length_replicate]
    congr 1
    omega

end block

end Address
