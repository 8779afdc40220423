import Mathlib.Data.List.Basic

/-!
# Blocks of memory

A block of memory is the list of its cells. A store outside of it is an error.

* `store`, `storeAll`: a cell, or cells one behind the other, are written.
* `storeAll_of_le`, `storeAll_of_lt`: stores that begin in the block succeed iff they end in it, and
  replace the cells.

A cell is given by its place in the block, so that a store outside of it is told from the place alone.
How several places lie in one memory, and may overlap, is the subject of `Lib.Address`.
-/

namespace Memory

variable {α : Type*}

/-- One cell is written. -/
def store (mem : List α) (i : Nat) (x : α) : Option (List α) :=
  if i < mem.length then some (mem.set i x) else none

/-- Cells are written one behind the other. -/
def storeAll (mem : List α) (i : Nat) : List α → Option (List α)
  | [] => some mem
  | x :: xs => (store mem i x).bind fun mem => storeAll mem (i + 1) xs

variable {mem : List α} {i : Nat} {x : α}

/-- A store in the block succeeds. -/
theorem store_of_lt (h : i < mem.length) : store mem i x = some (mem.set i x) := if_pos h

/-- A store behind the block fails. -/
theorem store_of_le (h : mem.length ≤ i) : store mem i x = none := if_neg (Nat.not_lt.mpr h)

/-- Stores that end in the block replace its cells. -/
theorem storeAll_of_le (xs : List α) (h : i + xs.length ≤ mem.length) :
    storeAll mem i xs = some (mem.take i ++ xs ++ mem.drop (i + xs.length)) := by
  induction xs generalizing mem i with
  | nil => simp [storeAll]
  | cons x xs ih =>
      simp only [List.length_cons] at h
      rw [storeAll, store_of_lt (by omega), Option.bind_some, ih (by rw [List.length_set]; omega)]
      have htake : (mem.set i x).take (i + 1) = mem.take i ++ [x] := by
        rw [List.take_add_one, List.take_set_of_le (Nat.le_refl i), List.getElem?_set_self (by omega)]
        rfl
      have hdrop : (mem.set i x).drop (i + 1 + xs.length) = mem.drop (i + (x :: xs).length) := by
        rw [List.drop_set_of_lt (by omega), List.length_cons]
        congr 1
        omega
      rw [htake, hdrop]
      simp

/-- Stores that leave the block fail. -/
theorem storeAll_of_lt (xs : List α) (hi : i ≤ mem.length) (h : mem.length < i + xs.length) :
    storeAll mem i xs = none := by
  induction xs generalizing mem i with
  | nil => exact absurd h (by simpa using hi)
  | cons x xs ih =>
      simp only [List.length_cons] at h
      rw [storeAll]
      rcases Nat.lt_or_ge i mem.length with hlt | hge
      · rw [store_of_lt hlt, Option.bind_some]
        exact ih (by rwa [List.length_set]) (by rw [List.length_set]; omega)
      · rw [store_of_le hge, Option.bind_none]

end Memory
