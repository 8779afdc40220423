import Mathlib.Data.List.Basic

/-!
# Lists cut into blocks whose heads are recognisable

A block is a head that does not satisfy `cont`, followed by elements that do. A list that is a
concatenation of blocks can be cut between two blocks exactly where the next element is a head.

* `IsBlock cont c`, `AllBlocks cont cs`.
* `exists_split`: a cut of `cs.flatten` in front of a head falls between two blocks of `cs`.

UTF-8 is of this kind, where a byte tells whether it begins a character or continues one; nothing else
about the encoding is used. Since a block has no head but its first element, a position in the list at
which a head stands is the beginning of a block.
-/

namespace Blocks

variable {α : Type*} {cont : α → Prop}

/-- A head followed by continuation elements. -/
def IsBlock (cont : α → Prop) (c : List α) : Prop :=
  ∃ h t, c = h :: t ∧ ¬ cont h ∧ ∀ x ∈ t, cont x

/-- Every entry of the list is a block. -/
def AllBlocks (cont : α → Prop) (cs : List (List α)) : Prop := ∀ c ∈ cs, IsBlock cont c

/-- A block is not empty, since it has a head. -/
theorem IsBlock.ne_nil {c : List α} (h : IsBlock cont c) : c ≠ [] := by
  obtain ⟨a, t, rfl, -⟩ := h
  exact List.cons_ne_nil _ _

/-- The rest of a row of blocks is a row of blocks. -/
theorem AllBlocks.tail {c : List α} {cs : List (List α)} (h : AllBlocks cont (c :: cs)) :
    AllBlocks cont cs := fun d hd => h d (List.mem_cons_of_mem _ hd)

/-- Two rows of blocks one behind the other are a row of blocks. -/
theorem AllBlocks.append {l r : List (List α)} (hl : AllBlocks cont l) (hr : AllBlocks cont r) :
    AllBlocks cont (l ++ r) := fun c hc => (List.mem_append.mp hc).elim (hl c) (hr c)

/-- A concatenation of blocks is at least as long as there are blocks. -/
theorem length_le_length_flatten {cs : List (List α)} (h : AllBlocks cont cs) :
    cs.length ≤ cs.flatten.length := by
  induction cs with
  | nil => simp
  | cons c cs ih =>
      have hc := List.length_pos_iff.mpr (h c List.mem_cons_self).ne_nil
      have := ih h.tail
      simp only [List.length_cons, List.flatten_cons, List.length_append]
      omega

/-- A cut in front of a head falls between two blocks. -/
theorem exists_split {cs : List (List α)} (hcs : AllBlocks cont cs) {u v : List α} {b : α}
    (hb : ¬ cont b) (h : cs.flatten = u ++ b :: v) :
    ∃ l r, cs = l ++ r ∧ l.flatten = u ∧ r.flatten = b :: v := by
  induction cs generalizing u with
  | nil => simp at h
  | cons c cs ih =>
      obtain ⟨hd, t, rfl, -, hcont⟩ := hcs c List.mem_cons_self
      cases u with
      | nil => exact ⟨[], _, rfl, rfl, h⟩
      | cons a u =>
          simp only [List.flatten_cons, List.cons_append, List.cons.injEq] at h
          obtain ⟨rfl, h⟩ := h
          rcases List.append_eq_append_iff.mp h with ⟨w, rfl, hw⟩ | ⟨w, rfl, hw⟩
          · obtain ⟨l, r, rfl, rfl, hr⟩ := ih hcs.tail hw
            exact ⟨(hd :: t) :: l, r, rfl, by simp, hr⟩
          · cases w with
            | nil =>
                obtain ⟨l, r, rfl, hl, hr⟩ := ih hcs.tail (u := []) hw.symm
                exact ⟨(hd :: _) :: l, r, rfl, by simp [hl], hr⟩
            | cons x w =>
                -- the head `b` would be one of the block's continuation elements
                obtain ⟨rfl, -⟩ := List.cons.inj hw
                exact absurd (hcont b (by simp)) hb

end Blocks
