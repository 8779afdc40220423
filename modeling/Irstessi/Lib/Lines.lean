import Mathlib.Data.List.Basic

/-!
# Lines through a buffer

A text is read in pieces: a piece ends behind the next separator, or where the buffer is full.

* `cut sep size room text`: the pieces, the first of them with `room` left in a buffer of `size`.
* `cut_line`: a line that fits is one piece; `cut_flatMap`: a text of lines that fit is its lines.

This is how `fgets` reads: the bytes of a piece are those of the text, with the separator at the end if
it came in time. A line that does not fit is cut, and its rest is a piece by itself.
-/

namespace Lines

variable {α : Type*} [DecidableEq α]

/-- The pieces of the text. A buffer with no room left takes one element all the same. -/
def cut (sep : α) (size : Nat) : Nat → List α → List (List α)
  | _, [] => []
  | room, a :: text =>
      if a = sep ∨ room ≤ 1 then [a] :: cut sep size size text
      else
        match cut sep size (room - 1) text with
        | [] => [[a]]
        | piece :: pieces => (a :: piece) :: pieces

variable {sep : α} {size room : Nat}

/-- A line that fits into what is left is one piece. -/
theorem cut_line {line : List α} (hsep : sep ∉ line) (hroom : line.length < room) (text : List α) :
    cut sep size room (line ++ sep :: text) = (line ++ [sep]) :: cut sep size size text := by
  induction line generalizing room with
  | nil =>
      rw [List.nil_append, cut, if_pos (.inl rfl)]
      rfl
  | cons a line ih =>
      rw [List.mem_cons, not_or] at hsep
      obtain ⟨hne, hrest⟩ := hsep
      rw [List.length_cons] at hroom
      have hcut : ¬ (a = sep ∨ room ≤ 1) := by
        rintro (h | h)
        · exact hne h.symm
        · omega
      rw [List.cons_append, cut, if_neg hcut, ih hrest (by omega)]
      rfl

/-- A text of lines that fit. -/
theorem cut_flatMap {lines : List (List α)} (h : ∀ line ∈ lines, sep ∉ line ∧ line.length < size) :
    cut sep size size (lines.flatMap (· ++ [sep])) = lines.map (· ++ [sep]) := by
  induction lines with
  | nil => rfl
  | cons line lines ih =>
      obtain ⟨hsep, hroom⟩ := h line List.mem_cons_self
      have hrest := ih fun l hl => h l (List.mem_cons_of_mem _ hl)
      rw [List.flatMap_cons, List.append_assoc, List.singleton_append, cut_line hsep hroom, hrest]
      rfl

end Lines
