import Mathlib.Data.List.DropRight

/-!
# Taking the ends off a list

* `ends p l`: the list without the elements at both ends that a predicate holds of.
* `append_ends`: the list is cut in three, and what is kept begins and ends with elements that the
  predicate does not hold of.
* `ends_ends`: taking the ends off once more changes nothing.
* `ends_flatten`: in a row of blocks, each in or out as a whole, it takes blocks off.

What is taken off is determined by the predicate alone, so that it does not matter from which end one
begins. For a list that is a row of blocks the predicate has to be constant on each of them (`Uniform`);
the ends of the row are then the ends of the list of blocks.
-/

namespace Ends

variable {α : Type*} (p : α → Bool)

/-- The list without the elements at both ends that `p` holds of. -/
def ends (l : List α) : List α := (l.dropWhile p).rdropWhile p

/-- The front that is taken off, and the back. -/
theorem append_ends (l : List α) :
    l = l.takeWhile p ++ ends p l ++ (l.dropWhile p).rtakeWhile p := by
  rw [List.append_assoc, ends, List.rdropWhile_append_rtakeWhile, List.takeWhile_append_dropWhile]

/-- Nothing is left iff the predicate holds of all elements. -/
theorem ends_eq_nil_iff {l : List α} : ends p l = [] ↔ ∀ a ∈ l, p a := by
  constructor
  · intro h a ha
    rw [append_ends p l, h, List.append_nil] at ha
    rcases List.mem_append.mp ha with ha | ha
    · exact List.mem_takeWhile_imp ha
    · exact List.mem_rtakeWhile_imp ha
  · intro h
    rw [ends, List.dropWhile_eq_nil_iff.mpr h, List.rdropWhile_nil]

/-- What is kept begins with an element that `p` does not hold of. -/
theorem dropWhile_ends (l : List α) : (ends p l).dropWhile p = ends p l := by
  rw [List.dropWhile_eq_self_iff]
  intro hpos hp
  have hle : ends p l <+: l.dropWhile p := List.rdropWhile_prefix p _
  have hlt : 0 < (l.dropWhile p).length := hpos.trans_le hle.length_le
  have hfirst := List.dropWhile_eq_self_iff.mp (List.dropWhile_idempotent p l) hlt
  rw [ List.IsPrefix.getElem hle hpos] at hp
  exact hfirst hp

/-- Taking the ends off once more changes nothing. -/
theorem ends_ends (l : List α) : ends p (ends p l) = ends p l := by
  nth_rewrite 1 [ends]
  rw [dropWhile_ends, ends, List.rdropWhile_idempotent]

/-- Either all elements are taken off, or the last one that is kept is followed by those that are not. -/
theorem ends_cases (l : List α) :
    (ends p l = [] ∧ l.dropWhile p = []) ∨
    ∃ m a v, ends p l = m ++ [a] ∧ ¬ p a = true ∧ (∀ b ∈ v, p b = true) ∧
      l.dropWhile p = m ++ a :: v := by
  by_cases hnil : ends p l = []
  · exact .inl ⟨hnil, List.dropWhile_eq_nil_iff.mpr ((ends_eq_nil_iff p).mp hnil)⟩
  · have hlast : ¬ p ((ends p l).getLast hnil) = true := List.rdropWhile_last_not p _ hnil
    have hcut := List.dropLast_append_getLast hnil
    refine .inr ⟨(ends p l).dropLast, (ends p l).getLast hnil, (l.dropWhile p).rtakeWhile p, hcut.symm,
      hlast, fun b hb => List.mem_rtakeWhile_imp hb, ?_⟩
    rw [List.append_cons, hcut, ends, List.rdropWhile_append_rtakeWhile]

/-! ## Blocks -/

/-- `p` holds of all elements of the block or of none. -/
def Uniform (c : List α) : Prop := c ≠ [] ∧ ((∀ a ∈ c, p a = true) ∨ ∀ a ∈ c, p a = false)

variable {p} {L : List (List α)}

/-- A block that is in or out as a whole is so in the reverse order. -/
theorem Uniform.reverse {c : List α} (h : Uniform p c) : Uniform p c.reverse := by
  unfold Uniform at h ⊢
  simpa using h

/-- Taking elements off the front of a row takes off the blocks that are in. -/
theorem dropWhile_flatten (hL : ∀ c ∈ L, Uniform p c) :
    L.flatten.dropWhile p = (L.dropWhile (·.all p)).flatten := by
  induction L with
  | nil => rfl
  | cons c L ih =>
      obtain ⟨hne, hall | hnone⟩ := hL c List.mem_cons_self
      · have hc : c.all p = true := List.all_eq_true.mpr hall
        rw [List.flatten_cons, List.dropWhile_append_of_pos hall,
          ih fun d hd => hL d (List.mem_cons_of_mem _ hd), List.dropWhile_cons, if_pos hc]
      · obtain ⟨a, c, rfl⟩ := List.exists_cons_of_ne_nil hne
        have ha : ¬ p a = true := by simp [hnone a List.mem_cons_self]
        have hc : ¬ (a :: c).all p = true := fun h =>
          ha (List.all_eq_true.mp h a List.mem_cons_self)
        rw [List.flatten_cons, List.cons_append, List.dropWhile_cons, if_neg ha,
          List.dropWhile_cons, if_neg hc, List.flatten_cons, List.cons_append]

/-- Taking elements off the end of a row takes off the blocks that are in. -/
theorem rdropWhile_flatten (hL : ∀ c ∈ L, Uniform p c) :
    L.flatten.rdropWhile p = (L.rdropWhile (·.all p)).flatten := by
  have hreverse : ∀ c ∈ (L.map List.reverse).reverse, Uniform p c := by
    intro c hc
    obtain ⟨d, hd, rfl⟩ := List.mem_map.mp (List.mem_reverse.mp hc)
    exact (hL d hd).reverse
  have hall : (fun c : List α => c.all p) ∘ List.reverse = fun c => c.all p := by
    funext c
    exact List.all_reverse
  unfold List.rdropWhile
  rw [List.reverse_flatten, dropWhile_flatten hreverse, ← List.map_reverse, List.dropWhile_map, hall,
    List.reverse_flatten, List.map_map, List.reverse_involutive.comp_self, List.map_id]

/-- In a row of blocks, each in or out as a whole, taking the ends off takes blocks off. -/
theorem ends_flatten (hL : ∀ c ∈ L, Uniform p c) :
    ends p L.flatten = (ends (·.all p) L).flatten := by
  have hdrop : ∀ c ∈ L.dropWhile (·.all p), Uniform p c :=
    fun c hc => hL c ((List.dropWhile_suffix _).mem hc)
  rw [ends, dropWhile_flatten hL, rdropWhile_flatten hdrop, ends]

end Ends
