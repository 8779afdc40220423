import Irstessi.Lib.Occurrence
import Mathlib.Data.List.Sort

/-!
# All occurrences of a pattern, and the parts behind them

* `places pat l`: the positions of the occurrences, in order; `mem_places`.
* `behind pat l`, `behindLast pat l`, `before pat l`: what stands behind the first or the last
  occurrence, and before the first.
* `parts pat l`: for each occurrence, what stands behind it up to the next one or the end.
* `Unbordered pat`: two occurrences do not overlap; `parts_append` then takes the first part off.
* `CutsFirst pat l u v`, `CutsLast pat l u v`: the list is cut at the first or the last occurrence.

The occurrences may overlap; only the parts ask for a pattern that does not overlap with itself, as the
search then goes on behind each of them.
-/

namespace Occurrence

variable {α : Type*} [DecidableEq α]

instance (pat l : List α) (i : Nat) : Decidable (At pat l i) :=
  inferInstanceAs (Decidable (i ≤ l.length ∧ pat <+: l.drop i))

/-- The positions at which the pattern occurs. -/
def places (pat l : List α) : List Nat := (List.range (l.length + 1)).filter fun i => At pat l i

/-- The list up to the first occurrence, all of it if there is none. -/
def upTo (pat l : List α) : List α := l.take ((findPos pat l).getD l.length)

/-- The greatest position at which the pattern occurs. -/
def lastPos (pat l : List α) : Option Nat :=
  if l.length < pat.length then none else rfindPos pat l (l.length - pat.length)

/-- What stands behind the first occurrence. -/
def behind (pat l : List α) : Option (List α) := (findPos pat l).map fun i => l.drop (i + pat.length)

/-- What stands behind the last occurrence. -/
def behindLast (pat l : List α) : Option (List α) :=
  (lastPos pat l).map fun i => l.drop (i + pat.length)

/-- What stands before the first occurrence. -/
def before (pat l : List α) : Option (List α) := (findPos pat l).map fun i => l.take i

/-- What stands behind each occurrence, up to the next one. -/
def parts (pat l : List α) : List (List α) :=
  (places pat l).map fun i => upTo pat (l.drop (i + pat.length))

/-- No proper end of the pattern is also a beginning of it. -/
def Unbordered (pat : List α) : Prop := ∀ k < pat.length, 0 < k → ¬ pat.drop k <+: pat

instance (pat : List α) : Decidable (Unbordered pat) :=
  inferInstanceAs (Decidable (∀ k < pat.length, 0 < k → ¬ pat.drop k <+: pat))

/-- The positions are those of the occurrences. -/
theorem mem_places {pat l : List α} {i : Nat} : i ∈ places pat l ↔ At pat l i := by
  rw [places, List.mem_filter, List.mem_range, decide_eq_true_iff]
  exact ⟨And.right, fun h => ⟨Nat.lt_succ_of_le h.1, h⟩⟩

/-- They ascend. -/
theorem pairwise_places (pat l : List α) : (places pat l).Pairwise (· < ·) :=
  List.Pairwise.filter _ List.pairwise_lt_range

/-- Where the search finds nothing there are none. -/
theorem places_of_none {pat l : List α} (h : findPos pat l = none) : places pat l = [] := by
  rw [List.eq_nil_iff_forall_not_mem]
  exact fun i hi => findPos_eq_none_iff.mp h i (mem_places.mp hi)

/-- Without an occurrence the whole list is in front. -/
theorem upTo_of_none {pat l : List α} (h : findPos pat l = none) : upTo pat l = l := by
  rw [upTo, h, Option.getD_none, List.take_length]

/-- What is in front of the first occurrence, where the search finds it there. -/
theorem upTo_append {pat u v : List α} (h : findPos pat (u ++ pat ++ v) = some u.length) :
    upTo pat (u ++ pat ++ v) = u := by
  rw [upTo, h, Option.getD_some, List.append_assoc, List.take_left]

/-- Without an occurrence there are no parts. -/
theorem parts_of_none {pat l : List α} (h : findPos pat l = none) : parts pat l = [] := by
  rw [parts, places_of_none h, List.map_nil]

/-- The first occurrence cuts the list in three. -/
theorem exists_append_of_findPos {pat l : List α} {i : Nat} (h : findPos pat l = some i) :
    ∃ u v, l = u ++ pat ++ v ∧ u.length = i :=
  at_iff_exists.mp (findPos_eq_some_iff.mp h).1

omit [DecidableEq α] in
/-- Behind an occurrence, inside it, there is no other one. -/
theorem Unbordered.not_at {pat u v : List α} (hpat : Unbordered pat) {k : Nat} (hk : 0 < k)
    (hlt : k < pat.length) : ¬ At pat (u ++ pat ++ v) (u.length + k) := by
  intro hat
  have hdrop : (u ++ pat ++ v).drop (u.length + k) = pat.drop k ++ v := by
    rw [List.append_assoc, ← List.drop_drop, List.drop_left, List.drop_append_of_le_length hlt.le]
  have hpre := hat.2
  rw [hdrop] at hpre
  refine hpat k hlt hk (List.prefix_of_prefix_length_le (List.prefix_append _ v) hpre ?_)
  rw [List.length_drop]
  exact Nat.sub_le _ _

omit [DecidableEq α] in
/-- Occurrences behind a beginning, counted from its end. -/
theorem at_append_right {pat u v : List α} {k : Nat} : At pat (u ++ v) (u.length + k) ↔ At pat v k := by
  unfold At
  rw [List.length_append, Nat.add_le_add_iff_left, List.drop_append, List.drop_eq_nil_of_le (by omega),
    List.nil_append, Nat.add_sub_cancel_left]

/-- The first occurrence taken off: the others are those in what stands behind it, as two of them do not
overlap. -/
theorem places_append {pat u v : List α} (hne : pat ≠ []) (hpat : Unbordered pat)
    (h : findPos pat (u ++ pat ++ v) = some u.length) :
    places pat (u ++ pat ++ v) =
      u.length :: (places pat v).map fun i => u.length + pat.length + i := by
  obtain ⟨hat, hfirst⟩ := findPos_eq_some_iff.mp h
  have hpos := List.length_pos_iff.mpr hne
  refine (pairwise_places pat _).eq_of_mem_iff (List.pairwise_cons.mpr ⟨?_, ?_⟩) fun i => ?_
  · intro i hi
    obtain ⟨j, -, rfl⟩ := List.mem_map.mp hi
    omega
  · exact (pairwise_places pat v).map _ fun i j hij => Nat.add_lt_add_left hij _
  · rw [mem_places, List.mem_cons, List.mem_map]
    constructor
    · intro hi
      rcases Nat.lt_trichotomy i u.length with hlt | rfl | hlt
      · exact absurd hi (hfirst i hlt)
      · exact .inl rfl
      · obtain ⟨k, rfl⟩ := Nat.exists_eq_add_of_lt hlt
        have hk : pat.length ≤ k + 1 := by
          by_contra hinside
          exact hpat.not_at k.succ_pos (by omega) hi
        refine .inr ⟨k + 1 - pat.length, mem_places.mpr ?_, by omega⟩
        rw [← at_append_right (u := u ++ pat), List.length_append]
        rwa [show u.length + pat.length + (k + 1 - pat.length) = u.length + k + 1 by omega]
    · rintro (rfl | ⟨j, hj, rfl⟩)
      · exact hat
      · rw [← List.length_append]
        exact at_append_right.mpr (mem_places.mp hj)

/-- The first part taken off: it ends at the next occurrence. -/
theorem parts_append {pat u v : List α} (hne : pat ≠ []) (hpat : Unbordered pat)
    (h : findPos pat (u ++ pat ++ v) = some u.length) :
    parts pat (u ++ pat ++ v) = upTo pat v :: parts pat v := by
  have hdrop : ∀ i, (u ++ pat ++ v).drop (u.length + pat.length + i) = v.drop i := by
    intro i
    rw [← List.length_append, ← List.drop_drop, List.drop_left]
  rw [parts, places_append hne hpat h, List.map_cons, List.map_map]
  refine congrArg₂ List.cons ?_ (List.map_congr_left fun i _ => ?_)
  · rw [← Nat.add_zero (u.length + pat.length), hdrop, List.drop_zero]
  · rw [Function.comp_apply, Nat.add_assoc _ i, hdrop]

/-! ## Cuts -/

/-- `u` and `v` stand before and behind the first occurrence. -/
structure CutsFirst (pat l u v : List α) : Prop where
  eq_append : l = u ++ pat ++ v
  first : ∀ i < u.length, ¬ At pat l i

/-- `u` and `v` stand before and behind the last occurrence. -/
structure CutsLast (pat l u v : List α) : Prop where
  eq_append : l = u ++ pat ++ v
  last : ∀ i, u.length < i → ¬ At pat l i

section cuts

omit [DecidableEq α]

variable {pat l u v u' v' : List α}

/-- The pattern occurs where the list is cut. -/
theorem CutsFirst.at_length (h : CutsFirst pat l u v) : At pat l u.length :=
  at_iff_exists.mpr ⟨u, v, h.eq_append, rfl⟩

/-- The pattern occurs where the list is cut. -/
theorem CutsLast.at_length (h : CutsLast pat l u v) : At pat l u.length :=
  at_iff_exists.mpr ⟨u, v, h.eq_append, rfl⟩

/-- A list that is cut has the pattern in it. -/
theorem infix_of_cut (h : l = u ++ pat ++ v) : pat <:+: l := ⟨u, v, h.symm⟩

/-- Cuts at the same position are the same. -/
theorem eq_of_cuts (h : l = u ++ pat ++ v) (h' : l = u' ++ pat ++ v') (hlength : u.length = u'.length) :
    u = u' ∧ v = v' := by
  have hsame := h.symm.trans h'
  rw [List.append_assoc, List.append_assoc] at hsame
  obtain ⟨hu, hrest⟩ := List.append_inj hsame hlength
  exact ⟨hu, List.append_cancel_left hrest⟩

/-- There is one cut at the first occurrence. -/
theorem CutsFirst.unique (h : CutsFirst pat l u v) (h' : CutsFirst pat l u' v') : u = u' ∧ v = v' := by
  refine eq_of_cuts h.eq_append h'.eq_append (le_antisymm ?_ ?_)
  · exact Nat.not_lt.mp fun hlt => h.first _ hlt h'.at_length
  · exact Nat.not_lt.mp fun hlt => h'.first _ hlt h.at_length

/-- There is one cut at the last occurrence. -/
theorem CutsLast.unique (h : CutsLast pat l u v) (h' : CutsLast pat l u' v') : u = u' ∧ v = v' := by
  refine eq_of_cuts h.eq_append h'.eq_append (le_antisymm ?_ ?_)
  · exact Nat.not_lt.mp fun hlt => h'.last _ hlt h.at_length
  · exact Nat.not_lt.mp fun hlt => h.last _ hlt h'.at_length

/-- An occurrence that ends in the first `n` elements is one in these. -/
theorem at_take_iff {n i : Nat} (hn : n ≤ l.length) :
    At pat (l.take n) i ↔ At pat l i ∧ i + pat.length ≤ n := by
  constructor
  · intro hat
    have hle := hat.length_le
    rw [List.length_take_of_le hn] at hle
    refine ⟨⟨by omega, ?_⟩, hle⟩
    exact hat.2.trans ((List.take_prefix n l).drop i)
  · rintro ⟨⟨-, hpre⟩, hle⟩
    refine ⟨by rw [List.length_take_of_le hn]; omega, ?_⟩
    rw [List.drop_take]
    exact List.prefix_take_iff.mpr ⟨hpre, by omega⟩

end cuts

end Occurrence
