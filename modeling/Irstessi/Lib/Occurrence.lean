import Mathlib.Data.List.Basic
import Mathlib.Data.List.Infix

/-!
# First and last occurrence of a pattern in a list

* `At pat l i`: the pattern occurs in `l` at position `i`.
* `findPos pat l`: the least position, by comparing the pattern at every position from the left.
* `rfindPos pat l n`: the greatest position at or below `n`, by comparing downwards from `n`.
* `findPos_eq_some_iff`, `findPos_eq_none_iff`, `rfindPos_eq_some_iff`: both searches are exact;
  `findPos_isSome_iff` relates the first to `List.IsInfix`.
* One-element patterns (separators): `findPos_singleton`, `rfindPos_singleton`, and
  `cons_infix_iff` for patterns that begin with a separator.
* `infix_append_cons_iff`, `infix_flatten_iff`: patterns in texts that separators cut.

The searches compare the pattern at every position, as a program without further knowledge does, and the
results say that they find the extreme positions. Patterns may be empty, and then occur everywhere.
-/

namespace Occurrence

variable {α : Type*}

/-- The pattern occurs in `l` at position `i`. -/
def At (pat l : List α) (i : Nat) : Prop := i ≤ l.length ∧ pat <+: l.drop i

/-- An occurrence cuts the list in three. -/
theorem At.eq_append {pat l : List α} {i : Nat} (h : At pat l i) :
    l = l.take i ++ pat ++ l.drop (i + pat.length) := by
  obtain ⟨hi, t, ht⟩ := h
  have hdrop : l.drop (i + pat.length) = t := by
    rw [← List.drop_drop, ← ht, List.drop_left]
  rw [hdrop, List.append_assoc, ht, List.take_append_drop]

/-- An occurrence ends within the list. -/
theorem At.length_le {pat l : List α} {i : Nat} (h : At pat l i) :
    i + pat.length ≤ l.length := by
  have hlen := h.2.length_le
  have hi := h.1
  rw [List.length_drop] at hlen
  omega

/-- An occurrence cuts the list into what is in front of it and what is behind. -/
theorem at_iff_exists {pat l : List α} {i : Nat} :
    At pat l i ↔ ∃ u v, l = u ++ pat ++ v ∧ u.length = i := by
  constructor
  · intro h
    exact ⟨_, _, h.eq_append, List.length_take_of_le h.1⟩
  · rintro ⟨u, v, rfl, rfl⟩
    refine ⟨by simp, v, ?_⟩
    rw [List.append_assoc, List.drop_left]

/-- The pattern occurs somewhere iff it is an infix. -/
theorem exists_at_iff_infix {pat l : List α} : (∃ i, At pat l i) ↔ pat <:+: l := by
  constructor
  · rintro ⟨i, h⟩
    exact ⟨_, _, h.eq_append.symm⟩
  · rintro ⟨u, v, h⟩
    exact ⟨u.length, at_iff_exists.mpr ⟨u, v, h.symm, rfl⟩⟩

/-- Behind the first element, positions are one less. -/
theorem at_cons_succ {pat l : List α} {a : α} {i : Nat} : At pat (a :: l) (i + 1) ↔ At pat l i := by
  simp [At]

/-- An occurrence at the beginning is a prefix. -/
theorem at_zero {pat l : List α} : At pat l 0 ↔ pat <+: l := by
  simp [At]

section search

variable [DecidableEq α]

/-- The least position at which the pattern occurs. -/
def findPos (pat : List α) : List α → Option Nat
  | [] => if pat.isPrefixOf [] then some 0 else none
  | a :: l => if pat.isPrefixOf (a :: l) then some 0 else (findPos pat l).map (· + 1)

/-- The greatest position at or below `n` at which the pattern occurs. -/
def rfindPos (pat l : List α) : Nat → Option Nat
  | 0 => if pat.isPrefixOf l then some 0 else none
  | n + 1 => if pat.isPrefixOf (l.drop (n + 1)) then some (n + 1) else rfindPos pat l n

/-- The search from the left finds the least position, and only it. -/
theorem findPos_eq_some_iff {pat l : List α} {i : Nat} :
    findPos pat l = some i ↔ At pat l i ∧ ∀ j < i, ¬ At pat l j := by
  induction l generalizing i with
  | nil =>
      cases pat with
      | nil => cases i <;> simp [findPos, At]
      | cons b pat => simp [findPos, At]
  | cons a l ih =>
      by_cases hp : pat.isPrefixOf (a :: l) = true
      · rw [findPos, if_pos hp]
        have hzero : At pat (a :: l) 0 := at_zero.mpr (List.isPrefixOf_iff_prefix.mp hp)
        constructor
        · rintro ⟨⟩
          exact ⟨hzero, by simp⟩
        · rintro ⟨-, hleast⟩
          cases i with
          | zero => rfl
          | succ i => exact absurd hzero (hleast 0 i.succ_pos)
      · rw [findPos, if_neg hp]
        have hzero : ¬ At pat (a :: l) 0 :=
          fun h => hp (List.isPrefixOf_iff_prefix.mpr (at_zero.mp h))
        cases i with
        | zero => simp [hzero]
        | succ i =>
            simp only [Option.map_eq_some_iff, Nat.add_right_cancel_iff, exists_eq_right, ih,
              at_cons_succ]
            refine and_congr_right fun _ => ⟨fun h j hj => ?_, fun h j hj => ?_⟩
            · cases j with
              | zero => exact hzero
              | succ j => exact fun hat => h j (by omega) (at_cons_succ.mp hat)
            · exact fun hat => h (j + 1) (by omega) (at_cons_succ.mpr hat)

/-- It finds nothing iff the pattern does not occur. -/
theorem findPos_eq_none_iff {pat l : List α} : findPos pat l = none ↔ ∀ i, ¬ At pat l i := by
  induction l with
  | nil =>
      cases pat with
      | nil => simp [findPos, At]
      | cons b pat => simp [findPos, At]
  | cons a l ih =>
      by_cases hp : pat.isPrefixOf (a :: l) = true
      · rw [findPos, if_pos hp]
        refine ⟨nofun, fun h => absurd (at_zero.mpr (List.isPrefixOf_iff_prefix.mp hp)) (h 0)⟩
      · rw [findPos, if_neg hp, Option.map_eq_none_iff, ih]
        constructor
        · intro h i hat
          cases i with
          | zero => exact hp (List.isPrefixOf_iff_prefix.mpr (at_zero.mp hat))
          | succ i => exact h i (at_cons_succ.mp hat)
        · exact fun h i hat => h (i + 1) (at_cons_succ.mpr hat)

/-- It finds something iff the pattern is an infix. -/
theorem findPos_isSome_iff {pat l : List α} : (findPos pat l).isSome ↔ pat <:+: l := by
  rw [← exists_at_iff_infix, Option.isSome_iff_ne_none, ne_eq, findPos_eq_none_iff]
  push Not
  rfl

/-- The search from the right finds the greatest position up to where it begins, and only it. -/
theorem rfindPos_eq_some_iff {pat l : List α} {n i : Nat} (hn : n ≤ l.length) :
    rfindPos pat l n = some i ↔ i ≤ n ∧ At pat l i ∧ ∀ j, i < j → j ≤ n → ¬ At pat l j := by
  induction n with
  | zero =>
      rw [rfindPos]
      split
      next hp =>
        constructor
        · rintro ⟨⟩
          exact ⟨le_rfl, at_zero.mpr (List.isPrefixOf_iff_prefix.mp hp), by omega⟩
        · rintro ⟨hi, -, -⟩
          rw [Nat.le_zero.mp hi]
      next hp =>
        refine ⟨nofun, ?_⟩
        rintro ⟨hi, hat, -⟩
        rw [Nat.le_zero.mp hi] at hat
        exact absurd (List.isPrefixOf_iff_prefix.mpr (at_zero.mp hat)) hp
  | succ n ih =>
      rw [rfindPos]
      split
      next hp =>
        have hat : At pat l (n + 1) := ⟨hn, List.isPrefixOf_iff_prefix.mp hp⟩
        constructor
        · rintro ⟨⟩
          exact ⟨le_rfl, hat, by omega⟩
        · rintro ⟨hi, -, hlast⟩
          by_cases hlt : i < n + 1
          · exact absurd hat (hlast _ hlt le_rfl)
          · rw [show i = n + 1 by omega]
      next hp =>
        have hnot : ¬ At pat l (n + 1) := fun h => hp (List.isPrefixOf_iff_prefix.mpr h.2)
        rw [ih (by omega)]
        constructor
        · rintro ⟨hi, hat, hlast⟩
          refine ⟨by omega, hat, fun j hij hj => ?_⟩
          rcases Nat.lt_or_ge n j with hjn | hjn
          · rw [show j = n + 1 by omega]; exact hnot
          · exact hlast j hij hjn
        · rintro ⟨hi, hat, hlast⟩
          have hne : i ≠ n + 1 := by rintro rfl; exact hnot hat
          exact ⟨by omega, hat, fun j hij hj => hlast j hij (by omega)⟩

/-! ## Separators -/

/-- The first occurrence of a separator that the left part does not contain. -/
theorem findPos_singleton {a : α} {l r : List α} (h : a ∉ l) :
    findPos [a] (l ++ a :: r) = some l.length := by
  rw [findPos_eq_some_iff]
  refine ⟨at_iff_exists.mpr ⟨l, r, by simp, rfl⟩, fun j hj hat => h ?_⟩
  obtain ⟨u, v, heq, rfl⟩ := at_iff_exists.mp hat
  rw [List.append_assoc] at heq
  have htake := congrArg (List.take (u.length + 1)) heq
  rw [List.take_append_of_le_length (by omega), List.take_append] at htake
  have hmem : a ∈ l.take (u.length + 1) := by rw [htake]; simp
  exact List.mem_of_mem_take hmem

/-- The last occurrence of a separator that the right part does not contain. -/
theorem rfindPos_singleton {a : α} {l r : List α} {n : Nat} (h : a ∉ r) (hl : l.length ≤ n)
    (hn : n ≤ (l ++ a :: r).length) : rfindPos [a] (l ++ a :: r) n = some l.length := by
  rw [rfindPos_eq_some_iff hn]
  refine ⟨hl, at_iff_exists.mpr ⟨l, r, by simp, rfl⟩, fun j hj _ hat => h ?_⟩
  have hpre := hat.2
  rw [List.drop_append, List.drop_eq_nil_of_le (by omega), List.nil_append,
    show j - l.length = (j - l.length - 1) + 1 by omega, List.drop_succ_cons] at hpre
  exact List.mem_of_mem_drop (hpre.subset List.mem_cons_self)

end search

/-- A pattern that begins with the separator `a` occurs iff its rest is a prefix of what follows
some occurrence of `a`. -/
theorem cons_infix_iff {a : α} {pat l : List α} :
    a :: pat <:+: l ↔ ∃ u v, l = u ++ a :: v ∧ pat <+: v := by
  constructor
  · rintro ⟨u, w, h⟩
    exact ⟨u, pat ++ w, by rw [← h]; simp, List.prefix_append _ _⟩
  · rintro ⟨u, v, rfl, w, rfl⟩
    exact ⟨u, w, by simp⟩

/-- A pattern that begins with `a` does not occur in a part without it. -/
theorem cons_infix_append_iff {a : α} {pat u v : List α} (hu : a ∉ u) :
    a :: pat <:+: u ++ v ↔ a :: pat <:+: v := by
  constructor
  · intro h
    obtain ⟨p, q, heq, hq⟩ := cons_infix_iff.mp h
    rcases List.append_eq_append_iff.mp heq with ⟨e, rfl, hv⟩ | ⟨e, rfl, he⟩
    · exact cons_infix_iff.mpr ⟨e, q, hv, hq⟩
    · rcases e with _ | ⟨b, e⟩
      · exact cons_infix_iff.mpr ⟨[], q, by simpa using he.symm, hq⟩
      · obtain ⟨rfl, -⟩ := List.cons.inj he
        exact absurd (by simp) hu
  · intro h
    exact h.trans (List.suffix_append u v).isInfix

/-- A pattern that begins with `a` occurs at an `a`, or behind it. -/
theorem cons_infix_cons_iff {a : α} {pat v : List α} :
    a :: pat <:+: a :: v ↔ pat <+: v ∨ a :: pat <:+: v := by
  rw [List.infix_cons_iff, List.cons_prefix_cons]
  simp

/-- A prefix without the separator ends before it. -/
theorem prefix_append_cons_iff {d c v : List α} {b : α} (hb : b ∉ d) :
    d <+: c ++ b :: v ↔ d <+: c := by
  constructor
  · rintro ⟨t, h⟩
    rcases List.append_eq_append_iff.mp h with ⟨e, hc, -⟩ | ⟨e, hd, hv⟩
    · exact ⟨e, hc.symm⟩
    · rcases e with _ | ⟨b', e⟩
      · exact ⟨[], by simpa using hd⟩
      · obtain ⟨rfl, -⟩ := List.cons.inj hv
        exact absurd (by rw [hd]; simp) hb
  · intro h
    exact h.trans (List.prefix_append c _)

/-- A pattern without the separator `b` occurs on one side of it. -/
theorem infix_append_cons_iff {w u v : List α} {b : α} (hb : b ∉ w) :
    w <:+: u ++ b :: v ↔ w <:+: u ∨ w <:+: v := by
  constructor
  · rintro ⟨p, s, h⟩
    rcases List.append_eq_append_iff.mp h with ⟨a, hu, -⟩ | ⟨c, hpw, hs⟩
    · exact .inl ⟨p, a, hu.symm⟩
    · rcases c with _ | ⟨b', c⟩
      · exact .inl ⟨p, [], by simpa using hpw⟩
      · obtain ⟨rfl, rfl⟩ := List.cons.inj hs
        rcases List.append_eq_append_iff.mp hpw with ⟨a, -, hw⟩ | ⟨e, -, he⟩
        · exact absurd (by rw [hw]; simp) hb
        · rcases e with _ | ⟨b', e⟩
          · exact absurd (by rw [List.nil_append] at he; rw [← he]; simp) hb
          · obtain ⟨-, rfl⟩ := List.cons.inj he
            exact .inr ⟨e, s, rfl⟩
  · rintro (h | h)
    · exact h.trans (List.prefix_append u _).isInfix
    · exact h.trans ((List.suffix_cons b v).trans (List.suffix_append u _)).isInfix

/-- The first occurrence of a pattern behind a separator, the part before being without it. -/
theorem findPos_append_cons [DecidableEq α] {w u r : List α} {b : α} (hb : b ∉ w)
    (hu : ¬ w <:+: u) : findPos w (u ++ b :: (w ++ r)) = some (u.length + 1) := by
  rw [findPos_eq_some_iff]
  refine ⟨at_iff_exists.mpr ⟨u ++ [b], r, by simp, by simp⟩, fun j hj hat => hu ?_⟩
  obtain ⟨p, v, heq, rfl⟩ := at_iff_exists.mp hat
  rw [List.append_assoc] at heq
  -- the occurrence begins in `u`; to end behind it it would need the separator
  rcases List.append_eq_append_iff.mp heq with ⟨c, rfl, hc⟩ | ⟨c, rfl, hc⟩
  · have hnil : c = [] := by
      rw [List.length_append] at hj
      exact List.eq_nil_of_length_eq_zero (by omega)
    subst hnil
    rcases w with _ | ⟨b', w⟩
    · exact List.nil_infix
    · obtain ⟨rfl, -⟩ := List.cons.inj hc
      exact absurd List.mem_cons_self hb
  · rcases List.append_eq_append_iff.mp hc.symm with ⟨a, rfl, ha⟩ | ⟨a, rfl, -⟩
    · rcases a with _ | ⟨b', a⟩
      · exact ⟨p, [], by simp⟩
      · obtain ⟨rfl, -⟩ := List.cons.inj ha
        exact absurd (by simp) hb
    · exact ⟨p, a, by simp⟩

/-- Between the two lists stands a separator that the pattern `w` does not contain. -/
def Cut (w u v : List α) : Prop :=
  (∃ t b, u = t ++ [b] ∧ b ∉ w) ∨ ∃ b t, v = b :: t ∧ b ∉ w

/-- A pattern occurs in a row of lists cut by separators iff it occurs in one of them. -/
theorem infix_flatten_iff {w : List α} (hw : w ≠ []) {ls : List (List α)} (h : ls.IsChain (Cut w)) :
    w <:+: ls.flatten ↔ ∃ l ∈ ls, w <:+: l := by
  have hnil : ¬ w <:+: [] := fun h => hw (List.eq_nil_of_infix_nil h)
  induction ls with
  | nil => simpa using hnil
  | cons u ls ih =>
      rcases ls with _ | ⟨v, ls⟩
      · simp
      · obtain ⟨hcut, htail⟩ := List.isChain_cons_cons.mp h
        have hsplit : w <:+: u ++ (v :: ls).flatten ↔ w <:+: u ∨ w <:+: (v :: ls).flatten := by
          rcases hcut with ⟨t, b, rfl, hb⟩ | ⟨b, t, rfl, hb⟩
          · rw [List.append_assoc, List.singleton_append, infix_append_cons_iff hb,
              infix_append_cons_iff hb]
            simp [hnil]
          · have hright := infix_append_cons_iff (u := []) (v := t ++ ls.flatten) hb
            rw [List.nil_append] at hright
            rw [List.flatten_cons, List.cons_append, infix_append_cons_iff hb, hright]
            simp [hnil]
        rw [List.flatten_cons, hsplit, List.exists_mem_cons_iff]
        exact or_congr Iff.rfl (ih htail)

end Occurrence
