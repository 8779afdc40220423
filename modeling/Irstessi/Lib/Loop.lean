import Mathlib.Tactic.Common

/-!
# Loops over positions that may fail

A `for` loop with a position, a bound and a step, whose body fails, goes on or leaves the loop with a
value.

* `run`: the loop; it fails where its body does.
* `isSome_run_iff`: it does not fail iff no body fails at a position reached.
* `exists_of_run`, `leaves_run_iff`: it is left iff its body is somewhere.

The body is a function from positions to `Option (Option α)`, where the outer `none` is a failure. The
positions below the bound are the measure, so that the loop always ends; with a step of 0 it would not,
and is not begun. The rules ask for a positive step.
-/

namespace Loop

variable {β : Type} {stop step p : Nat} {body : Nat → Option (Option β)}

/-- `for (; p < stop; p += step)`. The body's `none` is a failure, `some none` goes on, and
`some (some b)` leaves the loop. -/
def run (stop step : Nat) (body : Nat → Option (Option β)) (p : Nat) : Option (Option β) :=
  if p < stop ∧ 0 < step then
    match body p with
    | none => none
    | some (some b) => some (some b)
    | some none => run stop step body (p + step)
  else some none
termination_by stop - p

/-- The body is left with a value. -/
def Leaves (body : Nat → Option (Option β)) (p : Nat) : Prop := ∃ b, body p = some (some b)

/-- The position of the next round, counted from the position behind the first one. -/
theorem step_succ (p step k : Nat) : p + step * (k + 1) = p + step + step * k := by
  rw [Nat.mul_succ]
  omega

/-- A loop that does not fail reaches positions at which the body does not fail. -/
theorem isSome_run_iff (hstep : 0 < step) :
    (run stop step body p).isSome ↔
      ∀ k, p + step * k < stop → (∀ j < k, ¬ Leaves body (p + step * j)) →
        (body (p + step * k)).isSome := by
  fun_induction run stop step body p with
  | case1 p h hbody =>
      refine iff_of_false (by simp) fun hall => ?_
      have hfirst := hall 0 (by simpa using h.1) (fun j hj => absurd hj (Nat.not_lt_zero j))
      simp [hbody] at hfirst
  | case2 p h b hbody =>
      refine iff_of_true rfl fun k _ hbefore => ?_
      rcases k with _ | k
      · simp [hbody]
      · exact absurd ⟨b, by simpa using hbody⟩ (hbefore 0 (Nat.succ_pos k))
  | case3 p h hbody ih =>
      rw [ih]
      constructor
      · intro hall k hk hbefore
        rcases k with _ | k
        · simp [hbody]
        · rw [step_succ] at hk ⊢
          refine hall k hk fun j hj => ?_
          rw [← step_succ]
          exact hbefore (j + 1) (Nat.succ_lt_succ hj)
      · intro hall k hk hbefore
        rw [← step_succ] at hk ⊢
        refine hall (k + 1) hk fun j hj => ?_
        rcases j with _ | j
        · rintro ⟨b, hb⟩
          simp [hbody] at hb
        · rw [step_succ]
          exact hbefore j (Nat.lt_of_succ_lt_succ hj)
  | case4 p h =>
      refine iff_of_true rfl fun k hk _ => ?_
      exact absurd ⟨Nat.lt_of_le_of_lt (Nat.le_add_right p _) hk, hstep⟩ h

/-- A loop that is left is left by its body at a position below the bound, the first of these. -/
theorem exists_of_run {b : β} (h : run stop step body p = some (some b)) :
    ∃ k, p + step * k < stop ∧ body (p + step * k) = some (some b) ∧
      ∀ j < k, body (p + step * j) = some none := by
  fun_induction run stop step body p with
  | case1 p h' hbody => exact absurd h (by simp)
  | case2 p h' b' hbody =>
      obtain rfl : b' = b := by simpa using h
      exact ⟨0, by simpa using h'.1, by simpa using hbody, fun j hj => absurd hj (Nat.not_lt_zero j)⟩
  | case3 p h' hbody ih =>
      obtain ⟨k, hk, hb, hbefore⟩ := ih h
      rw [← step_succ] at hk hb
      refine ⟨k + 1, hk, hb, fun j hj => ?_⟩
      rcases j with _ | j
      · simpa using hbody
      · rw [step_succ]
        exact hbefore j (Nat.lt_of_succ_lt_succ hj)
  | case4 p h' => exact absurd h (by simp)

/-- A loop that ends at its bound has not been left by its body anywhere. -/
theorem not_leaves_of_run (hstep : 0 < step) (h : run stop step body p = some none) {k : Nat}
    (hk : p + step * k < stop) : ¬ Leaves body (p + step * k) := by
  fun_induction run stop step body p generalizing k with
  | case1 p h' hbody => exact absurd h (by simp)
  | case2 p h' b hbody => exact absurd h (by simp)
  | case3 p h' hbody ih =>
      rcases k with _ | k
      · rintro ⟨b, hb⟩
        simp [hbody] at hb
      · rw [step_succ] at hk ⊢
        exact ih h hk
  | case4 p h' => exact absurd ⟨Nat.lt_of_le_of_lt (Nat.le_add_right p _) hk, hstep⟩ h'

/-- A loop that does not fail is left iff its body is somewhere. -/
theorem leaves_run_iff (hstep : 0 < step) (h : (run stop step body p).isSome) :
    (∃ b, run stop step body p = some (some b)) ↔
      ∃ k, p + step * k < stop ∧ Leaves body (p + step * k) := by
  constructor
  · rintro ⟨b, hb⟩
    obtain ⟨k, hk, hbody, -⟩ := exists_of_run hb
    exact ⟨k, hk, b, hbody⟩
  · rintro ⟨k, hk, hleaves⟩
    obtain ⟨_ | b, hrun⟩ := Option.isSome_iff_exists.mp h
    · exact absurd hleaves (not_leaves_of_run hstep hrun hk)
    · exact ⟨b, hrun⟩

end Loop
