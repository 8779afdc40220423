import Mathlib.Data.Nat.Find
import Mathlib.Logic.Function.Iterate

/-!
# Loops that are left when their condition fails

The body of a loop fails, returns the next state, or returns nothing where the loop is left. A run has a
number of rounds, and fails in a way of its own where they do not suffice.

* `run late body rounds s`.
* `exists_run`: with an invariant and a measure that is below the number of rounds and falls, the loop
  is left in a state with the invariant in which its condition fails.
* `of_run`: an invariant holds where the loop is left.
* `run_iff`: a loop whose body does not fail is left iff its condition fails in one of the states that
  its steps lead to, and in the first of these.
-/

namespace While

variable {ε σ : Type*}

/-- The state in which the loop is left. -/
def run (late : ε) (body : σ → Except ε (Option σ)) : Nat → σ → Except ε σ
  | 0, _ => .error late
  | rounds + 1, s =>
      match body s with
      | .error e => .error e
      | .ok none => .ok s
      | .ok (some s) => run late body rounds s

variable {late : ε} {body : σ → Except ε (Option σ)} {rounds : Nat} {s : σ}

/-- The loop is left before the rounds are over, by induction on their number. -/
theorem exists_run (I : σ → Prop) (measure : σ → Nat)
    (hstep : ∀ s, I s → body s = .ok none ∨ ∃ s', body s = .ok (some s') ∧ I s' ∧ measure s' < measure s)
    (hI : I s) (hrounds : measure s < rounds) :
    ∃ t, run late body rounds s = .ok t ∧ I t ∧ body t = .ok none := by
  induction rounds generalizing s with
  | zero => exact absurd hrounds (Nat.not_lt_zero _)
  | succ rounds ih =>
      rw [run]
      rcases hstep s hI with hbody | ⟨s', hbody, hI', hlt⟩
      · rw [hbody]
        exact ⟨s, rfl, hI, hbody⟩
      · rw [hbody]
        exact ih hI' (Nat.lt_of_lt_of_le hlt (Nat.le_of_lt_succ hrounds))

/-- What every round keeps holds where the loop is left. -/
theorem of_run {I : σ → Prop} (hstep : ∀ s s', I s → body s = .ok (some s') → I s') (hI : I s) {t : σ}
    (h : run late body rounds s = .ok t) : I t := by
  induction rounds generalizing s with
  | zero => cases h
  | succ rounds ih =>
      rw [run] at h
      rcases hbody : body s with e | _ | s'
      · rw [hbody] at h
        cases h
      · rw [hbody] at h
        cases h
        exact hI
      · rw [hbody] at h
        exact ih (hstep s s' hI hbody) h

section steps

variable {next : σ → σ} {stop : σ → Prop} [DecidablePred stop]
  (hbody : ∀ s, body s = .ok (if stop s then none else some (next s)))

include hbody

/-- The states before the one in which the loop is left are passed, by induction on the rounds. -/
theorem run_eq_ok {n : Nat} (hn : n < rounds) (hstop : stop (next^[n] s))
    (hbefore : ∀ k < n, ¬ stop (next^[k] s)) : run late body rounds s = .ok (next^[n] s) := by
  induction rounds generalizing s n with
  | zero => exact absurd hn (Nat.not_lt_zero n)
  | succ rounds ih =>
      rw [run, hbody]
      cases n with
      | zero =>
          rw [if_pos (show stop s from hstop)]
          rfl
      | succ n =>
          rw [if_neg (show ¬ stop s from hbefore 0 n.succ_pos)]
          rw [Function.iterate_succ_apply] at hstop ⊢
          exact ih (Nat.lt_of_succ_lt_succ hn) hstop fun k hk => hbefore (k + 1) (Nat.succ_lt_succ hk)

/-- A loop is left in the first state in which its condition fails. -/
theorem run_iff {t : σ} : (∃ rounds, run late body rounds s = .ok t) ↔
    ∃ n, t = next^[n] s ∧ stop (next^[n] s) ∧ ∀ k < n, ¬ stop (next^[k] s) := by
  constructor
  · rintro ⟨rounds, hrun⟩
    induction rounds generalizing s with
    | zero => cases hrun
    | succ rounds ih =>
        rw [run, hbody] at hrun
        by_cases hstop : stop s
        · rw [if_pos hstop] at hrun
          obtain rfl := Except.ok.inj hrun
          exact ⟨0, rfl, hstop, fun k hk => absurd hk (Nat.not_lt_zero k)⟩
        · rw [if_neg hstop] at hrun
          obtain ⟨n, rfl, hn, hbefore⟩ := ih hrun
          refine ⟨n + 1, rfl, hn, fun k hk => ?_⟩
          cases k with
          | zero => exact hstop
          | succ k => exact hbefore k (Nat.lt_of_succ_lt_succ hk)
  · rintro ⟨n, rfl, hstop, hbefore⟩
    exact ⟨n + 1, run_eq_ok hbody n.lt_succ_self hstop hbefore⟩

end steps

end While
