import Mathlib.Tactic.ByContra

/-!
# Histories of a state

A state is changed by one action after the other, each of which leads to one state.

* `states`: the states of a history, from the first one to the last.
* `steps`: its steps, each with the state before it and the action.
* `forall_steps`: an invariant of the actions holds all along.
* `good_iff`: what fails exactly in the steps that break a condition holds of a history iff all its
  steps meet the condition.

Unlike in `Lib.Turns` an action leads to one state only, so that the states of a history can be listed
and a property of all of them be decided. For the equivalence a step that does not meet the condition
has to lose one of the two properties at once, in the state that it leaves or by itself; what happens
afterwards does not matter.
-/

namespace History

variable {S A : Type*} (next : S → A → S)

/-- The states of a history. -/
def states (s : S) : List A → List S
  | [] => [s]
  | a :: actions => s :: states (next s a) actions

/-- The steps of a history. -/
def steps (s : S) : List A → List (S × A)
  | [] => []
  | a :: actions => (s, a) :: steps (next s a) actions

variable {next} {I J : S → Prop} {Q C : S × A → Prop} {s : S} {actions : List A}

/-- What every action keeps holds in the states before all steps. -/
theorem forall_steps (hI : ∀ s a, I s → I (next s a)) (hs : I s) :
    ∀ p ∈ steps next s actions, I p.1 := by
  induction actions generalizing s with
  | nil => exact fun p hp => absurd hp List.not_mem_nil
  | cons a actions ih =>
      intro p hp
      rcases List.mem_cons.mp hp with rfl | hp
      · exact hs
      · exact ih (hI s a hs) p hp

/-- The states before and after a step are states of the history. -/
theorem mem_states_of_mem_steps {p : S × A} (hp : p ∈ steps next s actions) :
    p.1 ∈ states next s actions ∧ next p.1 p.2 ∈ states next s actions := by
  induction actions generalizing s with
  | nil => exact absurd hp List.not_mem_nil
  | cons a actions ih =>
      rcases List.mem_cons.mp hp with rfl | hp
      · refine ⟨List.mem_cons_self, List.mem_cons_of_mem _ ?_⟩
        cases actions with
        | nil => exact List.mem_cons_self
        | cons b actions => exact List.mem_cons_self
      · obtain ⟨hbefore, hafter⟩ := ih hp
        exact ⟨List.mem_cons_of_mem _ hbefore, List.mem_cons_of_mem _ hafter⟩

/-- `I` holds in any case, `J` and `Q` are to hold of the states and of the steps. A step that meets
`C` keeps `J` and has `Q`; one that does not meet it loses one of the two. -/
theorem good_iff (hI : ∀ s a, I s → I (next s a))
    (hgood : ∀ s a, I s → J s → C (s, a) → J (next s a) ∧ Q (s, a))
    (hbad : ∀ s a, I s → J s → ¬ C (s, a) → J (next s a) → ¬ Q (s, a)) (hs : I s) (hJ : J s) :
    ((∀ t ∈ states next s actions, J t) ∧ ∀ p ∈ steps next s actions, Q p) ↔
      ∀ p ∈ steps next s actions, C p := by
  constructor
  · rintro ⟨hstates, hQ⟩ p hp
    obtain ⟨hbefore, hafter⟩ := mem_states_of_mem_steps hp
    by_contra hC
    exact hbad p.1 p.2 (forall_steps hI hs p hp) (hstates _ hbefore) hC (hstates _ hafter) (hQ p hp)
  · intro hC
    induction actions generalizing s with
    | nil =>
        refine ⟨fun t ht => ?_, fun p hp => absurd hp List.not_mem_nil⟩
        rw [List.mem_singleton.mp ht]
        exact hJ
    | cons a actions ih =>
        obtain ⟨hnext, hstep⟩ := hgood s a hs hJ (hC _ List.mem_cons_self)
        obtain ⟨hstates, hsteps⟩ :=
          ih (hI s a hs) hnext fun p hp => hC p (List.mem_cons_of_mem _ hp)
        refine ⟨fun t ht => ?_, fun p hp => ?_⟩
        · rcases List.mem_cons.mp ht with rfl | ht
          · exact hJ
          · exact hstates t ht
        · rcases List.mem_cons.mp hp with rfl | hp
          · exact hstep
          · exact hsteps p hp

end History
