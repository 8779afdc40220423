import Mathlib.Init

/-!
# Turns

A state is changed by actions, each of which may lead to several states. An actor takes turns; in a
turn it does a row of actions, which may be broken off.

* `Within`: the states that a row of actions comes by.
* `After`: the states that a row of actions may end in.
* `Reaches`: the states that turns come by.
* `Within.invariant`, `Reaches.invariant`: what the actions of every turn keep holds of all of them.

An actor chooses its row of actions as it begins its turn, by the state at that time; actions may fail
to happen from any point on. An invariant needs to be kept by one action under the condition of the
turn, with the state at the beginning of the turn at hand.
-/

namespace Turns

variable {S L : Type} {effect : L → S → S → Prop}

/-- The state `t` is come by while the actions `l` are done one after the other from `s`. -/
inductive Within (effect : L → S → S → Prop) : S → List L → S → Prop
  | here (s : S) (l : List L) : Within effect s l s
  | step {x : L} {l : List L} {s t u : S} (hx : effect x s t) (hl : Within effect t l u) :
      Within effect s (x :: l) u

/-- The state `t` is there when the actions `l` are done one after the other from `s`. -/
inductive After (effect : L → S → S → Prop) : S → List L → S → Prop
  | nil (s : S) : After effect s [] s
  | cons {x : L} {l : List L} {s t u : S} (hx : effect x s t) (hl : After effect t l u) :
      After effect s (x :: l) u

/-- The state is come by in some turns from `s₀`; `turn` tells the rows of actions that a turn may
consist of in a state. -/
inductive Reaches (effect : L → S → S → Prop) (turn : S → List L → Prop) (s₀ : S) : S → Prop
  | start : Reaches effect turn s₀ s₀
  | turn {s t : S} {l : List L} (hs : Reaches effect turn s₀ s) (hl : turn s l)
      (ht : Within effect s l t) : Reaches effect turn s₀ t

/-- Nothing has been done, or the first action and some of the others. -/
theorem within_cons_iff {x : L} {l : List L} {s u : S} :
    Within effect s (x :: l) u ↔ u = s ∨ ∃ t, effect x s t ∧ Within effect t l u := by
  constructor
  · intro h
    cases h with
    | here => exact .inl rfl
    | step hx hl => exact .inr ⟨_, hx, hl⟩
  · rintro (rfl | ⟨t, hx, hl⟩)
    · exact .here u _
    · exact .step hx hl

/-- No action leaves the state. -/
@[simp] theorem after_nil_iff {s u : S} : After effect s [] u ↔ u = s := by
  constructor
  · intro h
    cases h
    rfl
  · rintro rfl
    exact .nil u

/-- The first action is done before the others. -/
theorem after_cons_iff {x : L} {l : List L} {s u : S} :
    After effect s (x :: l) u ↔ ∃ t, effect x s t ∧ After effect t l u := by
  constructor
  · intro h
    cases h with
    | cons hx hl => exact ⟨_, hx, hl⟩
  · rintro ⟨t, hx, hl⟩
    exact .cons hx hl

/-- Rows of actions are done one after the other. -/
theorem after_append_iff {l l' : List L} {s u : S} :
    After effect s (l ++ l') u ↔ ∃ t, After effect s l t ∧ After effect t l' u := by
  induction l generalizing s with
  | nil => simp
  | cons x l ih =>
      rw [List.cons_append, after_cons_iff]
      simp only [ih, after_cons_iff]
      constructor
      · rintro ⟨t, hx, t', hl, hl'⟩
        exact ⟨t', ⟨t, hx, hl⟩, hl'⟩
      · rintro ⟨t', ⟨t, hx, hl⟩, hl'⟩
        exact ⟨t, hx, t', hl, hl'⟩

/-- What each action of the row keeps holds of all states come by. -/
theorem Within.invariant {I : S → Prop} {l : List L} {s u : S} (h : Within effect s l u)
    (hl : ∀ x ∈ l, ∀ s t, I s → effect x s t → I t) (hs : I s) : I u := by
  induction h with
  | here => exact hs
  | step hx _ ih =>
      exact ih (fun y hy => hl y (List.mem_cons_of_mem _ hy)) (hl _ List.mem_cons_self _ _ hs hx)

/-- What each turn keeps holds of all states reached. -/
theorem Reaches.invariant {turn : S → List L → Prop} {I : S → Prop} {s₀ s : S}
    (h : Reaches effect turn s₀ s)
    (hturn : ∀ s l t, I s → turn s l → Within effect s l t → I t) (h₀ : I s₀) : I s := by
  induction h with
  | start => exact h₀
  | turn _ hl ht ih => exact hturn _ _ _ ih hl ht

end Turns
