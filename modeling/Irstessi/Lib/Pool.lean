import Irstessi.Lib.Interact
import Mathlib.Logic.Function.Basic
import Mathlib.Data.List.Basic

/-!
# Programs that run side by side

Programs that share a state take steps in any order. A step is one call of one of them: the shared
state decides which answers the call may get and which state it leaves.

* `Prog.Makes`: the calls that a program makes on its own, and the program that is left to do, with
  the rule for sequencing `makes_bind_pure_iff`.
* `Prog.translate`: programs in place of the calls of a program.
* `Effects`: the rows of calls that the shared state admits, with the rules `Effects.append_iff` and
  `Effects.invariant`.
* `Pool`, `Pool.Runs`: the programs with the shared state, and their runs.
* **`Pool.runs_iff`**: the runs of a pool are the interleavings of what its programs make that the
  shared state admits.
* `Pool.Runs.invariant`: an invariant over the programs and the shared state.
-/

namespace Interact

/-- A program that neither writes notes nor throws. -/
abbrev Proc (C : Type) (R : C → Type) (α : Type) : Type := Prog C R Empty Empty α

section makes

variable {C : Type} {R : C → Type} {α β : Type}

/-- The program `p` makes the calls and is then `q`. -/
inductive Prog.Makes : Proc C R α → List (Event C R) → Proc C R α → Prop
  | nil (p : Proc C R α) : Makes p [] p
  | call {c : C} {k : R c → Proc C R α} {r : R c} {tr : List (Event C R)} {q : Proc C R α}
      (h : Makes (k r) tr q) : Makes (.call c k) (⟨c, r⟩ :: tr) q

namespace Prog

variable {p q : Proc C R α} {tr tr' : List (Event C R)}

/-- Without a call a program is left as it is. -/
@[simp] theorem makes_nil_iff : Makes p [] q ↔ q = p := by
  constructor
  · intro h
    cases h
    rfl
  · rintro rfl
    exact .nil q

/-- A program that has ended makes no call. -/
@[simp] theorem makes_pure_iff {a : α} :
    Makes (Pure.pure a : Proc C R α) tr q ↔ tr = [] ∧ q = Pure.pure a := by
  constructor
  · intro h
    cases h
    exact ⟨rfl, rfl⟩
  · rintro ⟨rfl, rfl⟩
    exact .nil _

/-- A call that has led to a value has been made. -/
theorem makes_call_pure_iff {c : C} {k : R c → Proc C R α} {a : α} :
    Makes (.call c k) tr (Pure.pure a) ↔
      ∃ r rest, tr = ⟨c, r⟩ :: rest ∧ Makes (k r) rest (Pure.pure a) := by
  constructor
  · intro h
    cases h with
    | call h => exact ⟨_, _, rfl, h⟩
  · rintro ⟨r, rest, rfl, h⟩
    exact .call h

/-- Calls are made one row after the other. -/
theorem Makes.append {r : Proc C R α} (h : Makes p tr q) (h' : Makes q tr' r) :
    Makes p (tr ++ tr') r := by
  induction h with
  | nil => exact h'
  | call _ ih => exact .call (ih h')

/-- What is done by the first part of a sequence is done with the second part behind it. -/
theorem Makes.bind (h : Makes p tr q) (f : α → Proc C R β) : Makes (p >>= f) tr (q >>= f) := by
  induction h with
  | nil => exact .nil _
  | call _ ih => exact .call ih

/-- A sequence ends as its second part does, from a value of the first. -/
theorem makes_bind_pure_iff {f : α → Proc C R β} {b : β} :
    Makes (p >>= f) tr (Pure.pure b) ↔
      ∃ a before behind, tr = before ++ behind ∧ Makes p before (Pure.pure a) ∧
        Makes (f a) behind (Pure.pure b) := by
  constructor
  · intro h
    induction p generalizing tr with
    | pure a => exact ⟨a, [], tr, rfl, .nil _, h⟩
    | throw e => exact e.elim
    | note n => exact n.elim
    | call c k ih =>
        obtain ⟨r, rest, rfl, hrest⟩ := makes_call_pure_iff.mp h
        obtain ⟨a, before, behind, rfl, hp, hf⟩ := ih r hrest
        exact ⟨a, ⟨c, r⟩ :: before, behind, rfl, .call hp, hf⟩
  · rintro ⟨a, before, behind, rfl, hp, hf⟩
    exact (hp.bind f).append hf

end Prog

end makes

/-! ## Programs in place of calls -/

section translate

variable {C C' : Type} {R : C → Type} {R' : C' → Type} {α β : Type}

/-- The program with a program for each of its calls, whose value is the answer. -/
def Prog.translate (f : (c : C) → Proc C' R' (R c)) : Proc C R α → Proc C' R' α
  | .pure a => .pure a
  | .throw e => .throw e
  | .note n p => .note n (p.translate f)
  | .call c k => f c >>= fun r => (k r).translate f

/-- A value stays. -/
@[simp] theorem Prog.translate_pure (f : (c : C) → Proc C' R' (R c)) (a : α) :
    (Pure.pure a : Proc C R α).translate f = Pure.pure a := rfl

/-- A call becomes its program, and the rest is translated behind it. -/
@[simp] theorem Prog.translate_call (f : (c : C) → Proc C' R' (R c)) (c : C)
    (k : R c → Proc C R α) :
    (Prog.call c k : Proc C R α).translate f = f c >>= fun r => (k r).translate f := rfl

end translate

/-! ## The shared state -/

section effects

variable {C : Type} {R : C → Type} {S : Type}

/-- The calls may be made one after the other, with these answers, from the first state to the last.
`effect c s r s'` tells that `c` may be answered with `r` in `s`, which leaves `s'`. -/
inductive Effects (effect : (c : C) → S → R c → S → Prop) : S → List (Event C R) → S → Prop
  | nil (s : S) : Effects effect s [] s
  | cons {c : C} {r : R c} {s t u : S} {tr : List (Event C R)} (h : effect c s r t)
      (htr : Effects effect t tr u) : Effects effect s (⟨c, r⟩ :: tr) u

namespace Effects

variable {effect : (c : C) → S → R c → S → Prop} {s u : S} {tr tr' : List (Event C R)}

/-- An empty row of calls leaves the state. -/
@[simp] theorem nil_iff : Effects effect s [] u ↔ u = s := by
  constructor
  · intro h
    cases h
    rfl
  · rintro rfl
    exact .nil u

/-- The first call has its effect before the others. -/
theorem cons_iff {e : Event C R} :
    Effects effect s (e :: tr) u ↔ ∃ t, effect e.1 s e.2 t ∧ Effects effect t tr u := by
  constructor
  · intro h
    cases h with
    | cons h htr => exact ⟨_, h, htr⟩
  · rintro ⟨t, h, htr⟩
    exact .cons h htr

/-- Rows of calls have their effects one after the other. -/
theorem append_iff :
    Effects effect s (tr ++ tr') u ↔ ∃ t, Effects effect s tr t ∧ Effects effect t tr' u := by
  induction tr generalizing s with
  | nil => simp
  | cons e tr ih =>
      rw [List.cons_append, cons_iff]
      simp only [ih, cons_iff]
      constructor
      · rintro ⟨t, h, v, htr, htr'⟩
        exact ⟨v, ⟨t, h, htr⟩, htr'⟩
      · rintro ⟨v, ⟨t, h, htr⟩, htr'⟩
        exact ⟨t, h, v, htr, htr'⟩

/-- What every call of the row keeps holds at its end. -/
theorem invariant {I : S → Prop} (h : Effects effect s tr u)
    (hkeep : ∀ e ∈ tr, ∀ s t, I s → effect e.1 s e.2 t → I t) (hs : I s) : I u := by
  induction h with
  | nil => exact hs
  | cons hc _ ih =>
      exact ih (fun e he => hkeep e (List.mem_cons_of_mem _ he))
        (hkeep _ List.mem_cons_self _ _ hs hc)

end Effects

end effects

/-! ## Pools -/

/-- Programs, and the state that they share. -/
structure Pool (C : Type) (R : C → Type) (S ι : Type) (α : ι → Type) where
  shared : S
  procs : (i : ι) → Proc C R (α i)

namespace Pool

variable {C : Type} {R : C → Type} {S ι : Type} {α : ι → Type} [DecidableEq ι]
  {effect : (c : C) → S → R c → S → Prop}

/-- A run of the pool, with the calls in the order in which they are made and the programs that have
made them. -/
inductive Runs (effect : (c : C) → S → R c → S → Prop) :
    Pool C R S ι α → List (ι × Event C R) → Pool C R S ι α → Prop
  | nil (st : Pool C R S ι α) : Runs effect st [] st
  | cons {st u : Pool C R S ι α} {i : ι} {c : C} {k : R c → Proc C R (α i)} {r : R c} {s : S}
      {tr : List (ι × Event C R)} (hproc : st.procs i = .call c k)
      (h : effect c st.shared r s)
      (htr : Runs effect ⟨s, Function.update st.procs i (k r)⟩ tr u) :
      Runs effect st ((i, ⟨c, r⟩) :: tr) u

/-- The calls that one program has made. -/
def own (i : ι) (tr : List (ι × Event C R)) : List (Event C R) :=
  tr.filterMap fun step => if step.1 = i then some step.2 else none

section own

variable {i j : ι} {e : Event C R} {tr tr' : List (ι × Event C R)}

/-- Of an empty run each program has made nothing. -/
@[simp] theorem own_nil : own i ([] : List (ι × Event C R)) = [] := rfl

/-- A call of the program is one of its own. -/
@[simp] theorem own_cons_self : own i ((i, e) :: tr) = e :: own i tr := by
  simp [own]

/-- A call of another program is not. -/
theorem own_cons_of_ne (h : j ≠ i) : own i ((j, e) :: tr) = own i tr := by
  simp [own, h]

/-- The calls of one program are cut where the run is. -/
theorem exists_of_own_append {before behind : List (Event C R)} (h : own i tr = before ++ behind) :
    ∃ tr₁ tr₂, tr = tr₁ ++ tr₂ ∧ own i tr₁ = before ∧ own i tr₂ = behind :=
  List.filterMap_eq_append_iff.mp h

/-- The first call of one program has its place in the run. -/
theorem exists_of_own_cons {rest : List (Event C R)} (h : own i tr = e :: rest) :
    ∃ tr₁ tr₂, tr = tr₁ ++ (i, e) :: tr₂ ∧ own i tr₂ = rest := by
  obtain ⟨tr₁, ⟨j, e'⟩, tr₂, rfl, -, hself, hrest⟩ := List.filterMap_eq_cons_iff.mp h
  refine ⟨tr₁, tr₂, ?_, hrest⟩
  split at hself
  · next hji =>
      obtain rfl : j = i := hji
      obtain rfl : e' = e := Option.some.inj hself
      rfl
  · exact absurd hself (by simp)

end own

/-- A run of the pool is an interleaving of what its programs make that the shared state admits. -/
theorem runs_iff {st u : Pool C R S ι α} {tr : List (ι × Event C R)} :
    Runs effect st tr u ↔
      Effects effect st.shared (tr.map Prod.snd) u.shared ∧
        ∀ i, (st.procs i).Makes (own i tr) (u.procs i) := by
  constructor
  · intro h
    induction h with
    | nil st => exact ⟨.nil _, fun i => .nil _⟩
    | @cons st u i c k r s tr hproc h _ ih =>
        refine ⟨.cons h ih.1, fun j => ?_⟩
        have hrest := ih.2 j
        by_cases hij : i = j
        · obtain rfl := hij
          dsimp only at hrest
          rw [Function.update_self] at hrest
          rw [own_cons_self, hproc]
          exact .call hrest
        · dsimp only at hrest
          rw [Function.update_of_ne (Ne.symm hij)] at hrest
          rw [own_cons_of_ne hij]
          exact hrest
  · rintro ⟨hshared, hprocs⟩
    induction tr generalizing st with
    | nil =>
        obtain ⟨s, procs⟩ := st
        obtain ⟨s', procs'⟩ := u
        obtain rfl : s' = s := Effects.nil_iff.mp hshared
        obtain rfl : procs' = procs := funext fun i => Prog.makes_nil_iff.mp (hprocs i)
        exact .nil _
    | cons step tr ih =>
        obtain ⟨i, c, r⟩ := step
        obtain ⟨t, h, htr⟩ := Effects.cons_iff.mp hshared
        have hi := hprocs i
        rw [own_cons_self] at hi
        generalize hproc : st.procs i = p at hi
        cases hi with
        | call hk =>
            refine .cons hproc h (ih htr fun j => ?_)
            by_cases hij : j = i
            · obtain rfl := hij
              dsimp only
              rw [Function.update_self]
              exact hk
            · dsimp only
              rw [Function.update_of_ne hij]
              have hj := hprocs j
              rw [own_cons_of_ne (Ne.symm hij)] at hj
              exact hj

/-- What every step of every program keeps holds along the run. -/
theorem Runs.invariant {I : Pool C R S ι α → Prop} {st u : Pool C R S ι α}
    {tr : List (ι × Event C R)} (h : Runs effect st tr u)
    (hkeep : ∀ (st : Pool C R S ι α) (i : ι) (c : C) (k : R c → Proc C R (α i)) (r : R c) (s : S),
      I st → st.procs i = .call c k → effect c st.shared r s →
        I ⟨s, Function.update st.procs i (k r)⟩)
    (hst : I st) : I u := by
  induction h with
  | nil => exact hst
  | cons hproc h _ ih => exact ih (hkeep _ _ _ _ _ _ hst hproc h)

end Pool

end Interact
