import Irstessi.Lib.Reach

/-!
# Programs that follow a plan

A plan is the list of calls that a program makes while their answers report success. After a failure
it may stop, or go on with calls of the plan and with recovery calls.

* `Follows`: the plan of a program and its result in the successful case, with a rule for each way to
  put programs together (`follows_call`, `follows_bind`).
* `Follows.mayCall_iff`: the calls that the program may make, apart from recovery, are those of its
  plan.

The success of an answer, and which calls belong to recovery, are parameters. A program that follows a
plan is deterministic as long as its calls succeed, and its plan and its result can then be computed
without an environment. The rules go along the constructors of programs, so that a proof has the shape
of the program.
-/

namespace Interact

variable {C : Type} {R : C → Type} {N E : Type} {α β : Type}

/-- `Good` tells the answers that report success, `Recovery` the calls that only follow a failure. -/
structure Follows (Good : Event C R → Prop) (Recovery : C → Prop) (p : Prog C R N E α)
    (plan : List C) (result : Except E α) : Prop where
  /-- All calls of all runs. -/
  calls : p.Calls fun c => c ∈ plan ∨ Recovery c
  /-- The run in which every answer reports success. -/
  run : Ensures p fun tr res => (∀ e ∈ tr, Good e) → tr.map Sigma.fst = plan ∧ res = result

section rules

variable {Good : Event C R → Prop} {Recovery : C → Prop} {plan plan' : List C}
  {p : Prog C R N E α} {f : α → Prog C R N E β} {result : Except E β}

/-- A program that returns at once follows the empty plan. -/
theorem follows_pure (a : α) : Follows Good Recovery (Pure.pure a : Prog C R N E α) [] (.ok a) :=
  ⟨trivial, ensures_pure fun _ => ⟨rfl, rfl⟩⟩

/-- So does one that throws at once. -/
theorem follows_throw (e : E) : Follows Good Recovery (.throw e : Prog C R N E α) [] (.error e) :=
  ⟨trivial, ensures_throw fun _ => ⟨rfl, rfl⟩⟩

/-- Notes are no part of the plan. -/
theorem follows_note {n : N} {result : Except E α} (h : Follows Good Recovery p plan result) :
    Follows Good Recovery (.note n p) plan result :=
  ⟨h.calls, ensures_note h.run⟩

/-- A call: the rest follows the plan where the answer reports success, and keeps to it otherwise. -/
theorem follows_call {c : C} {k : R c → Prog C R N E β}
    (hgood : ∀ r, Good ⟨c, r⟩ → Follows Good Recovery (k r) plan result)
    (hfail : ∀ r, ¬ Good ⟨c, r⟩ → (k r).Calls fun c' => c' ∈ plan ∨ Recovery c') :
    Follows Good Recovery (.call c k) (c :: plan) result := by
  refine ⟨⟨.inl List.mem_cons_self, fun r => ?_⟩, ensures_call fun r => ?_⟩
  · have hrest : (k r).Calls fun c' => c' ∈ plan ∨ Recovery c' := by
      by_cases hr : Good ⟨c, r⟩
      · exact (hgood r hr).calls
      · exact hfail r hr
    exact hrest.mono fun c' h => h.imp_left (List.mem_cons_of_mem c)
  · by_cases hr : Good ⟨c, r⟩
    · refine (hgood r hr).run.mono fun tr res h hall => ?_
      obtain ⟨hplan, hres⟩ := h fun e he => hall e (List.mem_cons_of_mem _ he)
      exact ⟨by rw [List.map_cons, hplan], hres⟩
    · exact fun env i hall => absurd (hall _ List.mem_cons_self) hr

/-- Sequencing: where the first part returns another value than in the successful case, the second
part keeps to its plan. -/
theorem follows_bind {a : α} (hp : Follows Good Recovery p plan (.ok a))
    (hf : Follows Good Recovery (f a) plan' result)
    (hrest : ∀ b, p.MayReturn b → b ≠ a → (f b).Calls fun c => c ∈ plan' ∨ Recovery c) :
    Follows Good Recovery (p >>= f) (plan ++ plan') result := by
  refine ⟨?_, ?_⟩
  · refine Prog.calls_bind (hp.calls.mono fun c h => h.imp_left (List.mem_append_left _)) ?_
    intro b hb
    have hcalls : (f b).Calls fun c => c ∈ plan' ∨ Recovery c := by
      by_cases heq : b = a
      · rw [heq]
        exact hf.calls
      · exact hrest b hb heq
    exact hcalls.mono fun c h => h.imp_left (List.mem_append_right _)
  · refine ensures_bind hp.run (fun tr b h => ?_) fun tr e h hall => ?_
    · by_cases hall : ∀ x ∈ tr, Good x
      · obtain ⟨hplan, hres⟩ := h hall
        obtain rfl := Except.ok.inj hres
        refine hf.run.mono fun tr' res h' hall' => ?_
        obtain ⟨hplan', hres'⟩ := h' fun e he => hall' e (List.mem_append_right _ he)
        exact ⟨by rw [List.map_append, hplan, hplan'], hres'⟩
      · intro env i hall'
        exact absurd (fun e he => hall' e (List.mem_append_left _ he)) hall
    · exact nomatch (h hall).2

end rules

/-- Calls that a program makes and calls that it may make. -/
theorem Prog.Calls.exists_of_mayCall {P Q : C → Prop} {p : Prog C R N E α} (hp : p.Calls Q)
    (h : p.MayCall P) : ∃ c, Q c ∧ P c := by
  induction p with
  | pure => exact h.elim
  | throw => exact h.elim
  | note n p ih => exact ih hp h
  | call c k ih =>
      rcases h with hc | ⟨r, hr⟩
      · exact ⟨c, hp.1, hc⟩
      · exact ih r (hp.2 r) hr

/-- Apart from recovery calls, the calls that a program may make are those of its plan. -/
theorem Follows.mayCall_iff {Good : Event C R → Prop} {Recovery : C → Prop} {plan : List C}
    {p : Prog C R N E α} {result : Except E α} (h : Follows Good Recovery p plan result)
    (hanswer : ∀ c, ∃ r, Good ⟨c, r⟩) {P : C → Prop} (hP : ∀ c, Recovery c → ¬ P c) :
    p.MayCall P ↔ ∃ c ∈ plan, P c := by
  constructor
  · intro hmay
    obtain ⟨c, hc, hPc⟩ := h.calls.exists_of_mayCall hmay
    rcases hc with hc | hc
    · exact ⟨c, hc, hPc⟩
    · exact absurd hPc (hP c hc)
  · rintro ⟨c, hc, hPc⟩
    have hgood : ∀ e ∈ (p.run (fun _ c => (hanswer c).choose) 0).trace, Good e := by
      intro e he
      have hanswers := p.answer_of_mem_trace he
      obtain ⟨j, hj⟩ := hanswers
      obtain ⟨c', r⟩ := e
      obtain rfl : r = (hanswer c').choose := hj
      exact (hanswer c').choose_spec
    obtain ⟨hplan, -⟩ := h.run _ 0 hgood
    rw [← hplan] at hc
    obtain ⟨e, he, rfl⟩ := List.mem_map.mp hc
    exact Prog.mayCall_of_mem_trace he hPc

end Interact
