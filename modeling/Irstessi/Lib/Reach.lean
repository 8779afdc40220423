import Irstessi.Lib.Interact

/-!
# The calls that a program may make

What a program may do against some environment, by recursion on the program.

* `Prog.MayCall`, `Prog.MayReturn`, `Prog.MayThrow`: a call, a value and an exception that some run
  has, with the rules for sequencing and for handlers.
* `Prog.Calls`: all calls of all runs satisfy a predicate, with the rules that introduce it.
* `mayCall_of_mem_trace`, `exists_run_of_mayCall`, `Calls.of_mem_trace`: what they say about runs.

The predicates are defined by recursion, so that they compute along a program that is written out, and
are then related to runs. `MayCall` and `Calls` are about all environments: an answer that no real
system would give counts as well, and a result that needs the answers to agree with each other is proved
of runs instead.
-/

namespace Interact

variable {C : Type} {R : C → Type} {N E : Type} {α β : Type}

namespace Prog

/-- Some run makes a call that satisfies `P`. -/
def MayCall (P : C → Prop) : Prog C R N E α → Prop
  | .pure _ => False
  | .throw _ => False
  | .note _ p => p.MayCall P
  | .call c k => P c ∨ ∃ r, (k r).MayCall P

/-- Some run ends with the value. -/
def MayReturn (a : α) : Prog C R N E α → Prop
  | .pure b => b = a
  | .throw _ => False
  | .note _ p => p.MayReturn a
  | .call _ k => ∃ r, (k r).MayReturn a

/-- Some run throws the exception. -/
def MayThrow (e : E) : Prog C R N E α → Prop
  | .pure _ => False
  | .throw e' => e' = e
  | .note _ p => p.MayThrow e
  | .call _ k => ∃ r, (k r).MayThrow e

/-- Every call of every run satisfies `P`. -/
def Calls (P : C → Prop) : Prog C R N E α → Prop
  | .pure _ => True
  | .throw _ => True
  | .note _ p => p.Calls P
  | .call c k => P c ∧ ∀ r, (k r).Calls P

section rules

variable {P P' : C → Prop} {p : Prog C R N E α} {f : α → Prog C R N E β}

/-- A value makes no call. -/
@[simp] theorem mayCall_pure (a : α) :
    (Pure.pure a : Prog C R N E α).MayCall P ↔ False := Iff.rfl

/-- An exception makes no call. -/
@[simp] theorem mayCall_throw (e : E) : (Prog.throw e : Prog C R N E α).MayCall P ↔ False := Iff.rfl

/-- A note is no call. -/
@[simp] theorem mayCall_note (n : N) : (Prog.note n p).MayCall P ↔ p.MayCall P := Iff.rfl

/-- A call may be the one, or one behind some answer to it. -/
@[simp] theorem mayCall_call (c : C) (k : R c → Prog C R N E α) :
    (Prog.call c k).MayCall P ↔ P c ∨ ∃ r, (k r).MayCall P := Iff.rfl

/-- A value returns itself and nothing else. -/
@[simp] theorem mayReturn_pure {a b : α} :
    (Pure.pure b : Prog C R N E α).MayReturn a ↔ b = a := Iff.rfl

/-- A note does not change what may be returned. -/
@[simp] theorem mayReturn_note {a : α} (n : N) : (Prog.note n p).MayReturn a ↔ p.MayReturn a := Iff.rfl

/-- A call may return what the program behind some answer may. -/
@[simp] theorem mayReturn_call {a : α} (c : C) (k : R c → Prog C R N E α) :
    (Prog.call c k).MayReturn a ↔ ∃ r, (k r).MayReturn a := Iff.rfl

/-- A call of a sequence is one of its first part, or of its second part from a value of the
first. -/
theorem mayCall_bind :
    (p >>= f).MayCall P ↔ p.MayCall P ∨ ∃ a, p.MayReturn a ∧ (f a).MayCall P := by
  show (p.bind f).MayCall P ↔ _
  induction p with
  | pure a =>
      constructor
      · exact fun h => .inr ⟨a, rfl, h⟩
      · rintro (h | ⟨b, rfl, h⟩)
        · exact h.elim
        · exact h
  | throw e =>
      constructor
      · exact fun h => h.elim
      · rintro (h | ⟨b, h, -⟩) <;> exact h.elim
  | note n p ih => exact ih
  | call c k ih =>
      constructor
      · rintro (h | ⟨r, h⟩)
        · exact .inl (.inl h)
        · rcases (ih r).mp h with h | ⟨a, ha, h⟩
          · exact .inl (.inr ⟨r, h⟩)
          · exact .inr ⟨a, ⟨r, ha⟩, h⟩
      · rintro ((h | ⟨r, h⟩) | ⟨a, ⟨r, ha⟩, h⟩)
        · exact .inl h
        · exact .inr ⟨r, (ih r).mpr (.inl h)⟩
        · exact .inr ⟨r, (ih r).mpr (.inr ⟨a, ha, h⟩)⟩

/-- A sequence may return what its second program may, behind a value that the first may return. -/
theorem mayReturn_bind {b : β} :
    (p >>= f).MayReturn b ↔ ∃ a, p.MayReturn a ∧ (f a).MayReturn b := by
  show (p.bind f).MayReturn b ↔ _
  induction p with
  | pure a =>
      constructor
      · exact fun h => ⟨a, rfl, h⟩
      · rintro ⟨a', rfl, h⟩
        exact h
  | throw e =>
      constructor
      · exact fun h => h.elim
      · rintro ⟨a, h, -⟩
        exact h.elim
  | note n p ih => exact ih
  | call c k ih =>
      constructor
      · rintro ⟨r, h⟩
        obtain ⟨a, ha, h⟩ := (ih r).mp h
        exact ⟨a, ⟨r, ha⟩, h⟩
      · rintro ⟨a, ⟨r, ha⟩, h⟩
        exact ⟨r, (ih r).mpr ⟨a, ha, h⟩⟩

/-- A handler adds the calls that it makes for the exceptions of the program. -/
theorem mayCall_catchAll {handler : E → Prog C R N E α} :
    (p.catchAll handler).MayCall P ↔ p.MayCall P ∨ ∃ e, p.MayThrow e ∧ (handler e).MayCall P := by
  induction p with
  | pure a =>
      constructor
      · exact fun h => h.elim
      · rintro (h | ⟨e, h, -⟩) <;> exact h.elim
  | throw e =>
      constructor
      · exact fun h => .inr ⟨e, rfl, h⟩
      · rintro (h | ⟨e', rfl, h⟩)
        · exact h.elim
        · exact h
  | note n p ih => exact ih
  | call c k ih =>
      constructor
      · rintro (h | ⟨r, h⟩)
        · exact .inl (.inl h)
        · rcases (ih r).mp h with h | ⟨e, he, h⟩
          · exact .inl (.inr ⟨r, h⟩)
          · exact .inr ⟨e, ⟨r, he⟩, h⟩
      · rintro ((h | ⟨r, h⟩) | ⟨e, ⟨r, he⟩, h⟩)
        · exact .inl h
        · exact .inr ⟨r, (ih r).mpr (.inl h)⟩
        · exact .inr ⟨r, (ih r).mpr (.inr ⟨e, he, h⟩)⟩

/-- The predicate may be weakened. -/
theorem Calls.mono (hp : p.Calls P) (h : ∀ c, P c → P' c) : p.Calls P' := by
  induction p with
  | pure => trivial
  | throw => trivial
  | note n p ih => exact ih hp
  | call c k ih => exact ⟨h c hp.1, fun r => ih r (hp.2 r)⟩

/-- Sequencing: the second part is asked from the values of the first. -/
theorem calls_bind (hp : p.Calls P) (hf : ∀ a, p.MayReturn a → (f a).Calls P) :
    (p >>= f).Calls P := by
  show (p.bind f).Calls P
  induction p with
  | pure a => exact hf a rfl
  | throw e => trivial
  | note n p ih => exact ih hp hf
  | call c k ih => exact ⟨hp.1, fun r => ih r (hp.2 r) fun a ha => hf a ⟨r, ha⟩⟩

/-- A handler is asked for the exceptions of the program. -/
theorem calls_catchAll {handler : E → Prog C R N E α} (hp : p.Calls P)
    (hhandler : ∀ e, p.MayThrow e → (handler e).Calls P) : (p.catchAll handler).Calls P := by
  induction p with
  | pure a => trivial
  | throw e => exact hhandler e rfl
  | note n p ih => exact ih hp hhandler
  | call c k ih => exact ⟨hp.1, fun r => ih r (hp.2 r) fun e he => hhandler e ⟨r, he⟩⟩

end rules

/-! ## Runs -/

section runs

variable {P : C → Prop} {p : Prog C R N E α} {env : Env C R} {i : Nat}

/-- What holds of all calls that may be made holds of those of a run. -/
theorem Calls.of_mem_trace (hp : p.Calls P) {e : Event C R} (he : e ∈ (p.run env i).trace) :
    P e.1 := by
  induction p generalizing i with
  | pure => cases he
  | throw => simp at he
  | note n p ih => exact ih hp he
  | call c k ih =>
      rcases List.mem_cons.mp he with rfl | he
      · exact hp.1
      · exact ih _ (hp.2 _) he

/-- A call of a run is one that may be made. -/
theorem mayCall_of_mem_trace {e : Event C R} (he : e ∈ (p.run env i).trace) (hP : P e.1) :
    p.MayCall P := by
  induction p generalizing i with
  | pure => cases he
  | throw => simp at he
  | note n p ih => exact ih he
  | call c k ih =>
      rcases List.mem_cons.mp he with rfl | he
      · exact .inl hP
      · exact .inr ⟨_, ih _ he⟩

/-- The answers of a trace are the environment's. -/
theorem answer_of_mem_trace (p : Prog C R N E α) {e : Event C R} (he : e ∈ (p.run env i).trace) :
    ∃ j, e.2 = env j e.1 := by
  induction p generalizing i with
  | pure => cases he
  | throw => simp at he
  | note n p ih => exact ih he
  | call c k ih =>
      rcases List.mem_cons.mp he with rfl | he
      · exact ⟨i, rfl⟩
      · exact ih _ he

/-- The result of a run is one that may be returned. -/
theorem mayReturn_of_result {a : α} (h : (p.run env i).result = .ok a) : p.MayReturn a := by
  induction p generalizing i with
  | pure b => exact Except.ok.inj h
  | throw => simp at h
  | note n p ih => exact ih h
  | call c k ih => exact ⟨_, ih _ h⟩

/-- A program that always returns has a value. -/
theorem exists_mayReturn_of_yields [∀ c, Nonempty (R c)] {P : α → Prop} (h : Yields p P) :
    ∃ a, p.MayReturn a ∧ P a := by
  obtain ⟨a, hresult, ha⟩ := h (fun _ _ => Classical.choice inferInstance) 0
  exact ⟨a, mayReturn_of_result hresult, ha⟩

/-- A run depends on the answers to its own calls. -/
theorem run_congr {env' : Env C R} (h : ∀ j ≥ i, ∀ c, env j c = env' j c) :
    p.run env i = p.run env' i := by
  induction p generalizing i with
  | pure => rfl
  | throw => rfl
  | note n p ih => rw [run_note, run_note, ih h]
  | call c k ih =>
      have hanswer := h i (Nat.le_refl i) c
      have hrest : ∀ j ≥ i + 1, ∀ c, env j c = env' j c := fun j hj c => h j (Nat.le_of_succ_le hj) c
      rw [run_call, run_call, hanswer, ih _ hrest]

/-- A call that may be made is made in a run. -/
theorem exists_run_of_mayCall [DecidableEq C] [∀ c, Nonempty (R c)] (h : p.MayCall P) (i : Nat) :
    ∃ env : Env C R, ∃ e ∈ (p.run env i).trace, P e.1 := by
  induction p generalizing i with
  | pure => exact h.elim
  | throw => exact h.elim
  | note n p ih => exact ih h i
  | call c k ih =>
      rcases h with hP | ⟨r, h⟩
      · exact ⟨fun _ c => Classical.choice inferInstance, _, List.mem_cons_self, hP⟩
      · obtain ⟨env, e, he, hP⟩ := ih r h (i + 1)
        -- the answer `r` is put in front of the environment of the rest
        let env' : Env C R := fun j c' =>
          if hj : j = i ∧ c = c' then hj.2 ▸ r else env j c'
        have hanswer : env' i c = r := dif_pos ⟨rfl, rfl⟩
        have hrest : ∀ j ≥ i + 1, ∀ c', env' j c' = env j c' := by
          intro j hj c'
          apply dif_neg
          rintro ⟨rfl, -⟩
          exact absurd hj (Nat.not_succ_le_self j)
        refine ⟨env', e, ?_, hP⟩
        rw [run_call, hanswer, run_congr hrest]
        exact List.mem_cons_of_mem _ he

end runs

end Prog

end Interact
