import Mathlib.Init

/-!
# Programs that call their environment

A `Prog C R N E α` is a sequential program over a signature of calls: a call `c : C` is answered
by a value of type `R c`, a note `n : N` is written without an answer, and the program ends with a
value of type `α` or by throwing an `E`.

* `Prog.run`: the run of a program against an environment, which answers the `i`-th call made. A
  `Run` keeps the calls with their answers, the notes and the result.
* `run_bind`, `run_bind_ok`, `run_bind_error`, `run_catchAll`: how runs compose.
* `Ensures`: a postcondition over the calls made and the result, for every environment, with its
  rules (`ensures_bind`, `ensures_catchAll`, `Ensures.mono`, `Ensures.and`).
* `Returns`: what holds of the value of a program whenever it has one, with the rule for sequencing.
* `Yields`: the program always has a value, and what holds of it.
* `Gives`: what holds of the value in one environment.
-/

namespace Interact

/-- A sequential program over the calls `C` answered in `R`, with notes `N` and exceptions `E`. -/
inductive Prog (C : Type) (R : C → Type) (N E : Type) (α : Type) : Type
  /-- The program has ended with a value. -/
  | pure (a : α)
  /-- The program has thrown. -/
  | throw (e : E)
  /-- A note is written, then the program goes on. -/
  | note (n : N) (p : Prog C R N E α)
  /-- The environment is called; the program goes on with its answer. -/
  | call (c : C) (k : R c → Prog C R N E α)

/-- A call together with the answer it got. -/
abbrev Event (C : Type) (R : C → Type) : Type := (c : C) × R c

/-- An environment: the answer it gives to the `i`-th call, should that call be `c`. -/
abbrev Env (C : Type) (R : C → Type) : Type := Nat → (c : C) → R c

/-- What a run leaves behind. -/
structure Run (C : Type) (R : C → Type) (N E : Type) (α : Type) : Type where
  /-- The calls made, in order, each with its answer. -/
  trace : List (Event C R)
  /-- The notes written, in order. -/
  notes : List N
  /-- The value returned or the exception thrown. -/
  result : Except E α

section

variable {C : Type} {R : C → Type} {N E : Type} {α β γ : Type}

namespace Prog

/-- Sequencing. An exception skips the rest. -/
def bind (p : Prog C R N E α) (f : α → Prog C R N E β) : Prog C R N E β :=
  match p with
  | .pure a => f a
  | .throw e => .throw e
  | .note n p => .note n (p.bind f)
  | .call c k => .call c fun r => (k r).bind f

instance : Monad (Prog C R N E) where
  pure := Prog.pure
  bind := Prog.bind

/-- One call, its answer being the value. -/
def request (c : C) : Prog C R N E (R c) := .call c .pure

/-- One note. -/
def tell (n : N) : Prog C R N E Unit := .note n (.pure ())

/-- `try p catch (...) handler`: the handler takes over where `p` throws. -/
def catchAll (p : Prog C R N E α) (handler : E → Prog C R N E α) : Prog C R N E α :=
  match p with
  | .pure a => .pure a
  | .throw e => handler e
  | .note n p => .note n (p.catchAll handler)
  | .call c k => .call c fun r => (k r).catchAll handler

/-- The run of a program whose first call is the environment's call number `i`. -/
def run (env : Env C R) : Nat → Prog C R N E α → Run C R N E α
  | _, .pure a => ⟨[], [], .ok a⟩
  | _, .throw e => ⟨[], [], .error e⟩
  | i, .note n p => let r := run env i p; ⟨r.trace, n :: r.notes, r.result⟩
  | i, .call c k =>
      let r := run env (i + 1) (k (env i c)); ⟨⟨c, env i c⟩ :: r.trace, r.notes, r.result⟩

section equations

variable (env : Env C R) (i : Nat)

/-- A value is handed on. -/
@[simp] theorem pure_bind (a : α) (f : α → Prog C R N E β) :
    (Pure.pure a : Prog C R N E α) >>= f = f a := rfl

/-- Nothing comes behind an exception. -/
@[simp] theorem throw_bind (e : E) (f : α → Prog C R N E β) :
    (Prog.throw e : Prog C R N E α) >>= f = Prog.throw e := rfl

/-- A single call goes on with its answer. -/
@[simp] theorem request_bind (c : C) (f : R c → Prog C R N E β) :
    (request c : Prog C R N E (R c)) >>= f = .call c f := rfl

/-- A single note goes on with the program behind it. -/
@[simp] theorem tell_bind (n : N) (f : Unit → Prog C R N E β) :
    (tell n : Prog C R N E Unit) >>= f = .note n (f ()) := rfl

/-- A value makes no call and no note. -/
@[simp] theorem run_pure (a : α) :
    (Pure.pure a : Prog C R N E α).run env i = ⟨[], [], .ok a⟩ := rfl

/-- An exception makes no call and no note. -/
@[simp] theorem run_throw (e : E) :
    (Prog.throw e : Prog C R N E α).run env i = ⟨[], [], .error e⟩ := rfl

/-- A note comes in front of the notes behind it. -/
@[simp] theorem run_note (n : N) (p : Prog C R N E α) :
    (Prog.note n p).run env i =
      ⟨(p.run env i).trace, n :: (p.run env i).notes, (p.run env i).result⟩ := rfl

/-- A call is answered by the environment at its position, and the run goes on at the next one. -/
@[simp] theorem run_call (c : C) (k : R c → Prog C R N E α) :
    (Prog.call c k).run env i =
      ⟨⟨c, env i c⟩ :: ((k (env i c)).run env (i + 1)).trace,
        ((k (env i c)).run env (i + 1)).notes, ((k (env i c)).run env (i + 1)).result⟩ := rfl

/-- The run of a single call. -/
@[simp] theorem run_request (c : C) :
    (request c : Prog C R N E (R c)).run env i = ⟨[⟨c, env i c⟩], [], .ok (env i c)⟩ := rfl

/-- The run of a single note. -/
@[simp] theorem run_tell (n : N) :
    (tell n : Prog C R N E Unit).run env i = ⟨[], [n], .ok ()⟩ := rfl

/-- A run that begins `k` calls later is a run in the environment with its first `k` answers left
out. -/
theorem run_shift (p : Prog C R N E α) (k : Nat) :
    p.run (fun j => env (k + j)) i = p.run env (k + i) := by
  induction p generalizing i with
  | pure a => rfl
  | throw e => rfl
  | note n p ih => rw [run_note, run_note, ih i]
  | call c next ih => rw [run_call, run_call, ih (env (k + i) c) (i + 1), Nat.add_assoc]

/-- Sequencing is associative. -/
theorem bind_assoc (p : Prog C R N E α) (f : α → Prog C R N E β) (g : β → Prog C R N E γ) :
    p >>= f >>= g = p >>= fun a => f a >>= g := by
  show (p.bind f).bind g = p.bind fun a => (f a).bind g
  induction p with
  | pure a => rfl
  | throw e => rfl
  | note n p ih => rw [Prog.bind, Prog.bind, ih, Prog.bind]
  | call c k ih =>
      rw [Prog.bind, Prog.bind, Prog.bind]
      congr 1
      funext r
      exact ih r

/-- A sequence runs its first part; where that ends in a value the second part goes on from the
next call. -/
theorem run_bind (p : Prog C R N E α) (f : α → Prog C R N E β) :
    (p >>= f).run env i =
      match (p.run env i).result with
      | .ok a =>
          let q := (f a).run env (i + (p.run env i).trace.length)
          ⟨(p.run env i).trace ++ q.trace, (p.run env i).notes ++ q.notes, q.result⟩
      | .error e => ⟨(p.run env i).trace, (p.run env i).notes, .error e⟩ := by
  show (p.bind f).run env i = _
  induction p generalizing i with
  | pure a => simp [Prog.bind, run]
  | throw e => simp [Prog.bind, run]
  | note n p ih =>
      rw [Prog.bind, run_note, run_note, ih i]
      cases (p.run env i).result <;> rfl
  | call c k ih =>
      rw [Prog.bind, run_call, run_call, ih (env i c) (i + 1)]
      simp only [List.length_cons]
      cases ((k (env i c)).run env (i + 1)).result with
      | ok a => simp [Nat.add_assoc, Nat.add_comm 1]
      | error e => rfl

/-- The value case of `run_bind`. -/
theorem run_bind_ok {p : Prog C R N E α} {f : α → Prog C R N E β} {a : α}
    (h : (p.run env i).result = .ok a) :
    (p >>= f).run env i =
      ⟨(p.run env i).trace ++ ((f a).run env (i + (p.run env i).trace.length)).trace,
        (p.run env i).notes ++ ((f a).run env (i + (p.run env i).trace.length)).notes,
        ((f a).run env (i + (p.run env i).trace.length)).result⟩ := by
  rw [run_bind, h]

/-- The exception case of `run_bind`. -/
theorem run_bind_error {p : Prog C R N E α} {f : α → Prog C R N E β} {e : E}
    (h : (p.run env i).result = .error e) :
    (p >>= f).run env i = ⟨(p.run env i).trace, (p.run env i).notes, .error e⟩ := by
  rw [run_bind, h]

/-- A handler goes on where the program has thrown. -/
theorem run_catchAll (p : Prog C R N E α) (handler : E → Prog C R N E α) :
    (p.catchAll handler).run env i =
      match (p.run env i).result with
      | .ok _ => p.run env i
      | .error e =>
          let q := (handler e).run env (i + (p.run env i).trace.length)
          ⟨(p.run env i).trace ++ q.trace, (p.run env i).notes ++ q.notes, q.result⟩ := by
  induction p generalizing i with
  | pure a => rfl
  | throw e => simp [catchAll, run]
  | note n p ih =>
      rw [catchAll, run_note, run_note, ih i]
      rcases hres : (p.run env i).result with e | a
      · simp only [List.cons_append]
      · simp only [hres]
  | call c k ih =>
      rw [catchAll, run_call, run_call, ih (env i c) (i + 1)]
      rcases hres : ((k (env i c)).run env (i + 1)).result with e | a
      · simp only [List.length_cons, List.cons_append, Nat.add_assoc, Nat.add_comm 1]
      · simp only [hres]

end equations

end Prog

/-! ## Postconditions -/

/-- In every environment and at every position, the calls made and the result satisfy `Q`. -/
def Ensures (p : Prog C R N E α) (Q : List (Event C R) → Except E α → Prop) : Prop :=
  ∀ env i, Q (p.run env i).trace (p.run env i).result

section rules

variable {Q Q' : List (Event C R) → Except E α → Prop} {S : List (Event C R) → Except E β → Prop}

/-- Of a value the property has to hold with the empty trace. -/
theorem ensures_pure {a : α} (h : Q [] (.ok a)) : Ensures (Pure.pure a : Prog C R N E α) Q :=
  fun _ _ => h

/-- Of an exception the property has to hold with the empty trace. -/
theorem ensures_throw {e : E} (h : Q [] (.error e)) : Ensures (Prog.throw e : Prog C R N E α) Q :=
  fun _ _ => h

/-- Notes do not matter to a property of traces and results. -/
theorem ensures_note {n : N} {p : Prog C R N E α} (h : Ensures p Q) : Ensures (.note n p) Q :=
  fun env i => h env i

/-- A call: whatever the answer, the rest ensures `Q` of the trace with the call in front. -/
theorem ensures_call {c : C} {k : R c → Prog C R N E α}
    (h : ∀ r, Ensures (k r) fun tr res => Q (⟨c, r⟩ :: tr) res) : Ensures (.call c k) Q :=
  fun env i => h (env i c) env (i + 1)

/-- A property may be weakened. -/
theorem Ensures.mono {p : Prog C R N E α} (hp : Ensures p Q)
    (h : ∀ tr res, Q tr res → Q' tr res) : Ensures p Q' :=
  fun env i => h _ _ (hp env i)

/-- Two properties of all runs hold together. -/
theorem Ensures.and {p : Prog C R N E α} (hp : Ensures p Q) (hp' : Ensures p Q') :
    Ensures p fun tr res => Q tr res ∧ Q' tr res :=
  fun env i => ⟨hp env i, hp' env i⟩

/-- Sequencing: the second part is judged on the whole trace, the first part's calls in front. -/
theorem ensures_bind {p : Prog C R N E α} {f : α → Prog C R N E β} (hp : Ensures p Q)
    (hok : ∀ tr a, Q tr (.ok a) → Ensures (f a) fun tr' res => S (tr ++ tr') res)
    (herror : ∀ tr e, Q tr (.error e) → S tr (.error e)) : Ensures (p >>= f) S := by
  intro env i
  have hrun := hp env i
  rcases hres : (p.run env i).result with e | a
  · rw [Prog.run_bind_error env i hres]
    rw [hres] at hrun
    exact herror _ _ hrun
  · rw [Prog.run_bind_ok env i hres]
    rw [hres] at hrun
    exact hok _ _ hrun env _

/-- A handler: it is judged on the whole trace where the program throws. -/
theorem ensures_catchAll {Q' : List (Event C R) → Except E α → Prop} {p : Prog C R N E α}
    {handler : E → Prog C R N E α} (hp : Ensures p Q) (hok : ∀ tr a, Q tr (.ok a) → Q' tr (.ok a))
    (herror : ∀ tr e, Q tr (.error e) → Ensures (handler e) fun tr' res => Q' (tr ++ tr') res) :
    Ensures (p.catchAll handler) Q' := by
  intro env i
  have hrun := hp env i
  rw [Prog.run_catchAll]
  rcases hres : (p.run env i).result with e | a
  · rw [hres] at hrun
    exact herror _ _ hrun env _
  · rw [hres] at hrun
    have hdone := hok _ _ hrun
    rw [← hres] at hdone
    exact hdone

end rules

/-! ## Values -/

/-- In every environment and at every position, the value, if there is one, satisfies `P`. -/
def Returns (p : Prog C R N E α) (P : α → Prop) : Prop :=
  ∀ env i a, (p.run env i).result = .ok a → P a

section values

variable {P P' : α → Prop} {S : β → Prop}

/-- A value has the property if it has it. -/
theorem returns_pure {a : α} (h : P a) : Returns (Pure.pure a : Prog C R N E α) P := by
  intro env i b hb
  obtain rfl := Except.ok.inj hb
  exact h

/-- An exception is no value, so that nothing has to be shown. -/
theorem returns_throw (e : E) : Returns (Prog.throw e : Prog C R N E α) P := by
  intro env i a ha
  simp at ha

/-- A property of the values may be weakened. -/
theorem Returns.mono {p : Prog C R N E α} (hp : Returns p P) (h : ∀ a, P a → P' a) :
    Returns p P' :=
  fun env i a ha => h a (hp env i a ha)

/-- Sequencing: the second part starts from a value of the first. -/
theorem returns_bind {p : Prog C R N E α} {f : α → Prog C R N E β} (hp : Returns p P)
    (hf : ∀ a, P a → Returns (f a) S) : Returns (p >>= f) S := by
  intro env i b hb
  rcases hres : (p.run env i).result with e | a
  · rw [Prog.run_bind_error env i hres] at hb
    simp at hb
  · rw [Prog.run_bind_ok env i hres] at hb
    exact hf a (hp env i a hres) env _ b hb

/-- Sequencing where the second part needs nothing of the first. -/
theorem returns_bind_of_forall {p : Prog C R N E α} {f : α → Prog C R N E β}
    (hf : ∀ a, Returns (f a) S) : Returns (p >>= f) S :=
  returns_bind (P := fun _ => True) (fun _ _ _ _ => trivial) fun a _ => hf a

end values

/-- In every environment and at every position there is a value, and it satisfies `P`. -/
def Yields (p : Prog C R N E α) (P : α → Prop) : Prop :=
  Ensures p fun _ res => ∃ a, res = .ok a ∧ P a

section yields

variable {P P' : α → Prop} {S : β → Prop}

/-- A program that returns a value with the property yields one. -/
theorem yields_pure {a : α} (h : P a) : Yields (Pure.pure a : Prog C R N E α) P :=
  ensures_pure ⟨a, rfl, h⟩

/-- Notes do not matter. -/
theorem yields_note {n : N} {p : Prog C R N E α} (h : Yields p P) : Yields (.note n p) P :=
  ensures_note h

/-- A call yields such a value if it does so for every answer. -/
theorem yields_call {c : C} {k : R c → Prog C R N E α} (h : ∀ r, Yields (k r) P) :
    Yields (.call c k) P :=
  ensures_call h

/-- A program is sequenced behind one that always returns a value. -/
theorem yields_bind {p : Prog C R N E α} {f : α → Prog C R N E β} (hp : Yields p P)
    (hf : ∀ a, P a → Yields (f a) S) : Yields (p >>= f) S := by
  refine ensures_bind hp ?_ ?_
  · rintro _ a ⟨a', heq, ha⟩
    obtain rfl := Except.ok.inj heq
    exact hf a ha
  · rintro _ e ⟨a', heq, -⟩
    simp at heq

/-- A property of the values is one of all runs. -/
theorem Returns.ensures {p : Prog C R N E α} (hp : Returns p P) :
    Ensures p fun _ res => ∀ a, res = .ok a → P a :=
  fun env i a ha => hp env i a ha

end yields

/-! ## One environment -/

/-- In this environment, at every position, the value, if there is one, satisfies `P`. -/
def Gives (env : Env C R) (p : Prog C R N E α) (P : α → Prop) : Prop :=
  ∀ i a, (p.run env i).result = .ok a → P a

section gives

variable {env : Env C R} {P P' : α → Prop} {S : β → Prop}

/-- A value has the property in every environment. -/
theorem gives_pure {a : α} (h : P a) : Gives env (Pure.pure a : Prog C R N E α) P :=
  returns_pure h env

/-- A call: the rest goes on from an answer of the environment. -/
theorem gives_call {c : C} {k : R c → Prog C R N E α} (h : ∀ i, Gives env (k (env i c)) P) :
    Gives env (.call c k) P :=
  fun i a ha => h i (i + 1) a ha

/-- Sequencing against one environment, from any position on. -/
theorem gives_bind {p : Prog C R N E α} {f : α → Prog C R N E β} (hp : Gives env p P)
    (hf : ∀ a, P a → Gives env (f a) S) : Gives env (p >>= f) S := by
  intro i b hb
  rcases hres : (p.run env i).result with e | a
  · rw [Prog.run_bind_error env i hres] at hb
    simp at hb
  · rw [Prog.run_bind_ok env i hres] at hb
    exact hf a (hp i a hres) _ b hb

/-- The property may be weakened. -/
theorem Gives.mono {p : Prog C R N E α} (hp : Gives env p P) (h : ∀ a, P a → P' a) :
    Gives env p P' :=
  fun i a ha => h a (hp i a ha)

/-- What holds in all environments holds in each. -/
theorem Returns.gives {p : Prog C R N E α} (hp : Returns p P) : Gives env p P := hp env

end gives

end

end Interact
