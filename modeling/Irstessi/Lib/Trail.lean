import Mathlib.Data.List.Basic

/-!
# Computations that keep their effects when they fail

A computation in `EStateM` that throws leaves the state as it was at that point. Its *trail* is the
list of updates that it has made, and whether it has come to its end.

* `Trail`, `Trail.seq`, `Trail.forEach`: trails and how they compose.
* `mem_forEach_iff`, `done_forEach_iff`: what a loop leaves, an iteration throwing ends it.
* `foldl_iff`, `foldl_keeps`, `foldl_frame`: what a list of updates makes of a state.
* `Leaves`: a computation leaves a trail, with one rule for each way to build computations.

The updates of a computation that throws half way are not undone. In place of the state a computation is
described by its updates, so that two computations can be compared that begin in different states, and a
loop is described by those of its rounds up to the first that throws.
-/

/-- The updates made, and whether the end was reached. -/
structure Trail (ε : Type*) where
  updates : List ε
  done : Bool
  deriving DecidableEq, Repr

variable {ε α : Type*}

namespace Trail

/-- Nothing done. -/
def nil : Trail ε := ⟨[], true⟩

/-- One update. -/
def one (e : ε) : Trail ε := ⟨[e], true⟩

/-- Nothing done, and the end is not reached. -/
def stop : Trail ε := ⟨[], false⟩

/-- One trail after another, which is not begun where the first one does not end. -/
def seq (t u : Trail ε) : Trail ε := if t.done then ⟨t.updates ++ u.updates, u.done⟩ else t

/-- The trails of the items, up to the first that does not end. -/
def forEach (f : α → Trail ε) : List α → Trail ε
  | [] => nil
  | a :: as => (f a).seq (forEach f as)

/-- The trail where the failure is swallowed. -/
def swallow (t : Trail ε) : Trail ε := ⟨t.updates, true⟩

/-- A trail that has come to its end goes on with the next. -/
theorem seq_of_done {t : Trail ε} (h : t.done) (u : Trail ε) :
    t.seq u = ⟨t.updates ++ u.updates, u.done⟩ := if_pos h

/-- One that has not stays as it is. -/
theorem seq_of_not_done {t : Trail ε} (h : ¬ t.done) (u : Trail ε) : t.seq u = t := if_neg h

/-- Two trails come to the end iff both do. -/
@[simp] theorem done_seq (t u : Trail ε) : (t.seq u).done = (t.done && u.done) := by
  unfold seq
  split
  next h => simp [h]
  next h => simp [h]

/-- An update of two trails is one of the first, or of the second if that is begun. -/
theorem mem_seq_iff {t u : Trail ε} {e : ε} :
    e ∈ (t.seq u).updates ↔ e ∈ t.updates ∨ t.done ∧ e ∈ u.updates := by
  unfold seq
  split
  next h => simp [h]
  next h => simp [h]

/-- A single update is its only one. -/
@[simp] theorem mem_one_iff {e e' : ε} : e ∈ (one e').updates ↔ e = e' := List.mem_singleton

/-- A single update comes to its end. -/
@[simp] theorem done_one (e : ε) : (one e).done = true := rfl

/-- A failure updates nothing. -/
@[simp] theorem updates_stop : (stop : Trail ε).updates = [] := rfl

/-- A failure does not come to its end. -/
@[simp] theorem done_stop : (stop : Trail ε).done = false := rfl

/-- A failure that is swallowed keeps its updates. -/
@[simp] theorem updates_swallow (t : Trail ε) : t.swallow.updates = t.updates := rfl

/-- What swallows failures comes to its end. -/
@[simp] theorem done_swallow (t : Trail ε) : t.swallow.done = true := rfl

variable (f : α → Trail ε)

/-- A loop over nothing leaves nothing. -/
@[simp] theorem forEach_nil : forEach f [] = nil := rfl

/-- A loop makes its first iteration and then the others. -/
@[simp] theorem forEach_cons (a : α) (as : List α) :
    forEach f (a :: as) = (f a).seq (forEach f as) := rfl

/-- A loop ends iff each of its iterations does. -/
theorem done_forEach_iff {l : List α} : (forEach f l).done ↔ ∀ a ∈ l, (f a).done := by
  induction l with
  | nil => simp [nil]
  | cons a as ih => simp [ih]

/-- A loop leaves what the iterations leave that are begun. -/
theorem mem_forEach_iff {l : List α} {e : ε} :
    e ∈ (forEach f l).updates ↔
      ∃ pre a post, l = pre ++ a :: post ∧ (∀ b ∈ pre, (f b).done) ∧ e ∈ (f a).updates := by
  induction l with
  | nil => simp [nil]
  | cons a as ih =>
      rw [forEach_cons, mem_seq_iff, ih]
      constructor
      · rintro (h | ⟨hdone, pre, b, post, rfl, hpre, h⟩)
        · exact ⟨[], a, as, rfl, by simp, h⟩
        · refine ⟨a :: pre, b, post, rfl, ?_, h⟩
          intro c hc
          rcases List.mem_cons.mp hc with rfl | hc
          · exact hdone
          · exact hpre c hc
      · rintro ⟨pre, b, post, heq, hpre, h⟩
        rcases pre with _ | ⟨c, pre⟩
        · obtain ⟨rfl, rfl⟩ := List.cons.inj heq
          exact .inl h
        · obtain ⟨rfl, rfl⟩ := List.cons.inj heq
          exact .inr ⟨hpre a List.mem_cons_self, pre, b, post, rfl,
            fun d hd => hpre d (List.mem_cons_of_mem _ hd), h⟩

/-- A loop that ends leaves what its iterations leave. -/
theorem mem_forEach_of_done {l : List α} (h : (forEach f l).done) {e : ε} :
    e ∈ (forEach f l).updates ↔ ∃ a ∈ l, e ∈ (f a).updates := by
  rw [mem_forEach_iff]
  constructor
  · rintro ⟨pre, a, post, rfl, -, he⟩
    exact ⟨a, List.mem_append_right _ List.mem_cons_self, he⟩
  · rintro ⟨a, ha, he⟩
    obtain ⟨pre, post, rfl⟩ := List.append_of_mem ha
    refine ⟨pre, a, post, rfl, ?_, he⟩
    intro b hb
    exact (done_forEach_iff f).mp h b (List.mem_append_left _ hb)

/-- The updates of a loop whose iterations all end. -/
theorem updates_forEach_of_done {l : List α} (h : ∀ a ∈ l, (f a).done) :
    (forEach f l).updates = l.flatMap fun a => (f a).updates := by
  induction l with
  | nil => rfl
  | cons a as ih =>
      rw [forEach_cons, seq_of_done (h a List.mem_cons_self), List.flatMap_cons,
        ih fun b hb => h b (List.mem_cons_of_mem _ hb)]

/-! ## What updates make of a state -/

section foldl

variable {σ : Type*} {apply : σ → ε → σ} {updates : List ε} {s : σ}

/-- A fact that some updates bring about and none takes back. -/
theorem foldl_iff {Q : σ → Prop} {R : ε → Prop} (h : ∀ s e, Q (apply s e) ↔ Q s ∨ R e) :
    Q (updates.foldl apply s) ↔ Q s ∨ ∃ e ∈ updates, R e := by
  induction updates generalizing s with
  | nil => simp
  | cons e updates ih =>
      rw [List.foldl_cons, ih, h, or_assoc]
      simp only [List.mem_cons, exists_eq_or_imp]

/-- An invariant of the updates made. -/
theorem foldl_keeps {Q : σ → Prop} (hs : Q s) (h : ∀ s, ∀ e ∈ updates, Q s → Q (apply s e)) :
    Q (updates.foldl apply s) :=
  List.foldlRecOn updates apply hs fun s hs e he => h s e he hs

/-- What none of the updates touches. -/
theorem foldl_frame {β : Type*} (part : σ → β)
    (h : ∀ s, ∀ e ∈ updates, part (apply s e) = part s) :
    part (updates.foldl apply s) = part s :=
  foldl_keeps (Q := fun s' => part s' = part s) rfl fun s' e he heq => by rw [h s' e he, heq]

end foldl

/-! ## What a computation leaves -/

section leaves

variable {σ ex : Type} {apply : σ → ε → σ}

/-- From every state the computation makes the updates of the trail and ends as the trail says. -/
def Leaves (apply : σ → ε → σ) (x : EStateM ex σ Unit) (t : Trail ε) : Prop :=
  ∀ s, (t.done → x s = .ok () (t.updates.foldl apply s)) ∧
    (¬ t.done → ∃ e, x s = .error e (t.updates.foldl apply s))

/-- A computation that does nothing leaves the empty trail. -/
theorem leaves_pure : Leaves apply (pure () : EStateM ex σ Unit) nil := by
  intro s
  exact ⟨fun _ => rfl, fun h => absurd rfl h⟩

/-- One that throws leaves a failure. -/
theorem leaves_throw (e : ex) : Leaves apply (throw e : EStateM ex σ Unit) stop := by
  intro s
  exact ⟨fun h => Bool.noConfusion h, fun _ => ⟨e, rfl⟩⟩

/-- A computation that makes one update. -/
theorem leaves_modify (e : ε) :
    Leaves apply (modify fun s => apply s e : EStateM ex σ Unit) (one e) := by
  intro s
  exact ⟨fun _ => rfl, fun h => absurd rfl h⟩

/-- Computations one after the other leave their trails in sequence. -/
theorem leaves_seq {x y : EStateM ex σ Unit} {t u : Trail ε} (hx : Leaves apply x t)
    (hy : Leaves apply y u) : Leaves apply (do x; y) (t.seq u) := by
  intro s
  have hbind : (do x; y : EStateM ex σ Unit) s = match x s with
      | .ok _ s' => y s'
      | .error e s' => .error e s' := by
    show EStateM.bind x (fun _ => y) s = _
    unfold EStateM.bind
    rcases x s with ⟨a, s'⟩ | ⟨e, s'⟩ <;> rfl
  by_cases ht : t.done
  · rw [hbind, (hx s).1 ht, seq_of_done ht, List.foldl_append]
    exact hy _
  · obtain ⟨e, he⟩ := (hx s).2 ht
    rw [hbind, he, seq_of_not_done ht]
    exact ⟨fun h => absurd h ht, fun _ => ⟨e, rfl⟩⟩

/-- A loop leaves the trails of its iterations. -/
theorem leaves_forM {f : α → EStateM ex σ Unit} {t : α → Trail ε}
    (h : ∀ a, Leaves apply (f a) (t a)) (l : List α) :
    Leaves apply (l.forM f) (forEach t l) := by
  induction l with
  | nil => exact leaves_pure
  | cons a as ih => exact leaves_seq (h a) ih

/-- A handler that does nothing. -/
theorem leaves_tryCatch {x : EStateM ex σ Unit} {t : Trail ε} (h : Leaves apply x t) :
    Leaves apply (tryCatch x fun _ => pure ()) t.swallow := by
  intro s
  refine ⟨fun _ => ?_, fun hdone => absurd rfl hdone⟩
  have hcatch : (tryCatch x fun _ => pure () : EStateM ex σ Unit) s = match x s with
      | .ok a s' => .ok a s'
      | .error _ s' => .ok () s' := by
    show EStateM.tryCatch x (fun _ => pure ()) s = _
    unfold EStateM.tryCatch
    rcases x s with ⟨a, s'⟩ | ⟨e, s'⟩ <;> rfl
  by_cases ht : t.done
  · rw [hcatch, (h s).1 ht]
    rfl
  · obtain ⟨e, he⟩ := (h s).2 ht
    rw [hcatch, he]
    rfl

end leaves

end Trail
