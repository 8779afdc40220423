import Mathlib.Data.List.Basic

/-!
# The end of an object and of its members

An object is destroyed: its members are destroyed one after the other, in the reverse of the order in
which they are declared, and the destructor of each may use the others.

* `TeardownEvent`, `teardown`: what happens, from what the destructor of each member does.
* `UsedAfterEnd`: a member is used when it has been destroyed.
* `usedAfterEnd_teardown_iff`: a member is iff a destructor of one declared before it uses it.

A use is recorded with the member that is used, and the order of the events is all that matters. That a
member may not be used after its end is not asked of the destructors, which see the other members as
they are; it depends on the order of the declarations.
-/

/-- A destructor uses a member, in the way `w`; or a member comes to its end. -/
inductive TeardownEvent (μ ω : Type*)
  | used (m : μ) (w : ω)
  | ended (m : μ)
  deriving DecidableEq, Repr

namespace Teardown

variable {μ ω : Type*}

/-- The destructor of a member, and its end. -/
def destroyMember (uses : μ → List (μ × ω)) (m : μ) : List (TeardownEvent μ ω) :=
  (uses m).map (fun x => .used x.1 x.2) ++ [.ended m]

/-- The destruction of an object with the members that are declared in this order. -/
def teardown (declared : List μ) (uses : μ → List (μ × ω)) : List (TeardownEvent μ ω) :=
  declared.reverse.flatMap (destroyMember uses)

/-- The member is used after its end. -/
def UsedAfterEnd (m : μ) (tr : List (TeardownEvent μ ω)) : Prop :=
  ∃ before after w, tr = before ++ .ended m :: after ∧ .used m w ∈ after

variable {uses : μ → List (μ × ω)} {m : μ}

/-- Members that are declared later are destroyed before the others. -/
theorem teardown_append (first later : List μ) :
    teardown (first ++ later) uses = teardown later uses ++ teardown first uses := by
  simp [teardown]

/-- The member that is declared first is destroyed last. -/
theorem teardown_cons (first : μ) (later : List μ) :
    teardown (first :: later) uses = teardown later uses ++ destroyMember uses first := by
  simp [teardown]

/-- All members end, and nothing else does. -/
theorem ended_mem_teardown_iff {declared : List μ} :
    .ended m ∈ teardown declared uses ↔ m ∈ declared := by
  simp [teardown, destroyMember]

/-- A use is one by the destructor of some member. -/
theorem used_mem_teardown_iff {declared : List μ} {w : ω} :
    .used m w ∈ teardown declared uses ↔ ∃ m' ∈ declared, (m, w) ∈ uses m' := by
  simp [teardown, destroyMember]

/-- A member is used after its end iff the destructor of one that is declared before it uses it. -/
theorem usedAfterEnd_teardown_iff {earlier later : List μ} (hearlier : m ∉ earlier)
    (hlater : m ∉ later) :
    UsedAfterEnd m (teardown (earlier ++ m :: later) uses) ↔
      ∃ m' ∈ earlier, ∃ w, (m, w) ∈ uses m' := by
  have hsplit : teardown (earlier ++ m :: later) uses =
      (teardown later uses ++ (uses m).map fun x => .used x.1 x.2) ++
        .ended m :: teardown earlier uses := by
    simp [teardown_append, teardown_cons, destroyMember]
  have hbefore : .ended m ∉ teardown later uses ++ (uses m).map fun x => .used x.1 x.2 := by
    simp [ended_mem_teardown_iff, hlater]
  have hafter : .ended m ∉ teardown earlier uses := by
    rwa [ended_mem_teardown_iff]
  constructor
  · rintro ⟨before, after, w, htr, hused⟩
    rw [hsplit, List.append_cons_inj_of_notMem hbefore hafter] at htr
    rw [← htr.2.2] at hused
    obtain ⟨m', hm', hw⟩ := used_mem_teardown_iff.mp hused
    exact ⟨m', hm', w, hw⟩
  · rintro ⟨m', hm', w, hw⟩
    exact ⟨_, _, w, hsplit, used_mem_teardown_iff.mpr ⟨m', hm', hw⟩⟩

end Teardown
