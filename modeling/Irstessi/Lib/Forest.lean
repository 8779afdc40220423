import Mathlib.Data.List.Flatten
import Mathlib.Data.List.Nodup
import Mathlib.Data.List.Pairwise
import Mathlib.Logic.Relation

/-!
# Walks through forests

Objects are numbers, and each lists its children, which are younger. A walk goes through an object and
then through its children one by one.

* `Forest`: children are younger, and nothing is listed twice or by two parents.
* `walk`: the objects in the order of the walk; `depth` bounds the recursion.
* `Below`: an object is reached from another one.
* `mem_walk_iff`, `nodup_walk`: a walk comes to what is below, and to each object once.

As children are younger than their parents, the recursion ends whatever the numbers are, and a bound on
the depth is given by the number of objects. That nothing is listed twice is asked of each list and of
any two; that there are no cycles follows from the order and is no condition of its own.
-/

/-- Of `next` objects each has younger children, and no other object has the same child. -/
structure Forest (children : Nat → List Nat) (next : Nat) : Prop where
  younger : ∀ x, ∀ y ∈ children x, x < y
  bounded : ∀ x, ∀ y ∈ children x, y < next
  nodup : ∀ x, (children x).Nodup
  unique : ∀ x x' y, y ∈ children x → y ∈ children x' → x = x'

namespace Forest

def walk (children : Nat → List Nat) : Nat → Nat → List Nat
  | 0, _ => []
  | depth + 1, x => x :: (children x).flatMap (walk children depth)

/-- The second object is the first or reached from it. -/
abbrev Below (children : Nat → List Nat) : Nat → Nat → Prop :=
  Relation.ReflTransGen fun x y => y ∈ children x

variable {children : Nat → List Nat} {next depth x x' y : Nat}

/-- A walk comes to nothing but what is below. -/
theorem below_of_mem_walk (hy : y ∈ walk children depth x) : Below children x y := by
  induction depth generalizing x with
  | zero => exact absurd hy List.not_mem_nil
  | succ depth ih =>
      rcases List.mem_cons.mp hy with rfl | hy
      · exact .refl
      · obtain ⟨child, hchild, hy⟩ := List.mem_flatMap.mp hy
        exact (Relation.ReflTransGen.single hchild).trans (ih hy)

variable (hf : Forest children next)

include hf

/-- What is below an object is not older than it. -/
theorem le_of_below (hbelow : Below children x y) : x ≤ y := by
  induction hbelow with
  | refl => exact Nat.le_refl x
  | tail _ hchild ih =>
      have hlt := hf.younger _ _ hchild
      omega

/-- Two objects that an object is below are below one another. -/
theorem below_total (hx : Below children x y) (hx' : Below children x' y) :
    Below children x x' ∨ Below children x' x := by
  have hunique : Relator.RightUnique (Function.swap fun x y => y ∈ children x) :=
    fun _ _ _ h h' => hf.unique _ _ _ h h'
  rcases Relation.ReflTransGen.total_of_right_unique hunique hx.swap hx'.swap with h | h
  · exact .inr h.swap
  · exact .inl h.swap

/-- An object that is below another one is below one of its children. -/
theorem parent_of_below (hbelow : Below children x y) (hne : x ≠ y) {x' : Nat} (hy : y ∈ children x') :
    Below children x x' := by
  rcases Relation.ReflTransGen.cases_tail hbelow with rfl | ⟨z, hz, hyz⟩
  · exact absurd rfl hne
  · rwa [hf.unique x' z y hy hyz]

/-- A walk of enough steps comes to everything below. -/
theorem mem_walk_iff (hx : x < next) (hdepth : next ≤ x + depth) :
    y ∈ walk children depth x ↔ Below children x y := by
  refine ⟨below_of_mem_walk, fun hbelow => ?_⟩
  induction depth generalizing x with
  | zero => omega
  | succ depth ih =>
      rcases Relation.ReflTransGen.cases_head hbelow with rfl | ⟨child, hchild, hbelow⟩
      · exact List.mem_cons_self
      · have hlt := hf.younger x child hchild
        refine List.mem_cons_of_mem _ (List.mem_flatMap.mpr ⟨child, hchild, ?_⟩)
        exact ih (hf.bounded x child hchild) (by omega) hbelow

/-- Walks from two objects that are not below one another have nothing in common. -/
theorem disjoint_walk {depth' : Nat} (h : ¬ Below children x x') (h' : ¬ Below children x' x) :
    List.Disjoint (walk children depth x) (walk children depth' x') := by
  intro y hy hy'
  rcases below_total hf (below_of_mem_walk hy) (below_of_mem_walk hy') with hbelow | hbelow
  · exact h hbelow
  · exact h' hbelow

/-- Two children of an object are not below one another. -/
theorem not_below_of_siblings (hy : y ∈ children x) (hx' : x' ∈ children x) (hne : y ≠ x') :
    ¬ Below children y x' := by
  intro hbelow
  have hparent := le_of_below hf (parent_of_below hf hbelow hne hx')
  have hlt := hf.younger x y hy
  omega

/-- A walk comes to each object once. -/
theorem nodup_walk : (walk children depth x).Nodup := by
  induction depth generalizing x with
  | zero => exact List.nodup_nil
  | succ depth ih =>
      refine List.nodup_cons.mpr ⟨fun hx => ?_, List.nodup_flatMap.mpr ⟨fun _ _ => ih, ?_⟩⟩
      · obtain ⟨child, hchild, hx⟩ := List.mem_flatMap.mp hx
        have hle := le_of_below hf (below_of_mem_walk hx)
        have hlt := hf.younger x child hchild
        omega
      · refine (hf.nodup x).imp_of_mem fun hy hx' hne => ?_
        exact disjoint_walk hf (not_below_of_siblings hf hy hx' hne)
          (not_below_of_siblings hf hx' hy hne.symm)

end Forest
