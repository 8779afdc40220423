import Mathlib.Order.Lattice
import Mathlib.Data.List.Basic
import Mathlib.Data.List.Pairwise

/-!
# Maps as lists in the order of their keys

* `KeyMap.Sorted`: the keys are distinct and ascend.
* `KeyMap.lookup`, `KeyMap.insertNew`: lookup, and insertion that keeps an entry there is.
* `lookup_eq_some_iff`, `insertNew_of_forall_lt`, `insertNew_of_mem`: what they do on sorted maps.

An entry is found by going through the list. Keys that are inserted are mostly greater than all that
there are, in which case an insertion appends.
-/

namespace KeyMap

variable {κ α : Type*} [LinearOrder κ]

/-- The keys ascend. -/
def Sorted (m : List (κ × α)) : Prop := m.Pairwise fun x y => x.1 < y.1

/-- The value of a key. -/
def lookup (m : List (κ × α)) (k : κ) : Option α := (m.find? fun x => x.1 = k).map Prod.snd

/-- A key gets a value unless it has one; whether it has got it. -/
def insertNew (k : κ) (a : α) : List (κ × α) → List (κ × α) × Bool
  | [] => ([(k, a)], true)
  | x :: m =>
      if k < x.1 then ((k, a) :: x :: m, true)
      else if k = x.1 then (x :: m, false)
      else (x :: (insertNew k a m).1, (insertNew k a m).2)

variable {m : List (κ × α)} {k : κ} {a : α}

/-- The empty map is sorted. -/
theorem sorted_nil : Sorted ([] : List (κ × α)) := List.Pairwise.nil

/-- Two values of one key are the same. -/
theorem Sorted.unique (h : Sorted m) {b : α} (ha : (k, a) ∈ m) (hb : (k, b) ∈ m) : a = b := by
  induction m with
  | nil => simp at ha
  | cons x m ih =>
      obtain ⟨hx, hrest⟩ := List.pairwise_cons.mp h
      rcases List.mem_cons.mp ha with rfl | htail
      · rcases List.mem_cons.mp hb with heq | hb
        · exact (Prod.mk.inj heq).2.symm
        · exact absurd (hx (k, b) hb) (lt_irrefl k)
      · rcases List.mem_cons.mp hb with rfl | hb
        · exact absurd (hx (k, a) htail) (lt_irrefl k)
        · exact ih hrest htail hb

/-- In a sorted map a key is looked up exactly where it stands with the value. -/
theorem lookup_eq_some_iff (h : Sorted m) : lookup m k = some a ↔ (k, a) ∈ m := by
  unfold lookup
  rw [Option.map_eq_some_iff]
  constructor
  · rintro ⟨⟨k', b⟩, hfind, rfl⟩
    obtain rfl : k' = k := by simpa using List.find?_some hfind
    exact List.mem_of_find?_eq_some hfind
  · intro hmem
    have hsome : (m.find? fun x => x.1 = k).isSome :=
      List.find?_isSome.mpr ⟨(k, a), hmem, by simp⟩
    obtain ⟨⟨k', b⟩, hfind⟩ := Option.isSome_iff_exists.mp hsome
    obtain rfl : k' = k := by simpa using List.find?_some hfind
    exact ⟨(k', b), hfind, h.unique (List.mem_of_find?_eq_some hfind) hmem⟩

/-- A key that is greater than the others. -/
theorem insertNew_of_forall_lt (h : ∀ x ∈ m, x.1 < k) : insertNew k a m = (m ++ [(k, a)], true) := by
  induction m with
  | nil => rfl
  | cons x m ih =>
      have hx := h x List.mem_cons_self
      have hrest := ih fun y hy => h y (List.mem_cons_of_mem _ hy)
      rw [insertNew, if_neg (not_lt_of_gt hx), if_neg (ne_of_gt hx), hrest]
      rfl

/-- A key that has a value. -/
theorem insertNew_of_mem (hm : Sorted m) {b : α} (h : (k, b) ∈ m) : insertNew k a m = (m, false) := by
  induction m with
  | nil => simp at h
  | cons x m ih =>
      obtain ⟨hx, hrest⟩ := List.pairwise_cons.mp hm
      rcases List.mem_cons.mp h with rfl | h
      · rw [insertNew, if_neg (lt_irrefl _), if_pos rfl]
      · have hlt := hx _ h
        rw [insertNew, if_neg (not_lt_of_gt hlt), if_neg (ne_of_gt hlt), ih hrest h]

/-- A key above all others goes to the end. -/
theorem Sorted.append_singleton (hm : Sorted m) (h : ∀ x ∈ m, x.1 < k) : Sorted (m ++ [(k, a)]) := by
  refine List.pairwise_append.mpr ⟨hm, List.pairwise_singleton _ _, ?_⟩
  intro x hx y hy
  obtain rfl := List.mem_singleton.mp hy
  exact h x hx

/-- What is left of a sorted map is sorted. -/
theorem Sorted.filter (hm : Sorted m) (p : κ × α → Bool) : Sorted (m.filter p) :=
  List.Pairwise.filter p hm

/-- The last key is the greatest. -/
theorem Sorted.le_getLast (hm : Sorted m) {last : κ × α} (hlast : m.getLast? = some last)
    {x : κ × α} (hx : x ∈ m) : x.1 ≤ last.1 := by
  obtain ⟨init, rfl⟩ := List.getLast?_eq_some_iff.mp hlast
  rcases List.mem_append.mp hx with hx | hx
  · exact le_of_lt ((List.pairwise_append.mp hm).2.2 x hx last (List.mem_singleton_self last))
  · rw [List.mem_singleton.mp hx]

end KeyMap
