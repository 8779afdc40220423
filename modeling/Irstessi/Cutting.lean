import Irstessi.Characters
import Irstessi.Lib.Places

/-!
# Cutting around a pattern

`left`, `after` and their like search for a pattern, count in characters, and construct strings from
parts of the text. All parsing of the library rests on them.

* `StringObject.leftOf`, `after`, `reverseLeft`, `reverseAfter`, `between`, `reverseBetween`: the
  functions on objects.
* `exists_rows`: an occurrence cuts the row of characters; `find_cases`, `reverseFind_cases`: what the
  searches find in it.
* `CutsLosslessly`: the parts and the pattern make up the text, cut at the first or the last occurrence.
* **`cutsLosslessly`**: they do for texts of whole characters.

An object is searched, positions are counted in characters, and a new object is constructed of a part.
The proof passes to the row of characters of each operand (`Characters`): an occurrence of the pattern
is a part of the row, in front of which and behind which stand rows again, and each function returns the
text of one of them. The text and its three parts are then compared as lists. The empty pattern and
texts that end within a character are left out by the type of the operands: a `Pattern` has at least one
character, and a text of whole characters is what the class makes of UTF-8.
-/

namespace Irstessi

open Occurrence

/-! ## The functions -/

namespace StringObject

variable (t s e : StringObject) (junk : Nat → UInt8)

/-- `String("")` -/
def emptyText : Option StringObject := new.assign junk (some []) uintMax

/-- What an exception ends in. A byte that is read behind the NUL is none. -/
def caught : SearchFault → Option StringObject
  | .notFound => emptyText junk
  | .invalidSequence => emptyText junk
  | .beyond => none

/-- Source: `string.h` `String::get` -/
def get (offset : Nat) : Option (List UInt8) :=
  if offset > t.m_length then none else some (utf8Offset t.text offset)

/-- Source: `string.h` `String::right` -/
def right (length : Nat) : Option StringObject :=
  match t.get length with
  | some p => new.assign junk (some p) uintMax
  | none => emptyText junk

/-- Source: `string.h` `String::left` -/
def left (length : Nat) : Option StringObject := new.assign junk (some t.text) length

/-- Source: `string.h` `String::mid` -/
def mid (start stop : Nat) : Option StringObject :=
  if start < stop then
    match t.get start with
    | some p => new.assign junk (some p) (stop - start)
    | none => emptyText junk
  else emptyText junk

/-- What is done with the result of a search that may throw. -/
def atFound (found : Except SearchFault Nat) (f : Nat → Option StringObject) : Option StringObject :=
  match found with
  | .ok i => f i
  | .error fault => caught junk fault

/-- Source: `string.h` `String::left` of another string -/
def leftOf : Option StringObject := atFound junk (t.find s 0) (t.left junk)

/-- Source: `string.h` `String::reverse_left` -/
def reverseLeft : Option StringObject := atFound junk (t.reverseFind s uintMax) (t.left junk)

/-- Source: `string.h` `String::after` -/
def after : Option StringObject :=
  atFound junk (t.find s 0) fun i => t.right junk (toUnsigned (i + s.m_length))

/-- Source: `string.h` `String::reverse_after` -/
def reverseAfter : Option StringObject :=
  atFound junk (t.reverseFind s uintMax) fun i => t.right junk (toUnsigned (i + s.m_length))

/-- Source: `string.h` `String::between` -/
def between : Option StringObject :=
  atFound junk (t.find s 0) fun i =>
    let start := toUnsigned (i + s.m_length)
    atFound junk (t.find e start) (t.mid junk start)

/-- Source: `string.h` `String::reverse_between` -/
def reverseBetween : Option StringObject :=
  atFound junk (t.reverseFind e uintMax) fun stop =>
    atFound junk (t.reverseFind s stop) fun i => t.mid junk (toUnsigned (i + s.m_length)) stop

/-! ## Losslessness -/

/-- `m` stands between the first `s` and the first `e` behind it. -/
def BetweenFirst (t s e m : List UInt8) : Prop :=
  ∃ u v w, CutsFirst s t u v ∧ CutsFirst e v m w

/-- `m` stands between the last `e` and the last `s` before it. -/
def BetweenLast (t s e m : List UInt8) : Prop :=
  ∃ u v w, CutsLast e t u w ∧ CutsLast s u v m

/-- The parts and the pattern make up the text, cut at the first and at the last occurrence; `between` and
`reverse_between` return what stands there; and where nothing occurs all are empty. -/
def CutsLosslessly : Prop :=
  ∃ l r l' r' m m', t.leftOf s junk = some l ∧ t.after s junk = some r ∧
    t.reverseLeft s junk = some l' ∧ t.reverseAfter s junk = some r' ∧
    t.between s e junk = some m ∧ t.reverseBetween s e junk = some m' ∧
    (s.text <:+: t.text → CutsFirst s.text t.text l.text r.text ∧ CutsLast s.text t.text l'.text r'.text) ∧
    (¬ s.text <:+: t.text → l.text = [] ∧ r.text = [] ∧ l'.text = [] ∧ r'.text = []) ∧
    (BetweenFirst t.text s.text e.text m.text ∨
      m.text = [] ∧ ∀ u, ¬ BetweenFirst t.text s.text e.text u) ∧
    (BetweenLast t.text s.text e.text m'.text ∨
      m'.text = [] ∧ ∀ u, ¬ BetweenLast t.text s.text e.text u)

end StringObject

/-! ## Rows of characters -/

section rows

variable {L D : List (List UInt8)} (hL : ∀ c ∈ L, IsSequence c) (hD : ∀ c ∈ D, IsSequence c)

include hL hD

/-- Where characters occur, the row of characters is cut. -/
theorem exists_rows (hne : D ≠ []) {u v : List UInt8} (h : L.flatten = u ++ D.flatten ++ v) :
    ∃ A B, L = A ++ D ++ B ∧ A.flatten = u ∧ B.flatten = v := by
  obtain ⟨d, ds, rfl⟩ := List.exists_cons_of_ne_nil hne
  obtain ⟨b, w, hd, hb, -⟩ := (hD d List.mem_cons_self).isBlock
  have hfront : L.flatten = u ++ b :: (w ++ ds.flatten ++ v) := by
    rw [h, List.flatten_cons, hd]
    simp
  obtain ⟨A, R, rfl, rfl, hR⟩ := Blocks.exists_split (allBlocks_of_isSequence hL) hb hfront
  -- behind the front the characters are those of the pattern, and others
  obtain ⟨B, tail, hB, htail, rfl⟩ := exists_sequences v
  have hsame : R.flatten ++ [] = ((d :: ds) ++ B).flatten ++ tail := by
    rw [hR, List.flatten_append, List.flatten_cons, hd]
    simp
  have heq := sequences_unique (fun c hc => hL c (List.mem_append_right A hc))
    (List.forall_mem_append.mpr ⟨hD, hB⟩) (.inl rfl) htail hsame
  rw [heq, List.append_nil] at hsame
  rw [heq, List.self_eq_append_right.mp hsame]
  exact ⟨A, B, (List.append_assoc A _ B).symm, rfl, (List.append_nil _).symm⟩

end rows

/-! ## What the searches find -/

section search

variable {t s : StringValue} {L D : List (List UInt8)} (hL : Row t L) (hD : Row s D)

include hL hD

/-- Searching from a character on cuts the characters from there on. -/
theorem find_cases (hne : D ≠ []) {k : Nat} (hk : k ≤ L.length) :
    (∃ A B, L.drop k = A ++ D ++ B ∧ t.object.find s.object k = .ok (k + A.length) ∧
      CutsFirst s.object.text (L.drop k).flatten A.flatten B.flatten) ∨
    (t.object.find s.object k = .error .notFound ∧ ¬ s.object.text <:+: (L.drop k).flatten) := by
  have hdrop : t.object.bytes.drop (startOf L k) = (L.drop k).flatten := by
    have hbytes : t.object.bytes = L.flatten := hL.flatten
    rw [hbytes, drop_startOf]
  rw [StringObject.find_eq t.valid s.valid, s.valid.text_eq]
  unfold Str.find Str.findByte
  dsimp only [StringObject.str_buffer]
  rw [hL.distance_eq, hdrop]
  rcases hfind : findPos s.object.bytes (L.drop k).flatten with _ | p
  · refine .inr ⟨rfl, fun hinfix => ?_⟩
    rw [← findPos_isSome_iff, hfind] at hinfix
    simp at hinfix
  · obtain ⟨hat, hfirst⟩ := findPos_eq_some_iff.mp hfind
    obtain ⟨u, v, heq, rfl⟩ := at_iff_exists.mp hat
    have hrows : (L.drop k).flatten = u ++ D.flatten ++ v := by
      rw [heq, ← hD.flatten]
      rfl
    obtain ⟨A, B, hcut, rfl, rfl⟩ := exists_rows
      (fun c hc => hL.sequences c (List.mem_of_mem_drop hc)) hD.sequences hne hrows
    have hrow : L = (L.take k ++ A) ++ (D ++ B) := by
      rw [List.append_assoc, ← List.append_assoc A, ← hcut, List.take_append_drop]
    have hlength : (L.take k ++ A).length = k + A.length := by
      rw [List.length_append, List.length_take_of_le hk]
    have hposition : startOf L k + A.flatten.length = startOf L (k + A.length) := by
      rw [← hlength, startOf_left hrow, List.flatten_append, List.length_append, startOf]
    have hend : k + A.length ≤ L.length := by
      have hall := congrArg List.length hrow
      rw [List.length_append, hlength] at hall
      omega
    refine .inl ⟨A, B, hcut, ?_, heq, hfirst⟩
    rw [Option.map_some, Option.map_some, hposition, hL.utf8Length_eq hend]
    rfl

/-- Searching backwards from a character cuts the characters before it. -/
theorem reverseFind_cases (hne : D ≠ []) (k : Nat) :
    (∃ A B, L.take k = A ++ D ++ B ∧ t.object.reverseFind s.object k = .ok A.length ∧
      CutsLast s.object.text (L.take k).flatten A.flatten B.flatten) ∨
    (t.object.reverseFind s.object k = .error .notFound ∧
      ¬ s.object.text <:+: (L.take k).flatten) := by
  have hbytes : t.object.bytes = L.flatten := hL.flatten
  have htake : t.object.bytes.take (startOf L k) = (L.take k).flatten := by
    rw [hbytes, take_startOf]
  have hle : startOf L k ≤ t.object.bytes.length := by
    rw [← hL.distance_eq]
    exact distance_le _ _
  have hfound := Str.reverseFindByte_eq_some_iff (t := t.object.str) (w := s.object.bytes) hle
  rw [Str.distance_npos s.wellFormed] at hfound
  have hplaces : {p | p + s.object.bytes.length ≤ startOf L k ∧ At s.object.bytes t.object.bytes p} =
      {p | At s.object.bytes (L.take k).flatten p} := by
    ext p
    rw [← htake, Set.mem_ofPred_eq, Set.mem_ofPred_eq, at_take_iff hle, and_comm]
  dsimp only [StringObject.str_buffer] at hfound
  rw [hplaces] at hfound
  rw [StringObject.reverseFind_eq t.valid s.valid, s.valid.text_eq]
  unfold Str.reverseFind
  dsimp only [StringObject.str_buffer]
  rw [hL.distance_eq]
  rcases hreverse : t.object.str.reverseFindByte s.object.bytes (startOf L k) with _ | p
  · refine .inr ⟨rfl, fun hinfix => ?_⟩
    obtain ⟨i, hi⟩ := exists_at_iff_infix.mpr hinfix
    have hbounded : BddAbove {p | At s.object.bytes (L.take k).flatten p} :=
      ⟨(L.take k).flatten.length, fun p hp => hp.1⟩
    have hgreatest := (hfound _).mpr ⟨Nat.sSup_mem ⟨i, hi⟩ hbounded, fun _ hp => le_csSup hbounded hp⟩
    rw [hreverse] at hgreatest
    simp at hgreatest
  · obtain ⟨hat, hlast⟩ := (hfound p).mp hreverse
    obtain ⟨u, v, heq, rfl⟩ := at_iff_exists.mp hat
    have hrows : (L.take k).flatten = u ++ D.flatten ++ v := by
      rw [heq, ← hD.flatten]
      rfl
    obtain ⟨A, B, hcut, rfl, rfl⟩ := exists_rows
      (fun c hc => hL.sequences c (List.mem_of_mem_take hc)) hD.sequences hne hrows
    have hrow : L = A ++ (D ++ B ++ L.drop k) := by
      nth_rewrite 1 [← List.take_append_drop k L]
      rw [hcut]
      simp
    have hend : A.length ≤ L.length := by
      rw [hrow, List.length_append]
      exact Nat.le_add_right _ _
    refine .inl ⟨A, B, hcut, ?_, heq, fun i hi hat => ?_⟩
    · rw [Option.map_some, ← startOf_left hrow, hL.utf8Length_eq hend]
      rfl
    · exact absurd (hlast hat) (Nat.not_le.mpr hi)

end search

/-! ## Parts of a row -/

section parts

variable {t : StringValue} {L : List (List UInt8)} (hL : Row t L) (junk : Nat → UInt8)

/-- Where nothing is found the empty text is returned. -/
theorem exists_emptyText : ∃ s, StringObject.emptyText junk = some s ∧ s.text = [] := by
  obtain ⟨s, hassign, hvalid, hbytes⟩ := exists_assign (D := []) (by simp)
    StringObject.allocated_new junk (by simp) (by decide) uintMax
  exact ⟨s, hassign, hvalid.text_eq.trans (by simpa using hbytes)⟩

include hL

/-- What is left behind some characters is short enough for the 32-bit sizes. -/
theorem Row.length_flatten_drop_lt (k : Nat) : (L.drop k).flatten.length < uintMax := by
  have hlength := t.valid.length_lt
  have hbytes : t.object.bytes = L.flatten := hL.flatten
  rw [hbytes, flatten_take_append_drop L k, List.length_append] at hlength
  omega

/-- Construction from the characters behind `start`. -/
theorem exists_part (start k : Nat) :
    ∃ s, StringObject.new.assign junk (some (L.drop start).flatten) k = some s ∧
      s.text = ((L.drop start).take k).flatten := by
  obtain ⟨s, hassign, hvalid, hbytes⟩ := exists_assign
    (fun c hc => hL.sequences c (List.mem_of_mem_drop hc)) StringObject.allocated_new junk
    (fun c hc => hL.ne_zero c (List.mem_of_mem_drop hc)) (hL.length_flatten_drop_lt start) k
  exact ⟨s, hassign, hvalid.text_eq.trans hbytes⟩

/-- The pointer behind k characters is that to the rest of the row. -/
theorem get_eq {k : Nat} (hk : k ≤ L.length) : t.object.get k = some (L.drop k).flatten := by
  rw [StringObject.get, if_neg (by rw [hL.length]; omega), hL.text_eq,
    utf8Offset_flatten hL.sequences]

/-- `left` gives the first k characters, and all of them where there are fewer. -/
theorem exists_left (k : Nat) :
    ∃ l, t.object.left junk k = some l ∧ l.text = (L.take k).flatten := by
  have hpart := exists_part hL junk 0 k
  rw [List.drop_zero] at hpart
  rw [StringObject.left, hL.text_eq]
  exact hpart

/-- `right` gives what stands behind the first k characters. -/
theorem exists_right {k : Nat} (hk : k ≤ L.length) :
    ∃ r, t.object.right junk k = some r ∧ r.text = (L.drop k).flatten := by
  obtain ⟨r, hassign, htext⟩ := exists_part hL junk k uintMax
  have hlength := hL.length_lt
  have hall : (L.drop k).length ≤ uintMax := by
    rw [List.length_drop]
    omega
  rw [List.take_of_length_le hall] at htext
  rw [StringObject.right, get_eq hL hk]
  exact ⟨r, hassign, htext⟩

/-- `mid` gives the characters from one position up to another. -/
theorem exists_mid {start : Nat} (hstart : start ≤ L.length) (stop : Nat) :
    ∃ m, t.object.mid junk start stop = some m ∧
      m.text = ((L.drop start).take (stop - start)).flatten := by
  rw [StringObject.mid]
  split
  next =>
    rw [get_eq hL hstart]
    exact exists_part hL junk start (stop - start)
  next hge =>
    obtain ⟨m, hempty, htext⟩ := exists_emptyText junk
    rw [Nat.sub_eq_zero_of_le (Nat.not_lt.mp hge)]
    exact ⟨m, hempty, htext⟩

end parts

/-! ## The functions on rows -/

section functions

open StringObject

variable {t s e : StringValue} {L D E : List (List UInt8)} (hL : Row t L) (hD : Row s D) (hE : Row e E)
  (junk : Nat → UInt8)

omit hL in
/-- Where the word is found the cut is made at its position. -/
theorem atFound_ok {found : Except SearchFault Nat} {i : Nat} (h : found = .ok i)
    (f : Nat → Option StringObject) : atFound junk found f = f i := by
  rw [h]
  rfl

omit hL in
/-- Where the word is not found the result is the empty text. -/
theorem atFound_notFound {found : Except SearchFault Nat} (h : found = .error .notFound)
    (f : Nat → Option StringObject) : atFound junk found f = emptyText junk := by
  rw [h]
  rfl

include hL hD

/-- The number of characters up to the end of an occurrence. -/
theorem toUnsigned_add {A B : List (List UInt8)} (hrow : L = A ++ D ++ B) :
    toUnsigned (A.length + s.object.m_length) = A.length + D.length := by
  have hlength := hL.length_lt
  have hall := congrArg List.length hrow
  rw [List.length_append, List.length_append] at hall
  rw [hD.length]
  unfold uintMax at hlength
  exact Nat.mod_eq_of_lt (by omega)

omit hL hD in
/-- Behind an occurrence the rest of the row is left. -/
theorem drop_row {A B : List (List UInt8)} (hrow : L = A ++ D ++ B) :
    L.drop (A.length + D.length) = B := by
  rw [hrow, ← List.length_append, List.drop_left]

omit hL hD in
/-- In front of an occurrence stands the first part of the row. -/
theorem take_row {A B : List (List UInt8)} (hrow : L = A ++ D ++ B) : L.take A.length = A := by
  rw [hrow, List.append_assoc, List.take_left]

omit hL hD in
/-- An occurrence ends within the row. -/
theorem length_row_le {A B : List (List UInt8)} (hrow : L = A ++ D ++ B) :
    A.length + D.length ≤ L.length := by
  rw [hrow, List.length_append, List.length_append]
  exact Nat.le_add_right _ _

/-- What stands before and behind an occurrence. -/
theorem exists_sides {A B : List (List UInt8)} (hrow : L = A ++ D ++ B) :
    (∃ l, t.object.left junk A.length = some l ∧ l.text = A.flatten) ∧
    ∃ r, t.object.right junk (toUnsigned (A.length + s.object.m_length)) = some r ∧
      r.text = B.flatten := by
  obtain ⟨l, hleft, hltext⟩ := exists_left hL junk A.length
  obtain ⟨r, hright, hrtext⟩ := exists_right hL junk (length_row_le hrow)
  rw [take_row hrow] at hltext
  rw [drop_row hrow] at hrtext
  rw [toUnsigned_add hL hD hrow]
  exact ⟨⟨l, hleft, hltext⟩, r, hright, hrtext⟩

/-- What is returned before and behind what a search finds. -/
theorem exists_cut {found : Except SearchFault Nat} {cut : List UInt8 → List UInt8 → Prop}
    (hcases : (∃ A B, L = A ++ D ++ B ∧ found = .ok A.length ∧ cut A.flatten B.flatten) ∨
      (found = .error .notFound ∧ ¬ s.object.text <:+: t.object.text))
    (hoccurs : ∀ u v, cut u v → s.object.text <:+: t.object.text) :
    ∃ l r, atFound junk found (t.object.left junk) = some l ∧
      (atFound junk found fun i => t.object.right junk (toUnsigned (i + s.object.m_length))) = some r ∧
      (s.object.text <:+: t.object.text → cut l.text r.text) ∧
      (¬ s.object.text <:+: t.object.text → l.text = [] ∧ r.text = []) := by
  rcases hcases with ⟨A, B, hrow, hfind, hcut⟩ | ⟨hfind, hnot⟩
  · obtain ⟨⟨l, hleft, hltext⟩, r, hright, hrtext⟩ := exists_sides hL hD junk hrow
    rw [atFound_ok junk hfind, atFound_ok junk hfind]
    refine ⟨l, r, hleft, hright, fun _ => ?_, fun hnot => absurd (hoccurs _ _ hcut) hnot⟩
    rw [hltext, hrtext]
    exact hcut
  · obtain ⟨m, hempty, htext⟩ := exists_emptyText junk
    rw [atFound_notFound junk hfind, atFound_notFound junk hfind]
    exact ⟨m, m, hempty, hempty, fun hinfix => absurd hinfix hnot, fun _ => ⟨htext, htext⟩⟩

/-- The cuts at the first occurrence: both parts are returned, and nothing where the word does not
occur. -/
theorem exists_firstCut (hne : D ≠ []) :
    ∃ l r, t.object.leftOf s.object junk = some l ∧ t.object.after s.object junk = some r ∧
      (s.object.text <:+: t.object.text → CutsFirst s.object.text t.object.text l.text r.text) ∧
      (¬ s.object.text <:+: t.object.text → l.text = [] ∧ r.text = []) := by
  have hcases := find_cases hL hD hne (Nat.zero_le L.length)
  rw [List.drop_zero, ← hL.text_eq] at hcases
  simp only [Nat.zero_add] at hcases
  exact exists_cut hL hD junk hcases fun _ _ hcut => infix_of_cut hcut.eq_append

/-- The cuts at the last occurrence: both parts are returned, and nothing where the word does not
occur. -/
theorem exists_lastCut (hne : D ≠ []) :
    ∃ l r, t.object.reverseLeft s.object junk = some l ∧ t.object.reverseAfter s.object junk = some r ∧
      (s.object.text <:+: t.object.text → CutsLast s.object.text t.object.text l.text r.text) ∧
      (¬ s.object.text <:+: t.object.text → l.text = [] ∧ r.text = []) := by
  have hcases := reverseFind_cases hL hD hne uintMax
  rw [List.take_of_length_le hL.length_lt.le, ← hL.text_eq] at hcases
  exact exists_cut hL hD junk hcases fun _ _ hcut => infix_of_cut hcut.eq_append

include hE

/-- The second search begins behind the first `s`. -/
theorem exists_between (hne : D ≠ []) (hneE : E ≠ []) :
    ∃ m, t.object.between s.object e.object junk = some m ∧
      (BetweenFirst t.object.text s.object.text e.object.text m.text ∨
        m.text = [] ∧ ∀ u, ¬ BetweenFirst t.object.text s.object.text e.object.text u) := by
  have hcases := find_cases hL hD hne (Nat.zero_le L.length)
  rw [List.drop_zero, ← hL.text_eq] at hcases
  obtain ⟨m₀, hempty, htext₀⟩ := exists_emptyText junk
  unfold between
  rcases hcases with ⟨A, B, hrow, hfind, hcut⟩ | ⟨hfind, hnot⟩
  · rw [Nat.zero_add] at hfind
    rw [atFound_ok junk hfind]
    dsimp only
    rw [toUnsigned_add hL hD hrow]
    have hstart := length_row_le hrow
    have hcases := find_cases hL hE hneE hstart
    rw [drop_row hrow] at hcases
    rcases hcases with ⟨A', B', hrow', hfind', hcut'⟩ | ⟨hfind', hnot'⟩
    · rw [atFound_ok junk hfind']
      obtain ⟨m, hmid, htext⟩ := exists_mid hL junk hstart (A.length + D.length + A'.length)
      rw [drop_row hrow, Nat.add_sub_cancel_left, take_row hrow'] at htext
      refine ⟨m, hmid, .inl ⟨A.flatten, B.flatten, B'.flatten, hcut, ?_⟩⟩
      rw [htext]
      exact hcut'
    · rw [atFound_notFound junk hfind']
      refine ⟨m₀, hempty, .inr ⟨htext₀, ?_⟩⟩
      rintro u ⟨A', B', w, hcut'', hcut'⟩
      obtain ⟨-, rfl⟩ := hcut.unique hcut''
      exact hnot' (infix_of_cut hcut'.eq_append)
  · rw [atFound_notFound junk hfind]
    refine ⟨m₀, hempty, .inr ⟨htext₀, ?_⟩⟩
    rintro u ⟨A', B', w, hcut, -⟩
    exact hnot (infix_of_cut hcut.eq_append)

/-- The second search ends before the last `e`. -/
theorem exists_reverseBetween (hne : D ≠ []) (hneE : E ≠ []) :
    ∃ m, t.object.reverseBetween s.object e.object junk = some m ∧
      (BetweenLast t.object.text s.object.text e.object.text m.text ∨
        m.text = [] ∧ ∀ u, ¬ BetweenLast t.object.text s.object.text e.object.text u) := by
  have hcases := reverseFind_cases hL hE hneE uintMax
  rw [List.take_of_length_le hL.length_lt.le, ← hL.text_eq] at hcases
  obtain ⟨m₀, hempty, htext₀⟩ := exists_emptyText junk
  unfold reverseBetween
  rcases hcases with ⟨A, B, hrow, hfind, hcut⟩ | ⟨hfind, hnot⟩
  · rw [atFound_ok junk hfind]
    have hcases := reverseFind_cases hL hD hne A.length
    rw [take_row hrow] at hcases
    rcases hcases with ⟨A', B', hrow', hfind', hcut'⟩ | ⟨hfind', hnot'⟩
    · rw [atFound_ok junk hfind']
      -- the characters of `t` before the last `e` are cut once more
      have hrow'' : L = A' ++ D ++ (B' ++ E ++ B) := by
        rw [hrow, hrow']
        simp
      rw [toUnsigned_add hL hD hrow'']
      obtain ⟨m, hmid, htext⟩ := exists_mid hL junk (length_row_le hrow'') A.length
      have hlength : A.length - (A'.length + D.length) = B'.length := by
        rw [hrow', List.length_append, List.length_append, Nat.add_sub_cancel_left]
      rw [drop_row hrow'', hlength, List.append_assoc, List.take_left] at htext
      refine ⟨m, hmid, .inl ⟨A.flatten, A'.flatten, B.flatten, hcut, ?_⟩⟩
      rw [htext]
      exact hcut'
    · rw [atFound_notFound junk hfind']
      refine ⟨m₀, hempty, .inr ⟨htext₀, ?_⟩⟩
      rintro u ⟨A', B', w, hcut'', hcut'⟩
      obtain ⟨rfl, -⟩ := hcut.unique hcut''
      exact hnot' (infix_of_cut hcut'.eq_append)
  · rw [atFound_notFound junk hfind]
    refine ⟨m₀, hempty, .inr ⟨htext₀, ?_⟩⟩
    rintro u ⟨A', B', w, hcut, -⟩
    exact hnot (infix_of_cut hcut.eq_append)

end functions

/-! ## Main result -/

/-- A pattern that is not empty. -/
structure Pattern extends StringValue where
  nonempty : object.text ≠ []

/-- A pattern is a row of at least one character. -/
theorem Pattern.exists_row (s : Pattern) : ∃ D, Row s.toStringValue D ∧ D ≠ [] := by
  obtain ⟨D, hD⟩ := s.toStringValue.exists_row
  refine ⟨D, hD, ?_⟩
  rintro rfl
  exact s.nonempty hD.text_eq

/-- For all strings with texts of whole characters and all patterns that are not empty: the parts and the
pattern make up the text, cut at the first or at the last occurrence; `between` and `reverse_between`
return what stands between the first or the last occurrences; and where one is missing the results are
empty. -/
theorem cutsLosslessly (t : StringValue) (s e : Pattern) (junk : Nat → UInt8) :
    t.object.CutsLosslessly s.object e.object junk := by
  obtain ⟨L, hL⟩ := t.exists_row
  obtain ⟨D, hD, hne⟩ := s.exists_row
  obtain ⟨E, hE, hneE⟩ := e.exists_row
  obtain ⟨l, r, hleft, hright, hfirst, hfirstNone⟩ := exists_firstCut hL hD junk hne
  obtain ⟨l', r', hleft', hright', hlast, hlastNone⟩ := exists_lastCut hL hD junk hne
  obtain ⟨m, hbetween, hm⟩ := exists_between hL hD hE junk hne hneE
  obtain ⟨m', hreverse, hm'⟩ := exists_reverseBetween hL hD hE junk hne hneE
  refine ⟨l, r, l', r', m, m', hleft, hright, hleft', hright', hbetween, hreverse,
    fun hinfix => ⟨hfirst hinfix, hlast hinfix⟩, fun hnot => ?_, hm, hm'⟩
  exact ⟨(hfirstNone hnot).1, (hfirstNone hnot).2, (hlastNone hnot).1, (hlastNone hnot).2⟩

/-- Half a character is lost behind "a". -/
theorem not_cutsLosslessly_cutString :
    ¬ ∀ (t s e : PlainString) (junk : Nat → UInt8), s.text ≠ [] → e.text ≠ [] →
      t.CutsLosslessly s.toStringObject e.toStringObject junk := by
  intro h
  obtain ⟨l, r, _, _, _, _, hleft, hright, -, -, -, -, hcut, -⟩ :=
    h cutString letterA letterA (fun _ => 0) (by decide) (by decide)
  have hfind : cutString.find letterA.toStringObject 0 = .ok 0 := by
    rw [StringObject.find_eq cutString.valid letterA.valid]
    decide +kernel
  have hleft' : cutString.leftOf letterA.toStringObject (fun _ => 0) = some ⟨[0], 0, 0, 1⟩ := by
    rw [StringObject.leftOf, atFound_ok _ hfind]
    decide +kernel
  have hright' : cutString.after letterA.toStringObject (fun _ => 0) = some ⟨[0], 0, 0, 1⟩ := by
    rw [StringObject.after, atFound_ok _ hfind]
    decide +kernel
  obtain rfl := Option.some.inj (hleft.symm.trans hleft')
  obtain rfl := Option.some.inj (hright.symm.trans hright')
  have htext := (hcut (by decide)).1.eq_append
  exact absurd htext (by decide)

end Irstessi
