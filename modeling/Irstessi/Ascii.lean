import Irstessi.Lib.Places
import Irstessi.Text
import Mathlib.Data.List.DropRight

/-!
# Texts of single-byte characters

In such a text the number of a character is its position, so that the operations of `String` are those
of lists.

* `utf8Offset_singleBytes`, `utf8Length_singleBytes`: the walk goes byte by byte.
* `find_singleBytes`, `reverseFind_singleBytes`: what the searches return.
* `right_singleBytes`, `left_singleBytes`, `mid_singleBytes`, `after_singleBytes`,
  `reverseAfter_singleBytes`, `leftOf_singleBytes`: parts of the text.
* `strip`, `trim_singleBytes`: trimming.

The class counts characters in lengths, offsets and results, and bytes in memory. For a text of
single-byte characters both are the same, and every operation of `String` that the library applies to
device names, sysfs paths and the output of mdadm is then one of `List`. The lemmas here are stated over
bytes, not over objects of the class, so that a proof about such texts can be done on lists with
Mathlib's lemmas and carried back by rewriting. Where a text may have other characters the modules
`Occurrences` and `Characters` take their place.
-/

namespace Irstessi

open Occurrence

section walk

variable {t : List UInt8} (ht : SingleBytes t)

include ht

/-- Walking k characters of a single-byte text drops k bytes. -/
theorem utf8Offset_singleBytes (k : Nat) : utf8Offset t k = t.drop k := by
  have hwalk := utf8Offset_sequences ht.isSequence (.inl rfl) k
  rw [List.append_nil, List.append_nil, SingleBytes.flatten_map_singleton, ← List.map_drop,
    SingleBytes.flatten_map_singleton] at hwalk
  exact hwalk

/-- The k-th character of a single-byte text is at the byte k, or at the end. -/
theorem distance_singleBytes (k : Nat) : distance t (utf8Offset t k) = min k t.length := by
  rw [utf8Offset_singleBytes ht, distance, List.length_drop]
  omega

/-- Up to the byte p there are p characters. -/
theorem utf8Length_singleBytes {p : Nat} (hp : p ≤ t.length) : utf8Length t p = p := by
  have hwalk := utf8Length_sequences ht.isSequence (.inl rfl) p
  rwa [List.append_nil, SingleBytes.flatten_map_singleton, ← List.map_take,
    SingleBytes.flatten_map_singleton, List.length_map, List.length_take_of_le hp] at hwalk

/-- What is left behind some bytes is a single-byte text. -/
theorem SingleBytes.drop (k : Nat) : SingleBytes (t.drop k) := fun b hb => ht b (List.mem_of_mem_drop hb)

/-- What stands in front is a single-byte text. -/
theorem SingleBytes.take (k : Nat) : SingleBytes (t.take k) := fun b hb => ht b (List.mem_of_mem_take hb)

end walk

namespace Str

/-- A string as the constructors and assignments leave it. -/
def Constructed (s : Str) : Prop := s = ofBytes s.m_buffer

/-- What the class makes of bytes is a text that it can hold. -/
theorem constructed_ofBytes (t : List UInt8) : (ofBytes t).Constructed := (ofBytes_ofBytes t).symm

/-- A text that the class can hold is well-formed. -/
theorem Constructed.wellFormed {s : Str} (h : s.Constructed) : WellFormed s.m_buffer := by
  rw [h]
  exact wellFormed_ofBytes s.m_buffer

/-- A text that the class can hold, of single bytes, is counted as its bytes. -/
theorem Constructed.counted {s : Str} (h : s.Constructed) (hs : SingleBytes s.m_buffer) : s.Counted := by
  rw [h]
  exact counted_ofBytes hs

/-- A string of ASCII characters has no U+007F among them. -/
theorem Constructed.singleBytes {s : Str} (h : s.Constructed) (hs : ∀ b ∈ s.m_buffer, b < 0x80) :
    SingleBytes s.m_buffer := fun b hb => h.wellFormed.lt_of_mem hb (hs b hb)

section parts

variable {t w : List UInt8} (ht : SingleBytes t)

include ht

/-- The first occurrence from a position on. -/
theorem find_singleBytes (k : Nat) :
    (ofBytes t).find w k = (findPos w (t.drop k)).map (min k t.length + ·) := by
  rw [ofBytes_of_singleBytes ht, find, findByte]
  dsimp only
  rw [distance_singleBytes ht, Option.map_map]
  have hdrop : t.drop (min k t.length) = t.drop k := by
    rcases Nat.le_total k t.length with h | h
    · rw [Nat.min_eq_left h]
    · rw [Nat.min_eq_right h, List.drop_length, List.drop_eq_nil_of_le h]
  rw [hdrop]
  rcases hfind : findPos w (t.drop k) with _ | p
  · rfl
  · obtain ⟨hat, -⟩ := findPos_eq_some_iff.mp hfind
    have hle := hat.length_le
    rw [List.length_drop] at hle
    rw [Option.map_some, Option.map_some, Function.comp_apply, utf8Length_singleBytes ht (by omega)]

/-- The last occurrence that ends at a position or before. -/
theorem reverseFind_singleBytes (hw : SingleBytes w) (k : Nat) :
    (ofBytes t).reverseFind w k =
      if min k t.length < w.length then none else rfindPos w t (min k t.length - w.length) := by
  have hwhole : distance w (utf8Offset w (npos w)) = w.length := by
    rw [distance_singleBytes hw, npos, Nat.min_self]
  rw [ofBytes_of_singleBytes ht, reverseFind, reverseFindByte]
  dsimp only
  rw [distance_singleBytes ht, hwhole]
  split
  next => rfl
  next hge =>
    rcases hfind : rfindPos w t (min k t.length - w.length) with _ | p
    · rfl
    · have hp := ((rfindPos_eq_some_iff (by omega)).mp hfind).1
      rw [Option.map_some, utf8Length_singleBytes ht (by omega)]

/-- Assigning the first k characters assigns the first k bytes. -/
theorem assign_singleBytes (k : Nat) : assign t k = ofBytes (t.take k) := by
  have hassign := assign_sequences ht.isSequence (.inl rfl) k
  rw [List.append_nil, SingleBytes.flatten_map_singleton, ← List.map_take,
    SingleBytes.flatten_map_singleton, List.length_map] at hassign
  rw [hassign, ofBytes_of_singleBytes (ht.take k)]

/-- The pointer behind k characters is the one behind k bytes. -/
theorem get_singleBytes {k : Nat} (hk : k ≤ t.length) : (ofBytes t).get k = some (t.drop k) := by
  rw [ofBytes_of_singleBytes ht, get, if_neg (by dsimp only; omega), utf8Offset_singleBytes ht]

/-- `right` drops bytes. -/
theorem right_singleBytes (k : Nat) : (ofBytes t).right k = ofBytes (t.drop k) := by
  rw [right]
  rcases Nat.lt_or_ge t.length k with h | h
  · rw [ofBytes_of_singleBytes ht, get, if_pos h, List.drop_eq_nil_of_le h.le]
    rfl
  · rw [get_singleBytes ht h]

/-- `left` takes bytes. -/
theorem left_singleBytes (k : Nat) : (ofBytes t).left k = ofBytes (t.take k) := by
  rw [left, ofBytes_buffer ht.wellFormed, assign_singleBytes ht]

/-- `mid` takes the bytes between two positions. -/
theorem mid_singleBytes {start stop : Nat} (hstart : start ≤ t.length) :
    (ofBytes t).mid start stop = ofBytes ((t.drop start).take (stop - start)) := by
  rw [mid]
  split
  next h =>
    rw [get_singleBytes ht hstart]
    exact assign_singleBytes (ht.drop start) _
  next h =>
    rw [show stop - start = 0 by omega]
    rfl

/-- The text behind the first occurrence of another one. -/
theorem after_singleBytes (hw : SingleBytes w) :
    (ofBytes t).after (ofBytes w) = ofBytes ((behind w t).getD []) := by
  have hlength : (ofBytes w).m_length = w.length := by rw [ofBytes_of_singleBytes hw]
  rw [after, ofBytes_buffer hw.wellFormed, find_singleBytes ht, hlength, List.drop_zero, behind]
  rcases findPos w t with _ | p
  · rfl
  · rw [Option.map_some, Option.map_some, Nat.zero_min, Nat.zero_add]
    exact right_singleBytes ht _

/-- The text behind the last occurrence of another one. -/
theorem reverseAfter_singleBytes (hw : SingleBytes w) :
    (ofBytes t).reverseAfter (ofBytes w) = ofBytes ((behindLast w t).getD []) := by
  have hlength : (ofBytes w).m_length = w.length := by rw [ofBytes_of_singleBytes hw]
  have hlast : (ofBytes t).reverseFind w (npos t) = lastPos w t := by
    rw [reverseFind_singleBytes ht hw, npos, Nat.min_self]
    rfl
  rw [reverseAfter, ofBytes_buffer hw.wellFormed, ofBytes_buffer ht.wellFormed, hlast, hlength, behindLast]
  rcases lastPos w t with _ | p
  · rfl
  · exact right_singleBytes ht _

/-- The text before the first occurrence of another one. -/
theorem leftOf_singleBytes : (ofBytes t).leftOf w = ofBytes ((before w t).getD []) := by
  rw [leftOf, find_singleBytes ht, List.drop_zero, before]
  rcases findPos w t with _ | p
  · rfl
  · rw [Option.map_some, Option.map_some, Nat.zero_min, Nat.zero_add]
    exact left_singleBytes ht _

end parts

/-! ## Trimming -/

/-- A character that trimming takes off. -/
def isBlank (b : UInt8) : Bool := ¬ IsInk b

/-- What trimming leaves of a text. -/
def strip (t : List UInt8) : List UInt8 := (t.dropWhile isBlank).rdropWhile isBlank

/-- A single byte is trimmed iff it is a blank or cannot be printed. -/
theorem isBlank_iff {b : UInt8} (hb : b < 0x7f) :
    isBlank b = true ↔ ¬ (isSpace b = false ∧ isPrint b = true) := by
  rw [isBlank, decide_eq_true_iff, IsInk, and_iff_right hb]

section trimming

variable {t : List UInt8} (ht : SingleBytes t)

include ht

/-- Trimming a single-byte text from the left drops blanks. -/
theorem utf8TrimLeft_singleBytes : utf8TrimLeft t = t.dropWhile isBlank := by
  induction t with
  | nil => rfl
  | cons b t ih =>
      have hb := ht b List.mem_cons_self
      have hrest := ih fun c hc => ht c (List.mem_cons_of_mem _ hc)
      rw [utf8TrimLeft, if_pos (utf8SequenceType_of_lt hb), List.dropWhile_cons]
      by_cases hblank : isBlank b = true
      · rw [if_pos hblank, if_neg ((isBlank_iff hb).mp hblank), hrest]
      · rw [if_neg hblank, if_pos (not_not.mp fun h => hblank ((isBlank_iff hb).mpr h))]

/-- Downwards from a position, the loop passes blanks. -/
theorem utf8TrimRightLoop_singleBytes {i : Nat} (hi : i < t.length) :
    utf8TrimRightLoop t i 0 = ((t.take (i + 1)).rdropWhile isBlank).length - 1 := by
  induction i with
  | zero =>
      have hle := (List.rdropWhile_prefix isBlank (l := t.take (0 + 1))).length_le
      rw [List.length_take] at hle
      rw [utf8TrimRightLoop]
      omega
  | succ i ih =>
      have hget : t.getD (i + 1) 0 = t[i + 1] := by simp [hi]
      have hb := ht t[i + 1] (List.getElem_mem hi)
      rw [utf8TrimRightLoop, hget, ← List.take_append_getElem hi, List.rdropWhile_concat, if_pos hb]
      by_cases hblank : isBlank t[i + 1] = true
      · rw [if_pos hblank, if_neg ((isBlank_iff hb).mp hblank), ih (by omega)]
      · rw [if_neg hblank, if_pos (not_not.mp fun h => hblank ((isBlank_iff hb).mpr h))]
        simp only [List.length_append, List.length_take, List.length_singleton]
        omega

omit ht in
/-- Blanks behind the last character to keep are dropped. -/
theorem rdropWhile_append_of_forall {u v : List UInt8} (hne : u ≠ [])
    (hlast : ¬ isBlank (u.getLast hne) = true) (hv : ∀ b ∈ v, isBlank b = true) :
    (u ++ v).rdropWhile isBlank = u := by
  induction v using List.reverseRecOn with
  | nil =>
      rw [List.append_nil]
      exact List.rdropWhile_eq_self_iff.mpr fun _ => hlast
  | append_singleton v b ih =>
      rw [← List.append_assoc, List.rdropWhile_concat_pos _ _ _ (hv b (by simp))]
      exact ih fun c hc => hv c (List.mem_append_left _ hc)

/-- Where there is something to keep, the right end lies behind it. -/
theorem utf8TrimRight_singleBytes (hne : strip t ≠ []) :
    utf8TrimRight t = (t.dropWhile isBlank).rtakeWhile isBlank := by
  have hcut : t.takeWhile isBlank ++ strip t ++ (t.dropWhile isBlank).rtakeWhile isBlank = t := by
    rw [strip, List.append_assoc, List.rdropWhile_append_rtakeWhile, List.takeWhile_append_dropWhile]
  have hkept : t.takeWhile isBlank ++ strip t ≠ [] := List.append_ne_nil_of_right_ne_nil _ hne
  have hlast : t.rdropWhile isBlank = t.takeWhile isBlank ++ strip t := by
    nth_rewrite 1 [← hcut]
    apply rdropWhile_append_of_forall hkept
    · rw [List.getLast_append_of_right_ne_nil _ _ hne]
      exact List.rdropWhile_last_not isBlank _ hne
    · exact fun b hb => List.mem_rtakeWhile_imp hb
  have hlength := congrArg List.length hcut
  rw [List.length_append] at hlength
  have hpos := List.length_pos_iff.mpr hkept
  generalize t.takeWhile isBlank ++ strip t = kept at *
  have hloop : utf8TrimRightLoop t (t.length - 1) 0 = kept.length - 1 := by
    rw [utf8TrimRightLoop_singleBytes ht (by omega), List.take_of_length_le (by omega), hlast]
  have hdrop : t.drop (kept.length - 1) = t[kept.length - 1] :: t.drop kept.length := by
    rw [List.drop_eq_getElem_cons (by omega), Nat.sub_add_cancel hpos]
  have hsequence := isSequence_singleton (ht t[kept.length - 1] (List.getElem_mem _))
  rw [utf8TrimRight, distance_utf8Offset_npos ht.wellFormed, hloop, hdrop]
  have hskip := utf8SkipSequence_append hsequence (t.drop kept.length)
  rw [List.singleton_append] at hskip
  rw [hskip, Option.getD_some]
  nth_rewrite 1 [← hcut]
  rw [List.drop_left]

/-- Trimming a single-byte text strips blanks from both ends. -/
theorem trim_singleBytes : (ofBytes t).trim = ofBytes (strip t) := by
  have hrest : SingleBytes (t.dropWhile isBlank) := fun b hb => ht b (List.dropWhile_subset _ hb)
  rw [trim, ofBytes_buffer ht.wellFormed, utf8TrimLeft_singleBytes ht, assign_singleBytes hrest,
    ofBytes_ofBytes]
  by_cases hne : strip t = []
  · have hnil : t.dropWhile isBlank = [] := by
      by_contra hcons
      have hhead := List.head_dropWhile_not isBlank hcons
      have hblank := List.rdropWhile_eq_nil_iff.mp hne _ (List.head_mem hcons)
      rw [hblank] at hhead
      simp at hhead
    rw [hne, hnil, List.take_nil]
  · rw [utf8TrimRight_singleBytes ht hne]
    have hcut : t.dropWhile isBlank = strip t ++ (t.dropWhile isBlank).rtakeWhile isBlank := by
      rw [strip, List.rdropWhile_append_rtakeWhile]
    generalize (t.dropWhile isBlank).rtakeWhile isBlank = blanks at *
    have hcount : ¬ (t.dropWhile isBlank).length < blanks.length := by
      rw [hcut, List.length_append]
      omega
    have hdistance : distance (t.dropWhile isBlank) blanks = (strip t).length := by
      rw [hcut, distance, List.length_append, Nat.add_sub_cancel]
    have hle : (strip t).length ≤ (t.dropWhile isBlank).length := by
      rw [hcut, List.length_append]
      exact Nat.le_add_right _ _
    rw [if_neg hcount, hdistance, utf8Length_singleBytes hrest hle, hcut, List.take_left]

end trimming

end Str

end Irstessi
