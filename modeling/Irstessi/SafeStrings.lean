import Irstessi.SafeMemory
import Irstessi.LastError

/-!
# How the checked functions copy strings

`strcpy_s` and `strncpy_s` copy byte by byte, and stop where one of the places begins.

* `copyLoop`: the loop of both functions, `strcpySAt`, `strncpySAt`: the functions, over memory by
  addresses.
* **`copyLoop_eq`**: the three ways in which the loop ends, for any two places.
* **`strcpySAt_spec`**: what is returned and what memory is then.
* **`strncpySAt_block`**: where the places are apart, `strncpy_s` over blocks of cells is what it does.

The loop copies until it meets a NUL, the bound or the start of the other place, and a place that is met
is an overlap, even where nothing of it would have been overwritten. So the result depends on three
numbers: the length of the text, the room and the distance of the places (`gap`). The theorem on the
loop gives all cases at once by an induction over the bytes that are left; the functions add their
checks in front of it and clear the destination where it fails. Whether slack behind the text is cleared
is an option of the library that is not defined in this build, and so not part of the functions.
-/

namespace Irstessi

open Address

/-- The loop, whose room is the first number; `slen` bounds the bytes that are copied, if anything does.
It ends where the pointer that `up` tells meets the start of the other string.
Source: `strcpy_s.c` `strcpy_s`, `strncpy_s.c` `strncpy_s`, the loops -/
def copyLoop (up : Bool) (overlap_bumper : Nat) :
    Nat → Option Nat → Nat → Nat → (Nat → UInt8) → SafeError × (Nat → UInt8)
  | 0, _, _, _, mem => (.ESNOSPC, mem)
  | dmax + 1, slen, dest, src, mem =>
      if (if up then dest else src) = overlap_bumper then (.ESOVRLP, mem)
      else if slen = some 0 then (.EOK, Function.update mem dest 0)
      else
        let mem := Function.update mem dest (mem src)
        if mem dest = 0 then (.EOK, mem)
        else copyLoop up overlap_bumper dmax (slen.map fun slen => slen - 1) (dest + 1) (src + 1) mem

/-- A copy that has failed leaves an empty string.
Source: `safe_str_constraint.h` `handle_error` -/
def handleError (orig_dest : Nat) : SafeError × (Nat → UInt8) → SafeError × (Nat → UInt8)
  | (.EOK, mem) => (.EOK, mem)
  | (error, mem) => (error, Function.update mem orig_dest 0)

/-- Source: `strcpy_s.c` `strcpy_s` -/
def strcpySAt (mem : Nat → UInt8) (dest dmax src : Nat) : SafeError × (Nat → UInt8) :=
  if dest = NULL then (.ESNULLP, mem)
  else if dmax = 0 then (.ESZEROL, mem)
  else if RSIZE_MAX_STR < dmax then (.ESLEMAX, mem)
  else if src = NULL then (.ESNULLP, Function.update mem dest 0)
  else if dest = src then (.EOK, mem)
  else if dest < src then handleError dest (copyLoop true src dmax none dest src mem)
  else handleError dest (copyLoop false dest dmax none dest src mem)

/-- Source: `strncpy_s.c` `strncpy_s` -/
def strncpySAt (mem : Nat → UInt8) (dest dmax src slen : Nat) : SafeError × (Nat → UInt8) :=
  if dest = NULL then (.ESNULLP, mem)
  else if dmax = 0 then (.ESZEROL, mem)
  else if RSIZE_MAX_STR < dmax then (.ESLEMAX, mem)
  else if src = NULL then (.ESNULLP, Function.update mem dest 0)
  else if slen = 0 then (.ESZEROL, Function.update mem dest 0)
  else if RSIZE_MAX_STR < slen then (.ESLEMAX, Function.update mem dest 0)
  else if dest < src then handleError dest (copyLoop true src dmax (some slen) dest src mem)
  else handleError dest (copyLoop false dest dmax (some slen) dest src mem)

/-! ## The loop -/

/-- The copy of a string from `src` on, bounded by `slen`, has `k` bytes before its NUL. -/
structure EndsAt (mem : Nat → UInt8) (src : Nat) (slen : Option Nat) (k : Nat) : Prop where
  before : ∀ j < k, mem (src + j) ≠ 0
  bounded : ∀ n, slen = some n → k ≤ n
  ends : slen = some k ∨ mem (src + k) = 0

/-- The distance of the two strings. -/
def gap (dest src : Nat) : Nat := if dest < src then src - dest else dest - src

section loop

variable {mem : Nat → UInt8} {dest src k : Nat} {slen : Option Nat}

/-- Below their distance what has been copied does not lie in what is to be copied. -/
theorem move_src_of_lt {i : Nat} (h : i < gap dest src) :
    move mem dest src i (src + i) = mem (src + i) := by
  unfold gap at h
  refine move_of_not_mem ?_
  split at h <;> omega

/-- The loop with `i` bytes copied ends with the NUL, or at the start of a string, or without room. -/
theorem copyLoop_eq (hends : EndsAt mem src slen k) (m : Nat) {i : Nat} (hik : i ≤ k)
    (hid : i ≤ gap dest src) :
    copyLoop (decide (dest < src)) (if dest < src then src else dest) m
        (slen.map fun slen => slen - i) (dest + i) (src + i) (move mem dest src i) =
      if k < i + m ∧ k < gap dest src then
        (.EOK, Function.update (move mem dest src k) (dest + k) 0)
      else if gap dest src < i + m ∧ gap dest src ≤ k then
        (.ESOVRLP, move mem dest src (gap dest src))
      else (.ESNOSPC, move mem dest src (i + m)) := by
  induction m generalizing i with
  | zero => rw [copyLoop, if_neg (by omega), if_neg (by omega), Nat.add_zero]
  | succ m ih =>
      have hbumper : ((if decide (dest < src) = true then dest + i else src + i) =
          if dest < src then src else dest) ↔ i = gap dest src := by
        unfold gap at hid ⊢
        by_cases hlt : dest < src
        · simp only [hlt, decide_true, if_true] at hid ⊢
          omega
        · simp only [hlt, decide_false, if_false, Bool.false_eq_true] at hid ⊢
          omega
      rw [copyLoop]
      by_cases hoverlap : i = gap dest src
      · rw [if_pos (hbumper.mpr hoverlap), if_neg (by omega), if_pos (by omega), ← hoverlap]
      rw [if_neg fun h => hoverlap (hbumper.mp h)]
      have hread : move mem dest src i (src + i) = mem (src + i) := move_src_of_lt (by omega)
      by_cases hbound : slen = some i
      · -- the bound is reached
        have hki : k = i := Nat.le_antisymm (hends.bounded i hbound) hik
        rw [hbound, Option.map_some, Nat.sub_self, if_pos rfl, if_pos (by omega), hki]
      have hmore : ¬ (slen.map fun slen => slen - i) = some 0 := by
        rintro h
        obtain ⟨n, hn, hzero⟩ := Option.map_eq_some_iff.mp h
        have hkn := hends.bounded n hn
        exact hbound (hn.trans (congrArg some (by omega)))
      rw [if_neg hmore]
      dsimp only
      rw [hread, Function.update_self, update_move]
      by_cases hnul : mem (src + i) = 0
      · have hki : k = i := by
          by_contra hne
          exact hends.before i (by omega) hnul
        rw [if_pos hnul, if_pos (by omega), hki, ← update_move, hnul]
      · have hlt : i < k := by
          rcases Nat.lt_or_ge i k with hlt | hge
          · exact hlt
          · obtain rfl : i = k := Nat.le_antisymm hik hge
            exact absurd (hends.ends.resolve_left hbound) hnul
        rw [if_neg hnul, Option.map_map]
        have hsub : (fun slen => slen - 1) ∘ (fun slen => slen - i) = fun slen : Nat => slen - (i + 1) := by
          funext n
          simp only [Function.comp_apply]
          omega
        have hrest := ih (i := i + 1) hlt (by omega)
        rw [hsub, Nat.add_assoc, Nat.add_assoc, hrest]
        have hroom : i + 1 + m = i + (m + 1) := by omega
        rw [hroom]

/-- The whole loop. -/
theorem copyLoop_start (hends : EndsAt mem src slen k) (dmax : Nat) :
    copyLoop (decide (dest < src)) (if dest < src then src else dest) dmax slen dest src mem =
      if k < dmax ∧ k < gap dest src then
        (.EOK, Function.update (move mem dest src k) (dest + k) 0)
      else if gap dest src < dmax ∧ gap dest src ≤ k then
        (.ESOVRLP, move mem dest src (gap dest src))
      else (.ESNOSPC, move mem dest src dmax) := by
  have hid : 0 ≤ gap dest src := Nat.zero_le _
  have hloop := copyLoop_eq hends dmax (Nat.zero_le k) hid
  simpa only [Nat.add_zero, move_zero, Nat.zero_add, Nat.sub_zero, Option.map_id'] using hloop

end loop

section spec

variable {mem : Nat → UInt8} {dest dmax src slen k : Nat} {bound : Option Nat}

/-- The functions keep what the loop leaves where it has come to the end, and empty the destination
otherwise. -/
theorem handleError_loop (hends : EndsAt mem src bound k) :
    (if dest < src then handleError dest (copyLoop true src dmax bound dest src mem)
      else handleError dest (copyLoop false dest dmax bound dest src mem)) =
      if k < dmax ∧ k < gap dest src then
        (.EOK, Function.update (move mem dest src k) (dest + k) 0)
      else if gap dest src < dmax ∧ gap dest src ≤ k then
        (.ESOVRLP, Function.update (move mem dest src (gap dest src)) dest 0)
      else (.ESNOSPC, Function.update (move mem dest src dmax) dest 0) := by
  have hone : (if dest < src then handleError dest (copyLoop true src dmax bound dest src mem)
      else handleError dest (copyLoop false dest dmax bound dest src mem)) =
      handleError dest (copyLoop (decide (dest < src)) (if dest < src then src else dest) dmax bound
        dest src mem) := by
    by_cases hlt : dest < src
    · simp only [hlt, if_true, decide_true]
    · simp only [hlt, if_false, decide_false]
  rw [hone, copyLoop_start hends]
  split
  · rfl
  split <;> rfl

/-- What the copy of a string with `k` bytes before its NUL returns and leaves, for any two places. -/
theorem strcpySAt_spec (hdest : dest ≠ NULL) (hpos : 0 < dmax) (hmax : dmax ≤ RSIZE_MAX_STR)
    (hsrc : src ≠ NULL) (hends : EndsAt mem src none k) :
    strcpySAt mem dest dmax src =
      if dest = src then (.EOK, mem)
      else if k < dmax ∧ k < gap dest src then (.EOK, move mem dest src (k + 1))
      else if gap dest src < dmax ∧ gap dest src ≤ k then
        (.ESOVRLP, Function.update (move mem dest src (gap dest src)) dest 0)
      else (.ESNOSPC, Function.update (move mem dest src dmax) dest 0) := by
  have hnul : mem (src + k) = 0 := hends.ends.resolve_left (by simp)
  have hcopied : Function.update (move mem dest src k) (dest + k) 0 = move mem dest src (k + 1) := by
    rw [← update_move, hnul]
  unfold strcpySAt
  rw [if_neg hdest, if_neg (Nat.pos_iff_ne_zero.mp hpos), if_neg (Nat.not_lt.mpr hmax), if_neg hsrc,
    handleError_loop hends, hcopied]

/-- What the bounded copy of a string returns and leaves, for any two places. -/
theorem strncpySAt_spec (hdest : dest ≠ NULL) (hpos : 0 < dmax) (hmax : dmax ≤ RSIZE_MAX_STR)
    (hsrc : src ≠ NULL) (hslen : 0 < slen) (hbound : slen ≤ RSIZE_MAX_STR)
    (hends : EndsAt mem src (some slen) k) :
    strncpySAt mem dest dmax src slen =
      if k < dmax ∧ k < gap dest src then
        (.EOK, Function.update (move mem dest src k) (dest + k) 0)
      else if gap dest src < dmax ∧ gap dest src ≤ k then
        (.ESOVRLP, Function.update (move mem dest src (gap dest src)) dest 0)
      else (.ESNOSPC, Function.update (move mem dest src dmax) dest 0) := by
  unfold strncpySAt
  rw [if_neg hdest, if_neg (Nat.pos_iff_ne_zero.mp hpos), if_neg (Nat.not_lt.mpr hmax), if_neg hsrc,
    if_neg (Nat.pos_iff_ne_zero.mp hslen), if_neg (Nat.not_lt.mpr hbound), handleError_loop hends]

end spec

/-! ## Strings in blocks -/

section blocks

variable {mem : Nat → UInt8} {dest dmax src slen n : Nat}

/-- There is a string of so many bytes before its NUL. -/
structure StringAt (mem : Nat → UInt8) (src len : Nat) : Prop where
  before : ∀ j < len, mem (src + j) ≠ 0
  nul : mem (src + len) = 0

/-- A terminated string ends where its NUL stands, for a copy without a limit. -/
theorem StringAt.endsAt {len : Nat} (h : StringAt mem src len) : EndsAt mem src none len :=
  ⟨h.before, by simp, .inr h.nul⟩

/-- With a limit the copy ends at the NUL or at the limit, whichever comes first. -/
theorem StringAt.endsAt_some {len : Nat} (h : StringAt mem src len) :
    EndsAt mem src (some slen) (min len slen) where
  before j hj := h.before j (by omega)
  bounded n hn := by
    obtain rfl := Option.some.inj hn
    exact Nat.min_le_right _ _
  ends := by
    rcases Nat.le_total len slen with hle | hle
    · rw [Nat.min_eq_left hle]
      exact .inr h.nul
    · rw [Nat.min_eq_right hle]
      exact .inl rfl

/-- What the loop over a list stores. -/
theorem strncpyLoop_eq (dmax : Nat) (text : List UInt8) (slen : Nat) :
    strncpyLoop dmax text slen =
      if min text.length slen < dmax then (true, text.take slen ++ [0]) else (false, text.take dmax) := by
  induction dmax generalizing text slen with
  | zero => simp [strncpyLoop]
  | succ dmax ih =>
      rcases slen with _ | slen
      · rw [strncpyLoop, if_pos (by omega)]
        simp
      rcases text with _ | ⟨b, text⟩
      · rw [strncpyLoop, if_pos (by simp)]
        simp
      · rw [strncpyLoop, ih]
        by_cases hroom : min text.length slen < dmax
        · rw [if_pos hroom, if_pos (by simp only [List.length_cons]; omega)]
          simp
        · rw [if_neg hroom, if_neg (by simp only [List.length_cons]; omega)]
          simp

/-- A byte is stored behind others. -/
theorem overwrite_concat {l bytes : List UInt8} (h : bytes.length < l.length) (b : UInt8) :
    overwrite l (bytes ++ [b]) = (bytes ++ l.drop bytes.length).set bytes.length b := by
  have hdrop : l.drop bytes.length = l[bytes.length] :: l.drop (bytes.length + 1) :=
    List.drop_eq_getElem_cons h
  rw [overwrite, hdrop, List.set_append_right _ _ (Nat.le_refl _), Nat.sub_self, List.set_cons_zero,
    List.length_append, List.length_singleton, List.append_assoc, List.singleton_append]

/-- An empty string is stored at the start. -/
theorem overwrite_nul {l : List UInt8} (hl : 0 < l.length) : overwrite l [0] = l.set 0 0 := by
  have hnil : ([] : List UInt8).length < l.length := hl
  exact overwrite_concat hnil 0

/-- `strncpy_s` over blocks of cells is what the function does with two places that are apart. So the
model of the copies that knows blocks of cells only is refined by the loop over addresses: a text may be
copied whole, cut or refused, and the cells behind it stay as they are, as no slack is cleared. -/
theorem strncpySAt_block {len : Nat} (mem : Nat → UInt8) (hdest : dest ≠ NULL) (hsrc : src ≠ NULL)
    (hdmax : dmax ≤ n) (hstring : StringAt mem src len)
    (hapart : dest + n ≤ src ∨ src + len + 1 ≤ dest) :
    block (strncpySAt mem dest dmax src slen).2 dest n =
        strncpy_s (block mem dest n) dmax (block mem src len) slen ∧
      ∀ a, a < dest ∨ dest + n ≤ a → (strncpySAt mem dest dmax src slen).2 a = mem a := by
  by_cases hvalid : dmax = 0 ∨ RSIZE_MAX_STR < dmax
  · have hkept : (strncpySAt mem dest dmax src slen).2 = mem := by
      unfold strncpySAt
      rw [if_neg hdest]
      rcases hvalid with hzero | hlarge
      · rw [if_pos hzero]
      · rw [if_neg (by omega), if_pos hlarge]
    rw [hkept, strncpy_s, if_pos hvalid]
    exact ⟨rfl, fun _ _ => rfl⟩
  obtain ⟨hpos, hmax⟩ := not_or.mp hvalid
  have hlength : 0 < (block mem dest n).length := by
    rw [length_block]
    omega
  by_cases hbound : slen = 0 ∨ RSIZE_MAX_STR < slen
  · have hemptied : (strncpySAt mem dest dmax src slen).2 = Function.update mem (dest + 0) 0 := by
      unfold strncpySAt
      rw [if_neg hdest, if_neg hpos, if_neg hmax, if_neg hsrc]
      rcases hbound with hzero | hlarge
      · rw [if_pos hzero, Nat.add_zero]
      · rw [if_neg (by omega), if_pos hlarge, Nat.add_zero]
    rw [hemptied, strncpy_s, if_neg hvalid, if_pos hbound, overwrite_nul hlength, block_update]
    exact ⟨rfl, fun a ha => Function.update_of_ne (by omega) _ _⟩
  obtain ⟨hslen, hslenMax⟩ := not_or.mp hbound
  rw [strncpySAt_spec hdest (by omega) (by omega) hsrc (by omega) (by omega) hstring.endsAt_some,
    strncpy_s, if_neg hvalid, if_neg hbound, strncpyLoop_eq, length_block]
  have hgap : dmax ≤ gap dest src ∨ len < gap dest src := by
    unfold gap
    split <;> omega
  by_cases hroom : min len slen < dmax
  · -- the string and a NUL
    rw [if_pos ⟨hroom, by omega⟩, if_pos hroom]
    refine ⟨?_, fun a ha => ?_⟩
    · dsimp only
      rw [block_update, block_move (by omega), take_block, overwrite_concat, length_block]
      rw [length_block, length_block]
      omega
    · dsimp only
      rw [Function.update_of_ne (by omega), move_of_not_mem (by omega)]
  · -- all of the room, and an empty string in the end
    rw [if_neg (by omega), if_neg (by omega), if_neg hroom]
    refine ⟨?_, fun a ha => ?_⟩
    · have hupdate : Function.update (move mem dest src dmax) dest (0 : UInt8) =
          Function.update (move mem dest src dmax) (dest + 0) 0 := by rw [Nat.add_zero]
      dsimp only
      rw [hupdate, block_update, block_move hdmax, take_block, Nat.min_eq_right (by omega),
        overwrite_nul, overwrite, length_block]
      rw [overwrite, List.length_append, length_block]
      omega
    · dsimp only
      rw [Function.update_of_ne (by omega), move_of_not_mem (by omega)]

/-- A string of five bytes is copied with room for four. -/
theorem strncpySAt_block_short :
    block (strncpySAt (fun a => if a = 205 then 0 else 1) 100 4 200 9).2 100 6 =
        strncpy_s (block (fun a => if a = 205 then 0 else 1) 100 6) 4
          (block (fun a => if a = 205 then 0 else 1) 200 5) 9 ∧
      ∀ a, a < 100 ∨ 106 ≤ a →
        (strncpySAt (fun a => if a = 205 then 0 else 1) 100 4 200 9).2 a = if a = 205 then 0 else 1 := by
  have hstring : StringAt (fun a => if a = 205 then 0 else 1) 200 5 := by
    refine ⟨fun j hj => ?_, rfl⟩
    rw [if_neg (by omega)]
    decide
  exact strncpySAt_block _ (by decide) (by decide) (by decide) hstring (by decide)

end blocks

end Irstessi
