import Irstessi.Characters
import Irstessi.Lib.Ends

/-!
# Trimming

`trim` looks for the left end forwards, and for the right end backwards through the bytes of the last
character.

* `utf8TrimLeftAt`, `utf8TrimRightAt`, `StringObject.trimText`: the functions on positions, where a byte
  behind the NUL that is read is a fault; `trimText_eq`: they do what the functions on pointers do.
* `isPadding`: a single-byte character that is white space or not printable.
* `utf8TrimLeft_flatten`, `utf8TrimRight_flatten`: where the ends of a row of characters are found.
* `TrimsEnds`: exactly the padding at both ends is removed, and trimming again changes nothing.
* **`trimsEnds`**: this holds for texts of whole characters.

On positions a byte behind the block is a fault; that none is read is what `trimText_eq` says beside the
result. On lists the ends of a text are those of its row of characters, each of which is padding as a
whole or not at all (`uniform_of_isSequence`). The loop from the right stops at the first byte that is
no padding, which may be one in the middle of a character, and goes on to the end of that character by
its length. For a text that is cut within a character this length leads behind the end, which is why the
theorem is about whole characters.
-/

namespace Irstessi

open Str Ends

/-! ## The functions on positions -/

section functions

variable (mem : List UInt8)

/-- Source: `string.cpp` `__utf8_skip_invalid_sequence` -/
def utf8SkipInvalidAt (p : Nat) : Except SearchFault Nat :=
  match _hload : load mem p with
  | .error fault => .error fault
  | .ok b =>
      if b = 0 then .ok p
      else if utf8SequenceType b ≠ 0 then .ok p
      else utf8SkipInvalidAt (p + 1)
termination_by mem.length - p
decreasing_by
  have hlt := lt_of_load mem _hload
  omega

/-- Skipping invalid bytes goes forward. -/
theorem le_of_utf8SkipInvalidAt {p q : Nat} (h : utf8SkipInvalidAt mem p = .ok q) : p ≤ q := by
  induction hn : mem.length - p using Nat.strongRec generalizing p with
  | _ n ih =>
      rw [utf8SkipInvalidAt] at h
      split at h
      next => simp at h
      next b hload =>
        have hlt := lt_of_load mem hload
        split_ifs at h with hzero htype
        · exact (Except.ok.inj h).le
        · exact (Except.ok.inj h).le
        · exact Nat.le_of_succ_le (ih (mem.length - (p + 1)) (by omega) h rfl)

/-- A single byte is skipped. At a byte that begins no sequence the skipping throws, and so it is skipped
as invalid, with those behind it.
Source: `string.cpp` `__utf8_trim_left` -/
def utf8TrimLeftAt (p : Nat) : Except SearchFault Nat :=
  match _hload : load mem p with
  | .error fault => .error fault
  | .ok b =>
      if b = 0 then .ok p
      else if utf8SequenceType b = 1 then
        if isSpace b = false ∧ isPrint b then .ok p else utf8TrimLeftAt (p + 1)
      else if utf8SequenceType b ≠ 0 then .ok p
      else
        match _hskip : utf8SkipInvalidAt mem (p + 1) with
        | .error fault => .error fault
        | .ok p => utf8TrimLeftAt p
termination_by mem.length - p
decreasing_by
  · have hlt := lt_of_load mem _hload
    omega
  · have hlt := lt_of_load mem _hload
    have hle := le_of_utf8SkipInvalidAt mem _hskip
    omega

/-- The loop of `__utf8_trim_right` with `count` continuation bytes passed; it stops at the first byte
unread. -/
def utf8TrimRightLoopAt (p count : Nat) : Except SearchFault Nat :=
  match p with
  | 0 => .ok 0
  | p + 1 =>
      (load mem (p + 1)).bind fun b =>
        if b < 0x7f then
          if isSpace b = false ∧ isPrint b then .ok (p + 1) else utf8TrimRightLoopAt p count
        else if IsContinuation b then utf8TrimRightLoopAt p (count + 1)
        else if (b >>> 5 = 0x06 ∧ count = 1) ∨ (b >>> 4 = 0x0e ∧ count = 2) ∨
            (b >>> 3 = 0x1e ∧ count = 3) then .ok (p + 1)
        else utf8TrimRightLoopAt p 0

/-- Source: `string.cpp` `__utf8_trim_right` -/
def utf8TrimRightAt : Except SearchFault Nat := do
  let p ← utf8OffsetAt mem 0 uintMax
  let p ← utf8TrimRightLoopAt mem (if p ≠ 0 then p - 1 else p) 0
  match utf8SkipSequenceAt mem p with
  | .ok p => pure p
  | .error .beyond => .error .beyond
  | .error _ => pure 0

end functions

/-- The constructor walks over the text at `p`, up to its NUL.
Source: `string.cpp` `String::trim` -/
def StringObject.trimText (s : StringObject) (junk : Nat → UInt8) :
    Except SearchFault (Option StringObject) := do
  let p ← utf8TrimLeftAt s.cells 0
  let t ← utf8TrimRightAt s.cells
  let count ← utf8LengthAt s.cells p (toUnsigned (2 ^ 32 + t - p))
  pure ((new.assign junk (some (cstring (s.cells.drop p))) count).bind fun trimmed =>
    s.assign junk (some trimmed.text) uintMax)

/-! ## Positions and pointers -/

/-- One round of the skipping, by what stands at the pointer. -/
theorem utf8SkipInvalidAt_of_load {mem : List UInt8} {p : Nat} {b : UInt8} (hload : load mem p = .ok b) :
    utf8SkipInvalidAt mem p =
      if b = 0 then .ok p
      else if utf8SequenceType b ≠ 0 then .ok p
      else utf8SkipInvalidAt mem (p + 1) := by
  rw [utf8SkipInvalidAt]
  split
  next h => simp [hload] at h
  next b' h => rw [Except.ok.inj (h.symm.trans hload)]

/-- One round of the trimming from the left, by what stands at the pointer. -/
theorem utf8TrimLeftAt_of_load {mem : List UInt8} {p : Nat} {b : UInt8} (hload : load mem p = .ok b) :
    utf8TrimLeftAt mem p =
      if b = 0 then .ok p
      else if utf8SequenceType b = 1 then
        if isSpace b = false ∧ isPrint b then .ok p else utf8TrimLeftAt mem (p + 1)
      else if utf8SequenceType b ≠ 0 then .ok p
      else (utf8SkipInvalidAt mem (p + 1)).bind (utf8TrimLeftAt mem) := by
  rw [utf8TrimLeftAt]
  split
  next h => simp [hload] at h
  next b' h =>
    obtain rfl := Except.ok.inj (h.symm.trans hload)
    split_ifs
    · rfl
    · rfl
    · rfl
    · rfl
    · split
      next hskip =>
        rw [hskip]
        rfl
      next hskip =>
        rw [hskip]
        rfl

section pointers

variable {bytes q : List UInt8}

/-- Skipping invalid bytes first makes no difference to the trimming. -/
theorem utf8TrimLeft_dropWhile (q : List UInt8) :
    utf8TrimLeft (q.dropWhile fun b => utf8SequenceType b = 0) = utf8TrimLeft q := by
  induction q with
  | nil => rfl
  | cons b q ih =>
      rw [List.dropWhile_cons]
      by_cases htype : utf8SequenceType b = 0
      · rw [if_pos (by simpa using htype), ih, utf8TrimLeft, if_neg (by omega), if_neg (not_not.mpr htype)]
      · rw [if_neg (by simpa using htype)]

/-- The loop from the right reads the bytes and the NUL only, and does on memory what it does on the
list. -/
theorem utf8TrimRightLoopAt_eq {i : Nat} (hi : i ≤ bytes.length) (count : Nat) :
    utf8TrimRightLoopAt (bytes ++ [0]) i count = .ok (utf8TrimRightLoop bytes i count) := by
  induction i generalizing count with
  | zero => rfl
  | succ i ih =>
      have hloop := ih (by omega)
      rw [utf8TrimRightLoopAt, load_eq hi, utf8TrimRightLoop]
      change (if _ then _ else _) = _
      split_ifs
      · rfl
      · exact hloop count
      · exact hloop (count + 1)
      · rfl
      · exact hloop 0

variable (hne : ∀ b ∈ bytes, b ≠ 0)

include hne

/-- The bytes that begin no sequence are skipped. -/
theorem utf8SkipInvalidAt_distance (hq : q <:+ bytes) :
    utf8SkipInvalidAt (bytes ++ [0]) (distance bytes q) =
      .ok (distance bytes (q.dropWhile fun b => utf8SequenceType b = 0)) := by
  induction q with
  | nil =>
      rw [utf8SkipInvalidAt_of_load (load_distance hq)]
      rfl
  | cons b q ih =>
      have hb : b ≠ 0 := hne b (hq.mem List.mem_cons_self)
      have hload : load (bytes ++ [0]) (distance bytes (b :: q)) = .ok b := load_distance hq
      rw [utf8SkipInvalidAt_of_load hload, if_neg hb, distance_cons hq, List.dropWhile_cons]
      by_cases htype : utf8SequenceType b = 0
      · rw [if_neg (not_not.mpr htype), if_pos (by simpa using htype)]
        exact ih ((List.suffix_cons b q).trans hq)
      · rw [if_pos htype, if_neg (by simpa using htype)]

/-- `__utf8_trim_left` reads nothing behind the NUL and returns the pointer of `utf8TrimLeft`. -/
theorem utf8TrimLeftAt_distance (hq : q <:+ bytes) :
    utf8TrimLeftAt (bytes ++ [0]) (distance bytes q) = .ok (distance bytes (utf8TrimLeft q)) := by
  induction hn : q.length using Nat.strongRec generalizing q with
  | _ n ih =>
      cases q with
      | nil =>
          rw [utf8TrimLeftAt_of_load (load_distance hq)]
          rfl
      | cons b q =>
          have hb : b ≠ 0 := hne b (hq.mem List.mem_cons_self)
          have htail : q <:+ bytes := (List.suffix_cons b q).trans hq
          have hload : load (bytes ++ [0]) (distance bytes (b :: q)) = .ok b := load_distance hq
          rw [List.length_cons] at hn
          rw [utf8TrimLeftAt_of_load hload, if_neg hb, utf8TrimLeft, distance_cons hq]
          by_cases hone : utf8SequenceType b = 1
          · rw [if_pos hone, if_pos hone]
            by_cases hink : isSpace b = false ∧ isPrint b = true
            · rw [if_pos hink, if_pos hink]
            · rw [if_neg hink, if_neg hink]
              exact ih q.length (by omega) htail rfl
          · rw [if_neg hone, if_neg hone]
            by_cases htype : utf8SequenceType b = 0
            · have hdrop := List.dropWhile_suffix (fun b => decide (utf8SequenceType b = 0)) (l := q)
              have hle := hdrop.length_le
              rw [if_neg (not_not.mpr htype), if_neg (not_not.mpr htype),
                utf8SkipInvalidAt_distance hne htail, ← utf8TrimLeft_dropWhile q]
              exact ih _ (by omega) (hdrop.trans htail) rfl
            · rw [if_pos htype, if_pos htype]

end pointers

/-- The loop from the right only goes down. -/
theorem utf8TrimRightLoop_le (buf : List UInt8) (i count : Nat) : utf8TrimRightLoop buf i count ≤ i := by
  induction i generalizing count with
  | zero => exact Nat.zero_le _
  | succ i ih =>
      rw [utf8TrimRightLoop]
      split_ifs
      · exact le_rfl
      · exact Nat.le_succ_of_le (ih count)
      · exact Nat.le_succ_of_le (ih (count + 1))
      · exact le_rfl
      · exact Nat.le_succ_of_le (ih 0)

/-- Trimming makes a text no longer. -/
theorem length_utf8TrimRight_le (buf : List UInt8) : (utf8TrimRight buf).length ≤ buf.length := by
  unfold utf8TrimRight
  obtain ⟨i, hi⟩ : ∃ i, i = utf8TrimRightLoop buf (distance buf (utf8Offset buf (npos buf)) - 1) 0 :=
    ⟨_, rfl⟩
  have hle := (List.drop_suffix i buf).length_le
  rw [← hi]
  dsimp only
  rcases hdrop : buf.drop i with _ | ⟨b, q⟩
  · exact Nat.zero_le _
  · rcases hskip : utf8SkipSequence (b :: q) with _ | p
    · exact le_rfl
    · rw [hdrop] at hle
      exact (suffix_of_utf8SkipSequence hskip).1.length_le.trans hle

namespace StringObject.Valid

variable {s : StringObject} (h : s.Valid)

include h

/-- `__utf8_trim_right` reads nothing behind the NUL and returns the pointer of `utf8TrimRight`; at an
empty text it goes one byte on. -/
theorem utf8TrimRightAt_cells :
    utf8TrimRightAt s.cells =
      .ok (if s.bytes = [] then 1 else distance s.bytes (utf8TrimRight s.bytes)) := by
  have hend : utf8Offset s.bytes uintMax = utf8Offset s.bytes (npos s.bytes) :=
    utf8Offset_eq_of_le h.length_lt.le
  obtain ⟨i, hi⟩ : ∃ i, i = distance s.bytes (utf8Offset s.bytes (npos s.bytes)) := ⟨_, rfl⟩
  have hle : i - 1 ≤ s.bytes.length := hi ▸ (Nat.sub_le _ 1).trans (distance_le _ _)
  have hpred : (if i ≠ 0 then i - 1 else i) = i - 1 := by
    split <;> omega
  unfold utf8TrimRightAt
  rw [h.utf8OffsetAt_cells, hend, ← hi]
  change (utf8TrimRightLoopAt s.cells (if i ≠ 0 then i - 1 else i) 0).bind _ = _
  rw [hpred, h.cells_eq, utf8TrimRightLoopAt_eq hle, Except.bind]
  have hloop := utf8TrimRightLoop_le s.bytes (i - 1) 0
  by_cases hnil : s.bytes = []
  · have hzero : utf8TrimRightLoop s.bytes (i - 1) 0 = 0 := by
      rw [hnil, List.length_nil] at hle
      omega
    rw [hzero, if_pos hnil, hnil]
    rfl
  · have hlt : utf8TrimRightLoop s.bytes (i - 1) 0 < s.bytes.length := by
      have hpos := List.length_pos_iff.mpr hnil
      have hdistance := distance_le s.bytes (utf8Offset s.bytes (npos s.bytes))
      omega
    obtain ⟨b, q, hq⟩ := List.exists_cons_of_ne_nil
      (List.length_pos_iff.mp (List.length_drop.symm ▸ Nat.sub_pos_of_lt hlt))
    have hsuffix : b :: q <:+ s.bytes := hq ▸ List.drop_suffix _ _
    have hposition : utf8TrimRightLoop s.bytes (i - 1) 0 = distance s.bytes (b :: q) := by
      rw [← hq, distance, List.length_drop]
      omega
    rw [if_neg hnil, utf8TrimRight, ← hi, hq, hposition, utf8SkipSequenceAt_distance hsuffix]
    rcases utf8SkipSequence (b :: q) with _ | p
    · rw [Option.getD_none, distance_self]
      rfl
    · rfl

/-- `trim` reads nothing behind the NUL. -/
theorem trimText_eq (junk : Nat → UInt8) : s.trimText junk = .ok (s.trim junk) := by
  have hsuffix := utf8TrimLeft_suffix s.bytes
  obtain ⟨u, hu⟩ := utf8TrimLeft_suffix s.bytes
  have hleft := utf8TrimLeftAt_distance h.ne_zero (List.suffix_refl s.bytes)
  rw [distance_self, ← h.cells_eq] at hleft
  have htext : cstring (s.cells.drop (distance s.bytes (utf8TrimLeft s.bytes))) =
      utf8TrimLeft s.bytes := by
    have hne : ∀ b ∈ utf8TrimLeft s.bytes, b ≠ 0 := fun b hb => h.ne_zero b (hsuffix.mem hb)
    have hdrop : s.cells.drop (distance s.bytes (utf8TrimLeft s.bytes)) = utf8TrimLeft s.bytes ++ [0] := by
      rw [h.cells_eq]
      nth_rewrite 1 3 [← hu]
      rw [distance_append, List.append_assoc, List.drop_left]
    rw [hdrop]
    exact cstring_append_nul hne []
  have hcount (count : Nat) : utf8LengthAt s.cells (distance s.bytes (utf8TrimLeft s.bytes)) count =
      .ok (utf8Length (utf8TrimLeft s.bytes) count) := by
    rw [h.cells_eq]
    exact utf8LengthAt_distance h.ne_zero hsuffix le_rfl count
  unfold trimText
  rw [hleft]
  change (utf8TrimRightAt s.cells).bind _ = _
  rw [h.utf8TrimRightAt_cells]
  change (utf8LengthAt s.cells _ _).bind _ = _
  rw [hcount, htext]
  change Except.ok _ = _
  unfold StringObject.trim
  dsimp only
  rw [h.text_eq]
  by_cases hnil : s.bytes = []
  · rw [hnil]
    rfl
  · have hle := hsuffix.length_le
    have hlength := h.length_lt
    have hright := length_utf8TrimRight_le s.bytes
    have hdistance : 2 ^ 32 + distance s.bytes (utf8TrimRight s.bytes) -
        distance s.bytes (utf8TrimLeft s.bytes) =
          2 ^ 32 + (utf8TrimLeft s.bytes).length - (utf8TrimRight s.bytes).length := by
      unfold distance
      unfold uintMax at hlength
      omega
    rw [if_neg hnil, hdistance]

end StringObject.Valid

/-! ## Padding -/

/-- A single-byte character that is white space or not printable. -/
def isPadding (b : UInt8) : Bool := b < 0x7f && (isSpace b || !isPrint b)

/-- No byte of a character of several bytes is padding. -/
theorem isPadding_of_not_lt {b : UInt8} (hb : ¬ b < 0x7f) : isPadding b = false := by
  simp [isPadding, hb]

/-- A single byte is padding iff it is a blank or cannot be printed. -/
theorem isPadding_iff {b : UInt8} (hb : b < 0x7f) :
    isPadding b = true ↔ ¬ (isSpace b = false ∧ isPrint b = true) := by
  rw [isPadding, decide_eq_true hb, Bool.true_and]
  cases isSpace b <;> cases isPrint b <;> decide

/-- A character of one byte is below U+007F. -/
theorem lt_of_utf8SequenceType {b : UInt8} (h : utf8SequenceType b = 1) : b < 0x7f := by
  by_contra hb
  unfold utf8SequenceType at h
  rw [if_neg hb] at h
  split_ifs at h <;> omega

/-- What the loop asks of the first byte of a longer sequence. -/
theorem lead_of_utf8SequenceType {b : UInt8} {n : Nat} (h : utf8SequenceType b = n + 1)
    (hb : ¬ b < 0x7f) :
    (b >>> 5 = 0x06 ∧ n = 1) ∨ (b >>> 4 = 0x0e ∧ n = 2) ∨ (b >>> 3 = 0x1e ∧ n = 3) := by
  unfold utf8SequenceType at h
  split_ifs at h with htwo hthree hfour
  · exact .inl ⟨htwo, by omega⟩
  · exact .inr (.inl ⟨hthree, by omega⟩)
  · exact .inr (.inr ⟨hfour, by omega⟩)

/-- A character is padding as a whole or has none in it. -/
theorem uniform_of_isSequence {c : List UInt8} (hc : IsSequence c) : Uniform isPadding c := by
  refine ⟨hc.ne_nil, ?_⟩
  obtain ⟨b, t, rfl, htype, ht⟩ := hc
  by_cases hb : b < 0x7f
  · obtain rfl : t = [] := IsSequence.eq_singleton hb ⟨b, t, rfl, htype, ht⟩
    cases hpadding : isPadding b with
    | true => exact .inl (by simpa using hpadding)
    | false => exact .inr (by simpa using hpadding)
  · refine .inr (List.forall_mem_cons.mpr ⟨isPadding_of_not_lt hb, fun x hx => ?_⟩)
    exact isPadding_of_not_lt fun hlt => not_isContinuation_of_lt hlt (ht x hx)

/-! ## The ends of a row of characters -/

/-- The left end is found behind the padding. -/
theorem utf8TrimLeft_flatten {L : List (List UInt8)} (hL : ∀ c ∈ L, IsSequence c) :
    utf8TrimLeft L.flatten = (L.dropWhile (·.all isPadding)).flatten := by
  rw [← dropWhile_flatten fun c hc => uniform_of_isSequence (hL c hc)]
  induction L with
  | nil => rfl
  | cons c L ih =>
      have hrest := ih fun d hd => hL d (List.mem_cons_of_mem _ hd)
      have hc := hL c List.mem_cons_self
      obtain ⟨b, t, rfl, htype, -⟩ := id hc
      rw [List.flatten_cons, List.cons_append, utf8TrimLeft, List.dropWhile_cons]
      by_cases hb : b < 0x7f
      · obtain rfl := hc.eq_singleton hb
        rw [if_pos (utf8SequenceType_of_lt hb), List.nil_append]
        by_cases hink : isSpace b = false ∧ isPrint b = true
        · rw [if_pos hink, if_neg fun h => (isPadding_iff hb).mp h hink]
        · rw [if_neg hink, if_pos ((isPadding_iff hb).mpr hink), hrest]
      · have hone : utf8SequenceType b ≠ 1 := fun h => hb (lt_of_utf8SequenceType h)
        rw [if_neg hone, if_pos (by omega), isPadding_of_not_lt hb, if_neg (by simp)]

section loop

variable {buf u v : List UInt8} {b : UInt8}

/-- The byte at which the loop looks. -/
theorem utf8TrimRightLoop_of_ne (hu : u ≠ []) (h : u ++ [b] <+: buf) (count : Nat) :
    utf8TrimRightLoop buf u.length count =
      if b < 0x7f then
        if isSpace b = false ∧ isPrint b then u.length else utf8TrimRightLoop buf (u.length - 1) count
      else if IsContinuation b then utf8TrimRightLoop buf (u.length - 1) (count + 1)
      else if (b >>> 5 = 0x06 ∧ count = 1) ∨ (b >>> 4 = 0x0e ∧ count = 2) ∨
          (b >>> 3 = 0x1e ∧ count = 3) then u.length
      else utf8TrimRightLoop buf (u.length - 1) 0 := by
  obtain ⟨w, rfl⟩ := h
  have hget : (u ++ [b] ++ w).getD u.length 0 = b := by simp
  obtain ⟨i, hi⟩ : ∃ i, u.length = i + 1 := ⟨u.length - 1, by have := List.length_pos_iff.mpr hu; omega⟩
  rw [hi] at hget ⊢
  rw [utf8TrimRightLoop, hget]
  rfl

/-- Downwards, padding is passed. -/
theorem utf8TrimRightLoop_padding (hv : ∀ b ∈ v, isPadding b = true) (h : u ++ v <+: buf) (count : Nat) :
    utf8TrimRightLoop buf ((u ++ v).length - 1) count =
      utf8TrimRightLoop buf (u.length - 1) count := by
  induction v using List.reverseRecOn with
  | nil => rw [List.append_nil]
  | append_singleton v b ih =>
      rw [← List.append_assoc] at h ⊢
      have hrest := ih (fun c hc => hv c (List.mem_append_left _ hc)) ((List.prefix_append _ _).trans h)
      rw [List.length_append, List.length_singleton, Nat.add_sub_cancel, ← hrest]
      have hpadding := hv b (List.mem_append_right _ List.mem_cons_self)
      have hb : b < 0x7f := by
        by_contra hb
        simp [isPadding_of_not_lt hb] at hpadding
      by_cases hnil : u ++ v = []
      · rw [hnil]
        rfl
      · rw [utf8TrimRightLoop_of_ne hnil h, if_pos hb, if_neg ((isPadding_iff hb).mp hpadding)]

/-- Downwards, continuation bytes are passed and counted. -/
theorem utf8TrimRightLoop_continuation (hv : ∀ b ∈ v, IsContinuation b) (h : u ++ v <+: buf) (hu : u ≠ [])
    (count : Nat) : utf8TrimRightLoop buf ((u ++ v).length - 1) count =
      utf8TrimRightLoop buf (u.length - 1) (count + v.length) := by
  induction v using List.reverseRecOn generalizing count with
  | nil => rw [List.append_nil, List.length_nil, Nat.add_zero]
  | append_singleton v b ih =>
      rw [← List.append_assoc] at h ⊢
      have hrest := ih (fun c hc => hv c (List.mem_append_left _ hc)) ((List.prefix_append _ _).trans h)
        (count + 1)
      have hcontinuation := hv b (List.mem_append_right _ List.mem_cons_self)
      have hb : ¬ b < 0x7f := fun hlt => not_isContinuation_of_lt hlt hcontinuation
      rw [List.length_append, List.length_singleton, Nat.add_sub_cancel,
        utf8TrimRightLoop_of_ne (by simp [hu]) h, if_neg hb, if_pos hcontinuation, hrest,
        List.length_append, List.length_singleton, Nat.add_right_comm, Nat.add_assoc]

/-- The loop ends at the first byte of the last character that is no padding. -/
theorem utf8TrimRightLoop_isSequence {c : List UInt8} (hc : IsSequence c)
    (hpadding : ¬ c.all isPadding = true) (h : u ++ c <+: buf) :
    utf8TrimRightLoop buf ((u ++ c).length - 1) 0 = u.length := by
  obtain ⟨b, t, rfl, htype, ht⟩ := id hc
  by_cases hb : b < 0x7f
  · obtain rfl := hc.eq_singleton hb
    have hink : isSpace b = false ∧ isPrint b = true := by
      by_contra hnot
      exact hpadding (by simpa using (isPadding_iff hb).mpr hnot)
    obtain ⟨w, rfl⟩ := h
    rw [List.length_append, List.length_singleton, Nat.add_sub_cancel, List.append_assoc]
    exact utf8TrimRightLoop_of_isInk ⟨hb, hink⟩ 0
  · have hcut : u ++ b :: t = (u ++ [b]) ++ t := by simp
    rw [hcut] at h ⊢
    rw [utf8TrimRightLoop_continuation ht h (by simp), List.length_append, List.length_singleton,
      Nat.add_sub_cancel, Nat.zero_add]
    by_cases hu : u = []
    · subst hu
      rfl
    · have hfirst : ¬ IsContinuation b := not_isContinuation_of_sequenceType (by omega)
      rw [utf8TrimRightLoop_of_ne hu ((List.prefix_append _ t).trans h), if_neg hb, if_neg hfirst,
        if_pos (lead_of_utf8SequenceType htype hb)]

end loop

/-- The right end is found behind the last character that is no padding. -/
theorem utf8TrimRight_flatten {A V : List (List UInt8)} {c : List UInt8}
    (hL : ∀ d ∈ A ++ c :: V, IsSequence d) (hc : ¬ c.all isPadding = true)
    (hV : ∀ d ∈ V, d.all isPadding = true) :
    utf8TrimRight (A ++ c :: V).flatten = V.flatten := by
  have hbytes : (A ++ c :: V).flatten = A.flatten ++ c ++ V.flatten := by simp
  have hsequence := hL c (by simp)
  have hall : ∀ b ∈ V.flatten, isPadding b = true := by
    intro b hb
    obtain ⟨d, hd, hb⟩ := List.mem_flatten.mp hb
    exact List.all_eq_true.mp (hV d hd) b hb
  unfold utf8TrimRight
  rw [distance_utf8Offset_npos ⟨_, hL, rfl⟩, hbytes, utf8TrimRightLoop_padding hall (List.prefix_refl _),
    utf8TrimRightLoop_isSequence hsequence hc (List.prefix_append _ _)]
  dsimp only
  rw [List.append_assoc, List.drop_left, utf8SkipSequence_append hsequence, Option.getD_some]

/-! ## Main result -/

/-- The text without the padding at both ends. -/
def stripped (text : List UInt8) : List UInt8 := ends isPadding text

/-- Exactly the padding at both ends is removed, a text of padding becomes empty, nothing behind the NUL
is read, and trimming again changes nothing. -/
def StringObject.TrimsEnds (t : StringObject) (junk junk' : Nat → UInt8) : Prop :=
  ∃ s s', t.trimText junk = .ok (some s) ∧ s.trimText junk' = .ok (some s') ∧
    s.text = stripped t.text ∧ ((∀ b ∈ t.text, isPadding b) → s.text = []) ∧ s'.text = s.text

section row

variable {t : StringValue} {L : List (List UInt8)} (hL : Row t L)

include hL

/-- The bytes of one character are all padding or none of them is, so that no character is cut by the
trimming. -/
theorem Row.uniform : ∀ c ∈ L, Uniform isPadding c := fun c hc => uniform_of_isSequence (hL.sequences c hc)

/-- The distance of the ends, which is negative for some texts of padding, counts the characters between
them. -/
theorem Row.utf8Length_trim :
    utf8Length (utf8TrimLeft t.object.text) (toUnsigned (2 ^ 32 +
      (utf8TrimLeft t.object.text).length - (utf8TrimRight t.object.text).length)) =
        (ends (·.all isPadding) L).length := by
  have hlength := t.valid.length_lt
  have hbytes : t.object.bytes = L.flatten := hL.flatten
  have hcut := List.takeWhile_append_dropWhile (p := (·.all isPadding)) (l := L)
  rw [hL.text_eq, utf8TrimLeft_flatten hL.sequences]
  rcases ends_cases (·.all isPadding) L with ⟨hends, hdrop⟩ | ⟨M, c, V, hends, hc, hV, hdrop⟩
  · rw [hends, hdrop]
    rfl
  · rw [hdrop, ← List.append_assoc] at hcut
    have hsequences : ∀ d ∈ M ++ c :: V, IsSequence d := by
      intro d hd
      rw [← hdrop] at hd
      exact hL.sequences d ((List.dropWhile_suffix _).mem hd)
    have hright : utf8TrimRight L.flatten = V.flatten := by
      nth_rewrite 1 [← hcut]
      exact utf8TrimRight_flatten (by rw [hcut]; exact hL.sequences) hc hV
    have hrow : M ++ c :: V = (M ++ [c]) ++ V := by simp
    have hcount : toUnsigned (2 ^ 32 + (M ++ c :: V).flatten.length - V.flatten.length) =
        startOf (M ++ c :: V) (M ++ [c]).length := by
      rw [startOf_left hrow, hrow, List.flatten_append, List.length_append, ← Nat.add_assoc,
        Nat.add_sub_cancel, toUnsigned, Nat.add_mod_left, Nat.mod_eq_of_lt]
      have hall := congrArg (fun R => R.flatten.length) hcut
      simp only [List.flatten_append, List.flatten_cons, List.length_append] at hall
      rw [hbytes, ← hall] at hlength
      rw [List.flatten_append, List.flatten_singleton, List.length_append]
      unfold uintMax at hlength
      omega
    have hwalk := utf8Length_startOf hsequences (.inl rfl) (M ++ [c]).length
    rw [List.append_nil] at hwalk
    rw [hdrop, hright, hcount, hwalk, hends]
    exact Nat.min_eq_left (by simp)

/-- What stands between the ends is assigned. -/
theorem Row.exists_trim (junk : Nat → UInt8) :
    ∃ s, t.object.trim junk = some s ∧ s.Valid ∧ s.bytes = (ends (·.all isPadding) L).flatten := by
  obtain ⟨P, hP⟩ : ∃ P, P = L.dropWhile (·.all isPadding) := ⟨_, rfl⟩
  obtain ⟨M, hM⟩ : ∃ M, M = ends (·.all isPadding) L := ⟨_, rfl⟩
  have hsuffix : P <:+ L := hP ▸ List.dropWhile_suffix _
  have hfront : M <+: P := by
    rw [hM, hP]
    exact List.rdropWhile_prefix _ _
  have hPL : ∀ c ∈ P, c ∈ L := fun c hc => hsuffix.mem hc
  have hML : ∀ c ∈ M, c ∈ L := fun c hc => hPL c (hfront.mem hc)
  have hlength : L.flatten.length < uintMax := hL.flatten ▸ t.valid.length_lt
  have hlengthP : P.flatten.length < uintMax := hsuffix.sublist.flatten.length_le.trans_lt hlength
  have hlengthM : M.flatten.length < uintMax := hfront.sublist.flatten.length_le.trans_lt hlengthP
  obtain ⟨r, hassign, hvalid, hbytes⟩ := exists_assign (fun c hc => hL.sequences c (hPL c hc))
    StringObject.allocated_new junk (fun c hc => hL.ne_zero c (hPL c hc)) hlengthP M.length
  rw [← List.prefix_iff_eq_take.mp hfront] at hbytes
  obtain ⟨s, hassign', hvalid', hbytes'⟩ := exists_assign (fun c hc => hL.sequences c (hML c hc))
    t.valid.allocated junk (fun c hc => hL.ne_zero c (hML c hc)) hlengthM uintMax
  rw [List.take_of_length_le
    ((hfront.length_le.trans hsuffix.length_le).trans hL.length_lt.le)] at hbytes'
  refine ⟨s, ?_, hvalid', hM ▸ hbytes'⟩
  rw [StringObject.trim, hL.utf8Length_trim, hL.text_eq, utf8TrimLeft_flatten hL.sequences, ← hP, ← hM, hassign,
    Option.bind_some, hvalid.text_eq, hbytes]
  exact hassign'

end row

/-- Trimming a string value returns a string value, with the padding stripped from both ends of its
text. -/
theorem StringValue.exists_trim (t : StringValue) (junk : Nat → UInt8) :
    ∃ s : StringValue, t.object.trim junk = some s.object ∧
      s.object.text = stripped t.object.text := by
  obtain ⟨L, hL⟩ := t.exists_row
  obtain ⟨s, htrim, hvalid, hbytes⟩ := hL.exists_trim junk
  have hwell : WellFormed s.bytes := by
    refine ⟨_, fun c hc => hL.sequences c ?_, hbytes⟩
    exact (List.dropWhile_suffix _).mem ((List.rdropWhile_prefix _ _).mem hc)
  refine ⟨⟨s, hvalid, hwell⟩, htrim, ?_⟩
  dsimp only
  rw [hvalid.text_eq, hbytes, hL.text_eq, stripped, ends_flatten hL.uniform]

/-- For all strings with texts of whole characters, trimming removes exactly the padding at both ends,
reads nothing behind the NUL, and changes nothing the second time. Padding is a single-byte character
that is white space or not printable; characters of several bytes are never removed, and never cut. -/
theorem trimsEnds (t : StringValue) (junk junk' : Nat → UInt8) : t.object.TrimsEnds junk junk' := by
  obtain ⟨s, htrim, htext⟩ := t.exists_trim junk
  obtain ⟨s', htrim', htext'⟩ := s.exists_trim junk'
  refine ⟨s.object, s'.object, ?_, ?_, htext, fun hall => ?_, ?_⟩
  · rw [t.valid.trimText_eq, htrim]
  · rw [s.valid.trimText_eq, htrim']
  · rw [htext]
    exact (ends_eq_nil_iff isPadding).mpr hall
  · rw [htext', htext]
    exact ends_ends isPadding _

/-- Half a character is trimmed off "a". -/
theorem not_trimsEnds_cutString :
    ¬ ∀ (t : PlainString) (junk junk' : Nat → UInt8), t.TrimsEnds junk junk' := by
  intro h
  obtain ⟨s, _, htrim, -, htext, -⟩ := h cutString (fun _ => 0) (fun _ => 0)
  have hvalid : cutString.Valid := cutString.valid
  rw [hvalid.trimText_eq] at htrim
  have htrim' : cutString.trim (fun _ => 0) = some ⟨[97, 0, 0], 1, 1, 3⟩ := by decide +kernel
  obtain rfl := Option.some.inj ((Except.ok.inj htrim).symm.trans htrim')
  exact absurd htext (by decide +kernel)

end Irstessi
