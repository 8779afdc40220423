import Irstessi.Occurrences
import Mathlib.Data.FinEnum
import Mathlib.Data.List.GetD

/-!
# Scans that end within a buffer

A conversion of a number and the walk over characters are given a pointer, and read on until something
stops them. In a block of memory that the text does not fill, they stop within the text or read on in
what is left of the block, and perhaps behind it.

* `Str.numeralEnds`: a numeral ends within the bytes; `numeral_append_of_ends`: nothing behind them
  matters.
* `utf8OffsetStays`: the walk stays in the block.
* `Unsettled`: the walk reads on behind the bytes; `takenText_append_of_settled`, `exists_longer`:
  whether what is behind them matters.

Both kinds of scan are given by lists of bytes, and the question is whether the bytes behind a list
matter. For a numeral a byte that is no digit of the base decides it, and the base is itself read off
the first bytes. For characters the bytes fall into sequences and the beginning of one (`Unsettled`); if
the walk has to go further than that, other bytes behind them change the text that is taken. In both
cases the converse gives two continuations by name, for instance ones that make a number longer.
-/

namespace Irstessi

namespace Str

/-! ## Numerals -/

/-- A byte that is no digit. -/
def isOther (base : Nat) (b : UInt8) : Bool := (digitValue base b).isNone

/-- A byte that ends the numeral is among these, which stand behind the blanks and the sign. -/
def bodyEnds : List UInt8 → Bool
  | [] => false
  | b :: buf =>
      if b = 48 then
        match buf with
        | [] => false
        | x :: buf =>
            if x = 120 ∨ x = 88 then
              match buf with
              | [] => false
              | d :: buf => if (digitValue 16 d).isSome then buf.any (isOther 16) else true
            else (x :: buf).any (isOther 8)
      else (b :: buf).any (isOther 10)

/-- A byte at which a conversion with base 0 stops is among these.
Source: `strtoul`, `strtoll` -/
def numeralEnds (buf : List UInt8) : Bool :=
  let buf := buf.dropWhile isSpace
  bodyEnds (if buf.head? = some 45 ∨ buf.head? = some 43 then buf.tail else buf)

/-- The value of a numeral behind the blanks and the sign. -/
def magnitude (buf : List UInt8) : Nat :=
  if buf.head? = some 48 then
    if (buf.getD 1 0 = 120 ∨ buf.getD 1 0 = 88) ∧ (digitValue 16 (buf.getD 2 0)).isSome then
      digits 16 0 (buf.drop 2)
    else digits 8 0 buf
  else digits 10 0 buf

/-- The sign and the magnitude of a numeral, written out: the blanks are skipped, a sign is read, and
the rest is the magnitude. -/
theorem numeral_eq (buf : List UInt8) :
    numeral buf = (decide ((buf.dropWhile isSpace).head? = some 45),
      magnitude (if (buf.dropWhile isSpace).head? = some 45 ∨ (buf.dropWhile isSpace).head? = some 43
        then (buf.dropWhile isSpace).tail else buf.dropWhile isSpace)) := rfl

/-- Where the digits end within a text, what stands behind it is not read. -/
theorem digits_append_of_any {base : Nat} {u : List UInt8} (h : u.any (isOther base) = true) (acc : Nat)
    (v : List UInt8) : digits base acc (u ++ v) = digits base acc u := by
  induction u generalizing acc with
  | nil => simp at h
  | cons b u ih =>
      rw [List.cons_append, digits, digits]
      rcases hvalue : digitValue base b with _ | d
      · rfl
      · have hrest : u.any (isOther base) = true := by simpa [isOther, hvalue] using h
        exact ih hrest _

/-- A byte that ends the digits does so whatever stands behind. -/
theorem any_append_of_any {p : UInt8 → Bool} {u : List UInt8} (h : u.any p = true) (v : List UInt8) :
    (u ++ v).any p = true := by
  rw [List.any_append, h, Bool.true_or]

/-- A numeral that does not begin with 0 is decimal. -/
theorem magnitude_of_ne {b : UInt8} (hb : b ≠ 48) (buf : List UInt8) :
    magnitude (b :: buf) = digits 10 0 (b :: buf) := by
  rw [magnitude, if_neg (by simpa using hb)]

/-- Behind a `0` that no `x` follows the digits are octal. -/
theorem magnitude_octal {x : UInt8} (hx : ¬ (x = 120 ∨ x = 88)) (buf : List UInt8) :
    magnitude (48 :: x :: buf) = digits 8 0 (48 :: x :: buf) := by
  rw [magnitude, if_pos List.head?_cons, if_neg (fun hmark => hx hmark.1)]

/-- Behind `0x` they are hexadecimal, if there is one. -/
theorem magnitude_hex {x d : UInt8} (hx : x = 120 ∨ x = 88) (buf : List UInt8) :
    magnitude (48 :: x :: d :: buf) =
      if (digitValue 16 d).isSome then digits 16 0 (d :: buf) else digits 8 0 (48 :: x :: d :: buf) := by
  rw [magnitude, if_pos List.head?_cons]
  by_cases hd : (digitValue 16 d).isSome = true
  · rw [if_pos ⟨hx, hd⟩, if_pos hd]
    rfl
  · rw [if_neg (fun hmark => hd hmark.2), if_neg hd]

/-- A numeral that ends within a text is the same one in every longer text. -/
theorem bodyEnds_append {u : List UInt8} (h : bodyEnds u = true) (v : List UInt8) :
    bodyEnds (u ++ v) = true ∧ magnitude (u ++ v) = magnitude u := by
  rcases u with _ | ⟨b, u⟩
  · cases h
  by_cases hb : b = 48
  · subst hb
    rcases u with _ | ⟨x, u⟩
    · cases h
    by_cases hx : x = 120 ∨ x = 88
    · rcases u with _ | ⟨d, u⟩
      · simp [bodyEnds, hx] at h
      have hother : (48 :: x :: d :: u).any (isOther 8) = true := by
        rcases hx with rfl | rfl <;> rfl
      simp only [bodyEnds, if_pos hx, if_true, List.cons_append] at h ⊢
      rw [magnitude_hex hx, magnitude_hex hx]
      by_cases hd : (digitValue 16 d).isSome = true
      · rw [if_pos hd] at h
        have hany : (d :: u).any (isOther 16) = true := by rw [List.any_cons, h, Bool.or_true]
        rw [if_pos hd, if_pos hd, if_pos hd]
        exact ⟨any_append_of_any h v, digits_append_of_any hany 0 v⟩
      · rw [if_neg hd, if_neg hd, if_neg hd]
        exact ⟨rfl, digits_append_of_any hother 0 v⟩
    · simp only [bodyEnds, if_neg hx, if_true, List.cons_append] at h ⊢
      have hany : (48 :: x :: u).any (isOther 8) = true := by rw [List.any_cons, h, Bool.or_true]
      rw [magnitude_octal hx, magnitude_octal hx]
      exact ⟨any_append_of_any h v, digits_append_of_any hany 0 v⟩
  · simp only [bodyEnds, if_neg hb, List.cons_append] at h ⊢
    rw [magnitude_of_ne hb, magnitude_of_ne hb]
    exact ⟨any_append_of_any h v, digits_append_of_any h 0 v⟩

/-- What stands behind a numeral that has ended does not matter. -/
theorem numeral_append_of_ends {u : List UInt8} (h : numeralEnds u = true) (v : List UInt8) :
    numeralEnds (u ++ v) = true ∧ numeral (u ++ v) = numeral u := by
  rw [numeral_eq, numeral_eq]
  unfold numeralEnds at h ⊢
  dsimp only at h ⊢
  rw [List.dropWhile_append]
  rcases hbody : u.dropWhile isSpace with _ | ⟨b, body⟩
  · rw [hbody] at h
    simp [bodyEnds] at h
  · rw [hbody] at h
    rw [List.isEmpty_cons, if_neg Bool.false_ne_true, List.cons_append, List.head?_cons, List.head?_cons,
      List.tail_cons, List.tail_cons]
    rw [List.head?_cons, List.tail_cons] at h
    by_cases hsign : some b = some 45 ∨ some b = some 43
    · rw [if_pos hsign] at h
      rw [if_pos hsign, if_pos hsign]
      obtain ⟨hends, hmagnitude⟩ := bodyEnds_append h v
      exact ⟨hends, congrArg _ hmagnitude⟩
    · rw [if_neg hsign] at h
      rw [if_neg hsign, if_neg hsign]
      obtain ⟨hends, hmagnitude⟩ := bodyEnds_append h v
      exact ⟨hends, congrArg _ hmagnitude⟩

/-- Where all bytes are digits, digits behind them are digits too. -/
theorem any_ones {base : Nat} (hbase : isOther base 49 = false) {u : List UInt8}
    (h : ¬ u.any (isOther base) = true) (k : Nat) :
    ¬ (u ++ List.replicate k 49).any (isOther base) = true := by
  rw [List.any_append, Bool.or_eq_true, not_or]
  refine ⟨h, fun hany => ?_⟩
  obtain ⟨b, hb, hother⟩ := List.any_eq_true.mp hany
  rw [List.eq_of_mem_replicate hb, hbase] at hother
  cases hother

/-- A numeral that does not end within a text can be carried on with ones for as long as one likes. -/
theorem bodyEnds_ones {u : List UInt8} (h : ¬ bodyEnds u = true) (k : Nat) :
    ¬ bodyEnds (u ++ List.replicate k 49) = true := by
  rcases u with _ | ⟨b, u⟩
  · rcases k with _ | k
    · exact h
    · exact any_ones (u := [49]) (show isOther 10 49 = false from rfl) (by decide) k
  by_cases hb : b = 48
  · subst hb
    rcases u with _ | ⟨x, u⟩
    · rcases k with _ | k
      · exact h
      · exact any_ones (u := [49]) (show isOther 8 49 = false from rfl) (by decide) k
    by_cases hx : x = 120 ∨ x = 88
    · rcases u with _ | ⟨d, u⟩
      · rcases k with _ | k
        · exact h
        · simp only [bodyEnds, if_pos hx, if_true, List.cons_append, List.nil_append, List.replicate_succ]
          exact any_ones (u := []) (show isOther 16 49 = false from rfl) (by simp) k
      simp only [bodyEnds, if_pos hx, if_true, List.cons_append] at h ⊢
      by_cases hd : (digitValue 16 d).isSome = true
      · rw [if_pos hd] at h ⊢
        exact any_ones rfl h k
      · rw [if_neg hd] at h
        exact absurd rfl h
    · simp only [bodyEnds, if_neg hx, if_true, List.cons_append] at h ⊢
      exact any_ones (u := x :: u) rfl h k
  · simp only [bodyEnds, if_neg hb, List.cons_append] at h ⊢
    exact any_ones (u := b :: u) rfl h k

/-- A numeral that has not ended goes on with ones. -/
theorem not_numeralEnds_ones {u : List UInt8} (h : ¬ numeralEnds u = true) (k : Nat) :
    ¬ numeralEnds (u ++ List.replicate k 49) = true := by
  unfold numeralEnds at h ⊢
  dsimp only at h ⊢
  rw [List.dropWhile_append]
  rcases hbody : u.dropWhile isSpace with _ | ⟨b, body⟩
  · have hones : (List.replicate k 49).dropWhile isSpace = List.replicate k 49 := by
      rcases k with _ | k <;> rfl
    have hhead : ¬ ((List.replicate k (49 : UInt8)).head? = some 45 ∨
        (List.replicate k (49 : UInt8)).head? = some 43) := by
      rcases k with _ | k
      · simp
      · rw [List.replicate_succ, List.head?_cons]
        decide
    rw [List.isEmpty_nil, if_pos rfl, hones, if_neg hhead]
    exact bodyEnds_ones (u := []) (by decide) k
  · rw [hbody] at h
    rw [List.isEmpty_cons, if_neg Bool.false_ne_true, List.cons_append, List.head?_cons, List.tail_cons]
    rw [List.head?_cons, List.tail_cons] at h
    by_cases hsign : some b = some 45 ∨ some b = some 43
    · rw [if_pos hsign] at h ⊢
      exact bodyEnds_ones h k
    · rw [if_neg hsign] at h ⊢
      exact bodyEnds_ones h k

end Str

/-! ## Characters -/

/-- The block ends before the character that begins here does.
Source: `string.cpp` `__utf8_skip_bytes` -/
def leavesBlock : List UInt8 → Bool
  | [] => true
  | b :: rest => rest.length + 1 < utf8SequenceType b ∧ ∀ x ∈ rest, IsContinuation x

/-- The walk over `offset` characters reads nothing behind the block.
Source: `string.cpp` `__utf8_offset` -/
def utf8OffsetStays : Nat → List UInt8 → Bool
  | _, [] => false
  | 0, _ :: _ => true
  | offset + 1, b :: rest =>
      if b = 0 then true
      else if leavesBlock (b :: rest) then false
      else match utf8SkipSequence (b :: rest) with
        | some buf => utf8OffsetStays offset buf
        | none => true

/-- The walk over `count` characters reads on behind the bytes: they are fewer characters, and perhaps the
beginning of one, without NUL. -/
def Unsettled (count : Nat) (bytes : List UInt8) : Prop :=
  0 ∉ bytes ∧ ∃ (cs : List (List UInt8)) (rest : List UInt8), (∀ c ∈ cs, IsSequence c) ∧
    Fragment rest ∧ bytes = cs.flatten ++ rest ∧ cs.length < count

/-- A sequence has at most four bytes. -/
theorem IsSequence.length_le {c : List UInt8} (hc : IsSequence c) : c.length ≤ 4 := by
  obtain ⟨b, t, rfl, htype, -⟩ := hc
  rw [List.length_cons, ← htype]
  exact utf8SequenceType_le b

/-- What leaves the block is the beginning of a character. -/
theorem leavesBlock_iff (buf : List UInt8) : leavesBlock buf = true ↔ Fragment buf := by
  rcases buf with _ | ⟨b, rest⟩
  · exact iff_of_true rfl ⟨[97], isSequence_singleton (by decide), List.nil_prefix, by simp⟩
  · rw [leavesBlock, decide_eq_true_iff]
    constructor
    · rintro ⟨hshort, hrest⟩
      refine ⟨b :: (rest ++ List.replicate (utf8SequenceType b - 1 - rest.length) 0x80),
        ⟨b, _, rfl, ?_, ?_⟩, ⟨_, rfl⟩, fun heq => ?_⟩
      · rw [List.length_append, List.length_replicate]
        omega
      · rw [List.forall_mem_append]
        refine ⟨hrest, fun x hx => ?_⟩
        rw [List.eq_of_mem_replicate hx]
        decide
      · have hlength := congrArg List.length heq
        simp only [List.length_cons, List.length_append, List.length_replicate] at hlength
        omega
    · rintro ⟨c, ⟨b', t, rfl, htype, ht⟩, hpre, hne⟩
      obtain ⟨rfl, hrest⟩ := List.cons_prefix_cons.mp hpre
      refine ⟨?_, fun x hx => ht x (hrest.subset hx)⟩
      rw [htype, Nat.add_lt_add_iff_right]
      exact lt_of_le_of_ne hrest.length_le fun heq => hne (congrArg _ (hrest.eq_of_length heq))

/-- A character and what follows it do not leave the block before its end. -/
theorem leavesBlock_append {c : List UInt8} (hc : IsSequence c) (rest : List UInt8) :
    ¬ leavesBlock (c ++ rest) = true := by
  rw [leavesBlock_iff]
  exact fun hfragment => not_stuck_append hc rest hfragment.stuck

section walk

variable {cs : List (List UInt8)} (hcs : ∀ c ∈ cs, IsSequence c)

include hcs

/-- The walk over characters without NUL. -/
theorem utf8OffsetStays_sequences (hnul : 0 ∉ cs.flatten) (count : Nat) (rest : List UInt8) :
    utf8OffsetStays count (cs.flatten ++ rest) =
      utf8OffsetStays (count - cs.length) ((cs.drop count).flatten ++ rest) := by
  induction cs generalizing count with
  | nil => rw [List.drop_nil]; rfl
  | cons c cs ih =>
      cases count with
      | zero => rw [Nat.zero_sub]; rfl
      | succ count =>
          have hc := hcs c List.mem_cons_self
          have hskip := utf8SkipSequence_append hc (cs.flatten ++ rest)
          have hstays := leavesBlock_append hc (cs.flatten ++ rest)
          rw [List.flatten_cons, List.mem_append, not_or] at hnul
          obtain ⟨b, t, rfl, -, -⟩ := hc
          have hb : b ≠ 0 := fun hzero => hnul.1 (hzero ▸ List.mem_cons_self)
          rw [List.cons_append] at hskip hstays
          rw [List.flatten_cons, List.append_assoc, List.cons_append, utf8OffsetStays, if_neg hb,
            if_neg hstays, hskip, List.drop_succ_cons, List.length_cons, Nat.add_sub_add_right]
          exact ih (fun d hd => hcs d (List.mem_cons_of_mem _ hd)) hnul.2 count

/-- The walk over no more characters than there are stops in the row, whatever stands behind it. -/
theorem utf8Offset_of_le {count : Nat} (hcount : count ≤ cs.length) (rest : List UInt8) :
    utf8Offset (cs.flatten ++ rest) count = (cs.drop count).flatten ++ rest := by
  induction cs generalizing count with
  | nil =>
      obtain rfl : count = 0 := by simpa using hcount
      rfl
  | cons c cs ih =>
      cases count with
      | zero => rfl
      | succ count =>
          have hc := hcs c List.mem_cons_self
          have hskip := utf8SkipSequence_append hc (cs.flatten ++ rest)
          obtain ⟨b, t, rfl, -, -⟩ := hc
          rw [List.cons_append] at hskip
          rw [List.flatten_cons, List.append_assoc, List.cons_append, utf8Offset, hskip]
          rw [List.length_cons, Nat.add_le_add_iff_right] at hcount
          exact ih (fun d hd => hcs d (List.mem_cons_of_mem _ hd)) hcount

end walk

/-! ## Where the walk ends -/

/-- A text at which the walk stops, and which is no beginning of a character, stops it with anything
behind it; a beginning does with a byte that does not continue it. -/
theorem stuck_append {tail x : List UInt8} (htail : Stuck tail) (hne : tail ≠ [])
    (h : ¬ Fragment tail ∨ ∃ b ∈ x.head?, ¬ IsContinuation b) :
    utf8SkipSequence (tail ++ x) = none ∧ ¬ leavesBlock (tail ++ x) = true := by
  -- a character does not begin with the text, and is no longer than the text with what is behind it
  have hcommon : ∀ c, IsSequence c → c <+: tail ++ x ∨ tail ++ x <+: c → False := by
    rintro c hc hcx
    have hcompare : c <+: tail ∨ tail <+: c := by
      rcases hcx with hcx | hcx
      · exact List.prefix_or_prefix_of_prefix hcx (List.prefix_append tail x)
      · exact .inr ((List.prefix_append tail x).trans hcx)
    rcases hcompare with ⟨p, rfl⟩ | ⟨d, rfl⟩
    · exact not_stuck_append hc p htail
    rw [List.prefix_append_right_inj, List.prefix_append_right_inj] at hcx
    rcases d with _ | ⟨a, d⟩
    · rw [List.append_nil] at hc
      exact not_stuck_append hc [] (by rwa [List.append_nil])
    rcases h with hfragment | ⟨b, hb, hcontinue⟩
    · exact hfragment ⟨_, hc, List.prefix_append _ _, by simp⟩
    · obtain ⟨x, rfl⟩ := List.head?_eq_some_iff.mp hb
      obtain rfl : a = b := by
        rcases hcx with hcx | hcx
        · exact (List.cons_prefix_cons.mp hcx).1
        · exact (List.cons_prefix_cons.mp hcx).1.symm
      obtain ⟨first, t, heq, -, ht⟩ := hc
      obtain ⟨first', u, rfl⟩ := List.exists_cons_of_ne_nil hne
      rw [List.cons_append, List.cons.injEq] at heq
      exact hcontinue (ht a (heq.2 ▸ List.mem_append_right _ List.mem_cons_self))
  constructor
  · by_contra hsome
    obtain ⟨p, hp⟩ := Option.ne_none_iff_exists'.mp hsome
    obtain ⟨b, t, rfl⟩ := List.exists_cons_of_ne_nil hne
    obtain ⟨c, hc, heq⟩ := utf8SkipSequence_eq_some hp
    exact hcommon c hc (.inl ⟨p, heq.symm⟩)
  · rw [leavesBlock_iff]
    rintro ⟨c, hc, hpre, -⟩
    exact hcommon c hc (.inr hpre)

/-- Without a byte the walk reads outside the block at once. -/
theorem utf8OffsetStays_nil (count : Nat) : utf8OffsetStays count [] = false := by
  cases count <;> rfl

/-- A walk over no characters reads nothing. -/
theorem utf8OffsetStays_zero {buf : List UInt8} (hne : buf ≠ []) : utf8OffsetStays 0 buf = true := by
  obtain ⟨b, t, rfl⟩ := List.exists_cons_of_ne_nil hne
  rfl

/-- Where the walk stops, it does so in the block. -/
theorem utf8OffsetStays_of_stuck {tail x : List UInt8} (htail : Stuck tail) (hne : tail ≠ [])
    (h : ¬ Fragment tail ∨ ∃ b ∈ x.head?, ¬ IsContinuation b) (count : Nat) :
    utf8OffsetStays count (tail ++ x) = true := by
  obtain ⟨hskip, hstays⟩ := stuck_append htail hne h
  obtain ⟨b, t, rfl⟩ := List.exists_cons_of_ne_nil hne
  cases count with
  | zero => rfl
  | succ count =>
      rw [List.cons_append] at hskip hstays ⊢
      rw [utf8OffsetStays, if_neg hstays, hskip]
      exact ite_self true

/-- A NUL stops the walk. -/
theorem utf8OffsetStays_of_nul {tail : List UInt8} (htail : Stuck tail) (count : Nat) (x : List UInt8) :
    utf8OffsetStays count (tail ++ 0 :: x) = true := by
  by_cases hne : tail = []
  · subst hne
    cases count with
    | zero => rfl
    | succ count =>
        rw [List.nil_append, utf8OffsetStays]
        exact if_pos rfl
  · exact utf8OffsetStays_of_stuck htail hne (.inr ⟨0, rfl, by decide⟩) count

/-- The walk takes the bytes in front of where it ends. -/
theorem bytesOf_of_utf8Offset {u x : List UInt8} {count : Nat} (hwalk : utf8Offset (u ++ x) count = x)
    (hcount : 0 < count) (hlength : u.length < uintMax) :
    StringObject.bytesOf (u ++ x) count = u.length := by
  rw [StringObject.bytesOf, if_pos hcount, hwalk, distance, List.length_append, Nat.add_sub_cancel]
  unfold uintMax at hlength
  exact Nat.mod_eq_of_lt (by omega)

/-- The text that is taken is what stands in front of the place that the walk gets to. -/
theorem takenText_of_utf8Offset {u x : List UInt8} {count : Nat} (hwalk : utf8Offset (u ++ x) count = x)
    (hcount : 0 < count) (hlength : u.length < uintMax) : takenText (some (u ++ x)) count = u := by
  rw [takenText, bytesOf_of_utf8Offset hwalk hcount hlength, List.take_left]

/-- A text without NUL is a part of the C string. -/
theorem cstring_append_of_not_mem {u : List UInt8} (hu : 0 ∉ u) (v : List UInt8) :
    cstring (u ++ v) = u ++ cstring v := by
  refine List.takeWhile_append_of_pos fun b hb => decide_eq_true ?_
  rintro rfl
  exact hu hb

/-- A text without NUL is the whole of the C string. -/
theorem cstring_of_not_mem {u : List UInt8} (hu : 0 ∉ u) : cstring u = u := by
  have happend := cstring_append_of_not_mem hu []
  have hnil : cstring [] = [] := rfl
  rwa [hnil, List.append_nil] at happend

/-- Behind a NUL nothing belongs to the text. -/
theorem exists_cstring {bytes : List UInt8} (h : 0 ∈ bytes) :
    ∃ more, bytes = cstring bytes ++ 0 :: more ∧ ∀ rest, cstring (bytes ++ rest) = cstring bytes := by
  obtain ⟨u, more, rfl, hu⟩ := List.eq_append_cons_of_mem h
  have hcut : ∀ v, cstring (u ++ 0 :: v) = u := fun v =>
    cstring_append_nul (fun b hb hzero => hu (hzero ▸ hb)) v
  refine ⟨more, by rw [hcut], fun rest => ?_⟩
  rw [List.append_assoc, List.cons_append, hcut, hcut]

/-- A walk that does not read on behind the bytes stays in the block and ends where it does in the bytes
alone. -/
theorem settled_append {count : Nat} {bytes rest : List UInt8} (h : ¬ Unsettled count bytes)
    (hrest : rest ≠ []) :
    utf8OffsetStays count (bytes ++ rest) = true ∧
      ∃ u x y, cstring (bytes ++ rest) = u ++ x ∧ utf8Offset (u ++ x) count = x ∧
        cstring bytes = u ++ y ∧ utf8Offset (u ++ y) count = y := by
  obtain ⟨cs, tail, hcs, htail, htext⟩ := exists_sequences (cstring bytes)
  have hnul : 0 ∉ cs.flatten ++ tail := by
    rw [← htext]
    exact fun hmem => ne_zero_of_mem_cstring hmem rfl
  have hnul' : 0 ∉ cs.flatten := fun hmem => hnul (List.mem_append_left _ hmem)
  have htake : (cs.take count).flatten ++ ((cs.drop count).flatten ++ tail) = cs.flatten ++ tail := by
    rw [← List.append_assoc, ← List.flatten_append, List.take_append_drop]
  have hwalk := utf8Offset_sequences hcs htail count
  by_cases hmem : 0 ∈ bytes
  · obtain ⟨more, hbytes, hcut⟩ := exists_cstring hmem
    refine ⟨?_, (cs.take count).flatten, (cs.drop count).flatten ++ tail, (cs.drop count).flatten ++ tail,
      ?_, ?_, ?_, ?_⟩
    · rw [hbytes, htext, List.append_assoc, List.cons_append, List.append_assoc,
        utf8OffsetStays_sequences hcs hnul']
      by_cases hcount : count ≤ cs.length
      · rw [Nat.sub_eq_zero_of_le hcount]
        exact utf8OffsetStays_zero (by simp)
      · rw [List.drop_eq_nil_of_le (Nat.le_of_not_le hcount), List.flatten_nil, List.nil_append]
        exact utf8OffsetStays_of_nul htail _ _
    · rw [hcut, htake, htext]
    · rw [htake, hwalk]
    · rw [htake, htext]
    · rw [htake, hwalk]
  · have hall := cstring_of_not_mem hmem
    rw [cstring_append_of_not_mem hmem, hall]
    rw [hall] at htext
    by_cases hcount : count ≤ cs.length
    · refine ⟨?_, (cs.take count).flatten, (cs.drop count).flatten ++ (tail ++ cstring rest),
        (cs.drop count).flatten ++ tail, ?_, ?_, ?_, ?_⟩
      · rw [htext, List.append_assoc, utf8OffsetStays_sequences hcs hnul', Nat.sub_eq_zero_of_le hcount]
        refine utf8OffsetStays_zero ?_
        exact List.append_ne_nil_of_right_ne_nil _ (List.append_ne_nil_of_right_ne_nil _ hrest)
      · rw [htext, ← htake]
        simp only [List.append_assoc]
      · have hmore := utf8Offset_of_le hcs hcount (tail ++ cstring rest)
        rw [← List.append_assoc, ← List.flatten_append, List.take_append_drop, hmore]
      · rw [htake, htext]
      · rw [htake, hwalk]
    · have hend : ¬ Fragment tail := fun hfragment =>
        h ⟨hmem, cs, tail, hcs, hfragment, htext, by omega⟩
      have hne : tail ≠ [] := by
        rintro rfl
        exact hend ((leavesBlock_iff []).mp rfl)
      have hdrop : cs.drop count = [] := List.drop_eq_nil_of_le (by omega)
      refine ⟨?_, cs.flatten, tail ++ cstring rest, tail, ?_, ?_, ?_, ?_⟩
      · rw [htext, List.append_assoc, utf8OffsetStays_sequences hcs hnul', hdrop]
        exact utf8OffsetStays_of_stuck htail hne (.inl hend) _
      · rw [htext, List.append_assoc]
      · have hstuck : Stuck (tail ++ cstring rest) := .inr (stuck_append htail hne (.inl hend)).1
        rw [utf8Offset_sequences hcs hstuck, hdrop]
        rfl
      · rw [htext]
      · rw [hwalk, hdrop]
        rfl

/-- What is taken of the bytes does not depend on what follows them. -/
theorem takenText_append_of_settled {count : Nat} {bytes rest : List UInt8} (h : ¬ Unsettled count bytes)
    (hcount : 0 < count) (hlength : bytes.length < uintMax) (hrest : rest ≠ []) :
    takenText (some (cstring (bytes ++ rest))) count = takenText (some (cstring bytes)) count ∧
      StringObject.bytesOf (cstring (bytes ++ rest)) count ≠ uintMax := by
  obtain ⟨-, u, x, y, hall, hx, hbytes, hy⟩ := settled_append h hrest
  have hle : (cstring bytes).length ≤ bytes.length := (List.takeWhile_prefix _).length_le
  rw [hbytes, List.length_append] at hle
  have hu : u.length < uintMax := by omega
  rw [hall, hbytes, takenText_of_utf8Offset hx hcount hu, takenText_of_utf8Offset hy hcount hu,
    bytesOf_of_utf8Offset hx hcount hu]
  exact ⟨rfl, hu.ne⟩

/-- The beginning of a character without NUL can be finished without NUL. -/
theorem Fragment.exists_append {rest : List UInt8} (h : Fragment rest) (hnul : 0 ∉ rest) :
    ∃ more, IsSequence (rest ++ more) ∧ more ≠ [] ∧ 0 ∉ rest ++ more := by
  rcases rest with _ | ⟨b, rest⟩
  · exact ⟨[97], isSequence_singleton (by decide), by simp, by decide⟩
  · obtain ⟨c, hc, ⟨more, rfl⟩, hne⟩ := h
    refine ⟨more, hc, fun hnil => hne (by rw [hnil, List.append_nil]), fun hmem => ?_⟩
    obtain ⟨b', t, heq, -, ht⟩ := hc
    obtain ⟨rfl, rfl⟩ := List.cons.inj heq
    rcases List.mem_cons.mp hmem with hzero | hmem
    · exact hnul (hzero ▸ List.mem_cons_self)
    · exact absurd (ht 0 hmem) (by decide)

/-- A block that ends in an unfinished character is left. -/
theorem not_utf8OffsetStays_of_fragment {buf : List UInt8} (h : Fragment buf) (hnul : 0 ∉ buf)
    {count : Nat} (hcount : 0 < count) : ¬ utf8OffsetStays count buf = true := by
  obtain ⟨count, rfl⟩ : ∃ n, count = n + 1 := ⟨count - 1, by omega⟩
  have hleaves := (leavesBlock_iff buf).mpr h
  rcases buf with _ | ⟨b, t⟩
  · exact Bool.false_ne_true
  · have hb : b ≠ 0 := fun hzero => hnul (hzero ▸ List.mem_cons_self)
    rw [utf8OffsetStays, if_neg hb, if_pos hleaves]
    exact Bool.false_ne_true

/-- The first cells of a block that are filled with a text and then with NULs. -/
theorem map_getD_range (more : List UInt8) (k : Nat) :
    (List.range k).map (fun i => more.getD i 0) =
      more.take k ++ List.replicate (k - more.length) 0 := by
  apply List.ext_getElem
  · simp only [List.length_map, List.length_range, List.length_append, List.length_take,
      List.length_replicate]
    omega
  · intro i hi hi'
    rw [List.getElem_map, List.getElem_range, List.getElem_append]
    split
    next hlt =>
      rw [List.length_take] at hlt
      rw [List.getElem_take, List.getD_eq_getElem _ _ (by omega)]
    next hge =>
      rw [List.length_take] at hge
      rw [List.length_map, List.length_range] at hi
      rw [List.getElem_replicate, List.getD_eq_default _ _ (by omega)]

/-- Behind an unfinished character, or behind characters that are too few, what is left of the block
matters: it can be filled so that the walk leaves the block or takes more of the text than it does with
NULs. -/
theorem exists_longer {count : Nat} {bytes : List UInt8} (h : Unsettled count bytes)
    (hlength : bytes.length + 4 < uintMax) {k : Nat} (hk : 0 < k) :
    utf8OffsetStays count (bytes ++ (List.range k).map fun _ => 0) = true ∧
    StringObject.bytesOf (cstring (bytes ++ (List.range k).map fun _ => 0)) count ≠ uintMax ∧
    ∃ f : Nat → UInt8, ¬ utf8OffsetStays count (bytes ++ (List.range k).map f) = true ∨
      StringObject.bytesOf (cstring (bytes ++ (List.range k).map f)) count ≠ uintMax ∧
      (Str.ofBytes (takenText (some (cstring (bytes ++ (List.range k).map f))) count)).m_buffer ≠
        (Str.ofBytes
          (takenText (some (cstring (bytes ++ (List.range k).map fun _ => 0))) count)).m_buffer := by
  obtain ⟨hnul, cs, rest, hcs, hrest, rfl, hcount⟩ := h
  have hpos : 0 < count := by omega
  have hnul' : 0 ∉ cs.flatten := fun hmem => hnul (List.mem_append_left _ hmem)
  have hdrop : cs.drop count = [] := List.drop_eq_nil_of_le hcount.le
  obtain ⟨k, rfl⟩ : ∃ n, k = n + 1 := ⟨k - 1, by omega⟩
  have hzeros : (List.range (k + 1)).map (fun _ => (0 : UInt8)) = 0 :: List.replicate k 0 := by
    rw [List.map_const', List.length_range, List.replicate_succ]
  have hcut : cstring (cs.flatten ++ rest ++ 0 :: List.replicate k 0) = cs.flatten ++ rest :=
    cstring_append_nul (fun b hb hzero => hnul (hzero ▸ hb)) _
  have hfew : utf8Offset (cs.flatten ++ rest) count = rest := by
    rw [utf8Offset_sequences hcs hrest.stuck, hdrop]
    rfl
  rw [List.length_append] at hlength
  rw [hzeros]
  refine ⟨?_, ?_, ?_⟩
  · rw [List.append_assoc, utf8OffsetStays_sequences hcs hnul', hdrop]
    exact utf8OffsetStays_of_nul hrest.stuck _ _
  · have hle := bytesOf_le (cs.flatten ++ rest) count
    rw [List.length_append] at hle
    rw [hcut]
    omega
  · obtain ⟨more, hc, hmore, hcnul⟩ := hrest.exists_append fun hmem => hnul (List.mem_append_right _ hmem)
    refine ⟨fun i => more.getD i 0, ?_⟩
    rw [hcut, map_getD_range]
    have hcs' : ∀ d ∈ cs ++ [rest ++ more], IsSequence d := by
      rw [List.forall_mem_append, List.forall_mem_singleton]
      exact ⟨hcs, hc⟩
    have hflatten : (cs ++ [rest ++ more]).flatten = cs.flatten ++ (rest ++ more) := by
      rw [List.flatten_append, List.flatten_singleton]
    have hnul'' : 0 ∉ (cs ++ [rest ++ more]).flatten := by
      rw [hflatten, List.mem_append, not_or]
      exact ⟨hnul', hcnul⟩
    have hover : (cs ++ [rest ++ more]).drop count = [] :=
      List.drop_eq_nil_of_le (by rw [List.length_append, List.length_singleton]; exact hcount)
    by_cases hfull : k + 1 ≤ more.length
    · refine .inl ?_
      rw [Nat.sub_eq_zero_of_le hfull, List.replicate_zero, List.append_nil, List.append_assoc]
      rcases hfull.lt_or_eq with hlt | heq
      · rw [utf8OffsetStays_sequences hcs hnul', hdrop]
        have hpre : rest ++ more.take (k + 1) <+: rest ++ more :=
          (List.prefix_append_right_inj rest).mpr (List.take_prefix _ _)
        refine not_utf8OffsetStays_of_fragment ⟨_, hc, hpre, fun hall => ?_⟩
          (fun hmem => hcnul (hpre.subset hmem)) (by omega)
        have htake := congrArg List.length (List.append_cancel_left hall)
        rw [List.length_take] at htake
        omega
      · have hend := utf8OffsetStays_sequences hcs' hnul'' count []
        rw [hover, List.flatten_nil, List.append_nil, List.append_nil, hflatten, utf8OffsetStays_nil]
          at hend
        rw [heq, List.take_length, hend]
        exact Bool.false_ne_true
    · refine .inr ?_
      obtain ⟨m, hm⟩ : ∃ m, k + 1 - more.length = m + 1 := ⟨k - more.length, by omega⟩
      have hall : cstring (cs.flatten ++ rest ++ (more ++ 0 :: List.replicate m 0)) =
          (cs ++ [rest ++ more]).flatten ++ [] := by
        rw [← List.append_assoc, List.append_assoc cs.flatten, ← hflatten, List.append_nil]
        exact cstring_append_nul (fun b hb hzero => hnul'' (hzero ▸ hb)) _
      have hmany : utf8Offset ((cs ++ [rest ++ more]).flatten ++ []) count = [] := by
        rw [utf8Offset_sequences hcs' (.inl rfl), hover]
        rfl
      have hle := hc.length_le
      have hsize : (rest ++ more).length = rest.length + more.length := List.length_append
      have hlong : (cs ++ [rest ++ more]).flatten.length < uintMax := by
        rw [hflatten, List.length_append]
        omega
      rw [hm, List.take_of_length_le (by omega), List.replicate_succ, hall,
        bytesOf_of_utf8Offset hmany hpos hlong, takenText_of_utf8Offset hmany hpos hlong,
        takenText_of_utf8Offset hfew hpos (by omega), Str.ofBytes_flatten hcs, Str.ofBytes_flatten hcs']
      refine ⟨hlong.ne, fun htext => ?_⟩
      rw [hflatten] at htext
      exact hc.ne_nil (List.self_eq_append_right.mp htext.symm)

end Irstessi
