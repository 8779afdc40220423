import Irstessi.Encoding
import Irstessi.Search
import Mathlib.Order.Lattice.Nat

/-!
# Searching in characters

The searches of `String` compare bytes, while offsets and results count characters.

* `startOf`: the position at which a character begins; `sequences_unique`: a text is a row of sequences
  in one way only.
* `PlainString`: a string that has been constructed from UTF-8 without U+007F.
* `OccursAt`: a string occurs in another at a character; `Layout`: where the characters of a string are.
* `find_eq_some_iff`, `reverseFind_eq_some_iff`: the least and the greatest occurrence.
* **`search_exact`**: both searches find the occurrence that they are to find, or throw.

A valid text has a `Layout`: the row of its sequences, one for each character. An offset in characters
is then the position at which the row begins, and the search for the bytes of a string finds the least
position behind it at which they are. The bytes of a string that is not empty begin with a byte that
begins a character, so that every position that is found begins a character of the text and has a
number. This is what relates the least position in bytes with the least one in characters, and likewise
the greatest.
-/

namespace Irstessi

open Occurrence

/-! ## Characters and positions -/

/-- What is left of a character that has been cut. -/
def Fragment (tail : List UInt8) : Prop := ∃ c, IsSequence c ∧ tail <+: c ∧ tail ≠ c

/-- At a fragment of a sequence the walk stops. -/
theorem Fragment.stuck {tail : List UInt8} (h : Fragment tail) : Stuck tail := by
  obtain ⟨c, ⟨b, t, rfl, htype, -⟩, hpre, hne⟩ := h
  cases tail with
  | nil => exact .inl rfl
  | cons b' u =>
      obtain ⟨rfl, hu⟩ := List.cons_prefix_cons.mp hpre
      right
      by_contra hsome
      obtain ⟨p, hp⟩ := Option.ne_none_iff_exists'.mp hsome
      -- a sequence of the full length would end in what is left
      obtain ⟨d, ⟨b'', v, rfl, htype', -⟩, heq⟩ := utf8SkipSequence_eq_some hp
      rw [List.cons_append] at heq
      obtain ⟨rfl, rfl⟩ := List.cons.inj heq
      have hlength : v.length = t.length := by omega
      have hle := hu.length_le
      rw [List.length_append] at hle
      apply hne
      rw [hu.eq_of_length (by rw [List.length_append]; omega)]

/-- A fragment is a block too, which the search for bytes may find. -/
theorem Fragment.isBlock {tail : List UInt8} (h : Fragment tail) (hne : tail ≠ []) :
    Blocks.IsBlock IsContinuation tail := by
  obtain ⟨c, hc, hpre, -⟩ := h
  obtain ⟨b, t, rfl, hb, ht⟩ := hc.isBlock
  obtain ⟨b', u, rfl⟩ := List.exists_cons_of_ne_nil hne
  obtain ⟨rfl, hu⟩ := List.cons_prefix_cons.mp hpre
  exact ⟨b', u, rfl, hb, fun x hx => ht x (hu.subset hx)⟩

/-- Where a sequence stands the walk goes on. -/
theorem not_stuck_append {c : List UInt8} (hc : IsSequence c) (rest : List UInt8) :
    ¬ Stuck (c ++ rest) := by
  rintro (hnil | hnone)
  · exact hc.ne_nil (List.append_eq_nil_iff.mp hnil).1
  · rw [utf8SkipSequence_append hc] at hnone
    simp at hnone

/-- A text is a row of sequences in one way only. -/
theorem sequences_unique {cs ds : List (List UInt8)} {tail tail' : List UInt8}
    (hcs : ∀ c ∈ cs, IsSequence c) (hds : ∀ d ∈ ds, IsSequence d) (htail : Stuck tail)
    (htail' : Stuck tail') (h : cs.flatten ++ tail = ds.flatten ++ tail') : cs = ds := by
  induction cs generalizing ds with
  | nil =>
      cases ds with
      | nil => rfl
      | cons d ds =>
          rw [List.flatten_nil, List.nil_append, List.flatten_cons, List.append_assoc] at h
          rw [h] at htail
          exact absurd htail (not_stuck_append (hds d List.mem_cons_self) _)
  | cons c cs ih =>
      have hc := hcs c List.mem_cons_self
      rw [List.flatten_cons, List.append_assoc] at h
      cases ds with
      | nil =>
          rw [List.flatten_nil, List.nil_append] at h
          rw [← h] at htail'
          exact absurd htail' (not_stuck_append hc _)
      | cons d ds =>
          rw [List.flatten_cons, List.append_assoc] at h
          have hskip := utf8SkipSequence_append hc (cs.flatten ++ tail)
          rw [h, utf8SkipSequence_append (hds d List.mem_cons_self), Option.some.injEq] at hskip
          rw [hskip] at h
          rw [List.append_cancel_right h, ih (fun e he => hcs e (List.mem_cons_of_mem _ he))
            (fun e he => hds e (List.mem_cons_of_mem _ he)) hskip.symm]

section starts

variable {L D : List (List UInt8)} {tail tail' : List UInt8}

/-- The position at which the character with the number `i` begins. -/
def startOf (L : List (List UInt8)) (i : Nat) : Nat := (L.take i).flatten.length

/-- Behind the last character there are no further starts. -/
theorem startOf_min (L : List (List UInt8)) (i : Nat) : startOf L (min i L.length) = startOf L i := by
  unfold startOf
  rw [← List.take_take, List.take_length]

/-- All counts from the number of the characters on get to the same position. -/
theorem startOf_of_le {k : Nat} (hk : L.length ≤ k) : startOf L k = L.flatten.length := by
  rw [startOf, List.take_of_length_le hk]

/-- A row is cut at a character, and its bytes with it. -/
theorem flatten_take_append_drop (L : List (List UInt8)) (k : Nat) :
    L.flatten = (L.take k).flatten ++ (L.drop k).flatten := by
  rw [← List.flatten_append, List.take_append_drop]

/-- The bytes from a character's start on are those of the characters from it on. -/
theorem drop_startOf (L : List (List UInt8)) (k : Nat) :
    L.flatten.drop (startOf L k) = (L.drop k).flatten := by
  rw [flatten_take_append_drop L k]
  exact List.drop_left

/-- The bytes up to a character's start are those of the characters in front of it. -/
theorem take_startOf (L : List (List UInt8)) (k : Nat) :
    L.flatten.take (startOf L k) = (L.take k).flatten := by
  rw [flatten_take_append_drop L k]
  exact List.take_left

/-- What stands behind the first part of a row starts at its length. -/
theorem startOf_left {A R : List (List UInt8)} (h : L = A ++ R) :
    startOf L A.length = A.flatten.length := by
  rw [startOf, h, List.take_left]

variable (hL : ∀ c ∈ L, IsSequence c)

include hL

/-- Later characters start later, as none is empty. -/
theorem startOf_lt {i j : Nat} (hij : i < j) (hj : j ≤ L.length) : startOf L i < startOf L j := by
  have hcut : (L.take j).take i ++ (L.take j).drop i = L.take j := List.take_append_drop i _
  have hsequence : ∀ c ∈ (L.take j).drop i, IsSequence c :=
    fun c hc => hL c (List.mem_of_mem_take (List.mem_of_mem_drop hc))
  have hlength := Blocks.length_le_length_flatten (allBlocks_of_isSequence hsequence)
  rw [List.length_drop, List.length_take_of_le hj] at hlength
  unfold startOf
  rw [← hcut, List.flatten_append, List.length_append, List.take_take, Nat.min_eq_left hij.le]
  omega

/-- The order of the characters is that of their starts. -/
theorem startOf_lt_iff {i j : Nat} (hi : i ≤ L.length) (hj : j ≤ L.length) :
    startOf L i < startOf L j ↔ i < j := by
  constructor
  · intro h
    by_contra hge
    rcases Nat.lt_or_eq_of_le (Nat.not_lt.mp hge) with hlt | rfl
    · exact absurd (startOf_lt hL hlt hi) (by omega)
    · exact absurd h (lt_irrefl _)
  · exact fun h => startOf_lt hL h hj

/-- The order of the characters is that of their starts, ends included. -/
theorem startOf_le_iff {i j : Nat} (hi : i ≤ L.length) (hj : j ≤ L.length) :
    startOf L i ≤ startOf L j ↔ i ≤ j := by
  rw [← Nat.not_lt, startOf_lt_iff hL hj hi, Nat.not_lt]

/-- The walk over k characters gets to the start of the k-th one. -/
theorem distance_utf8Offset (htail : Stuck tail) (k : Nat) :
    distance (L.flatten ++ tail) (utf8Offset (L.flatten ++ tail) k) = startOf L k := by
  have hcut : L.flatten = (L.take k).flatten ++ (L.drop k).flatten := by
    rw [← List.flatten_append, List.take_append_drop]
  rw [utf8Offset_sequences hL htail, hcut, List.append_assoc, distance_append]
  rfl

/-- Counting up to the i-th character's start gives i. -/
theorem utf8Length_startOf (htail : Stuck tail) (i : Nat) :
    utf8Length (L.flatten ++ tail) (startOf L i) = min i L.length := by
  unfold startOf
  rw [utf8Length_sequences hL htail, List.length_take]

variable (htail : Fragment tail)

include htail

/-- Sequences that the text begins with are its first ones. -/
theorem eq_take_of_append {M : List (List UInt8)} {rest : List UInt8} (hM : ∀ c ∈ M, IsSequence c)
    (h : L.flatten ++ tail = M.flatten ++ rest) : M.length ≤ L.length ∧ M = L.take M.length := by
  obtain ⟨N, tail', hN, htail', rfl⟩ := exists_sequences rest
  rw [← List.append_assoc, ← List.flatten_append] at h
  have heq := sequences_unique hL (List.forall_mem_append.mpr ⟨hM, hN⟩) htail.stuck htail' h
  rw [heq, List.length_append, List.take_left]
  exact ⟨Nat.le_add_right _ _, rfl⟩

/-- A text that begins with a sequence's first byte, or with nothing, occurs where a character begins,
or where a fragment does. -/
theorem exists_startOf_of_at {w : List UInt8} (hw : ∃ b v, w = b :: v ∧ ¬ IsContinuation b) {p : Nat}
    (hat : At w (L.flatten ++ tail) p) : ∃ i ≤ L.length, startOf L i = p := by
  obtain ⟨u, v, heq, rfl⟩ := at_iff_exists.mp hat
  obtain ⟨b, w, rfl, hb⟩ := hw
  by_cases hnil : tail = []
  · rw [hnil, List.append_nil, List.append_assoc, List.cons_append] at heq
    obtain ⟨l, r, rfl, rfl, -⟩ := Blocks.exists_split (allBlocks_of_isSequence hL) hb heq
    refine ⟨l.length, by simp, ?_⟩
    unfold startOf
    rw [List.take_left]
  · have hblocks : Blocks.AllBlocks IsContinuation (L ++ [tail]) := by
      apply (allBlocks_of_isSequence hL).append
      intro c hc
      rw [List.mem_singleton.mp hc]
      exact htail.isBlock hnil
    have hflatten : (L ++ [tail]).flatten = u ++ b :: (w ++ v) := by
      rw [List.flatten_append, List.flatten_singleton, heq]
      simp
    obtain ⟨l, r, hsplit, rfl, hr⟩ := Blocks.exists_split hblocks hb hflatten
    have hl : l <+: L := by
      rcases List.prefix_concat_iff.mp ⟨r, hsplit.symm⟩ with hall | hl
      · rw [hall] at hsplit
        rw [List.self_eq_append_right.mp hsplit] at hr
        simp at hr
      · exact hl
    obtain ⟨e, rfl⟩ := hl
    refine ⟨l.length, by simp, ?_⟩
    unfold startOf
    rw [List.take_left]

end starts

/-! ## Strings from UTF-8 -/

/-- A prefix of an encoding is that of some characters, and a fragment. -/
theorem exists_take_encode {cs : List Char} (hcs : ∀ c ∈ cs, c ≠ DEL) (m : Nat) :
    ∃ n tail, (encode cs).take m = encode (cs.take n) ++ tail ∧ Fragment tail := by
  induction cs generalizing m with
  | nil => exact ⟨0, [], by simp, [32], isSequence_singleton (by decide), by simp, by simp⟩
  | cons c cs ih =>
      rcases Nat.lt_or_ge m (String.utf8EncodeChar c).length with hlt | hge
      · refine ⟨0, (String.utf8EncodeChar c).take m, ?_, _, isSequence_utf8EncodeChar (hcs c (by simp)),
          List.take_prefix _ _, ?_⟩
        · rw [encode_cons, List.take_append_of_le_length hlt.le]
          rfl
        · intro h
          have hlength := congrArg List.length h
          rw [List.length_take_of_le hlt.le] at hlength
          omega
      · obtain ⟨n, tail, htake, htail⟩ :=
          ih (fun d hd => hcs d (List.mem_cons_of_mem _ hd)) (m - (String.utf8EncodeChar c).length)
        refine ⟨n + 1, tail, ?_, htail⟩
        rw [encode_cons, List.take_append, List.take_of_length_le hge, htake, List.take_succ_cons,
          encode_cons, List.append_assoc]

/-- A string that has been constructed from well-formed UTF-8 without U+007F. -/
structure PlainString extends StringObject where
  constructed : ∃ (u : Utf8Text) (junk : Nat → UInt8) (k : UInt32), (∀ c ∈ u.chars, c ≠ DEL) ∧
    StringObject.new.assign junk (some u.bytes) k.toNat = some toStringObject

instance : Inhabited PlainString where
  default := ⟨⟨[0], 0, 0, 1⟩, ⟨[], nofun⟩, fun _ => 0, 0, nofun, rfl⟩

namespace PlainString

variable (t : PlainString)

/-- A plain string is a valid object. -/
theorem valid : t.Valid := by
  obtain ⟨u, junk, k, -, hassign⟩ := t.constructed
  exact (StringObject.valid_of_assign (fun _ => u.ne_zero) hassign).1

/-- The bytes are characters, and a fragment where there have been too many of them. -/
theorem exists_chars : ∃ (cs : List Char) (tail : List UInt8), (∀ c ∈ cs, c ≠ DEL) ∧ Fragment tail ∧
    t.bytes = encode cs ++ tail ∧ t.m_length = cs.length := by
  obtain ⟨u, junk, k, hDEL, hassign⟩ := t.constructed
  obtain ⟨hvalid, hbytes, -⟩ := StringObject.valid_of_assign (fun _ => u.ne_zero) hassign
  obtain ⟨n, tail, htake, htail⟩ := exists_take_encode hDEL (StringObject.bytesOf u.bytes k.toNat)
  have hcs : ∀ c ∈ u.chars.take n, c ≠ DEL := fun c hc => hDEL c (List.mem_of_mem_take hc)
  refine ⟨u.chars.take n, tail, hcs, htail, hbytes.trans htake, ?_⟩
  rw [hvalid.length_eq, hbytes.trans htake, encode_eq_flatten,
    utf8Length_of_le (isSequence_map hcs) htail.stuck (by simp), List.length_map]

end PlainString

/-- The text in front of an occurrence of `s` consists of `i` characters. -/
def OccursAt (t s : StringObject) (i : Nat) : Prop :=
  ∃ (cs : List Char) (rest : List UInt8), t.text = encode cs ++ s.text ++ rest ∧ cs.length = i

section occurrences

variable {cs : List Char} {tail : List UInt8} (hcs : ∀ c ∈ cs, c ≠ DEL) (htail : Fragment tail)

include hcs htail

/-- The byte of U+007F is in no text. -/
theorem not_mem_encode : (0x7f : UInt8) ∉ encode cs ++ tail := by
  intro hmem
  rcases List.mem_append.mp hmem with hmem | hmem
  · rw [encode_eq_flatten] at hmem
    obtain ⟨u, hu, hmem⟩ := List.mem_flatten.mp hmem
    exact (isSequence_map hcs u hu).not_mem_del hmem
  · obtain ⟨c, hc, hpre, -⟩ := htail
    exact hc.not_mem_del (hpre.subset hmem)

/-- Characters that the text begins with are its first ones. -/
theorem eq_take_of_encode {ds : List Char} {rest : List UInt8}
    (h : encode cs ++ tail = encode ds ++ rest) :
    ds.length ≤ cs.length ∧
      ds.map String.utf8EncodeChar = (cs.map String.utf8EncodeChar).take ds.length := by
  have hds : ∀ d ∈ ds, d ≠ DEL := by
    rintro d hd rfl
    refine not_mem_encode hcs htail ?_
    rw [h]
    exact List.mem_append_left _ (List.mem_flatMap.mpr ⟨DEL, hd, by decide⟩)
  rw [encode_eq_flatten, encode_eq_flatten] at h
  have htake := eq_take_of_append (isSequence_map hcs) htail (isSequence_map hds) h
  rwa [List.length_map, List.length_map] at htake

/-- A string occurs at a character iff its bytes occur where the character begins. -/
theorem occursAt_iff {t s : StringObject} (ht : t.Valid) (hs : s.Valid)
    (hbytes : t.bytes = encode cs ++ tail) (i : Nat) :
    OccursAt t s i ↔
      i ≤ cs.length ∧ At s.bytes t.bytes (startOf (cs.map String.utf8EncodeChar) i) := by
  unfold OccursAt
  rw [ht.text_eq, hs.text_eq]
  constructor
  · rintro ⟨ds, rest, heq, rfl⟩
    rw [List.append_assoc] at heq
    obtain ⟨hle, hds⟩ := eq_take_of_encode hcs htail (hbytes.symm.trans heq)
    refine ⟨hle, at_iff_exists.mpr ⟨encode ds, rest, by rw [heq, List.append_assoc], ?_⟩⟩
    rw [startOf, ← hds, encode_eq_flatten]
  · rintro ⟨hle, hat⟩
    obtain ⟨u, rest, heq, hlength⟩ := at_iff_exists.mp hat
    refine ⟨cs.take i, rest, ?_, List.length_take_of_le hle⟩
    have hu : u = encode (cs.take i) := by
      have hcut : t.bytes = encode (cs.take i) ++ (encode (cs.drop i) ++ tail) := by
        rw [hbytes, ← List.append_assoc, ← encode_append, List.take_append_drop]
      rw [hcut, List.append_assoc] at heq
      refine (List.append_inj_left heq ?_).symm
      rw [hlength, startOf, encode_eq_flatten, List.map_take]
    rw [heq, hu]

end occurrences

/-! ## The bytes that are found -/

namespace Str

variable {t : Str} {w : List UInt8} {offset : Nat}

/-- Occurrences behind an offset are occurrences, counted from there. -/
theorem at_drop_iff {l : List UInt8} (hoffset : offset ≤ l.length) (p : Nat) :
    At w (l.drop offset) p ↔ At w l (offset + p) := by
  unfold At
  rw [List.length_drop, List.drop_drop]
  constructor <;> rintro ⟨hle, hpre⟩ <;> exact ⟨by omega, hpre⟩

/-- The search from the left finds the least occurrence that is not in front of the offset. -/
theorem findByte_eq_some_iff (hoffset : offset ≤ t.m_buffer.length) (p : Nat) :
    t.findByte w offset = some p ↔ IsLeast {p | offset ≤ p ∧ At w t.m_buffer p} p := by
  unfold findByte
  rw [Option.map_eq_some_iff]
  constructor
  · rintro ⟨q, hq, rfl⟩
    obtain ⟨hat, hleast⟩ := findPos_eq_some_iff.mp hq
    refine ⟨⟨Nat.le_add_right _ _, (at_drop_iff hoffset q).mp hat⟩, ?_⟩
    rintro p ⟨hle, hp⟩
    by_contra hlt
    obtain ⟨r, rfl⟩ := Nat.exists_eq_add_of_le hle
    exact hleast r (by omega) ((at_drop_iff hoffset r).mpr hp)
  · rintro ⟨⟨hle, hat⟩, hleast⟩
    obtain ⟨q, rfl⟩ := Nat.exists_eq_add_of_le hle
    refine ⟨q, findPos_eq_some_iff.mpr ⟨(at_drop_iff hoffset q).mpr hat, ?_⟩, rfl⟩
    intro r hr hat'
    have hge := hleast ⟨Nat.le_add_right offset r, (at_drop_iff hoffset r).mp hat'⟩
    omega

/-- The search from the right finds the greatest occurrence that ends by the offset. -/
theorem reverseFindByte_eq_some_iff (hoffset : offset ≤ t.m_buffer.length) (p : Nat) :
    t.reverseFindByte w offset = some p ↔
      IsGreatest {p | p + distance w (utf8Offset w (npos w)) ≤ offset ∧ At w t.m_buffer p} p := by
  unfold reverseFindByte
  dsimp only
  split
  next hlt =>
    refine iff_of_false (by simp) ?_
    rintro ⟨⟨hle, -⟩, -⟩
    omega
  next hge =>
    rw [rfindPos_eq_some_iff (by omega)]
    constructor
    · rintro ⟨hle, hat, hlast⟩
      refine ⟨⟨by omega, hat⟩, ?_⟩
      rintro q ⟨hq, hat'⟩
      by_contra hlt
      exact hlast q (by omega) (by omega) hat'
    · rintro ⟨⟨hle, hat⟩, hlast⟩
      refine ⟨by omega, hat, fun q hpq hq hat' => ?_⟩
      have hqp := hlast ⟨show q + distance w (utf8Offset w (npos w)) ≤ offset by omega, hat'⟩
      omega

end Str

/-! ## Main result -/

/-- The least element among the images is that of the least element, where it is an image at all. -/
theorem isLeast_image_iff {α β : Type*} [LinearOrder α] [LinearOrder β] {S : Set α} {P : Set β}
    {f : α → β} {g : β → α} (hle : ∀ i ∈ S, ∀ j ∈ S, f i ≤ f j → i ≤ j) (hg : ∀ i ∈ S, g (f i) = i)
    (hS : ∀ i ∈ S, f i ∈ P) (hP : P.Nonempty → ∃ p, IsLeast P p)
    (himage : ∀ p, IsLeast P p → ∃ i ∈ S, f i = p) (i : α) :
    (∃ p, IsLeast P p ∧ g p = i) ↔ IsLeast S i := by
  constructor
  · rintro ⟨p, hp, rfl⟩
    obtain ⟨i, hi, rfl⟩ := himage p hp
    rw [hg i hi]
    exact ⟨hi, fun j hj => hle i hi j hj (hp.2 (hS j hj))⟩
  · intro hi
    obtain ⟨p, hp⟩ := hP ⟨f i, hS i hi.1⟩
    obtain ⟨j, hj, rfl⟩ := himage p hp
    have hji : j ≤ i := hle j hj i hi.1 (hp.2 (hS i hi.1))
    refine ⟨f j, hp, ?_⟩
    rw [hg j hj]
    exact le_antisymm hji (hi.2 hj)

/-- The characters of a string, as sequences. -/
structure Layout (t : PlainString) (L : List (List UInt8)) : Prop where
  sequences : ∀ c ∈ L, IsSequence c
  flatten : ∃ tail, Fragment tail ∧ t.bytes = L.flatten ++ tail
  length : t.m_length = L.length
  occursAt : ∀ (s : PlainString) (i : Nat), OccursAt t.toStringObject s.toStringObject i ↔
    i ≤ L.length ∧ At s.bytes t.bytes (startOf L i)

/-- A plain string is laid out as a row of characters. -/
theorem PlainString.exists_layout (t : PlainString) : ∃ L, Layout t L := by
  obtain ⟨cs, tail, hcs, htail, hbytes, hlength⟩ := t.exists_chars
  refine ⟨cs.map String.utf8EncodeChar, isSequence_map hcs, ⟨tail, htail, ?_⟩, ?_, fun s i => ?_⟩
  · rw [hbytes, encode_eq_flatten]
  · rw [hlength, List.length_map]
  · rw [List.length_map]
    exact occursAt_iff hcs htail t.valid s.valid hbytes i

/-- A string is empty or begins with a first byte. -/
theorem PlainString.bytes_eq_nil_or (s : PlainString) :
    s.bytes = [] ∨ ∃ b v, s.bytes = b :: v ∧ ¬ IsContinuation b := by
  obtain ⟨cs, tail, hcs, htail, hbytes, -⟩ := s.exists_chars
  cases cs with
  | nil =>
      by_cases hnil : tail = []
      · exact .inl (by simp [hbytes, hnil])
      · obtain ⟨b, v, rfl, hb, -⟩ := htail.isBlock hnil
        exact .inr ⟨b, v, hbytes, hb⟩
  | cons c cs =>
      obtain ⟨b, v, heq, hb, -⟩ := (isSequence_utf8EncodeChar (hcs c List.mem_cons_self)).isBlock
      exact .inr ⟨b, v ++ (encode cs ++ tail), by rw [hbytes, encode_cons, heq]; simp, hb⟩

namespace Layout

variable {t s : PlainString} {L D : List (List UInt8)} (hL : Layout t L) (hD : Layout s D)

include hL

/-- Walking k characters from the start leads to the place where the k-th character starts. -/
theorem distance_eq (k : Nat) : distance t.bytes (utf8Offset t.bytes k) = startOf L k := by
  obtain ⟨tail, htail, hbytes⟩ := hL.flatten
  rw [hbytes]
  exact distance_utf8Offset hL.sequences htail.stuck k

/-- Every character starts within the string. -/
theorem startOf_le (k : Nat) : startOf L k ≤ t.bytes.length := by
  rw [← hL.distance_eq]
  exact distance_le _ _

/-- Counting up to the i-th character's start gives i. -/
theorem utf8Length_eq {i : Nat} (hi : i ≤ L.length) : utf8Length t.bytes (startOf L i) = i := by
  obtain ⟨tail, htail, hbytes⟩ := hL.flatten
  rw [hbytes]
  rw [utf8Length_startOf hL.sequences htail.stuck, Nat.min_eq_left hi]

/-- Bytes that occur do so where a character begins; of the empty text this has to be known. -/
theorem exists_startOf {p : Nat} (hat : At s.bytes t.bytes p)
    (hp : s.bytes = [] → ∃ k, startOf L k = p) : ∃ i ≤ L.length, startOf L i = p := by
  rcases s.bytes_eq_nil_or with hnil | hhead
  · obtain ⟨k, rfl⟩ := hp hnil
    exact ⟨min k L.length, Nat.min_le_right _ _, startOf_min L k⟩
  · obtain ⟨tail, htail, hbytes⟩ := hL.flatten
    rw [hbytes] at hat
    exact exists_startOf_of_at hL.sequences htail hhead hat

/-- The bytes up to which the walk over a whole string gets. -/
theorem distance_npos : distance t.bytes (utf8Offset t.bytes (npos t.bytes)) = L.flatten.length := by
  obtain ⟨tail, -, hbytes⟩ := hL.flatten
  have hle := Blocks.length_le_length_flatten (allBlocks_of_isSequence hL.sequences)
  rw [hL.distance_eq, startOf_of_le]
  rw [npos, hbytes, List.length_append]
  omega

include hD

/-- Behind an occurrence the characters of the pattern have been passed. -/
theorem startOf_add {i : Nat} (hi : i ≤ L.length) (hat : At s.bytes t.bytes (startOf L i)) :
    i + D.length ≤ L.length ∧ startOf L (i + D.length) = startOf L i + D.flatten.length := by
  obtain ⟨tail, htail, hbytes⟩ := hL.flatten
  obtain ⟨tail', -, hbytes'⟩ := hD.flatten
  have hfront : t.bytes.take (startOf L i) = (L.take i).flatten := by
    have hcut : t.bytes = (L.take i).flatten ++ ((L.drop i).flatten ++ tail) := by
      rw [hbytes, ← List.append_assoc, ← List.flatten_append, List.take_append_drop]
    rw [hcut, startOf, List.take_left]
  have heq := hat.eq_append
  rw [hfront, hbytes'] at heq
  generalize t.bytes.drop _ = rest at heq
  have hsequence : ∀ c ∈ L.take i ++ D, IsSequence c :=
    List.forall_mem_append.mpr ⟨fun c hc => hL.sequences c (List.mem_of_mem_take hc), hD.sequences⟩
  have hrow : L.flatten ++ tail = (L.take i ++ D).flatten ++ (tail' ++ rest) := by
    rw [← hbytes, heq]
    simp
  obtain ⟨hle, htake⟩ := eq_take_of_append hL.sequences htail hsequence hrow
  rw [List.length_append, List.length_take_of_le hi] at hle htake
  refine ⟨hle, ?_⟩
  unfold startOf
  rw [← htake, List.flatten_append, List.length_append]

end Layout

section exact

variable (t s : PlainString) (k : Nat)

/-- The least occurrence from a character on is found. -/
theorem find_eq_some_iff (i : Nat) :
    t.str.find s.bytes k = some i ↔
      IsLeast {i | min k t.m_length ≤ i ∧ OccursAt t.toStringObject s.toStringObject i} i := by
  obtain ⟨L, hL⟩ := t.exists_layout
  have hmin : min k t.m_length ≤ L.length := hL.length ▸ Nat.min_le_right _ _
  have hstart : startOf L (min k t.m_length) = startOf L k := by rw [hL.length, startOf_min]
  unfold Str.find
  dsimp only [StringObject.str_buffer]
  rw [hL.distance_eq, Option.map_eq_some_iff]
  simp only [Str.findByte_eq_some_iff (t := t.str) (hL.startOf_le k)]
  refine isLeast_image_iff (f := startOf L) ?_ ?_ ?_ ?_ ?_ i
  · rintro i ⟨-, hi⟩ j ⟨-, hj⟩
    exact (startOf_le_iff hL.sequences ((hL.occursAt s i).mp hi).1 ((hL.occursAt s j).mp hj).1).mp
  · rintro i ⟨-, hi⟩
    exact hL.utf8Length_eq ((hL.occursAt s i).mp hi).1
  · rintro i ⟨hle, hi⟩
    obtain ⟨hi, hat⟩ := (hL.occursAt s i).mp hi
    refine ⟨?_, hat⟩
    rw [← hstart]
    exact (startOf_le_iff hL.sequences hmin hi).mpr hle
  · intro hne
    exact ⟨_, Nat.sInf_mem hne, fun _ hp => Nat.sInf_le hp⟩
  · rintro p ⟨⟨hle, hat⟩, hleast⟩
    obtain ⟨i, hi, rfl⟩ := hL.exists_startOf hat fun hnil => by
      have hin : startOf L k ≤ startOf L k ∧ At s.bytes t.bytes (startOf L k) := by
        rw [hnil]
        exact ⟨le_rfl, hL.startOf_le k, List.nil_prefix⟩
      exact ⟨k, le_antisymm hle (hleast hin)⟩
    refine ⟨i, ⟨?_, (hL.occursAt s i).mpr ⟨hi, hat⟩⟩, rfl⟩
    rw [← hstart] at hle
    exact (startOf_le_iff hL.sequences hmin hi).mp hle

/-- The greatest occurrence that ends at a character or before is found. -/
theorem reverseFind_eq_some_iff (i : Nat) :
    t.str.reverseFind s.bytes k = some i ↔
      IsGreatest {i | i + s.m_length ≤ min k t.m_length ∧
        OccursAt t.toStringObject s.toStringObject i} i := by
  obtain ⟨L, hL⟩ := t.exists_layout
  obtain ⟨D, hD⟩ := s.exists_layout
  have hmin : min k t.m_length ≤ L.length := hL.length ▸ Nat.min_le_right _ _
  have hstart : startOf L (min k t.m_length) = startOf L k := by rw [hL.length, startOf_min]
  unfold Str.reverseFind
  dsimp only [StringObject.str_buffer]
  rw [hL.distance_eq, Option.map_eq_some_iff]
  simp only [Str.reverseFindByte_eq_some_iff (t := t.str) (hL.startOf_le k), hD.distance_npos]
  refine isLeast_image_iff (α := Natᵒᵈ) (β := Natᵒᵈ) (f := startOf L) ?_ ?_ ?_ ?_ ?_ i
  · rintro i ⟨-, hi⟩ j ⟨-, hj⟩
    exact (startOf_le_iff hL.sequences ((hL.occursAt s j).mp hj).1 ((hL.occursAt s i).mp hi).1).mp
  · rintro i ⟨-, hi⟩
    exact hL.utf8Length_eq ((hL.occursAt s i).mp hi).1
  · rintro i ⟨hle, hi⟩
    obtain ⟨hi, hat⟩ := (hL.occursAt s i).mp hi
    obtain ⟨hadd, hpassed⟩ := hL.startOf_add hD hi hat
    refine ⟨?_, hat⟩
    rw [← hstart, ← hpassed]
    exact (startOf_le_iff hL.sequences hadd hmin).mpr (hD.length ▸ hle)
  · intro hne
    have hbounded : BddAbove
        {p | p + D.flatten.length ≤ startOf L k ∧ At s.bytes t.bytes p} :=
      ⟨startOf L k, fun p hp => (Nat.le_add_right p _).trans hp.1⟩
    exact ⟨_, Nat.sSup_mem hne hbounded, fun _ hp => le_csSup hbounded hp⟩
  · rintro p ⟨⟨hle, hat⟩, hlast⟩
    obtain ⟨i, hi, rfl⟩ := hL.exists_startOf hat fun hnil => by
      have hzero : D.flatten.length = 0 := by
        obtain ⟨tail, -, hbytes⟩ := hD.flatten
        rw [hnil] at hbytes
        rw [(List.append_eq_nil_iff.mp hbytes.symm).1]
        rfl
      have hin : startOf L k + D.flatten.length ≤ startOf L k ∧ At s.bytes t.bytes (startOf L k) := by
        rw [hnil, hzero]
        exact ⟨le_rfl, hL.startOf_le k, List.nil_prefix⟩
      exact ⟨k, le_antisymm (hlast hin) ((Nat.le_add_right _ _).trans hle)⟩
    obtain ⟨hadd, hpassed⟩ := hL.startOf_add hD hi hat
    refine ⟨i, ⟨?_, (hL.occursAt s i).mpr ⟨hi, hat⟩⟩, rfl⟩
    rw [← hstart, ← hpassed] at hle
    rw [hD.length]
    exact (startOf_le_iff hL.sequences hadd hmin).mp hle

end exact

/-- Nothing is found iff there is nothing of which an extremal one is to be found. -/
theorem eq_none_iff_of_mem {r : Option Nat} {S : Set Nat} {P : Nat → Prop}
    (h : ∀ i, r = some i ↔ P i) (hP : ∀ i, P i → i ∈ S) (hS : S.Nonempty → ∃ i, P i) :
    r = none ↔ ∀ i, i ∉ S := by
  constructor
  · rintro hnone i hi
    obtain ⟨j, hj⟩ := hS ⟨i, hi⟩
    have hsome := (h j).mpr hj
    rw [hnone] at hsome
    simp at hsome
  · intro hnot
    rw [Option.eq_none_iff_forall_ne_some]
    exact fun i hi => hnot i (hP i ((h i).mp hi))

/-- A search that has found something returns it. -/
theorem foundOr_eq_ok_iff {r : Option Nat} {i : Nat} : foundOr r = .ok i ↔ r = some i := by
  cases r <;> simp [foundOr]

/-- A search that has found nothing throws. -/
theorem foundOr_eq_notFound_iff {r : Option Nat} : foundOr r = .error .notFound ↔ r = none := by
  cases r <;> simp [foundOr]

/-- For all strings that have been constructed from UTF-8 without U+007F and every offset `k`: `find`
returns the least character from the one with the number `k` on at which the pattern occurs,
`reverse_find` the greatest at which it occurs with its end at that character or before, and they throw
`E_NOT_FOUND` iff there is none. So they read nothing behind a NUL. -/
theorem search_exact (t s : PlainString) (k : Nat) :
    (∀ i, t.find s.toStringObject k = .ok i ↔
      IsLeast {i | min k t.m_length ≤ i ∧ OccursAt t.toStringObject s.toStringObject i} i) ∧
    (t.find s.toStringObject k = .error .notFound ↔
      ∀ i, min k t.m_length ≤ i → ¬ OccursAt t.toStringObject s.toStringObject i) ∧
    (∀ i, t.reverseFind s.toStringObject k = .ok i ↔
      IsGreatest {i | i + s.m_length ≤ min k t.m_length ∧
        OccursAt t.toStringObject s.toStringObject i} i) ∧
    (t.reverseFind s.toStringObject k = .error .notFound ↔
      ∀ i, i + s.m_length ≤ min k t.m_length →
        ¬ OccursAt t.toStringObject s.toStringObject i) := by
  rw [StringObject.find_eq t.valid s.valid, StringObject.reverseFind_eq t.valid s.valid]
  simp only [foundOr_eq_ok_iff, foundOr_eq_notFound_iff]
  refine ⟨find_eq_some_iff t s k, ?_, reverseFind_eq_some_iff t s k, ?_⟩
  · rw [eq_none_iff_of_mem (find_eq_some_iff t s k) (fun i hi => hi.1)]
    · exact forall_congr' fun i => not_and
    · exact fun hne => ⟨_, Nat.sInf_mem hne, fun _ hi => Nat.sInf_le hi⟩
  · rw [eq_none_iff_of_mem (reverseFind_eq_some_iff t s k) (fun i hi => hi.1)]
    · exact forall_congr' fun i => not_and
    · intro hne
      have hbounded : BddAbove {i | i + s.m_length ≤ min k t.m_length ∧
          OccursAt t.toStringObject s.toStringObject i} :=
        ⟨min k t.m_length, fun i hi => (Nat.le_add_right i _).trans hi.1⟩
      exact ⟨_, Nat.sSup_mem hne hbounded, fun _ hi => le_csSup hbounded hi⟩

end Irstessi
