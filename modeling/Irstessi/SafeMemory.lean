import Irstessi.Lib.Address
import Irstessi.ReadBlocks

/-!
# How the checked functions copy memory

`memcpy_s` copies in words where both addresses are aligned alike, upwards or downwards, and fills the
destination in words of four equal bytes where it refuses to copy.

* `memPrimMove`: the transfers of `mem_prim_move`, with its loops that test behind their bodies;
  `memPrimSet`: the stores of `mem_prim_set`.
* **`memPrimMove_spec`**: for any overlap the bytes are moved, each access lies in the two places, and
  every access of a word is aligned.
* `memPrimSet_spec`: the bytes are filled.
* `memcpySAt`: the function with its checks, over memory by addresses.
* **`memcpySAt_block`**: where the places are apart, `memcpy_s` over blocks of cells is what it does, and
  nothing else is changed.

Addresses are numbers, and memory a function from them to bytes. The loops become lists of transfers,
each of one or four bytes, in the order in which the source makes them; what they do is the subject of
`Lib.Memory`. That the bytes are moved for any overlap is a matter of this order: upwards where the
destination is below, downwards otherwise. `Tidy` collects what the two lists have in common. A loop
that tests behind its body would run 2^32 times for a count of zero; the callers of the source test
before, and `rounds` is where the model says so.
-/

namespace Irstessi

open Address

/-! ## The primitives -/

/-- How often the body of `do { .. } while (--tsp)` runs, for a counter of 32 bits. -/
def rounds (tsp : Nat) : Nat := if tsp = 0 then 2 ^ 32 else tsp

/-- The transfers, in their order. The pointer `tsp` is cut to 32 bits.
Source: `mem_primitives_lib.c` `mem_prim_move` -/
def memPrimMove (dp sp len : Nat) : List Transfer :=
  if dp < sp then
    let tsp := sp % 2 ^ 32
    -- the bytes that align both pointers
    let align := decide ((tsp ||| dp) &&& 3 ≠ 0)
    let tsp := if (tsp ^^^ dp) &&& 3 ≠ 0 ∨ len < 4 then len else 4 - (tsp &&& 3)
    let first := if align then rounds tsp else 0
    let len := if align then len - tsp else len
    let words := len / 4
    copyUp 1 first dp sp ++ copyUp 4 words (dp + first) (sp + first) ++
      copyUp 1 (len &&& 3) (dp + first + 4 * words) (sp + first + 4 * words)
  else
    let sp := sp + len
    let dp := dp + len
    let tsp := sp % 2 ^ 32
    let align := decide ((tsp ||| dp) &&& 3 ≠ 0)
    let tsp := if (tsp ^^^ dp) &&& 3 ≠ 0 ∨ len ≤ 4 then len else tsp &&& 3
    let first := if align then rounds tsp else 0
    let len := if align then len - tsp else len
    let words := len / 4
    copyDown 1 first dp sp ++ copyDown 4 words (dp - first) (sp - first) ++
      copyDown 1 (len &&& 3) (dp - first - 4 * words) (sp - first - 4 * words)

/-- The four bytes of the word.
Source: `mem_primitives_lib.c` `mem_prim_set`, `value32` -/
def value32 (value : UInt8) : UInt32 :=
  value.toUInt32 ||| value.toUInt32 <<< 8 ||| value.toUInt32 <<< 16 ||| value.toUInt32 <<< 24

/-- The bytes of a word in memory. -/
def wordBytes (word : UInt32) : List UInt8 :=
  [word.toUInt8, (word >>> 8).toUInt8, (word >>> 16).toUInt8, (word >>> 24).toUInt8]

/-- The bytes that are stored until the pointer is aligned, or there is none left.
Source: `mem_primitives_lib.c` `mem_prim_set`, the first loop -/
def alignStores (value : UInt8) : Nat → Nat → List (Nat × List UInt8)
  | 0, _ => []
  | count + 1, dp =>
      if dp &&& 3 ≠ 0 then (dp, [value]) :: alignStores value count (dp + 1) else []

/-- `n` stores of the same bytes one behind the other. -/
def repeatStores (bytes : List UInt8) : Nat → Nat → List (Nat × List UInt8)
  | 0, _ => []
  | n + 1, dp => (dp, bytes) :: repeatStores bytes n (dp + bytes.length)

/-- A round stores 16 words, or all that are left where these are fewer.
Source: `mem_primitives_lib.c` `mem_prim_set`, `while (lcount != 0)` -/
def wordStores (value32 : UInt32) (lcount lp : Nat) : List (Nat × List UInt8) :=
  if lcount = 0 then []
  else if 15 < lcount then
    repeatStores (wordBytes value32) 16 lp ++ wordStores value32 (lcount - 16) (lp + 64)
  else repeatStores (wordBytes value32) lcount lp
termination_by lcount

/-- The stores, in their order.
Source: `mem_primitives_lib.c` `mem_prim_set` -/
def memPrimSet (dp len : Nat) (value : UInt8) : List (Nat × List UInt8) :=
  let first := alignStores value len dp
  let count := len - first.length
  let lp := dp + first.length
  let lcount := count >>> 2
  first ++ wordStores (value32 value) lcount lp ++
    repeatStores [value] (count &&& 3) (lp + 4 * lcount)

section bits

variable {a b : Nat}

/-- The mask of the source's alignment test is the remainder modulo 4. -/
theorem and_three : a &&& 3 = a % 4 := Nat.and_two_pow_sub_one_eq_mod a 2

/-- The low bits of both pointers are 0. -/
theorem or_and_three_eq_zero : (a % 2 ^ 32 ||| b) &&& 3 = 0 ↔ a % 4 = 0 ∧ b % 4 = 0 := by
  rw [and_three]
  have hor : (a % 2 ^ 32 ||| b) % 4 = (a % 2 ^ 32 % 4) ||| (b % 4) :=
    Nat.or_mod_two_pow (a := a % 2 ^ 32) (b := b) (n := 2)
  rw [hor, Nat.or_eq_zero_iff, Nat.mod_mod_of_dvd a (by decide : 4 ∣ 2 ^ 32)]

/-- The low bits of both pointers are the same. -/
theorem xor_and_three_eq_zero : (a % 2 ^ 32 ^^^ b) &&& 3 = 0 ↔ a % 4 = b % 4 := by
  rw [and_three]
  have hxor : (a % 2 ^ 32 ^^^ b) % 4 = (a % 2 ^ 32 % 4) ^^^ (b % 4) :=
    Nat.xor_mod_two_pow (a := a % 2 ^ 32) (b := b) (n := 2)
  have hsmall : ∀ x < 4, ∀ y < 4, x ^^^ y = 0 ↔ x = y := by decide
  rw [hxor, hsmall _ (Nat.mod_lt _ (by decide)) _ (Nat.mod_lt _ (by decide)),
    Nat.mod_mod_of_dvd a (by decide : 4 ∣ 2 ^ 32)]

end bits

/-- The transfers stay in the two places, and those of a word are aligned. -/
structure Tidy (dp sp len : Nat) (ts : List Transfer) : Prop where
  dest : ∀ t ∈ ts, dp ≤ t.dp ∧ t.dp + t.width ≤ dp + len
  src : ∀ t ∈ ts, sp ≤ t.sp ∧ t.sp + t.width ≤ sp + len
  aligned : ∀ t ∈ ts, t.width = 1 ∨ t.width = 4 ∧ t.dp % 4 = 0 ∧ t.sp % 4 = 0

section tidy

variable {dp sp len first words : Nat}

/-- Bytes, then words, then bytes, upwards. -/
theorem tidy_up (hlen : first + 4 * words ≤ len)
    (haligned : words ≠ 0 → (dp + first) % 4 = 0 ∧ (sp + first) % 4 = 0) :
    Tidy dp sp len (copyUp 1 first dp sp ++ copyUp 4 words (dp + first) (sp + first) ++
      copyUp 1 (len - (first + 4 * words)) (dp + first + 4 * words) (sp + first + 4 * words)) := by
  have hall : ∀ t ∈ copyUp 1 first dp sp ++ copyUp 4 words (dp + first) (sp + first) ++
      copyUp 1 (len - (first + 4 * words)) (dp + first + 4 * words) (sp + first + 4 * words),
      ∃ k, t.dp = dp + k ∧ t.sp = sp + k ∧ k + t.width ≤ len ∧
        (t.width = 1 ∨ t.width = 4 ∧ t.dp % 4 = 0 ∧ t.sp % 4 = 0) := by
    intro t ht
    rw [List.mem_append, List.mem_append] at ht
    rcases ht with (ht | ht) | ht
    · obtain ⟨hwidth, k, hk, hdp, hsp⟩ := mem_copyUp ht
      exact ⟨k, by omega, by omega, by omega, .inl hwidth⟩
    · obtain ⟨hwidth, k, hk, hdp, hsp⟩ := mem_copyUp ht
      obtain ⟨hdp₀, hsp₀⟩ := haligned (by omega)
      exact ⟨first + 4 * k, by omega, by omega, by omega, .inr ⟨hwidth, by omega, by omega⟩⟩
    · obtain ⟨hwidth, k, hk, hdp, hsp⟩ := mem_copyUp ht
      exact ⟨first + 4 * words + k, by omega, by omega, by omega, .inl hwidth⟩
  constructor
  · intro t ht
    obtain ⟨k, hdp, -, hk, -⟩ := hall t ht
    omega
  · intro t ht
    obtain ⟨k, -, hsp, hk, -⟩ := hall t ht
    omega
  · intro t ht
    obtain ⟨k, -, -, -, haligned⟩ := hall t ht
    exact haligned

/-- Bytes, then words, then bytes, downwards. -/
theorem tidy_down (hlen : first + 4 * words ≤ len)
    (haligned : words ≠ 0 → (dp + len - first) % 4 = 0 ∧ (sp + len - first) % 4 = 0) :
    Tidy dp sp len (copyDown 1 first (dp + len) (sp + len) ++
      copyDown 4 words (dp + len - first) (sp + len - first) ++
      copyDown 1 (len - (first + 4 * words)) (dp + len - first - 4 * words)
        (sp + len - first - 4 * words)) := by
  have hall : ∀ t ∈ copyDown 1 first (dp + len) (sp + len) ++
      copyDown 4 words (dp + len - first) (sp + len - first) ++
      copyDown 1 (len - (first + 4 * words)) (dp + len - first - 4 * words)
        (sp + len - first - 4 * words),
      ∃ k, t.dp + k = dp + len ∧ t.sp + k = sp + len ∧ t.width ≤ k ∧ k ≤ len ∧
        (t.width = 1 ∨ t.width = 4 ∧ t.dp % 4 = 0 ∧ t.sp % 4 = 0) := by
    intro t ht
    rw [List.mem_append, List.mem_append] at ht
    rcases ht with (ht | ht) | ht
    · obtain ⟨hwidth, k, hk, hdp, hsp⟩ := mem_copyDown ht (by omega) (by omega)
      exact ⟨k + 1, by omega, by omega, by omega, by omega, .inl hwidth⟩
    · obtain ⟨hwidth, k, hk, hdp, hsp⟩ := mem_copyDown ht (by omega) (by omega)
      obtain ⟨hdp₀, hsp₀⟩ := haligned (by omega)
      exact ⟨first + 4 * (k + 1), by omega, by omega, by omega, by omega,
        .inr ⟨hwidth, by omega, by omega⟩⟩
    · obtain ⟨hwidth, k, hk, hdp, hsp⟩ := mem_copyDown ht (by omega) (by omega)
      exact ⟨first + 4 * words + (k + 1), by omega, by omega, by omega, by omega, .inl hwidth⟩
  constructor
  · intro t ht
    obtain ⟨k, hdp, -, hwidth, hk, -⟩ := hall t ht
    omega
  · intro t ht
    obtain ⟨k, -, hsp, hwidth, hk, -⟩ := hall t ht
    omega
  · intro t ht
    obtain ⟨k, -, -, -, -, haligned⟩ := hall t ht
    exact haligned

end tidy

section move

variable {dp sp len : Nat} {mem : Nat → UInt8}

/-- How the transfers are cut: so many bytes first, then so many words. -/
theorem memPrimMove_up (h : dp < sp) (hlen : 0 < len) :
    ∃ first words, first + 4 * words ≤ len ∧
      (words ≠ 0 → (dp + first) % 4 = 0 ∧ (sp + first) % 4 = 0) ∧
      memPrimMove dp sp len = copyUp 1 first dp sp ++ copyUp 4 words (dp + first) (sp + first) ++
        copyUp 1 (len - (first + 4 * words)) (dp + first + 4 * words) (sp + first + 4 * words) := by
  unfold memPrimMove
  rw [if_pos h]
  dsimp only
  have hmask : sp % 2 ^ 32 &&& 3 = sp % 4 := by
    rw [and_three, Nat.mod_mod_of_dvd sp (by decide : 4 ∣ 2 ^ 32)]
  by_cases haligned : sp % 4 = 0 ∧ dp % 4 = 0
  · -- no byte is needed to align the pointers
    have halign : decide ((sp % 2 ^ 32 ||| dp) &&& 3 ≠ 0) = false :=
      decide_eq_false (not_not.mpr (or_and_three_eq_zero.mpr haligned))
    refine ⟨0, len / 4, by omega, fun _ => ⟨by omega, by omega⟩, ?_⟩
    rw [halign]
    simp only [Bool.false_eq_true, if_false]
    have hrest : len &&& 3 = len - (0 + 4 * (len / 4)) := by
      rw [and_three]
      omega
    rw [hrest]
  · have halign : decide ((sp % 2 ^ 32 ||| dp) &&& 3 ≠ 0) = true :=
      decide_eq_true fun h => haligned (or_and_three_eq_zero.mp h)
    rw [halign]
    simp only [if_true]
    by_cases hbytes : (sp % 2 ^ 32 ^^^ dp) &&& 3 ≠ 0 ∨ len < 4
    · -- all of them are moved as bytes
      rw [if_pos hbytes]
      have hrounds : rounds len = len := if_neg (by omega)
      refine ⟨len, 0, by omega, fun h => absurd rfl h, ?_⟩
      rw [hrounds]
      simp
    · rw [if_neg hbytes, hmask]
      push Not at hbytes
      obtain ⟨hsame, hfour⟩ := hbytes
      have hmod := xor_and_three_eq_zero.mp hsame
      have hrounds : rounds (4 - sp % 4) = 4 - sp % 4 := if_neg (by omega)
      rw [hrounds, and_three]
      refine ⟨4 - sp % 4, (len - (4 - sp % 4)) / 4, by omega, fun _ => ⟨by omega, by omega⟩, ?_⟩
      have hrest : (len - (4 - sp % 4)) % 4 =
          len - (4 - sp % 4 + 4 * ((len - (4 - sp % 4)) / 4)) := by omega
      rw [hrest]

/-- The downward move, cut into its three phases: single bytes to an aligned end, words, and single
bytes in front of them. Source and destination are aligned together where there are words. -/
theorem memPrimMove_down (h : ¬ dp < sp) (hlen : 0 < len) :
    ∃ first words, first + 4 * words ≤ len ∧
      (words ≠ 0 → (dp + len - first) % 4 = 0 ∧ (sp + len - first) % 4 = 0) ∧
      memPrimMove dp sp len = copyDown 1 first (dp + len) (sp + len) ++
        copyDown 4 words (dp + len - first) (sp + len - first) ++
        copyDown 1 (len - (first + 4 * words)) (dp + len - first - 4 * words)
          (sp + len - first - 4 * words) := by
  unfold memPrimMove
  rw [if_neg h]
  dsimp only
  have hmask : (sp + len) % 2 ^ 32 &&& 3 = (sp + len) % 4 := by
    rw [and_three, Nat.mod_mod_of_dvd (sp + len) (by decide : 4 ∣ 2 ^ 32)]
  by_cases haligned : (sp + len) % 4 = 0 ∧ (dp + len) % 4 = 0
  · have halign : decide (((sp + len) % 2 ^ 32 ||| (dp + len)) &&& 3 ≠ 0) = false :=
      decide_eq_false (not_not.mpr (or_and_three_eq_zero.mpr haligned))
    refine ⟨0, len / 4, by omega, fun _ => ⟨by omega, by omega⟩, ?_⟩
    rw [halign]
    simp only [Bool.false_eq_true, if_false]
    have hrest : len &&& 3 = len - (0 + 4 * (len / 4)) := by
      rw [and_three]
      omega
    rw [hrest]
  · have halign : decide (((sp + len) % 2 ^ 32 ||| (dp + len)) &&& 3 ≠ 0) = true :=
      decide_eq_true fun h => haligned (or_and_three_eq_zero.mp h)
    rw [halign]
    simp only [if_true]
    by_cases hbytes : ((sp + len) % 2 ^ 32 ^^^ (dp + len)) &&& 3 ≠ 0 ∨ len ≤ 4
    · rw [if_pos hbytes]
      have hrounds : rounds len = len := if_neg (by omega)
      refine ⟨len, 0, by omega, fun h => absurd rfl h, ?_⟩
      rw [hrounds]
      simp
    · rw [if_neg hbytes, hmask]
      push Not at hbytes
      obtain ⟨hsame, hfour⟩ := hbytes
      have hmod := xor_and_three_eq_zero.mp hsame
      have hrounds : rounds ((sp + len) % 4) = (sp + len) % 4 := if_neg (by omega)
      rw [hrounds, and_three]
      refine ⟨(sp + len) % 4, (len - (sp + len) % 4) / 4, by omega, fun _ => ⟨by omega, by omega⟩, ?_⟩
      have hrest : (len - (sp + len) % 4) % 4 =
          len - ((sp + len) % 4 + 4 * ((len - (sp + len) % 4) / 4)) := by omega
      rw [hrest]

/-- The transfers move the bytes whatever the overlap is. -/
theorem transferAll_memPrimMove (hlen : 0 < len) :
    transferAll mem (memPrimMove dp sp len) = move mem dp sp len := by
  by_cases h : dp < sp
  · obtain ⟨first, words, hcut, -, heq⟩ := memPrimMove_up h hlen
    rw [heq, transferAll_append, transferAll_append, transferAll_copyUp (by omega),
      transferAll_copyUp (by omega), transferAll_copyUp (by omega), move_move_up (by omega), Nat.one_mul,
      Nat.one_mul, move_move_up (by omega)]
    congr 1
    omega
  · obtain ⟨first, words, hcut, -, heq⟩ := memPrimMove_down h hlen
    rw [heq, transferAll_append, transferAll_append, transferAll_copyDown (by omega) (by omega),
      transferAll_copyDown (by omega) (by omega), transferAll_copyDown (by omega) (by omega)]
    -- what is left to move lies below what has been moved
    obtain ⟨rest, rfl⟩ := Nat.exists_eq_add_of_le hcut
    have hrest : first + 4 * words + rest - (first + 4 * words) = rest := by omega
    have hd₁ : dp + (first + 4 * words + rest) - 1 * first = dp + rest + 4 * words := by omega
    have hs₁ : sp + (first + 4 * words + rest) - 1 * first = sp + rest + 4 * words := by omega
    have hd₂ : dp + (first + 4 * words + rest) - first - 4 * words = dp + rest := by omega
    have hs₂ : sp + (first + 4 * words + rest) - first - 4 * words = sp + rest := by omega
    have hd₃ : dp + rest - 1 * rest = dp := by omega
    have hs₃ : sp + rest - 1 * rest = sp := by omega
    rw [hrest, hd₁, hs₁, hd₂, hs₂, hd₃, hs₃, Nat.one_mul, Nat.one_mul, move_move_down (by omega),
      Nat.add_assoc dp, Nat.add_assoc sp, move_move_down (by omega)]
    congr 1
    omega

/-- The transfers stay in the two places, and those of a word are aligned. -/
theorem tidy_memPrimMove (hlen : 0 < len) : Tidy dp sp len (memPrimMove dp sp len) := by
  by_cases h : dp < sp
  · obtain ⟨first, words, hcut, haligned, heq⟩ := memPrimMove_up h hlen
    rw [heq]
    exact tidy_up hcut haligned
  · obtain ⟨first, words, hcut, haligned, heq⟩ := memPrimMove_down h hlen
    rw [heq]
    exact tidy_down hcut haligned

/-- The bytes are moved whatever the overlap is, in accesses to the two places only, and those of a word
are aligned. Which bytes are moved one by one and which in words depends on how the two addresses are
aligned and on whether the bytes are moved upwards or downwards; the theorem holds for every choice of
the addresses and every length but 0, which the callers exclude. -/
theorem memPrimMove_spec (hlen : 0 < len) :
    transferAll mem (memPrimMove dp sp len) = move mem dp sp len ∧
      Tidy dp sp len (memPrimMove dp sp len) :=
  ⟨transferAll_memPrimMove hlen, tidy_memPrimMove hlen⟩

/-- Two places that overlap and are aligned alike. -/
theorem memPrimMove_spec_overlap :
    transferAll (fun a => UInt8.ofNat a) (memPrimMove 6 2 11) = move (fun a => UInt8.ofNat a) 6 2 11 ∧
      Tidy 6 2 11 (memPrimMove 6 2 11) :=
  memPrimMove_spec (by decide)

end move

/-! ## Filling -/

section fill

variable {mem : Nat → UInt8} {value : UInt8} {dp len : Nat}

/-- The word that the byte is multiplied into has this byte four times. -/
theorem wordBytes_value32 (value : UInt8) : wordBytes (value32 value) = List.replicate 4 value := by
  have hall : ∀ n < 2 ^ 8, wordBytes (value32 (UInt8.ofNat n)) = List.replicate 4 (UInt8.ofNat n) := by
    decide +kernel
  have hvalue := hall value.toNat value.toNat_lt
  rwa [UInt8.ofNat_toNat] at hvalue

/-- Equal stores side by side fill a block, whatever their width is. -/
theorem storeAll_repeatStores (width n : Nat) :
    storeAll mem (repeatStores (List.replicate width value) n dp) = fill mem dp (width * n) value := by
  induction n generalizing mem dp with
  | zero => simp [repeatStores]
  | succ n ih =>
      rw [repeatStores, storeAll_cons, ih, List.length_replicate, store_replicate, fill_fill,
        Nat.mul_succ, Nat.add_comm]

/-- The first phase of `mem_prim_set` fills up to the aligned place. -/
theorem storeAll_alignStores :
    storeAll mem (alignStores value len dp) = fill mem dp (alignStores value len dp).length value := by
  induction len generalizing mem dp with
  | zero => simp [alignStores]
  | succ len ih =>
      rw [alignStores]
      split
      · have hone : store mem dp [value] = fill mem dp 1 value := store_replicate (n := 1)
        rw [storeAll_cons, ih, hone, fill_fill, List.length_cons, Nat.add_comm]
      · simp

/-- The second phase fills whole words; it is unrolled in the source and a repetition here. -/
theorem storeAll_wordStores (lcount lp : Nat) :
    storeAll mem (wordStores (value32 value) lcount lp) = fill mem lp (4 * lcount) value := by
  fun_induction wordStores (value32 value) lcount lp generalizing mem with
  | case1 lp => simp
  | case2 lcount lp hpos hmany ih =>
      rw [storeAll_append, wordBytes_value32, storeAll_repeatStores, ih, fill_fill]
      congr 1
      omega
  | case3 lcount lp hpos hfew => rw [wordBytes_value32, storeAll_repeatStores]

/-- The first loop stores no more bytes than there are, and then the pointer is aligned or there is none
left. -/
theorem alignStores_spec (value : UInt8) (len dp : Nat) :
    (alignStores value len dp).length ≤ len ∧
      ((alignStores value len dp).length = len ∨ (dp + (alignStores value len dp).length) % 4 = 0) := by
  induction len generalizing dp with
  | zero => exact ⟨Nat.le_refl 0, .inl rfl⟩
  | succ len ih =>
      rw [alignStores]
      split
      · obtain ⟨hle, hend⟩ := ih (dp + 1)
        rw [List.length_cons]
        exact ⟨by omega, hend.imp (fun h => by omega) fun h => by omega⟩
      next haligned =>
        rw [and_three] at haligned
        rw [List.length_nil]
        exact ⟨Nat.zero_le _, .inr (by omega)⟩

/-- All bytes are set, and no other one. -/
theorem memPrimSet_spec (mem : Nat → UInt8) (dp len : Nat) (value : UInt8) :
    storeAll mem (memPrimSet dp len value) = fill mem dp len value := by
  have hbytes : ∀ (n : Nat) {mem : Nat → UInt8} {dp : Nat},
      storeAll mem (repeatStores [value] n dp) = fill mem dp (1 * n) value :=
    fun n => storeAll_repeatStores 1 n
  obtain ⟨hle, -⟩ := alignStores_spec value len dp
  unfold memPrimSet
  dsimp only
  rw [storeAll_append, storeAll_append, storeAll_alignStores, storeAll_wordStores, fill_fill, hbytes,
    Nat.add_assoc, fill_fill, and_three, Nat.shiftRight_eq_div_pow]
  congr 1
  omega

end fill

/-! ## The checked functions -/

/-- What a function returns.
Source: `safe_lib_errno.h` -/
inductive SafeError
  | EOK
  | ESNULLP
  | ESZEROL
  | ESLEMAX
  | ESOVRLP
  | ESNOSPC
  deriving DecidableEq, Repr

/-- A null pointer is the address 0. -/
def NULL : Nat := 0

/-- Memory afterwards, and what is returned. The handler that is called for an error does nothing to
memory.
Source: `memcpy_s.c` `memcpy_s` -/
def memcpySAt (mem : Nat → UInt8) (dest dmax src smax : Nat) : SafeError × (Nat → UInt8) :=
  if dest = NULL then (.ESNULLP, mem)
  else if dmax = 0 then (.ESZEROL, mem)
  else if RSIZE_MAX_MEM < dmax then (.ESLEMAX, mem)
  else if smax = 0 then (.ESZEROL, storeAll mem (memPrimSet dest dmax 0))
  else if dmax < smax then (.ESLEMAX, storeAll mem (memPrimSet dest dmax 0))
  else if src = NULL then (.ESNULLP, storeAll mem (memPrimSet dest dmax 0))
  else if (src < dest ∧ dest < src + smax) ∨ (dest < src ∧ src < dest + dmax) then
    (.ESOVRLP, storeAll mem (memPrimSet dest dmax 0))
  else (.EOK, transferAll mem (memPrimMove dest src smax))

section checked

variable {mem : Nat → UInt8} {dest dmax src smax : Nat}

/-- `memcpy_s` over blocks of cells is what the function does with two places that are apart, and no
other byte is changed. This connects the two models of the function: the one over blocks, which the
models of files and strings use, and the one over addresses with its transfers. It covers the refusals
as well. -/
theorem memcpySAt_block {n m : Nat} (mem : Nat → UInt8) (hdest : dest ≠ NULL) (hsrc : src ≠ NULL)
    (hdmax : dmax ≤ n) (hsmax : smax ≤ m) (hapart : dest + n ≤ src ∨ src + m ≤ dest) :
    block (memcpySAt mem dest dmax src smax).2 dest n =
        memcpy_s (block mem dest n) dmax (block mem src m) smax ∧
      ∀ a, a < dest ∨ dest + n ≤ a → (memcpySAt mem dest dmax src smax).2 a = mem a := by
  have hmem : (memcpySAt mem dest dmax src smax).2 =
      if dmax = 0 ∨ RSIZE_MAX_MEM < dmax then mem
      else if smax = 0 ∨ dmax < smax then fill mem dest dmax 0
      else move mem dest src smax := by
    unfold memcpySAt
    rw [if_neg hdest, if_neg hsrc]
    by_cases hzero : dmax = 0
    · rw [if_pos hzero, if_pos (.inl hzero)]
    by_cases hlarge : RSIZE_MAX_MEM < dmax
    · rw [if_neg hzero, if_pos hlarge, if_pos (.inr hlarge)]
    have hvalid : ¬ (dmax = 0 ∨ RSIZE_MAX_MEM < dmax) := not_or.mpr ⟨hzero, hlarge⟩
    rw [if_neg hzero, if_neg hlarge, if_neg hvalid]
    by_cases hnone : smax = 0
    · rw [if_pos hnone, if_pos (.inl hnone), memPrimSet_spec]
    by_cases hmany : dmax < smax
    · rw [if_neg hnone, if_pos hmany, if_pos (.inr hmany), memPrimSet_spec]
    have hfits : ¬ (smax = 0 ∨ dmax < smax) := not_or.mpr ⟨hnone, hmany⟩
    have hoverlap : ¬ ((src < dest ∧ dest < src + smax) ∨ (dest < src ∧ src < dest + dmax)) := by omega
    rw [if_neg hnone, if_neg hmany, if_neg hoverlap, if_neg hfits]
    exact transferAll_memPrimMove (Nat.pos_of_ne_zero hnone)
  rw [hmem]
  unfold memcpy_s
  by_cases hvalid : dmax = 0 ∨ RSIZE_MAX_MEM < dmax
  · rw [if_pos hvalid, if_pos hvalid]
    exact ⟨rfl, fun _ _ => rfl⟩
  rw [if_neg hvalid, if_neg hvalid]
  by_cases hfits : smax = 0 ∨ dmax < smax
  · rw [if_pos hfits, if_pos hfits]
    refine ⟨?_, fun a ha => fill_of_not_mem (by omega)⟩
    rw [block_fill hdmax, overwrite, List.length_replicate]
  · rw [if_neg hfits, if_neg hfits]
    refine ⟨?_, fun a ha => move_of_not_mem (by omega)⟩
    rw [block_move (by omega), take_block, Nat.min_eq_right hsmax, overwrite, length_block]

/-- Three bytes are copied into a block of five. -/
theorem memcpySAt_block_apart :
    block (memcpySAt (fun a => UInt8.ofNat a) 100 4 200 3).2 100 5 =
        memcpy_s (block (fun a => UInt8.ofNat a) 100 5) 4 (block (fun a => UInt8.ofNat a) 200 3) 3 ∧
      ∀ a, a < 100 ∨ 105 ≤ a → (memcpySAt (fun a => UInt8.ofNat a) 100 4 200 3).2 a = UInt8.ofNat a :=
  memcpySAt_block (fun a => UInt8.ofNat a) (by decide) (by decide) (by decide) (by decide) (by decide)

/-- With sizes that are right, `memcpy_s` moves the bytes where the places do not overlap or are the same,
and clears its destination otherwise, with the part of the source that lies in it. -/
theorem memcpySAt_of_valid (mem : Nat → UInt8) (hdest : dest ≠ NULL) (hsrc : src ≠ NULL)
    (hsmax : 0 < smax) (hle : smax ≤ dmax) (hmax : dmax ≤ RSIZE_MAX_MEM) :
    memcpySAt mem dest dmax src smax =
      if dest = src ∨ src + smax ≤ dest ∨ dest + dmax ≤ src then (.EOK, move mem dest src smax)
      else (.ESOVRLP, fill mem dest dmax 0) := by
  unfold memcpySAt
  rw [if_neg hdest, if_neg (by omega), if_neg (by omega), if_neg (by omega), if_neg (by omega),
    if_neg hsrc]
  by_cases hapart : dest = src ∨ src + smax ≤ dest ∨ dest + dmax ≤ src
  · rw [if_neg (by omega), if_pos hapart, transferAll_memPrimMove hsmax]
  · rw [if_pos (by omega), if_neg hapart, memPrimSet_spec]

end checked

end Irstessi
