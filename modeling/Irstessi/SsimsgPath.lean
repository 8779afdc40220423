import Irstessi.SafeStrings
import Irstessi.Guid

/-!
# Where the event monitor looks for `ssimsg`

The monitor looks for `ssimsg` next to its own program first. It copies the path of the program into a
buffer, finds the last slash there and wants to put the name behind it; but the room it gives to the
second `strcpy_s` is that of the name without its NUL, so that the copy is refused and an empty string
left in its place. The other paths, which are literals, are tried then.

* `strrchrAt`: the last place of a byte in a string, with `strrchrAt_spec`.
* `ssimsgBuffer`: memory when the first path has been put together, with `strcpySAt_path` and
  `strcpySAt_name` for the two copies.
* **`ssimsgBuffer_spec`**: the first path is the directory with its slash and nothing behind it, and it
  is empty where the path of the program is too long for the buffer.
-/

namespace Irstessi

open Address

/-- The byte of a slash. -/
def slash : UInt8 := 0x2f

/-- The last address of the byte in a string of less than so many bytes. -/
def strrchrAt (mem : Nat → UInt8) (c : UInt8) : Nat → Nat → Option Nat
  | 0, _ => none
  | n + 1, a =>
      if mem a = 0 then none
      else match strrchrAt mem c n (a + 1) with
        | some p => some p
        | none => if mem a = c then some a else none

/-- Memory with the first path in the buffer; `cp` is what `canonicalize_file_name` returns, and `name`
the literal. The size of the name is given without its NUL.
Source: `ssieventmonitor.cpp` `_exec_ssimsg`, the child -/
def ssimsgBuffer (mem : Nat → UInt8) (buffer : Nat) (cp : Option Nat) (name : Nat) : Nat → UInt8 :=
  match cp with
  | none => mem
  | some cp =>
      let mem := (strcpySAt mem buffer PATH_MAX cp).2
      let cp := match strrchrAt mem slash PATH_MAX buffer with
        | some cp => cp + 1
        | none => buffer
      (strcpySAt mem cp 6 name).2

section strrchr

variable {mem : Nat → UInt8} {c : UInt8} {a len : Nat}

/-- The part of a string from its second byte on. -/
theorem StringAt.tail (h : StringAt mem a (len + 1)) : StringAt mem (a + 1) len where
  before j hj := by
    have hnext := h.before (j + 1) (by omega)
    rwa [Nat.add_right_comm, Nat.add_assoc]
  nul := by
    have hnul := h.nul
    rwa [Nat.add_right_comm, Nat.add_assoc]

/-- The last place of the byte is found, or there is none. -/
theorem strrchrAt_spec (n : Nat) (h : StringAt mem a len) (hn : len < n) :
    (∃ i < len, strrchrAt mem c n a = some (a + i) ∧ mem (a + i) = c ∧
      ∀ j, i < j → j < len → mem (a + j) ≠ c) ∨
    strrchrAt mem c n a = none ∧ ∀ j < len, mem (a + j) ≠ c := by
  induction n generalizing a len with
  | zero => exact absurd hn (Nat.not_lt_zero len)
  | succ n ih =>
      rw [strrchrAt]
      rcases len with _ | len
      · refine .inr ⟨if_pos h.nul, fun j hj => absurd hj (Nat.not_lt_zero j)⟩
      · have hfirst : mem a ≠ 0 := h.before 0 (Nat.succ_pos len)
        rw [if_neg hfirst]
        rcases ih h.tail (by omega) with ⟨i, hi, hfound, hc, hlast⟩ | ⟨hnone, hall⟩
        · refine .inl ⟨i + 1, by omega, ?_, ?_, fun j hij hj => ?_⟩
          · rw [hfound, Nat.add_right_comm, Nat.add_assoc]
          · rwa [Nat.add_right_comm, Nat.add_assoc] at hc
          · obtain ⟨j, rfl⟩ := Nat.exists_eq_succ_of_ne_zero (by omega : j ≠ 0)
            have hne := hlast j (by omega) (by omega)
            rwa [Nat.add_right_comm, Nat.add_assoc] at hne
        · rw [hnone]
          dsimp only
          have hlater : ∀ j, 0 < j → j < len + 1 → mem (a + j) ≠ c := by
            intro j hpos hj
            obtain ⟨j, rfl⟩ := Nat.exists_eq_succ_of_ne_zero (by omega : j ≠ 0)
            have hne := hall j (by omega)
            rwa [Nat.add_right_comm, Nat.add_assoc] at hne
          by_cases hc : mem a = c
          · exact .inl ⟨0, Nat.succ_pos len, if_pos hc, hc, hlater⟩
          · refine .inr ⟨if_neg hc, fun j hj => ?_⟩
            rcases Nat.eq_zero_or_pos j with rfl | hpos
            · exact hc
            · exact hlater j hpos hj

end strrchr

section path

variable {mem : Nat → UInt8} {buffer cp name len : Nat}

/-- The buffer holds the path of the monitor's own program, or nothing where it is too long. -/
theorem strcpySAt_path (hbuffer : buffer ≠ NULL) (hcp : cp ≠ NULL) (hpath : StringAt mem cp len)
    (hapart : buffer + PATH_MAX ≤ cp ∨ cp + len + 1 ≤ buffer) :
    ∃ n ≤ len, n < PATH_MAX ∧ (len < PATH_MAX → n = len) ∧ (PATH_MAX ≤ len → n = 0) ∧
      StringAt (strcpySAt mem buffer PATH_MAX cp).2 buffer n ∧
      (∀ j < n, (strcpySAt mem buffer PATH_MAX cp).2 (buffer + j) = mem (cp + j)) ∧
      ∀ a, a < buffer ∨ buffer + PATH_MAX ≤ a → (strcpySAt mem buffer PATH_MAX cp).2 a = mem a := by
  have hgap : PATH_MAX ≤ gap buffer cp ∨ len < gap buffer cp := by
    unfold gap
    split <;> omega
  have hpos : 0 < PATH_MAX := Nat.succ_pos _
  have hne : buffer ≠ cp := by omega
  rw [strcpySAt_spec hbuffer hpos (Nat.le_refl PATH_MAX) hcp hpath.endsAt, if_neg hne]
  by_cases hroom : len < PATH_MAX
  · rw [if_pos ⟨hroom, by omega⟩]
    have hcopied : ∀ j < len + 1, move mem buffer cp (len + 1) (buffer + j) = mem (cp + j) :=
      fun j hj => move_of_mem hj
    refine ⟨len, Nat.le_refl len, hroom, fun _ => rfl, fun hlong => absurd hroom (by omega),
      ⟨fun j hj => ?_, ?_⟩, fun j hj => ?_, fun a ha => ?_⟩
    · dsimp only
      rw [hcopied j (by omega)]
      exact hpath.before j hj
    · dsimp only
      rw [hcopied len (Nat.lt_succ_self len)]
      exact hpath.nul
    · exact hcopied j (by omega)
    · exact move_of_not_mem (by omega)
  · rw [if_neg (by omega), if_neg (by omega)]
    refine ⟨0, Nat.zero_le len, hpos, fun h => absurd h hroom, fun _ => rfl, ⟨?_, ?_⟩, ?_,
      fun a ha => ?_⟩
    · exact fun j hj => absurd hj (Nat.not_lt_zero j)
    · exact Function.update_self _ _ _
    · exact fun j hj => absurd hj (Nat.not_lt_zero j)
    · dsimp only
      rw [Function.update_of_ne (by omega), move_of_not_mem ha]

/-- With room for 6 bytes the name of 6 bytes is not copied: an empty string is left there. -/
theorem strcpySAt_name {dest : Nat} (hdest : dest ≠ NULL) (hnull : name ≠ NULL)
    (hname : StringAt mem name 6) (hapart : dest + 6 ≤ name ∨ name + 7 ≤ dest) :
    (strcpySAt mem dest 6 name).2 = Function.update (move mem dest name 6) dest 0 := by
  have hgap : 6 ≤ gap dest name := by
    unfold gap
    split <;> omega
  have hne : dest ≠ name := by omega
  rw [strcpySAt_spec hdest (by decide) (by decide) hnull hname.endsAt, if_neg hne, if_neg (by omega),
    if_neg (by omega)]

/-- **The first path is a directory.** It is the path of the monitor's own program up to its last slash,
and nothing behind it; where the program's path is too long for the buffer it is the empty string. -/
theorem ssimsgBuffer_spec (mem : Nat → UInt8) (hbuffer : buffer ≠ NULL) (hcp : cp ≠ NULL)
    (hnull : name ≠ NULL) (hpath : StringAt mem cp len) (hname : StringAt mem name 6)
    (hapart : buffer + PATH_MAX ≤ cp ∨ cp + len + 1 ≤ buffer)
    (hapart' : buffer + PATH_MAX + 6 ≤ name ∨ name + 7 ≤ buffer) :
    ∃ k ≤ len, StringAt (ssimsgBuffer mem buffer (some cp) name) buffer k ∧
      (∀ j < k, ssimsgBuffer mem buffer (some cp) name (buffer + j) = mem (cp + j)) ∧
      (k = 0 ∨ mem (cp + (k - 1)) = slash) ∧
      (len < PATH_MAX → ∀ j, k ≤ j → j < len → mem (cp + j) ≠ slash) ∧
      (PATH_MAX ≤ len → k = 0) := by
  obtain ⟨n, hle, hlt, hall, hlong, hstring, hcopied, hframe⟩ := strcpySAt_path hbuffer hcp hpath hapart
  unfold ssimsgBuffer
  dsimp only
  generalize (strcpySAt mem buffer PATH_MAX cp).2 = mem₁ at hstring hcopied hframe ⊢
  -- the place behind the last slash
  obtain ⟨k, hk, hplace, hslash, hlast⟩ : ∃ k ≤ n,
      (match strrchrAt mem₁ slash PATH_MAX buffer with
        | some cp => cp + 1
        | none => buffer) = buffer + k ∧
      (k = 0 ∨ mem (cp + (k - 1)) = slash) ∧ ∀ j, k ≤ j → j < n → mem (cp + j) ≠ slash := by
    rcases strrchrAt_spec PATH_MAX hstring hlt with ⟨i, hi, hfound, hc, hlater⟩ | ⟨hnone, hno⟩
    · refine ⟨i + 1, hi, by rw [hfound]; rfl, .inr ?_, fun j hj hjn => ?_⟩
      · rw [Nat.add_sub_cancel, ← hcopied i hi]
        exact hc
      · rw [← hcopied j hjn]
        exact hlater j hj hjn
    · refine ⟨0, Nat.zero_le n, by rw [hnone]; rfl, .inl rfl, fun j _ hjn => ?_⟩
      rw [← hcopied j hjn]
      exact hno j hjn
  rw [hplace]
  have hliteral : StringAt mem₁ name 6 := by
    refine ⟨fun j hj => ?_, ?_⟩
    · rw [hframe (name + j) (by omega)]
      exact hname.before j hj
    · rw [hframe (name + 6) (by omega)]
      exact hname.nul
  have hdest : buffer + k ≠ NULL := fun h => hbuffer (Nat.eq_zero_of_add_eq_zero_right h)
  rw [strcpySAt_name hdest hnull hliteral (by omega)]
  have hkept : ∀ j < k, Function.update (move mem₁ (buffer + k) name 6) (buffer + k) 0 (buffer + j) =
      mem₁ (buffer + j) := by
    intro j hj
    rw [Function.update_of_ne (by omega), move_of_not_mem (by omega)]
  refine ⟨k, hk.trans hle, ⟨fun j hj => ?_, Function.update_self _ _ _⟩, fun j hj => ?_, hslash,
    fun hroom j hkj hj => hlast j hkj (by rw [hall hroom]; exact hj),
    fun hover => Nat.eq_zero_of_le_zero (hlong hover ▸ hk)⟩
  · rw [hkept j hj]
    exact hstring.before j (by omega)
  · rw [hkept j hj]
    exact hcopied j (by omega)

/-- The path of the monitor at 8000, the literal at 9000, and what was in memory before elsewhere. -/
def programMemory (a : Nat) : UInt8 :=
  if a < 8000 then 0xaa
  else if a < 9000 then (lit "/usr/sbin/ssieventmonitor").getD (a - 8000) 0
  else (lit "ssimsg").getD (a - 9000) 0

/-- What memory holds from the monitor's path on. -/
theorem programMemory_program {j : Nat} (hj : j ≤ 25) :
    programMemory (8000 + j) = (lit "/usr/sbin/ssieventmonitor").getD j 0 := by
  rw [programMemory, if_neg (by omega), if_pos (by omega), Nat.add_sub_cancel_left]

/-- What memory holds from the literal on. -/
theorem programMemory_name (j : Nat) : programMemory (9000 + j) = (lit "ssimsg").getD j 0 := by
  rw [programMemory, if_neg (by omega), if_neg (by omega), Nat.add_sub_cancel_left]

/-- The monitor in `/usr/sbin` tries to run `/usr/sbin/`. -/
theorem ssimsgBuffer_spec_sbin :
    StringAt (ssimsgBuffer programMemory 16 (some 8000) 9000) 16 10 ∧
      ∀ j < 10, ssimsgBuffer programMemory 16 (some 8000) 9000 (16 + j) =
        (lit "/usr/sbin/").getD j 0 := by
  have hpath : StringAt programMemory 8000 25 := by
    refine ⟨fun j hj => ?_, ?_⟩
    · rw [programMemory_program (by omega)]
      revert j
      decide
    · rw [programMemory_program (le_refl 25)]
      decide
  have hname : StringAt programMemory 9000 6 := by
    refine ⟨fun j hj => ?_, ?_⟩
    · rw [programMemory_name]
      revert j
      decide
    · rw [programMemory_name]
      decide
  obtain ⟨k, hk, hstring, hbytes, hslash, hlast, -⟩ := ssimsgBuffer_spec programMemory
    (by decide) (by decide) (by decide) hpath hname (by decide) (by decide : 16 + PATH_MAX + 6 ≤ 9000 ∨ _)
  have hbehind : 9 < k := by
    by_contra hle
    have hne := hlast (by decide) 9 (by omega) (by decide)
    rw [programMemory_program (by decide)] at hne
    exact hne (by decide)
  have hplace : ∀ k ≤ 25, 9 < k →
      (lit "/usr/sbin/ssieventmonitor").getD (k - 1) 0 = slash → k = 10 := by decide
  obtain rfl : k = 10 := by
    rcases hslash with rfl | hslash
    · exact absurd hbehind (by decide)
    · rw [programMemory_program (by omega)] at hslash
      exact hplace k hk hbehind hslash
  refine ⟨hstring, fun j hj => ?_⟩
  rw [hbytes j hj, programMemory_program (by omega)]
  revert j
  decide

end path

end Irstessi
