import Irstessi.FileWrite
import Irstessi.Lib.While
import Irstessi.Numerals
import Irstessi.RaidDevice
import Irstessi.StringAppend
import Mathlib.Data.Set.Card

/-!
# The name of a new device

`determineDeviceName` tries one number after the other. It stops where `stat` fails with `ENOENT`, and
at no other failure.

* `DevMd`: which paths exist, and how `stat` fails on the others, which may change from call to call.
* `determineDeviceName`: the loop; `run_determineDeviceName`: it is the one of `class RaidDevice` where
  programs call the system.
* **`findsFreeName_iff`**: the loop ends, with a name that does not exist, iff some call is answered
  with `ENOENT`.
* `exists_free`: with fewer than 2^32 names not all numbers are taken, so that `findsFreeName_of_enoent`
  applies where there is no other error.

`stat` is called for one path after the other, and each call may be answered differently; `DevMd`
describes finitely many names that exist and a failure for every other path at every call. The counter
of the loop is a 32-bit number, so that after 2^32 calls the names repeat; this is why the theorem
speaks of some call and not of some number. The loop is a recursion on a bound of its rounds, and "the
loop ends" means that there is a bound for which it does: the smallest one is the number of the first
call that is answered with `ENOENT`.
-/

namespace Irstessi

/-- Finitely many names exist under `/dev/md`; `stat` fails on every other path, with whatever error the
call gets. -/
structure DevMd where
  existing : Set (List UInt8)
  finite : {name | lit "/dev/md/" ++ name ∈ existing}.Finite
  /-- The error of the call with a number, none if it succeeds. -/
  stat : Nat → List UInt8 → Option Errno
  stat_eq_none_iff : ∀ call path, stat call path = none ↔ path ∈ existing

namespace FreeName

/-- `prefix + String(id)` -/
def numberedName (namePrefix : Str) (id : UInt32) : Str := namePrefix.plus (.ofNat id.toNat)

/-- `"/dev/md/" + m_Name` -/
def devicePath (name : Str) : List UInt8 := ((Str.ofLit "/dev/md/").plus name).m_buffer

/-- A round of the loop, with the number of the call that it makes and the number that it tries.
Source: `raid_device.cpp` `RaidDevice::determineDeviceName`, the loop -/
def tryNumber (dev : DevMd) (namePrefix : Str) (state : Nat × UInt32) :
    Except Fault (Option (Nat × UInt32)) :=
  let m_Name := numberedName namePrefix state.2
  .ok (if dev.stat state.1 (devicePath m_Name) = some .ENOENT then none
    else some (state.1 + 1, state.2 + 1))

/-- The numbers are tried from 0 on, and again from 0 on behind the last one. `rounds` bounds the loop,
which the source does not.
Source: `raid_device.cpp` `RaidDevice::determineDeviceName` -/
def determineDeviceName (dev : DevMd) (namePrefix : Str) (rounds : Nat) (d : RaidDevice) :
    Except Fault RaidDevice :=
  (While.run .outOfRounds (tryNumber dev namePrefix) rounds (0, 0)).map fun state =>
    { d with m_Name := numberedName namePrefix state.2 }

variable (dev : DevMd) (namePrefix : Str) (d : RaidDevice)

/-- The loop ends, with a name that does not exist. -/
def FindsFreeName : Prop :=
  ∃ rounds d', determineDeviceName dev namePrefix rounds d = .ok d' ∧
    devicePath d'.m_Name ∉ dev.existing

/-! ## Names and paths -/

/-- Names are well-formed, so that nothing of them is lost in a path. -/
theorem devicePath_numberedName (id : UInt32) :
    devicePath (numberedName namePrefix id) =
      lit "/dev/md/" ++ (numberedName namePrefix id).m_buffer := by
  obtain ⟨text, hname⟩ : ∃ text, numberedName namePrefix id = .ofBytes text := ⟨_, rfl⟩
  have hfront : SingleBytes (lit "/dev/md/") := by decide
  have hwell := Str.wellFormed_ofBytes text
  have hself : Str.ofBytes text = .ofBytes (Str.ofBytes text).m_buffer := (Str.ofBytes_ofBytes text).symm
  rw [hname, devicePath, Str.ofLit]
  nth_rewrite 1 [hself]
  rw [Str.plus_eq_append hfront hwell, Str.append_eq_ofBytes hfront hwell,
    Str.ofBytes_buffer (hfront.wellFormed.append hwell)]

/-- Names of ASCII characters are the prefix and the number. -/
theorem buffer_numberedName {u : List UInt8} (hu : SingleBytes u) (id : UInt32) :
    (numberedName (.ofBytes u) id).m_buffer = u ++ decimal id.toNat := by
  have hnumber := (singleBytes_decimal id.toNat).wellFormed
  have hsum : numberedName (.ofBytes u) id = .ofBytes (u ++ decimal id.toNat) := by
    rw [← Str.append_eq_ofBytes hu hnumber]
    exact Str.plus_eq_append hu hnumber
  rw [hsum, Str.ofBytes_buffer (hu.wellFormed.append hnumber)]

/-- The numbers that are tried. -/
theorem iterate_next (n : Nat) :
    (fun state : Nat × UInt32 => (state.1 + 1, state.2 + 1))^[n] (0, 0) = (n, UInt32.ofNat n) := by
  induction n with
  | zero => rfl
  | succ n ih =>
      rw [Function.iterate_succ_apply', ih]
      simp

/-- What `stat` says in round `n`. -/
def answer (n : Nat) : Option Errno := dev.stat n (devicePath (numberedName namePrefix (.ofNat n)))

/-- The loop ends with a name iff a first call is answered with `ENOENT`. -/
theorem determineDeviceName_eq_ok_iff (d' : RaidDevice) :
    (∃ rounds, determineDeviceName dev namePrefix rounds d = .ok d') ↔
      ∃ n, answer dev namePrefix n = some .ENOENT ∧
        (∀ k < n, answer dev namePrefix k ≠ some .ENOENT) ∧
        d' = { d with m_Name := numberedName namePrefix (.ofNat n) } := by
  have hbody : ∀ state, tryNumber dev namePrefix state =
      .ok (if dev.stat state.1 (devicePath (numberedName namePrefix state.2)) = some .ENOENT then none
        else some (state.1 + 1, state.2 + 1)) := fun _ => rfl
  have hloop : ∀ t, (∃ rounds,
        While.run Fault.outOfRounds (tryNumber dev namePrefix) rounds (0, 0) = .ok t) ↔ _ :=
    fun t => While.run_iff hbody
  simp only [iterate_next] at hloop
  constructor
  · rintro ⟨rounds, hrun⟩
    unfold determineDeviceName at hrun
    rcases hleft : While.run Fault.outOfRounds (tryNumber dev namePrefix) rounds (0, 0) with e | t
    · rw [hleft] at hrun
      cases hrun
    · rw [hleft] at hrun
      obtain ⟨n, rfl, hstop, hbefore⟩ := (hloop t).mp ⟨rounds, hleft⟩
      exact ⟨n, hstop, hbefore, (Except.ok.inj hrun).symm⟩
  · rintro ⟨n, hstop, hbefore, rfl⟩
    obtain ⟨rounds, hrun⟩ := (hloop _).mpr ⟨n, rfl, hstop, hbefore⟩
    exact ⟨rounds, by rw [determineDeviceName, hrun]; rfl⟩

/-- A call that is answered with an error has been made for a path that does not exist. -/
theorem not_mem_of_stat {call : Nat} {path : List UInt8} {e : Errno}
    (h : dev.stat call path = some e) : path ∉ dev.existing := by
  intro hmem
  rw [(dev.stat_eq_none_iff call path).mpr hmem] at h
  cases h

/-- The first call that is answered with `ENOENT` ends the loop. -/
theorem of_answer (hsome : ∃ n, answer dev namePrefix n = some .ENOENT) :
    FindsFreeName dev namePrefix d := by
  have hfirst := Nat.find_spec hsome
  obtain ⟨rounds, hrun⟩ := (determineDeviceName_eq_ok_iff dev namePrefix d _).mpr
    ⟨Nat.find hsome, hfirst, fun k hk => Nat.find_min hsome hk, rfl⟩
  exact ⟨rounds, _, hrun, not_mem_of_stat dev hfirst⟩

/-! ## The loop as a program -/

/-- For single-byte names the numbered name is the name with the decimal number behind it. -/
theorem numberedName_eq_append {u : List UInt8} (hu : SingleBytes u) (id : UInt32) :
    numberedName (.ofBytes u) id = .ofBytes u ++ .ofNat id.toNat :=
  Str.plus_eq_append hu (singleBytes_decimal id.toNat).wellFormed

/-- In an environment that answers as `stat` does, the program of `class RaidDevice` makes the same
rounds, by induction on their number. -/
theorem run_determineDeviceName {env : Interact.Env SysCall SysReply}
    (henv : ∀ call name, env call (.stat name) =
      decide (dev.stat call (devicePath name) = some .ENOENT))
    {u : List UInt8} (hu : SingleBytes u) (rounds : Nat) :
    ((d.determineDeviceName (.ofBytes u) rounds 0).run env 0).result =
      determineDeviceName dev (.ofBytes u) rounds d := by
  have hfrom : ∀ (call : Nat) (id : UInt32) (d : RaidDevice),
      ((d.determineDeviceName (.ofBytes u) rounds id.toNat).run env call).result =
        (While.run .outOfRounds (tryNumber dev (.ofBytes u)) rounds (call, id)).map fun state =>
          { d with m_Name := numberedName (.ofBytes u) state.2 } := by
    induction rounds with
    | zero => exact fun _ _ _ => rfl
    | succ rounds ih =>
        intro call id d
        have hnext : (id.toNat + 1) % 2 ^ 32 = (id + 1).toNat := by simp
        unfold RaidDevice.determineDeviceName
        rw [statEnoent_bind, Interact.Prog.run_call, While.run, tryNumber, henv, hnext,
          ← numberedName_eq_append hu]
        dsimp only
        by_cases hstop : dev.stat call (devicePath (numberedName (.ofBytes u) id)) = some .ENOENT
        · rw [if_pos hstop, decide_eq_true hstop]
          rfl
        · rw [if_neg hstop, decide_eq_false hstop]
          exact ih (call + 1) (id + 1) _
  exact hfrom 0 0 d

/-! ## Where `ENOENT` is the only error -/

/-- Different numbers make different names. -/
theorem numberedName_injective {u : List UInt8} (hu : SingleBytes u) :
    Function.Injective fun id => (numberedName (.ofBytes u) id).m_buffer := by
  intro id id' h
  dsimp only at h
  rw [buffer_numberedName hu, buffer_numberedName hu] at h
  have hdecimal := List.append_cancel_left h
  rw [← UInt32.toNat_inj, ← Str.digits_decimal id.toNat, hdecimal, Str.digits_decimal]

/-- With fewer than 2^32 names there is a number that is not taken. -/
theorem exists_free {u : List UInt8} (hu : SingleBytes u)
    (hfew : {name | lit "/dev/md/" ++ name ∈ dev.existing}.ncard < 2 ^ 32) :
    ∃ id, devicePath (numberedName (.ofBytes u) id) ∉ dev.existing := by
  by_contra hall
  push Not at hall
  have hinjective : Function.Injective fun i : Fin UInt32.size =>
      (numberedName (.ofBytes u) (.ofFin i)).m_buffer := by
    intro i j h
    exact congrArg UInt32.toFin (numberedName_injective hu h)
  have hsubset : Set.range (fun i : Fin UInt32.size =>
        (numberedName (.ofBytes u) (.ofFin i)).m_buffer) ⊆
      {name | lit "/dev/md/" ++ name ∈ dev.existing} := by
    rintro _ ⟨i, rfl⟩
    have hexists := hall (.ofFin i)
    rwa [devicePath_numberedName] at hexists
  have hle := Set.ncard_le_ncard hsubset dev.finite
  rw [← Nat.card_coe_set_eq, Nat.card_range_of_injective hinjective, Nat.card_fin] at hle
  unfold UInt32.size at hle
  omega

end FreeName

/-! ## Main result -/

open FreeName

/-- For every prefix, every device and every environment in which finitely many names exist under
`/dev/md`: the loop ends and leaves a name that does not exist iff some call is answered with `ENOENT`,
the call number `n` being one for the prefix and the number `n` modulo 2^32. -/
theorem findsFreeName_iff (dev : DevMd) (namePrefix : Str) (d : RaidDevice) :
    FindsFreeName dev namePrefix d ↔ ∃ n, answer dev namePrefix n = some .ENOENT := by
  constructor
  · rintro ⟨rounds, d', hrun, -⟩
    obtain ⟨n, hn, -, -⟩ := (determineDeviceName_eq_ok_iff dev namePrefix d d').mp ⟨rounds, hrun⟩
    exact ⟨n, hn⟩
  · exact of_answer dev namePrefix d

/-- Nothing exists, and all calls are refused. -/
def refusedDevMd : DevMd where
  existing := ∅
  finite := by simp
  stat := fun _ _ => some .EACCES
  stat_eq_none_iff := by simp

/-- The loop does not end. -/
theorem not_findsFreeName_refused :
    ¬ FindsFreeName refusedDevMd (.ofLit "Volume_") ⟨.empty, .empty, .empty, .empty, []⟩ := by
  rintro ⟨rounds, d', hrun, -⟩
  obtain ⟨n, hn, -, -⟩ := (determineDeviceName_eq_ok_iff _ _ _ d').mp ⟨rounds, hrun⟩
  cases hn

/-- Where `ENOENT` is the only error and not all numbers are taken, a free name is found. -/
theorem findsFreeName_of_enoent {dev : DevMd} {u : List UInt8} (hu : SingleBytes u) (d : RaidDevice)
    (herror : ∀ call path e, dev.stat call path = some e → e = .ENOENT)
    (hfew : {name | lit "/dev/md/" ++ name ∈ dev.existing}.ncard < 2 ^ 32) :
    FindsFreeName dev (.ofBytes u) d := by
  obtain ⟨id, hfree⟩ := exists_free dev hu hfew
  have hanswer : answer dev (.ofBytes u) id.toNat = some .ENOENT := by
    rw [answer, UInt32.ofNat_toNat]
    obtain ⟨e, he⟩ := Option.ne_none_iff_exists'.mp
      fun hnone => hfree ((dev.stat_eq_none_iff id.toNat _).mp hnone)
    rw [he, herror _ _ _ he]
  exact of_answer dev (.ofBytes u) d ⟨_, hanswer⟩

end Irstessi
