import Irstessi.Text
import Irstessi.Volume

/-!
# Writes to files

`File::__internal_write` repeats a `write` that fails with `EAGAIN` and takes every other result for
a success.

* `Errno`, `FileException`, `errnoToExceptionCode`: failures, and what is thrown for them.
* `FileAnswers`, `File.write`: what `open` and the calls of `write` return, and what becomes of it.
* `Volume.verify`, `Volume.cancelVerify`, `writeConfig`: functions that take a return for a success.
* **`keepsText_iff`**: they succeed with the whole text only iff the first result but `EAGAIN` is the
  number of its bytes.

A write may take fewer bytes than it is given, and the code compares its result with -1 only. The
answers of the system are a list, of which the leading ones are `EAGAIN`; after these one answer
decides. The functions that use `File` catch what it throws, or let it through, and return a success
where it returns: `WriteOutcome.caught` describes both, so that one lemma covers the verification, its
cancellation and the writing of the configuration.
-/

namespace Irstessi

/-- Source: `errno.h`; the errors that the source tells apart. -/
inductive Errno
  | EACCES
  | EAGAIN
  | EBADF
  | EMFILE
  | ENFILE
  | ENOENT
  | ENOMEM
  | ENOTDIR
  | EOVERFLOW
  | other (code : Nat)
  deriving DecidableEq, Repr

/-- Source: `exception.h` `Exception`; the codes that the functions on files throw. -/
inductive FileException
  | generic
  | fileEmpty
  | permissionDenied
  | notFound
  | bufferTooSmall
  | outOfResources
  | nullPointer
  | overflow
  | invalidHandle
  | invalidDirectory
  deriving DecidableEq, Repr

/-- Source: `exception.cpp` `errno_to_exception_code` -/
def errnoToExceptionCode : Errno → FileException
  | .EACCES => .permissionDenied
  | .EBADF => .invalidHandle
  | .ENOENT => .notFound
  | .ENOTDIR => .invalidDirectory
  | .EOVERFLOW => .overflow
  | .ENOMEM => .outOfResources
  | .EMFILE => .outOfResources
  | .ENFILE => .outOfResources
  | .EAGAIN => .generic
  | .other _ => .generic

/-- What `write` returns: an error, or the number of bytes that have been accepted. -/
inductive WriteResult
  | failed (errno : Errno)
  | accepted (count : Nat)
  deriving DecidableEq, Repr

/-- The number of bytes that have been accepted. -/
def WriteResult.count : WriteResult → Nat
  | failed _ => 0
  | accepted count => count

/-- How a write has gone: it may still be waiting for the next result. -/
inductive WriteOutcome
  | thrown (e : FileException)
  | returned
  | waiting
  deriving DecidableEq, Repr

/-- The error of `open`, if it fails, and the results of the calls of `write`. -/
structure FileAnswers where
  opened : Option Errno
  writes : List WriteResult
  deriving DecidableEq, Repr

namespace File

/-- The loop, with the bytes that have been accepted.
Source: `filesystem.cpp` `File::__internal_write` -/
def writeLoop (text : List UInt8) : List WriteResult → WriteOutcome × List UInt8
  | [] => (.waiting, [])
  | r :: writes =>
      if r = .failed .EAGAIN then writeLoop text writes else (.returned, text.take r.count)

/-- Source: `filesystem.cpp` `File::__internal_write` -/
def internalWrite (text : List UInt8) (answers : FileAnswers) : WriteOutcome × List UInt8 :=
  match answers.opened with
  | some errno => (.thrown (errnoToExceptionCode errno), [])
  | none => writeLoop text answers.writes

/-- Source: `filesystem.h` `File::write` -/
def write (s : Str) (answers : FileAnswers) : WriteOutcome × List UInt8 :=
  internalWrite s.m_buffer answers

end File

/-- A return and a throw of a write become values of a caller that handles every exception. -/
def WriteOutcome.caught {α : Type} (onReturn onThrow : α) : WriteOutcome → Option α
  | thrown _ => some onThrow
  | returned => some onReturn
  | waiting => none

namespace Volume

variable (v : Volume)

/-- What is written to `md/sync_action`. -/
def syncAction (repair : Bool) : Str := if repair then .ofLit "repair" else .ofLit "check"

/-- The status, once there is one, with the bytes that have been accepted.
Source: `volume.cpp` `Volume::verify` -/
def verify (repair : Bool) (answers : FileAnswers) : Option SSI_Status × List UInt8 :=
  if v.m_RaidLevel = 0 then (some .notSupported, [])
  else
    let (outcome, accepted) := File.write (syncAction repair) answers
    (outcome.caught .ok .failed, accepted)

/-- Source: `volume.cpp` `Volume::cancelVerify` -/
def cancelVerify (answers : FileAnswers) : Option SSI_Status × List UInt8 :=
  let (outcome, accepted) := File.write (.ofLit "idle") answers
  (outcome.caught .ok .failed, accepted)

end Volume

/-- Source: `mdadm_config.cpp` `write_config` -/
def writeConfig (config : Str) (answers : FileAnswers) : Option Int × List UInt8 :=
  let (outcome, accepted) := File.write config answers
  (outcome.caught 0 1, accepted)

/-! ## What is accepted -/

/-- If there is a result but `EAGAIN`, the first of them is of so many bytes. -/
def FileAnswers.AcceptsAll (answers : FileAnswers) (size : Nat) : Prop :=
  answers.opened = none → ∀ r ∈ answers.writes.find? (· ≠ .failed .EAGAIN), size ≤ r.count

section accepted

variable {answers : FileAnswers}

/-- The first result but `EAGAIN` ends the loop. -/
theorem writeLoop_eq (text : List UInt8) (writes : List WriteResult) :
    File.writeLoop text writes = match writes.find? (· ≠ .failed .EAGAIN) with
      | none => (.waiting, [])
      | some r => (.returned, text.take r.count) := by
  induction writes with
  | nil => rfl
  | cons r writes ih =>
      rw [File.writeLoop]
      split
      next hagain => rw [List.find?_cons_of_neg (by simpa using hagain), ih]
      next hresult => rw [List.find?_cons_of_pos (by simpa using hresult)]

/-- A return goes with the whole text iff all of it is accepted at once. -/
theorem keepsText_write_iff (s : Str) :
    ((File.write s answers).1 = .returned → (File.write s answers).2 = s.m_buffer) ↔
      answers.AcceptsAll s.size := by
  obtain ⟨opened, writes⟩ := answers
  unfold FileAnswers.AcceptsAll
  cases opened with
  | some errno => simp [File.write, File.internalWrite]
  | none =>
      have hloop : File.write s ⟨none, writes⟩ = _ := writeLoop_eq s.m_buffer writes
      rw [hloop]
      cases writes.find? (· ≠ .failed .EAGAIN) with
      | none => simp
      | some r => simp [Str.size]

/-- A caller that handles every exception takes a return for the success. -/
theorem caught_eq_some_iff {α : Type} {onReturn onThrow : α} (hne : onThrow ≠ onReturn)
    (outcome : WriteOutcome) :
    outcome.caught onReturn onThrow = some onReturn ↔ outcome = .returned := by
  cases outcome with
  | thrown e => simp [WriteOutcome.caught, hne]
  | returned => simp [WriteOutcome.caught]
  | waiting => simp [WriteOutcome.caught]

/-- The text is in the file wherever the call returns normally, iff every write takes all that it is
given. -/
theorem keepsText_caught_iff {α : Type} {onReturn onThrow : α} (hne : onThrow ≠ onReturn) (s : Str) :
    ((File.write s answers).1.caught onReturn onThrow = some onReturn →
        (File.write s answers).2 = s.m_buffer) ↔ answers.AcceptsAll s.size := by
  rw [caught_eq_some_iff hne, keepsText_write_iff]

end accepted

/-! ## Main result -/

/-- For all results of `open` and `write`: a return goes with the whole text iff the first result but
`EAGAIN` is the number of its bytes, and so do the successes of the callers. A short write is therefore
not noticed: it is neither repeated nor reported. -/
theorem keepsText_iff (v : Volume) (repair : Bool) (s : Str) (answers : FileAnswers) :
    (((File.write s answers).1 = .returned → (File.write s answers).2 = s.m_buffer) ↔
      answers.AcceptsAll s.size) ∧
    (((v.verify repair answers).1 = some .ok →
        (v.verify repair answers).2 = (Volume.syncAction repair).m_buffer) ↔
      (v.m_RaidLevel ≠ 0 → answers.AcceptsAll (Volume.syncAction repair).size)) ∧
    (((Volume.cancelVerify answers).1 = some .ok →
        (Volume.cancelVerify answers).2 = lit "idle") ↔ answers.AcceptsAll 4) ∧
    (((writeConfig s answers).1 = some 0 → (writeConfig s answers).2 = s.m_buffer) ↔
      answers.AcceptsAll s.size) := by
  refine ⟨keepsText_write_iff s, ?_, ?_, keepsText_caught_iff (by decide) s⟩
  · unfold Volume.verify
    by_cases hlevel : v.m_RaidLevel = 0
    · simp [hlevel]
    · rw [if_neg hlevel]
      simp only [hlevel, ne_eq, not_false_eq_true, true_implies]
      exact keepsText_caught_iff (by decide) _
  · have hidle : SingleBytes (lit "idle") := by decide
    have hbuffer : (Str.ofLit "idle").m_buffer = lit "idle" := Str.buffer_ofLit hidle
    have hsize : (Str.ofLit "idle").size = 4 := congrArg List.length hbuffer
    rw [← hbuffer, ← hsize]
    exact keepsText_caught_iff (by decide) (Str.ofLit "idle")

/-- A volume of level 1 is to be checked, and the write fails with `EIO`: the check counts as begun. -/
theorem not_keepsText_error :
    ¬ ∀ (v : Volume) (repair : Bool) (s : Str) (answers : FileAnswers),
      ((File.write s answers).1 = .returned → (File.write s answers).2 = s.m_buffer) ∧
      ((v.verify repair answers).1 = some .ok →
        (v.verify repair answers).2 = (Volume.syncAction repair).m_buffer) ∧
      ((Volume.cancelVerify answers).1 = some .ok →
        (Volume.cancelVerify answers).2 = lit "idle") ∧
      ((writeConfig s answers).1 = some 0 → (writeConfig s answers).2 = s.m_buffer) := by
  intro h
  let volume : Volume := ⟨⟨.empty, .ofLit "md126", .ofLit "vol", .empty, []⟩, none, 0, 1, false,
    65536, 0, 1024, .normal, .off, none⟩
  obtain ⟨-, hverify, -⟩ := h volume false (.ofLit "check") ⟨none, [.failed (.other 5)]⟩
  exact absurd (hverify rfl) (by decide)

end Irstessi
