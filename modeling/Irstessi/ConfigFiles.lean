import Irstessi.DiskUsage
import Irstessi.StringAppend
import Mathlib.Data.List.DropRight

/-!
# mdadm's configuration file and its backup

`configuration_init` puts the generated configuration into `/etc/mdadm.conf` and what it finds there
into `/etc/mdadm.conf.original`; `Array::renameVolume` appends what `mdadm -Ebs` prints.

* `ConfigFiles`, `ConfigStep`, `ConfigFiles.points`: the two files, the two writers, and the states
  that a run of them comes by.
* `strip`, `ConfigFiles.Holds`: a configuration is in one of the files, up to blanks around it.
* `StepKeeps`: the condition on a step; `holds_step_iff`: it keeps the configuration iff it meets it.
* **`configKept_iff`**: a run keeps the configuration that it starts from iff all its steps do.

A run is a list of steps, each of which writes the files up to two times; `points` are the states before
and after every write, so that the claim about every point of a run is a statement about a list.
`File::read` gives a text of characters as many as the file has bytes, and a text with multi-byte
characters is read on into the memory behind it: this memory is carried by the step (`check behind`),
and no step can be assumed to leave it empty. A condition on the state before a step, `StepKeeps`, is
shown to be exact for this one step, both for a check and for a renaming; the result on runs is one
induction over the list, which hands the text from one step to the next.
-/

namespace Irstessi

/-! ## The files -/

/-- The contents of `/etc/mdadm.conf` and `/etc/mdadm.conf.original`, none where there is no file. -/
structure ConfigFiles where
  conf : Option (List UInt8)
  original : Option (List UInt8)
  deriving DecidableEq, Repr

/-- The text of the generated configuration.
Source: `mdadm_config.cpp` `stdConfig` -/
def stdText : List UInt8 :=
  lit "# This config has been automatically " ++ lit "generated by SSI API library\n" ++
    lit "# for use with CIM Provider. Please do not edit\n" ++ lit "\n" ++ lit "MAILADDR root\n" ++
    lit "AUTO +imsm +1.x -all\n" ++ lit "policy domain=global metadata=imsm " ++
    lit "path=* action=spare-same-slot\n"

/-- Source: `mdadm_config.cpp` `stdConfig` -/
def stdConfig : Str := .ofBytes stdText

/-- Source: `mdadm_config.cpp` `correct_config` -/
def correctConfig (config : Str) : Bool := (config.plus (.ofLit "\n")).equal stdConfig

/-- The lines of an output with their ends, as `fgets` returns them; `rounds` bounds their number. -/
def fgetsLines : Nat → List UInt8 → List (List UInt8)
  | 0, _ => []
  | rounds + 1, output =>
      if output.isEmpty then []
      else
        let line := output.take 65535
        let line := line.takeWhile (· ≠ 10) ++ (line.dropWhile (· ≠ 10)).take 1
        line :: fgetsLines rounds (output.drop line.length)

/-- The output as it is collected, line after line.
Source: `utils.cpp` `shell_output` -/
def captureOutput (output : List UInt8) : Str :=
  (fgetsLines output.length output).foldl (fun collected line => collected ++ Str.ofBytes line) .empty

/-- What writes the files: a check, at the initialization and whenever a session is opened, with what the
memory holds behind the text that it reads, and a renaming with the exit status and the output of
`mdadm -Ebs`. -/
inductive ConfigStep
  | check (behind : List UInt8)
  | rename (exitStatus : UInt8) (output : List UInt8)
  deriving DecidableEq, Repr

namespace ConfigFiles

variable (f : ConfigFiles)

/-- The states after each write, where every write succeeds.
Source: `mdadm_config.cpp` `configuration_init` -/
def configurationInit (behind : List UInt8) : List ConfigFiles :=
  match readFile f.conf behind with
  | none => [{ f with conf := some stdConfig.m_buffer }]
  | some config =>
      if correctConfig config then []
      else [{ f with original := some config.m_buffer },
        ⟨some stdConfig.m_buffer, some config.m_buffer⟩]

/-- Source: `array.cpp` `Array::renameVolume`, the write -/
def appendOutput (exitStatus : UInt8) (output : List UInt8) : List ConfigFiles :=
  if exitStatus ≠ 0 then []
  else [{ f with conf := some (f.conf.getD [] ++ (captureOutput output).m_buffer) }]

/-- The states that a step comes by. -/
def step : ConfigStep → List ConfigFiles
  | .check behind => f.configurationInit behind
  | .rename exitStatus output => f.appendOutput exitStatus output

/-- The state after a step. -/
def after (st : ConfigStep) : ConfigFiles := (f.step st).getLastD f

/-- The states that a run comes by. -/
def points (f : ConfigFiles) : List ConfigStep → List ConfigFiles
  | [] => [f]
  | st :: steps => f :: f.step st ++ points (f.after st) steps

end ConfigFiles

/-! ## Plain texts -/

/-- The generated text has single-byte characters only, so that it is read back as it was written. -/
theorem singleBytes_stdText : SingleBytes stdText := by decide +kernel

/-- The class holds the generated text as it is. -/
theorem buffer_stdConfig : stdConfig.m_buffer = stdText :=
  Str.ofBytes_buffer singleBytes_stdText.wellFormed

/-- A text of ordinary size and of single-byte characters other than NUL, the first and the last of which
trimming keeps. -/
structure PlainText (t : List UInt8) : Prop where
  nonempty : t ≠ []
  short : t.length < MAX_RW_COUNT
  singleBytes : SingleBytes t
  noNul : 0 ∉ t
  first : ∀ b ∈ t.head?, Str.IsInk b
  last : Str.IsInk (t.getLast nonempty)

/-- A file of single-byte characters is read as it is. -/
theorem readFile_of_singleBytes {t : List UInt8} (hne : t ≠ []) (hshort : t.length ≤ MAX_RW_COUNT)
    (hsingle : SingleBytes t) (hnul : 0 ∉ t) (behind : List UInt8) :
    readFile (some t) behind = some (Str.ofBytes t).trim := by
  have hlength : t.length < 2 ^ 32 := by
    unfold MAX_RW_COUNT at hshort
    omega
  rw [readFile_of_le hne hshort, Str.ofRead_of_singleBytes hnul hlength hsingle]

/-- A plain text is read without the line end behind it. -/
theorem readFile_line {t : List UInt8} (h : PlainText t) (behind : List UInt8) :
    readFile (some (t ++ [10])) behind = some (.ofBytes t) := by
  have hread : readFile (some (t ++ [10])) behind = some (Str.ofBytes (t ++ [10])).trim := by
    apply readFile_of_singleBytes
    · simp
    · rw [List.length_append, List.length_singleton]
      exact h.short
    · exact h.singleBytes.append (by decide)
    · simpa using h.noNul
  have hsplit := List.dropLast_append_getLast h.nonempty
  have hwhole := h.singleBytes.wellFormed
  have hfirst := h.first
  rw [← hsplit] at hread hwhole hfirst ⊢
  rw [hread, Str.trim_line hwhole hfirst h.last (.inr rfl)]

/-- A plain text is the standard one iff it is with a line end. -/
theorem correctConfig_iff {t : List UInt8} (h : SingleBytes t) :
    correctConfig (.ofBytes t) = true ↔ t ++ [10] = stdText := by
  have hline : SingleBytes [10] := by decide
  have happend : (Str.ofBytes t).plus (.ofLit "\n") = Str.ofBytes (t ++ [10]) :=
    (Str.plus_eq_append h hline.wellFormed).trans (Str.append_eq_ofBytes h hline.wellFormed)
  have hall : SingleBytes (t ++ [10]) := h.append hline
  unfold correctConfig
  have hstd : WellFormed stdConfig.m_buffer := Str.wellFormed_ofBytes _
  rw [happend, Str.equal_iff hstd, buffer_stdConfig, Str.ofBytes_buffer hall.wellFormed]

/-- A check backs a plain text up that is not the standard one. -/
theorem ConfigFiles.configurationInit_line {t : List UInt8} (h : PlainText t)
    (hother : t ++ [10] ≠ stdText) (original : Option (List UInt8)) (behind : List UInt8) :
    configurationInit ⟨some (t ++ [10]), original⟩ behind =
      [⟨some (t ++ [10]), some t⟩, ⟨some stdText, some t⟩] := by
  have hcorrect : ¬ correctConfig (.ofBytes t) = true :=
    fun hstd => hother ((correctConfig_iff h.singleBytes).mp hstd)
  rw [configurationInit, readFile_line h behind]
  simp only [hcorrect, if_false, Str.ofBytes_buffer h.singleBytes.wellFormed, buffer_stdConfig,
    Bool.false_eq_true]

/-! ## The standard configuration -/

namespace ConfigFiles

variable (f : ConfigFiles) (behind : List UInt8)

/-- A check finds the standard configuration in what it reads. -/
def ReadsStandard : Prop := ∃ config, readFile f.conf behind = some config ∧ correctConfig config = true

/-- The standard text itself is read as such, whatever the memory holds behind it. -/
theorem readsStandard_stdText (original : Option (List UInt8)) :
    ReadsStandard ⟨some stdText, original⟩ behind := by
  have hsplit : stdText = stdText.dropLast ++ [10] := by decide +kernel
  have hplain : PlainText stdText.dropLast :=
    ⟨by decide +kernel, by decide +kernel, by decide +kernel, by decide +kernel, by decide +kernel,
      by decide +kernel⟩
  have hread := readFile_line hplain behind
  rw [← hsplit] at hread
  exact ⟨_, hread, (correctConfig_iff hplain.singleBytes).mpr hsplit.symm⟩

/-- A check leaves the standard configuration, and writes it where it does not find it. -/
theorem conf_after_check :
    f.ReadsStandard behind ∧ (f.after (.check behind)).conf = f.conf ∨
      ¬ f.ReadsStandard behind ∧ (f.after (.check behind)).conf = some stdText := by
  simp only [ReadsStandard, after, step, configurationInit]
  rcases readFile f.conf behind with _ | config
  · exact .inr ⟨by simp, congrArg some buffer_stdConfig⟩
  · by_cases hcorrect : correctConfig config = true
    · refine .inl ⟨⟨config, rfl, hcorrect⟩, ?_⟩
      simp only [if_pos hcorrect, List.getLastD_nil]
    · refine .inr ⟨by simpa using hcorrect, ?_⟩
      simp only [if_neg hcorrect]
      exact congrArg some buffer_stdConfig

/-- A check leaves the file as it is iff it finds the standard configuration. -/
theorem conf_after_check_iff :
    (f.after (.check behind)).conf = f.conf ↔ f.ReadsStandard behind := by
  rcases f.conf_after_check behind with ⟨hreads, hconf⟩ | ⟨hreads, hconf⟩
  · exact iff_of_true hconf hreads
  · refine iff_of_false (fun h => hreads ?_) hreads
    obtain ⟨conf, original⟩ := f
    obtain rfl : conf = some stdText := h.symm.trans hconf
    exact readsStandard_stdText behind original

end ConfigFiles

/-! ## Texts up to blanks -/

/-- The text without the blanks at both ends. -/
def strip (t : List UInt8) : List UInt8 := (t.dropWhile Str.isSpace).rdropWhile Str.isSpace

/-- A blank at the end does not matter. -/
theorem strip_concat {t : List UInt8} {b : UInt8} (hb : Str.isSpace b = true) :
    strip (t ++ [b]) = strip t := by
  unfold strip
  rw [List.dropWhile_append]
  split
  next hempty =>
    rw [List.isEmpty_iff.mp hempty, List.dropWhile_cons_of_pos hb]
    rfl
  next => rw [List.rdropWhile_concat_pos _ _ _ hb]

/-- A byte at the end that is no blank ends the stripped text. -/
theorem strip_concat_of_ink {t : List UInt8} {b : UInt8} (hb : Str.isSpace b = false) :
    strip (t ++ [b]) = t.dropWhile Str.isSpace ++ [b] := by
  have hneg : ¬ Str.isSpace b = true := by simp [hb]
  have hdrop : (t ++ [b]).dropWhile Str.isSpace = t.dropWhile Str.isSpace ++ [b] := by
    rw [List.dropWhile_append]
    split
    next hempty => rw [List.isEmpty_iff.mp hempty, List.dropWhile_cons_of_neg hneg, List.nil_append]
    next => rfl
  rw [strip, hdrop, List.rdropWhile_concat_neg _ _ _ hneg]

/-- A text that is appended changes nothing up to blanks iff it is blank. -/
theorem strip_append_eq_iff {t u : List UInt8} :
    strip (t ++ u) = strip t ↔ ∀ b ∈ u, Str.isSpace b = true := by
  induction u using List.reverseRecOn with
  | nil => simp
  | append_singleton u b ih =>
      rw [← List.append_assoc]
      by_cases hb : Str.isSpace b = true
      · rw [strip_concat hb, ih]
        simp [or_imp, forall_and, hb]
      · -- the last byte stays, which makes the text longer
        rw [Bool.not_eq_true] at hb
        rw [strip_concat_of_ink hb]
        have hshort : (strip t).length ≤ (t.dropWhile Str.isSpace).length :=
          (List.rdropWhile_prefix _ _).length_le
        have hgrow : (t.dropWhile Str.isSpace).length ≤ ((t ++ u).dropWhile Str.isSpace).length := by
          rw [List.dropWhile_append]
          split
          next hempty => simp [List.isEmpty_iff.mp hempty]
          next => simp
        constructor
        · intro h
          have hlength := congrArg List.length h
          simp only [List.length_append, List.length_singleton] at hlength
          omega
        · intro h
          have hspace := h b (by simp)
          simp [hb] at hspace

/-! ## What a run keeps -/

namespace ConfigFiles

/-- The file holds the text, up to blanks around it. -/
def Has (file : Option (List UInt8)) (C : List UInt8) : Prop :=
  ∃ t, file = some t ∧ strip t = strip C

/-- One of the two files holds the text. -/
def Holds (f : ConfigFiles) (C : List UInt8) : Prop := Has f.conf C ∨ Has f.original C

/-- A file that there is holds the text iff they are the same up to blanks. -/
@[simp] theorem has_some {t C : List UInt8} : Has (some t) C ↔ strip t = strip C := by
  simp [Has]

/-- A missing file holds nothing. -/
@[simp] theorem not_has_none {C : List UInt8} : ¬ Has none C := by
  simp [Has]

/-- The step loses nothing. A check that finds the standard configuration writes nothing; else the
text it reads is the one to keep, or it reads none and the backup has the text. A renaming adds
nothing but blanks, or the backup has the text. -/
def StepKeeps (C : List UInt8) (f : ConfigFiles) : ConfigStep → Prop
  | .check behind =>
      match readFile f.conf behind with
      | none => Has f.original C ∨ strip stdConfig.m_buffer = strip C
      | some config => correctConfig config = true ∨ strip config.m_buffer = strip C ∨
          -- the text to keep is the standard one
          (strip stdConfig.m_buffer = strip C ∧ Has f.conf C)
  | .rename exitStatus output => exitStatus ≠ 0 ∨ Has f.original C ∨
      ∀ b ∈ (captureOutput output).m_buffer, Str.isSpace b = true

/-- All steps of the run lose nothing. -/
def AllKeep (C : List UInt8) (f : ConfigFiles) : List ConfigStep → Prop
  | [] => True
  | st :: steps => StepKeeps C f st ∧ AllKeep C (f.after st) steps

variable {C : List UInt8} {f : ConfigFiles}

/-- A check goes by a state without the text exactly where the step does not keep it: between the two
writes the backup must have it. -/
theorem holds_configurationInit_iff (behind : List UInt8) :
    (∀ p ∈ f.configurationInit behind, p.Holds C) ↔ StepKeeps C f (.check behind) := by
  simp only [configurationInit, StepKeeps]
  rcases readFile f.conf behind with _ | config
  · simp [Holds, or_comm]
  · by_cases hcorrect : correctConfig config = true
    · simp [hcorrect]
    · simp only [hcorrect, Bool.false_eq_true, if_false, Holds, List.forall_mem_cons, has_some,
        List.not_mem_nil, false_implies, implies_true, and_true, false_or]
      constructor
      · rintro ⟨hconf | htext, hstd | htext'⟩
        · exact .inr ⟨hstd, hconf⟩
        · exact .inl htext'
        · exact .inl htext
        · exact .inl htext
      · rintro (htext | ⟨hstd, hconf⟩)
        · exact ⟨.inr htext, .inr htext⟩
        · exact ⟨.inl hconf, .inl hstd⟩

/-- A renaming appends to the file with the text, which keeps the text iff nothing but blanks is
appended. -/
theorem holds_appendOutput_iff (h : f.Holds C) (exitStatus : UInt8) (output : List UInt8) :
    (∀ p ∈ f.appendOutput exitStatus output, p.Holds C) ↔
      StepKeeps C f (.rename exitStatus output) := by
  unfold appendOutput StepKeeps
  by_cases hexit : exitStatus = 0
  · simp only [hexit, ne_eq, not_true_eq_false, if_false, List.forall_mem_singleton, Holds, has_some,
      false_or]
    by_cases horiginal : Has f.original C
    · simp [horiginal]
    · obtain ⟨t, ht, hstrip⟩ := h.resolve_right horiginal
      rw [ht, Option.getD_some, ← hstrip, strip_append_eq_iff]
      exact or_comm
  · simp [hexit]

/-- A step keeps a text that the files hold iff it meets the condition. -/
theorem holds_step_iff (h : f.Holds C) (st : ConfigStep) :
    (∀ p ∈ f.step st, p.Holds C) ↔ StepKeeps C f st := by
  cases st with
  | check behind => exact holds_configurationInit_iff behind
  | rename exitStatus output => exact holds_appendOutput_iff h exitStatus output

/-- The last state of a step holds what all its states hold. -/
theorem holds_after (h : f.Holds C) {st : ConfigStep} (hst : ∀ p ∈ f.step st, p.Holds C) :
    (f.after st).Holds C := by
  unfold after
  rcases List.eq_nil_or_concat (f.step st) with hnil | ⟨l, p, hl⟩
  · rw [hnil]
    exact h
  · rw [hl, List.concat_eq_append, List.getLastD_concat]
    exact hst p (by simp [hl])

/-- By induction over the run, from any pair of files that holds the text. -/
theorem holds_points_iff (h : f.Holds C) (steps : List ConfigStep) :
    (∀ p ∈ f.points steps, p.Holds C) ↔ AllKeep C f steps := by
  induction steps generalizing f with
  | nil => simp [points, AllKeep, h]
  | cons st steps ih =>
      simp only [points, AllKeep, List.cons_append, List.forall_mem_cons, List.forall_mem_append,
        h, true_and, holds_step_iff h]
      refine and_congr_right fun hst => ih ?_
      exact holds_after h ((holds_step_iff h st).mpr hst)

/-- **The configuration is kept iff every step keeps it.** Whatever the file starts with and the
backup, every state that the run comes by holds it in one of the two files iff no check writes while
the file has another text, and no renaming appends to it without a backup. -/
theorem configKept_iff (C : List UInt8) (original : Option (List UInt8)) (steps : List ConfigStep) :
    (∀ p ∈ points ⟨some C, original⟩ steps, p.Holds C) ↔ AllKeep C ⟨some C, original⟩ steps :=
  holds_points_iff (.inl (has_some.mpr rfl)) steps

/-- A configuration is backed up by a check, a volume is renamed, and the next check overwrites the
backup. -/
theorem not_configKept_renamed :
    ¬ ∀ p ∈ points ⟨some (lit "MAILADDR admin" ++ [10]), none⟩
      [.check [], .rename 0 (lit "ARRAY UUID=aa:1" ++ [10]), .check []],
      p.Holds (lit "MAILADDR admin" ++ [10]) := by
  have hfirst := configurationInit_line (t := lit "MAILADDR admin")
    ⟨by decide, by decide, by decide, by decide, by decide +kernel, by decide⟩ (by decide +kernel)
      none []
  have hplain : PlainText (stdText ++ lit "ARRAY UUID=aa:1") :=
    ⟨by decide +kernel, by decide +kernel, singleBytes_stdText.append (by decide),
      by decide +kernel, by decide +kernel, by decide +kernel⟩
  have hlast := configurationInit_line hplain (by decide +kernel) (some (lit "MAILADDR admin")) []
  have hcapture : (captureOutput (lit "ARRAY UUID=aa:1" ++ [10])).m_buffer =
      lit "ARRAY UUID=aa:1" ++ [10] := by decide +kernel
  intro hkept
  have hholds := hkept ⟨some stdText, some (stdText ++ lit "ARRAY UUID=aa:1")⟩ (by
    simp [points, after, step, appendOutput, hfirst, hcapture, hlast, ← List.append_assoc])
  rcases hholds with hconf | horiginal
  · rw [has_some] at hconf
    exact absurd hconf (by decide +kernel)
  · rw [has_some] at horiginal
    exact absurd horiginal (by decide +kernel)

end ConfigFiles

end Irstessi
