import Irstessi.CallSession
import Irstessi.ConfigFiles
import Irstessi.Migration

/-!
# Renaming a volume

`SsiVolumeRename` looks for another volume of the name and goes on to `Volume::rename`, which stops
the volume, has the container write the new name and the configuration, and assembles the container
again.

* `rejectsName`, `renameVolume`, `assemble`, `rename`, `SsiVolumeRename`: the functions.
* `nameAfter`, `confAfter`: the name and the configuration file after the calls of a trace;
  `confAfter_writeConfiguration`: the file is the one that `ConfigFiles.appendOutput` says.
* `FailsCleanly`: a call that fails has changed nothing, and an invalid name is refused at once.
* **`failsCleanly_iff`**: exactly when a call does so, for a volume in state Normal.

The trace of a call determines what has become of the name and of the file: the last command that has
written a name, and the last text that has been appended. So each of the three steps is described by its
trace and its result, from the environment's answers at its position in the run. An exception of the
second step ends the call before the container is assembled again. As a session checks the configuration
before the call begins, the file that the appended text comes behind is not the one before the call; the
conditions of the theorem are stated with what the check reads of that file and with the output of
mdadm.
-/

namespace Irstessi

open Interact

/-! ## The functions -/

/-- There is a slash in the name or, but for its ends, a blank.
Source: `array.cpp` `Array::renameVolume`, `pos` -/
def rejectsName (newName : Str) : Bool :=
  (newName.find (lit "/") 0).isSome || (newName.trim.find (lit " ") 0).isSome

namespace RaidArray

variable (a : RaidArray)

/-- The name in the metadata is updated, unless it is rejected.
Source: `array.cpp` `Array::renameVolume`, up to the update -/
def updateName (ordinal : UInt32) (newName : Str) : SysProg SSI_Status :=
  if rejectsName newName then do
    setLastErrorMessage (newName ++ .ofLit " is an invalid name for an md device")
    pure .invalidString
  else do
    if (← shellEx (.updateName ordinal.toNat newName a.m_Name) 1 1) = 0 then pure .ok
    else pure .failed

/-- The arrays that there are go to the end of the configuration file, whatever the update has come
to.
Source: `array.cpp` `Array::renameVolume`, behind the update -/
def writeConfiguration (status : SSI_Status) : SysProg SSI_Status := do
  let reply ← shellOutput .examineBrief
  if reply.exitStatus ≠ 0 then pure .failed
  else do
    appendConfig (captureOutput reply.output)
    pure status

/-- Source: `array.cpp` `Array::renameVolume` -/
def renameVolume (ordinal : UInt32) (newName : Str) : SysProg SSI_Status := do
  let status ← a.updateName ordinal newName
  writeConfiguration status

/-- Source: `array.cpp` `Array::assemble` -/
def assemble : SysProg SSI_Status := do
  if (← shellEx (.incremental a.m_Name) 1 0) = 0 then pure .ok else pure .failed

/-- The container is assembled again when the renaming has failed.
Source: `volume.cpp` `Volume::rename` -/
def assembleAgain : SysProg SSI_Status := do
  let _ ← a.assemble
  pure .failed

end RaidArray

/-- The volume is stopped, renamed and assembled.
Source: `volume.cpp` `Volume::rename`, behind the check -/
def Volume.renameIn (v : Volume) (pArray : RaidArray) (newName : Str) : SysProg SSI_Status := do
  if (← shellEx (.stop v.m_DevName) 1 0) = 0 then
    if (← pArray.renameVolume v.m_Ordinal newName) = .ok then pArray.assemble
    else pArray.assembleAgain
  else pArray.assembleAgain

/-- Source: `volume.cpp` `Volume::rename` -/
def Volume.rename (v : Volume) (newName : Str) : SysProg SSI_Status :=
  match v.m_pParent with
  | none => pure .invalidState
  | some pArray =>
      if v.m_State ≠ .normal then pure .invalidState
      else v.renameIn pArray newName

namespace CallSession

/-- A volume of the session has the name.
Source: `src/volume.cpp` `SsiVolumeRename`, the loop -/
def nameInUse (s : CallSession) (name : Str) : Bool := s.volumes.any fun v => v.2.m_Name.equal name

end CallSession

/-- Source: `src/volume.cpp` `SsiVolumeRename` -/
def SsiVolumeRename (s : CallSession) (volumeHandle : Nat) (volumeName : List UInt8) :
    SysProg SSI_Status :=
  match s.getVolume volumeHandle with
  | none => pure .invalidHandle
  | some pVolume =>
      let name := Str.ofBytes volumeName
      if s.nameInUse name then do
        setLastErrorMessage (.ofLit "Volume name already in use")
        pure .invalidString
      else pVolume.rename name

/-! ## What a trace leaves -/

/-- The name that a command writes where it exits with 0. -/
def writtenName? : SysEvent → Option Str
  | ⟨.shell (.updateName _ newName _), reply⟩ =>
      if ShellReply.exitStatus reply = 0 then some newName else none
  | _ => none

/-- The name of the volume after the calls of a trace. -/
def nameAfter (name : Str) (tr : List SysEvent) : Str :=
  tr.foldl (fun name e => (writtenName? e).getD name) name

/-- The text that a write appends where it does not throw. -/
def appendedText? : SysEvent → Option (List UInt8)
  | ⟨.appendConfig text, thrown⟩ =>
      match (thrown : Option Exception) with
      | none => some text.m_buffer
      | some _ => none
  | _ => none

/-- The configuration file after the calls of a trace. -/
def confAfter (conf : Option (List UInt8)) (tr : List SysEvent) : Option (List UInt8) :=
  tr.foldl (fun conf e => match appendedText? e with
    | some text => some (conf.getD [] ++ text)
    | none => conf) conf

section trace

variable {name newName : Str} {conf : Option (List UInt8)} {tr : List SysEvent}

/-- Without a call the name stays. -/
@[simp] theorem nameAfter_nil : nameAfter name [] = name := rfl

/-- The name behind a trace, event by event: an update that succeeds writes its name. -/
theorem nameAfter_cons (e : SysEvent) :
    nameAfter name (e :: tr) = nameAfter ((writtenName? e).getD name) tr := rfl

/-- Calls that write no name leave it. -/
theorem nameAfter_of_none (h : ∀ e ∈ tr, writtenName? e = none) : nameAfter name tr = name := by
  induction tr with
  | nil => rfl
  | cons e tr ih =>
      rw [nameAfter_cons, h e List.mem_cons_self, Option.getD_none]
      exact ih fun e he => h e (List.mem_cons_of_mem _ he)

/-- Without a call the file stays. -/
@[simp] theorem confAfter_nil : confAfter conf [] = conf := rfl

/-- An event that appends nothing leaves the file. -/
theorem confAfter_cons_of_none {e : SysEvent} (h : appendedText? e = none) :
    confAfter conf (e :: tr) = confAfter conf tr := by
  rw [confAfter, List.foldl_cons, h]
  rfl

/-- No command writes the configuration file by itself. -/
@[simp] theorem confAfter_cons_shell (cmd : Command) (reply : ShellReply) :
    confAfter conf (⟨.shell cmd, reply⟩ :: tr) = confAfter conf tr := confAfter_cons_of_none rfl

/-- A write that succeeds appends its text. -/
@[simp] theorem confAfter_cons_written (text : Str) :
    confAfter conf (⟨.appendConfig text, (none : Option Exception)⟩ :: tr) =
      confAfter (some (conf.getD [] ++ text.m_buffer)) tr := rfl

/-- Writing the file is no command. -/
@[simp] theorem exits_cons_appendConfig (text : Str) (thrown : Option Exception) :
    exits (⟨.appendConfig text, thrown⟩ :: tr) = exits tr := rfl

end trace

/-! ## Runs -/

/-- The text that a run appends to the configuration file if `mdadm -Ebs` is call number `i`. -/
def arraysText (env : SysEnv) (i : Nat) : Str :=
  captureOutput (ShellReply.output (env i (.shell .examineBrief)))

/-- What the write throws that follows `mdadm -Ebs`. -/
def writeThrows (env : SysEnv) (i : Nat) : Option Exception :=
  env (i + 1) (.appendConfig (arraysText env i))

/-- What follows a write is run where nothing was thrown. -/
theorem appendConfig_bind {α : Type} (text : Str) (f : Unit → SysProg α) :
    appendConfig text >>= f = .call (.appendConfig text) fun thrown =>
      match (thrown : Option Exception) with
      | none => f ()
      | some e => raise e := by
  show Prog.call _ _ = _
  congr 1
  funext thrown
  cases (thrown : Option Exception) <;> rfl

namespace RaidArray

variable (a : RaidArray) (env : SysEnv) (i : Nat)

/-- Assembling is one command, whose status it returns. -/
theorem assemble_run :
    (a.assemble.run env i).trace =
      [⟨.shell (.incremental a.m_Name), env i (.shell (.incremental a.m_Name))⟩] ∧
    (a.assemble.run env i).result =
      .ok (if exitOf env i (.incremental a.m_Name) = 0 then .ok else .failed) := by
  unfold assemble
  obtain ⟨htrace, hresult⟩ := run_shellEx_bind env i (.incremental a.m_Name) 1 0 fun r =>
    (if r = 0 then pure .ok else pure .failed : SysProg SSI_Status)
  rw [htrace, hresult]
  by_cases hexit : exitOf env i (.incremental a.m_Name) = 0
  · simp [hexit]
  · simp [hexit]

/-- Assembling behind a failure is one command, and the status is that of the failure. -/
theorem assembleAgain_run :
    (a.assembleAgain.run env i).trace =
      [⟨.shell (.incremental a.m_Name), env i (.shell (.incremental a.m_Name))⟩] ∧
    (a.assembleAgain.run env i).result = .ok .failed := by
  obtain ⟨htrace, hresult⟩ := a.assemble_run env i
  rw [assembleAgain, Prog.run_bind_ok env i hresult, htrace]
  exact ⟨rfl, rfl⟩

/-- With a name that is not rejected the update is one command. -/
theorem updateName_run {newName : Str} (h : rejectsName newName = false) (ordinal : UInt32) :
    ((a.updateName ordinal newName).run env i).trace =
      [⟨.shell (.updateName ordinal.toNat newName a.m_Name),
        env i (.shell (.updateName ordinal.toNat newName a.m_Name))⟩] ∧
    ((a.updateName ordinal newName).run env i).result =
      .ok (if exitOf env i (.updateName ordinal.toNat newName a.m_Name) = 0 then .ok
        else .failed) := by
  unfold updateName
  rw [if_neg (by simp [h])]
  obtain ⟨htrace, hresult⟩ := run_shellEx_bind env i (.updateName ordinal.toNat newName a.m_Name)
    1 1 fun r => (if r = 0 then pure .ok else pure .failed : SysProg SSI_Status)
  rw [htrace, hresult]
  by_cases hexit : exitOf env i (.updateName ordinal.toNat newName a.m_Name) = 0
  · simp [hexit]
  · simp [hexit]

/-- The configuration is written where `mdadm -Ebs` exits with 0; the status is that of the update
unless the write throws. -/
theorem writeConfiguration_run (status : SSI_Status) :
    ((writeConfiguration status).run env i).trace =
      ⟨.shell .examineBrief, env i (.shell .examineBrief)⟩ ::
        (if exitOf env i .examineBrief = 0 then
          [⟨.appendConfig (arraysText env i), writeThrows env i⟩] else []) ∧
    ((writeConfiguration status).run env i).result =
      if exitOf env i .examineBrief = 0 then
        match writeThrows env i with
        | none => .ok status
        | some e => .error (.exception e)
      else .ok .failed := by
  unfold writeConfiguration exitOf
  rw [shellOutput_bind, Prog.run_call]
  by_cases hexit : ShellReply.exitStatus (env i (.shell .examineBrief)) = 0
  · simp only [hexit, ne_eq, not_true_eq_false, if_false, if_true]
    rw [appendConfig_bind, Prog.run_call]
    unfold writeThrows arraysText
    rcases env (i + 1) (.appendConfig (captureOutput (env i (.shell .examineBrief)).output)) with _ | e
    · exact ⟨rfl, rfl⟩
    · exact ⟨rfl, rfl⟩
  · simp only [hexit, ne_eq, not_false_eq_true, if_true, if_false]
    exact ⟨rfl, rfl⟩

/-- What the write leaves is what `ConfigFiles.appendOutput` says. -/
theorem confAfter_writeConfiguration (status : SSI_Status) (f : ConfigFiles)
    (hwrite : writeThrows env i = none) :
    confAfter f.conf ((writeConfiguration status).run env i).trace =
      (f.after (.rename (exitOf env i .examineBrief)
        (ShellReply.output (env i (.shell .examineBrief))))).conf := by
  rw [(writeConfiguration_run env i status).1, confAfter_cons_shell, hwrite, ConfigFiles.after,
    ConfigFiles.step, ConfigFiles.appendOutput]
  by_cases hexit : exitOf env i .examineBrief = 0
  · simp [hexit, arraysText]
  · simp [hexit]

end RaidArray

/-! ## Failing cleanly -/

/-- The name is longer than 16 characters, or has a slash or an inner blank. -/
def InvalidName (name : Str) : Prop :=
  16 < name.m_length ∨ 47 ∈ name.m_buffer ∨ 32 ∈ name.trim.m_buffer

/-- A name is rejected for a slash anywhere, or a blank inside of it. -/
theorem rejectsName_iff {name : Str} :
    rejectsName name = true ↔ 47 ∈ name.m_buffer ∨ 32 ∈ name.trim.m_buffer := by
  have hslash : lit "/" = [47] := by decide
  have hblank : lit " " = [32] := by decide
  rw [rejectsName, Bool.or_eq_true, Str.find_isSome_iff, Str.find_isSome_iff, hslash, hblank,
    List.singleton_infix_iff, List.singleton_infix_iff]

/-- If the volume has been stopped, the last command assembles its container. -/
def Reassembled (v : Volume) (tr : List SysEvent) : Prop :=
  (.stop v.m_DevName, 0) ∈ exits tr →
    ∃ a exit, v.m_pParent = some a ∧ (exits tr).getLast? = some (.incremental a.m_Name, exit)

/-- A call that does not return `SSI_StatusOk` has left the name and the configuration file as they
were, and the volume assembled as far as the command succeeds; an invalid name is refused without any
command. `f` are the configuration files before the call, which opens a session and so checks them. -/
structure FailsCleanly (f : ConfigFiles) (behind : List UInt8) (v : Volume) (name : Str)
    (tr : List SysEvent) (res : Except Fault SSI_Status) : Prop where
  sameName : res ≠ .ok .ok → nameAfter v.m_Name tr = v.m_Name
  sameConf : res ≠ .ok .ok → confAfter (f.after (.check behind)).conf tr = f.conf
  reassembled : res ≠ .ok .ok → Reassembled v tr
  refused : InvalidName name → res = .ok .invalidString ∧ exits tr = []

/-- An output that is appended behind the check leaves the file as it was: it is empty, or the check has
written the standard text and the file was that text with the output behind it. -/
def OutputKeeps (f : ConfigFiles) (behind : List UInt8) (output : Str) : Prop :=
  f.ReadsStandard behind ∧ output.m_buffer = [] ∨
    ¬ f.ReadsStandard behind ∧ f.conf = some (stdText ++ output.m_buffer)

/-- The first steps of `Volume::rename` in the container `a` keep the file and the name, or all steps
succeed. -/
def StepsClean (f : ConfigFiles) (behind : List UInt8) (v : Volume) (a : RaidArray) (name : Str)
    (env : SysEnv) (i : Nat) : Prop :=
  if exitOf env i (.stop v.m_DevName) ≠ 0 then f.ReadsStandard behind
  else if exitOf env (i + 1) (.updateName v.m_Ordinal.toNat name a.m_Name) = 0 then
    exitOf env (i + 2) .examineBrief = 0 ∧ writeThrows env (i + 2) = none ∧
      exitOf env (i + 4) (.incremental a.m_Name) = 0
  else if exitOf env (i + 2) .examineBrief = 0 then
    writeThrows env (i + 2) = none ∧ OutputKeeps f behind (arraysText env (i + 2))
  else f.ReadsStandard behind

/-- When a call fails cleanly. -/
def RenamesCleanly (s : CallSession) (f : ConfigFiles) (behind : List UInt8) (v : Volume) (name : Str)
    (env : SysEnv) (i : Nat) : Prop :=
  if s.nameInUse name then f.ReadsStandard behind
  else ¬ InvalidName name ∧
    match v.m_pParent with
    | none => f.ReadsStandard behind
    | some a => StepsClean f behind v a name env i

section proofs

variable {s : CallSession} {f : ConfigFiles} {behind : List UInt8} {v : Volume} {a : RaidArray}
  {name : Str} {env : SysEnv} {i : Nat}

/-- The file with an output behind it that the check has left. -/
theorem append_eq_conf_iff (f : ConfigFiles) (behind : List UInt8) (output : Str) :
    some ((f.after (.check behind)).conf.getD [] ++ output.m_buffer) = f.conf ↔
      OutputKeeps f behind output := by
  unfold OutputKeeps
  rcases f.conf_after_check behind with ⟨hreads, hconf⟩ | ⟨hreads, hconf⟩
  · obtain ⟨config, hread, -⟩ := id hreads
    rcases hf : f.conf with _ | t
    · rw [hf] at hread
      cases hread
    · rw [hconf, hf]
      simp [hreads]
  · rw [hconf]
    simp [hreads, eq_comm]

/-- A refusal without any call. -/
theorem failsCleanly_nil_iff {status : SSI_Status} (h : status ≠ .ok) :
    FailsCleanly f behind v name [] (.ok status) ↔
      (f.after (.check behind)).conf = f.conf ∧ (InvalidName name → status = .invalidString) := by
  constructor
  · intro hclean
    refine ⟨hclean.sameConf fun hok => h (Except.ok.inj hok), fun hinvalid => ?_⟩
    exact Except.ok.inj (hclean.refused hinvalid).1
  · rintro ⟨hconf, hstatus⟩
    refine ⟨fun _ => rfl, fun _ => hconf, fun _ hstop => ?_, fun hinvalid => ?_⟩
    · simp at hstop
    · rw [hstatus hinvalid]
      exact ⟨rfl, rfl⟩

/-- Once a command is issued a valid name is needed. -/
theorem not_invalidName_of_failsCleanly {tr : List SysEvent} {res : Except Fault SSI_Status}
    (h : FailsCleanly f behind v name tr res) (hexits : exits tr ≠ []) : ¬ InvalidName name :=
  fun hinvalid => hexits (h.refused hinvalid).2

/-- A valid name is not rejected; the converse fails, as the length is not looked at. -/
theorem rejectsName_of_not_invalidName (h : ¬ InvalidName name) : rejectsName name = false := by
  rw [Bool.eq_false_iff]
  exact fun hrejects => h (.inr (rejectsName_iff.mp hrejects))

/-- With a name that is not rejected: the update, and then the writing of the file whatever the update's
status was. -/
theorem renameVolume_run (a : RaidArray) (env : SysEnv) (i : Nat) (h : rejectsName name = false)
    (ordinal : UInt32) :
    ((a.renameVolume ordinal name).run env i).trace =
      ⟨.shell (.updateName ordinal.toNat name a.m_Name),
        env i (.shell (.updateName ordinal.toNat name a.m_Name))⟩ ::
      ((RaidArray.writeConfiguration
        (if exitOf env i (.updateName ordinal.toNat name a.m_Name) = 0 then .ok else .failed)).run
          env (i + 1)).trace ∧
    ((a.renameVolume ordinal name).run env i).result =
      ((RaidArray.writeConfiguration
        (if exitOf env i (.updateName ordinal.toNat name a.m_Name) = 0 then .ok else .failed)).run
          env (i + 1)).result := by
  obtain ⟨htrace, hresult⟩ := a.updateName_run env i h ordinal
  rw [RaidArray.renameVolume, Prog.run_bind_ok env i hresult, htrace]
  exact ⟨rfl, rfl⟩

/-- The stop fails. -/
theorem renameIn_run_of_stop_fails (a : RaidArray) (name : Str)
    (hstop : exitOf env i (.stop v.m_DevName) ≠ 0) :
    ((v.renameIn a name).run env i).trace =
      [⟨.shell (.stop v.m_DevName), env i (.shell (.stop v.m_DevName))⟩,
        ⟨.shell (.incremental a.m_Name), env (i + 1) (.shell (.incremental a.m_Name))⟩] ∧
    ((v.renameIn a name).run env i).result = .ok .failed := by
  unfold Volume.renameIn
  obtain ⟨htrace, hresult⟩ := run_shellEx_bind env i (.stop v.m_DevName) 1 0 fun r =>
    (if r = 0 then do
      if (← a.renameVolume v.m_Ordinal name) = .ok then a.assemble else a.assembleAgain
    else a.assembleAgain : SysProg SSI_Status)
  rw [htrace, hresult, if_neg hstop, if_neg (by simp)]
  obtain ⟨hagain, hfailed⟩ := a.assembleAgain_run env (i + 1)
  rw [hagain, hfailed]
  exact ⟨rfl, rfl⟩

/-- The volume is stopped, and what follows ends in a status: the container is assembled. -/
theorem renameIn_run_of_returned (hstop : exitOf env i (.stop v.m_DevName) = 0)
    {tr : List SysEvent} {status : SSI_Status}
    (htrace : ((a.renameVolume v.m_Ordinal name).run env (i + 1)).trace = tr)
    (hresult : ((a.renameVolume v.m_Ordinal name).run env (i + 1)).result = .ok status) :
    ((v.renameIn a name).run env i).trace =
      ⟨.shell (.stop v.m_DevName), env i (.shell (.stop v.m_DevName))⟩ :: (tr ++
        [⟨.shell (.incremental a.m_Name),
          env (i + 1 + tr.length) (.shell (.incremental a.m_Name))⟩]) ∧
    ((v.renameIn a name).run env i).result =
      .ok (if status = .ok ∧ exitOf env (i + 1 + tr.length) (.incremental a.m_Name) = 0 then .ok
        else .failed) := by
  unfold Volume.renameIn
  obtain ⟨hstopped, hrest⟩ := run_shellEx_bind env i (.stop v.m_DevName) 1 0 fun r =>
    (if r = 0 then do
      if (← a.renameVolume v.m_Ordinal name) = .ok then a.assemble else a.assembleAgain
    else a.assembleAgain : SysProg SSI_Status)
  rw [hstopped, hrest, if_pos hstop, if_pos rfl, Prog.run_bind_ok env (i + 1) hresult, htrace]
  by_cases hok : status = .ok
  · obtain ⟨hassemble, hassembled⟩ := a.assemble_run env (i + 1 + tr.length)
    simp [hok, hassemble, hassembled]
  · obtain ⟨hassemble, hfailed⟩ := a.assembleAgain_run env (i + 1 + tr.length)
    simp [hok, hassemble, hfailed]

/-- The volume is stopped, and an exception leaves the call. -/
theorem renameIn_run_of_thrown (hstop : exitOf env i (.stop v.m_DevName) = 0) {e : Fault}
    (hresult : ((a.renameVolume v.m_Ordinal name).run env (i + 1)).result = .error e) :
    ((v.renameIn a name).run env i).trace =
      ⟨.shell (.stop v.m_DevName), env i (.shell (.stop v.m_DevName))⟩ ::
        ((a.renameVolume v.m_Ordinal name).run env (i + 1)).trace ∧
    ((v.renameIn a name).run env i).result = .error e := by
  unfold Volume.renameIn
  obtain ⟨hstopped, hrest⟩ := run_shellEx_bind env i (.stop v.m_DevName) 1 0 fun r =>
    (if r = 0 then do
      if (← a.renameVolume v.m_Ordinal name) = .ok then a.assemble else a.assembleAgain
    else a.assembleAgain : SysProg SSI_Status)
  rw [hstopped, hrest, if_pos hstop, if_pos rfl, Prog.run_bind_error env (i + 1) hresult]
  exact ⟨rfl, rfl⟩

/-- A success needs nothing but a valid name. -/
theorem failsCleanly_of_ok {tr : List SysEvent} (hvalid : ¬ InvalidName name) :
    FailsCleanly f behind v name tr (.ok .ok) :=
  ⟨fun h => absurd rfl h, fun h => absurd rfl h, fun h => absurd rfl h,
    fun hinvalid => absurd hinvalid hvalid⟩

/-- A failure that has assembled the container at the end. -/
theorem failsCleanly_failed_iff {tr : List SysEvent} {exit : UInt8} (hvalid : ¬ InvalidName name)
    (hparent : v.m_pParent = some a)
    (hlast : (exits tr).getLast? = some (.incremental a.m_Name, exit)) :
    FailsCleanly f behind v name tr (.ok .failed) ↔
      nameAfter v.m_Name tr = v.m_Name ∧ confAfter (f.after (.check behind)).conf tr = f.conf := by
  constructor
  · intro hclean
    exact ⟨hclean.sameName (by simp), hclean.sameConf (by simp)⟩
  · rintro ⟨hname, hconf⟩
    exact ⟨fun _ => hname, fun _ => hconf, fun _ _ => ⟨a, exit, hparent, hlast⟩,
      fun hinvalid => absurd hinvalid hvalid⟩

/-- An exception that leaves the call behind the stop. -/
theorem not_failsCleanly_of_throw {tr : List SysEvent} {e : Fault}
    (hstop : (.stop v.m_DevName, 0) ∈ exits tr)
    (hlast : ∀ assembled exit, (exits tr).getLast? ≠ some (.incremental assembled, exit)) :
    ¬ FailsCleanly f behind v name tr (.error e) := by
  intro hclean
  obtain ⟨a, exit, -, hassembled⟩ := hclean.reassembled (by simp) hstop
  exact hlast _ _ hassembled

/-- The name after a stop, an update and calls that write no name. -/
theorem nameAfter_renameIn {ordinal : Nat} {tr : List SysEvent} (h : ∀ e ∈ tr, writtenName? e = none) :
    nameAfter v.m_Name (⟨.shell (.stop v.m_DevName), env i (.shell (.stop v.m_DevName))⟩ ::
        ⟨.shell (.updateName ordinal name a.m_Name),
          env (i + 1) (.shell (.updateName ordinal name a.m_Name))⟩ :: tr) =
      if exitOf env (i + 1) (.updateName ordinal name a.m_Name) = 0 then name else v.m_Name := by
  rw [nameAfter_cons, nameAfter_cons, nameAfter_of_none h]
  show (if exitOf env (i + 1) (.updateName ordinal name a.m_Name) = 0 then some name
    else none).getD v.m_Name = _
  split
  next => rfl
  next => rfl

/-- The steps behind the check of the state, by what the commands answer. -/
theorem failsCleanly_renameIn_iff (hvalid : ¬ InvalidName name) (hname : name ≠ v.m_Name)
    (hparent : v.m_pParent = some a) :
    FailsCleanly f behind v name ((v.renameIn a name).run env i).trace
      ((v.renameIn a name).run env i).result ↔ StepsClean f behind v a name env i := by
  unfold StepsClean
  by_cases hstop : exitOf env i (.stop v.m_DevName) = 0
  · rw [if_neg (by simp [hstop])]
    obtain ⟨hupdates, hstatus⟩ :=
      renameVolume_run a env (i + 1) (rejectsName_of_not_invalidName hvalid) v.m_Ordinal
    obtain ⟨hwrites, hwritten⟩ := RaidArray.writeConfiguration_run env (i + 1 + 1)
      (if exitOf env (i + 1) (.updateName v.m_Ordinal.toNat name a.m_Name) = 0 then .ok else .failed)
    rw [hwrites] at hupdates
    rw [hwritten] at hstatus
    by_cases hexit : exitOf env (i + 2) .examineBrief = 0
    · rw [if_pos hexit] at hupdates hstatus
      rcases hthrows : writeThrows env (i + 2) with _ | e
      · rw [hthrows] at hupdates hstatus
        obtain ⟨htrace, hresult⟩ := renameIn_run_of_returned hstop hupdates hstatus
        rw [htrace, hresult]
        by_cases hupdate : exitOf env (i + 1) (.updateName v.m_Ordinal.toNat name a.m_Name) = 0
        · simp only [if_pos hupdate]
          by_cases hassemble : exitOf env (i + 4) (.incremental a.m_Name) = 0
          · rw [if_pos ⟨trivial, hassemble⟩]
            exact iff_of_true (failsCleanly_of_ok hvalid) ⟨hexit, trivial, hassemble⟩
          · -- the new name stays although the call fails
            rw [if_neg fun h => hassemble h.2, failsCleanly_failed_iff hvalid hparent rfl]
            refine iff_of_false (fun h => hname ?_) fun h => hassemble h.2.2
            rw [← h.1, List.cons_append, nameAfter_renameIn (by simp [writtenName?]), if_pos hupdate]
        · simp only [if_neg hupdate]
          rw [if_neg (by simp), failsCleanly_failed_iff hvalid hparent rfl, List.cons_append,
            nameAfter_renameIn (by simp [writtenName?]), if_neg hupdate, if_pos hexit,
            ← append_eq_conf_iff]
          simp
      · rw [hthrows] at hupdates hstatus
        obtain ⟨htrace, hresult⟩ := renameIn_run_of_thrown hstop hstatus
        rw [htrace, hresult, hupdates]
        refine iff_of_false (not_failsCleanly_of_throw ?_ ?_) ?_
        · rw [← hstop]
          exact List.mem_cons_self
        · simp
        · simp [hexit]
    · rw [if_neg hexit] at hupdates hstatus
      obtain ⟨htrace, hresult⟩ := renameIn_run_of_returned hstop hupdates hstatus
      rw [htrace, hresult, if_neg (by simp), failsCleanly_failed_iff hvalid hparent rfl,
        List.cons_append, nameAfter_renameIn (by simp [writtenName?])]
      by_cases hupdate : exitOf env (i + 1) (.updateName v.m_Ordinal.toNat name a.m_Name) = 0
      · rw [if_pos hupdate, if_pos hupdate]
        exact iff_of_false (fun h => hname h.1) fun h => hexit h.1
      · rw [if_neg hupdate, if_neg hupdate]
        simp [hexit, ConfigFiles.conf_after_check_iff]
  · obtain ⟨htrace, hresult⟩ := renameIn_run_of_stop_fails a name hstop
    rw [htrace, hresult, if_pos hstop, failsCleanly_failed_iff hvalid hparent rfl]
    simp [nameAfter, writtenName?, ConfigFiles.conf_after_check_iff]

/-- The rename issues the stop before anything else, so that its commands are never empty. -/
theorem exits_renameIn_ne_nil : exits ((v.renameIn a name).run env i).trace ≠ [] := by
  unfold Volume.renameIn
  rw [(run_shellEx_bind env i (.stop v.m_DevName) 1 0 _).1]
  simp

/-- No volume of the session has a name that is not in use. -/
theorem ne_name_of_nameInUse {handle : Nat} {volume : ListedVolume} {volumeName : List UInt8}
    (hget : s.getVolume handle = some volume)
    (huse : s.nameInUse (.ofBytes volumeName) = false) : .ofBytes volumeName ≠ volume.m_Name := by
  intro heq
  rw [CallSession.nameInUse, List.any_eq_false] at huse
  apply huse _ (mem_of_findHandle hget)
  rw [Str.equal_iff (Str.wellFormed_ofBytes _), heq]

end proofs

/-- **A rename fails cleanly** exactly when the name is in use or valid, and the steps that the call
gets to keep the file and the name, or all succeed. The conditions on the steps are about exit statuses
and about the output that is appended; `f` are the configuration files before the call, and `behind` is
the memory behind the text that its check reads. -/
theorem failsCleanly_iff (s : CallSession) (f : ConfigFiles) (behind : List UInt8)
    (handle : Nat) (v : ListedVolume) (volumeName : List UInt8) (env : SysEnv) (i : Nat)
    (hget : s.getVolume handle = some v)
    (hnormal : v.m_State = .normal) :
    FailsCleanly f behind v.toVolume (.ofBytes volumeName)
        ((SsiVolumeRename s handle volumeName).run env i).trace
        ((SsiVolumeRename s handle volumeName).run env i).result ↔
      RenamesCleanly s f behind v.toVolume (.ofBytes volumeName) env i := by
  unfold SsiVolumeRename RenamesCleanly
  simp only [hget]
  by_cases huse : s.nameInUse (.ofBytes volumeName) = true
  · rw [if_pos huse, if_pos huse]
    apply Iff.trans (failsCleanly_nil_iff (by decide))
    simp [ConfigFiles.conf_after_check_iff]
  · rw [if_neg huse, if_neg huse, Volume.rename]
    rw [Bool.not_eq_true] at huse
    rcases hparent : v.m_pParent with _ | a
    · apply Iff.trans (failsCleanly_nil_iff (by decide))
      simp [and_comm, ConfigFiles.conf_after_check_iff]
    · simp only [hnormal, ne_eq, not_true_eq_false, if_false]
      by_cases hvalid : InvalidName (.ofBytes volumeName)
      · -- the volume is stopped before the name is looked at
        refine iff_of_false (fun h => ?_) fun h => h.1 hvalid
        exact not_invalidName_of_failsCleanly h exits_renameIn_ne_nil hvalid
      · rw [failsCleanly_renameIn_iff hvalid (ne_name_of_nameInUse hget huse) hparent]
        simp [hvalid]

section sample

/-- A session that lists one volume of level 1. -/
def sampleVolumeSession : CallSession :=
  ⟨[], [], [(4, ⟨Volume.sampleMirror, 1024, 512⟩)], 5⟩

/-- The name has a slash in it, and the volume is stopped all the same. -/
theorem not_failsCleanly_slash :
    ¬ ∀ (s : CallSession) (f : ConfigFiles) (behind : List UInt8) (handle : Nat) (v : ListedVolume)
      (volumeName : List UInt8) (env : SysEnv) (i : Nat), s.getVolume handle = some v →
      v.m_State = .normal →
      FailsCleanly f behind v.toVolume (.ofBytes volumeName)
        ((SsiVolumeRename s handle volumeName).run env i).trace
        ((SsiVolumeRename s handle volumeName).run env i).result := by
  intro hclean
  have hrun := hclean sampleVolumeSession ⟨some stdText, none⟩ [] 4
    ⟨Volume.sampleMirror, 1024, 512⟩ (lit "a/b") (Volume.constantExit 0) 0 rfl rfl
  obtain ⟨hstatus, -⟩ := hrun.refused (.inr (.inl (by decide)))
  exact absurd hstatus (by decide)

/-- Where every command succeeds the volume gets the new name. -/
theorem failsCleanly_data :
    FailsCleanly ⟨some stdText, none⟩ [] Volume.sampleMirror (.ofBytes (lit "data"))
      ((SsiVolumeRename sampleVolumeSession 4 (lit "data")).run (Volume.constantExit 0) 0).trace
      ((SsiVolumeRename sampleVolumeSession 4 (lit "data")).run (Volume.constantExit 0) 0).result := by
  refine (failsCleanly_iff sampleVolumeSession ⟨some stdText, none⟩ [] 4
    ⟨Volume.sampleMirror, 1024, 512⟩ (lit "data") (Volume.constantExit 0) 0 rfl rfl).mpr ?_
  have huse : sampleVolumeSession.nameInUse (.ofBytes (lit "data")) = false := by decide
  rw [RenamesCleanly, huse]
  refine ⟨?_, ?_⟩
  · rintro (hlong | hslash | hblank)
    · exact absurd hlong (by decide)
    · exact absurd hslash (by decide)
    · exact absurd hblank (by decide)
  · show StepsClean _ _ _ sampleArray _ _ _
    rw [StepsClean, if_neg (by decide), if_pos (by rfl)]
    exact ⟨rfl, rfl, rfl⟩

end sample

end Irstessi
