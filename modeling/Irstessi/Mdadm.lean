import Irstessi.Lib.Reach
import Irstessi.Types

/-!
# The environment: commands, files and the last error message

The modelled functions act on the system through five calls: a shell command run by `shellEx`,
`shell_output`, `shell_command` or `shell_cap`, a read of mdadm's map file, a read of a sysfs
attribute, a `stat` under `/dev/md`, and appending to the configuration file.

* `Command`: the shell commands that the modelled functions issue, `Command.render` their texts.
* `SysCall`, `SysReply`: the calls and their answers; `SysProg`: programs over them, whose notes
  are the texts given to `setLastErrorMessage`.
* `shellEx`, with `run_shellEx`, `ensures_shellEx_bind` and `calls_shellEx` for proofs.
* `exits`, `AllExitZero`: the commands of a trace and their exit statuses.

Commands are values and not texts, so that what a function issues can be compared and counted; their
texts are what `render` makes of them. An environment answers the calls by their position in the run,
hence in any way: it may let a command fail, and read a different text from the same file each time.
`shellEx` is the only function that turns exit statuses into results. It has its lemmas in each of the
forms in which programs are reasoned about here: a run, a property of all runs, the calls that may be
issued, and the calls that are issued in some run.
-/

namespace Irstessi

open Interact

/-- The shell commands that the modelled functions issue. `ch` is the value of the `-c` option,
where one is given. -/
inductive Command
  /-- `Volume::__toRaid0`: takeover to level 0. -/
  | growLevel0 (devName : Str) (ch : Option Nat)
  /-- `Volume::__toRaid10`: migration to level 10. -/
  | growLevel10 (devName : Str)
  /-- `Volume::__toRaid5`: migration to level 5 from another level. -/
  | growLevel5 (devName : Str) (ch : Option Nat)
  /-- `Volume::__toRaid5`: a change of the strip size of a level 5 volume. -/
  | growChunk5 (devName : Str) (ch : Option Nat)
  /-- `Array::addSpare`. -/
  | add (devName : Str) (devices : List Str)
  /-- `Array::grow`. -/
  | raidDevices (devName : Str) (n : Nat)
  /-- `Array::removeSpare`: the disk leaves the container. -/
  | removeDisk (devName disk : Str)
  /-- `Array::removeSpare`: its metadata is cleared. -/
  | zeroSuperblock (disk : Str)
  /-- `Volume::create`; the options are texts that the caller has put together. -/
  | createVolume (name : Str) (level : Nat) (componentSize chunk rwhPolicy : Str) (n : Nat)
      (devices : List Str)
  /-- `BlockDevice::__internal_determine_disk_usage`. -/
  | examineScan (devName : Str)
  /-- `Volume::getMdadmAttribute`. -/
  | detail (name field : Str)
  /-- `Volume::discover`: the file system of `/boot`. -/
  | bootFilesystem
  /-- `Array::create`. -/
  | createContainer (name : Str) (n : Nat) (devices : List Str)
  /-- `Array::__wait_for_container`: whether the link is there. -/
  | listName (name : Str)
  /-- `Array::__wait_for_container`: the link is made. -/
  | linkName (devName name : Str)
  /-- `Array::remove`, `Volume::rename`: the container or the volume is stopped. -/
  | stop (devName : Str)
  /-- `Array::remove`: the metadata of the members is cleared. -/
  | clearMembers (devices : List Str)
  /-- `Volume::expand`. -/
  | growSize (devName size : Str)
  /-- `Array::renameVolume`. -/
  | updateName (ordinal : Nat) (newName name : Str)
  /-- `Array::renameVolume`: the configuration of the arrays that there are. -/
  | examineBrief
  /-- `Array::assemble`. -/
  | incremental (name : Str)
  /-- `Array::removeVolume`. -/
  | killSubarray (ordinal : Nat) (devName : Str)
  deriving DecidableEq, Repr

namespace Command

/-- The texts of a list appended from the left, as the source's `+` chains do. -/
def concat (texts : List Str) : Str := texts.foldl (· ++ ·) Str.empty

/-- ` '/dev/<name>'`. -/
def quotedDevice (devName : Str) : Str := concat [.ofLit " '/dev/", devName, .ofLit "'"]

/-- The `-c` option in kilobytes. -/
def chunkOption : Option Nat → Str
  | some kb => concat [.ofLit " -c ", .ofNat kb]
  | none => .empty

/-- The text handed to the shell.
Source: `volume.cpp` `Volume::__toRaid0`, `__toRaid10`, `__toRaid5`, `create`, `expand`, `rename`,
`Volume::getMdadmAttribute`, `discover`; `array.cpp` `Array::addSpare`, `grow`, `removeSpare`,
`create`, `__wait_for_container`, `remove`, `renameVolume`, `assemble`, `removeVolume`;
`block_device.cpp` `__internal_determine_disk_usage` -/
def render : Command → Str
  | growLevel0 dev ch => concat [.ofLit "mdadm '/dev/", dev, .ofLit "' --grow -l0", chunkOption ch]
  | growLevel10 dev => concat [.ofLit "mdadm '/dev/", dev, .ofLit "' --grow  -l10"]
  | growLevel5 dev ch =>
      concat [.ofLit "mdadm '/dev/", dev, .ofLit "' --grow -l5 --layout=left-asymmetric",
        chunkOption ch]
  | growChunk5 dev ch => concat [.ofLit "mdadm '/dev/", dev, .ofLit "' --grow -l5", chunkOption ch]
  | add dev disks =>
      concat [.ofLit "mdadm '/dev/", dev, .ofLit "' -a", concat (disks.map quotedDevice)]
  | raidDevices dev n =>
      concat [.ofLit "mdadm --grow '/dev/", dev, .ofLit "' --raid-devices ", .ofNat n]
  | removeDisk dev disk =>
      concat [.ofLit "mdadm '/dev/", dev, .ofLit "' -r '/dev/", disk, .ofLit "'"]
  | zeroSuperblock disk => concat [.ofLit "mdadm --zero-superblock '/dev/", disk, .ofLit "'"]
  | createVolume name level size chunk rwh n disks =>
      concat [.ofLit "mdadm -CR '", name, .ofLit "' -amd -l", .ofNat level, .ofLit " --size=", size,
        chunk, rwh, .ofLit " -n", .ofNat n, concat (disks.map quotedDevice)]
  | examineScan dev => concat [.ofLit "mdadm -Es /dev/", dev]
  | detail name field =>
      concat [.ofLit "mdadm -D '/dev/md/", name, .ofLit "' | grep '", field, .ofLit "'"]
  | bootFilesystem => .ofLit "df /boot"
  | createContainer name n disks =>
      concat [.ofLit "mdadm -CR '", name, .ofLit "' -f -amd -eimsm -n", .ofNat n,
        concat (disks.map fun disk => Str.ofLit " /dev/" ++ disk)]
  | listName name => concat [.ofLit "ls '/dev/md/", name, .ofLit "'"]
  | linkName dev name => concat [.ofLit "ln -s '/dev/", dev, .ofLit "' '/dev/md/", name, .ofLit "'"]
  | stop dev => concat [.ofLit "mdadm -S '/dev/", dev, .ofLit "'"]
  | clearMembers disks =>
      concat [.ofLit "mdadm --zero-superblock", concat (disks.map quotedDevice)]
  | growSize dev size => concat [.ofLit "mdadm --grow '/dev/", dev, .ofLit "' --size=", size]
  | updateName ordinal newName name =>
      concat [.ofLit "mdadm --misc --update-subarray=", .ofNat ordinal,
        .ofLit " --update=name -N '", newName, .ofLit "' '/dev/md/", name, .ofLit "'"]
  | examineBrief => .ofLit "mdadm -Ebs"
  | incremental name => concat [.ofLit "mdadm -I '/dev/md/", name, .ofLit "'"]
  | killSubarray ordinal dev =>
      concat [.ofLit "mdadm --kill-subarray=", .ofNat ordinal, .ofLit " '/dev/", dev, .ofLit "'"]

/-- The RAID level that a `--grow -lN` which exits with 0 sets. -/
def level? : Command → Option UInt32
  | growLevel0 _ _ => some 0
  | growLevel10 _ => some 10
  | growLevel5 _ _ => some 5
  | growChunk5 _ _ => some 5
  | _ => none

end Command

/-- The calls that the modelled functions make. -/
inductive SysCall
  /-- `shell_output` of the command's text. -/
  | shell (cmd : Command)
  /-- `getMapFile`, the read of the file it finds, and `CanonicalPath`. -/
  | readMap
  /-- `operator >>` of a sysfs attribute. -/
  | readAttribute (path : Str)
  /-- `stat` of `/dev/md/<name>`. -/
  | stat (name : Str)
  /-- `File::write` to the end of mdadm's configuration file. -/
  | appendConfig (text : Str)
  deriving DecidableEq, Repr

/-- The answer to a shell command: its exit status, its standard output, and the lines that
`mdadmErrorLines` finds in its error output. -/
structure ShellReply where
  exitStatus : UInt8
  output : List UInt8
  errorLines : List Str
  deriving DecidableEq, Repr

/-- Linux transfers no more than this in one call. -/
def MAX_RW_COUNT : Nat := 0x7ffff000

/-- Source: `limits.h` `SSIZE_MAX` -/
def SSIZE_MAX : Nat := 2 ^ 63 - 1

/-- `operator >>` of a file on a disk into a `String`, the memory behind what is read being as given.
A file that is missing or empty is thrown at.
Source: `filesystem.h` `operator >>`, `File::read(String &)`; `filesystem.cpp`
`File::__internal_read_content`, `__internal_read_from_physical_fs` -/
def readFile (content : Option (List UInt8)) (behind : List UInt8) : Option Str :=
  match content with
  | some (b :: rest) =>
      if (b :: rest).length < SSIZE_MAX then
        some (Str.ofRead ((b :: rest).take MAX_RW_COUNT) behind).trim
      else some Str.empty.trim
  | _ => none

/-- One call of `read` transfers a file of ordinary size. -/
theorem readFile_of_le {t : List UInt8} (hne : t ≠ []) (h : t.length ≤ MAX_RW_COUNT)
    (behind : List UInt8) : readFile (some t) behind = some (Str.ofRead t behind).trim := by
  obtain ⟨b, rest, rfl⟩ := List.exists_cons_of_ne_nil hne
  have hsize : (b :: rest).length < SSIZE_MAX := by
    unfold MAX_RW_COUNT at h
    unfold SSIZE_MAX
    omega
  rw [readFile, if_pos hsize, List.take_of_length_le h]

/-- What the file system shows to an update: the content of the map file, if there is one and it
can be opened, what the memory holds behind the text that is read, and the canonical path of a path
(empty if it does not exist). -/
structure MapReply where
  text : Option (List UInt8)
  behind : List UInt8
  canonicalPath : Str → Str

/-- The answers; an attribute is answered with its content, if it can be read, `stat` with whether
it failed with `ENOENT`, and a write with the exception that it throws, if any. -/
abbrev SysReply : SysCall → Type
  | .shell _ => ShellReply
  | .readMap => MapReply
  | .readAttribute _ => Option (List UInt8)
  | .stat _ => Bool
  | .appendConfig _ => Option Exception

instance (c : SysCall) : Nonempty (SysReply c) :=
  match c with
  | .shell _ => ⟨(⟨0, [], []⟩ : ShellReply)⟩
  | .readMap => ⟨(⟨none, [], fun p => p⟩ : MapReply)⟩
  | .readAttribute _ => ⟨(none : Option (List UInt8))⟩
  | .stat _ => ⟨true⟩
  | .appendConfig _ => ⟨(none : Option Exception)⟩

/-- Programs over the system, noting the last error messages that they set. -/
abbrev SysProg : Type → Type := Prog SysCall SysReply Str Fault

/-- A call with its answer. -/
abbrev SysEvent : Type := Event SysCall SysReply

/-- The answers of the system to every call that may come. -/
abbrev SysEnv : Type := Env SysCall SysReply

/-- `throw`. -/
def raise {α : Type} (e : Exception) : SysProg α := .throw (.exception e)

/-- The command is run and its outcome collected.
Source: `utils.cpp` `shell_output` -/
def shellOutput (cmd : Command) : SysProg ShellReply := .call (.shell cmd) .pure

/-- Source: `raid_device.cpp` `getMapFile`, and the read in `RaidDevice::update` -/
def readMap : SysProg MapReply := .call .readMap .pure

/-- The content of an attribute; `none` is a throw of `File::read`. -/
def readAttribute (path : Str) : SysProg (Option (List UInt8)) := .call (.readAttribute path) .pure

/-- `stat` of `/dev/md/<name>` fails with `ENOENT`. -/
def statEnoent (name : Str) : SysProg Bool := .call (.stat name) .pure

/-- A failed write throws.
Source: `filesystem.h` `File::write` -/
def appendConfig (text : Str) : SysProg Unit :=
  .call (.appendConfig text) fun thrown => match thrown with
    | none => .pure ()
    | some e => raise e

/-- Running a command for its output is the call alone, which the proofs below step over. -/
@[simp] theorem shellOutput_bind {α : Type} (cmd : Command) (f : ShellReply → SysProg α) :
    shellOutput cmd >>= f = .call (.shell cmd) f := rfl

/-- Reading the map file is the call alone. -/
@[simp] theorem readMap_bind {α : Type} (f : MapReply → SysProg α) :
    readMap >>= f = .call .readMap f := rfl

/-- Reading an attribute is the call alone. -/
@[simp] theorem readAttribute_bind {α : Type} (path : Str)
    (f : Option (List UInt8) → SysProg α) :
    readAttribute path >>= f = .call (.readAttribute path) f := rfl

/-- Asking whether a file is missing is the call alone. -/
@[simp] theorem statEnoent_bind {α : Type} (name : Str) (f : Bool → SysProg α) :
    statEnoent name >>= f = .call (.stat name) f := rfl

/-- The text kept as the last error message: a final dot is dropped.
Source: `utils.cpp` `setLastErrorMessage` -/
def lastErrorMessage (message : Str) : Str :=
  if message.isEmpty = false ∧ message.m_buffer.getLast? = some 46 then
    { message with m_buffer := message.m_buffer.dropLast }
  else message

/-- Source: `utils.cpp` `setLastErrorMessage` -/
def setLastErrorMessage (message : Str) : SysProg Unit := .tell (lastErrorMessage message)

/-- The error lines with index from `n - min (linesNum + offset) n` on and below `n - offset`,
joined by blanks. `i` counts down from the first bound. -/
def summary (lines : List Str) (offset : Nat) : Nat → Str → Str
  | 0, acc => acc
  | i + 1, acc =>
      if i + 1 > offset then
        let acc := acc ++ lines.getD (lines.length - (i + 1)) .empty
        summary lines offset i (if i + 1 > offset + 1 then acc ++ .ofLit " " else acc)
      else acc

/-- The message that `shellEx` makes of the error lines of a failed command.
Source: `utils.cpp` `shellEx` -/
def errorMessage (lines : List Str) (linesNum offset : Nat) : Str :=
  summary lines offset (min (linesNum + offset) lines.length) .empty

/-- The command is run; where it fails, its error lines become the last error message.
Source: `utils.cpp` `shellEx` -/
def shellEx (cmd : Command) (linesNum offset : Nat) : SysProg Int := do
  let reply ← shellOutput cmd
  if reply.exitStatus ≠ 0 then
    setLastErrorMessage (errorMessage reply.errorLines linesNum offset)
    pure (-1)
  else pure 0

/-! ## Commands of a trace -/

/-- The exit status of an event that is a shell command. -/
def exit? : SysEvent → Option (Command × UInt8)
  | ⟨.shell cmd, reply⟩ => some (cmd, reply.exitStatus)
  | ⟨.readMap, _⟩ => none
  | ⟨.readAttribute _, _⟩ => none
  | ⟨.stat _, _⟩ => none
  | ⟨.appendConfig _, _⟩ => none

/-- The commands of a trace with their exit statuses. -/
def exits (tr : List SysEvent) : List (Command × UInt8) := tr.filterMap exit?

/-- Every command of the trace exited with 0. -/
def AllExitZero (tr : List SysEvent) : Prop := ∀ x ∈ exits tr, x.2 = 0

/-- No command of the trace sets a RAID level. -/
def KeepsLevel (tr : List SysEvent) : Prop := ∀ x ∈ exits tr, x.1.level? = none

/-- The RAID level after the commands of a trace: those that exit with 0 set theirs, the others
change nothing. -/
def levelAfter (level : UInt32) (tr : List SysEvent) : UInt32 :=
  (exits tr).foldl (fun level x => if x.2 = 0 then x.1.level?.getD level else level) level

/-- The exit status that the environment gives to call number `i`, should it be `cmd`. -/
def exitOf (env : SysEnv) (i : Nat) (cmd : Command) : UInt8 :=
  ShellReply.exitStatus (env i (.shell cmd))

section trace

variable {tr tr' : List SysEvent}

/-- Nothing has exited in the empty trace. -/
@[simp] theorem exits_nil : exits [] = [] := rfl

/-- A command at the head of a trace stands with its exit status at the head of the commands. -/
@[simp] theorem exits_cons_shell (cmd : Command) (reply : ShellReply) (tr : List SysEvent) :
    exits (⟨.shell cmd, reply⟩ :: tr) = (cmd, reply.exitStatus) :: exits tr := rfl

/-- The commands of a trace are those of its parts, in order. -/
@[simp] theorem exits_append : exits (tr ++ tr') = exits tr ++ exits tr' :=
  List.filterMap_append

/-- In the empty trace no command has failed. -/
@[simp] theorem allExitZero_nil : AllExitZero [] := by simp [AllExitZero]

/-- All commands of a trace exit with 0 iff those of its parts do. -/
@[simp] theorem allExitZero_append : AllExitZero (tr ++ tr') ↔ AllExitZero tr ∧ AllExitZero tr' := by
  simp [AllExitZero, or_imp, forall_and]

/-- The condition on the first command, and on the rest. -/
@[simp] theorem allExitZero_cons_shell {cmd : Command} {reply : ShellReply} :
    AllExitZero (⟨.shell cmd, reply⟩ :: tr) ↔ reply.exitStatus = 0 ∧ AllExitZero tr := by
  simp [AllExitZero]

/-- The empty trace has no command that sets a level. -/
@[simp] theorem keepsLevel_nil : KeepsLevel [] := by simp [KeepsLevel]

/-- A trace keeps the level iff its parts do. -/
@[simp] theorem keepsLevel_append : KeepsLevel (tr ++ tr') ↔ KeepsLevel tr ∧ KeepsLevel tr' := by
  simp [KeepsLevel, or_imp, forall_and]

/-- A trace keeps the level iff its first command sets none and the rest keeps it. -/
@[simp] theorem keepsLevel_cons_shell {cmd : Command} {reply : ShellReply} :
    KeepsLevel (⟨.shell cmd, reply⟩ :: tr) ↔ cmd.level? = none ∧ KeepsLevel tr := by
  simp [KeepsLevel]

/-- The level behind a trace, part by part. -/
theorem levelAfter_append (level : UInt32) :
    levelAfter level (tr ++ tr') = levelAfter (levelAfter level tr) tr' := by
  unfold levelAfter
  rw [exits_append, List.foldl_append]

/-- Commands that set no level leave it as it is. -/
theorem levelAfter_of_keepsLevel (h : KeepsLevel tr) (level : UInt32) :
    levelAfter level tr = level := by
  unfold KeepsLevel at h
  unfold levelAfter
  revert h
  induction exits tr with
  | nil => intro _; rfl
  | cons x l ih =>
      intro h
      have hx := h x List.mem_cons_self
      rw [List.foldl_cons, hx, Option.getD_none, ite_self]
      exact ih fun y hy => h y (List.mem_cons_of_mem _ hy)

end trace

/-! ## Rules for `shellEx` -/

/-- A run of `shellEx` is its command; the result is 0 iff the command exits with 0. -/
theorem run_shellEx (env : SysEnv) (i : Nat) (cmd : Command) (linesNum offset : Nat) :
    ((shellEx cmd linesNum offset).run env i).trace = [⟨.shell cmd, env i (.shell cmd)⟩] ∧
    ((shellEx cmd linesNum offset).run env i).result =
      .ok (if exitOf env i cmd = 0 then 0 else -1) := by
  unfold shellEx exitOf
  rw [shellOutput_bind, Prog.run_call]
  by_cases hexit : ShellReply.exitStatus (env i (.shell cmd)) = 0
  · simp only [hexit, ne_eq, not_true_eq_false, if_false, if_true]
    exact ⟨rfl, rfl⟩
  · simp only [hexit, ne_eq, not_false_eq_true, if_false, if_true]
    exact ⟨rfl, rfl⟩

/-- A run of a program that begins with `shellEx`. -/
theorem run_shellEx_bind {α : Type} (env : SysEnv) (i : Nat) (cmd : Command)
    (linesNum offset : Nat) (f : Int → SysProg α) :
    ((shellEx cmd linesNum offset >>= f).run env i).trace =
      ⟨.shell cmd, env i (.shell cmd)⟩ ::
        ((f (if exitOf env i cmd = 0 then 0 else -1)).run env (i + 1)).trace ∧
    ((shellEx cmd linesNum offset >>= f).run env i).result =
      ((f (if exitOf env i cmd = 0 then 0 else -1)).run env (i + 1)).result := by
  obtain ⟨htrace, hresult⟩ := run_shellEx env i cmd linesNum offset
  rw [Prog.run_bind_ok env i hresult, htrace]
  exact ⟨rfl, rfl⟩

/-- The postcondition of a program that begins with `shellEx`, by the exit status. -/
theorem ensures_shellEx_bind {α : Type} {cmd : Command} {linesNum offset : Nat}
    {f : Int → SysProg α} {Q : List SysEvent → Except Fault α → Prop}
    (hzero : ∀ reply : ShellReply, reply.exitStatus = 0 →
      Ensures (f 0) fun tr res => Q (⟨.shell cmd, reply⟩ :: tr) res)
    (hfail : ∀ reply : ShellReply, reply.exitStatus ≠ 0 →
      Ensures (f (-1)) fun tr res => Q (⟨.shell cmd, reply⟩ :: tr) res) :
    Ensures (shellEx cmd linesNum offset >>= f) Q := by
  intro env i
  obtain ⟨htrace, hresult⟩ := run_shellEx env i cmd linesNum offset
  rw [Prog.run_bind_ok env i hresult, htrace]
  unfold exitOf
  split
  next hexit => exact hzero _ hexit env _
  next hexit => exact hfail _ hexit env _

/-! ## The calls of a program -/

/-- The call is not a shell command, or one that satisfies `P`. -/
def OnShell (P : Command → Prop) : SysCall → Prop
  | .shell cmd => P cmd
  | _ => True

/-- The call is a shell command that satisfies `P`. -/
def IsShell (P : Command → Prop) : SysCall → Prop
  | .shell cmd => P cmd
  | _ => False

/-- What is a command with a property is either no command or has it. -/
theorem onShell_of_isShell {P : Command → Prop} (c : SysCall) : IsShell P c → OnShell P c := by
  intro h
  cases c with
  | shell cmd => exact h
  | _ => exact h.elim

/-- A weaker property of the commands holds of more calls. -/
theorem onShell_mono {P Q : Command → Prop} (h : ∀ cmd, P cmd → Q cmd) (c : SysCall) :
    OnShell P c → OnShell Q c := by
  cases c with
  | shell cmd => exact h cmd
  | _ => exact id

section calls

variable {α : Type} {P : SysCall → Prop} {cmd : Command} {linesNum offset : Nat}
  {f : Int → SysProg α}

/-- `shellEx` makes one call, the command itself. -/
theorem calls_shellEx (h : P (.shell cmd)) : (shellEx cmd linesNum offset).Calls P := by
  unfold shellEx
  rw [shellOutput_bind]
  refine ⟨h, fun reply => ?_⟩
  by_cases hexit : reply.exitStatus ≠ 0
  · simp only [if_pos hexit]
    exact trivial
  · simp only [if_neg hexit]
    exact trivial

/-- The calls of a sequence that starts with a command are the command and those of the rest. -/
theorem calls_shellEx_bind (h : P (.shell cmd)) (hf : ∀ r, (f r).Calls P) :
    (shellEx cmd linesNum offset >>= f).Calls P :=
  Prog.calls_bind (calls_shellEx h) fun r _ => hf r

/-- `shellEx` returns 0 or -1, both over some answer of the system. -/
theorem mayReturn_shellEx {r : Int} :
    (shellEx cmd linesNum offset).MayReturn r ↔ r = 0 ∨ r = -1 := by
  unfold shellEx
  rw [shellOutput_bind, Prog.mayReturn_call]
  constructor
  · rintro ⟨reply, h⟩
    split at h
    next => exact .inr h.symm
    next => exact .inl h.symm
  · rintro (rfl | rfl)
    · exact ⟨⟨0, [], []⟩, rfl⟩
    · exact ⟨⟨1, [], []⟩, rfl⟩

/-- `shellEx` issues its command in every run. -/
theorem mayCall_shellEx : (shellEx cmd linesNum offset).MayCall P ↔ P (.shell cmd) := by
  unfold shellEx
  rw [shellOutput_bind, Prog.mayCall_call]
  apply or_iff_left
  rintro ⟨reply, h⟩
  split at h <;> exact h.elim

/-- A call of a program that begins with `shellEx`: its command, or one of the rest after the command
has exited with 0 or has failed. -/
theorem mayCall_shellEx_bind :
    (shellEx cmd linesNum offset >>= f).MayCall P ↔
      P (.shell cmd) ∨ (f 0).MayCall P ∨ (f (-1)).MayCall P := by
  simp only [Prog.mayCall_bind, mayCall_shellEx, mayReturn_shellEx, or_and_right, exists_or,
    exists_eq_left]

/-- Commands of a trace that its program's calls tell about. -/
theorem of_mem_exits {Q : Command → Prop} {p : SysProg α} (hp : p.Calls (OnShell Q)) {env : SysEnv}
    {i : Nat} {x : Command × UInt8} (hx : x ∈ exits (p.run env i).trace) : Q x.1 := by
  obtain ⟨⟨c, r⟩, he, hexit⟩ := List.mem_filterMap.mp hx
  have hcall := hp.of_mem_trace he
  cases c with
  | shell cmd =>
      obtain rfl := Option.some.inj hexit
      exact hcall
  | readMap => cases hexit
  | readAttribute => cases hexit
  | stat => cases hexit
  | appendConfig => cases hexit

/-- What holds of all commands that a program may issue holds of those of every run. -/
theorem ensures_of_calls {Q : Command → Prop} {p : SysProg α} (hp : p.Calls (OnShell Q)) :
    Ensures p fun tr _ => ∀ x ∈ exits tr, Q x.1 :=
  fun _ _ _ hx => of_mem_exits hp hx

/-- A command that a program may issue is one that some run has issued. -/
theorem mayCall_isShell_iff {Q : Command → Prop} {p : SysProg α} :
    p.MayCall (IsShell Q) ↔ ∃ env i, ∃ x ∈ exits (p.run env i).trace, Q x.1 := by
  constructor
  · intro hmay
    classical
    obtain ⟨env, ⟨c, reply⟩, he, hQ⟩ := Prog.exists_run_of_mayCall hmay 0
    cases c with
    | shell cmd => exact ⟨env, 0, _, List.mem_filterMap.mpr ⟨_, he, rfl⟩, hQ⟩
    | _ => exact hQ.elim
  · rintro ⟨env, i, x, hx, hQ⟩
    obtain ⟨⟨c, reply⟩, he, hexit⟩ := List.mem_filterMap.mp hx
    refine Prog.mayCall_of_mem_trace he ?_
    cases c with
    | shell cmd =>
        obtain rfl := Option.some.inj hexit
        exact hQ
    | _ => cases hexit

/-- `shellEx` returns and never throws. -/
theorem yields_shellEx : Yields (shellEx cmd linesNum offset) fun _ => True := by
  intro env i
  exact ⟨_, (run_shellEx env i cmd linesNum offset).2, trivial⟩

end calls

end Irstessi
