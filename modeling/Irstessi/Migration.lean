import Irstessi.Volume

/-!
# What a migration leaves behind

`Volume::modify` returns one status for a sequence of checks and commands. Two properties of that
status, each with the exact condition under which it holds:

* **`okMeansExitZero_iff`**: a return of `SSI_StatusOk` means that every command exited with 0,
  except where the takeover of a level 1 or level 10 volume to level 0 (or the chunk change that
  follows it) fails: there the status of the earlier check is returned (`SwallowsFailure`).
* **`failureKeepsLevel_iff`**: a return of another status leaves the level as it was, except where
  such a takeover succeeds and the container can then not be grown (`LeavesTakenOver`).

The functions that `modify` calls are covered by one lemma each.

The two properties are proved together, by one pass over the functions that `modify` calls: `Reports`
says that a program has both, and each function that cannot go wrong has it in every environment. What
remains are the two takeovers. For them the run is followed command by command, in the environment as it
is, and the properties hold unless the commands exit as `SwallowsFailure` or `LeavesTakenOver` say; the
converse directions come from the same runs. Levels are told from the commands that succeed: a command
that fails leaves the array as it was.
-/

namespace Irstessi

open Interact

/-- A return of `SSI_StatusOk` means that every command exited with 0. -/
def OkMeansExitZero (tr : List SysEvent) (res : Except Fault SSI_Status) : Prop :=
  res = .ok .ok → AllExitZero tr

/-- A return of another status means that the level is as before. -/
def FailureKeepsLevel (level : UInt32) (tr : List SysEvent) (res : Except Fault SSI_Status) :
    Prop :=
  ∀ status, res = .ok status → status ≠ .ok → levelAfter level tr = level

section basics

variable {level : UInt32} {tr : List SysEvent} {res : Except Fault SSI_Status}

/-- A sound growth returns the status of success only where its commands exit with 0. -/
theorem RaidArray.Sound.okMeansExitZero (h : RaidArray.Sound tr res) : OkMeansExitZero tr res := h.1

/-- A sound growth changes no level, so that a failure keeps it. -/
theorem RaidArray.Sound.failureKeepsLevel (h : RaidArray.Sound tr res) :
    FailureKeepsLevel level tr res := fun _ _ _ => levelAfter_of_keepsLevel h.2 level

/-- Where no command is issued the level is kept. -/
theorem failureKeepsLevel_nil : FailureKeepsLevel level [] res := fun _ _ _ => rfl

/-- Where no command is issued there is none that fails. -/
theorem okMeansExitZero_nil : OkMeansExitZero [] res := fun _ => allExitZero_nil

/-- A failed command in front changes no level. -/
theorem levelAfter_cons_of_exit_ne_zero {cmd : Command} {reply : ShellReply}
    (h : reply.exitStatus ≠ 0) : levelAfter level (⟨.shell cmd, reply⟩ :: tr) =
      levelAfter level tr := by
  unfold levelAfter
  rw [exits_cons_shell, List.foldl_cons, if_neg h]

/-- A successful command in front sets its level. -/
theorem levelAfter_cons_of_exit_zero {cmd : Command} {reply : ShellReply} {n : UInt32}
    (h : reply.exitStatus = 0) (hcmd : cmd.level? = some n) :
    levelAfter level (⟨.shell cmd, reply⟩ :: tr) = levelAfter n tr := by
  unfold levelAfter
  rw [exits_cons_shell, List.foldl_cons, if_pos h, hcmd, Option.getD_some]

end basics

/-- `refuse` returns its status and issues nothing. -/
theorem run_refuse (status : SSI_Status) (env : SysEnv) (i : Nat) :
    ((refuse status).run env i).trace = [] ∧
      ((refuse status).run env i).result = .ok status := by
  unfold refuse
  split <;> exact ⟨rfl, rfl⟩

/-- A refusal issues no command and returns its status. -/
theorem refuse_ensures (status : SSI_Status) :
    Ensures (refuse status) fun tr res => tr = [] ∧ res = .ok status :=
  fun env i => run_refuse status env i

/-- A single command whose success is the status. -/
theorem command_ensures (cmd : Command) (level : UInt32) :
    Ensures (do if (← shellEx cmd 1 0) = 0 then pure SSI_Status.ok else pure SSI_Status.failed)
      fun tr res => OkMeansExitZero tr res ∧ FailureKeepsLevel level tr res := by
  refine ensures_shellEx_bind (fun reply hexit => ?_) fun reply hexit => ?_
  · refine ensures_pure ⟨fun _ => ?_, fun status heq hne => ?_⟩
    · exact allExitZero_cons_shell.mpr ⟨hexit, allExitZero_nil⟩
    · exact absurd (Except.ok.inj heq).symm hne
  · refine ensures_pure ⟨nofun, fun _ _ _ => ?_⟩
    exact levelAfter_cons_of_exit_ne_zero hexit

/-- The growth of the container: no status is wrong about its commands, no level is set. -/
theorem grow_ensures_both (a : RaidArray) (disks : List EndDevice) (level : UInt32) :
    Ensures (a.grow disks) fun tr res => OkMeansExitZero tr res ∧ FailureKeepsLevel level tr res :=
  (a.grow_ensures disks).mono fun _ _ h => ⟨h.okMeansExitZero, h.failureKeepsLevel⟩

namespace Volume

variable (v : Volume)

/-! ## The functions that report their commands -/

/-- Both properties. -/
def Reports (p : SysProg SSI_Status) : Prop :=
  Ensures p fun tr res => OkMeansExitZero tr res ∧ FailureKeepsLevel v.m_RaidLevel tr res

/-- A migration that returns at once reports nothing wrong. -/
theorem reports_pure (status : SSI_Status) : v.Reports (pure status) :=
  ensures_pure ⟨okMeansExitZero_nil, failureKeepsLevel_nil⟩

/-- A refusal with a message reports nothing wrong. -/
theorem reports_message (message : Str) (status : SSI_Status) :
    v.Reports (do setLastErrorMessage message; pure status) :=
  ensures_note (v.reports_pure status)

/-- The common refusal reports nothing wrong. -/
theorem reports_refuse (status : SSI_Status) : v.Reports (refuse status) :=
  (refuse_ensures status).mono fun _ _ h => by
    rw [h.1]
    exact ⟨okMeansExitZero_nil, failureKeepsLevel_nil⟩

/-- Level 0 to level 0 reports rightly in every run. -/
theorem reports_toRaid0From0 (a : RaidArray) (chunkChange : Bool) (ch : Option Nat)
    (disks : List EndDevice) : v.Reports (v.toRaid0From0 a chunkChange ch disks) := by
  unfold toRaid0From0
  split
  next => exact v.reports_pure _
  split
  next => exact v.reports_pure _
  split
  next =>
    simp only
    split
    next => exact grow_ensures_both a disks _
    next => exact v.reports_refuse _
  next => exact command_ensures _ _

/-- Level 5 to level 0 reports rightly in every run. -/
theorem reports_toRaid0From5 (chunkChange : Bool) (disks : List EndDevice) :
    v.Reports (v.toRaid0From5 chunkChange disks) := by
  unfold toRaid0From5
  split
  next => exact v.reports_pure _
  split
  next => exact v.reports_pure _
  next => exact command_ensures _ _

/-- Spares first, then one command that sets a level, rolled back where it fails. -/
theorem reports_spares_then (a : RaidArray) (cmd : Command) (disks : List EndDevice) :
    v.Reports (do
      let addedToSpare ← RaidArray.getSpareableEndDevices disks
      let status ← a.addSpare disks
      if status ≠ .ok then pure status
      else if (← shellEx cmd 1 0) = 0 then pure .ok
      else do
        let _ ← a.removeSpares true addedToSpare .ok
        pure .failed) := by
  rw [RaidArray.getSpareableEndDevices_eq]
  split
  next =>
    rw [Prog.pure_bind]
    refine ensures_bind (a.addSpare_ensures disks) (fun tr status htr => ?_) fun tr e htr => ?_
    · obtain ⟨⟨hzero, hkeeps⟩, -⟩ := htr
      split
      next hok =>
        refine ensures_pure ⟨fun h => absurd (Except.ok.inj h) hok, fun _ _ _ => ?_⟩
        rw [List.append_nil]
        exact levelAfter_of_keepsLevel hkeeps _
      next hok =>
        rw [ne_eq, not_not] at hok
        refine ensures_shellEx_bind (fun reply hexit => ?_) fun reply hexit => ?_
        · refine ensures_pure ⟨fun _ => ?_, fun s heq hne => ?_⟩
          · exact allExitZero_append.mpr ⟨hzero (by rw [hok]),
              allExitZero_cons_shell.mpr ⟨hexit, allExitZero_nil⟩⟩
          · exact absurd (Except.ok.inj heq).symm hne
        · refine ensures_bind (a.removeSpares_ensures _ _ _) (fun tr' s htr' => ?_)
            fun tr' e htr' => ?_
          · refine ensures_pure ⟨nofun, fun _ _ _ => ?_⟩
            rw [List.append_nil, levelAfter_append, levelAfter_of_keepsLevel hkeeps,
              levelAfter_cons_of_exit_ne_zero hexit]
            exact levelAfter_of_keepsLevel htr'.1 _
          · obtain ⟨-, s, hs⟩ := htr'
            simp at hs
    · obtain ⟨-, status, h⟩ := htr
      simp at h
  next => exact ensures_throw ⟨nofun, fun _ h => nomatch h⟩

/-- The migration to level 10 reports rightly in every run. -/
theorem reports_toRaid10 (stripSize : SSI_StripSize) (disks : List EndDevice) :
    v.Reports (v.toRaid10 stripSize disks) := by
  unfold toRaid10
  split
  next a _ =>
    split
    next => exact v.reports_pure _
    split
    next => exact v.reports_message _ _
    split
    next => exact v.reports_pure _
    simp only
    split
    next => exact v.reports_refuse _
    next => exact v.reports_spares_then a _ disks
  next => exact v.reports_pure _

/-- Level 0 to level 5 reports rightly in every run. -/
theorem reports_toRaid5From0 (a : RaidArray) (ch : Option Nat) (disks : List EndDevice) :
    v.Reports (v.toRaid5From0 a ch disks) := by
  unfold toRaid5From0
  split
  next => exact v.reports_message _ _
  simp only
  split
  next => exact v.reports_refuse _
  next => exact v.reports_spares_then a _ disks

/-- Level 5 to level 5 reports rightly in every run. -/
theorem reports_toRaid5From5 (a : RaidArray) (chunkChange : Bool) (ch : Option Nat)
    (disks : List EndDevice) : v.Reports (v.toRaid5From5 a chunkChange ch disks) := by
  unfold toRaid5From5
  split
  next => exact v.reports_pure _
  split
  next =>
    simp only
    split
    next => exact v.reports_refuse _
    next => exact grow_ensures_both a disks _
  next => exact command_ensures _ _

/-- `__toRaid5` from levels other than 10. From level 10 it goes over level 0. -/
theorem reports_toRaid5 (hlevel : v.m_RaidLevel ≠ 10) (stripSize : SSI_StripSize)
    (disks : List EndDevice) : v.Reports (v.toRaid5 stripSize disks) := by
  unfold toRaid5
  split
  next a _ =>
    split
    next => exact v.reports_pure _
    next ch _ =>
      split
      next => exact v.reports_toRaid5From0 a ch disks
      split
      next => exact v.reports_toRaid5From5 a _ ch disks
      next => exact v.reports_pure _
  next => exact v.reports_pure _

/-- A level 10 volume is not migrated to level 5: `modify` refuses it before. -/
theorem level_ne_10_of_modifyCheck {info : SSI_RaidLevelInfo} {stripSize : SSI_StripSize}
    {newSize : UInt64} {disks : List EndDevice}
    (h : v.modifyCheck info stripSize SSI_Raid5 newSize disks = none) : v.m_RaidLevel ≠ 10 := by
  intro hlevel
  unfold modifyCheck at h
  split at h
  next => simp at h
  next r _ =>
    have hraid : ui2raidlevel v.m_RaidLevel = SSI_Raid10 := by rw [hlevel]; decide
    have hmigr : (r.getRaidLevelInfo (ui2raidlevel v.m_RaidLevel) info).2.migrSupport =
        SSI_Raid0 := by
      rw [hraid]
      rfl
    simp only [hmigr] at h
    split at h
    next => simp at h
    rw [if_pos (by decide)] at h
    simp at h

/-! ## The takeover to level 0 -/

/-- The command of the takeover exits with 0. -/
def TakenOver (env : SysEnv) : Prop := exitOf env 0 (.growLevel0 v.m_DevName none) = 0

instance (env : SysEnv) : Decidable (v.TakenOver env) :=
  inferInstanceAs (Decidable (exitOf env 0 (.growLevel0 v.m_DevName none) = 0))

/-- The container is grown by the disks after the takeover: `grow` is reached with the second
call, does not crash and does not succeed. -/
def GrowthFails (a : RaidArray) (disks : List EndDevice) (env : SysEnv) : Prop :=
  disks ≠ [] ∧ ¬ a.GrowCrashes disks ∧ ¬ a.GrowSucceeds disks env 1

/-- A takeover that fails leaves the status of the check, `SSI_StatusOk`, and nothing else. -/
theorem takeover_fails {env : SysEnv} (hexit : ¬ v.TakenOver env) (level : UInt32)
    {k : Int → SysProg SSI_Status} (hk : k (-1) = refuse .ok) :
    ¬ OkMeansExitZero ((shellEx (.growLevel0 v.m_DevName none) 1 0 >>= k).run env 0).trace
        ((shellEx (.growLevel0 v.m_DevName none) 1 0 >>= k).run env 0).result ∧
      FailureKeepsLevel level ((shellEx (.growLevel0 v.m_DevName none) 1 0 >>= k).run env 0).trace
        ((shellEx (.growLevel0 v.m_DevName none) 1 0 >>= k).run env 0).result := by
  unfold TakenOver at hexit
  obtain ⟨htrace, hresult⟩ := run_shellEx_bind env 0 (.growLevel0 v.m_DevName none) 1 0 k
  obtain ⟨-, href⟩ := run_refuse .ok env 1
  rw [htrace, hresult, if_neg hexit, hk, href]
  constructor
  · intro h
    exact hexit (allExitZero_cons_shell.mp (h rfl)).1
  · intro status heq hne
    exact absurd (Except.ok.inj heq).symm hne

/-- A takeover that succeeds, and the growth of the container after it. -/
theorem takeover_then_grow {env : SysEnv} (hexit : v.TakenOver env) {level : UInt32}
    (hlevel : level ≠ 0) (a : RaidArray) {disks : List EndDevice} (hdisks : disks ≠ [])
    {k : Int → SysProg SSI_Status} (hk : k 0 = a.grow disks) :
    OkMeansExitZero ((shellEx (.growLevel0 v.m_DevName none) 1 0 >>= k).run env 0).trace
        ((shellEx (.growLevel0 v.m_DevName none) 1 0 >>= k).run env 0).result ∧
      (FailureKeepsLevel level ((shellEx (.growLevel0 v.m_DevName none) 1 0 >>= k).run env 0).trace
        ((shellEx (.growLevel0 v.m_DevName none) 1 0 >>= k).run env 0).result ↔
          ¬ GrowthFails a disks env) := by
  unfold TakenOver at hexit
  obtain ⟨htrace, hresult⟩ := run_shellEx_bind env 0 (.growLevel0 v.m_DevName none) 1 0 k
  obtain ⟨hzero, hkeeps⟩ := a.grow_ensures disks env 1
  rw [htrace, hresult, if_pos hexit, hk]
  refine ⟨fun h => allExitZero_cons_shell.mpr ⟨hexit, hzero h⟩, ?_⟩
  have hafter : levelAfter level (⟨.shell (.growLevel0 v.m_DevName none),
      env 0 (.shell (.growLevel0 v.m_DevName none))⟩ :: ((a.grow disks).run env 1).trace) = 0 := by
    rw [levelAfter_cons_of_exit_zero hexit rfl]
    exact levelAfter_of_keepsLevel hkeeps 0
  rcases a.grow_run disks env 1 with ⟨hcrash, hres⟩ | ⟨hcrash, status, hres, hstatus⟩
  · rw [hres]
    exact ⟨fun _ h => h.2.1 hcrash, fun _ _ h => nomatch h⟩
  · constructor
    · rintro h ⟨-, -, hfails⟩
      have hlev := h status hres fun hok => hfails (hstatus.mp hok)
      exact hlevel (hlev.symm.trans hafter)
    · intro h s heq hne
      obtain rfl := Except.ok.inj (hres.symm.trans heq)
      exact absurd ⟨hdisks, hcrash, fun hs => hne (hstatus.mpr hs)⟩ h

/-- A takeover that succeeds, and nothing after it. -/
theorem takeover_only {env : SysEnv} (hexit : v.TakenOver env) (level : UInt32)
    {k : Int → SysProg SSI_Status} (hk : k 0 = pure .ok) :
    OkMeansExitZero ((shellEx (.growLevel0 v.m_DevName none) 1 0 >>= k).run env 0).trace
        ((shellEx (.growLevel0 v.m_DevName none) 1 0 >>= k).run env 0).result ∧
      FailureKeepsLevel level ((shellEx (.growLevel0 v.m_DevName none) 1 0 >>= k).run env 0).trace
        ((shellEx (.growLevel0 v.m_DevName none) 1 0 >>= k).run env 0).result := by
  unfold TakenOver at hexit
  obtain ⟨htrace, hresult⟩ := run_shellEx_bind env 0 (.growLevel0 v.m_DevName none) 1 0 k
  rw [htrace, hresult, if_pos hexit, hk]
  refine ⟨fun _ => allExitZero_cons_shell.mpr ⟨hexit, allExitZero_nil⟩, ?_⟩
  intro status heq hne
  exact absurd (Except.ok.inj heq).symm hne

/-- A takeover that succeeds, and the change of the chunk after it. -/
theorem takeover_then_chunk {env : SysEnv} (hexit : v.TakenOver env) (level : UInt32)
    (ch : Option Nat) {k : Int → SysProg SSI_Status}
    (hk : k 0 = do
      if (← shellEx (.growLevel0 v.m_DevName ch) 1 0) = 0 then pure .ok else refuse .ok) :
    (OkMeansExitZero ((shellEx (.growLevel0 v.m_DevName none) 1 0 >>= k).run env 0).trace
        ((shellEx (.growLevel0 v.m_DevName none) 1 0 >>= k).run env 0).result ↔
      exitOf env 1 (.growLevel0 v.m_DevName ch) = 0) ∧
      FailureKeepsLevel level ((shellEx (.growLevel0 v.m_DevName none) 1 0 >>= k).run env 0).trace
        ((shellEx (.growLevel0 v.m_DevName none) 1 0 >>= k).run env 0).result := by
  unfold TakenOver at hexit
  obtain ⟨htrace, hresult⟩ := run_shellEx_bind env 0 (.growLevel0 v.m_DevName none) 1 0 k
  rw [htrace, hresult, if_pos hexit, hk]
  obtain ⟨htrace', hresult'⟩ := run_shellEx_bind env 1 (.growLevel0 v.m_DevName ch) 1 0
    fun r => if r = 0 then pure SSI_Status.ok else refuse .ok
  obtain ⟨href, hrefres⟩ := run_refuse .ok env 2
  rw [htrace', hresult']
  by_cases hexit' : exitOf env 1 (.growLevel0 v.m_DevName ch) = 0
  · rw [if_pos hexit', if_pos rfl]
    refine ⟨⟨fun _ => hexit', fun _ _ => ?_⟩, fun status heq hne => ?_⟩
    · exact allExitZero_cons_shell.mpr
        ⟨hexit, allExitZero_cons_shell.mpr ⟨hexit', allExitZero_nil⟩⟩
    · exact absurd (Except.ok.inj heq).symm hne
  · rw [if_neg hexit', if_neg (by simp), href, hrefres]
    refine ⟨⟨fun h => ?_, fun h => absurd h hexit'⟩, fun status heq hne => ?_⟩
    · exact (allExitZero_cons_shell.mp (allExitZero_cons_shell.mp (h rfl)).2).1
    · exact absurd (Except.ok.inj heq).symm hne

/-- From level 1. -/
theorem toRaid0From1_run (a : RaidArray) (chunkChange : Bool) (stripSize : SSI_StripSize)
    (disks : List EndDevice) (env : SysEnv) :
    (OkMeansExitZero ((v.toRaid0From1 a chunkChange stripSize disks).run env 0).trace
        ((v.toRaid0From1 a chunkChange stripSize disks).run env 0).result ↔
      ¬ (chunkChange = false ∧ stripSize = SSI_StripSize64kB ∧
        a.canAddEndDevices disks = .ok ∧ ¬ v.TakenOver env)) ∧
    (FailureKeepsLevel 1 ((v.toRaid0From1 a chunkChange stripSize disks).run env 0).trace
        ((v.toRaid0From1 a chunkChange stripSize disks).run env 0).result ↔
      ¬ (chunkChange = false ∧ stripSize = SSI_StripSize64kB ∧
        a.canAddEndDevices disks = .ok ∧ v.TakenOver env ∧ GrowthFails a disks env)) := by
  unfold toRaid0From1
  by_cases hchunk : chunkChange
  · rw [if_pos hchunk]
    simp [hchunk, okMeansExitZero_nil, failureKeepsLevel_nil, setLastErrorMessage]
  rw [if_neg hchunk]
  rw [Bool.not_eq_true] at hchunk
  by_cases hstrip : stripSize = SSI_StripSize64kB
  swap
  · simp [hstrip, okMeansExitZero_nil, failureKeepsLevel_nil, setLastErrorMessage]
  rw [if_neg (not_not.mpr hstrip)]
  simp only
  by_cases hcan : a.canAddEndDevices disks = .ok
  swap
  · rw [if_neg hcan]
    obtain ⟨htrace, -⟩ := run_refuse (a.canAddEndDevices disks) env 0
    simp [htrace, hcan, okMeansExitZero_nil, failureKeepsLevel_nil]
  rw [if_pos hcan, hcan]
  by_cases hexit : v.TakenOver env
  · by_cases hdisks : disks = []
    · subst hdisks
      obtain ⟨hok, hkeeps⟩ := v.takeover_only hexit 1 (k := fun r =>
        if r = 0 then if ([] : List EndDevice).length > 0 then a.grow [] else pure .ok
        else refuse .ok) rfl
      simp only [hok, hkeeps, hexit]
      simp [GrowthFails]
    · have hlen : disks.length > 0 := List.length_pos_iff.mpr hdisks
      obtain ⟨hok, hkeeps⟩ := v.takeover_then_grow hexit (by decide : (1 : UInt32) ≠ 0) a hdisks
        (k := fun r => if r = 0 then if disks.length > 0 then a.grow disks else pure .ok
          else refuse .ok) (by rw [if_pos rfl, if_pos hlen])
      simp only [hok, hkeeps, hexit]
      simp [hchunk, hstrip]
  · obtain ⟨hok, hkeeps⟩ := v.takeover_fails hexit 1 (k := fun r =>
      if r = 0 then if disks.length > 0 then a.grow disks else pure .ok else refuse .ok) rfl
    simp only [hok, hkeeps, hexit]
    simp [hchunk, hstrip]

/-- From level 10. -/
theorem toRaid0From10_run (a : RaidArray) (chunkChange : Bool) (ch : Option Nat)
    (disks : List EndDevice) (env : SysEnv) :
    (OkMeansExitZero ((v.toRaid0From10 a chunkChange ch disks).run env 0).trace
        ((v.toRaid0From10 a chunkChange ch disks).run env 0).result ↔
      ¬ (¬ (disks ≠ [] ∧ chunkChange) ∧ a.canAddEndDevices disks = .ok ∧
        (¬ v.TakenOver env ∨
          (chunkChange ∧ exitOf env 1 (.growLevel0 v.m_DevName ch) ≠ 0)))) ∧
    (FailureKeepsLevel 10 ((v.toRaid0From10 a chunkChange ch disks).run env 0).trace
        ((v.toRaid0From10 a chunkChange ch disks).run env 0).result ↔
      ¬ (chunkChange = false ∧ a.canAddEndDevices disks = .ok ∧ v.TakenOver env ∧
        GrowthFails a disks env)) := by
  unfold toRaid0From10
  by_cases hboth : disks ≠ [] ∧ chunkChange
  · have hlen : disks.length > 0 ∧ chunkChange = true :=
      ⟨List.length_pos_iff.mpr hboth.1, hboth.2⟩
    rw [if_pos hlen]
    simp [hboth, okMeansExitZero_nil, failureKeepsLevel_nil]
  have hlen : ¬ (disks.length > 0 ∧ chunkChange = true) :=
    fun h => hboth ⟨List.length_pos_iff.mp h.1, h.2⟩
  rw [if_neg hlen]
  simp only
  by_cases hcan : a.canAddEndDevices disks = .ok
  swap
  · rw [if_neg hcan]
    obtain ⟨htrace, -⟩ := run_refuse (a.canAddEndDevices disks) env 0
    simp [htrace, hcan, okMeansExitZero_nil, failureKeepsLevel_nil]
  rw [if_pos hcan, hcan]
  by_cases hexit : v.TakenOver env
  swap
  · obtain ⟨hok, hkeeps⟩ := v.takeover_fails hexit 10 (k := fun r => if r = 0 then
      if disks.length = 0 ∧ chunkChange = false then pure .ok
      else if disks.length > 0 then a.grow disks
      else do
        if (← shellEx (.growLevel0 v.m_DevName ch) 1 0) = 0 then pure .ok else refuse .ok
      else refuse .ok) rfl
    simp only [hok, hkeeps, hexit, hboth]
    simp
  by_cases hdisks : disks = []
  · subst hdisks
    by_cases hchunk : chunkChange
    · obtain ⟨hok, hkeeps⟩ := v.takeover_then_chunk hexit 10 ch (k := fun r => if r = 0 then
        if ([] : List EndDevice).length = 0 ∧ chunkChange = false then pure .ok
        else if ([] : List EndDevice).length > 0 then a.grow []
        else do
          if (← shellEx (.growLevel0 v.m_DevName ch) 1 0) = 0 then pure .ok else refuse .ok
        else refuse .ok) (by simp [hchunk])
      simp only [hok, hkeeps, hexit]
      simp [hchunk]
    · rw [Bool.not_eq_true] at hchunk
      obtain ⟨hok, hkeeps⟩ := v.takeover_only hexit 10 (k := fun r => if r = 0 then
        if ([] : List EndDevice).length = 0 ∧ chunkChange = false then pure .ok
        else if ([] : List EndDevice).length > 0 then a.grow []
        else do
          if (← shellEx (.growLevel0 v.m_DevName ch) 1 0) = 0 then pure .ok else refuse .ok
        else refuse .ok) (by simp [hchunk])
      simp only [hok, hkeeps, hexit]
      simp [hchunk, GrowthFails]
  · have hchunk : chunkChange = false := by simpa [hdisks] using hboth
    have hpos : disks.length > 0 := List.length_pos_iff.mpr hdisks
    obtain ⟨hok, hkeeps⟩ := v.takeover_then_grow hexit (by decide : (10 : UInt32) ≠ 0) a hdisks
      (k := fun r => if r = 0 then
        if disks.length = 0 ∧ chunkChange = false then pure .ok
        else if disks.length > 0 then a.grow disks
        else do
          if (← shellEx (.growLevel0 v.m_DevName ch) 1 0) = 0 then pure .ok else refuse .ok
        else refuse .ok) (by simp [hdisks])
    simp only [hok, hkeeps, hexit]
    simp [hchunk]

/-! ## Main results -/

variable (info : SSI_RaidLevelInfo) (stripSize : SSI_StripSize) (raidLevel : SSI_RaidLevel)
  (newSize : UInt64) (disks : List EndDevice) (env : SysEnv)

/-- The call gets as far as a takeover to level 0 of a volume with parent `a`: the checks of
`modify` pass, the requested strip size can be converted, and the container takes the disks. -/
structure ReachesTakeover (a : RaidArray) (ch : Option Nat) : Prop where
  check : v.modifyCheck info stripSize raidLevel newSize disks = none
  target : raidLevel = SSI_Raid0
  parent : v.m_pParent = some a
  chunk : v.chunkArgument stripSize = some ch
  technology : a.canAddEndDevices disks = .ok

/-- The takeover of a level 1 volume fails, or of a level 10 volume, or the chunk change after
it. -/
def SwallowsFailure : Prop :=
  ∃ a ch, v.ReachesTakeover info stripSize raidLevel newSize disks a ch ∧
    ((v.m_RaidLevel = 1 ∧ v.chunkChange stripSize = false ∧ stripSize = SSI_StripSize64kB ∧
        ¬ v.TakenOver env) ∨
      (v.m_RaidLevel = 10 ∧ ¬ (disks ≠ [] ∧ v.chunkChange stripSize) ∧
        (¬ v.TakenOver env ∨ (v.chunkChange stripSize ∧
          exitOf env 1 (.growLevel0 v.m_DevName ch) ≠ 0))))

/-- The takeover of a level 1 or a level 10 volume succeeds and the growth by the disks fails. -/
def LeavesTakenOver : Prop :=
  ∃ a ch, v.ReachesTakeover info stripSize raidLevel newSize disks a ch ∧
    v.chunkChange stripSize = false ∧
    ((v.m_RaidLevel = 1 ∧ stripSize = SSI_StripSize64kB) ∨ v.m_RaidLevel = 10) ∧
    v.TakenOver env ∧ GrowthFails a disks env

/-- The two properties of a run, each but for a condition. -/
structure HoldsUnless (p : SysProg SSI_Status) (swallows leaves : Prop) : Prop where
  okMeansExitZero : OkMeansExitZero (p.run env 0).trace (p.run env 0).result ↔ ¬ swallows
  failureKeepsLevel :
    FailureKeepsLevel v.m_RaidLevel (p.run env 0).trace (p.run env 0).result ↔ ¬ leaves

variable {v env} in
/-- What reports its commands holds where neither condition applies. -/
theorem Reports.holdsUnless {p : SysProg SSI_Status} (hp : v.Reports p) {swallows leaves : Prop}
    (hs : ¬ swallows) (hl : ¬ leaves) : v.HoldsUnless env p swallows leaves :=
  ⟨⟨fun _ => hs, fun _ => (hp env 0).1⟩, ⟨fun _ => hl, fun _ => (hp env 0).2⟩⟩

section cases

variable {v info stripSize raidLevel newSize disks env}

/-- Where a takeover from the current level is not reached neither condition applies. -/
theorem not_swallowsFailure
    (h : ∀ a ch, v.ReachesTakeover info stripSize raidLevel newSize disks a ch →
      v.m_RaidLevel ≠ 1 ∧ v.m_RaidLevel ≠ 10) :
    ¬ v.SwallowsFailure info stripSize raidLevel newSize disks env := by
  rintro ⟨a, ch, hreach, ⟨hlevel, -⟩ | ⟨hlevel, -⟩⟩
  · exact (h a ch hreach).1 hlevel
  · exact (h a ch hreach).2 hlevel

/-- A takeover is left behind only from the levels 1 and 10, where it comes before the growth. -/
theorem not_leavesTakenOver
    (h : ∀ a ch, v.ReachesTakeover info stripSize raidLevel newSize disks a ch →
      v.m_RaidLevel ≠ 1 ∧ v.m_RaidLevel ≠ 10) :
    ¬ v.LeavesTakenOver info stripSize raidLevel newSize disks env := by
  rintro ⟨a, ch, hreach, -, ⟨hlevel, -⟩ | hlevel, -⟩
  · exact (h a ch hreach).1 hlevel
  · exact (h a ch hreach).2 hlevel

/-- The cases of `__toRaid0` on the current level. -/
theorem toRaid0_holdsUnless
    (hcheck : v.modifyCheck info stripSize SSI_Raid0 newSize disks = none) :
    v.HoldsUnless env (v.toRaid0 stripSize disks)
      (v.SwallowsFailure info stripSize SSI_Raid0 newSize disks env)
      (v.LeavesTakenOver info stripSize SSI_Raid0 newSize disks env) := by
  unfold toRaid0
  rcases hparent : v.m_pParent with _ | a
  · have hnot : ∀ a ch, v.ReachesTakeover info stripSize SSI_Raid0 newSize disks a ch →
        v.m_RaidLevel ≠ 1 ∧ v.m_RaidLevel ≠ 10 := by
      intro a ch hreach
      rw [hreach.parent] at hparent
      simp at hparent
    exact (v.reports_pure _).holdsUnless (not_swallowsFailure hnot) (not_leavesTakenOver hnot)
  rcases hchunk : v.chunkArgument stripSize with _ | ch
  · have hnot : ∀ a ch, v.ReachesTakeover info stripSize SSI_Raid0 newSize disks a ch →
        v.m_RaidLevel ≠ 1 ∧ v.m_RaidLevel ≠ 10 := by
      intro a ch hreach
      rw [hreach.chunk] at hchunk
      simp at hchunk
    exact (v.reports_pure _).holdsUnless (not_swallowsFailure hnot) (not_leavesTakenOver hnot)
  have hreach : ∀ {a' ch'}, v.ReachesTakeover info stripSize SSI_Raid0 newSize disks a' ch' →
      a' = a ∧ ch' = ch := by
    intro a' ch' h
    exact ⟨Option.some.inj (h.parent.symm.trans hparent),
      Option.some.inj (h.chunk.symm.trans hchunk)⟩
  simp only
  by_cases hone : v.m_RaidLevel = 1
  · obtain ⟨hok, hkeeps⟩ := v.toRaid0From1_run a (v.chunkChange stripSize) stripSize disks env
    rw [if_neg (by rw [hone]; decide), if_pos hone]
    refine ⟨hok.trans (not_congr ⟨?_, ?_⟩), ?_⟩
    · rintro ⟨hcc, h64, hcan, hexit⟩
      exact ⟨a, ch, ⟨hcheck, rfl, hparent, hchunk, hcan⟩, .inl ⟨hone, hcc, h64, hexit⟩⟩
    · rintro ⟨a', ch', h, ⟨-, hcc, h64, hexit⟩ | ⟨hten, -⟩⟩
      · obtain ⟨rfl, rfl⟩ := hreach h
        exact ⟨hcc, h64, h.technology, hexit⟩
      · rw [hone] at hten
        exact absurd hten (by simp)
    · rw [hone]
      refine hkeeps.trans (not_congr ⟨?_, ?_⟩)
      · rintro ⟨hcc, h64, hcan, hexit, hgrow⟩
        exact ⟨a, ch, ⟨hcheck, rfl, hparent, hchunk, hcan⟩, hcc, .inl ⟨hone, h64⟩, hexit, hgrow⟩
      · rintro ⟨a', ch', h, hcc, ⟨-, h64⟩ | hten, hexit, hgrow⟩
        · obtain ⟨rfl, rfl⟩ := hreach h
          exact ⟨hcc, h64, h.technology, hexit, hgrow⟩
        · rw [hone] at hten
          exact absurd hten (by simp)
  by_cases hten : v.m_RaidLevel = 10
  · obtain ⟨hok, hkeeps⟩ := v.toRaid0From10_run a (v.chunkChange stripSize) ch disks env
    rw [if_neg (by rw [hten]; decide), if_neg hone, if_pos hten]
    refine ⟨hok.trans (not_congr ⟨?_, ?_⟩), ?_⟩
    · rintro ⟨hboth, hcan, hexit⟩
      exact ⟨a, ch, ⟨hcheck, rfl, hparent, hchunk, hcan⟩, .inr ⟨hten, hboth, hexit⟩⟩
    · rintro ⟨a', ch', h, ⟨hone', -⟩ | ⟨-, hboth, hexit⟩⟩
      · exact absurd hone' hone
      · obtain ⟨rfl, rfl⟩ := hreach h
        exact ⟨hboth, h.technology, hexit⟩
    · rw [hten]
      refine hkeeps.trans (not_congr ⟨?_, ?_⟩)
      · rintro ⟨hcc, hcan, hexit, hgrow⟩
        exact ⟨a, ch, ⟨hcheck, rfl, hparent, hchunk, hcan⟩, hcc, .inr hten, hexit, hgrow⟩
      · rintro ⟨a', ch', h, hcc, ⟨hone', -⟩ | -, hexit, hgrow⟩
        · exact absurd hone' hone
        · obtain ⟨rfl, rfl⟩ := hreach h
          exact ⟨hcc, h.technology, hexit, hgrow⟩
  have hnot : ∀ a ch, v.ReachesTakeover info stripSize SSI_Raid0 newSize disks a ch →
      v.m_RaidLevel ≠ 1 ∧ v.m_RaidLevel ≠ 10 := fun _ _ _ => ⟨hone, hten⟩
  have hs : ¬ v.SwallowsFailure info stripSize SSI_Raid0 newSize disks env :=
    not_swallowsFailure hnot
  have hl : ¬ v.LeavesTakenOver info stripSize SSI_Raid0 newSize disks env :=
    not_leavesTakenOver hnot
  split
  next => exact (v.reports_toRaid0From0 a _ ch disks).holdsUnless hs hl
  split
  next => exact (v.reports_toRaid0From5 _ disks).holdsUnless hs hl
  next => exact (v.reports_pure _).holdsUnless hs hl

end cases

/-- The cases of `modify` on the target level. -/
theorem modify_holdsUnless :
    v.HoldsUnless env (v.modify info stripSize raidLevel newSize disks)
      (v.SwallowsFailure info stripSize raidLevel newSize disks env)
      (v.LeavesTakenOver info stripSize raidLevel newSize disks env) := by
  unfold modify
  rcases hcheck : v.modifyCheck info stripSize raidLevel newSize disks with _ | status
  · by_cases hzero : raidLevel = SSI_Raid0
    · subst hzero
      exact toRaid0_holdsUnless hcheck
    have hnot : ∀ a ch, v.ReachesTakeover info stripSize raidLevel newSize disks a ch →
        v.m_RaidLevel ≠ 1 ∧ v.m_RaidLevel ≠ 10 := fun _ _ h => absurd h.target hzero
    have hs : ¬ v.SwallowsFailure info stripSize raidLevel newSize disks env :=
      not_swallowsFailure hnot
    have hl : ¬ v.LeavesTakenOver info stripSize raidLevel newSize disks env :=
      not_leavesTakenOver hnot
    simp only
    rw [if_neg hzero]
    split
    next => exact (v.reports_toRaid10 stripSize disks).holdsUnless hs hl
    split
    next hfive =>
      subst hfive
      exact (v.reports_toRaid5 (v.level_ne_10_of_modifyCheck hcheck) stripSize disks).holdsUnless
        hs hl
    next => exact (v.reports_pure _).holdsUnless hs hl
  · have hnot : ∀ a ch, v.ReachesTakeover info stripSize raidLevel newSize disks a ch →
        v.m_RaidLevel ≠ 1 ∧ v.m_RaidLevel ≠ 10 := by
      intro a ch hreach
      rw [hreach.check] at hcheck
      simp at hcheck
    exact (v.reports_pure _).holdsUnless (not_swallowsFailure hnot) (not_leavesTakenOver hnot)

/-- The run of a call. -/
def modifyRun : Run SysCall SysReply Str Fault SSI_Status :=
  (v.modify info stripSize raidLevel newSize disks).run env 0

/-- **A return of `SSI_StatusOk` means that every command exited with 0**, exactly but for the failures
that `__toRaid0` swallows. The swallowed failures are those of the takeover from level 1 or from level
10, and of the chunk change behind the latter: the status that is returned is that of the check before
them. The converse is shown by following the run that `SwallowsFailure` describes. -/
theorem okMeansExitZero_iff :
    OkMeansExitZero (v.modifyRun info stripSize raidLevel newSize disks env).trace
        (v.modifyRun info stripSize raidLevel newSize disks env).result ↔
      ¬ v.SwallowsFailure info stripSize raidLevel newSize disks env :=
  (v.modify_holdsUnless info stripSize raidLevel newSize disks env).okMeansExitZero

/-- **A return of another status leaves the level as it was**, exactly but for the takeovers whose
second step fails. The takeover to level 0 is a command by itself; where the growth by the new disks
fails behind it, the volume is left at level 0, and nothing takes it back. -/
theorem failureKeepsLevel_iff :
    FailureKeepsLevel v.m_RaidLevel
        (v.modifyRun info stripSize raidLevel newSize disks env).trace
        (v.modifyRun info stripSize raidLevel newSize disks env).result ↔
      ¬ v.LeavesTakenOver info stripSize raidLevel newSize disks env :=
  (v.modify_holdsUnless info stripSize raidLevel newSize disks env).failureKeepsLevel

section example_mirror

/-- A level 1 volume with a strip size of 64 kB. -/
def sampleMirror : Volume :=
  ⟨⟨.empty, .ofLit "md126", .ofLit "vol", .ofLit "bb:2", sampleArray.m_BlockDevices⟩,
    some sampleArray, 0, 1, false, 64 * 1024, 0, 1024, .normal, .off, none⟩

/-- Every command exits with the given status. -/
def constantExit (status : UInt8) : SysEnv
  | _, .shell _ => ⟨status, [], []⟩
  | _, .readMap => ⟨none, [], id⟩
  | _, .readAttribute _ => none
  | _, .stat _ => true
  | _, .appendConfig _ => none

/-- The sample mirror reaches the takeover. -/
theorem sampleMirror_reachesTakeover {disks : List EndDevice}
    (hcheck : sampleMirror.modifyCheck sampleInfo SSI_StripSize64kB SSI_Raid0 0 disks = none)
    (hcan : sampleArray.canAddEndDevices disks = .ok) :
    sampleMirror.ReachesTakeover sampleInfo SSI_StripSize64kB SSI_Raid0 0 disks sampleArray none :=
  ⟨hcheck, rfl, rfl, by decide, hcan⟩

/-- The takeover command of the mirror fails, and `modify` returns `SSI_StatusOk`. -/
theorem not_okMeansExitZero_mirror :
    ¬ ∀ (v : Volume) (info : SSI_RaidLevelInfo) (stripSize : SSI_StripSize)
      (raidLevel : SSI_RaidLevel) (newSize : UInt64) (disks : List EndDevice) (env : SysEnv),
      OkMeansExitZero (v.modifyRun info stripSize raidLevel newSize disks env).trace
        (v.modifyRun info stripSize raidLevel newSize disks env).result := by
  intro h
  have hrun := h sampleMirror sampleInfo SSI_StripSize64kB SSI_Raid0 0 [] (constantExit 1)
  refine (sampleMirror.modify_holdsUnless sampleInfo SSI_StripSize64kB SSI_Raid0 0 []
    (constantExit 1)).okMeansExitZero.mp hrun ?_
  refine ⟨sampleArray, none, sampleMirror_reachesTakeover (by decide) (by decide), .inl ?_⟩
  exact ⟨rfl, by decide, rfl, by decide⟩

/-- The takeover of the mirror succeeds, the disk to add is a member of an array and is refused,
and `modify` returns `SSI_StatusInvalidState` for a volume that is now of level 0. -/
theorem not_failureKeepsLevel_mirror :
    ¬ ∀ (v : Volume) (info : SSI_RaidLevelInfo) (stripSize : SSI_StripSize)
      (raidLevel : SSI_RaidLevel) (newSize : UInt64) (disks : List EndDevice) (env : SysEnv),
      FailureKeepsLevel v.m_RaidLevel
        (v.modifyRun info stripSize raidLevel newSize disks env).trace
        (v.modifyRun info stripSize raidLevel newSize disks env).result := by
  intro h
  have hrun := h sampleMirror sampleInfo SSI_StripSize64kB SSI_Raid0 0
    [sampleDisk (.ofLit "sdc") .arrayMember] (constantExit 0)
  refine (sampleMirror.modify_holdsUnless sampleInfo SSI_StripSize64kB SSI_Raid0 0
    [sampleDisk (.ofLit "sdc") .arrayMember] (constantExit 0)).failureKeepsLevel.mp hrun ?_
  refine ⟨sampleArray, none, sampleMirror_reachesTakeover (by decide) (by decide), by decide,
    .inl ⟨rfl, rfl⟩, by decide, by decide, ?_, ?_⟩
  · rintro ⟨-, d, hd, hnot⟩
    rw [List.mem_singleton.mp hd] at hnot
    exact absurd hnot (by decide)
  · rintro ⟨-, hadded, -⟩
    exact hadded

end example_mirror

end Volume

end Irstessi
