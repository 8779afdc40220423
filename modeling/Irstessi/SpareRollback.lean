import Irstessi.Migration
import Irstessi.Storage

/-!
# The rollback of spares

`Array::grow` and the migrations to levels 10 and 5 add disks as spares, for the command after it. If
that command fails, `removeSpare` takes out the disks that `getSpareableEndDevices` has chosen before.

* `OwnSpare`: a spare of the container; `sparesToAdd_eq`: the disks that are added are those that are
  chosen.
* `UsesSpares`: the three places; `ensures_rolledBack`: their commands where the one that uses the
  spares fails.
* **`rollback_exact`**: the container has its spares from before, and no others.

What is issued while commands succeed is a plan (`Plans`); here the command that uses the spares fails,
and it is followed by the removals. The disks that are removed are given by the same condition by which
they were chosen: those that were not spares of the container before. The theorem is stated over the
storage, from the commands that have exited with 0: it shows that each disk is where it was. It covers
the three places of the source by `UsesSpares`, with one lemma on how a run goes on after the failure.
-/

namespace Irstessi

open Interact Turns

namespace RaidArray

variable (a : RaidArray) (disks : List EndDevice)

/-- The disk is a spare of the container. -/
def OwnSpare (d : EndDevice) : Prop := d.array = some a.id ∧ d.diskUsage = .spare

/-- What `removeSpares` issues with force, while the removals succeed. -/
def removalPlan : List Command :=
  disks.flatMap fun d => [.removeDisk a.m_DevName d.m_DevName, .zeroSuperblock d.m_DevName]

/-! ## The two choices of disks -/

/-- Where no disk is refused, the disks that are added are those that are not in use as spares, and the
others are spares of the container. -/
theorem sparesToAdd_eq {names : List Str} (h : a.sparesToAdd disks = some names) :
    names = (disks.filter fun d => d.diskUsage ≠ .spare).map (·.m_DevName) ∧
      ∀ d ∈ disks, a.OwnSpare d ∨ d.diskUsage = .passThru := by
  induction disks generalizing names with
  | nil =>
      obtain rfl := Option.some.inj h
      exact ⟨rfl, fun d hd => nomatch hd⟩
  | cons d disks ih =>
      rw [sparesToAdd] at h
      split_ifs at h with hblock hown hcontroller hsystem husage hstate
      · obtain ⟨hnames, hdisks⟩ := ih h
        refine ⟨?_, List.forall_mem_cons.mpr ⟨.inl hown, hdisks⟩⟩
        rw [List.filter_cons_of_neg (by simp [hown.2]), hnames]
      · obtain ⟨rest, hrest, rfl⟩ := Option.map_eq_some_iff.mp h
        obtain ⟨rfl, hdisks⟩ := ih hrest
        rw [not_not] at husage
        refine ⟨?_, List.forall_mem_cons.mpr ⟨.inr husage, hdisks⟩⟩
        rw [List.filter_cons_of_pos (by simp [husage]), List.map_cons]

/-- The disks that are chosen for a removal are those that are no spares of the container. -/
theorem mem_spareable {names : List Str} (h : a.sparesToAdd disks = some names) {x : Str} :
    x ∈ names ↔ ∃ d ∈ disks, ¬ a.OwnSpare d ∧ d.m_DevName = x := by
  obtain ⟨rfl, hdisks⟩ := a.sparesToAdd_eq disks h
  simp only [List.mem_map, List.mem_filter, decide_eq_true_eq]
  constructor
  · rintro ⟨d, ⟨hd, husage⟩, rfl⟩
    exact ⟨d, hd, fun hown => husage hown.2, rfl⟩
  · rintro ⟨d, hd, hown, rfl⟩
    refine ⟨d, ⟨hd, ?_⟩, rfl⟩
    rw [(hdisks d hd).resolve_left hown]
    decide

/-! ## Removals -/

/-- Removing a spare with the superblock is two commands: the disk leaves the container, and its
metadata is cleared. -/
theorem follows_removeSpare (d : EndDevice) :
    FollowsPlan (a.removeSpare d true) [.removeDisk a.m_DevName d.m_DevName,
      .zeroSuperblock d.m_DevName] (.ok .ok) := by
  unfold removeSpare
  rw [if_neg (by simp)]
  refine follows_shellEx_bind ?_ trivial
  rw [if_pos rfl]
  exact follows_shellEx_bind (follows_pure _) trivial

/-- While they succeed, the removals are those of the plan. -/
theorem follows_removeSpares :
    FollowsPlan (a.removeSpares true disks .ok) (a.removalPlan disks) (.ok .ok) := by
  induction disks with
  | nil => exact follows_pure _
  | cons d disks ih =>
      refine followsPlan_bind (a.follows_removeSpare d) ih fun status _ _ => ?_
      exact onPlan_of_rollback (a.calls_removeSpares disks true _)

/-! ## The commands -/

/-- The command fails, and the removals after it succeed. -/
structure FailsAfterSpares (cmd : Command) (commands : List (Command × UInt8)) : Prop where
  fails : ∃ status, status ≠ 0 ∧ (cmd, status) ∈ commands
  removals : ∀ x ∈ commands, IsRollback x.1 → x.2 = 0

/-- The spares have been added, the command has failed, and the disks that were not in use as spares
have been removed. -/
def RolledBack (cmd : Command) (commands : List (Command × UInt8)) : Prop :=
  ∃ names status, a.sparesToAdd disks = some names ∧ status ≠ 0 ∧
    commands = (a.sparesPlan disks).map (fun cmd => (cmd, 0)) ++ (cmd, status) ::
      (a.removalPlan (disks.filter fun d => d.diskUsage ≠ .spare)).map fun cmd => (cmd, 0)

/-- The command is the only one, or it fails and removals of the disks follow it, as long as they
succeed. -/
def RemovesOnFailure (cmd : Command) (commands : List (Command × UInt8)) : Prop :=
  commands = [(cmd, 0)] ∨ ∃ status rest, status ≠ 0 ∧ commands = (cmd, status) :: rest ∧
    ((∀ x ∈ rest, IsRollback x.1 → x.2 = 0) → rest = (a.removalPlan disks).map fun cmd => (cmd, 0))

variable {a disks} {cmd : Command}

/-- Where nothing has been issued nothing has failed behind the spares. -/
theorem not_failsAfterSpares_nil : ¬ FailsAfterSpares cmd [] := by
  rintro ⟨⟨status, -, h⟩, -⟩
  simp at h

/-- A program whose calls are removals only. -/
theorem exits_removeSpares {disks : List EndDevice} {env : SysEnv} {i : Nat}
    (h : ∀ x ∈ exits ((a.removeSpares true disks .ok).run env i).trace, IsRollback x.1 → x.2 = 0) :
    exits ((a.removeSpares true disks .ok).run env i).trace =
      (a.removalPlan disks).map fun cmd => (cmd, 0) := by
  refine exits_of_follows (a.follows_removeSpares disks) fun x hx => h x hx ?_
  have hcalls : (a.removeSpares true disks .ok).Calls (OnShell IsRollback) :=
    (a.calls_removeSpares disks true .ok).mono fun c hc => by
      cases c with
      | shell cmd => exact hc
      | _ => exact trivial
  exact of_mem_exits hcalls hx

/-- The command that uses the spares, with the removal behind it. -/
theorem ensures_useSpares {linesNum offset : Nat} {f : Int → SysProg SSI_Status}
    (hzero : f 0 = pure .ok)
    (hfail : f (-1) = do let _ ← a.removeSpares true disks .ok; pure .failed) :
    Ensures (shellEx cmd linesNum offset >>= f) fun tr _ =>
      a.RemovesOnFailure disks cmd (exits tr) := by
  refine ensures_shellEx_bind (fun reply hexit => ?_) fun reply hexit => ?_
  · rw [hzero]
    refine ensures_pure (.inl ?_)
    rw [exits_cons_shell, hexit, exits_nil]
  · rw [hfail]
    intro env i
    obtain ⟨status, hstatus⟩ := a.removeSpares_returns true disks .ok env i
    rw [Prog.run_bind_ok env i hstatus]
    refine .inr ⟨_, _, hexit, exits_cons_shell _ _ _, fun hremovals => ?_⟩
    have htrace : ∀ i, ((pure .failed : SysProg SSI_Status).run env i).trace = [] := fun _ => rfl
    rw [htrace, List.append_nil] at hremovals ⊢
    exact exits_removeSpares hremovals

/-- The commands after the addition of the spares. -/
theorem rolledBack_of_removesOnFailure {names : List Str}
    (hnames : a.sparesToAdd disks = some names) {commands : List (Command × UInt8)}
    (h : a.RemovesOnFailure (disks.filter fun d => d.diskUsage ≠ .spare) cmd commands)
    (hfails : FailsAfterSpares cmd ((a.sparesPlan disks).map (fun cmd => (cmd, 0)) ++ commands)) :
    a.RolledBack disks cmd ((a.sparesPlan disks).map (fun cmd => (cmd, 0)) ++ commands) := by
  rcases h with rfl | ⟨status, rest, hstatus, rfl, hrest⟩
  · -- the command has not failed
    obtain ⟨status, hstatus, hmem⟩ := hfails.fails
    rcases List.mem_append.mp hmem with hmem | hmem
    · obtain ⟨cmd', hcmd', heq⟩ := List.mem_map.mp hmem
      exact absurd (Prod.mk.inj heq).2.symm hstatus
    · exact absurd (Prod.mk.inj (List.mem_singleton.mp hmem)).2 hstatus
  · refine ⟨names, status, hnames, hstatus, ?_⟩
    rw [hrest fun x hx => hfails.removals x ?_]
    exact List.mem_append_right _ (List.mem_cons_of_mem _ hx)

/-- The addition of the spares, with a program that uses them behind it. -/
theorem ensures_rolledBack_of_addSpare (hcmd : cmd.IsStructural) {f : SSI_Status → SysProg SSI_Status}
    (hnone : ∀ status, status ≠ .ok → f status = pure status)
    (hok : Ensures (f .ok) fun tr _ =>
      a.RemovesOnFailure (disks.filter fun d => d.diskUsage ≠ .spare) cmd (exits tr)) :
    Ensures (a.addSpare disks >>= f) fun tr _ =>
      FailsAfterSpares cmd (exits tr) → a.RolledBack disks cmd (exits tr) := by
  unfold addSpare
  rcases hspares : a.sparesToAdd disks with _ | _ | ⟨name, names⟩
  · rw [Prog.pure_bind, hnone _ (by decide)]
    exact ensures_pure fun h => absurd h not_failsAfterSpares_nil
  · rw [Prog.pure_bind]
    have hplan : a.sparesPlan disks = [] := by rw [sparesPlan, hspares]
    refine hok.mono fun tr _ htr => ?_
    have h := rolledBack_of_removesOnFailure hspares htr
    rw [hplan] at h
    exact h
  · dsimp only
    have hplan : a.sparesPlan disks = [.add a.m_DevName (name :: names)] := by
      rw [sparesPlan, hspares]
    rw [Prog.bind_assoc]
    refine ensures_shellEx_bind (fun reply hexit => ?_) fun reply hexit => ?_
    · rw [if_pos rfl, Prog.pure_bind]
      refine hok.mono fun tr _ htr => ?_
      have h := rolledBack_of_removesOnFailure hspares htr
      rw [hplan] at h
      rw [exits_cons_shell, hexit]
      exact h
    · rw [if_neg (by simp), Prog.pure_bind, hnone _ (by simp)]
      apply ensures_pure
      intro h
      -- the command has not been issued
      obtain ⟨status, -, hmem⟩ := h.fails
      rw [exits_cons_shell, exits_nil, List.mem_singleton, Prod.mk.injEq] at hmem
      rw [hmem.1] at hcmd
      exact hcmd.elim

end RaidArray

/-- A function that adds spares to the container, and the command that uses them. -/
inductive UsesSpares (a : RaidArray) (disks : List EndDevice) : SysProg SSI_Status → Command → Prop
  | grow : UsesSpares a disks (a.grow disks)
      (.raidDevices a.m_DevName (a.getEndDevices.length + disks.length))
  | toRaid10 {v : Volume} {stripSize : SSI_StripSize} (hparent : v.m_pParent = some a) :
      UsesSpares a disks (v.toRaid10 stripSize disks) (.growLevel10 v.m_DevName)
  | toRaid5 {v : Volume} {stripSize : SSI_StripSize} {ch : Option Nat}
      (hparent : v.m_pParent = some a) (hlevel : v.m_RaidLevel = 0)
      (hchunk : v.chunkArgument stripSize = some ch) :
      UsesSpares a disks (v.toRaid5 stripSize disks) (.growLevel5 v.m_DevName ch)

section

variable {a : RaidArray} {disks : List EndDevice} {p : SysProg SSI_Status} {cmd : Command}

/-- The command that the spares were taken for changes the structure of a volume or of an array. -/
theorem UsesSpares.isStructural (h : UsesSpares a disks p cmd) : cmd.IsStructural := by
  cases h <;> exact trivial

/-- In a migration the spares are added, and the command takes the volume to the level. -/
theorem ensures_rolledBack_migration (hcmd : cmd.IsStructural) :
    Ensures (do
        let addedToSpare ← RaidArray.getSpareableEndDevices disks
        let status ← a.addSpare disks
        if status ≠ .ok then pure status
        else if (← shellEx cmd 1 0) = 0 then pure .ok
        else do
          let _ ← a.removeSpares true addedToSpare .ok
          pure .failed) fun tr _ => RaidArray.FailsAfterSpares cmd (exits tr) →
      a.RolledBack disks cmd (exits tr) := by
  rw [RaidArray.getSpareableEndDevices_eq]
  split
  next =>
    rw [Prog.pure_bind]
    refine RaidArray.ensures_rolledBack_of_addSpare hcmd (fun status hne => if_pos hne) ?_
    rw [if_neg (by simp)]
    exact RaidArray.ensures_useSpares (if_pos rfl) (if_neg (by simp))
  next => exact ensures_throw fun h => absurd h RaidArray.not_failsAfterSpares_nil

/-- Where the command fails, the spares have been added before and are removed after it. -/
theorem ensures_rolledBack (h : UsesSpares a disks p cmd) :
    Ensures p fun tr _ => RaidArray.FailsAfterSpares cmd (exits tr) →
      a.RolledBack disks cmd (exits tr) := by
  have hcmd := h.isStructural
  have hnone : ∀ status : SSI_Status, Ensures (pure status : SysProg SSI_Status) fun tr _ =>
      RaidArray.FailsAfterSpares cmd (exits tr) → a.RolledBack disks cmd (exits tr) :=
    fun _ => ensures_pure fun h => absurd h RaidArray.not_failsAfterSpares_nil
  have hrefuse : ∀ status : SSI_Status, Ensures (refuse status) fun tr _ =>
      RaidArray.FailsAfterSpares cmd (exits tr) → a.RolledBack disks cmd (exits tr) := by
    intro status
    unfold refuse
    split
    next => exact ensures_note (hnone _)
    next => exact hnone _
  cases h with
  | grow =>
      unfold RaidArray.grow
      split
      next => exact hnone _
      next =>
        rw [RaidArray.getSpareableEndDevices_eq]
        split
        next =>
          rw [Prog.pure_bind]
          refine RaidArray.ensures_rolledBack_of_addSpare hcmd (fun status hne => if_neg hne) ?_
          rw [if_pos rfl]
          exact RaidArray.ensures_useSpares (if_neg (by simp)) (if_pos (by simp))
        next => exact ensures_throw fun h => absurd h RaidArray.not_failsAfterSpares_nil
  | toRaid10 hparent =>
      unfold Volume.toRaid10
      rw [hparent]
      dsimp only
      split
      next => exact hnone _
      split
      next => exact ensures_note (hnone _)
      split
      next => exact hnone _
      split
      next => exact hrefuse _
      next => exact ensures_rolledBack_migration hcmd
  | toRaid5 hparent hlevel hchunk =>
      unfold Volume.toRaid5
      rw [hparent, hchunk]
      dsimp only
      rw [if_pos hlevel]
      unfold Volume.toRaid5From0
      split
      next => exact ensures_note (hnone _)
      dsimp only
      split
      next => exact hrefuse _
      next => exact ensures_rolledBack_migration hcmd

end

/-! ## What is in the container -/

section

variable {a : RaidArray} {disks : List EndDevice} {S T : Storage}

/-- Carried out with success, the plan of the spares puts exactly these disks into the container. -/
theorem after_sparesPlan {names : List Str} (hnames : a.sparesToAdd disks = some names)
    (h : After exitEffect S ((a.sparesPlan disks).map fun cmd => (cmd, 0)) T) :
    T = S.put (some a.m_DevName) names := by
  unfold RaidArray.sparesPlan at h
  rw [hnames] at h
  cases names with
  | nil => simpa using h
  | cons name names =>
      dsimp only at h
      rw [List.map_singleton, after_cons_iff] at h
      obtain ⟨U, hadd, hrest⟩ := h
      exact (after_nil_iff.mp hrest).trans hadd

/-- Carried out with success, the plan of the removal leaves the disks in no container. -/
theorem after_removalPlan {added : List EndDevice}
    (h : After exitEffect S ((a.removalPlan added).map fun cmd => (cmd, 0)) T) :
    T = S.put none (added.map (·.m_DevName)) := by
  induction added generalizing S with
  | nil => simpa [RaidArray.removalPlan] using h
  | cons d added ih =>
      rw [RaidArray.removalPlan, List.flatMap_cons, ← RaidArray.removalPlan] at h
      simp only [List.cons_append, List.nil_append, List.map_cons, after_cons_iff] at h
      obtain ⟨U, hremove, U', hzero, hrest⟩ := h
      obtain rfl : U = S.put none [d.m_DevName] := hremove
      obtain rfl : U' = (S.put none [d.m_DevName]).put none [d.m_DevName] := hzero
      rw [ih hrest, Storage.put_put, Storage.put_put_append, List.map_cons, List.singleton_append]

/-- The storage has the spares of the container in it, and the free disks in none. -/
structure ShowsSpares (a : RaidArray) (disks : List EndDevice) (S : Storage) : Prop where
  spare : ∀ d ∈ disks, a.OwnSpare d → S.container d.m_DevName = some a.m_DevName
  free : ∀ d ∈ disks, d.diskUsage = .passThru → S.container d.m_DevName = none

/-- The disks that were no spares of the container are removed, and no others; the spares are in it,
and the storage is the one from before. -/
structure ExactRollback (a : RaidArray) (disks : List EndDevice) (S : Storage)
    (commands : List (Command × UInt8)) (T : Storage) : Prop where
  removed : ∀ x, (∃ status, (.removeDisk a.m_DevName x, status) ∈ commands) ↔
    ∃ d ∈ disks, ¬ a.OwnSpare d ∧ d.m_DevName = x
  kept : ∀ d ∈ disks, a.OwnSpare d → T.container d.m_DevName = some a.m_DevName
  gone : ∀ d ∈ disks, ¬ a.OwnSpare d → T.container d.m_DevName = none
  restored : T = S

/-- Removals on the list of commands. -/
theorem mem_rolledBack {cmd : Command} (hcmd : cmd.IsStructural) {status status' : UInt8} {x : Str}
    {added : List EndDevice}
    (h : (.removeDisk a.m_DevName x, status') ∈ (a.sparesPlan disks).map (fun cmd => (cmd, 0)) ++
      (cmd, status) :: (a.removalPlan added).map fun cmd => (cmd, 0)) :
    x ∈ added.map (·.m_DevName) := by
  rcases List.mem_append.mp h with h | h
  · obtain ⟨cmd', hcmd', heq⟩ := List.mem_map.mp h
    obtain ⟨names, -, rfl⟩ := a.mem_sparesPlan hcmd'
    cases (Prod.mk.inj heq).1
  rcases List.mem_cons.mp h with h | h
  · rw [← (Prod.mk.inj h).1] at hcmd
    exact hcmd.elim
  · obtain ⟨cmd', hcmd', heq⟩ := List.mem_map.mp h
    obtain ⟨rfl, -⟩ := Prod.mk.inj heq
    obtain ⟨d, hd, hmem⟩ := List.mem_flatMap.mp hcmd'
    simp only [List.mem_cons, Command.removeDisk.injEq, true_and, reduceCtorEq, List.not_mem_nil,
      or_false] at hmem
    exact List.mem_map.mpr ⟨d, hd, hmem.symm⟩

/-- A trace with the shape of a rollback takes back exactly what the spares' commands did, whatever the
failing command itself was. -/
theorem exactRollback_of_rolledBack {cmd : Command} (hcmd : cmd.IsStructural)
    (hshows : ShowsSpares a disks S) {commands : List (Command × UInt8)}
    (h : a.RolledBack disks cmd commands) (hafter : After exitEffect S commands T) :
    ExactRollback a disks S commands T := by
  obtain ⟨names, status, hnames, hstatus, rfl⟩ := h
  have hmem : ∀ {x}, x ∈ names ↔ ∃ d ∈ disks, ¬ a.OwnSpare d ∧ d.m_DevName = x :=
    a.mem_spareable disks hnames
  obtain ⟨hchosen, hdisks⟩ := a.sparesToAdd_eq disks hnames
  have hfree : ∀ x ∈ names, S.container x = none := by
    intro x hx
    obtain ⟨d, hd, hown, rfl⟩ := hmem.mp hx
    exact hshows.free d hd ((hdisks d hd).resolve_left hown)
  -- what is added is removed, and was in no container
  have hrestored : T = S := by
    obtain ⟨U, hadd, hrest⟩ := after_append_iff.mp hafter
    obtain ⟨U', hfails, hremove⟩ := after_cons_iff.mp hrest
    obtain rfl := after_sparesPlan hnames hadd
    obtain rfl : U' = _ := (if_neg hstatus).mp hfails
    rw [after_removalPlan hremove, ← hchosen, Storage.put_put]
    exact Storage.put_eq_self hfree
  refine ⟨fun x => ⟨?_, fun hx => ?_⟩, fun d hd hown => ?_, fun d hd hown => ?_, hrestored⟩
  · rintro ⟨status', hx⟩
    apply hmem.mp
    rw [hchosen]
    exact mem_rolledBack hcmd hx
  · have hname := hmem.mpr hx
    rw [hchosen] at hname
    obtain ⟨d, hd, rfl⟩ := List.mem_map.mp hname
    refine ⟨0, List.mem_append_right _ (List.mem_cons_of_mem _ (List.mem_map_of_mem ?_))⟩
    exact List.mem_flatMap.mpr ⟨d, hd, List.mem_cons_self⟩
  · rw [hrestored]
    exact hshows.spare d hd hown
  · rw [hrestored]
    exact hfree _ (hmem.mpr ⟨d, hd, hown, rfl⟩)

end

/-- **The rollback is exact.** Where the command that uses the spares fails and the removals succeed,
the disks that were no spares of the container are removed again, and the others stay. -/
theorem rollback_exact (a : RaidArray) (disks : List EndDevice) (p : SysProg SSI_Status)
    (cmd : Command) (h : UsesSpares a disks p cmd) (S T : Storage) (hshows : ShowsSpares a disks S)
    (env : SysEnv) (i : Nat) (hfails : RaidArray.FailsAfterSpares cmd (exits (p.run env i).trace))
    (hafter : After exitEffect S (exits (p.run env i).trace) T) :
    ExactRollback a disks S (exits (p.run env i).trace) T :=
  exactRollback_of_rolledBack h.isStructural hshows (ensures_rolledBack h env i hfails) hafter

section sample

/-- A spare of the container and a free disk. -/
def sampleSpares : List EndDevice :=
  [sampleDisk (.ofLit "sdc") .spare, { sampleDisk (.ofLit "sdd") .passThru with array := none }]

/-- The command that grows the container fails. -/
def failingGrow : SysEnv
  | _, .shell (.raidDevices _ _) => ⟨1, [], []⟩
  | i, c => Volume.constantExit 0 i c

/-- The container with its members and the spare. -/
def sampleSpareStorage : Storage :=
  ⟨fun x => if x ∈ [.ofLit "sda", .ofLit "sdb", .ofLit "sdc"] then some (.ofLit "md127") else none,
    fun _ => none⟩

/-- The free disk is added and removed again. -/
theorem rollback_exact_sdd :
    ExactRollback sampleArray sampleSpares sampleSpareStorage
      (exits ((sampleArray.grow sampleSpares).run failingGrow 0).trace) sampleSpareStorage := by
  have hexits : exits ((sampleArray.grow sampleSpares).run failingGrow 0).trace =
      [(.add (.ofLit "md127") [.ofLit "sdd"], 0), (.raidDevices (.ofLit "md127") 4, 1),
        (.removeDisk (.ofLit "md127") (.ofLit "sdd"), 0), (.zeroSuperblock (.ofLit "sdd"), 0)] := by
    decide +kernel
  refine rollback_exact sampleArray sampleSpares _ _ .grow sampleSpareStorage sampleSpareStorage
    ⟨fun d hd hown => ?_, fun d hd husage => ?_⟩ failingGrow 0 ⟨⟨1, by decide, ?_⟩, ?_⟩ ?_
  · simp only [sampleSpares, List.mem_cons, List.not_mem_nil, or_false] at hd
    rcases hd with rfl | rfl
    · decide
    · exact absurd hown.2 (by decide)
  · simp only [sampleSpares, List.mem_cons, List.not_mem_nil, or_false] at hd
    rcases hd with rfl | rfl
    · exact absurd husage (by decide)
    · decide
  · rw [hexits]
    exact List.mem_cons_of_mem _ List.mem_cons_self
  · rw [hexits]
    intro x hx hrollback
    simp only [List.mem_cons, List.not_mem_nil, or_false] at hx
    rcases hx with rfl | rfl | rfl | rfl
    · rfl
    · exact hrollback.elim
    · rfl
    · rfl
  · rw [hexits]
    have hrestored : sampleSpareStorage = ((sampleSpareStorage.put (some (.ofLit "md127"))
        [.ofLit "sdd"]).put none [.ofLit "sdd"]).put none [.ofLit "sdd"] := by
      rw [Storage.put_put, Storage.put_put, Storage.put_eq_self (by decide)]
    nth_rewrite 2 [hrestored]
    exact .cons rfl (.cons (if_neg (by simp) |>.mpr rfl) (.cons rfl (.cons rfl (.nil _))))

end sample

end Irstessi
