import Irstessi.ArrayCreate
import Irstessi.Lib.Follow
import Irstessi.Volume

/-!
# The commands of spares, growth and migration

What `addSpare`, `grow` and `modify` issue while mdadm succeeds, as a list that is read off the
arguments. After a failure they issue less, and the commands of `removeSpare`.

* `RaidArray.sparesPlan`, `growPlan`, and `Volume.toRaid0Plan`, `toRaid10Plan`, `toRaid5Plan`,
  `modifyPlan`: the lists, by the cases of the functions.
* `follows_addSpare`, `follows_grow`, `Volume.keeps_modify`: the functions follow them.

A plan is a list of commands and a result; a program follows it if it issues the commands in this order
as long as they succeed, and otherwise stops early and issues only what cleans up. The rules say how
plans are put together along the calls of a program. Since the lists are functions of the arguments,
what a migration issues where all goes well can be computed, and whether a command may be issued at all
is membership in the list (`mayCall_iff`). The cases of the lists are those of the functions, in the
order of the source.
-/

namespace Irstessi

open Interact

/-- The event is no command, or one that exits with 0. -/
def ExitsZero : SysEvent → Prop
  | ⟨.shell _, reply⟩ => reply.exitStatus = 0
  | ⟨.readMap, _⟩ => True
  | ⟨.readAttribute _, _⟩ => True
  | ⟨.stat _, _⟩ => True
  | ⟨.appendConfig _, _⟩ => True

/-- A command of `removeSpare`. -/
def IsRollback : Command → Prop
  | .removeDisk _ _ => True
  | .zeroSuperblock _ => True
  | _ => False

/-- The program follows the plan `plan` of commands. -/
abbrev FollowsPlan {α : Type} (p : SysProg α) (plan : List Command) (result : Except Fault α) : Prop :=
  Follows ExitsZero (IsShell IsRollback) p (plan.map .shell) result

/-- The command is on the plan, or one of `removeSpare`. -/
def OnPlan (plan : List Command) (c : SysCall) : Prop :=
  c ∈ plan.map .shell ∨ IsShell IsRollback c

section plans

variable {α : Type} {p : SysProg α} {plan : List Command} {result : Except Fault α} {cmd : Command}
  {linesNum offset : Nat} {f : Int → SysProg α}

/-- A single command follows the plan of this command, and returns 0 where it succeeds. -/
theorem follows_shellEx : FollowsPlan (shellEx cmd linesNum offset) [cmd] (.ok 0) := by
  unfold shellEx
  rw [shellOutput_bind]
  refine follows_call (fun reply hgood => ?_) fun reply hfail => ?_
  · have hzero : reply.exitStatus = 0 := hgood
    rw [if_neg (not_not.mpr hzero)]
    exact follows_pure 0
  · have hne : reply.exitStatus ≠ 0 := hfail
    rw [if_pos hne]
    exact trivial

/-- Plans are put one behind the other; where the first part returns something else, the second one must
keep to its plan. -/
theorem followsPlan_bind {β : Type} {q : SysProg β} {g : β → SysProg α} {plan' : List Command} {b : β}
    (hq : FollowsPlan q plan (.ok b)) (hg : FollowsPlan (g b) plan' result)
    (hrest : ∀ b', q.MayReturn b' → b' ≠ b → (g b').Calls (OnPlan plan')) :
    FollowsPlan (q >>= g) (plan ++ plan') result := by
  rw [FollowsPlan, List.map_append]
  exact follows_bind hq hg hrest

/-- A program that begins with `shellEx`. -/
theorem follows_shellEx_bind (hzero : FollowsPlan (f 0) plan result)
    (hfail : (f (-1)).Calls (OnPlan plan)) :
    FollowsPlan (shellEx cmd linesNum offset >>= f) (cmd :: plan) result := by
  apply followsPlan_bind follows_shellEx hzero
  intro b hb hne
  rcases mayReturn_shellEx.mp hb with rfl | rfl
  · exact absurd rfl hne
  · exact hfail

/-- All commands exit with 0 iff every event of the trace does. -/
theorem allExitZero_iff {tr : List SysEvent} : AllExitZero tr ↔ ∀ e ∈ tr, ExitsZero e := by
  unfold AllExitZero exits
  constructor
  · rintro h ⟨c, reply⟩ he
    cases c with
    | shell cmd => exact h (cmd, ShellReply.exitStatus reply) (List.mem_filterMap.mpr ⟨_, he, rfl⟩)
    | readMap => exact trivial
    | readAttribute => exact trivial
    | stat => exact trivial
    | appendConfig => exact trivial
  · intro h x hx
    obtain ⟨⟨c, reply⟩, he, hexit⟩ := List.mem_filterMap.mp hx
    have hzero := h _ he
    cases c with
    | shell cmd =>
        obtain rfl := Option.some.inj hexit
        exact hzero
    | readMap => cases hexit
    | readAttribute => cases hexit
    | stat => cases hexit
    | appendConfig => cases hexit

/-- A trace of successful commands is its plan with the status 0 at each command. -/
theorem exits_of_map_shell {tr : List SysEvent} (hzero : AllExitZero tr)
    (hplan : tr.map Sigma.fst = plan.map .shell) : exits tr = plan.map fun cmd => (cmd, 0) := by
  induction tr generalizing plan with
  | nil =>
      cases plan with
      | nil => rfl
      | cons cmd plan => simp at hplan
  | cons e tr ih =>
      cases plan with
      | nil => simp at hplan
      | cons cmd plan =>
          obtain ⟨c, reply⟩ := e
          obtain ⟨rfl, hrest⟩ := List.cons.inj hplan
          rw [allExitZero_cons_shell] at hzero
          rw [exits_cons_shell, hzero.1, List.map_cons, ih hzero.2 hrest]

/-- Where every command exits with 0 the commands are those of the plan. -/
theorem exits_of_follows (h : FollowsPlan p plan result) {env : SysEnv} {i : Nat}
    (hzero : AllExitZero (p.run env i).trace) :
    exits (p.run env i).trace = plan.map fun cmd => (cmd, 0) :=
  exits_of_map_shell hzero (h.run env i (allExitZero_iff.mp hzero)).1

/-- The commands of all runs are on the plan or those of `removeSpare`. -/
theorem calls_of_follows (h : FollowsPlan p plan result) :
    p.Calls (OnShell fun cmd => cmd ∈ plan ∨ IsRollback cmd) := by
  apply h.calls.mono
  intro c hc
  cases c with
  | shell cmd =>
      refine hc.imp (fun hmem => ?_) id
      obtain ⟨cmd', hcmd', heq⟩ := List.mem_map.mp hmem
      obtain rfl := SysCall.shell.inj heq
      exact hcmd'
  | _ => exact trivial

/-- Commands that only take back are allowed by every plan. -/
theorem onPlan_of_rollback {p : SysProg α} (h : p.Calls (IsShell IsRollback)) :
    p.Calls (OnPlan plan) :=
  h.mono fun _ hc => .inr hc

end plans

/-! ## Containers -/

namespace RaidArray

variable (a : RaidArray) (disks : List EndDevice)

/-- The command that adds the disks that are no spares of the container yet. -/
def sparesPlan : List Command :=
  match a.sparesToAdd disks with
  | some (name :: names) => [.add a.m_DevName (name :: names)]
  | _ => []

/-- The disks become spares, then members. -/
def growPlan : List Command :=
  if a.m_Busy = true ∨ a.sparesToAdd disks = none then []
  else a.sparesPlan disks ++ [.raidDevices a.m_DevName (a.getEndDevices.length + disks.length)]

/-- Adding spares follows its plan, or refuses before the first command. -/
theorem follows_addSpare : FollowsPlan (a.addSpare disks) (a.sparesPlan disks)
    (.ok (if a.sparesToAdd disks = none then .invalidState else .ok)) := by
  unfold addSpare sparesPlan
  rcases a.sparesToAdd disks with _ | _ | ⟨name, names⟩
  · exact follows_pure _
  · exact follows_pure _
  · exact follows_shellEx_bind (follows_pure _) trivial

/-- Removing spares issues commands that only take back. -/
theorem calls_removeSpares (force : Bool) (status : SSI_Status) :
    (a.removeSpares force disks status).Calls (IsShell IsRollback) := by
  induction disks generalizing status with
  | nil => exact trivial
  | cons d disks ih =>
      refine Prog.calls_bind ?_ fun _ _ => ih _
      unfold removeSpare
      split
      next => exact trivial
      next =>
        apply calls_shellEx_bind trivial
        intro result
        split
        next => exact calls_shellEx_bind trivial fun _ => trivial
        next => exact trivial

/-- The spares are added, and then the command `cmd` uses them; where it fails they are removed
again. -/
theorem follows_useSpares {f : SSI_Status → SysProg SSI_Status} {cmd : Command}
    (hnone : ∀ status, status ≠ .ok → f status = pure status)
    (hok : FollowsPlan (f .ok) [cmd] (.ok .ok)) :
    FollowsPlan (a.addSpare disks >>= f)
      (if a.sparesToAdd disks = none then [] else a.sparesPlan disks ++ [cmd])
      (.ok (if a.sparesToAdd disks = none then .invalidState else .ok)) := by
  have hadd := a.follows_addSpare disks
  by_cases hspares : a.sparesToAdd disks = none
  · have hplan : a.sparesPlan disks = [] := by rw [sparesPlan, hspares]
    have hrefused : FollowsPlan (f .invalidState) [] (.ok .invalidState) := by
      rw [hnone _ (by decide)]
      exact follows_pure _
    rw [if_pos hspares, hplan] at hadd
    rw [if_pos hspares, if_pos hspares]
    apply followsPlan_bind hadd hrefused
    intro b hb hne
    rw [addSpare, hspares] at hb
    exact absurd hb.symm hne
  · rw [if_neg hspares] at hadd
    rw [if_neg hspares, if_neg hspares]
    apply followsPlan_bind hadd hok
    intro b _ hne
    rw [hnone b hne]
    exact trivial

/-- `grow` of disks that are not all block devices crashes before its first command. -/
theorem follows_grow : ∃ result, FollowsPlan (a.grow disks) (a.growPlan disks) result := by
  unfold grow growPlan
  by_cases hbusy : a.m_Busy = true
  · rw [if_pos hbusy, if_pos (.inl hbusy)]
    exact ⟨_, follows_pure _⟩
  rw [if_neg hbusy, getSpareableEndDevices_eq]
  by_cases hblock : ∀ d ∈ disks, d.isBlockDevice
  · rw [if_pos hblock, Prog.pure_bind]
    simp only [or_iff_right hbusy]
    refine ⟨_, a.follows_useSpares disks (fun status hne => if_neg hne) ?_⟩
    rw [if_pos rfl]
    apply follows_shellEx_bind (follows_pure _)
    refine onPlan_of_rollback (Prog.calls_bind ?_ fun _ _ => trivial)
    exact a.calls_removeSpares _ _ _
  · have hspares := a.sparesToAdd_eq_none hblock
    rw [if_neg hblock, if_pos (.inr hspares)]
    exact ⟨_, follows_throw _⟩

end RaidArray

/-- A refusal issues nothing. -/
theorem follows_refuse (status : SSI_Status) : FollowsPlan (refuse status) [] (.ok status) := by
  unfold refuse
  split
  next => exact follows_note (follows_pure _)
  next => exact follows_pure _

/-- A refusal makes no call, so that any property holds of its calls. -/
theorem calls_refuse {P : SysCall → Prop} (status : SSI_Status) : (refuse status).Calls P := by
  unfold refuse
  split <;> exact trivial

/-! ## Migration -/

namespace Volume

variable (v : Volume) (pArray : RaidArray) (chunkChange : Bool) (ch : Option Nat)
  (stripSize : SSI_StripSize) (disks : List EndDevice)

/-- The plan of `toRaid0From0`. -/
def toRaid0From0Plan : List Command :=
  if disks.length = 0 then if chunkChange then [.growLevel0 v.m_DevName ch] else []
  else if chunkChange = true ∨ pArray.canAddEndDevices disks ≠ .ok then []
  else pArray.growPlan disks

/-- The plan of `toRaid0From1`. -/
def toRaid0From1Plan : List Command :=
  if chunkChange = true ∨ stripSize ≠ SSI_StripSize64kB ∨ pArray.canAddEndDevices disks ≠ .ok then []
  else .growLevel0 v.m_DevName none :: if disks.length > 0 then pArray.growPlan disks else []

/-- The plan of `toRaid0From10`. -/
def toRaid0From10Plan : List Command :=
  if (disks.length > 0 ∧ chunkChange = true) ∨ pArray.canAddEndDevices disks ≠ .ok then []
  else .growLevel0 v.m_DevName none ::
    if disks.length > 0 then pArray.growPlan disks
    else if chunkChange then [.growLevel0 v.m_DevName ch] else []

/-- The plan of `toRaid0From5`. -/
def toRaid0From5Plan : List Command :=
  if disks.length > 0 ∨ chunkChange = true then [] else [.growLevel0 v.m_DevName none]

/-- The plan of `toRaid0`. -/
def toRaid0Plan : List Command :=
  match v.m_pParent, v.chunkArgument stripSize with
  | some pArray, some ch =>
      if v.m_RaidLevel = 0 then v.toRaid0From0Plan pArray (v.chunkChange stripSize) ch disks
      else if v.m_RaidLevel = 1 then
        v.toRaid0From1Plan pArray (v.chunkChange stripSize) stripSize disks
      else if v.m_RaidLevel = 10 then
        v.toRaid0From10Plan pArray (v.chunkChange stripSize) ch disks
      else if v.m_RaidLevel = 5 then v.toRaid0From5Plan (v.chunkChange stripSize) disks
      else []
  | _, _ => []

/-- The plan of `toRaid10`. -/
def toRaid10Plan : List Command :=
  match v.m_pParent with
  | some pArray =>
      if v.m_RaidLevel ≠ 0 ∨ v.m_BlockDevices.length ≠ 2 ∨ disks.length ≠ 2 ∨
          v.chunkChange stripSize = true ∨ pArray.canAddEndDevices disks ≠ .ok ∨
          pArray.sparesToAdd disks = none then []
      else pArray.sparesPlan disks ++ [.growLevel10 v.m_DevName]
  | none => []

/-- The plan of `toRaid5From0`. -/
def toRaid5From0Plan : List Command :=
  if disks.length ≠ 1 ∨ pArray.canAddEndDevices disks ≠ .ok ∨ pArray.sparesToAdd disks = none then []
  else pArray.sparesPlan disks ++ [.growLevel5 v.m_DevName ch]

/-- The plan of `toRaid5From10`. -/
def toRaid5From10Plan : List Command :=
  if disks.length > 0 then [] else [.growLevel0 v.m_DevName none, .growLevel5 v.m_DevName ch]

/-- The plan of `toRaid5From5`. -/
def toRaid5From5Plan : List Command :=
  if disks.length = 0 then [.growChunk5 v.m_DevName ch]
  else if chunkChange = true ∨ pArray.canAddEndDevices disks ≠ .ok then []
  else pArray.growPlan disks

/-- The plan of `toRaid5`. -/
def toRaid5Plan : List Command :=
  match v.m_pParent, v.chunkArgument stripSize with
  | some pArray, some ch =>
      if v.m_RaidLevel = 0 then v.toRaid5From0Plan pArray ch disks
      else if v.m_RaidLevel = 10 then v.toRaid5From10Plan ch disks
      else if v.m_RaidLevel = 5 then
        v.toRaid5From5Plan pArray (v.chunkChange stripSize) ch disks
      else []
  | _, _ => []

/-- The plan of `modify`. -/
def modifyPlan (info : SSI_RaidLevelInfo) (stripSize : SSI_StripSize) (raidLevel : SSI_RaidLevel)
    (newSize : UInt64) (disks : List EndDevice) : List Command :=
  if v.modifyCheck info stripSize raidLevel newSize disks = none then
    if raidLevel = SSI_Raid0 then v.toRaid0Plan stripSize disks
    else if raidLevel = SSI_Raid10 then v.toRaid10Plan stripSize disks
    else if raidLevel = SSI_Raid5 then v.toRaid5Plan stripSize disks
    else []
  else []

/-- The program follows the plan, whatever its result. -/
def Keeps (p : SysProg SSI_Status) (plan : List Command) : Prop := ∃ result, FollowsPlan p plan result

/-- A program that returns at once keeps to the empty plan. -/
theorem keeps_pure (status : SSI_Status) : Keeps (pure status) [] := ⟨_, follows_pure _⟩

/-- Apart from the commands of `removeSpare`, what the program may issue is on its plan. -/
theorem Keeps.mayCall_iff {p : SysProg SSI_Status} {plan : List Command} (h : Keeps p plan)
    {P : Command → Prop} (hP : ∀ cmd, IsRollback cmd → ¬ P cmd) :
    p.MayCall (IsShell P) ↔ ∃ cmd ∈ plan, P cmd := by
  obtain ⟨result, h⟩ := h
  have hgood : ∀ c : SysCall, ∃ r, ExitsZero ⟨c, r⟩ := by
    intro c
    cases c with
    | shell cmd => exact ⟨(⟨0, [], []⟩ : ShellReply), rfl⟩
    | readMap => exact ⟨(⟨none, [], id⟩ : MapReply), trivial⟩
    | readAttribute path => exact ⟨(none : Option (List UInt8)), trivial⟩
    | stat name => exact ⟨true, trivial⟩
    | appendConfig text => exact ⟨(none : Option Exception), trivial⟩
  have hrollback : ∀ c, IsShell IsRollback c → ¬ IsShell P c := by
    intro c hc hstructural
    cases c with
    | shell cmd => exact hP cmd hc hstructural
    | _ => exact hc
  rw [h.mayCall_iff hgood hrollback]
  constructor
  · rintro ⟨c, hc, hPc⟩
    obtain ⟨cmd, hcmd, rfl⟩ := List.mem_map.mp hc
    exact ⟨cmd, hcmd, hPc⟩
  · rintro ⟨cmd, hcmd, hPcmd⟩
    exact ⟨.shell cmd, List.mem_map_of_mem hcmd, hPcmd⟩

/-- A refusal with a message keeps to the empty plan: a message is no command. -/
theorem keeps_tell (message : Str) (status : SSI_Status) :
    Keeps (do setLastErrorMessage message; pure status) [] :=
  ⟨_, follows_note (follows_pure _)⟩

/-- A command and what follows its success, with a failure branch that keeps to the plan. -/
theorem keeps_shellEx_bind {f : Int → SysProg SSI_Status} {cmd : Command} {linesNum offset : Nat}
    {plan : List Command} (hzero : Keeps (f 0) plan) (hfail : (f (-1)).Calls (OnPlan plan)) :
    Keeps (shellEx cmd linesNum offset >>= f) (cmd :: plan) :=
  hzero.imp fun _ h => follows_shellEx_bind h hfail

/-- A single command, whose exit status decides the status. -/
theorem keeps_shellEx (cmd : Command) (failed : SysProg SSI_Status)
    (hfailed : ∀ P, failed.Calls P) :
    Keeps (do if (← shellEx cmd 1 0) = 0 then pure .ok else failed) [cmd] := by
  refine keeps_shellEx_bind ?_ ?_
  · rw [if_pos rfl]
    exact keeps_pure _
  · rw [if_neg (by simp)]
    exact hfailed _

/-- Level 0 to level 0: with disks the array grows, without them the strip size changes. -/
theorem keeps_toRaid0From0 : Keeps (v.toRaid0From0 pArray chunkChange ch disks)
    (v.toRaid0From0Plan pArray chunkChange ch disks) := by
  unfold toRaid0From0 toRaid0From0Plan
  by_cases hdisks : disks.length = 0
  · cases chunkChange with
    | false =>
        rw [if_pos ⟨hdisks, rfl⟩, if_pos hdisks]
        exact keeps_pure _
    | true =>
        have hnone : ¬ disks.length > 0 := by omega
        rw [if_neg (fun h => Bool.noConfusion h.2), if_neg (fun h => hnone h.1), if_neg hnone,
          if_pos hdisks, if_pos rfl]
        exact keeps_shellEx _ _ fun _ => trivial
  · have hsome : disks.length > 0 := by omega
    rw [if_neg (fun h => hdisks h.1), if_neg hdisks]
    cases chunkChange with
    | true =>
        rw [if_pos ⟨hsome, rfl⟩, if_pos (.inl rfl)]
        exact keeps_pure _
    | false =>
        rw [if_neg (fun h => Bool.noConfusion h.2), if_pos hsome]
        by_cases hadd : pArray.canAddEndDevices disks = .ok
        · simp only [hadd, if_true, ne_eq, not_true_eq_false, Bool.false_eq_true, or_self, if_false]
          exact pArray.follows_grow disks
        · simp only [hadd, if_false, ne_eq, not_false_eq_true, or_true, if_true]
          exact ⟨_, follows_refuse _⟩

/-- Level 1 to level 0: the level, and then the disks, if there are any. -/
theorem keeps_toRaid0From1 : Keeps (v.toRaid0From1 pArray chunkChange stripSize disks)
    (v.toRaid0From1Plan pArray chunkChange stripSize disks) := by
  unfold toRaid0From1 toRaid0From1Plan
  by_cases hchunk : chunkChange = true
  · rw [if_pos hchunk, if_pos (.inl hchunk)]
    exact keeps_tell _ _
  rw [if_neg hchunk]
  by_cases hstrip : stripSize ≠ SSI_StripSize64kB
  · rw [if_pos hstrip, if_pos (.inr (.inl hstrip))]
    exact keeps_tell _ _
  rw [if_neg hstrip]
  dsimp only
  by_cases hadd : pArray.canAddEndDevices disks = .ok
  · rw [if_pos hadd, if_neg (not_or.mpr ⟨hchunk, not_or.mpr ⟨hstrip, not_not.mpr hadd⟩⟩)]
    refine keeps_shellEx_bind ?_ ?_
    · rw [if_pos rfl]
      split
      next => exact pArray.follows_grow disks
      next => exact keeps_pure _
    · rw [if_neg (show ¬ (-1 : Int) = 0 by decide)]
      exact calls_refuse _
  · rw [if_neg hadd, if_pos (.inr (.inr hadd))]
    exact ⟨_, follows_refuse _⟩

/-- Level 10 to level 0: the level, then the disks or the strip size. -/
theorem keeps_toRaid0From10 : Keeps (v.toRaid0From10 pArray chunkChange ch disks)
    (v.toRaid0From10Plan pArray chunkChange ch disks) := by
  unfold toRaid0From10 toRaid0From10Plan
  by_cases hboth : disks.length > 0 ∧ chunkChange = true
  · rw [if_pos hboth, if_pos (.inl hboth)]
    exact keeps_pure _
  rw [if_neg hboth]
  dsimp only
  by_cases hadd : pArray.canAddEndDevices disks = .ok
  · rw [if_pos hadd, if_neg (not_or.mpr ⟨hboth, not_not.mpr hadd⟩)]
    refine keeps_shellEx_bind ?_ ?_
    · rw [if_pos rfl]
      by_cases hdisks : disks.length > 0
      · have hsome : ¬ (disks.length = 0 ∧ chunkChange = false) := fun h => by omega
        rw [if_neg hsome, if_pos hdisks, if_pos hdisks]
        exact pArray.follows_grow disks
      · have hnone : disks.length = 0 := by omega
        rw [if_neg hdisks, if_neg hdisks]
        cases chunkChange with
        | true =>
            rw [if_neg (fun h => Bool.noConfusion h.2), if_pos rfl]
            exact keeps_shellEx _ _ fun _ => calls_refuse _
        | false =>
            rw [if_pos ⟨hnone, rfl⟩]
            exact keeps_pure _
    · rw [if_neg (show ¬ (-1 : Int) = 0 by decide)]
      exact calls_refuse _
  · rw [if_neg hadd, if_pos (.inr hadd)]
    exact ⟨_, follows_refuse _⟩

/-- Level 5 to level 0: one command that changes the level. -/
theorem keeps_toRaid0From5 : Keeps (v.toRaid0From5 chunkChange disks)
    (v.toRaid0From5Plan chunkChange disks) := by
  unfold toRaid0From5 toRaid0From5Plan
  by_cases hdisks : disks.length > 0
  · rw [if_pos hdisks, if_pos (.inl hdisks)]
    exact keeps_pure _
  rw [if_neg hdisks]
  by_cases hchunk : chunkChange = true
  · rw [if_pos hchunk, if_pos (.inr hchunk)]
    exact keeps_pure _
  · rw [if_neg hchunk, if_neg (not_or.mpr ⟨hdisks, hchunk⟩)]
    exact keeps_shellEx _ _ fun _ => trivial

/-- All migrations to level 0 keep to the plan, which is chosen by the level that the volume has. -/
theorem keeps_toRaid0 : Keeps (v.toRaid0 stripSize disks) (v.toRaid0Plan stripSize disks) := by
  unfold toRaid0 toRaid0Plan
  rcases v.m_pParent with _ | pArray
  · exact keeps_pure _
  rcases v.chunkArgument stripSize with _ | ch
  · exact keeps_pure _
  dsimp only
  split
  next => exact v.keeps_toRaid0From0 _ _ _ _
  split
  next => exact v.keeps_toRaid0From1 _ _ _ _
  split
  next => exact v.keeps_toRaid0From10 _ _ _ _
  split
  next => exact v.keeps_toRaid0From5 _ _
  next => exact keeps_pure _

/-- Spares are added for a command that takes the volume to another level. -/
theorem keeps_migration (cmd : Command) :
    Keeps (do
        let addedToSpare ← RaidArray.getSpareableEndDevices disks
        let status ← pArray.addSpare disks
        if status ≠ .ok then pure status
        else if (← shellEx cmd 1 0) = 0 then pure .ok
        else do
          let _ ← pArray.removeSpares true addedToSpare .ok
          pure .failed)
      (if pArray.sparesToAdd disks = none then [] else pArray.sparesPlan disks ++ [cmd]) := by
  rw [RaidArray.getSpareableEndDevices_eq]
  by_cases hblock : ∀ d ∈ disks, d.isBlockDevice
  · rw [if_pos hblock, Prog.pure_bind]
    refine ⟨_, pArray.follows_useSpares disks (fun status hne => if_pos hne) ?_⟩
    rw [if_neg (by simp)]
    apply follows_shellEx_bind (follows_pure _)
    exact onPlan_of_rollback (Prog.calls_bind (pArray.calls_removeSpares _ _ _) fun _ _ => trivial)
  · have hspares := pArray.sparesToAdd_eq_none hblock
    rw [if_neg hblock, if_pos hspares]
    exact ⟨_, follows_throw _⟩

/-- The migration to level 10 keeps to its plan. -/
theorem keeps_toRaid10 : Keeps (v.toRaid10 stripSize disks) (v.toRaid10Plan stripSize disks) := by
  unfold toRaid10 toRaid10Plan
  rcases v.m_pParent with _ | pArray
  · exact keeps_pure _
  dsimp only
  by_cases hlevel : v.m_RaidLevel ≠ 0 ∨ v.m_BlockDevices.length ≠ 2
  · rw [if_pos hlevel, if_pos (hlevel.imp_right .inl)]
    exact keeps_pure _
  rw [if_neg hlevel]
  by_cases hdisks : disks.length ≠ 2
  · rw [if_pos hdisks, if_pos (.inr (.inr (.inl hdisks)))]
    exact keeps_tell _ _
  rw [if_neg hdisks]
  by_cases hchunk : v.chunkChange stripSize = true
  · rw [if_pos hchunk, if_pos (.inr (.inr (.inr (.inl hchunk))))]
    exact keeps_pure _
  rw [if_neg hchunk]
  by_cases hadd : pArray.canAddEndDevices disks ≠ .ok
  · rw [if_pos hadd, if_pos (.inr (.inr (.inr (.inr (.inl hadd)))))]
    exact ⟨_, follows_refuse _⟩
  rw [if_neg hadd]
  have hmigration := keeps_migration pArray disks (.growLevel10 v.m_DevName)
  rw [not_or] at hlevel
  simp only [hlevel.1, hlevel.2, hdisks, hchunk, hadd, Bool.false_eq_true, false_or]
  exact hmigration

/-- Level 0 to level 5: the spare first, and then the level. -/
theorem keeps_toRaid5From0 : Keeps (v.toRaid5From0 pArray ch disks)
    (v.toRaid5From0Plan pArray ch disks) := by
  unfold toRaid5From0 toRaid5From0Plan
  by_cases hdisks : disks.length ≠ 1
  · rw [if_pos hdisks, if_pos (.inl hdisks)]
    exact keeps_tell _ _
  rw [if_neg hdisks]
  dsimp only
  by_cases hadd : pArray.canAddEndDevices disks ≠ .ok
  · rw [if_pos hadd, if_pos (.inr (.inl hadd))]
    exact ⟨_, follows_refuse _⟩
  rw [if_neg hadd]
  have hmigration := keeps_migration pArray disks (.growLevel5 v.m_DevName ch)
  simp only [hdisks, hadd, false_or]
  exact hmigration

/-- Level 10 to level 5 goes by way of level 0. -/
theorem keeps_toRaid5From10 : Keeps (v.toRaid5From10 ch disks) (v.toRaid5From10Plan ch disks) := by
  unfold toRaid5From10 toRaid5From10Plan
  by_cases hdisks : disks.length > 0
  · rw [if_pos hdisks, if_pos hdisks]
    exact keeps_tell _ _
  · rw [if_neg hdisks, if_neg hdisks]
    refine keeps_shellEx_bind ?_ trivial
    rw [if_pos rfl]
    exact keeps_shellEx _ _ fun _ => trivial

/-- Level 5 to level 5: the strip size changes, or the array grows. -/
theorem keeps_toRaid5From5 : Keeps (v.toRaid5From5 pArray chunkChange ch disks)
    (v.toRaid5From5Plan pArray chunkChange ch disks) := by
  unfold toRaid5From5 toRaid5From5Plan
  by_cases hdisks : disks.length = 0
  · have hnone : ¬ disks.length > 0 := by omega
    rw [if_neg (fun h => hnone h.1), if_neg hnone, if_pos hdisks]
    exact keeps_shellEx _ _ fun _ => trivial
  have hsome : disks.length > 0 := by omega
  rw [if_neg hdisks]
  by_cases hchunk : chunkChange = true
  · rw [if_pos ⟨hsome, hchunk⟩, if_pos (.inl hchunk)]
    exact keeps_pure _
  rw [if_neg (fun h => hchunk h.2), if_pos hsome]
  dsimp only
  by_cases hadd : pArray.canAddEndDevices disks ≠ .ok
  · rw [if_pos hadd, if_pos (.inr hadd)]
    exact ⟨_, follows_refuse _⟩
  · rw [if_neg hadd, if_neg (not_or.mpr ⟨hchunk, hadd⟩)]
    exact pArray.follows_grow disks

/-- All migrations to level 5 keep to the plan, which is chosen by the level that the volume has. -/
theorem keeps_toRaid5 : Keeps (v.toRaid5 stripSize disks) (v.toRaid5Plan stripSize disks) := by
  unfold toRaid5 toRaid5Plan
  rcases v.m_pParent with _ | pArray
  · exact keeps_pure _
  rcases v.chunkArgument stripSize with _ | ch
  · exact keeps_pure _
  dsimp only
  split
  next => exact v.keeps_toRaid5From0 _ _ _
  split
  next => exact v.keeps_toRaid5From10 _ _
  split
  next => exact v.keeps_toRaid5From5 _ _ _ _
  next => exact keeps_pure _

/-- `modify` follows its plan. -/
theorem keeps_modify (info : SSI_RaidLevelInfo) (stripSize : SSI_StripSize)
    (raidLevel : SSI_RaidLevel) (newSize : UInt64) (disks : List EndDevice) :
    Keeps (v.modify info stripSize raidLevel newSize disks)
      (v.modifyPlan info stripSize raidLevel newSize disks) := by
  unfold modify modifyPlan
  rcases v.modifyCheck info stripSize raidLevel newSize disks with _ | status
  · rw [if_pos rfl]
    dsimp only
    split
    next => exact v.keeps_toRaid0 _ _
    split
    next => exact v.keeps_toRaid10 _ _
    split
    next => exact v.keeps_toRaid5 _ _
    next => exact keeps_pure _
  · rw [if_neg (Option.some_ne_none status)]
    exact keeps_pure _

end Volume

end Irstessi
