import Irstessi.Growth

/-!
# Handles of CD-ROMs and tapes

`SsiAddDisksToArray` and `SsiRaidLevelModify` take the handles of any end devices.
`Array::getSpareableEndDevices` dereferences the result of a cast that fails for an end device that is
no disk, and `Array::canAddEndDevices` skips it.

* `Treats`: what becomes of a list of end devices, with its rules and a lemma for each function of the
  migrations.
* `Volume.ReachesCast`: the migrations of such a list that get to a command or to the cast.
* **`rejectsNonDisks_iff`**: a list with an end device that is no disk is rejected exactly where the
  call does not get that far.

A cast of an end device that is no disk gives a null pointer, which is a fault of the model and not a
status. `Treats` describes a run by two facts: where the list has only disks, no fault occurs; where it
has another device and the call goes on, a null pointer is dereferenced or a command has been issued
before. Each function of the migrations has one lemma of this form, by the cases of its commands: one
that fails ends the run before the cast, but it has been issued. `ReachesCast` is read off the arguments
and the state before the call, so that the condition of the theorem needs no run.
-/

namespace Irstessi

open Interact

/-- What becomes of a list of end devices: where it has `onlyDisks` there is a status. Another one is
answered with a status that is not `SSI_StatusOk` and without a command, or, under the condition
`goesOn`, a command is issued or the null pointer dereferenced. -/
structure Treats (onlyDisks goesOn : Prop) (tr : List SysEvent) (res : Except Fault SSI_Status) :
    Prop where
  returns : onlyDisks → ∃ status, res = .ok status
  rejects : ¬ onlyDisks → ¬ goesOn → exits tr = [] ∧ ∃ status, status ≠ .ok ∧ res = .ok status
  goes : ¬ onlyDisks → goesOn → res = .error .nullDereference ∨ exits tr ≠ []

section rules

variable {onlyDisks goesOn : Prop} {status : SSI_Status}

/-- A refusal treats the devices rightly where the code does not go on. -/
theorem treats_status (hne : status ≠ .ok) (h : ¬ goesOn) : Treats onlyDisks goesOn [] (.ok status) :=
  ⟨fun _ => ⟨status, rfl⟩, fun _ _ => ⟨rfl, status, hne, rfl⟩, fun _ hgoes => absurd hgoes h⟩

/-- So does a program that refuses at once. -/
theorem treats_pure (hne : status ≠ .ok) (h : ¬ goesOn) :
    Ensures (pure status : SysProg SSI_Status) (Treats onlyDisks goesOn) :=
  ensures_pure (treats_status hne h)

/-- So does a refusal with a message. -/
theorem treats_message {message : Str} (hne : status ≠ .ok) (h : ¬ goesOn) :
    Ensures (do setLastErrorMessage message; pure status) (Treats onlyDisks goesOn) :=
  ensures_note (treats_pure hne h)

/-- So does the common refusal. -/
theorem treats_refuse (hne : status ≠ .ok) (h : ¬ goesOn) :
    Ensures (refuse status) (Treats onlyDisks goesOn) := by
  refine (refuse_ensures status).mono ?_
  rintro tr res ⟨rfl, rfl⟩
  exact treats_status hne h

/-- A list of disks only has to be answered. -/
theorem treats_of_yields {p : SysProg SSI_Status} (hdisks : onlyDisks)
    (hp : Yields p fun _ => True) : Ensures p (Treats onlyDisks goesOn) := by
  refine Ensures.mono hp ?_
  rintro tr res ⟨status, rfl, -⟩
  exact ⟨fun _ => ⟨status, rfl⟩, fun h => absurd hdisks h, fun h => absurd hdisks h⟩

/-- A program that begins with a command goes on. -/
theorem treats_shellEx_bind {cmd : Command} {linesNum offset : Nat} {f : Int → SysProg SSI_Status}
    (h : ¬ onlyDisks → goesOn) (hf : onlyDisks → ∀ r, Yields (f r) fun _ => True) :
    Ensures (shellEx cmd linesNum offset >>= f) (Treats onlyDisks goesOn) := by
  intro env i
  obtain ⟨htrace, hresult⟩ := run_shellEx_bind env i cmd linesNum offset f
  rw [htrace, hresult]
  refine ⟨fun hdisks => ?_, fun hdisks hnot => absurd (h hdisks) hnot, fun _ _ => .inr ?_⟩
  · obtain ⟨status, hstatus, -⟩ := hf hdisks _ env (i + 1)
    exact ⟨status, hstatus⟩
  · rw [exits_cons_shell]
    exact List.cons_ne_nil _ _

end rules

/-! ## The functions -/

/-- All end devices of the list are disks. -/
abbrev AllDisks (disks : List EndDevice) : Prop := ∀ d ∈ disks, d.isBlockDevice = true

/-- Where not all devices are disks there is at least one device. -/
theorem ne_nil_of_not_allDisks {disks : List EndDevice} (h : ¬ AllDisks disks) : disks ≠ [] := by
  rintro rfl
  exact h (by simp [AllDisks])

/-- A refusal returns. -/
theorem yields_refuse (status : SSI_Status) : Yields (refuse status) fun _ => True := by
  refine (refuse_ensures status).mono ?_
  rintro tr res ⟨-, rfl⟩
  exact ⟨status, rfl, trivial⟩

/-- A single command whose success is the status. -/
theorem yields_command (cmd : Command) (failed : SysProg SSI_Status)
    (hfailed : Yields failed fun _ => True) :
    Yields (do if (← shellEx cmd 1 0) = 0 then pure .ok else failed) fun _ => True := by
  apply yields_bind yields_shellEx
  intro r _
  split
  next => exact yields_pure trivial
  next => exact hfailed

namespace RaidArray

variable (a : RaidArray) (disks : List EndDevice)

/-- Removing spares returns, whatever the commands do. -/
theorem yields_removeSpares (force : Bool) (status : SSI_Status) :
    Yields (a.removeSpares force disks status) fun _ => True := by
  refine (a.removeSpares_ensures force disks status).mono ?_
  rintro tr res ⟨-, status, rfl⟩
  exact ⟨status, rfl, trivial⟩

/-- Adding spares returns, also for devices that are no disks. -/
theorem yields_addSpare : Yields (a.addSpare disks) fun _ => True := by
  refine (a.addSpare_ensures disks).mono ?_
  rintro tr res ⟨-, status, rfl⟩
  exact ⟨status, rfl, trivial⟩

/-- Growing with disks returns; the cast that may throw is done on these. -/
theorem yields_grow {disks : List EndDevice} (h : AllDisks disks) :
    Yields (a.grow disks) fun _ => True := by
  intro env i
  rcases a.grow_run disks env i with ⟨⟨-, d, hd, hnot⟩, -⟩ | ⟨-, status, hresult, -⟩
  · rw [h d hd] at hnot
    simp at hnot
  · exact ⟨status, hresult, trivial⟩

/-- A growth gets to the cast unless the container is busy. -/
theorem treats_grow : Ensures (a.grow disks) (Treats (AllDisks disks) (a.m_Busy = false)) := by
  by_cases hdisks : AllDisks disks
  · exact treats_of_yields hdisks (a.yields_grow hdisks)
  unfold grow
  split
  next hbusy => exact treats_pure (by simp) (by simp [hbusy])
  next hbusy =>
    rw [getSpareableEndDevices_eq, if_neg hdisks]
    apply ensures_throw
    exact ⟨fun h => absurd h hdisks, fun _ hnot => by simp [hbusy] at hnot, fun _ _ => .inl rfl⟩

/-- The disks are to become spares for another command: the cast comes first. -/
theorem treats_spares_then (cmd : Command) {goesOn : Prop} (h : goesOn) :
    Ensures (do
      let addedToSpare ← RaidArray.getSpareableEndDevices disks
      let status ← a.addSpare disks
      if status ≠ .ok then pure status
      else if (← shellEx cmd 1 0) = 0 then pure .ok
      else do
        let _ ← a.removeSpares true addedToSpare .ok
        pure .failed) (Treats (AllDisks disks) goesOn) := by
  rw [getSpareableEndDevices_eq]
  by_cases hdisks : AllDisks disks
  · apply treats_of_yields hdisks
    rw [if_pos hdisks, Prog.pure_bind]
    apply yields_bind (a.yields_addSpare disks)
    intro status _
    split
    next => exact yields_pure trivial
    next =>
      apply yields_command
      exact yields_bind (a.yields_removeSpares _ _ _) fun _ _ => yields_pure trivial
  · rw [if_neg hdisks]
    apply ensures_throw
    exact ⟨fun h => absurd h hdisks, fun _ hnot => absurd h hnot, fun _ _ => .inl rfl⟩

end RaidArray

namespace Volume

variable (v : Volume) (a : RaidArray) (ch : Option Nat) (stripSize : SSI_StripSize)
  (disks : List EndDevice)

/-- Level 0 to level 0: the devices are cast where the array grows. -/
theorem treats_toRaid0From0 (chunkChange : Bool) :
    Ensures (v.toRaid0From0 a chunkChange ch disks)
      (Treats (AllDisks disks)
        (chunkChange = false ∧ a.canAddEndDevices disks = .ok ∧ a.m_Busy = false)) := by
  unfold toRaid0From0
  split
  next h =>
    apply treats_of_yields
    · simp [AllDisks, List.length_eq_zero_iff.mp h.1]
    · exact yields_pure trivial
  split
  next h => exact treats_pure (by simp) (by simp [h.2])
  next hboth =>
    split
    next hsome =>
      have hchunk : chunkChange = false := by simpa [hsome] using hboth
      dsimp only
      split
      next hadd => simpa [hchunk, hadd] using a.treats_grow disks
      next hadd => exact treats_refuse hadd fun h => hadd h.2.1
    next hnone =>
      apply treats_of_yields
      · have hnil : disks = [] := by simpa using hnone
        simp [AllDisks, hnil]
      · exact yields_command _ _ (yields_pure trivial)

/-- Level 1 to level 0: the devices are cast behind the change of the level. -/
theorem treats_toRaid0From1 (chunkChange : Bool) :
    Ensures (v.toRaid0From1 a chunkChange stripSize disks)
      (Treats (AllDisks disks) (chunkChange = false ∧ stripSize = SSI_StripSize64kB ∧
        a.canAddEndDevices disks = .ok)) := by
  unfold toRaid0From1
  split
  next h => exact treats_message (by simp) (by simp [h])
  next hchunk =>
    split
    next h => exact treats_message (by simp) fun hgoes => h hgoes.2.1
    next hstrip =>
      dsimp only
      split
      next hadd =>
        refine treats_shellEx_bind (fun _ => ⟨by simpa using hchunk, by simpa using hstrip, hadd⟩) ?_
        intro hdisks r
        split
        next =>
          split
          next => exact a.yields_grow hdisks
          next => exact yields_pure trivial
        next => exact yields_refuse _
      next hadd => exact treats_refuse hadd fun h => hadd h.2.2

/-- Level 10 to level 0: the devices are cast behind the change of the level. -/
theorem treats_toRaid0From10 (chunkChange : Bool) :
    Ensures (v.toRaid0From10 a chunkChange ch disks)
      (Treats (AllDisks disks) (chunkChange = false ∧ a.canAddEndDevices disks = .ok)) := by
  unfold toRaid0From10
  split
  next h => exact treats_pure (by simp) (by simp [h.2])
  next hboth =>
    dsimp only
    split
    next hadd =>
      refine treats_shellEx_bind (fun hdisks => ⟨?_, hadd⟩) ?_
      · have hsome := List.length_pos_iff.mpr (ne_nil_of_not_allDisks hdisks)
        simpa [hsome] using hboth
      · intro hdisks r
        split
        next =>
          split
          next => exact yields_pure trivial
          split
          next => exact a.yields_grow hdisks
          next => exact yields_command _ _ (yields_refuse _)
        next => exact yields_refuse _
    next hadd => exact treats_refuse hadd fun h => hadd h.2

/-- Level 5 to level 0: no device is taken. -/
theorem treats_toRaid0From5 (chunkChange : Bool) :
    Ensures (v.toRaid0From5 chunkChange disks) (Treats (AllDisks disks) False) := by
  unfold toRaid0From5
  split
  next => exact treats_pure (by simp) id
  next hnone =>
    apply treats_of_yields
    · have hnil : disks = [] := by simpa using hnone
      simp [AllDisks, hnil]
    · split
      next => exact yields_pure trivial
      next => exact yields_command _ _ (yields_pure trivial)

/-- The requests for level 0 in which a list with another end device gets to a command or to the
cast, in the container `a`. -/
def ReachesCastTo0 : Prop :=
  v.chunkChange stripSize = false ∧ a.canAddEndDevices disks = .ok ∧
    ((v.m_RaidLevel = 0 ∧ a.m_Busy = false) ∨
      (v.m_RaidLevel = 1 ∧ stripSize = SSI_StripSize64kB) ∨ v.m_RaidLevel = 10)

/-- The requests for level 10. -/
def ReachesCastTo10 : Prop :=
  v.chunkChange stripSize = false ∧ a.canAddEndDevices disks = .ok ∧
    v.m_RaidLevel = 0 ∧ v.m_BlockDevices.length = 2 ∧ disks.length = 2

/-- The requests for level 5. -/
def ReachesCastTo5 : Prop :=
  a.canAddEndDevices disks = .ok ∧
    ((v.m_RaidLevel = 0 ∧ disks.length = 1 ∧ v.chunkArgument stripSize ≠ none) ∨
      (v.m_RaidLevel = 5 ∧ v.chunkChange stripSize = false ∧ a.m_Busy = false))

/-- All migrations to level 0: a device that is no disk is refused, unless the cast is reached. -/
theorem treats_toRaid0 :
    Ensures (v.toRaid0 stripSize disks)
      (Treats (AllDisks disks) (∃ a, v.m_pParent = some a ∧ v.ReachesCastTo0 a stripSize disks)) := by
  unfold toRaid0 ReachesCastTo0
  rcases v.m_pParent with _ | a
  · exact treats_pure (by simp) (by simp)
  simp only [Option.some.injEq, exists_eq_left']
  rcases hch : v.chunkArgument stripSize with _ | ch
  · refine treats_pure (by simp) fun h => ?_
    rw [chunkArgument_of_unchanged h.1] at hch
    simp at hch
  dsimp only
  split
  next hlevel =>
    simpa [hlevel] using v.treats_toRaid0From0 a ch disks (v.chunkChange stripSize)
  next h0 =>
    split
    next hlevel =>
      have hone := v.treats_toRaid0From1 a stripSize disks (v.chunkChange stripSize)
      simpa [hlevel, and_comm] using hone
    next h1 =>
      split
      next hlevel =>
        simpa [hlevel] using v.treats_toRaid0From10 a ch disks (v.chunkChange stripSize)
      next h10 =>
        have hnone : ¬ (v.chunkChange stripSize = false ∧ a.canAddEndDevices disks = .ok ∧
            ((v.m_RaidLevel = 0 ∧ a.m_Busy = false) ∨
              (v.m_RaidLevel = 1 ∧ stripSize = SSI_StripSize64kB) ∨ v.m_RaidLevel = 10)) := by
          simp [h0, h1, h10]
        split
        next =>
          rw [iff_of_false hnone not_false]
          exact v.treats_toRaid0From5 disks (v.chunkChange stripSize)
        next => exact treats_pure (by simp) hnone

/-- The migration to level 10: a device that is no disk is refused, unless the cast is reached. -/
theorem treats_toRaid10 :
    Ensures (v.toRaid10 stripSize disks)
      (Treats (AllDisks disks) (∃ a, v.m_pParent = some a ∧ v.ReachesCastTo10 a stripSize disks)) := by
  unfold toRaid10 ReachesCastTo10
  rcases v.m_pParent with _ | a
  · exact treats_pure (by simp) (by simp)
  simp only [Option.some.injEq, exists_eq_left']
  split
  next h => exact treats_pure (by simp) fun hgoes => by simp [hgoes.2.2] at h
  next hvolume =>
    split
    next h => exact treats_message (by simp) fun hgoes => h hgoes.2.2.2.2
    next hdisks =>
      split
      next h => exact treats_pure (by simp) fun hgoes => by simp [hgoes.1] at h
      next hchunk =>
        split
        next h => exact treats_refuse h fun hgoes => h hgoes.2.1
        next hadd =>
          rw [not_not] at hadd hdisks
          rw [not_or, not_not, not_not] at hvolume
          apply a.treats_spares_then disks
          exact ⟨by simpa using hchunk, hadd, hvolume.1, hvolume.2, hdisks⟩

/-- All migrations to level 5: a device that is no disk is refused, unless the cast is reached. -/
theorem treats_toRaid5 :
    Ensures (v.toRaid5 stripSize disks)
      (Treats (AllDisks disks) (∃ a, v.m_pParent = some a ∧ v.ReachesCastTo5 a stripSize disks)) := by
  unfold toRaid5 ReachesCastTo5
  rcases v.m_pParent with _ | a
  · exact treats_pure (by simp) (by simp)
  simp only [Option.some.injEq, exists_eq_left']
  rcases hch : v.chunkArgument stripSize with _ | ch
  · refine treats_pure (by simp) ?_
    rintro ⟨-, ⟨-, -, h⟩ | ⟨-, h, -⟩⟩
    · exact h rfl
    · rw [chunkArgument_of_unchanged h] at hch
      simp at hch
  dsimp only
  split
  next hlevel =>
    unfold toRaid5From0
    split
    next h => exact treats_message (by simp) (by simp [hlevel, h])
    next hdisks =>
      dsimp only
      split
      next h => exact treats_refuse h fun hgoes => h hgoes.1
      next hadd =>
        rw [not_not] at hadd hdisks
        apply a.treats_spares_then disks
        simp [hlevel, hadd, hdisks]
  next h0 =>
    split
    next hlevel =>
      unfold toRaid5From10
      split
      next => exact treats_message (by simp) (by simp [hlevel])
      next hnone =>
        apply treats_of_yields
        · have hnil : disks = [] := by simpa using hnone
          simp [AllDisks, hnil]
        · apply yields_bind yields_shellEx
          intro r _
          split
          next => exact yields_command _ _ (yields_pure trivial)
          next => exact yields_pure trivial
    next h10 =>
      split
      next hlevel =>
        unfold toRaid5From5
        split
        next h => exact treats_pure (by simp) (by simp [hlevel, h.2])
        next hboth =>
          split
          next hsome =>
            have hchunk : v.chunkChange stripSize = false := by simpa [hsome] using hboth
            dsimp only
            split
            next h => exact treats_refuse h fun hgoes => h hgoes.1
            next hadd =>
              rw [not_not] at hadd
              simpa [hlevel, hchunk, hadd] using a.treats_grow disks
          next hnone =>
            apply treats_of_yields
            · have hnil : disks = [] := by simpa using hnone
              simp [AllDisks, hnil]
            · exact yields_command _ _ (yields_pure trivial)
      next h5 => exact treats_pure (by simp) (by simp [h0, h5])

/-- The requests that pass the checks of `modify` and get that far. -/
def ReachesCast (info : SSI_RaidLevelInfo) (raidLevel : SSI_RaidLevel) (newSize : UInt64) : Prop :=
  v.modifyCheck info stripSize raidLevel newSize disks = none ∧ ∃ a, v.m_pParent = some a ∧
    ((raidLevel = SSI_Raid0 ∧ v.ReachesCastTo0 a stripSize disks) ∨
      (raidLevel = SSI_Raid10 ∧ v.ReachesCastTo10 a stripSize disks) ∨
      (raidLevel = SSI_Raid5 ∧ v.ReachesCastTo5 a stripSize disks))

/-- The checks of `modify` never refuse with the status of success. -/
theorem modifyCheck_ne_ok (info : SSI_RaidLevelInfo) (raidLevel : SSI_RaidLevel) (newSize : UInt64) :
    v.modifyCheck info stripSize raidLevel newSize disks ≠ some .ok := by
  unfold modifyCheck
  split
  next => simp
  next =>
    dsimp only
    split_ifs <;> simp

/-- Both `modify` and its entry point treat a device that is no disk rightly, unless the cast is
reached. -/
theorem treats_modify (info : SSI_RaidLevelInfo) (raidLevel : SSI_RaidLevel) (newSize : UInt64) :
    Ensures (v.modify info stripSize raidLevel newSize disks)
      (Treats (AllDisks disks) (v.ReachesCast stripSize disks info raidLevel newSize)) := by
  have h0_10 : SSI_Raid0 ≠ SSI_Raid10 := by simp [SSI_Raid0, SSI_Raid10]
  have h0_5 : SSI_Raid0 ≠ SSI_Raid5 := by simp [SSI_Raid0, SSI_Raid5]
  have h10_5 : SSI_Raid10 ≠ SSI_Raid5 := by simp [SSI_Raid10, SSI_Raid5]
  have hne := v.modifyCheck_ne_ok stripSize disks info raidLevel newSize
  unfold modify ReachesCast
  rcases hcheck : v.modifyCheck info stripSize raidLevel newSize disks with _ | status
  · dsimp only
    split
    next h => simpa [h, h0_10, h0_5] using v.treats_toRaid0 stripSize disks
    next h0 =>
      split
      next h => simpa [h, h0_10.symm, h10_5] using v.treats_toRaid10 stripSize disks
      next h10 =>
        split
        next h => simpa [h, h0_5.symm, h10_5.symm] using v.treats_toRaid5 stripSize disks
        next h5 => exact treats_pure (by simp) (by simp [h0, h10, h5])
  · exact treats_pure (fun h => hne (by rw [hcheck, h])) (by simp)

end Volume

/-! ## The calls -/

/-- The calls that take a list of handles of end devices. -/
inductive DiskListCall
  | SsiAddDisksToArray (arrayHandle : Nat) (diskHandles : Option (List Nat))
  | SsiRaidLevelModify (volumeHandle : Nat) (params : SSI_RaidLevelModifyParams)
  deriving DecidableEq, Repr

/-- A mapped result fails only where the result does. -/
theorem map_ne_error {ε α β : Type} {x : Except ε α} {f : α → β} {e : ε} (h : x ≠ .error e) :
    x.map f ≠ .error e := by
  rcases x with e' | a
  · exact fun heq => h (by rw [Except.error.inj heq])
  · exact nofun

namespace CallSession

variable {s : CallSession}

/-- What is refused by the loops is refused with another status than `SSI_StatusOk`. -/
theorem takeDisks_ne_ok {refusal : ListedDevice → Option SSI_Status}
    (hrefusal : ∀ d, refusal d ≠ some .ok) (handles : List Nat) :
    s.takeDisks refusal handles ≠ .error .ok := by
  induction handles with
  | nil => simp [takeDisks]
  | cons handle handles ih =>
      rw [takeDisks]
      split
      next => simp
      next d _ =>
        split
        next status hstatus =>
          rintro h
          obtain rfl := Except.error.inj h
          exact hrefusal d hstatus
        next =>
          rcases htake : s.takeDisks refusal handles with status | rest
          · rintro h
            obtain rfl := Except.error.inj h
            exact ih htake
          · simp [Except.map]

/-- The checks of the entry point never refuse with the status of success. -/
theorem checkAddDisks_ne_ok (arrayHandle : Nat) (diskHandles : Option (List Nat)) :
    s.checkAddDisks arrayHandle diskHandles ≠ .error .ok := by
  unfold checkAddDisks
  split
  next => simp
  next =>
    split
    next => simp
    next =>
      split
      next => simp
      next => simp
      next handles _ =>
        split
        next => simp
        next front _ =>
          apply map_ne_error
          apply takeDisks_ne_ok
          intro d
          unfold addRefusal
          split_ifs <;> simp

/-- The checks of the entry point never refuse with the status of success. -/
theorem checkModify_ne_ok (volumeHandle : Nat) (params : SSI_RaidLevelModifyParams) :
    s.checkModify volumeHandle params ≠ .error .ok := by
  unfold checkModify
  split
  next => simp
  next =>
    split
    next => simp
    next handles _ =>
      apply map_ne_error
      apply takeDisks_ne_ok
      intro d
      unfold modifyRefusal
      split_ifs <;> simp

/-- The devices that the checks hand on are those that the handles stand for. -/
theorem takeDisks_of_checkModify {volumeHandle : Nat} {params : SSI_RaidLevelModifyParams}
    {pVolume : ListedVolume} {container : List ListedDevice}
    (h : s.checkModify volumeHandle params = .ok (pVolume, container)) :
    ∃ refusal, s.takeDisks refusal (params.diskHandles.getD []) = .ok container := by
  unfold checkModify at h
  split at h
  next => simp at h
  next =>
    split at h
    next => simp at h
    next handles hhandles =>
      obtain ⟨devices, hdevices, hpair⟩ := map_eq_ok h
      obtain ⟨rfl, rfl⟩ := Prod.mk.inj hpair
      rw [hhandles]
      exact ⟨_, hdevices⟩

/-- The end devices that are taken are all disks where no handle is one of another end device. -/
theorem allDisks_takeDisks_iff {refusal : ListedDevice → Option SSI_Status} {handles : List Nat}
    {devices : List ListedDevice} (h : s.takeDisks refusal handles = .ok devices) :
    AllDisks (devices.map (·.toEndDevice)) ↔
      ¬ ∃ handle ∈ handles, ∃ d, s.getEndDevice handle = some d ∧ d.isBlockDevice = false := by
  constructor
  · rintro hall ⟨handle, hhandle, d, hd, hnot⟩
    have hmem := (mem_takeDisks_iff h).mpr ⟨handle, hhandle, hd⟩
    have hblock := hall _ (List.mem_map_of_mem hmem)
    rw [hnot] at hblock
    simp at hblock
  · intro hnone e he
    obtain ⟨d, hd, rfl⟩ := List.mem_map.mp he
    obtain ⟨handle, hhandle, hget⟩ := (mem_takeDisks_iff h).mp hd
    by_contra hnot
    exact hnone ⟨handle, hhandle, d, hget, by simpa using hnot⟩

end CallSession

namespace DiskListCall

variable (s : CallSession) (info : SSI_RaidLevelInfo)

/-- The program of a call in the session that it has opened. -/
def prog : DiskListCall → SysProg SSI_Status
  | SsiAddDisksToArray arrayHandle diskHandles =>
      Irstessi.SsiAddDisksToArray s arrayHandle diskHandles
  | SsiRaidLevelModify volumeHandle params =>
      Irstessi.SsiRaidLevelModify s info volumeHandle params

/-- The handles of a call; `NULL` holds none. -/
def handles : DiskListCall → List Nat
  | SsiAddDisksToArray _ diskHandles => diskHandles.getD []
  | SsiRaidLevelModify _ params => params.diskHandles.getD []

/-- A handle of the call is one of an end device that is no disk. -/
def NamesNonDisk (call : DiskListCall) : Prop :=
  ∃ handle ∈ call.handles, ∃ d, s.getEndDevice handle = some d ∧ d.isBlockDevice = false

/-- In every run no null pointer is dereferenced; where an end device is named that is no disk the
status is another than `SSI_StatusOk` and no command is issued. -/
def RejectsNonDisks (call : DiskListCall) : Prop :=
  ∀ env i, ((call.prog s info).run env i).result ≠ .error .nullDereference ∧
    (call.NamesNonDisk s →
      (∃ status, status ≠ .ok ∧ ((call.prog s info).run env i).result = .ok status) ∧
        exits ((call.prog s info).run env i).trace = [])

/-- The call gets to a command or to the cast if an end device of the list is no disk. -/
def ReachesCast : DiskListCall → Prop
  | SsiAddDisksToArray arrayHandle diskHandles =>
      ∃ a container, s.checkAddDisks arrayHandle diskHandles = .ok (a, container) ∧
        a.m_Busy = false
  | SsiRaidLevelModify volumeHandle params =>
      ∃ v container, s.checkModify volumeHandle params = .ok (v, container) ∧
        v.toVolume.ReachesCast params.newStripSize (container.map (·.toEndDevice)) info
          params.newRaidLevel params.newSizeInBytes

variable {s info}

/-- The call that adds disks treats a device that is no disk rightly, unless the cast is reached. -/
theorem treats_addDisks (arrayHandle : Nat) (diskHandles : Option (List Nat)) :
    Ensures (prog s info (SsiAddDisksToArray arrayHandle diskHandles))
      (Treats (¬ NamesNonDisk s (SsiAddDisksToArray arrayHandle diskHandles))
        (ReachesCast s info (SsiAddDisksToArray arrayHandle diskHandles))) := by
  show Ensures (Irstessi.SsiAddDisksToArray s arrayHandle diskHandles) _
  unfold Irstessi.SsiAddDisksToArray
  rcases hcheck : s.checkAddDisks arrayHandle diskHandles with status | ⟨a, container⟩
  · have hne : status ≠ .ok := fun h => CallSession.checkAddDisks_ne_ok _ _ (by rw [hcheck, h])
    refine treats_pure hne ?_
    rintro ⟨a, container, h, -⟩
    rw [hcheck] at h
    simp at h
  · obtain ⟨refusal, htake⟩ := CallSession.takeDisks_of_checkAddDisks hcheck
    have hgrow := a.treats_grow (container.map (·.toEndDevice))
    rw [CallSession.allDisks_takeDisks_iff htake] at hgrow
    have hreaches : ReachesCast s info (SsiAddDisksToArray arrayHandle diskHandles) ↔
        a.m_Busy = false := by
      constructor
      · rintro ⟨a', container', h, hidle⟩
        obtain ⟨rfl, rfl⟩ := Prod.mk.inj (Except.ok.inj (hcheck.symm.trans h))
        exact hidle
      · exact fun hidle => ⟨a, container, hcheck, hidle⟩
    rw [hreaches]
    refine ensures_attempt_bind hgrow (fun tr status h => ?_) (fun tr e h => ?_) fun tr fault _ h => ?_
    · apply ensures_pure
      rw [List.append_nil]
      exact h
    · apply ensures_pure
      rw [List.append_nil]
      refine ⟨fun _ => ⟨_, rfl⟩, fun hnames hidle => ?_, fun hnames hidle => .inr ?_⟩
      · obtain ⟨-, status, -, hres⟩ := h.rejects hnames hidle
        simp at hres
      · exact (h.goes hnames hidle).resolve_left (by simp)
    · refine ⟨fun honly => ?_, fun hnames hidle => ?_, fun hnames hidle => ?_⟩
      · obtain ⟨status, hres⟩ := h.returns honly
        simp at hres
      · obtain ⟨-, status, -, hres⟩ := h.rejects hnames hidle
        simp at hres
      · exact (h.goes hnames hidle).imp_left fun hres => by rw [Except.error.inj hres]

/-- A migration treats a list with an end device that is no disk as its checks and `ReachesCast`
tell. -/
theorem treats_modify (volumeHandle : Nat) (params : SSI_RaidLevelModifyParams) :
    Ensures (prog s info (SsiRaidLevelModify volumeHandle params))
      (Treats (¬ NamesNonDisk s (SsiRaidLevelModify volumeHandle params))
        (ReachesCast s info (SsiRaidLevelModify volumeHandle params))) := by
  show Ensures (Irstessi.SsiRaidLevelModify s info volumeHandle params) _
  unfold Irstessi.SsiRaidLevelModify
  rcases hcheck : s.checkModify volumeHandle params with status | ⟨v, container⟩
  · have hne : status ≠ .ok := fun h => CallSession.checkModify_ne_ok _ _ (by rw [hcheck, h])
    refine treats_pure hne ?_
    rintro ⟨v, container, h, -⟩
    rw [hcheck] at h
    simp at h
  · obtain ⟨refusal, htake⟩ := CallSession.takeDisks_of_checkModify hcheck
    have hmodify := v.treats_modify params.newStripSize (container.map (·.toEndDevice)) info
      params.newRaidLevel params.newSizeInBytes
    rw [CallSession.allDisks_takeDisks_iff htake] at hmodify
    have hreaches : ReachesCast s info (SsiRaidLevelModify volumeHandle params) ↔
        v.toVolume.ReachesCast params.newStripSize (container.map (·.toEndDevice)) info
          params.newRaidLevel params.newSizeInBytes := by
      constructor
      · rintro ⟨v', container', h, hgoes⟩
        obtain ⟨rfl, rfl⟩ := Prod.mk.inj (Except.ok.inj (hcheck.symm.trans h))
        exact hgoes
      · exact fun hgoes => ⟨v, container, hcheck, hgoes⟩
    rw [hreaches]
    exact hmodify

/-- Both calls together. -/
theorem treats_call (s : CallSession) (info : SSI_RaidLevelInfo) (call : DiskListCall) :
    Ensures (call.prog s info) (Treats (¬ call.NamesNonDisk s) (call.ReachesCast s info)) := by
  cases call with
  | SsiAddDisksToArray arrayHandle diskHandles => exact treats_addDisks arrayHandle diskHandles
  | SsiRaidLevelModify volumeHandle params => exact treats_modify volumeHandle params

end DiskListCall

/-- **An end device that is no disk is rejected** exactly where the call does not get to a command or to
the cast with it. In the calls that do get there a null pointer is dereferenced, or a command has been
issued before, in every environment. To reject means that no command is issued and a status other than
`SSI_StatusOk` is returned. -/
theorem rejectsNonDisks_iff (s : CallSession) (info : SSI_RaidLevelInfo) (call : DiskListCall) :
    call.RejectsNonDisks s info ↔ ¬ (call.NamesNonDisk s ∧ call.ReachesCast s info) := by
  constructor
  · rintro hrejects ⟨hnames, hreaches⟩
    let env : SysEnv := fun _ _ => Classical.choice inferInstance
    obtain ⟨hnull, hstatus⟩ := hrejects env 0
    rcases (DiskListCall.treats_call s info call env 0).goes (not_not.mpr hnames) hreaches with h | h
    · exact hnull h
    · exact h (hstatus hnames).2
  · intro hnot env i
    have htreats := DiskListCall.treats_call s info call env i
    by_cases hnames : call.NamesNonDisk s
    · obtain ⟨hexits, status, hne, hresult⟩ :=
        htreats.rejects (not_not.mpr hnames) fun hreaches => hnot ⟨hnames, hreaches⟩
      exact ⟨by simp [hresult], fun _ => ⟨⟨status, hne, hresult⟩, hexits⟩⟩
    · obtain ⟨status, hresult⟩ := htreats.returns hnames
      exact ⟨by simp [hresult], fun h => absurd h hnames⟩

section sample

/-- A CD-ROM of 512-byte sectors is named for a container that is not busy. -/
theorem not_rejectsNonDisks_cdrom :
    ¬ ∀ (s : CallSession) (info : SSI_RaidLevelInfo) (call : DiskListCall),
      call.RejectsNonDisks s info := by
  intro hrejects
  let disk (name : Str) (usage : SSI_DiskUsage) : ListedDevice :=
    ⟨sampleDisk name usage, 1024 * 1024 * 1024, 512, false, []⟩
  let cdrom : ListedDevice :=
    ⟨{ sampleDisk (.ofLit "sr0") .unknown with isBlockDevice := false, array := none }, 0, 512, false, []⟩
  let members := [disk (.ofLit "sda") .arrayMember, disk (.ofLit "sdb") .arrayMember]
  let a : ListedArray := ⟨sampleArray, [], members, rfl⟩
  let s : CallSession := ⟨[(3, cdrom)], [(2, a)], [], 4⟩
  have hrun := hrejects s sampleInfo (.SsiAddDisksToArray 2 (some [3])) (Volume.constantExit 0) 0
  exact hrun.1 rfl

end sample

end Irstessi
