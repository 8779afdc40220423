import Irstessi.MdStates
import Irstessi.FileWrite
import Mathlib.Logic.Relation

/-!
# Verification of a volume

`SsiVolumeVerify` and `SsiVolumeCancelVerify` discover the volume and write the action that md shall
take, or not, as the state tells them. Between two calls md does what it likes: it may begin and end
actions, lose and gain members, and take the volume to another level. At the levels that discovery tells
apart a missing member keeps a verification from being begun. A volume that md runs at raid4, which a
RAID0 volume becomes while it is grown, is shown in normal state although it misses one.

* `Volume.verifyProg`, `Volume.cancelVerifyProg`, `SsiVolumeVerify`, `SsiVolumeCancelVerify`: the
  functions; `verify_eq_run`: the first two with what the system calls of the write return.
* `MdHistory`: the volume with the writes that it has got, each with what md did then.
* `MdHistory.Step`: a call, or what md does by itself.
* **`proper_of_calls`**: no verification begins on a volume that has something else to do, or that
  misses a member at level 1, 5, 6 or 10, and nothing but a verification is ever cancelled.
* `shown_verify`: a verification is shown, and cancelling it leads back. `shown_raid4`: the volume that
  misses a member and is verified all the same.
-/

namespace Irstessi

open Interact

/-! ## The functions -/

/-- A text is written to a file. -/
structure SyncWrite where
  path : Str
  text : Str
  deriving DecidableEq, Repr

/-- Whether `operator <<` has not thrown. -/
abbrev SyncReply (_ : SyncWrite) : Type := Bool

abbrev SyncProg : Type → Type := Prog SyncWrite SyncReply Empty Empty

namespace Volume

/-- What both functions do with `md/sync_action`.
Source: `volume.cpp` `Volume::verify`, `cancelVerify` -/
def writeAction (v : Volume) (text : Str) : SyncProg SSI_Status :=
  .call ⟨v.attributePath "/md/sync_action", text⟩ fun written => .pure (if written then .ok else .failed)

/-- Source: `volume.cpp` `Volume::verify` -/
def verifyProg (v : Volume) (repair : Bool) : SyncProg SSI_Status :=
  if v.m_RaidLevel = 0 then .pure .notSupported else v.writeAction (syncAction repair)

/-- Source: `volume.cpp` `Volume::cancelVerify` -/
def cancelVerifyProg (v : Volume) : SyncProg SSI_Status := v.writeAction (.ofLit "idle")

variable {v : Volume} {answers : FileAnswers} {written : Bool}

/-- Where the write comes to an end, its result decides. -/
theorem result_writeAction (v : Volume) (text : Str)
    (hwritten : (File.write text answers).1.caught true false = some written) :
    ((v.writeAction text).run (fun _ _ => written) 0).result.toOption =
      (File.write text answers).1.caught .ok .failed := by
  rcases h : (File.write text answers).1 with e | _ | _ <;> rw [h] at hwritten
  · obtain rfl := Option.some.inj hwritten
    rfl
  · obtain rfl := Option.some.inj hwritten
    rfl
  · cases hwritten

/-- The function on answers is the run of the program that writes the file; the write is the only thing
that it asks of the system. -/
theorem verify_eq_run (repair : Bool)
    (hwritten : (File.write (syncAction repair) answers).1.caught true false = some written) :
    ((v.verifyProg repair).run (fun _ _ => written) 0).result.toOption = (v.verify repair answers).1 := by
  unfold verifyProg verify
  split
  · rfl
  · exact result_writeAction v _ hwritten

/-- Cancelling as a function on answers is the run of the program, as for `verify`. -/
theorem cancelVerify_eq_run
    (hwritten : (File.write (.ofLit "idle") answers).1.caught true false = some written) :
    (v.cancelVerifyProg.run (fun _ _ => written) 0).result.toOption = (cancelVerify answers).1 :=
  result_writeAction v _ hwritten

end Volume

/-- `temp` is what `getTempSession` does, with the volume that `getItem` finds.
Source: `src/volume.cpp` `SsiVolumeVerify` -/
def SsiVolumeVerify (temp : Except SSI_Status (Option Volume)) (repair : Bool) : SyncProg SSI_Status :=
  match temp with
  | .error status => .pure status
  | .ok none => .pure .invalidHandle
  | .ok (some v) => if v.m_State ≠ .normal then .pure .invalidState else v.verifyProg repair

/-- Source: `src/volume.cpp` `SsiVolumeCancelVerify` -/
def SsiVolumeCancelVerify (temp : Except SSI_Status (Option Volume)) : SyncProg SSI_Status :=
  match temp with
  | .error status => .pure status
  | .ok none => .pure .invalidHandle
  | .ok (some v) =>
      if v.m_State ≠ .verifying ∧ v.m_State ≠ .verifyingAndFix then .pure .invalidState
      else v.cancelVerifyProg

/-! ## What md does -/

namespace SyncAction

/-- The actions that may be written. -/
def ofText (text : Str) : Option SyncAction :=
  if text = .ofLit "check" then some check
  else if text = .ofLit "repair" then some repair
  else if text = .ofLit "idle" then some idle
  else none

end SyncAction

/-- A volume, and the actions that have been written for it with what md did then. -/
structure MdHistory where
  volume : MdState
  written : List (SyncAction × MdState)

/-- md takes the action, and what it did ends. -/
def MdState.take (s : MdState) (action : SyncAction) : MdState := { s with action := action }

namespace MdHistory

variable (h : MdHistory)

/-- An action is written. -/
def write (action : SyncAction) : MdHistory where
  volume := h.volume.take action
  written := h.written ++ [(action, h.volume)]

/-- What a call does to the volume, which has the attribute of that path. -/
def apply (path : Str) : Event SyncWrite SyncReply → MdHistory
  | ⟨⟨path', text⟩, true⟩ =>
      if path' = path then
        match SyncAction.ofText text with
        | some action => h.write action
        | none => h
      else h
  | _ => h

def after (path : Str) (tr : List (Event SyncWrite SyncReply)) : MdHistory :=
  tr.foldl (fun h e => h.apply path e) h

/-- The volume that a call finds is what discovery makes of the one that md runs. -/
def Shows (v : Volume) : Prop :=
  ∃ (path : Str) (ordinal : UInt32) (env : SysEnv),
    ((Volume.ofPath path ordinal).discover.run env 0).result = .ok v ∧ h.volume.Answers v.m_Path env

/-- A call that finds the volume, or what md does by itself, which is anything but a write. -/
inductive Step : MdHistory → MdHistory → Prop
  | verify {h : MdHistory} (v : Volume) (repair : Bool) (env : Env SyncWrite SyncReply) : h.Shows v →
      Step h (h.after (v.attributePath "/md/sync_action")
        ((SsiVolumeVerify (.ok (some v)) repair).run env 0).trace)
  | cancelVerify {h : MdHistory} (v : Volume) (env : Env SyncWrite SyncReply) : h.Shows v →
      Step h (h.after (v.attributePath "/md/sync_action")
        ((SsiVolumeCancelVerify (.ok (some v))).run env 0).trace)
  | goes {h h' : MdHistory} : h'.written = h.written → Step h h'

end MdHistory

/-- What may be written: a verification where md runs the volume at a redundant level and is idle, with no
member missing unless the level is raid4, and `idle` where it verifies. -/
def ProperWrite (x : SyncAction × MdState) : Prop :=
  (x.1 = .check ∨ x.1 = .repair) ∧ x.2.level.redundant = true ∧ x.2.action = .idle ∧
      (x.2.level ≠ .raid4 → x.2.missing = 0) ∨
    x.1 = .idle ∧ (x.2.action = .check ∨ x.2.action = .repair)

/-- Everything that has been written may be. -/
def MdHistory.Proper (h : MdHistory) : Prop := ∀ x ∈ h.written, ProperWrite x

section calls

variable {h : MdHistory} {v : Volume}

/-- A session that shows the history's volume shows it in the sense of the states of md. -/
theorem MdHistory.Shows.shownBy (hshows : h.Shows v) : h.volume.ShownBy v := by
  obtain ⟨path, ordinal, env, hrun, hanswers⟩ := hshows
  exact Volume.shownBy_discovered hrun hanswers

/-- A write is made of the action, or nothing happens. -/
theorem after_writeAction (h : MdHistory) (v : Volume) {text : Str} {action : SyncAction}
    (htext : SyncAction.ofText text = some action) (env : Env SyncWrite SyncReply) :
    h.after (v.attributePath "/md/sync_action") ((v.writeAction text).run env 0).trace = h ∨
      h.after (v.attributePath "/md/sync_action") ((v.writeAction text).run env 0).trace =
        h.write action := by
  unfold Volume.writeAction
  rcases hreply : env 0 ⟨v.attributePath "/md/sync_action", text⟩ with _ | _
  · left
    rw [Prog.run_call, hreply]
    rfl
  · right
    rw [Prog.run_call, hreply]
    show h.apply _ ⟨⟨v.attributePath "/md/sync_action", text⟩, true⟩ = _
    simp only [MdHistory.apply, if_true, htext]

/-- What a verification writes is proper. -/
theorem after_SsiVolumeVerify (hshows : h.Shows v) (repair : Bool) (env : Env SyncWrite SyncReply) :
    h.after (v.attributePath "/md/sync_action") ((SsiVolumeVerify (.ok (some v)) repair).run env 0).trace =
        h ∨
      ∃ action, ProperWrite (action, h.volume) ∧
        h.after (v.attributePath "/md/sync_action")
          ((SsiVolumeVerify (.ok (some v)) repair).run env 0).trace = h.write action := by
  unfold SsiVolumeVerify
  dsimp only
  split
  · exact .inl rfl
  next hnormal =>
    rw [not_not] at hnormal
    have hshown := hshows.shownBy.state.resolve_left (by rw [hnormal]; simp)
    have hlevel := hshows.shownBy.level (by rw [hnormal]; simp)
    unfold Volume.verifyProg
    split
    · exact .inl rfl
    next hnonzero =>
      -- a level without redundancy is number 0
      have hredundant : h.volume.level.redundant = true := by
        by_contra hplain
        rw [MdLevel.number_of_not_redundant (Bool.eq_false_of_not_eq_true hplain)] at hlevel
        exact hnonzero hlevel
      obtain ⟨hidle, hknown⟩ := MdState.of_shown_normal hredundant (hshown.symm.trans hnormal)
      have hmissing : h.volume.level ≠ .raid4 → h.volume.missing = 0 := fun hne =>
        hknown (MdLevel.known_of_ne hne)
      cases repair with
      | false =>
          have htext : SyncAction.ofText (.ofLit "check") = some .check := by decide
          refine (after_writeAction h v htext env).imp id fun hwritten => ⟨.check, ?_, hwritten⟩
          exact .inl ⟨.inl rfl, hredundant, hidle, hmissing⟩
      | true =>
          have htext : SyncAction.ofText (.ofLit "repair") = some .repair := by decide
          refine (after_writeAction h v htext env).imp id fun hwritten => ⟨.repair, ?_, hwritten⟩
          exact .inl ⟨.inr rfl, hredundant, hidle, hmissing⟩

/-- What the end of a verification writes is proper. -/
theorem after_SsiVolumeCancelVerify (hshows : h.Shows v) (env : Env SyncWrite SyncReply) :
    h.after (v.attributePath "/md/sync_action") ((SsiVolumeCancelVerify (.ok (some v))).run env 0).trace =
        h ∨
      ∃ action, ProperWrite (action, h.volume) ∧
        h.after (v.attributePath "/md/sync_action")
          ((SsiVolumeCancelVerify (.ok (some v))).run env 0).trace = h.write action := by
  unfold SsiVolumeCancelVerify
  dsimp only
  split
  · exact .inl rfl
  next hverifying =>
    have hstate : v.m_State = .verifying ∨ v.m_State = .verifyingAndFix := by
      by_contra hne
      exact hverifying (not_or.mp hne)
    have hshown := hshows.shownBy.state.resolve_left (by
      rcases hstate with hstate | hstate <;> rw [hstate] <;> simp)
    rw [hshown] at hstate
    have htext : SyncAction.ofText (.ofLit "idle") = some .idle := by decide
    refine (after_writeAction h v htext env).imp id fun hwritten => ⟨.idle, ?_, hwritten⟩
    exact .inr ⟨rfl, MdState.verifies_of_shown hstate⟩

/-- A step writes nothing, or one action that is proper. -/
theorem MdHistory.Step.written {h' : MdHistory} (hstep : h.Step h') :
    h'.written = h.written ∨
      ∃ action, ProperWrite (action, h.volume) ∧ h'.written = h.written ++ [(action, h.volume)] := by
  cases hstep with
  | verify v repair env hshows =>
      rcases after_SsiVolumeVerify hshows repair env with hkept | ⟨action, hproper, hwritten⟩
      · exact .inl (by rw [hkept])
      · exact .inr ⟨action, hproper, by rw [hwritten]; rfl⟩
  | cancelVerify v env hshows =>
      rcases after_SsiVolumeCancelVerify hshows env with hkept | ⟨action, hproper, hwritten⟩
      · exact .inl (by rw [hkept])
      · exact .inr ⟨action, hproper, by rw [hwritten]; rfl⟩
  | goes hwritten => exact .inl hwritten

end calls

/-- **Verifications disturb nothing.** Whatever calls are made, and whatever md does between them, a
verification begins only where md is idle and, at the levels 1, 5, 6 and 10, no member is missing, and
`idle` is written only where md verifies. -/
theorem proper_of_calls {h h' : MdHistory} (hproper : h.Proper)
    (hruns : Relation.ReflTransGen MdHistory.Step h h') : h'.Proper := by
  induction hruns with
  | refl => exact hproper
  | tail _ hstep ih =>
      rcases hstep.written with hkept | ⟨action, haction, hwritten⟩
      · unfold MdHistory.Proper
        rw [hkept]
        exact ih
      · intro x hx
        rw [hwritten] at hx
        rcases List.mem_append.mp hx with hx | hx
        · exact ih x hx
        · obtain rfl := List.mem_singleton.mp hx
          exact haction

/-- The mirror is repaired, once. -/
theorem proper_of_calls_mirror : ∃ h : MdHistory, h.written = [(.repair, mirror)] ∧ h.Proper := by
  have hshows : MdHistory.Shows ⟨mirror, []⟩ mirrorVolume := by
    obtain ⟨path, ordinal, env, -, hrun, hanswers, -⟩ := bootDiscoveredAs_mirror
    exact ⟨path, ordinal, env, hrun, hanswers⟩
  refine ⟨_, ?_, proper_of_calls (h := ⟨mirror, []⟩) (fun x hx => absurd hx List.not_mem_nil)
    (.single (.verify mirrorVolume true (fun _ _ => true) hshows))⟩
  decide +kernel

/-! ## There and back -/

/-- A verification of a redundant volume that is whole is shown as one, and `idle` takes the volume back. -/
theorem shown_verify {s : MdState} (hredundant : s.level.redundant = true) (hidle : s.action = .idle)
    (hmissing : s.missing = 0) (repair : Bool) :
    (s.take (if repair then .repair else .check)).shown =
        (if repair then .verifyingAndFix else .verifying) ∧
      (s.take (if repair then .repair else .check)).take .idle = s ∧ s.shown = .normal := by
  have hlevel : ¬ s.level.redundant = false := by rw [hredundant]; simp
  refine ⟨?_, ?_, ?_⟩
  · unfold MdState.shown MdState.take
    rw [if_neg hlevel]
    cases repair <;> rfl
  · unfold MdState.take
    rw [← hidle]
  · unfold MdState.shown
    rw [if_neg hlevel, hidle, hmissing, if_pos (.inr rfl)]
    exact if_neg (by simp)

/-- A volume at raid4 that misses a member and is idle is shown in normal state, so that a verification
is begun. -/
theorem shown_raid4 {s : MdState} (hlevel : s.level = .raid4) (hidle : s.action = .idle) :
    s.shown = .normal := by
  unfold MdState.shown degradedState
  rw [hlevel, hidle]
  simp [MdLevel.redundant, SyncAction.state, MdLevel.number]

end Irstessi
