import Irstessi.Numerals
import Irstessi.Scans
import Irstessi.SystemDevice

/-!
# What md shows of a volume

A volume is a RAID set that the kernel runs; what discovery makes of it rests on the files below `md/`
in its directory: the level, what is being synchronised, and how many members are missing. The library
tells five levels apart. While a RAID0 volume is grown md runs it at a sixth, raid4, which discovery
takes for none of them, and whose missing members it does not see.

* `MdLevel`, `SyncAction`, `MdState`: a volume as md runs it. `MdLevel.redundant` are the levels that go
  on without a member, `MdLevel.known` those that the library tells apart.
* `MdState.Answers`: an environment that shows it under `md/` of a path. Levels without redundancy have
  no files for synchronisation.
* `MdState.shown`: the state that discovery makes of it; `of_shown_normal` and `verifies_of_shown` say
  what follows where that is a normal state or a verification.
* `gives_discoverAttributes`, `shownBy_discovered`: level and state of a volume that is discovered.
* **`of_bootDiscoveredAs`**: the volume that `/boot` lies on is a system volume, and misses no member
  where it is in normal state at a redundant level that the library tells apart.
-/

namespace Irstessi

open Interact

/-! ## Volumes of md -/

/-- The RAID levels at which md runs a volume; raid4 is that of a RAID0 volume while it is grown. -/
inductive MdLevel
  | raid0
  | raid1
  | raid4
  | raid5
  | raid6
  | raid10
  deriving DecidableEq, Repr

namespace MdLevel

/-- The text of `md/level`. -/
def text : MdLevel → List UInt8
  | raid0 => lit "raid0"
  | raid1 => lit "raid1"
  | raid4 => lit "raid4"
  | raid5 => lit "raid5"
  | raid6 => lit "raid6"
  | raid10 => lit "raid10"

/-- The number that discovery gives to the level; raid4 is none that it tells apart.
Source: `volume.cpp` `Volume::getRaidLevel` -/
def number : MdLevel → UInt32
  | raid0 => 0
  | raid1 => 1
  | raid4 => 0xffffffff
  | raid5 => 5
  | raid6 => 6
  | raid10 => 10

/-- Whether a volume of the level goes on without one of its members. -/
def redundant : MdLevel → Bool
  | raid0 => false
  | raid1 | raid4 | raid5 | raid6 | raid10 => true

/-- Whether discovery tells the level apart. -/
def known : MdLevel → Bool
  | raid4 => false
  | raid0 | raid1 | raid5 | raid6 | raid10 => true

/-- Level 4 is the only one of these levels that `getRaidLevel` does not know. -/
theorem known_of_ne {l : MdLevel} (h : l ≠ .raid4) : l.known = true := by
  cases l with
  | raid4 => exact absurd rfl h
  | _ => rfl

/-- A level without redundancy is shown as level 0. -/
theorem number_of_not_redundant {l : MdLevel} (h : l.redundant = false) : l.number = 0 := by
  cases l with
  | raid0 => rfl
  | _ => cases h

end MdLevel

/-- What md does with a volume that is redundant. -/
inductive SyncAction
  | resync
  | recover
  | idle
  | check
  | repair
  | reshape
  | frozen
  deriving DecidableEq, Repr

namespace SyncAction

/-- The text of `md/sync_action`. -/
def text : SyncAction → List UInt8
  | resync => lit "resync"
  | recover => lit "recover"
  | idle => lit "idle"
  | check => lit "check"
  | repair => lit "repair"
  | reshape => lit "reshape"
  | frozen => lit "frozen"

/-- The state of the volume, as far as the action tells it. -/
def state : SyncAction → SSI_VolumeState
  | resync => .initializing
  | recover => .rebuilding
  | idle => .normal
  | check => .verifying
  | repair => .verifyingAndFix
  | reshape => .generalMigration
  | frozen => .unknown

end SyncAction

/-- A volume with the device names of its members and the number of those that it misses. -/
structure MdState where
  level : MdLevel
  action : SyncAction
  members : List (List UInt8)
  /-- No disk is a member twice. -/
  nodup : members.Nodup
  missing : Nat
  deriving DecidableEq, Repr

namespace MdState

/-- The attributes under the path show the volume. The files of the action and of the number of missing
members are there for redundant levels and missing for others. -/
structure Answers (s : MdState) (path : Str) (env : SysEnv) : Prop where
  level : ∀ i, env i (.readAttribute (path ++ Str.ofLit "/md/level")) = some (s.level.text ++ lit "\n")
  action : s.level.redundant = true → ∀ i,
    env i (.readAttribute (path ++ Str.ofLit "/md/sync_action")) = some (s.action.text ++ lit "\n")
  degraded : s.level.redundant = true → ∀ i,
    env i (.readAttribute (path ++ Str.ofLit "/md/degraded")) = some (decimal s.missing ++ lit "\n")
  absent : s.level.redundant = false → ∀ i,
    env i (.readAttribute (path ++ Str.ofLit "/md/sync_action")) = none ∧
      env i (.readAttribute (path ++ Str.ofLit "/md/degraded")) = none
  bounded : s.missing < 2 ^ 31

/-- The state that discovery makes of the volume, unless it is read-only. -/
def shown (s : MdState) : SSI_VolumeState :=
  if s.level.redundant = false then .normal
  else if s.action.state = .unknown ∨ s.action.state = .normal then
    degradedState s.level.number s.missing s.action.state
  else s.action.state

/-- A volume with the level and the state of the one that md runs; the level of one that is migrated is
that of the target. -/
structure ShownBy (s : MdState) (v : Volume) : Prop where
  level : v.m_State ≠ .generalMigration → v.m_RaidLevel = s.level.number
  state : v.m_State = .locked ∨ v.m_State = s.shown

/-- Missing members turn a state into one of two, or leave it. -/
theorem degradedState_cases (level : UInt32) (degraded : Int) (state : SSI_VolumeState) :
    degradedState level degraded state = .failed ∨ degradedState level degraded state = .degraded ∨
      degradedState level degraded state = state := by
  unfold degradedState
  split
  · split
    · split
      · exact .inl rfl
      · exact .inr (.inl rfl)
    split
    · split
      · exact .inl rfl
      · exact .inr (.inl rfl)
    · exact .inr (.inr rfl)
  · exact .inr (.inr rfl)

/-- At the redundant levels that discovery tells apart missing members count. -/
theorem degradedState_of_pos {l : MdLevel} (hl : l.redundant = true) (hknown : l.known = true) {n : Nat}
    (hn : 0 < n) (state : SSI_VolumeState) :
    degradedState l.number n state = .failed ∨ degradedState l.number n state = .degraded := by
  unfold degradedState
  rw [if_pos (by omega)]
  cases l with
  | raid0 => cases hl
  | raid4 => cases hknown
  | raid1 | raid5 =>
      rw [if_pos (by decide)]
      split
      · exact .inl rfl
      · exact .inr rfl
  | raid6 | raid10 =>
      rw [if_neg (by decide), if_pos (by decide)]
      split
      · exact .inl rfl
      · exact .inr rfl

/-- A redundant volume that is shown in normal state is idle, and misses no member where its level is one
that discovery tells apart. -/
theorem of_shown_normal {s : MdState} (hredundant : s.level.redundant = true) (h : s.shown = .normal) :
    s.action = .idle ∧ (s.level.known = true → s.missing = 0) := by
  have hlevel : ¬ s.level.redundant = false := by rw [hredundant]; simp
  unfold shown at h
  rw [if_neg hlevel] at h
  by_cases hstate : s.action.state = .unknown ∨ s.action.state = .normal
  · rw [if_pos hstate] at h
    constructor
    · -- of the states that are left by missing members only that of an idle volume is normal
      have hnormal : s.action.state = .normal := by
        rcases degradedState_cases s.level.number s.missing s.action.state with hbad | hbad | hkept
        · rw [hbad] at h
          cases h
        · rw [hbad] at h
          cases h
        · exact hkept.symm.trans h
      rcases haction : s.action with _ | _ | _ | _ | _ | _ | _
      case idle => rfl
      all_goals
        rw [haction] at hnormal
        cases hnormal
    · intro hknown
      rcases Nat.eq_zero_or_pos s.missing with hzero | hpos
      · exact hzero
      · rcases degradedState_of_pos hredundant hknown hpos s.action.state with hbad | hbad <;>
          rw [hbad] at h <;> cases h
  · rw [if_neg hstate] at h
    exact absurd (.inr h) hstate

/-- Where discovery finds that the volume is verified, md verifies it. -/
theorem verifies_of_shown {s : MdState} (hshown : s.shown = .verifying ∨ s.shown = .verifyingAndFix) :
    s.action = .check ∨ s.action = .repair := by
  unfold shown at hshown
  by_cases hredundant : s.level.redundant = false
  · rw [if_pos hredundant] at hshown
    simp at hshown
  rw [if_neg hredundant] at hshown
  by_cases hstate : s.action.state = .unknown ∨ s.action.state = .normal
  · -- such a volume is shown as failed, as degraded or by this state
    rw [if_pos hstate] at hshown
    rcases degradedState_cases s.level.number s.missing s.action.state with h | h | h <;>
      rw [h] at hshown
    · simp at hshown
    · simp at hshown
    · rcases hstate with hstate | hstate <;> rw [hstate] at hshown <;> simp at hshown
  · rw [if_neg hstate] at hshown
    rcases haction : s.action with _ | _ | _ | _ | _ | _ | _
    case check => exact .inl rfl
    case repair => exact .inr rfl
    all_goals
      rw [haction] at hshown
      simp [SyncAction.state] at hshown

end MdState

/-! ## Texts -/

/-- What md writes for a level is read as the number of this level. -/
theorem getRaidLevel_text (l : MdLevel) :
    getRaidLevel (Str.ofBytes (l.text ++ lit "\n")).trim = l.number := by
  cases l <;> decide +kernel

/-- What md writes for an action is read as the state that stands for it. -/
theorem syncState_text (a : SyncAction) : syncState (Str.ofBytes (a.text ++ lit "\n")).trim = a.state := by
  cases a <;> decide +kernel

/-- The digits end at a byte that is none. -/
theorem digits_append_of_none {base : Nat} {b : UInt8} (hb : Str.digitValue base b = none) (acc : Nat)
    (u v : List UInt8) : Str.digits base acc (u ++ b :: v) = Str.digits base acc u := by
  induction u generalizing acc with
  | nil => simp only [List.nil_append, Str.digits, hb]
  | cons a u ih =>
      rw [List.cons_append, Str.digits, Str.digits]
      rcases Str.digitValue base a with _ | d
      · rfl
      · exact ih _

/-- A number that md writes, with its line end, is read back. -/
theorem numeral_line (n : Nat) : Str.numeral (decimal n ++ lit "\n") = (false, n) := by
  rcases Nat.eq_zero_or_pos n with rfl | hn
  · decide
  · obtain ⟨b, rest, hcons⟩ := List.exists_cons_of_ne_nil (decimal_ne_nil n)
    obtain ⟨hlow, hhigh⟩ := digit_of_mem_decimal (n := n) (b := b) (by rw [hcons]; simp)
    have hzero : b ≠ 48 := head_decimal hn b (by rw [hcons]; rfl)
    have hspace := Str.isSpace_of_digit ⟨hlow, hhigh⟩
    have hminus : b ≠ 45 := by rintro rfl; exact absurd hlow (by simp)
    have hplus : b ≠ 43 := by rintro rfl; exact absurd hlow (by simp)
    have hvalue : Str.digits 10 0 (decimal n ++ lit "\n") = n :=
      (digits_append_of_none (by decide) 0 _ []).trans (Str.digits_decimal n)
    unfold Str.numeral
    rw [hcons, List.cons_append] at hvalue ⊢
    rw [List.dropWhile_cons_of_neg (by simp [hspace])]
    simp [hminus, hplus, hzero, hvalue]

/-- A line of a number is read as the number. -/
theorem strtoll_line {n : Nat} (hn : n < 2 ^ 31) :
    (Str.strtoll (decimal n ++ lit "\n")).bmod (2 ^ 32) = n := by
  unfold Str.strtoll
  rw [numeral_line]
  simp only [Bool.false_eq_true, if_false]
  rw [min_eq_right (by omega), Int.bmod_eq_of_le (by omega) (by omega)]

/-! ## Discovery -/

namespace Volume

section gives

variable {s : MdState} {env : SysEnv} {v : Volume}

/-- Against md's answers the discovery of the level gives its number. -/
theorem gives_discoverLevel (h : s.Answers v.m_Path env) :
    Gives env v.discoverLevel fun v' => v' = { v with m_RaidLevel := s.level.number } := by
  refine gives_call fun i => ?_
  rw [attributePath, h.level i]
  refine gives_pure ?_
  show ({ v with m_RaidLevel := getRaidLevel (Str.ofBytes (s.level.text ++ lit "\n")).trim } : Volume) = _
  rw [getRaidLevel_text]

/-- Against md's answers a redundant volume is shown as locked or in the state of the action. -/
theorem gives_discoverState (hunknown : v.m_State = .unknown) (h : s.Answers v.m_Path env)
    (hredundant : s.level.redundant = true) :
    Gives env v.discoverState fun v' =>
      v' = { v with m_State := .locked } ∨ v' = { v with m_State := s.action.state } := by
  unfold discoverState
  rw [if_pos hunknown]
  refine gives_bind (P := fun _ => True) (fun _ _ _ => trivial) fun locked _ => ?_
  split
  · exact gives_pure (.inl rfl)
  · refine gives_call fun i => ?_
    rw [attributePath, h.action hredundant i]
    refine gives_pure (.inr ?_)
    show ({ v with m_State := syncState (Str.ofBytes (s.action.text ++ lit "\n")).trim } : Volume) = _
    rw [syncState_text]

/-- Without the file of the action the volume is taken to be in normal state. -/
theorem gives_discoverState_absent (hunknown : v.m_State = .unknown) (h : s.Answers v.m_Path env)
    (hplain : s.level.redundant = false) :
    Gives env v.discoverState fun v' =>
      v' = { v with m_State := .locked } ∨ v' = { v with m_State := .normal } := by
  unfold discoverState
  rw [if_pos hunknown]
  refine gives_bind (P := fun _ => True) (fun _ _ _ => trivial) fun locked _ => ?_
  split
  · exact gives_pure (.inl rfl)
  · refine gives_call fun i => ?_
    rw [attributePath, (h.absent hplain i).1]
    exact gives_pure (.inr rfl)

/-- An attribute that the environment answers is converted. -/
theorem gives_readNumber {α : Type} {path : Str} {bytes : List UInt8} (convert : List UInt8 → α)
    (hne : bytes ≠ []) (h : ∀ i, env i (.readAttribute path) = some bytes) :
    Gives env (readNumber path convert) fun x => x = some (convert bytes) := by
  refine gives_call fun i => ?_
  rw [h i]
  obtain ⟨b, rest, rfl⟩ := List.exists_cons_of_ne_nil hne
  exact gives_pure rfl

/-- What discovery does after it has found the state, where the number of missing members is shown. -/
theorem gives_discoverProgress (h : s.Answers v.m_Path env) (hredundant : s.level.redundant = true) :
    Gives env v.discoverProgress fun v' => v'.m_State =
      if v.m_State = .unknown ∨ v.m_State = .normal then degradedState v.m_RaidLevel s.missing v.m_State
      else v.m_State := by
  unfold discoverProgress
  split
  next =>
    refine gives_bind (gives_readNumber _ (by simp [lit]) (h.degraded hredundant)) fun degraded hshown => ?_
    rw [strtoll_line h.bounded] at hshown
    subst hshown
    exact gives_pure rfl
  split
  next =>
    refine gives_bind (P := fun _ => True) (fun _ _ _ => trivial) fun level _ => ?_
    refine gives_bind (P := fun _ => True) (fun _ _ _ => trivial) fun progress _ => ?_
    exact gives_pure rfl
  split
  next => exact gives_bind (P := fun _ => True) (fun _ _ _ => trivial) fun _ _ => gives_pure rfl
  next => exact gives_pure rfl

/-- Without the file of the missing members a normal or locked state stays. -/
theorem gives_discoverProgress_absent (h : s.Answers v.m_Path env) (hplain : s.level.redundant = false)
    (hstate : v.m_State = .locked ∨ v.m_State = .normal) :
    Gives env v.discoverProgress fun v' => v' = v := by
  unfold discoverProgress
  rcases hstate with hlocked | hnormal
  · rw [hlocked]
    exact gives_pure rfl
  · rw [hnormal, if_pos (.inr rfl)]
    refine gives_call fun i => ?_
    rw [attributePath, (h.absent hplain i).2]
    exact gives_pure rfl

end gives

section returns

variable (v : Volume)

/-- Programs that keep the state and the level of a volume. -/
abbrev KeepsState (p : SysProg Volume) : Prop :=
  Returns p fun v' => v'.m_State = v.m_State ∧ v'.m_RaidLevel = v.m_RaidLevel

/-- The discovery of the state leaves the level as it is. -/
theorem returns_discoverState : Returns v.discoverState fun v' => v'.m_RaidLevel = v.m_RaidLevel := by
  unfold discoverState
  split
  next =>
    refine returns_bind_of_forall fun locked => ?_
    split
    · exact returns_pure rfl
    · refine returns_bind_of_forall fun temp => ?_
      cases temp <;> exact returns_pure rfl
  next => exact returns_pure rfl

/-- The level changes with the progress of a migration only. -/
theorem returns_discoverProgress : Returns v.discoverProgress fun v' =>
    v'.m_State = .generalMigration ∨ v'.m_RaidLevel = v.m_RaidLevel := by
  unfold discoverProgress
  split
  next =>
    refine returns_bind_of_forall fun degraded => ?_
    cases degraded <;> exact returns_pure (.inr rfl)
  split
  next hmigration =>
    refine returns_bind_of_forall fun level => returns_bind_of_forall fun progress => ?_
    exact returns_pure (.inl hmigration)
  split
  next => exact returns_bind_of_forall fun _ => returns_pure (.inr rfl)
  next => exact returns_pure (.inr rfl)

/-- The discovery of the sizes leaves level and state as they are. -/
theorem keepsState_discoverSizes : v.KeepsState v.discoverSizes :=
  returns_bind_of_forall fun _ => returns_bind_of_forall fun _ => returns_pure ⟨rfl, rfl⟩

/-- The inquiry for `/boot` leaves level and state as they are. -/
theorem keepsState_discoverSystem : v.KeepsState v.discoverSystem := by
  refine returns_bind_of_forall fun reply => ?_
  split <;> exact returns_pure ⟨rfl, rfl⟩

/-- The discovery of the policy leaves level and state as they are. -/
theorem keepsState_discoverPolicy : v.KeepsState v.discoverPolicy := by
  refine returns_bind_of_forall fun temp => ?_
  cases temp with
  | some temp => exact returns_pure ⟨rfl, rfl⟩
  | none =>
      refine returns_bind_of_forall fun temp => ?_
      cases temp <;> exact returns_pure ⟨rfl, rfl⟩

/-- Sizes, flag and policy, one after the other. -/
theorem keepsState_rest :
    v.KeepsState (v.discoverSizes >>= fun v => v.discoverSystem >>= discoverPolicy) := by
  refine returns_bind v.keepsState_discoverSizes fun v₁ h₁ => ?_
  refine returns_bind v₁.keepsState_discoverSystem fun v₂ h₂ => ?_
  refine v₂.keepsState_discoverPolicy.mono fun v₃ h₃ => ?_
  rw [h₃.1, h₃.2, h₂.1, h₂.2, h₁.1, h₁.2]
  exact ⟨rfl, rfl⟩

end returns

section discovered

variable {s : MdState} {env : SysEnv} {v : Volume}

/-- Level and state of a volume that is discovered. -/
theorem gives_discoverAttributes (hunknown : v.m_State = .unknown) (h : s.Answers v.m_Path env) :
    Gives env v.discoverAttributes s.ShownBy := by
  refine gives_bind (gives_discoverLevel h) fun v₁ h₁ => ?_
  subst h₁
  -- what is known of the state, and that the level stays
  generalize hv₁ : ({ v with m_RaidLevel := s.level.number } : Volume) = v₁
  have hunknown₁ : v₁.m_State = .unknown := by rw [← hv₁]; exact hunknown
  have hpath₁ : v₁.m_Path = v.m_Path := by rw [← hv₁]
  have hlevel₁ : v₁.m_RaidLevel = s.level.number := by rw [← hv₁]
  have hstate : Gives env v₁.discoverState fun v₂ =>
      v₂.m_RaidLevel = s.level.number ∧ v₂.m_Path = v.m_Path ∧ (v₂.m_State = .locked ∨
        v₂.m_State = if s.level.redundant = false then .normal else s.action.state) := by
    intro i v₂ hv₂
    refine ⟨(returns_discoverState v₁ env i v₂ hv₂).trans hlevel₁, ?_, ?_⟩
    · exact (congrArg RaidDevice.m_Path (keepsIdentity_discoverState v₁ env i v₂ hv₂).1).trans hpath₁
    rw [← hpath₁] at h
    by_cases hplain : s.level.redundant = false
    · rw [if_pos hplain]
      exact (gives_discoverState_absent hunknown₁ h hplain i v₂ hv₂).imp (by rintro rfl; rfl)
        (by rintro rfl; rfl)
    · rw [if_neg hplain]
      have hredundant := Bool.eq_true_of_not_eq_false hplain
      exact (gives_discoverState hunknown₁ h hredundant i v₂ hv₂).imp (by rintro rfl; rfl)
        (by rintro rfl; rfl)
  refine gives_bind hstate fun v₂ h₂ => ?_
  obtain ⟨hlevel, hpath, hshown⟩ := h₂
  have hprogress : Gives env v₂.discoverProgress s.ShownBy := by
    intro i v₃ hv₃
    rw [← hpath] at h
    refine ⟨fun hne => ?_, ?_⟩
    · rcases returns_discoverProgress v₂ env i v₃ hv₃ with hmigration | hkept
      · exact absurd hmigration hne
      · rw [hkept, hlevel]
    unfold MdState.shown
    by_cases hplain : s.level.redundant = false
    · rw [if_pos hplain] at hshown ⊢
      obtain rfl := gives_discoverProgress_absent h hplain hshown i v₃ hv₃
      exact hshown
    · rw [if_neg hplain] at hshown ⊢
      have hredundant := Bool.eq_true_of_not_eq_false hplain
      rw [gives_discoverProgress h hredundant i v₃ hv₃, hlevel]
      rcases hshown with hlocked | haction
      · rw [hlocked]
        exact .inl (if_neg (by simp))
      · rw [haction]
        exact .inr rfl
  refine gives_bind hprogress fun v₃ h₃ => ?_
  refine (keepsState_rest v₃).gives.mono fun v₄ h₄ => ?_
  constructor
  · rw [h₄.1, h₄.2]
    exact h₃.level
  · rw [h₄.1]
    exact h₃.state

/-- A volume of a path, discovered where it is shown under the path that it has then. -/
theorem shownBy_discovered {path : Str} {ordinal : UInt32} {i : Nat} {v' : Volume}
    (hrun : ((ofPath path ordinal).discover.run env i).result = .ok v') (h : s.Answers v'.m_Path env) :
    s.ShownBy v' := by
  have hgives : Gives env (ofPath path ordinal).discover fun v' =>
      s.Answers v'.m_Path env → s.ShownBy v' := by
    refine gives_bind (P := fun _ => True) (fun _ _ _ => trivial) fun d _ => ?_
    refine gives_bind (P := fun _ => True) (fun _ _ _ => trivial) fun _ _ => ?_
    intro j v' hv' h
    have hpath : v'.m_Path = d.m_Path :=
      congrArg RaidDevice.m_Path (keepsDevice_discoverAttributes _ env j v' hv')
    rw [hpath] at h
    exact gives_discoverAttributes rfl h j v' hv'
  exact hgives i v' hrun h

end discovered

end Volume

namespace MdState

/-- The volume is what discovery makes of the one that md runs, where `/boot` lies on it. -/
def BootDiscoveredAs (s : MdState) (v : Volume) : Prop :=
  ∃ (path : Str) (ordinal : UInt32) (env : SysEnv) (o : DfOutput),
    ((Volume.ofPath path ordinal).discover.run env 0).result = .ok v ∧ s.Answers v.m_Path env ∧
      o.Answers env ∧ o.Names (Volume.devNameOf path).m_buffer

/-- A volume that `/boot` lies on is found to be one; where it is found in normal state its level is
that of md, and it misses no member if the level is redundant and one that discovery tells apart. -/
theorem of_bootDiscoveredAs {s : MdState} {v : Volume} (h : s.BootDiscoveredAs v) :
    v.m_SystemVolume = true ∧ (v.m_State = .normal → v.m_RaidLevel = s.level.number ∧
      (s.level.redundant = true → s.level.known = true → s.missing = 0)) := by
  obtain ⟨path, ordinal, env, o, hrun, hanswers, hboot, hnames⟩ := h
  have hshown := Volume.shownBy_discovered hrun hanswers
  have hdetects := (Volume.discovers_iff path ordinal o).mpr (.inl hnames)
  refine ⟨(hdetects env hboot v hrun).mpr hnames,
    fun hnormal => ⟨hshown.level (by rw [hnormal]; simp), fun hredundant hknown => ?_⟩⟩
  rcases hshown.state with hlocked | hstate
  · rw [hnormal] at hlocked
    cases hlocked
  · exact (of_shown_normal hredundant (hstate.symm.trans hnormal)).2 hknown

end MdState

section mirror

/-- What `df /boot` prints where `/boot` is on the first partition of `md126`. -/
def mirrorLines : List UInt8 :=
  lit "Filesystem 1K-blocks Used Available Use% Mounted on\n" ++
    lit "/dev/md126p1 1038336 262144 776192 26% /boot\n"

/-- Headings and columns as for a disk. -/
def bootOnMirror : DfOutput :=
  { bootOnSdaa with
    output := mirrorLines
    source := lit "/dev/md126p1"
    captured := by
      have hsingle : SingleBytes mirrorLines := by decide +kernel
      rw [shellCap_of_singleBytes hsingle, Str.ofBytes_buffer hsingle.wellFormed]
      decide +kernel
    isDevice := by decide +kernel
    oneColumn := by decide +kernel }

/-- The mirror of two NVMe disks that `/boot` lies on. -/
def mirror : MdState := ⟨.raid1, .idle, [lit "nvme0n1", lit "nvme1n1"], by decide, 0⟩

/-- The path of the mirror. -/
def mirrorPath : Str := .ofLit "/sys/devices/virtual/block/md126"

def mirrorAttribute (path : Str) : Option (List UInt8) :=
  if path = mirrorPath ++ Str.ofLit "/md/level" then some (lit "raid1\n")
  else if path = mirrorPath ++ Str.ofLit "/md/sync_action" then some (lit "idle\n")
  else if path = mirrorPath ++ Str.ofLit "/md/degraded" then some (lit "0\n")
  else none

/-- The system that shows the mirror. -/
def mirrorEnv : SysEnv
  | _, .shell _ => (⟨0, mirrorLines, []⟩ : ShellReply)
  | _, .readMap => (⟨none, [], fun path => path⟩ : MapReply)
  | _, .readAttribute path => mirrorAttribute path
  | _, .stat _ => true
  | _, .appendConfig _ => (none : Option Exception)

/-- The mirror as discovery finds it. -/
def mirrorVolume : Volume :=
  match ((Volume.ofPath mirrorPath 0).discover.run mirrorEnv 0).result with
  | .ok v => v
  | .error _ => .new

/-- The sample volume is one that a discovery against the sample answers gives. -/
theorem bootDiscoveredAs_mirror : mirror.BootDiscoveredAs mirrorVolume := by
  have hpath : mirrorVolume.m_Path = mirrorPath := by decide +kernel
  refine ⟨mirrorPath, 0, mirrorEnv, bootOnMirror, rfl, ?_, fun _ => ⟨rfl, rfl⟩, lit "p1", ?_, .inr ?_⟩
  · have hlevel : mirrorAttribute (mirrorPath ++ Str.ofLit "/md/level") =
        some (mirror.level.text ++ lit "\n") := by decide +kernel
    have haction : mirrorAttribute (mirrorPath ++ Str.ofLit "/md/sync_action") =
        some (mirror.action.text ++ lit "\n") := by decide +kernel
    have hdegraded : mirrorAttribute (mirrorPath ++ Str.ofLit "/md/degraded") =
        some (decimal mirror.missing ++ lit "\n") := by decide +kernel
    rw [hpath]
    exact ⟨fun _ => hlevel, fun _ _ => haction, fun _ _ => hdegraded, fun hplain => (nomatch hplain),
      by decide⟩
  · decide +kernel
  · have hdigit : ∃ b ∈ (Volume.devNameOf mirrorPath).m_buffer.getLast?, 48 ≤ b ∧ b ≤ 57 := by
      decide +kernel
    unfold PartitionSuffix
    rw [if_pos hdigit]
    exact ⟨lit "1", rfl, by decide, by decide +kernel⟩

end mirror

end Irstessi
