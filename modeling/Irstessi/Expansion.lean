import Irstessi.Interface
import Irstessi.Lib.Words
import Irstessi.Migration
import Irstessi.Numerals

/-!
# The size of an expanded volume

`SsiExpandVolume` converts megabytes to the kilobytes of mdadm's `--size`, `Volume::expand` compares
them with a bound that is made from the current size and divides them by the number of data disks.

* `expandDivisor`, `expandBound`, `expandedSize_eq`: the division and the bound of the switch.
* `dataDisks`, `AsksExactSize`: the size that is to be asked for.
* `Accepts`, `SizeFits`: when a command is issued, and for which sizes it is the right one.
* **`expandsExactly_iff`**: every command asks for the exact size iff the sizes that are accepted fit.

The switch of the source on the level gives a divisor and a bound, and the quotient is made once;
`expandedSize_eq` says this of the definition that follows the source case by case. All numbers are
64-bit words: the product with 1024 wraps around, and so do the bound and the number of data disks of a
volume without members. The theorem compares what the call issues, in every environment, with the size
as a natural number: a command is issued iff the size is accepted, and its argument is the text of the
quotient or `max`. (⇒) runs the call against an environment in which the command succeeds and reads the
size off the trace; (⇐) goes through the traces of all environments.
-/

namespace Irstessi

open Interact Words

namespace Volume

variable (v : Volume)

/-! ## The switch -/

/-- `m_BlockDevices.size()` -/
def memberCount : UInt64 := UInt64.ofNat v.m_BlockDevices.length

/-- What the size is divided by, none where the volume is not expanded.
Source: `volume.cpp` `Volume::expand`, the switch -/
def expandDivisor : Option UInt64 :=
  if v.m_RaidLevel = 1 then some 1
  else if v.m_RaidLevel = 5 then
    if v.memberCount = 1 then none else some (v.memberCount - 1)
  else if v.m_RaidLevel = 10 then some 2
  else none

/-- The bound below which a size is refused.
Source: `volume.cpp` `Volume::expand`, the switch -/
def expandBound : UInt64 :=
  if v.m_RaidLevel = 5 then v.m_ComponentSize * (v.memberCount - 1)
  else v.m_ComponentSize * v.memberCount / 2

/-- The three branches of `Volume::expand` on the level, as one: no divisor, a size below the bound, or
the quotient. -/
theorem expandedSize_eq (newSize : UInt64) : v.expandedSize newSize =
    match v.expandDivisor with
    | none => .error .notSupported
    | some divisor =>
        if newSize ≠ 0 ∧ newSize < v.expandBound then .error .invalidSize
        else .ok (newSize / divisor) := by
  unfold expandedSize expandDivisor expandBound memberCount
  by_cases h0 : v.m_RaidLevel = 0
  · simp [h0]
  by_cases h1 : v.m_RaidLevel = 1
  · simp [h1]
  by_cases h5 : v.m_RaidLevel = 5
  · by_cases hone : UInt64.ofNat v.m_BlockDevices.length = 1
    · simp [h5, hone]
    · simp [h5, hone]
  by_cases h10 : v.m_RaidLevel = 10
  · simp [h10]
  · simp [h0, h1, h5, h10]

/-- The command is issued for the size.
Source: `volume.cpp` `Volume::expand` -/
def Accepts (newSize : UInt64) : Prop :=
  v.m_State = .normal ∧ v.expandDivisor ≠ none ∧ ¬ (newSize ≠ 0 ∧ newSize < v.expandBound)

instance (newSize : UInt64) : Decidable (v.Accepts newSize) :=
  inferInstanceAs (Decidable (_ ∧ _ ∧ ¬ (_ ∧ _)))

/-! ## The size to be asked for -/

/-- The number of data disks of a level that is expanded. -/
def dataDisks : Nat :=
  if v.m_RaidLevel = 1 then 1
  else if v.m_RaidLevel = 5 then v.memberCount.toNat - 1
  else 2

/-- `size` is what an expansion to `newSizeMB` megabytes asks for. -/
structure AsksExactSize (newSizeMB : UInt64) (size : Str) : Prop where
  exactSize : newSizeMB ≠ 0 → size = .ofNat (newSizeMB.toNat * 1024 / v.dataDisks)
  notMax : newSizeMB ≠ 0 → size ≠ .ofLit "max"
  notBelow : newSizeMB ≠ 0 → v.m_ComponentSize.toNat ≤ newSizeMB.toNat * 1024 / v.dataDisks
  max : newSizeMB = 0 → size = .ofLit "max"

/-- The kilobytes do not wrap around, and there is at least one for each data disk and at least the
current size of each. -/
def SizeFits (newSizeMB : UInt64) : Prop :=
  newSizeMB = 0 ∨
    (newSizeMB.toNat < 2 ^ 54 ∧ 0 < v.dataDisks ∧
      v.dataDisks * Max.max 1 v.m_ComponentSize.toNat ≤ newSizeMB.toNat * 1024)

instance (newSizeMB : UInt64) : Decidable (v.SizeFits newSizeMB) :=
  inferInstanceAs (Decidable (_ ∨ _ ∧ _ ∧ _))

variable {v} {newSizeMB divisor : UInt64}

/-- The divisor is the number of data disks, unless a volume of level 5 has no members. -/
theorem toNat_expandDivisor (h : v.expandDivisor = some divisor) :
    (divisor.toNat = v.dataDisks ∧ 0 < v.dataDisks) ∨
      (v.dataDisks = 0 ∧ divisor.toNat = 2 ^ 64 - 1) := by
  unfold expandDivisor at h
  unfold dataDisks
  split_ifs at h with h1 h5 hone h10
  · obtain rfl := Option.some.inj h
    left
    simp [h1]
  · obtain rfl := Option.some.inj h
    rw [if_neg h1, if_pos h5]
    by_cases hzero : v.memberCount = 0
    · right
      rw [hzero]
      exact ⟨rfl, rfl⟩
    · left
      have hpos : v.memberCount.toNat ≠ 0 := fun heq => hzero (UInt64.toNat_inj.mp heq)
      have hmore : v.memberCount.toNat ≠ 1 := fun heq => hone (UInt64.toNat_inj.mp heq)
      have hle : (1 : UInt64) ≤ v.memberCount :=
        UInt64.le_iff_toNat_le.mpr (Nat.pos_of_ne_zero hpos)
      rw [UInt64.toNat_sub_of_le _ _ hle]
      have hone' : (1 : UInt64).toNat = 1 := rfl
      omega
  · obtain rfl := Option.some.inj h
    left
    rw [if_neg h1, if_neg h5]
    exact ⟨rfl, Nat.succ_pos _⟩

/-- The switch divides by no zero. -/
theorem expandDivisor_ne_zero : v.expandDivisor ≠ some 0 := by
  intro h
  rcases toNat_expandDivisor h with ⟨hdisks, hpos⟩ | ⟨-, hmax⟩
  · rw [← hdisks] at hpos
    exact absurd hpos (by simp)
  · exact absurd hmax (by simp)

/-- The text that `Volume::expand` makes of the quotient.
Source: `volume.cpp` `Volume::expand`, `size` -/
def sizeText (newSize : UInt64) : Str :=
  if newSize = 0 then .ofLit "max" else Str.ofNat newSize.toNat

/-- The product that the entry point passes on is taken modulo 2^64. -/
theorem toNat_kilobytes : (newSizeMB * 1024).toNat = newSizeMB.toNat * 1024 % 2 ^ 64 :=
  UInt64.toNat_mul _ _

/-- The text is exact iff the quotient of the words is that of the numbers and not 0. -/
theorem asksExactSize_iff_of_ne_zero (h0 : newSizeMB ≠ 0) :
    v.AsksExactSize newSizeMB (sizeText (newSizeMB * 1024 / divisor)) ↔
      (newSizeMB * 1024).toNat / divisor.toNat = newSizeMB.toNat * 1024 / v.dataDisks ∧
        newSizeMB.toNat * 1024 / v.dataDisks ≠ 0 ∧
        v.m_ComponentSize.toNat ≤ newSizeMB.toNat * 1024 / v.dataDisks := by
  rw [← UInt64.toNat_div]
  generalize newSizeMB * 1024 / divisor = quotient
  unfold sizeText
  constructor
  · intro h
    have hexact := h.exactSize h0
    have hne : quotient ≠ 0 := fun hzero => h.notMax h0 (if_pos hzero)
    rw [if_neg hne] at hexact
    have heq := Str.ofNat_inj hexact
    refine ⟨heq, fun hzero => hne (UInt64.toNat_inj.mp ?_), h.notBelow h0⟩
    rw [heq, hzero]
    rfl
  · rintro ⟨heq, hne, hbelow⟩
    have hquotient : quotient ≠ 0 := by
      rintro rfl
      exact hne heq.symm
    rw [if_neg hquotient, heq]
    exact ⟨fun _ => rfl, fun _ => Str.ofNat_ne_max _, fun _ => hbelow, fun h => absurd h h0⟩

/-- The command asks for the exact size iff the size fits. -/
theorem asksExactSize_iff (h : v.expandDivisor = some divisor) :
    v.AsksExactSize newSizeMB (sizeText (newSizeMB * 1024 / divisor)) ↔ v.SizeFits newSizeMB := by
  by_cases h0 : newSizeMB = 0
  · subst h0
    have hzero : (0 * 1024 / divisor : UInt64) = 0 := by simp
    rw [hzero]
    exact iff_of_true ⟨fun h => absurd rfl h, fun h => absurd rfl h, fun h => absurd rfl h,
      fun _ => rfl⟩ (.inl rfl)
  rw [asksExactSize_iff_of_ne_zero h0, SizeFits, or_iff_right h0]
  rcases toNat_expandDivisor h with ⟨hdisks, hpos⟩ | ⟨hdisks, hmax⟩
  · rw [hdisks]
    have hword : v.dataDisks ≤ 2 ^ 64 := hdisks ▸ Nat.le_of_lt divisor.toNat_lt
    have hnumber : (1024 : UInt64).toNat = 1024 := rfl
    by_cases hwraps : newSizeMB.toNat * 1024 < 2 ^ 64
    · rw [toNat_kilobytes, Nat.mod_eq_of_lt hwraps, Nat.mul_comm v.dataDisks,
        ← Nat.le_div_iff_mul_le hpos, max_le_iff, Nat.one_le_iff_ne_zero]
      have hsmall : newSizeMB.toNat < 2 ^ 54 := by omega
      have hdisks : v.dataDisks ≠ 0 := Nat.ne_of_gt hpos
      simp only [hsmall, hpos, true_and]
    · have hless := toNat_mul_div_lt (a := newSizeMB) (b := 1024) (by rw [hnumber]; omega) hpos hword
      rw [hnumber] at hless
      refine iff_of_false (fun h => ?_) (fun h => ?_)
      · exact absurd h.1 (Nat.ne_of_lt hless)
      · have hsmall := h.1
        omega
  · -- there are no members: the quotient is 0, which is written as `max`
    rw [hdisks]
    exact iff_of_false (fun h => h.2.1 (Nat.div_zero _)) (fun h => Nat.lt_irrefl 0 h.2.1)

end Volume

/-! ## The call -/

section call

variable (s : CallSession) (volumeHandle : Nat) (newSizeMB : UInt64)

/-- Every command that the call issues grows the volume to the exact size, and the call divides by no
zero. -/
structure ExpandsExactly : Prop where
  sizes : ∀ (env : SysEnv) (i : Nat),
    ∀ x ∈ exits ((SsiExpandVolume s volumeHandle newSizeMB).run env i).trace,
      ∃ v size, s.getVolume volumeHandle = some v ∧ x.1 = .growSize v.m_DevName size ∧
        v.AsksExactSize newSizeMB size
  divisors : ∀ v, s.getVolume volumeHandle = some v → v.expandDivisor ≠ some 0

variable {s volumeHandle newSizeMB}

/-- A size that is not accepted is answered without any command, whatever the system would have said. -/
theorem exits_expand_of_refused {v : Volume} {newSize : UInt64} (h : ¬ v.Accepts newSize)
    (env : SysEnv) (i : Nat) : exits ((v.expand newSize).run env i).trace = [] := by
  unfold Volume.expand
  split
  next => rfl
  next hstate =>
    rw [v.expandedSize_eq]
    rcases hdivisor : v.expandDivisor with _ | divisor
    · rfl
    · have hbound : newSize ≠ 0 ∧ newSize < v.expandBound := by
        by_contra hbound
        exact h ⟨not_not.mp hstate, by simp [hdivisor], hbound⟩
      simp only [if_pos hbound]
      rfl

/-- For an accepted size exactly one command is run, and its size argument is the quotient as `expand`
prints it. -/
theorem exits_expand_of_accepts {v : Volume} {newSize divisor : UInt64} (h : v.Accepts newSize)
    (hdivisor : v.expandDivisor = some divisor) (env : SysEnv) (i : Nat) :
    exits ((v.expand newSize).run env i).trace =
      [(.growSize v.m_DevName (Volume.sizeText (newSize / divisor)),
        exitOf env i (.growSize v.m_DevName (Volume.sizeText (newSize / divisor))))] := by
  obtain ⟨hstate, -, hbound⟩ := h
  obtain ⟨htrace, -⟩ := run_shellEx_bind env i
    (.growSize v.m_DevName (Volume.sizeText (newSize / divisor))) 1 0
    fun r => (if r = 0 then pure .ok else pure .failed : SysProg SSI_Status)
  unfold Volume.expand
  rw [if_neg (not_not_intro hstate), v.expandedSize_eq, hdivisor]
  simp only [if_neg hbound]
  refine (congrArg exits htrace).trans ?_
  split <;> rfl

/-- **Expansion asks for the exact size iff the sizes that it accepts fit.** `SsiExpandVolume` does not
see that the kilobytes wrap around, the bound of levels 1 and 10 is half of the members' sizes however
many members there are, and a quotient of 0 is taken for the maximum. -/
theorem expandsExactly_iff : ExpandsExactly s volumeHandle newSizeMB ↔
    ∀ v, s.getVolume volumeHandle = some v → v.Accepts (newSizeMB * 1024) →
      v.SizeFits newSizeMB := by
  constructor
  · intro h v hv haccepts
    obtain ⟨divisor, hdivisor⟩ := Option.ne_none_iff_exists'.mp haccepts.2.1
    have hrun := h.sizes (Volume.constantExit 0) 0
    unfold SsiExpandVolume at hrun
    simp only [hv] at hrun
    rw [exits_expand_of_accepts haccepts hdivisor] at hrun
    obtain ⟨v', size, hv', hcmd, hexact⟩ := hrun _ (List.mem_singleton_self _)
    obtain rfl := Option.some.inj hv'
    obtain ⟨-, rfl⟩ := Command.growSize.inj hcmd
    exact (Volume.asksExactSize_iff hdivisor).mp hexact
  · intro h
    refine ⟨fun env i x hx => ?_, fun v _ => Volume.expandDivisor_ne_zero⟩
    unfold SsiExpandVolume at hx
    split at hx
    next => simp at hx
    next v hv =>
      by_cases haccepts : v.Accepts (newSizeMB * 1024)
      · obtain ⟨divisor, hdivisor⟩ := Option.ne_none_iff_exists'.mp haccepts.2.1
        rw [exits_expand_of_accepts haccepts hdivisor] at hx
        obtain rfl := List.mem_singleton.mp hx
        exact ⟨v, _, hv, rfl, (Volume.asksExactSize_iff hdivisor).mpr (h v hv haccepts)⟩
      · rw [exits_expand_of_refused haccepts] at hx
        simp at hx

end call

/-- The expansion of a mirror on two disks to 2^54 MB is accepted, and asks for the maximum. -/
theorem not_expandsExactly_mirror : ¬ ∀ (s : CallSession) (volumeHandle : Nat) (newSizeMB : UInt64),
    ExpandsExactly s volumeHandle newSizeMB := by
  intro h
  let v : ListedVolume := ⟨Volume.sampleMirror, 2 * 1024 * 1024, 512⟩
  have hsizes := (h ⟨[], [], [(4, v)], 5⟩ 4 (2 ^ 54)).sizes (Volume.constantExit 0) 0
  have hrun : exits ((SsiExpandVolume ⟨[], [], [(4, v)], 5⟩ 4 (2 ^ 54)).run
      (Volume.constantExit 0) 0).trace = [(.growSize (.ofLit "md126") (.ofLit "max"), 0)] := by
    decide +kernel
  rw [hrun] at hsizes
  obtain ⟨v', size, hv, hcmd, hexact⟩ := hsizes _ (List.mem_singleton_self _)
  obtain ⟨-, rfl⟩ := Command.growSize.inj hcmd
  exact hexact.notMax (by decide +kernel) rfl

end Irstessi
