import Irstessi.Array
import Irstessi.Text
import Mathlib.Data.List.Chain

/-!
# The usage of a disk and the names on it

`BlockDevice::__internal_determine_disk_usage` looks for words in what `mdadm -Es` prints of a disk,
and that quotes the names of its container and volumes.

* `EndDevice.classified`: the classification in a run.
* `Piece`, `render`: outputs as texts with names in them.
* **`namesDoNotMatter_iff`**: the usage does not depend on the names, and a member is not removed as
  a spare, iff the words are shown by the role alone.

An output is a row of pieces, some of which are names; `render` puts the names in. What the
classification depends on are two words, and a word may occur in the text because it stands in a piece
or because of a name next to it. The theorem compares two runs that print the same pieces with other
names: the usage is the same, and an active member is left where it is, iff both texts show the words
alike and a member shows no `spare`. For single-byte texts with separators around the names a text shows
what a piece or a name shows, so that the condition is about pieces and names. The functions themselves
are those of `BlockDevice`.
-/

namespace Irstessi

open Interact Occurrence

/-! ## The classification -/

/-- A disk is classified, then removed from the container as a spare.
Source: `src/end_device.cpp` `SsiDiskUnmarkAsSpare`, with the discovery of its session -/
def RaidArray.unmarkAsSpare (a : RaidArray) (d : EndDevice) : SysProg SSI_Status := do
  let d ← d.determineDiskUsage
  a.removeSpare d false

/-- The check that `Array::renameVolume` makes of a name.
Source: `array.cpp` `Array::renameVolume` -/
def RaidArray.refusesName (newName : Str) : Bool :=
  (newName.find (lit "/") 0).isSome || (newName.trim.find (lit " ") 0).isSome

/-- The names that the functions creating or renaming a volume accept. -/
def NameAccepted (name : Str) : Prop :=
  (∃ d d' : RaidDevice, d.setName name = .ok d') ∨ RaidArray.refusesName name = false

/-! ## Outputs with names in them -/

/-- A piece of an output: a text, or the name with a number. -/
inductive Piece
  | text (t : List UInt8)
  | name (k : Nat)
  deriving DecidableEq, Repr

namespace Piece

/-- The bytes of a piece. -/
def bytes (names : Nat → Str) : Piece → List UInt8
  | text t => t
  | name k => (names k).m_buffer

/-- The output for the given names. -/
def render (pieces : List Piece) (names : Nat → Str) : List UInt8 :=
  (pieces.map (bytes names)).flatten

/-- The role of the disk, which is what the output says besides the names, shows the word. -/
def RoleShows (pieces : List Piece) (word : List UInt8) : Prop :=
  ∃ t, text t ∈ pieces ∧ word <:+: t

/-- A name that is quoted contains the word. -/
def NameShows (pieces : List Piece) (names : Nat → Str) (word : List UInt8) : Prop :=
  ∃ k, name k ∈ pieces ∧ word <:+: (names k).m_buffer

/-- The output as it is captured shows the word. -/
def OutputShows (pieces : List Piece) (names : Nat → Str) (word : List UInt8) : Prop :=
  word <:+: (shellCap (render pieces names)).m_buffer

/-- The role is that of an active member. -/
def ActiveMember (pieces : List Piece) : Prop :=
  ¬ RoleShows pieces (lit "spare") ∧ RoleShows pieces (lit "ARRAY")

/-- Between two pieces stands a byte that the word does not contain. -/
def Separated (word : List UInt8) (pieces : List Piece) : Prop :=
  pieces.IsChain fun p q => (∃ t b, p = text (t ++ [b]) ∧ b ∉ word) ∨
    ∃ b t, q = text (b :: t) ∧ b ∉ word

/-- With separators around the names an output of single-byte characters shows a word iff the role
or a name does. -/
theorem outputShows_iff {pieces : List Piece} {names : Nat → Str} {word : List UInt8}
    (hword : word ≠ []) (hsep : Separated word pieces) (hsingle : SingleBytes (render pieces names)) :
    OutputShows pieces names word ↔ RoleShows pieces word ∨ NameShows pieces names word := by
  have hcut : (pieces.map (bytes names)).IsChain (Cut word) := by
    refine List.isChain_map_of_isChain (bytes names) (fun p q h => ?_) hsep
    rcases h with ⟨t, b, rfl, hb⟩ | ⟨b, t, rfl, hb⟩
    · exact .inl ⟨t, b, rfl, hb⟩
    · exact .inr ⟨b, t, rfl, hb⟩
  rw [OutputShows, shellCap_of_singleBytes hsingle, Str.ofBytes_buffer hsingle.wellFormed, render,
    infix_flatten_iff hword hcut]
  simp only [List.mem_map, exists_exists_and_eq_and]
  constructor
  · rintro ⟨p, hp, hinfix⟩
    cases p with
    | text t => exact .inl ⟨t, hp, hinfix⟩
    | name k => exact .inr ⟨k, hp, hinfix⟩
  · rintro (⟨t, ht, hinfix⟩ | ⟨k, hk, hinfix⟩)
    · exact ⟨text t, ht, hinfix⟩
    · exact ⟨name k, hk, hinfix⟩

end Piece

namespace EndDevice

open Piece

/-! ## Runs -/

/-- The usage that a run classifies the disk with. -/
def classified (d : EndDevice) (env : SysEnv) (i : Nat) : Except Fault SSI_DiskUsage :=
  (d.determineDiskUsage.run env i).result.map (·.diskUsage)

/-- The commands of the trace only look at the disk. -/
def OnlyExamined (d : EndDevice) (tr : List SysEvent) : Prop :=
  ∀ x ∈ exits tr, x.1 = .examineScan d.m_DevName

/-- In two runs whose outputs differ in the names only the usage is the same, and a disk whose role
is that of an active member is not removed as a spare. -/
def NamesDoNotMatter (pieces : List Piece) (d d' : EndDevice) (a : RaidArray) (env env' : SysEnv)
    (i i' : Nat) : Prop :=
  d.classified env i = d'.classified env' i' ∧
    (ActiveMember pieces → d.OnlyExamined ((a.unmarkAsSpare d).run env i).trace)

/-- The names add nothing to what the role shows: the two runs show the same words, as far as they
are looked for, and a member shows no `spare` where nothing else keeps it from being removed. -/
structure RoleDecides (pieces : List Piece) (exitStatus : UInt8) (a : RaidArray) (d : EndDevice)
    (Shows Shows' : List UInt8 → Prop) : Prop where
  spare : exitStatus = 0 → (Shows (lit "spare") ↔ Shows' (lit "spare"))
  member : exitStatus = 0 → ¬ Shows (lit "spare") → (Shows (lit "ARRAY") ↔ Shows' (lit "ARRAY"))
  removal : exitStatus = 0 → ActiveMember pieces → a.removable { d with diskUsage := .spare } →
    ¬ Shows (lit "spare")

/-- Only the words that `EndDevice::discover` looks for matter: two readings of the same output that
agree on these decide alike. -/
theorem RoleDecides.congr {pieces : List Piece} {exitStatus : UInt8} {a : RaidArray} {d : EndDevice}
    {S S' T T' : List UInt8 → Prop} (hS : ∀ word ∈ [lit "spare", lit "ARRAY"], (S word ↔ T word))
    (hS' : ∀ word ∈ [lit "spare", lit "ARRAY"], (S' word ↔ T' word)) :
    RoleDecides pieces exitStatus a d S S' ↔ RoleDecides pieces exitStatus a d T T' := by
  have hspare := hS _ List.mem_cons_self
  have hspare' := hS' _ List.mem_cons_self
  have harray := hS _ (List.mem_cons_of_mem _ List.mem_cons_self)
  have harray' := hS' _ (List.mem_cons_of_mem _ List.mem_cons_self)
  constructor
  · rintro ⟨h₁, h₂, h₃⟩
    rw [hspare] at h₁ h₂ h₃
    rw [hspare'] at h₁
    rw [harray, harray'] at h₂
    exact ⟨h₁, h₂, h₃⟩
  · rintro ⟨h₁, h₂, h₃⟩
    rw [← hspare] at h₁ h₂ h₃
    rw [← hspare'] at h₁
    rw [← harray, ← harray'] at h₂
    exact ⟨h₁, h₂, h₃⟩

section run

variable {d : EndDevice} {env : SysEnv} {i : Nat} {reply : ShellReply}
  (h : env i (.shell (.examineScan d.m_DevName)) = reply)

include h

/-- The usage of a disk is a function of the exit status, the captured output and of whether an array
holds it. -/
theorem classified_eq : d.classified env i =
    .ok (usageOf reply.exitStatus (shellCap reply.output) d.array.isSome) := by
  unfold classified determineDiskUsage
  rw [shellOutput_bind, Prog.run_call, h]
  rfl

/-- Beyond the look at the disk there are commands iff it can be removed. -/
theorem onlyExamined_iff (a : RaidArray) :
    d.OnlyExamined ((a.unmarkAsSpare d).run env i).trace ↔
      ¬ a.removable { d with
        diskUsage := usageOf reply.exitStatus (shellCap reply.output) d.array.isSome } := by
  have hrun : ((a.unmarkAsSpare d).run env i).trace = ⟨.shell (.examineScan d.m_DevName), reply⟩ ::
      ((a.removeSpare { d with
        diskUsage := usageOf reply.exitStatus (shellCap reply.output) d.array.isSome }
          false).run env (i + 1)).trace := by
    unfold RaidArray.unmarkAsSpare determineDiskUsage
    rw [← h]
    rfl
  rw [OnlyExamined, hrun, exits_cons_shell, RaidArray.removeSpare]
  by_cases hremovable : a.removable { d with
      diskUsage := usageOf reply.exitStatus (shellCap reply.output) d.array.isSome }
  · rw [if_neg (by simp [hremovable]), (run_shellEx_bind env (i + 1) _ 1 0 _).1]
    simp [hremovable]
  · simp [hremovable]

end run

/-- The usage of a spare needs the word. -/
theorem usageOf_eq_spare_iff {exitStatus : UInt8} {result : Str} {hasArray : Bool} :
    usageOf exitStatus result hasArray = .spare ↔
      exitStatus = 0 ∧ lit "spare" <:+: result.m_buffer ∧ hasArray := by
  unfold usageOf
  rw [← Str.find_isSome_iff]
  split_ifs <;> simp_all

/-- A usage says which of the words was found first. -/
theorem usageOf_eq_iff {result result' : Str} {hasArray : Bool} :
    usageOf 0 result hasArray = usageOf 0 result' hasArray ↔
      (lit "spare" <:+: result.m_buffer ↔ lit "spare" <:+: result'.m_buffer) ∧
        (¬ lit "spare" <:+: result.m_buffer →
          (lit "ARRAY" <:+: result.m_buffer ↔ lit "ARRAY" <:+: result'.m_buffer)) := by
  unfold usageOf
  simp only [← Str.find_isSome_iff]
  split_ifs <;> simp_all

/-- A disk can be removed iff it is classified as a spare and nothing else keeps it. -/
theorem removable_iff (a : RaidArray) (d : EndDevice) (usage : SSI_DiskUsage) :
    a.removable { d with diskUsage := usage } ↔
      usage = .spare ∧ a.removable { d with diskUsage := .spare } := by
  unfold RaidArray.removable
  rw [decide_eq_true_iff, decide_eq_true_iff]
  constructor
  · rintro ⟨harray, hblock, rfl, hstate⟩
    exact ⟨rfl, harray, hblock, rfl, hstate⟩
  · rintro ⟨rfl, h⟩
    exact h

/-! ## Main result -/

/-- **When names do not matter.** In any two runs whose outputs differ in the names only, the usage
is the same and an active member is not removed as a spare iff the words that are looked for are
shown alike by the outputs as they are captured and no member shows `spare`. For outputs of
single-byte characters with separators around the names, an output shows what the role or a name
shows. -/
theorem namesDoNotMatter_iff (pieces : List Piece) (names names' : Nat → Str) (d d' : EndDevice)
    (a : RaidArray) (env env' : SysEnv) (i i' : Nat) {exitStatus : UInt8} {lines lines' : List Str}
    (h : env i (.shell (.examineScan d.m_DevName)) = ⟨exitStatus, render pieces names, lines⟩)
    (h' : env' i' (.shell (.examineScan d'.m_DevName)) = ⟨exitStatus, render pieces names', lines'⟩)
    (harray : d.array.isSome = d'.array.isSome) :
    (NamesDoNotMatter pieces d d' a env env' i i' ↔
      RoleDecides pieces exitStatus a d (OutputShows pieces names) (OutputShows pieces names')) ∧
    (Separated (lit "spare") pieces → Separated (lit "ARRAY") pieces →
      SingleBytes (render pieces names) → SingleBytes (render pieces names') →
      (NamesDoNotMatter pieces d d' a env env' i i' ↔
        RoleDecides pieces exitStatus a d
          (fun word => RoleShows pieces word ∨ NameShows pieces names word)
          (fun word => RoleShows pieces word ∨ NameShows pieces names' word))) := by
  have hiff : NamesDoNotMatter pieces d d' a env env' i i' ↔
      RoleDecides pieces exitStatus a d (OutputShows pieces names) (OutputShows pieces names') := by
    rw [NamesDoNotMatter, classified_eq h, classified_eq h', onlyExamined_iff h, removable_iff,
      usageOf_eq_spare_iff, ← harray]
    by_cases hexit : exitStatus = 0
    · subst hexit
      have hsome : a.removable { d with diskUsage := .spare } → d.array.isSome := by
        intro hremovable
        rw [RaidArray.removable, decide_eq_true_iff] at hremovable
        rw [hremovable.1]
        rfl
      rw [Except.ok.injEq, usageOf_eq_iff]
      constructor
      · rintro ⟨⟨hspare, hmember⟩, hremoval⟩
        exact ⟨fun _ => hspare, fun _ => hmember, fun _ hactive hremovable hshows =>
          hremoval hactive ⟨⟨rfl, hshows, hsome hremovable⟩, hremovable⟩⟩
      · rintro ⟨hspare, hmember, hremoval⟩
        exact ⟨⟨hspare rfl, hmember rfl⟩, fun hactive hall =>
          hremoval rfl hactive hall.2 hall.1.2.1⟩
    · constructor
      · intro _
        exact ⟨fun hzero => absurd hzero hexit, fun hzero => absurd hzero hexit,
          fun hzero => absurd hzero hexit⟩
      · intro _
        refine ⟨?_, fun _ hall => hexit hall.1.1⟩
        simp [usageOf, hexit]
  refine ⟨hiff, fun hspare hmember hsingle hsingle' => hiff.trans ?_⟩
  have hshows : ∀ {ns : Nat → Str}, SingleBytes (render pieces ns) →
      ∀ word ∈ [lit "spare", lit "ARRAY"], (OutputShows pieces ns word ↔
        RoleShows pieces word ∨ NameShows pieces ns word) := by
    intro ns hns word hword
    rcases List.mem_cons.mp hword with rfl | hword
    · exact outputShows_iff (by decide) hspare hns
    · obtain rfl := List.mem_singleton.mp hword
      exact outputShows_iff (by decide) hmember hns
  exact RoleDecides.congr (hshows hsingle) (hshows hsingle')

section example_names

/-- What `mdadm -Es` prints of a member of a container with one volume, but for the name. -/
def memberOutput : List Piece :=
  [.text (lit "ARRAY metadata=imsm UUID=aa:1\nARRAY /dev/md/"), .name 0,
    .text (lit " container=aa:1 member=0 UUID=bb:2\n")]

/-- Every command succeeds and prints the given output. -/
def printing (output : List UInt8) : SysEnv
  | _, .shell _ => ⟨0, output, []⟩
  | _, .readMap => ⟨none, [], id⟩
  | _, .readAttribute _ => none
  | _, .stat _ => true
  | _, .appendConfig _ => none

example : ActiveMember memberOutput := by
  refine ⟨?_, _, List.mem_cons_self, by decide⟩
  rintro ⟨t, ht, hinfix⟩
  simp only [memberOutput, List.mem_cons, text.injEq, reduceCtorEq, List.not_mem_nil, or_false,
    false_or] at ht
  rcases ht with rfl | rfl <;> exact absurd hinfix (by decide)

/-- The equivalence for two names without the words. -/
theorem namesDoNotMatter_volumes :
    (NamesDoNotMatter memberOutput (sampleDisk (.ofLit "sda") .unknown)
        (sampleDisk (.ofLit "sda") .unknown) sampleArray
        (printing (render memberOutput fun _ => .ofLit "vol"))
        (printing (render memberOutput fun _ => .ofLit "data")) 0 0 ↔
      RoleDecides memberOutput 0 sampleArray (sampleDisk (.ofLit "sda") .unknown)
        (OutputShows memberOutput fun _ => .ofLit "vol")
        (OutputShows memberOutput fun _ => .ofLit "data")) :=
  (namesDoNotMatter_iff memberOutput (fun _ => .ofLit "vol") (fun _ => .ofLit "data")
    (sampleDisk (.ofLit "sda") .unknown) (sampleDisk (.ofLit "sda") .unknown) sampleArray
    (printing (render memberOutput fun _ => .ofLit "vol"))
    (printing (render memberOutput fun _ => .ofLit "data")) 0 0 rfl rfl rfl).1

/-- A volume named `spare1` makes its active members spares. -/
theorem not_namesDoNotMatter_spare1 :
    ¬ ∀ (pieces : List Piece) (names names' : Nat → Str) (d d' : EndDevice) (a : RaidArray)
      (env env' : SysEnv) (i i' : Nat) (exitStatus : UInt8) (lines lines' : List Str),
      (∀ k, NameAccepted (names k)) → (∀ k, NameAccepted (names' k)) →
      env i (.shell (.examineScan d.m_DevName)) = ⟨exitStatus, render pieces names, lines⟩ →
      env' i' (.shell (.examineScan d'.m_DevName)) = ⟨exitStatus, render pieces names', lines'⟩ →
      d.array.isSome = d'.array.isSome → NamesDoNotMatter pieces d d' a env env' i i' := by
  intro h
  have haccepted : ∀ name : Str, RaidArray.refusesName name = false → NameAccepted name :=
    fun _ => .inr
  obtain ⟨hsame, -⟩ := h memberOutput (fun _ => .ofLit "vol") (fun _ => .ofLit "spare1")
    (sampleDisk (.ofLit "sda") .unknown) (sampleDisk (.ofLit "sda") .unknown) sampleArray
    (printing (render memberOutput fun _ => .ofLit "vol"))
    (printing (render memberOutput fun _ => .ofLit "spare1")) 0 0 0 [] []
    (fun _ => haccepted _ (by decide +kernel)) (fun _ => haccepted _ (by decide +kernel))
    rfl rfl rfl
  rw [classified_eq rfl, classified_eq rfl, Except.ok.injEq] at hsame
  exact absurd hsame (by decide +kernel)

end example_names

end EndDevice

end Irstessi
