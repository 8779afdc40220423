import Irstessi.FreshVolume
import Irstessi.StringAppend

/-!
# The device behind `/boot`

`BlockDevice::__internal_determine_disk_is_system` and `Volume::discover` look for a device name
anywhere in what `df /boot` prints.

* `run_determineDiskIsSystem`: what discovery makes of the flag of a disk.
* `DfOutput`: an output with its columns; `DfOutput.Names`: its source is a device or a partition of it.
* `ensures_discover_system`: what discovery makes of the flag of a volume.
* `not_detects_longerName`: the disks whose name begins the name of another device.
* **`detectsSystem_iff`**: the flags are right iff the name of a device that does not hold `/boot`
  occurs nowhere in the output.

An output of `df` has a line of headings and a line whose first column is the source; `Names` says when
that is a device of a name or a partition of it. The functions search the whole output for the name, the
disks with `/dev/` in front of it and the volumes without. A discovery makes other calls before that of
`df` and behind it, and `AsksBoot` follows the one whose answer counts through them. For volumes whose
discovery returns, an environment that shows nothing but the output gives the other direction.
-/

namespace Irstessi

open Interact Occurrence

/-! ## The output of `df /boot` -/

/-- A number of one digit or more. -/
def Digits (t : List UInt8) : Prop := t ≠ [] ∧ ∀ b ∈ t, 48 ≤ b ∧ b ≤ 57

/-- What follows the name of a device in that of a partition: digits, behind a `p` where the name
ends in a digit. -/
def PartitionSuffix (name suffix : List UInt8) : Prop :=
  if ∃ b ∈ name.getLast?, 48 ≤ b ∧ b ≤ 57 then ∃ number, suffix = lit "p" ++ number ∧ Digits number
  else Digits suffix

/-- An output of `df /boot`, as `shell_cap` hands it over: the line of the headings, and the line of
the file system, of which the first column is the path of a device. -/
structure DfOutput where
  output : List UInt8
  headings : List UInt8
  source : List UInt8
  columns : List UInt8
  captured : (shellCap output).m_buffer = headings ++ lit "\n" ++ (source ++ columns)
  oneLine : 10 ∉ headings
  isDevice : lit "/dev/" <+: source
  oneColumn : ∀ b ∈ source, b ≠ 10 ∧ b ≠ 32
  separated : ∃ b ∈ columns.head?, b = 10 ∨ b = 32

namespace DfOutput

/-- The text that is searched. -/
def text (o : DfOutput) : List UInt8 := (shellCap o.output).m_buffer

/-- The source is the device of that name or a partition of it. -/
def Names (o : DfOutput) (name : List UInt8) : Prop :=
  ∃ suffix, o.source = lit "/dev/" ++ name ++ suffix ∧ (suffix = [] ∨ PartitionSuffix name suffix)

/-- Every call of `df /boot` succeeds with this output. -/
def Answers (o : DfOutput) (env : SysEnv) : Prop :=
  ∀ i, ShellReply.exitStatus (env i (.shell .bootFilesystem)) = 0 ∧
    ShellReply.output (env i (.shell .bootFilesystem)) = o.output

/-- The system that shows nothing but the output. -/
def quiet (o : DfOutput) : SysEnv
  | _, .shell _ => (⟨0, o.output, []⟩ : ShellReply)
  | _, .readMap => (⟨none, [], fun path => path⟩ : MapReply)
  | _, .readAttribute _ => (none : Option (List UInt8))
  | _, .stat _ => true
  | _, .appendConfig _ => (none : Option Exception)

/-- The environment that answers every inquiry with the same output does answer it. -/
theorem answers_quiet (o : DfOutput) : o.Answers o.quiet := fun _ => ⟨rfl, rfl⟩

/-- A word of the first column is a word of the output. -/
theorem infix_text_of_infix_source (o : DfOutput) {word : List UInt8} (h : word <:+: o.source) :
    word <:+: o.text := by
  rw [text, o.captured]
  refine h.trans (List.IsInfix.trans ?_ (List.suffix_append _ _).isInfix)
  exact (List.prefix_append _ _).isInfix

/-- The path of a device or of its partition contains the path of the device. -/
theorem Names.infix_text {o : DfOutput} {name : List UInt8} (h : o.Names name) :
    lit "/dev/" ++ name <:+: o.text := by
  obtain ⟨suffix, hsource, -⟩ := h
  apply o.infix_text_of_infix_source
  rw [hsource]
  exact (List.prefix_append _ _).isInfix

/-- The part of the source behind a name is determined. -/
theorem names_iff_of_source {o : DfOutput} {name suffix : List UInt8}
    (h : o.source = lit "/dev/" ++ name ++ suffix) :
    o.Names name ↔ suffix = [] ∨ PartitionSuffix name suffix := by
  constructor
  · rintro ⟨suffix', hsource, hsuffix⟩
    obtain rfl : suffix' = suffix := List.append_cancel_left (hsource.symm.trans h)
    exact hsuffix
  · exact fun hsuffix => ⟨suffix, h, hsuffix⟩

end DfOutput

namespace EndDevice

/-- The prefix of a device file has single-byte characters only. -/
theorem singleBytes_dev : SingleBytes (lit "/dev/") := by decide

/-- The path that is searched for begins that of the device, and is it where the name is read to the
end. -/
theorem deviceFile_isPrefixOf (d : EndDevice) :
    d.deviceFile.m_buffer <+: lit "/dev/" ++ d.m_DevName.m_buffer :=
  Str.plus_isPrefixOf singleBytes_dev d.m_DevName

/-- After the call the disk is a system disk iff the source is its device or a partition of it. -/
def DetectsSystem (d : EndDevice) (o : DfOutput) : Prop :=
  ∀ env, o.Answers env → ∃ d', (d.determineDiskIsSystem.run env 0).result = .ok d' ∧
    (d'.systemDisk = true ↔ o.Names d.m_DevName.m_buffer)

end EndDevice

/-! ## Discovery of a volume -/

/-- Every value of the program comes with a call of `df /boot`, and `P` holds of the answer and it. -/
abbrev AsksBoot {α : Type} (p : SysProg α) (P : ShellReply → α → Prop) : Prop :=
  Ensures p fun tr res => ∀ a, res = .ok a →
    ∃ reply : ShellReply, (⟨.shell .bootFilesystem, reply⟩ : SysEvent) ∈ tr ∧ P reply a

section asks

variable {α β : Type} {p : SysProg α} {f : α → SysProg β} {Q : α → Prop}
  {P : ShellReply → α → Prop} {R : ShellReply → β → Prop}

/-- The call is in the second part. -/
theorem asksBoot_bind_of_returns (hp : Returns p Q) (hf : ∀ a, Q a → AsksBoot (f a) R) :
    AsksBoot (p >>= f) R := by
  refine ensures_bind hp.ensures (fun tr a ha => ?_) fun tr e _ b hb => by cases hb
  refine (hf a (ha a rfl)).mono fun tr' res hres b hb => ?_
  obtain ⟨reply, hmem, hreply⟩ := hres b hb
  exact ⟨reply, List.mem_append_right _ hmem, hreply⟩

/-- The call is in the first part. -/
theorem AsksBoot.bind (hp : AsksBoot p P) (hf : ∀ reply a, P reply a → Returns (f a) (R reply)) :
    AsksBoot (p >>= f) R := by
  refine ensures_bind hp (fun tr a ha => ?_) fun tr e _ b hb => by cases hb
  obtain ⟨reply, hmem, hreply⟩ := ha a rfl
  refine (hf reply a hreply).ensures.mono fun tr' res hres b hb => ?_
  exact ⟨reply, List.mem_append_left _ hmem, hres b hb⟩

/-- A program that returns `a` from every position, in front of one that returns. -/
theorem exists_result_bind {env : SysEnv} {a : α} (hp : ∀ i, (p.run env i).result = .ok a)
    (hf : ∀ i, ∃ b, ((f a).run env i).result = .ok b) (i : Nat) :
    ∃ b, ((p >>= f).run env i).result = .ok b := by
  rw [Prog.run_bind_ok env i (hp i)]
  exact hf _

end asks

namespace Volume

/-- The reply makes a volume of that device name a system volume. -/
def showsBoot (reply : ShellReply) (devName : Str) : Bool :=
  reply.exitStatus = 0 ∧ ((shellCap reply.output).find devName.m_buffer 0).isSome

/-- The inquiry for `/boot` is the only call, and only the flag of the volume is touched. -/
theorem discoverSystem_eq (v : Volume) : v.discoverSystem = .call (.shell .bootFilesystem) fun reply =>
    pure { v with m_SystemVolume := v.m_SystemVolume || showsBoot reply v.m_DevName } := by
  unfold discoverSystem
  rw [shellOutput_bind]
  congr 1
  funext reply
  split
  next h =>
    have hshows : showsBoot reply v.m_DevName = true := decide_eq_true h
    rw [hshows, Bool.or_true]
  next h =>
    have hnot : showsBoot reply v.m_DevName = false := decide_eq_false h
    rw [hnot, Bool.or_false]

/-- The inquiry as a specification: identity kept, flag set where the output shows the device name and
else left as it was. -/
theorem asksBoot_discoverSystem (v : Volume) : AsksBoot v.discoverSystem fun reply v' =>
    v'.toRaidDevice = v.toRaidDevice ∧
      v'.m_SystemVolume = (v.m_SystemVolume || showsBoot reply v.m_DevName) := by
  rw [discoverSystem_eq]
  refine ensures_call fun reply => ensures_pure fun v' hv' => ?_
  obtain rfl := Except.ok.inj hv'
  exact ⟨reply, List.mem_singleton_self _, rfl, rfl⟩

/-- Discovery of the attributes sets the flag where the reply shows the device. -/
theorem asksBoot_discoverAttributes (v : Volume) : AsksBoot v.discoverAttributes fun reply v' =>
    v'.toRaidDevice = v.toRaidDevice ∧
      v'.m_SystemVolume = (v.m_SystemVolume || showsBoot reply v.m_DevName) := by
  refine asksBoot_bind_of_returns v.keepsIdentity_discoverLevel fun v₁ h₁ => ?_
  refine asksBoot_bind_of_returns v₁.keepsIdentity_discoverState fun v₂ h₂ => ?_
  refine asksBoot_bind_of_returns v₂.keepsIdentity_discoverProgress fun v₃ h₃ => ?_
  refine asksBoot_bind_of_returns v₃.keepsIdentity_discoverSizes fun v₄ h₄ => ?_
  have hdevice : v₄.toRaidDevice = v.toRaidDevice := by rw [h₄.1, h₃.1, h₂.1, h₁.1]
  have hflag : v₄.m_SystemVolume = v.m_SystemVolume := by rw [h₄.2, h₃.2, h₂.2, h₁.2]
  refine v₄.asksBoot_discoverSystem.bind fun reply v₅ h₅ => ?_
  refine v₅.keepsIdentity_discoverPolicy.mono fun v₆ h₆ => ?_
  rw [h₆.1, h₆.2, h₅.1, h₅.2, hdevice, hflag]
  exact ⟨rfl, rfl⟩

/-- The device name of the volume found at a path. -/
def devNameOf (path : Str) : Str := path.reverseAfter (.ofLit "/")

/-- A volume found at a path is a system volume where the reply shows its device name. -/
theorem asksBoot_discover (path : Str) (ordinal : UInt32) :
    AsksBoot (ofPath path ordinal).discover fun reply v' =>
      v'.m_SystemVolume = showsBoot reply (devNameOf path) := by
  have hname : Returns (ofPath path ordinal).toRaidDevice.discover fun d =>
      d.m_DevName = devNameOf path := by
    unfold RaidDevice.discover
    rw [RaidDevice.update_eq]
    intro env i d hd
    obtain rfl := Except.ok.inj hd
    exact RaidDevice.devName_updated rfl _
  refine asksBoot_bind_of_returns hname fun d hd => ?_
  refine asksBoot_bind_of_returns (Q := fun _ => True) (fun _ _ _ _ => trivial) fun _ _ => ?_
  refine (asksBoot_discoverAttributes _).mono fun tr res hres v' hv' => ?_
  obtain ⟨reply, hmem, -, hflag⟩ := hres v' hv'
  refine ⟨reply, hmem, ?_⟩
  show v'.m_SystemVolume = _
  rw [hflag, ← hd]
  rfl

/-- The block device of a volume asks twice, and returns. -/
theorem discoverBlockDevice_quiet (d : EndDevice) (o : DfOutput) (i : Nat) :
    ∃ d', (d.discoverBlockDevice.run o.quiet i).result = .ok d' := ⟨_, rfl⟩

/-- In a system that shows nothing else the attributes of a volume are discovered. -/
theorem discoverAttributes_quiet {v : Volume} (hunknown : v.m_State = .unknown) (o : DfOutput) (i : Nat) :
    ∃ v', (v.discoverAttributes.run o.quiet i).result = .ok v' := by
  let w : Volume := { v with m_State := .normal }
  have hlevel : ∀ i, (v.discoverLevel.run o.quiet i).result = .ok v := fun i => rfl
  have hstate : ∀ i, (v.discoverState.run o.quiet i).result = .ok w := by
    intro i
    rw [discoverState, if_pos hunknown]
    rfl
  have hprogress : ∀ i, (w.discoverProgress.run o.quiet i).result = .ok w := fun i => rfl
  have hsizes : ∀ i, (w.discoverSizes.run o.quiet i).result = .ok w := fun i => rfl
  let shown : Volume :=
    { w with m_SystemVolume := w.m_SystemVolume || showsBoot ⟨0, o.output, []⟩ w.m_DevName }
  have hsystem : ∀ i, (w.discoverSystem.run o.quiet i).result = .ok shown := by
    intro i
    rw [discoverSystem_eq]
    rfl
  have hpolicy : ∀ i, (shown.discoverPolicy.run o.quiet i).result = .ok shown := fun i => rfl
  unfold discoverAttributes
  refine exists_result_bind hlevel ?_ i
  apply exists_result_bind hstate
  apply exists_result_bind hprogress
  apply exists_result_bind hsizes
  apply exists_result_bind hsystem
  exact fun i => ⟨shown, hpolicy i⟩

/-- And so is the volume, behind its block device. -/
theorem discover_quiet (path : Str) (ordinal : UInt32) (o : DfOutput) :
    ∃ v', ((ofPath path ordinal).discover.run o.quiet 0).result = .ok v' := by
  have hdevice : ∀ i, ((ofPath path ordinal).toRaidDevice.discover.run o.quiet i).result =
      .ok { (ofPath path ordinal).toRaidDevice with m_DevName := devNameOf path } := fun i => rfl
  refine exists_result_bind hdevice (fun i => ?_) 0
  obtain ⟨d, hd⟩ := discoverBlockDevice_quiet (.ofPath (ofPath path ordinal).m_Path) o i
  rw [Prog.run_bind_ok o.quiet i hd]
  exact discoverAttributes_quiet rfl o _

/-- After its discovery the volume found at a path is a system volume iff the source is its device or
a partition of it. -/
def DetectsSystem (path : Str) (ordinal : UInt32) (o : DfOutput) : Prop :=
  ∀ env, o.Answers env → ∀ v', ((ofPath path ordinal).discover.run env 0).result = .ok v' →
    (v'.m_SystemVolume = true ↔ o.Names (devNameOf path).m_buffer)

end Volume

/-! ## Main result -/

section exact

variable {o : DfOutput} {env : SysEnv}

/-- Run against an environment that answers, the flag of a disk is whether its device file is found in
the output. -/
theorem EndDevice.run_determineDiskIsSystem (d : EndDevice) (h : o.Answers env) :
    (d.determineDiskIsSystem.run env 0).result =
      .ok { d with systemDisk := ((shellCap o.output).find d.deviceFile.m_buffer 0).isSome } := by
  obtain ⟨hexit, houtput⟩ := h 0
  unfold EndDevice.determineDiskIsSystem
  rw [shellOutput_bind, Prog.run_call]
  dsimp only
  rw [if_pos hexit, houtput]
  rfl

/-- The flag of a disk is right where its path does not occur in the output, or belongs there. -/
theorem EndDevice.determines_iff (d : EndDevice) (o : DfOutput) :
    d.DetectsSystem o ↔ o.Names d.m_DevName.m_buffer ∨ ¬ d.deviceFile.m_buffer <:+: o.text := by
  have hshown : o.Names d.m_DevName.m_buffer → d.deviceFile.m_buffer <:+: o.text :=
    fun h => d.deviceFile_isPrefixOf.isInfix.trans h.infix_text
  have hflag : d.DetectsSystem o ↔
      (d.deviceFile.m_buffer <:+: o.text ↔ o.Names d.m_DevName.m_buffer) := by
    rw [DfOutput.text, ← Str.find_isSome_iff]
    constructor
    · intro h
      obtain ⟨d', hrun, hd'⟩ := h o.quiet o.answers_quiet
      rw [d.run_determineDiskIsSystem o.answers_quiet] at hrun
      obtain rfl := Except.ok.inj hrun
      exact hd'
    · intro h env henv
      exact ⟨_, d.run_determineDiskIsSystem henv, h⟩
  rw [hflag]
  tauto

/-- With exit status 0 the volume counts as the system's iff its device name stands anywhere in the
output. -/
theorem Volume.showsBoot_iff {reply : ShellReply} (hexit : reply.exitStatus = 0)
    (houtput : reply.output = o.output) (devName : Str) :
    Volume.showsBoot reply devName = true ↔ devName.m_buffer <:+: o.text := by
  simp [Volume.showsBoot, hexit, houtput, DfOutput.text, Str.find_isSome_iff]

/-- The flag of a volume is right where its name does not occur in the output, or belongs there. -/
theorem Volume.discovers_iff (path : Str) (ordinal : UInt32) (o : DfOutput) :
    Volume.DetectsSystem path ordinal o ↔
      o.Names (devNameOf path).m_buffer ∨ ¬ (devNameOf path).m_buffer <:+: o.text := by
  have hshown : o.Names (devNameOf path).m_buffer → (devNameOf path).m_buffer <:+: o.text :=
    fun h => (List.suffix_append _ _).isInfix.trans h.infix_text
  have hflag : ∀ env, o.Answers env → ∀ v', ((ofPath path ordinal).discover.run env 0).result = .ok v' →
      (v'.m_SystemVolume = true ↔ (devNameOf path).m_buffer <:+: o.text) := by
    intro env henv v' hv'
    obtain ⟨reply, hmem, hreply⟩ := asksBoot_discover path ordinal env 0 v' hv'
    obtain ⟨j, hj⟩ := Prog.answer_of_mem_trace _ hmem
    obtain ⟨hexit, houtput⟩ := henv j
    obtain rfl : reply = env j (.shell .bootFilesystem) := hj
    rw [hreply]
    exact showsBoot_iff hexit houtput _
  have hiff : Volume.DetectsSystem path ordinal o ↔
      ((devNameOf path).m_buffer <:+: o.text ↔ o.Names (devNameOf path).m_buffer) := by
    constructor
    · intro h
      obtain ⟨v', hv'⟩ := discover_quiet path ordinal o
      rw [← hflag o.quiet o.answers_quiet v' hv']
      exact h o.quiet o.answers_quiet v' hv'
    · intro h env henv v' hv'
      rw [hflag env henv v' hv']
      exact h
  rw [hiff]
  tauto

/-- A device whose name begins that of another device is taken for the one that holds `/boot`, with the
other one and its partitions. -/
theorem not_detects_longerName (d : EndDevice) (path : Str) {name suffix : List UInt8}
    (hsource : o.source = lit "/dev/" ++ name ++ suffix)
    (hsuffix : ¬ (suffix = [] ∨ PartitionSuffix name suffix)) :
    (d.m_DevName.m_buffer = name → ¬ d.DetectsSystem o) ∧
      ((Volume.devNameOf path).m_buffer = name → ∀ ordinal, ¬ Volume.DetectsSystem path ordinal o) := by
  have hnot : ¬ o.Names name := by rwa [o.names_iff_of_source hsource]
  have hshown : lit "/dev/" ++ name <:+: o.text := by
    apply o.infix_text_of_infix_source
    rw [hsource]
    exact (List.prefix_append _ _).isInfix
  constructor
  · rintro rfl
    rw [EndDevice.determines_iff]
    rintro (hnames | hhidden)
    · exact hnot hnames
    · exact hhidden (d.deviceFile_isPrefixOf.isInfix.trans hshown)
  · rintro rfl ordinal
    rw [Volume.discovers_iff]
    rintro (hnames | hhidden)
    · exact hnot hnames
    · exact hhidden ((List.suffix_append _ _).isInfix.trans hshown)

end exact

/-- **The device behind `/boot` is detected exactly** by the disks and the volumes that it names, and by
those whose searched text does not occur in the output. The output is any that `df /boot` may print for
a device; what the disks are asked with is their name behind `/dev/`, and what the volumes are asked
with is their name alone. -/
theorem detectsSystem_iff (o : DfOutput) :
    (∀ d : EndDevice, d.DetectsSystem o ↔
      o.Names d.m_DevName.m_buffer ∨ ¬ d.deviceFile.m_buffer <:+: o.text) ∧
    ∀ path ordinal, Volume.DetectsSystem path ordinal o ↔
      o.Names (Volume.devNameOf path).m_buffer ∨ ¬ (Volume.devNameOf path).m_buffer <:+: o.text :=
  ⟨fun d => d.determines_iff o, fun path ordinal => Volume.discovers_iff path ordinal o⟩

/-- What `df /boot` prints where `/boot` is on the first partition of `sdaa`. -/
def bootLines : List UInt8 :=
  lit "Filesystem 1K-blocks Used Available Use% Mounted on\n" ++
    lit "/dev/sdaa1 1038336 262144 776192 26% /boot\n"

def bootOnSdaa : DfOutput where
  output := bootLines
  headings := lit "Filesystem 1K-blocks Used Available Use% Mounted on"
  source := lit "/dev/sdaa1"
  columns := lit " 1038336 262144 776192 26% /boot\n"
  captured := by
    have hsingle : SingleBytes bootLines := by decide +kernel
    rw [shellCap_of_singleBytes hsingle, Str.ofBytes_buffer hsingle.wellFormed]
    decide +kernel
  oneLine := by decide +kernel
  isDevice := by decide +kernel
  oneColumn := by decide +kernel
  separated := by decide +kernel

/-- The disk `sda` is taken for a system disk, with the partition of `sdaa`. -/
theorem not_detectsSystem_sda :
    ¬ ∀ (o : DfOutput) (d : EndDevice) (path : Str) (ordinal : UInt32),
      d.DetectsSystem o ∧ Volume.DetectsSystem path ordinal o := by
  intro h
  let d : EndDevice := ⟨true, .ofLit "sda", .sata, .passThru, .normal, false, false, none, none, none⟩
  have hsuffix : ¬ (lit "a1" = [] ∨ PartitionSuffix (lit "sda") (lit "a1")) := by
    have hletter : ¬ ∃ b ∈ (lit "sda").getLast?, 48 ≤ b ∧ b ≤ 57 := by decide +kernel
    unfold PartitionSuffix Digits
    rw [if_neg hletter]
    decide +kernel
  have hname : d.m_DevName.m_buffer = lit "sda" := by decide
  exact (not_detects_longerName d .empty (by decide +kernel) hsuffix).1 hname
    (h bootOnSdaa d .empty 0).1

end Irstessi
