import Irstessi.MapLookup
import Irstessi.VolumeCreate

/-!
# The identity of a freshly created volume

`Volume::create` waits for the line of the new volume in the map file, but only while the object has
no uuid; and `RaidDevice::discover` on a new object, whose device name is empty, takes the uuid of
the first line it finds.

* `updated`: an update as a function of what the file system shows, `update_eq`.
* `waitForVolume_run`: how many polls a wait makes, and what it ends with.
* **`ownIdentity_iff`**: a volume ends with the identity of its own line, or after ten polls that do
  not show that line, iff the first read gives no uuid and the first line that the polls come by is
  the own one.

A new object is discovered before it has a name, so that its first update is a look-up by the empty
device name, which is found in the first line of the map file. The wait makes a poll only while the uuid
is empty. `updated` describes one update as a function of the map text that is read; the wait is then a
search in the ten texts of its polls for the first from which a line with a uuid is taken, and
`waitForVolume_run` gives the number of its polls and its result. The creation itself goes before the
wait, and neither setters nor commands change uuid or device name (`VolumeCreate`).
-/

namespace Irstessi

open Interact

namespace RaidDevice

/-! ## Updates -/

/-- The line that an update takes. -/
def taken (d : RaidDevice) (reply : MapReply) : Option Str :=
  (readFile reply.text reply.behind).bind d.firstMatch

/-- The object after an update. -/
def updated (d : RaidDevice) (reply : MapReply) : RaidDevice :=
  match d.taken reply with
  | none => d
  | some line =>
      { d.take line with
        m_Path := reply.canonicalPath (Str.ofLit "/sys/block/" ++ (d.take line).m_DevName) }

/-- An update asks the system for the map file once and depends on nothing else. -/
theorem update_eq (d : RaidDevice) :
    d.update = .call .readMap fun reply => pure (d.updated reply) := by
  unfold update updated taken
  rw [readMap_bind]
  congr 1
  funext reply
  rcases readFile reply.text reply.behind with _ | map
  · rfl
  · simp only [Option.bind_some, internalUpdate_eq]
    rcases d.firstMatch map with _ | line
    · rfl
    · rfl

/-- Where no line is taken an update leaves the object as it is. -/
theorem updated_of_none {d : RaidDevice} {reply : MapReply} (h : d.taken reply = none) :
    d.updated reply = d := by
  rw [updated, h]

/-- The uuid becomes that of the line taken, an empty one included. -/
theorem updated_uuid {d : RaidDevice} {reply : MapReply} {line : Str}
    (h : d.taken reply = some line) : (d.updated reply).m_Uuid = lineUuid line := by
  simp [updated, h]

/-- The device name is replaced only in a lookup by name. -/
theorem updated_devName {d : RaidDevice} {reply : MapReply} {line : Str}
    (h : d.taken reply = some line) :
    (d.updated reply).m_DevName = if d.lookupByName then lineDevName line else d.m_DevName := by
  simp [updated, h]

/-- An update by device name keeps it. -/
theorem devName_updated {d : RaidDevice} (h : d.lookupByName = false) (reply : MapReply) :
    (d.updated reply).m_DevName = d.m_DevName := by
  rcases hline : d.taken reply with _ | line
  · rw [updated_of_none hline]
  · rw [updated_devName hline, h]
    rfl

/-- The name that was looked up is kept. -/
theorem updated_name {d : RaidDevice} (hname : d.lookupByName) (reply : MapReply) :
    (d.updated reply).m_Name = d.m_Name := by
  unfold updated
  split
  next => rfl
  next line _ => simp [hname]

/-- An update by name takes the line that the name alone selects. -/
theorem taken_of_lookupByName {d d' : RaidDevice} (hd : d.lookupByName) (hname : d.m_Name = d'.m_Name)
    (reply : MapReply) : d.taken reply = d'.taken reply := by
  have hd' : d'.lookupByName := by rwa [lookupByName, ← hname]
  unfold taken firstMatch wanted
  rw [if_pos hd, if_pos hd', hname, hd, hd']

end RaidDevice

/-! ## Lines of a map file -/

/-- The text is a line of the content. -/
def IsLineOf (line text : List UInt8) : Prop :=
  ∃ pre post, text = pre ++ line ++ post ∧ (pre = [] ∨ pre.getLast? = some 10) ∧
    (post = [] ∨ post.head? = some 10)

/-- The map file has a line of the volume name. -/
def OwnLine (reply : MapReply) (name : Str) (l : MapLine) : Prop :=
  (∃ text, reply.text = some text ∧ IsLineOf l.text text) ∧ l.Valid ∧ l.device ≠ [] ∧ l.uuid ≠ [] ∧
    l.name = name.m_buffer

/-- Device name and uuid of the object are those of a line of its name. -/
def HasIdentityFrom (d : RaidDevice) (reply : MapReply) : Prop :=
  ∃ l, OwnLine reply d.m_Name l ∧ d.m_DevName.m_buffer = l.device ∧ d.m_Uuid.m_buffer = l.uuid

namespace Volume

/-! ## The wait -/

/-- What the volume's update in poll number `j` reads, of a wait that begins at call `s`; each poll
updates the container first. -/
def pollReply (env : SysEnv) (s j : Nat) : MapReply := env (s + 2 * j + 1) .readMap

/-- The polls from the second one on are those of a shorter wait; each takes two calls, the sleep and
the reading. -/
theorem pollReply_succ (env : SysEnv) (s j : Nat) :
    pollReply env (s + 2) j = pollReply env s (j + 1) := by
  unfold pollReply
  rw [show s + 2 + 2 * j + 1 = s + 2 * (j + 1) + 1 by omega]

/-- The update takes a line with a uuid. -/
def Hit (d : RaidDevice) (reply : MapReply) : Prop :=
  ∃ line, d.taken reply = some line ∧ ¬ (RaidDevice.lineUuid line).equal .empty

/-- The outcome of a wait of at most `polls` polls after `k` of them: no poll took a uuid, or the last
one did. -/
def Waited (d : RaidDevice) (reply : Nat → MapReply) (polls k : Nat) (d' : RaidDevice) : Prop :=
  (k = polls ∧ d'.m_Uuid.equal .empty ∧ ∀ j < polls, ¬ Hit d (reply j)) ∨
  ∃ j < polls, k = j + 1 ∧ (∀ i < j, ¬ Hit d (reply i)) ∧ ∃ line, d.taken (reply j) = some line ∧
    ¬ (RaidDevice.lineUuid line).equal .empty ∧ d'.m_DevName = RaidDevice.lineDevName line ∧
    d'.m_Uuid = RaidDevice.lineUuid line

/-- A poll that takes no uuid is followed by the other polls. -/
theorem Waited.succ {d : RaidDevice} {reply : Nat → MapReply} {polls k : Nat} {d' : RaidDevice}
    (hmiss : ¬ Hit d (reply 0)) (h : Waited d (fun j => reply (j + 1)) polls k d') :
    Waited d reply (polls + 1) (k + 1) d' := by
  have hbelow : ∀ n, (∀ j < n, ¬ Hit d (reply (j + 1))) → ∀ j < n + 1, ¬ Hit d (reply j) := by
    intro n hn j hj
    rcases j with _ | j
    · exact hmiss
    · exact hn j (by omega)
  rcases h with ⟨rfl, huuid, hnone⟩ | ⟨j, hj, rfl, hnone, line, hline⟩
  · exact .inl ⟨rfl, huuid, hbelow k hnone⟩
  · exact .inr ⟨j + 1, by omega, rfl, hbelow j hnone, line, hline⟩

/-- A wait for a volume with a uuid makes no poll. -/
theorem waitForVolume_of_uuid {v : Volume} (huuid : ¬ v.m_Uuid.equal .empty) (polls : Nat) :
    v.waitForVolume polls = pure v := by
  cases polls with
  | zero => rfl
  | succ polls =>
      unfold waitForVolume
      split
      next => rfl
      next => rw [if_neg huuid]

/-- The polls of a wait, and what it ends with. -/
theorem waitForVolume_run (env : SysEnv) {v : Volume} (hname : v.lookupByName)
    (hparent : v.m_pParent.isSome) (huuid : v.m_Uuid.equal .empty) (polls s : Nat) :
    ∃ k v', ((v.waitForVolume polls).run env s).trace.length = 2 * k ∧
      ((v.waitForVolume polls).run env s).result = .ok v' ∧ v'.m_Name = v.m_Name ∧
      Waited v.toRaidDevice (pollReply env s) polls k v'.toRaidDevice := by
  induction polls generalizing v s with
  | zero => exact ⟨0, v, rfl, rfl, rfl, .inl ⟨rfl, huuid, by simp⟩⟩
  | succ polls ih =>
      obtain ⟨pArray, hparray⟩ := Option.isSome_iff_exists.mp hparent
      have hstep : v.waitForVolume (polls + 1) = .call .readMap fun r => .call .readMap fun r' =>
          waitForVolume { v with
            toRaidDevice := v.toRaidDevice.updated r'
            m_pParent := some { pArray with toRaidDevice := pArray.toRaidDevice.updated r } }
            polls := by
        rw [waitForVolume, hparray]
        simp only [huuid, if_true, RaidDevice.update_eq]
        rfl
      rw [hstep, Prog.run_call, Prog.run_call]
      generalize hv : ({ v with
        toRaidDevice := v.toRaidDevice.updated (env (s + 1) .readMap)
        m_pParent := some { pArray with
          toRaidDevice := pArray.toRaidDevice.updated (env s .readMap) } } : Volume) = v₁
      have hdev : v₁.toRaidDevice = v.toRaidDevice.updated (pollReply env s 0) := by
        rw [← hv]
        rfl
      have hname₁ : v₁.m_Name = v.m_Name := by
        rw [hdev]
        exact RaidDevice.updated_name hname _
      have hlookup₁ : v₁.lookupByName := by
        rw [RaidDevice.lookupByName, hname₁]
        exact hname
      have hparent₁ : v₁.m_pParent.isSome := by rw [← hv]; rfl
      have hsame : ∀ reply, v₁.taken reply = v.taken reply :=
        RaidDevice.taken_of_lookupByName hlookup₁ hname₁
      by_cases huuid₁ : v₁.m_Uuid.equal .empty
      · have hmiss : ¬ Hit v.toRaidDevice (pollReply env s 0) := by
          rintro ⟨line, hline, hne⟩
          rw [hdev, RaidDevice.updated_uuid hline] at huuid₁
          exact hne huuid₁
        obtain ⟨k, v', hlen, hres, hname', hwaited⟩ := ih hlookup₁ hparent₁ huuid₁ (s + 1 + 1)
        refine ⟨k + 1, v', ?_, hres, hname'.trans hname₁, .succ hmiss ?_⟩
        · simp only [List.length_cons, hlen]
          omega
        · have hreply : pollReply env (s + 1 + 1) = fun j => pollReply env s (j + 1) :=
            funext (pollReply_succ env s)
          rw [← hreply]
          simpa only [Waited, Hit, hsame] using hwaited
      · rw [waitForVolume_of_uuid huuid₁, Prog.run_pure]
        refine ⟨1, v₁, rfl, rfl, hname₁, .inr ⟨0, by omega, rfl, by simp, ?_⟩⟩
        rcases hline : v.taken (pollReply env s 0) with _ | line
        · rw [hdev, RaidDevice.updated_of_none hline] at huuid₁
          exact absurd huuid huuid₁
        · rw [hdev] at huuid₁ ⊢
          rw [RaidDevice.updated_devName hline, if_pos hname, RaidDevice.updated_uuid hline]
          rw [RaidDevice.updated_uuid hline] at huuid₁
          exact ⟨line, rfl, huuid₁, rfl, rfl⟩

/-! ## From discovery to the wait -/

/-- A new object has no name, so that its first update is a lookup by the (empty) device name. -/
theorem new_lookupByName : new.lookupByName = false := rfl

/-- A new volume has no device name after discovery either, and the uuid of the line taken. -/
theorem new_updated (reply : MapReply) :
    (new.toRaidDevice.updated reply).m_DevName = .empty ∧
      ((new.toRaidDevice.updated reply).m_Uuid.equal .empty ↔ ¬ Hit new.toRaidDevice reply) := by
  refine ⟨RaidDevice.devName_updated new_lookupByName reply, ?_⟩
  unfold Hit
  rcases hline : new.toRaidDevice.taken reply with _ | line
  · rw [RaidDevice.updated_of_none hline]
    simp
    rfl
  · rw [RaidDevice.updated_uuid hline]
    simp

/-- Discovery of a new volume begins with a read of the map file. -/
theorem new_discover :
    new.discover = .call .readMap fun reply =>
      (EndDevice.ofPath .empty).discoverBlockDevice >>= fun _ =>
        discoverAttributes { new with toRaidDevice := new.toRaidDevice.updated reply } := by
  have hpath : ({ new.toRaidDevice with
      m_DevName := new.toRaidDevice.m_Path.reverseAfter (.ofLit "/") } : RaidDevice) =
        new.toRaidDevice := by decide
  unfold discover RaidDevice.discover
  rw [hpath, RaidDevice.update_eq]
  rfl

section creation

variable (caller : Caller) (info : SSI_RaidLevelInfo) (pArray : RaidArray)
  (container : List EndDevice) (params : VolumeParams) (rounds : Nat) (env : SysEnv) (i : Nat)

/-- The new volume when its wait begins. -/
def fresh : SysProg Volume := do
  let v ← prepare caller info pArray container params
  v.createCommands rounds

/-- The new volume when `create` returns. -/
def created : SysProg Volume := do
  let v ← prepare caller info pArray container params
  v.create rounds

/-- Creation is what goes before the wait, and then the wait of ten polls. -/
theorem created_eq :
    created caller info pArray container params rounds =
      fresh caller info pArray container params rounds >>= fun v => v.waitForVolume 10 :=
  (Prog.bind_assoc _ _ _).symm

/-- The number of the call at which the wait begins. -/
def waitStart : Nat :=
  i + ((fresh caller info pArray container params rounds).run env i).trace.length

/-- The number of polls made: the calls after the beginning of the wait, two for each poll. -/
def pollsMade : Nat :=
  (((created caller info pArray container params rounds).run env i).trace.length -
    ((fresh caller info pArray container params rounds).run env i).trace.length) / 2

/-- The names and the container of the new volume when its wait begins. -/
theorem fresh_run {v : Volume}
    (h : ((fresh caller info pArray container params rounds).run env i).result = .ok v) :
    v.m_DevName = .empty ∧ (v.m_Uuid.equal .empty ↔ ¬ Hit new.toRaidDevice (env i .readMap)) ∧
      v.m_pParent = some pArray ∧ v.lookupByName := by
  let discovered : MapReply → SysProg Volume := fun reply =>
    (EndDevice.ofPath .empty).discoverBlockDevice >>= fun _ =>
      discoverAttributes { new with toRaidDevice := new.toRaidDevice.updated reply }
  have hprepared : ∀ reply : MapReply, Returns
      (discovered reply >>= settings caller info pArray container params)
      fun v => v.m_DevName = (new.toRaidDevice.updated reply).m_DevName ∧
        v.m_Uuid = (new.toRaidDevice.updated reply).m_Uuid ∧ v.m_pParent = some pArray := by
    intro reply
    refine returns_bind (returns_bind_of_forall fun _ => keepsDevice_discoverAttributes _)
      fun v₁ h₁ => ?_
    refine (returns_settings caller v₁).mono fun v₂ h₂ => ?_
    rw [h₂.1, h₂.2.1, h₁]
    exact ⟨rfl, rfl, h₂.2.2⟩
  have hreturns : ∀ reply : MapReply, Returns
      ((discovered reply >>= settings caller info pArray container params) >>= fun v =>
        v.createCommands rounds)
      fun v => v.m_DevName = (new.toRaidDevice.updated reply).m_DevName ∧
        v.m_Uuid = (new.toRaidDevice.updated reply).m_Uuid ∧ v.m_pParent = some pArray ∧
          v.lookupByName := by
    intro reply
    refine returns_bind (hprepared reply) fun v₂ h₂ => ?_
    refine (v₂.returns_createCommands rounds).mono fun v₃ h₃ => ?_
    rw [h₃.1.devName, h₃.1.uuid, h₃.1.parent]
    exact ⟨h₂.1, h₂.2.1, h₂.2.2, h₃.2⟩
  have heq : fresh caller info pArray container params rounds = .call .readMap fun reply =>
      (discovered reply >>= settings caller info pArray container params) >>= fun v =>
        v.createCommands rounds := by
    unfold fresh prepare
    rw [new_discover]
    rfl
  rw [heq, Prog.run_call] at h
  obtain ⟨hdev, huuid, hparent, hname⟩ := hreturns _ env (i + 1) v h
  obtain ⟨hnew, hnewuuid⟩ := new_updated (env i .readMap)
  rw [hdev, huuid, hnewuuid]
  exact ⟨hnew, Iff.rfl, hparent, hname⟩

end creation

/-! ## Main result -/

/-- No poll shows a line of the name. -/
def NeverListed (env : SysEnv) (s : Nat) (name : Str) : Prop :=
  ∀ j < 10, ∀ l, ¬ OwnLine (pollReply env s j) name l

/-- The map file as the last poll has read it; where no poll was made, as it stands. -/
def lastReply (env : SysEnv) (s polls : Nat) : MapReply :=
  if polls = 0 then env s .readMap else pollReply env s (polls - 1)

/-- The volume has the identity of its own line, or ten polls were made without that line being
present. -/
def OwnIdentity (env : SysEnv) (s polls : Nat) (v : Volume) : Prop :=
  HasIdentityFrom v.toRaidDevice (lastReply env s polls) ∨ polls = 10 ∧ NeverListed env s v.m_Name

/-- The line that an update takes carries the identity of a line of the name. -/
def HitIsOwn (name : Str) (reply : MapReply) : Prop :=
  ∃ line l, (RaidDevice.named name).taken reply = some line ∧ OwnLine reply name l ∧
    (RaidDevice.lineDevName line).m_buffer = l.device ∧
    (RaidDevice.lineUuid line).m_buffer = l.uuid

/-- What the polls come by first is the own line, and where they come by none it was not there. -/
structure FindsOwnLine (env : SysEnv) (i s : Nat) (name : Str) : Prop where
  /-- Discovery of the new object takes no uuid. -/
  blank : ¬ Hit new.toRaidDevice (env i .readMap)
  first : ∀ j < 10, Hit (.named name) (pollReply env s j) →
    (∀ k < j, ¬ Hit (.named name) (pollReply env s k)) →
      HitIsOwn name (pollReply env s j) ∨ j = 9 ∧ NeverListed env s name
  none : (∀ j < 10, ¬ Hit (.named name) (pollReply env s j)) → NeverListed env s name

/-- The wait of a volume without a uuid. -/
theorem ownIdentity_of_waited {env : SysEnv} {i s k : Nat} {d : RaidDevice} {v : Volume}
    (hblank : ¬ Hit new.toRaidDevice (env i .readMap)) (hd : d.lookupByName)
    (hname : v.m_Name = d.m_Name) (h : Waited d (pollReply env s) 10 k v.toRaidDevice) :
    OwnIdentity env s k v ↔ FindsOwnLine env i s v.m_Name := by
  have hsame : ∀ reply, d.taken reply = (RaidDevice.named v.m_Name).taken reply :=
    RaidDevice.taken_of_lookupByName hd hname.symm
  simp only [Waited, Hit, hsame] at h
  rcases h with ⟨rfl, huuid, hnone⟩ | ⟨j, hj, rfl, hnone, line, hline, hne, hdev, huuid⟩
  · have hnot : ¬ HasIdentityFrom v.toRaidDevice (lastReply env s 10) := by
      rintro ⟨l, ⟨-, -, -, hluuid, -⟩, -, heq⟩
      rw [Str.equal_empty_iff] at huuid
      exact hluuid (heq.symm.trans huuid)
    constructor
    · rintro (hown | ⟨-, hnever⟩)
      · exact absurd hown hnot
      · exact ⟨hblank, fun j hj hhit _ => absurd hhit (hnone j hj), fun _ => hnever⟩
    · intro hfinds
      exact .inr ⟨rfl, hfinds.none hnone⟩
  · have hlast : lastReply env s (j + 1) = pollReply env s j := by simp [lastReply]
    have hhit : Hit (.named v.m_Name) (pollReply env s j) := ⟨line, hline, hne⟩
    have hown : HasIdentityFrom v.toRaidDevice (lastReply env s (j + 1)) ↔
        HitIsOwn v.m_Name (pollReply env s j) := by
      rw [hlast]
      constructor
      · rintro ⟨l, hl, hldev, hluuid⟩
        rw [hdev] at hldev
        rw [huuid] at hluuid
        exact ⟨line, l, hline, hl, hldev, hluuid⟩
      · rintro ⟨line', l, hline', hl, hldev, hluuid⟩
        obtain rfl := Option.some.inj (hline.symm.trans hline')
        exact ⟨l, hl, by rw [hdev, hldev], by rw [huuid, hluuid]⟩
    rw [OwnIdentity, hown]
    constructor
    · intro hor
      refine ⟨hblank, fun j' hj' hhit' hbefore => ?_, fun hall => absurd hhit (hall j hj)⟩
      have heq : j' = j := by
        rcases lt_trichotomy j' j with hlt | heq | hlt
        · exact absurd hhit' (hnone j' hlt)
        · exact heq
        · exact absurd hhit (hbefore j hlt)
      subst heq
      rcases hor with hhitown | ⟨hten, hnever⟩
      · exact .inl hhitown
      · exact .inr ⟨by omega, hnever⟩
    · intro hfinds
      rcases hfinds.first j hj hhit hnone with hhitown | ⟨rfl, hnever⟩
      · exact .inl hhitown
      · exact .inr ⟨rfl, hnever⟩

/-- **When a new volume gets its own identity.** Whatever the map file shows before and after the
create command, a volume whose creation returns has the device name and the uuid of its own line,
or ten polls were made without that line being present, iff discovery of the new object took no
uuid and the first line with a uuid that the polls came by was the own one. -/
theorem ownIdentity_iff (caller : Caller) (info : SSI_RaidLevelInfo) (pArray : RaidArray)
    (container : List EndDevice) (params : VolumeParams) (rounds : Nat) (env : SysEnv) (i : Nat)
    {v : Volume}
    (h : ((created caller info pArray container params rounds).run env i).result = .ok v) :
    OwnIdentity env (waitStart caller info pArray container params rounds env i)
        (pollsMade caller info pArray container params rounds env i) v ↔
      FindsOwnLine env i (waitStart caller info pArray container params rounds env i) v.m_Name := by
  rcases hfresh : ((fresh caller info pArray container params rounds).run env i).result with e | v₀
  · rw [created_eq, Prog.run_bind_error env i hfresh] at h
    simp at h
  · obtain ⟨hdev, huuid, hparent, hname⟩ :=
      fresh_run caller info pArray container params rounds env i hfresh
    have hrun := Prog.run_bind_ok env i (f := fun v => v.waitForVolume 10) hfresh
    rw [← created_eq] at hrun
    have hpolls : pollsMade caller info pArray container params rounds env i =
        ((v₀.waitForVolume 10).run env
          (waitStart caller info pArray container params rounds env i)).trace.length / 2 := by
      unfold pollsMade waitStart
      rw [hrun, List.length_append, Nat.add_sub_cancel_left]
    rw [hrun] at h
    by_cases hempty : v₀.m_Uuid.equal .empty
    · obtain ⟨k, v', hlen, hres, hname', hwaited⟩ := waitForVolume_run env hname
        (by rw [hparent]; rfl) hempty 10
        (waitStart caller info pArray container params rounds env i)
      obtain rfl := Except.ok.inj (hres.symm.trans h)
      rw [hpolls, hlen, Nat.mul_div_cancel_left k (by omega)]
      exact ownIdentity_of_waited (huuid.mp hempty) hname hname' hwaited
    · rw [waitForVolume_of_uuid hempty, Prog.run_pure] at h hpolls
      obtain rfl := Except.ok.inj h
      rw [hpolls]
      constructor
      · rintro (⟨l, ⟨-, -, hldev, -, -⟩, heq, -⟩ | ⟨hten, -⟩)
        · rw [hdev] at heq
          exact absurd heq.symm hldev
        · simp at hten
      · intro hfinds
        exact absurd (huuid.mpr hfinds.blank) hempty

section example_creation

/-- The commands succeed, and the map file is `before` at the first call and `after` from then on. -/
def mapBeforeAfter (before after : Option (List UInt8)) : SysEnv
  | _, .shell _ => ⟨0, [], []⟩
  | 0, .readMap => ⟨before, [], id⟩
  | _ + 1, .readMap => ⟨after, [], id⟩
  | _, .readAttribute _ => none
  | _, .stat _ => true
  | _, .appendConfig _ => none

/-- A level 0 volume `data`. -/
def sampleParams : VolumeParams :=
  ⟨lit "data", 0, SSI_Raid0, SSI_StripSize128kB, .off⟩

/-- Its creation on two free disks, the map file being as given. -/
def sampleRun (before after : Option (List UInt8)) : Run SysCall SysReply Str Fault Volume :=
  (created .SsiVolumeCreateFromDisks sampleInfo sampleArray
    [sampleDisk (.ofLit "sdc") .passThru, sampleDisk (.ofLit "sdd") .passThru]
    sampleParams 1).run (mapBeforeAfter before after) 0

/-- The line of the new volume. -/
def dataLine : List UInt8 := lit "md125 /md127/1 cc:3 /dev/md/data\n"

/-- A line that was there before. -/
def otherLine : List UInt8 := lit "md126 /md127/0 bb:2 /dev/md/vol\n"

example : (sampleRun none (some dataLine)).result.toOption.map (fun v => (v.m_DevName, v.m_Uuid)) =
    some (.ofLit "md125", .ofLit "cc:3") := by decide +kernel

/-- The equivalence where no map file exists before the creation. -/
theorem ownIdentity_data :
    ∃ v, (sampleRun none (some dataLine)).result = .ok v ∧
      (OwnIdentity (mapBeforeAfter none (some dataLine))
          (waitStart .SsiVolumeCreateFromDisks sampleInfo sampleArray
            [sampleDisk (.ofLit "sdc") .passThru, sampleDisk (.ofLit "sdd") .passThru]
            sampleParams 1 (mapBeforeAfter none (some dataLine)) 0)
          (pollsMade .SsiVolumeCreateFromDisks sampleInfo sampleArray
            [sampleDisk (.ofLit "sdc") .passThru, sampleDisk (.ofLit "sdd") .passThru]
            sampleParams 1 (mapBeforeAfter none (some dataLine)) 0) v ↔
        FindsOwnLine (mapBeforeAfter none (some dataLine)) 0
          (waitStart .SsiVolumeCreateFromDisks sampleInfo sampleArray
            [sampleDisk (.ofLit "sdc") .passThru, sampleDisk (.ofLit "sdd") .passThru]
            sampleParams 1 (mapBeforeAfter none (some dataLine)) 0) v.m_Name) := by
  have hok : (sampleRun none (some dataLine)).result.isOk = true := by decide +kernel
  rcases hres : (sampleRun none (some dataLine)).result with e | v
  · rw [hres] at hok
    cases hok
  · exact ⟨v, rfl, ownIdentity_iff _ _ _ _ _ _ _ _ hres⟩

/-- A volume was there before: the new volume has its uuid, no device name, and no poll was made. -/
theorem not_ownIdentity_data :
    ¬ ∀ (caller : Caller) (info : SSI_RaidLevelInfo) (pArray : RaidArray)
      (container : List EndDevice) (params : VolumeParams) (rounds : Nat) (env : SysEnv) (i : Nat)
      (v : Volume),
      ((created caller info pArray container params rounds).run env i).result = .ok v →
        OwnIdentity env (waitStart caller info pArray container params rounds env i)
          (pollsMade caller info pArray container params rounds env i) v := by
  intro h
  have hdev : (sampleRun (some otherLine) (some (otherLine ++ dataLine))).result.toOption.map
      (fun v => v.m_DevName) = some .empty := by decide +kernel
  rcases hres : (sampleRun (some otherLine) (some (otherLine ++ dataLine))).result with e | v
  · rw [hres] at hdev
    cases hdev
  · rw [hres] at hdev
    have hempty : v.m_DevName = .empty := Option.some.inj hdev
    rcases h _ _ _ _ _ _ _ _ v hres with ⟨l, ⟨-, -, hldev, -, -⟩, heq, -⟩ | ⟨hten, -⟩
    · rw [hempty] at heq
      exact hldev heq.symm
    · exact absurd hten (by decide +kernel)

end example_creation

end Volume

end Irstessi
