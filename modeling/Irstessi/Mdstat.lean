import Irstessi.EventMonitor
import Irstessi.Lib.Lines
import Irstessi.Lib.Occurrence
import Irstessi.Str
import Mathlib.Data.Finset.Dedup
import Mathlib.Data.List.TakeWhile

/-!
# The containers of `/proc/mdstat`

How `ssieventmonitor` reads the inactive `external:imsm` devices and their members out of the text.

* `ContainerDev`, `initContainers`: a slot of the tables and the two tables at the start.
* `getDevnum`, `addMemberDevname`, `collectMembers`, `collectDevices`: a line into a slot.
* `fgetsAll`, `readLines`, `readMdstat`: the file through the line buffers.
* `compareMemberLists`, `compareContainerList`, `membersChanged`: the comparison of the tables.

The monitor has two tables of containers with their members and reads the text into one of them while
the other still has what was read before. A text is given as its devices with their lines, and `content`
renders it; devices are active or inactive and have further lines that nothing is read from. The slot of
a container is found by the first free one; a device is told by the number behind `md` in its name. The
proof goes line by line: a header of an inactive device followed by a line with `external:imsm` fills a
slot, and all other lines leave the table as it was, provided that none of them is cut by the line
buffer.
-/

namespace Irstessi

namespace Mdstat

/-! ## The tables -/

/-- Source: `ssieventmonitor.cpp` `MAX_CONTAINERS` -/
def MAX_CONTAINERS : Nat := 10

/-- A slot: the names of the members, the one read last in front, and the number of the device. A slot
with a negative number is free.
Source: `ssieventmonitor.cpp` `container_dev`, `dev_member` -/
structure ContainerDev where
  devs : List (List UInt8)
  devnum : Int
  deriving DecidableEq, Repr

/-- A slot that is not used. -/
def ContainerDev.free : ContainerDev := ⟨[], -1⟩

/-- Source: `ssieventmonitor.cpp` `_init_containers` -/
def initContainers : ContainerSets (List ContainerDev) :=
  ⟨fun _ => List.replicate MAX_CONTAINERS .free, true⟩

/-- The slots in use are freed.
Source: `ssieventmonitor.cpp` `_clear_other_container` -/
def clearContainer (container : List ContainerDev) : List ContainerDev :=
  container.map fun c => if 0 ≤ c.devnum then .free else c

/-! ## Lines -/

/-- `strstr`: the string from the first occurrence on. -/
def strstr (s pat : List UInt8) : Option (List UInt8) := (Occurrence.findPos pat s).map s.drop

/-- Source: `ssieventmonitor.cpp` `_get_devnum` -/
def getDevnum (devname : List UInt8) : Int :=
  match strstr devname (lit "md") with
  | none => -1
  | some devname => Str.atoi (devname.drop 2)

/-- The name ends before the next bracket; without one it is not a device.
Source: `ssieventmonitor.cpp` `_add_member_devname` -/
def addMemberDevname (m : List (List UInt8)) (name : List UInt8) : List (List UInt8) :=
  match Occurrence.findPos (lit "[") name with
  | none => m
  | some t => name.take t :: m

/-- Behind every blank a member is looked for.
Source: `ssieventmonitor.cpp` `_collect_devices`, the loop with `strchr` -/
def collectMembers (m : List (List UInt8)) : List UInt8 → List (List UInt8)
  | [] => m
  | c :: buf => collectMembers (if c = 32 then addMemberDevname m buf else m) buf

/-- What stands behind `inactive`, the first character being skipped whatever it is. Where the string
ends there the source reads on behind its end.
Source: `ssieventmonitor.cpp` `_collect_devices` -/
def membersOfLine (m : List (List UInt8)) (buf : List UInt8) : List (List UInt8) :=
  match strstr buf (lit "inactive") with
  | none => m
  | some buf =>
      match buf.drop 8 with
      | [] => m
      | _ :: buf => collectMembers (addMemberDevname m buf) buf

/-- The first free slot takes the device; where none is free it is dropped.
Source: `ssieventmonitor.cpp` `_collect_devices` -/
def collectDevices (buf : List UInt8) : List ContainerDev → List ContainerDev
  | [] => []
  | c :: container =>
      if c.devnum < 0 then ⟨membersOfLine c.devs buf, getDevnum buf⟩ :: container
      else c :: collectDevices buf container

/-! ## The file -/

/-- Source: `ssieventmonitor.cpp` `MAX_LINE_LEN` -/
def MAX_LINE_LEN : Nat := 1024

/-- The bytes that `fgets` puts into a buffer: its argument is `sizeof(line) - 1`, and a byte is left
for the end of the string. -/
def lineRoom : Nat := MAX_LINE_LEN - 1 - 1

/-- What the calls of `fgets` find one after the other, as strings. -/
def fgetsAll (content : List UInt8) : List (List UInt8) :=
  (Lines.cut 10 lineRoom lineRoom content).map fun line => line.takeWhile (· ≠ 0)

/-- A line that begins with `md` and has `inactive` in it is a container where the next line says so.
Source: `ssieventmonitor.cpp` `_read_mdstat`, the loop -/
def readLines (container : List ContainerDev) : List (List UInt8) → List ContainerDev × Int
  | [] => (container, 0)
  | line :: lines =>
      if (lit "md").isPrefixOf line then
        if (strstr line (lit "inactive")).isSome then
          match lines with
          | [] => (container, 1)
          | nextline :: lines =>
              if (strstr nextline (lit "external:imsm")).isSome then
                readLines (collectDevices line container) lines
              else readLines container lines
        else readLines container lines
      else readLines container lines

/-- `none` is a file that cannot be read from, `dup` or `fdopen` having failed.
Source: `ssieventmonitor.cpp` `_read_mdstat` -/
def readMdstat (s : ContainerSets (List ContainerDev)) :
    Option (List UInt8) → ContainerSets (List ContainerDev) × Int
  | none => ((s.modifyOther clearContainer).switchCurrent, 1)
  | some content =>
      (s.readMdstat clearContainer fun container => (readLines container (fgetsAll content)).1,
        (readLines (clearContainer s.getOtherContainer) (fgetsAll content)).2)

/-! ## The comparison -/

/-- A name of the first list that the second does not have.
Source: `ssieventmonitor.cpp` `_compare_member_lists` -/
def compareMemberLists (cm om : List (List UInt8)) : Int :=
  if cm.any fun name => !om.contains name then 1 else 0

/-- Source: `ssieventmonitor.cpp` `_compare_members` -/
def compareMembers (current other : ContainerDev) : Int :=
  if compareMemberLists current.devs other.devs ≠ 0 then 1
  else compareMemberLists other.devs current.devs

/-- The first slot of the second table with the number is compared. At the end of the loop `i` is
`MAX_CONTAINERS`, so that the function returns 0 there.
Source: `ssieventmonitor.cpp` `_compare_container_list` -/
def compareContainerList (second : List ContainerDev) : List ContainerDev → Int
  | [] => 0
  | c :: first =>
      if c.devnum < 0 then compareContainerList second first
      else
        match second.find? fun d => d.devnum = c.devnum with
        | none => 1
        | some d => if compareMembers c d ≠ 0 then 1 else compareContainerList second first

/-- Source: `ssieventmonitor.cpp` `_members_changed` -/
def membersChanged (s : ContainerSets (List ContainerDev)) : Int :=
  if compareContainerList s.getOtherContainer s.getCurrentContainer ≠ 0 then 1
  else compareContainerList s.getCurrentContainer s.getOtherContainer

/-! ## Texts -/

/-- A byte of a name. -/
def Plain (b : UInt8) : Prop := b ≠ 0 ∧ b ≠ 10 ∧ b ≠ 32

instance (b : UInt8) : Decidable (Plain b) := inferInstanceAs (Decidable (_ ∧ _))

/-- A line of the file, without its end. -/
structure TextLine where
  bytes : List UInt8
  noEnd : 0 ∉ bytes ∧ 10 ∉ bytes

/-- A line that is not the first one of a device. -/
structure InfoLine extends TextLine where
  notDevice : ¬ lit "md" <+: bytes

/-- A member with what stands behind the bracket, its role and its flags. -/
structure Member where
  name : List UInt8
  role : List UInt8
  name_plain : ∀ b ∈ name, Plain b ∧ b ≠ 91
  role_plain : ∀ b ∈ role, Plain b

/-- A device is active, or it is inactive and lists its members. -/
inductive DeviceState
  | active (details : TextLine)
  | inactive (members : List Member)

/-- A device with its lines: the first, which has its name and its state, and those behind it. -/
structure Device where
  name : List UInt8
  state : DeviceState
  info : InfoLine
  more : List InfoLine
  name_md : lit "md" <+: name
  name_plain : ∀ b ∈ name, Plain b

/-- A well-formed text. -/
structure MdstatText where
  preamble : List InfoLine
  devices : List Device
  names : (devices.map Device.name).Nodup

/-- A member as it stands in the line. -/
def Member.rendered (m : Member) : List UInt8 := 32 :: (m.name ++ 91 :: m.role)

namespace Device

variable (d : Device)

/-- The state as it stands in the line. -/
def renderedState : List UInt8 :=
  match d.state with
  | .active details => lit "active" ++ details.bytes
  | .inactive members => lit "inactive" ++ members.flatMap Member.rendered

/-- The first line. -/
def header : List UInt8 := d.name ++ (lit " : " ++ d.renderedState)

/-- All lines. -/
def lines : List (List UInt8) := d.header :: d.info.bytes :: d.more.map (·.bytes)

/-- The names of the members that an inactive device lists. -/
def memberNames : List (List UInt8) :=
  match d.state with
  | .active _ => []
  | .inactive members => members.map Member.name

/-- The device is inactive. -/
def isInactive : Bool :=
  match d.state with
  | .active _ => false
  | .inactive _ => true

/-- The device has the metadata of a container. -/
def HasImsm : Prop := lit "external:imsm" <:+: d.info.bytes

instance : Decidable d.HasImsm := inferInstanceAs (Decidable (_ <:+: _))

/-- The device is an inactive `external:imsm` one. -/
def IsContainer : Prop := d.isInactive = true ∧ d.HasImsm

instance : Decidable d.IsContainer := inferInstanceAs (Decidable (_ ∧ _))

/-- The number that the name stands for. -/
def number : Int := Str.atoi (d.name.drop 2)

/-- The slot of the device. -/
def slot : ContainerDev := ⟨d.memberNames.reverse, d.number⟩

end Device

namespace MdstatText

variable (t : MdstatText)

/-- All lines. -/
def lines : List (List UInt8) := t.preamble.map (·.bytes) ++ t.devices.flatMap Device.lines

/-- The content of the file. -/
def content : List UInt8 := t.lines.flatMap (· ++ [10])

/-- The inactive `external:imsm` devices. -/
def containers : List Device := t.devices.filter fun d => decide d.IsContainer

/-- The members of the container of the name, none if there is no such container. -/
def membership (name : List UInt8) : Option (Finset (List UInt8)) :=
  (t.containers.find? fun d => d.name = name).map fun d => d.memberNames.toFinset

end MdstatText

/-! ## A line -/

section lines

variable {s pat x rest : List UInt8} {m : List (List UInt8)}

/-- `strstr` finds a pattern iff it is an infix. -/
theorem strstr_isSome_iff : (strstr s pat).isSome ↔ pat <:+: s := by
  unfold strstr
  rw [Option.isSome_map, Occurrence.findPos_isSome_iff]

/-- A pattern at the beginning is found there. -/
theorem strstr_self (h : pat <+: s) : strstr s pat = some s := by
  have hzero : Occurrence.findPos pat s = some 0 := by
    rw [Occurrence.findPos_eq_some_iff]
    exact ⟨Occurrence.at_zero.mpr h, fun j hj => absurd hj (Nat.not_lt_zero j)⟩
  unfold strstr
  rw [hzero]
  rfl

/-- A pattern that stands behind a byte it does not have, and nowhere in front of it, is found behind
this byte. -/
theorem strstr_append_cons {u : List UInt8} {b : UInt8} (hb : b ∉ pat) (hu : ¬ pat <:+: u) :
    strstr (u ++ b :: (pat ++ rest)) pat = some (pat ++ rest) := by
  have hdrop : (u ++ b :: (pat ++ rest)).drop (u.length + 1) = pat ++ rest := by
    rw [← List.drop_drop, List.drop_left]
    rfl
  unfold strstr
  rw [Occurrence.findPos_append_cons hb hu, Option.map_some, hdrop]

/-- The member's name is what stands in front of the bracket. -/
theorem addMemberDevname_eq (h : 91 ∉ x) : addMemberDevname m (x ++ 91 :: rest) = x :: m := by
  have hbracket : lit "[" = [91] := by decide
  unfold addMemberDevname
  rw [hbracket, Occurrence.findPos_singleton h]
  dsimp only
  rw [List.take_left]

/-- A part without blanks has no member behind it. -/
theorem collectMembers_append (h : 32 ∉ x) :
    collectMembers m (x ++ rest) = collectMembers m rest := by
  induction x with
  | nil => rfl
  | cons c x ih =>
      rw [List.mem_cons, not_or] at h
      rw [List.cons_append, collectMembers, if_neg (Ne.symm h.1), ih h.2]

/-- The members of a line, the last one in front. -/
theorem collectMembers_rendered (members : List Member) :
    collectMembers m (members.flatMap Member.rendered ++ [10]) =
      (members.map Member.name).reverse ++ m := by
  induction members generalizing m with
  | nil => rfl
  | cons member members ih =>
      have hname : 91 ∉ member.name := fun h => (member.name_plain 91 h).2 rfl
      have hblank : 32 ∉ member.name ++ 91 :: member.role := by
        simp only [List.mem_append, List.mem_cons, not_or]
        refine ⟨fun h => (member.name_plain 32 h).1.2.2 rfl, by decide, fun h => ?_⟩
        exact (member.role_plain 32 h).2.2 rfl
      have hline : (member :: members).flatMap Member.rendered ++ [10] =
          32 :: (member.name ++ 91 :: (member.role ++ (members.flatMap Member.rendered ++ [10]))) := by
        simp [Member.rendered]
      have hskip : ∀ m' : List (List UInt8),
          collectMembers m'
              (member.name ++ 91 :: (member.role ++ (members.flatMap Member.rendered ++ [10]))) =
            collectMembers m' (members.flatMap Member.rendered ++ [10]) := by
        intro m'
        have happend : collectMembers m' ((member.name ++ 91 :: member.role) ++
            (members.flatMap Member.rendered ++ [10])) =
              collectMembers m' (members.flatMap Member.rendered ++ [10]) :=
          collectMembers_append hblank
        rw [← happend, List.append_assoc]
        rfl
      rw [hline, collectMembers, if_pos rfl, addMemberDevname_eq hname, hskip, ih]
      simp

/-- A number ends before the blank. -/
theorem digits_append (acc : Nat) : Str.digits 10 acc (x ++ 32 :: rest) = Str.digits 10 acc x := by
  induction x generalizing acc with
  | nil => rfl
  | cons c x ih =>
      rw [List.cons_append, Str.digits, Str.digits]
      cases Str.digitValue 10 c with
      | none => rfl
      | some v => exact ih _

/-- The number of a member ends at the blank and the colon. -/
theorem atoi_append : Str.atoi (x ++ 32 :: 58 :: rest) = Str.atoi x := by
  unfold Str.atoi
  rw [List.dropWhile_append]
  rcases hx : x.dropWhile Str.isSpace with _ | ⟨c, y⟩
  · rfl
  · dsimp only [List.isEmpty_cons]
    rw [if_neg Bool.false_ne_true, List.cons_append, List.head?_cons, List.head?_cons]
    by_cases hsign : some c = some 45 ∨ some c = some 43
    · rw [if_pos hsign, if_pos hsign, List.tail_cons, List.tail_cons, digits_append]
    · rw [if_neg hsign, if_neg hsign, ← List.cons_append, digits_append]

end lines

namespace Device

variable (d : Device)

/-- The first line with its end, as it is when it is read. -/
theorem header_eq : d.header ++ [10] =
    (d.name ++ [32, 58]) ++ 32 :: (d.renderedState ++ [10]) := by
  have hcolon : lit " : " = [32, 58, 32] := by decide
  unfold header
  rw [hcolon]
  simp

/-- The first line of a device begins with `md`. -/
theorem begins_md : lit "md" <+: d.header ++ [10] := by
  unfold header
  rw [List.append_assoc]
  exact d.name_md.trans (List.prefix_append _ _)

/-- The number is that of the name. -/
theorem getDevnum_header : getDevnum (d.header ++ [10]) = d.number := by
  obtain ⟨rest, hrest⟩ := d.name_md
  have hlength : (lit "md").length = 2 := by decide
  unfold getDevnum number
  rw [strstr_self d.begins_md]
  dsimp only
  rw [header_eq, ← hrest, List.append_assoc, List.append_assoc]
  rw [show 2 = (lit "md").length from hlength.symm, List.drop_left, List.drop_left]
  exact atoi_append

/-- The keyword is found behind the name, where the name does not have it. -/
theorem strstr_header {members : List Member} (hstate : d.state = .inactive members)
    (hname : ¬ lit "inactive" <:+: d.name) :
    strstr (d.header ++ [10]) (lit "inactive") =
      some (lit "inactive" ++ (members.flatMap Member.rendered ++ [10])) := by
  have hbefore : ¬ lit "inactive" <:+: d.name ++ [32, 58] := by
    rw [Occurrence.infix_append_cons_iff (by decide)]
    rintro (h | h)
    · exact hname h
    · exact absurd h (by decide)
  have hline : d.header ++ [10] = (d.name ++ [32, 58]) ++
      32 :: (lit "inactive" ++ (members.flatMap Member.rendered ++ [10])) := by
    rw [header_eq, renderedState, hstate]
    dsimp only
    rw [List.append_assoc (lit "inactive")]
  rw [hline, strstr_append_cons (by decide) hbefore]

/-- The members are those listed. -/
theorem membersOfLine_header {members : List Member} (hstate : d.state = .inactive members)
    (hname : ¬ lit "inactive" <:+: d.name) (m : List (List UInt8)) :
    membersOfLine m (d.header ++ [10]) = d.memberNames.reverse ++ m := by
  have hnames : d.memberNames = members.map Member.name := by
    unfold memberNames
    rw [hstate]
  have hcollect := collectMembers_rendered (m := m) members
  unfold membersOfLine
  rw [d.strstr_header hstate hname, hnames, ← hcollect]
  dsimp only
  rw [show 8 = (lit "inactive").length by decide, List.drop_left]
  cases members with
  | nil => rfl
  | cons member members => rfl

/-- No line has an end in it. -/
theorem noEnd_of_mem_lines : ∀ line ∈ d.lines, 0 ∉ line ∧ 10 ∉ line := by
  have hname : ∀ b, b ∈ d.name → b ≠ 0 ∧ b ≠ 10 := fun b hb =>
    ⟨(d.name_plain b hb).1, (d.name_plain b hb).2.1⟩
  have hmember : ∀ m : Member, ∀ b ∈ m.rendered, b ≠ 0 ∧ b ≠ 10 := by
    intro m b hb
    simp only [Member.rendered, List.mem_cons, List.mem_append] at hb
    rcases hb with rfl | hb | rfl | hb
    · decide
    · exact ⟨(m.name_plain b hb).1.1, (m.name_plain b hb).1.2.1⟩
    · decide
    · exact ⟨(m.role_plain b hb).1, (m.role_plain b hb).2.1⟩
  have hstate : ∀ b ∈ d.renderedState, b ≠ 0 ∧ b ≠ 10 := by
    intro b hb
    unfold renderedState at hb
    split at hb
    next details _ =>
      rcases List.mem_append.mp hb with hb | hb
      · exact (show ∀ b ∈ lit "active", b ≠ 0 ∧ b ≠ 10 by decide +kernel) b hb
      · constructor <;> rintro rfl
        · exact details.noEnd.1 hb
        · exact details.noEnd.2 hb
    next members _ =>
      rcases List.mem_append.mp hb with hb | hb
      · exact (show ∀ b ∈ lit "inactive", b ≠ 0 ∧ b ≠ 10 by decide +kernel) b hb
      · obtain ⟨m, -, hb⟩ := List.mem_flatMap.mp hb
        exact hmember m b hb
  have hheader : ∀ b ∈ d.header, b ≠ 0 ∧ b ≠ 10 := by
    intro b hb
    rcases List.mem_append.mp hb with hb | hb
    · exact hname b hb
    · rcases List.mem_append.mp hb with hb | hb
      · exact (show ∀ b ∈ lit " : ", b ≠ 0 ∧ b ≠ 10 by decide +kernel) b hb
      · exact hstate b hb
  intro line hline
  simp only [lines, List.mem_cons, List.mem_map] at hline
  rcases hline with rfl | rfl | ⟨info, -, rfl⟩
  · exact ⟨fun h => (hheader 0 h).1 rfl, fun h => (hheader 10 h).2 rfl⟩
  · exact d.info.noEnd
  · exact info.noEnd

end Device

/-! ## A text -/

/-- A line that is not the first of a device is passed over. -/
theorem readLines_info (container : List ContainerDev) (info : InfoLine) (rest : List (List UInt8)) :
    readLines container ((info.bytes ++ [10]) :: rest) = readLines container rest := by
  have hmd : (lit "md").isPrefixOf (info.bytes ++ [10]) = false := by
    refine Bool.eq_false_iff.mpr fun h => info.notDevice ?_
    exact (Occurrence.prefix_append_cons_iff (by decide)).mp (List.isPrefixOf_iff_prefix.mp h)
  rw [readLines.eq_def]
  dsimp only
  rw [hmd, if_neg Bool.false_ne_true]

/-- Lines of further information change nothing. -/
theorem readLines_infos (container : List ContainerDev) (infos : List InfoLine)
    (rest : List (List UInt8)) :
    readLines container (infos.map (·.bytes ++ [10]) ++ rest) = readLines container rest := by
  induction infos with
  | nil => rfl
  | cons info infos ih =>
      rw [List.map_cons, List.cons_append, readLines_info, ih]

namespace Device

variable (d : Device)

/-- An active device with the metadata of a container does not read like one. -/
def LooksActive : Prop := d.isInactive = false → d.HasImsm → ¬ lit "inactive" <:+: d.header

/-- The lines of a device: a container is collected, and nothing else. -/
theorem readLines_device (hactive : d.LooksActive) (container : List ContainerDev)
    (rest : List (List UInt8)) :
    readLines container (d.lines.map (· ++ [10]) ++ rest) =
      readLines (if d.IsContainer then collectDevices (d.header ++ [10]) container else container)
        rest := by
  have hmd : (lit "md").isPrefixOf (d.header ++ [10]) = true :=
    List.isPrefixOf_iff_prefix.mpr d.begins_md
  have hword : (strstr (d.header ++ [10]) (lit "inactive")).isSome = true ↔
      lit "inactive" <:+: d.header := by
    rw [strstr_isSome_iff, Occurrence.infix_append_cons_iff (by decide)]
    simp [show lit "inactive" ≠ [] by decide]
  have himsm : (strstr (d.info.bytes ++ [10]) (lit "external:imsm")).isSome = true ↔ d.HasImsm := by
    rw [strstr_isSome_iff, Occurrence.infix_append_cons_iff (by decide)]
    simp [HasImsm, show lit "external:imsm" ≠ [] by decide]
  have hmore := fun c => readLines_infos c d.more rest
  have hlines : d.lines.map (· ++ [10]) ++ rest =
      (d.header ++ [10]) :: (d.info.bytes ++ [10]) :: (d.more.map (·.bytes ++ [10]) ++ rest) := by
    simp [lines, Function.comp_def]
  rw [hlines, readLines.eq_def]
  dsimp only
  rw [if_pos hmd]
  by_cases hinactive : lit "inactive" <:+: d.header
  · rw [if_pos (hword.mpr hinactive)]
    by_cases hmeta : d.HasImsm
    · have hcontainer : d.IsContainer := by
        refine ⟨?_, hmeta⟩
        by_contra hstate
        exact hactive (Bool.eq_false_iff.mpr hstate) hmeta hinactive
      rw [if_pos (himsm.mpr hmeta), if_pos hcontainer, hmore]
    · rw [if_neg (mt himsm.mp hmeta), if_neg fun h => hmeta h.2, hmore]
  · have hcontainer : ¬ d.IsContainer := by
      rintro ⟨hstate, -⟩
      unfold isInactive at hstate
      split at hstate
      next => simp at hstate
      next members hmembers =>
        apply hinactive
        unfold header renderedState
        rw [hmembers]
        exact ⟨d.name ++ lit " : ", members.flatMap Member.rendered, by simp⟩
    rw [if_neg (mt hword.mp hinactive), readLines_info, hmore, if_neg hcontainer]

end Device

/-- What the containers of a text leave in a table. -/
def collectAll (container : List ContainerDev) (devices : List Device) : List ContainerDev :=
  devices.foldl (fun c d => collectDevices (d.header ++ [10]) c) container

/-- Reading the devices' lines collects exactly those that are containers, in order and with their
members. -/
theorem readLines_devices {devices : List Device} (hactive : ∀ d ∈ devices, d.LooksActive)
    (container : List ContainerDev) :
    readLines container ((devices.flatMap Device.lines).map (· ++ [10])) =
      (collectAll container (devices.filter fun d => decide d.IsContainer), 0) := by
  induction devices generalizing container with
  | nil => rfl
  | cons d devices ih =>
      have hrest := ih fun d hd => hactive d (List.mem_cons_of_mem _ hd)
      rw [List.flatMap_cons, List.map_append, d.readLines_device (hactive d List.mem_cons_self), hrest]
      by_cases hd : d.IsContainer
      · rw [if_pos hd, List.filter_cons_of_pos (by simpa using hd)]
        rfl
      · rw [if_neg hd, List.filter_cons_of_neg (by simpa using hd)]

namespace MdstatText

variable (t : MdstatText)

/-- The lines of a text are short enough for the buffers. -/
def Fits : Prop := ∀ line ∈ t.lines, line.length < lineRoom

/-- **What is read** of a text with lines that fit: its containers, in their order. -/
theorem readLines_content (hfits : t.Fits) (hactive : ∀ d ∈ t.devices, d.LooksActive)
    (container : List ContainerDev) :
    readLines container (fgetsAll t.content) = (collectAll container t.containers, 0) := by
  have hnoEnd : ∀ line ∈ t.lines, 0 ∉ line ∧ 10 ∉ line := by
    intro line hline
    rcases List.mem_append.mp hline with hline | hline
    · obtain ⟨info, -, rfl⟩ := List.mem_map.mp hline
      exact info.noEnd
    · obtain ⟨d, -, hline⟩ := List.mem_flatMap.mp hline
      exact d.noEnd_of_mem_lines line hline
  have hcut : Lines.cut 10 lineRoom lineRoom t.content = t.lines.map (· ++ [10]) :=
    Lines.cut_flatMap fun line hline => ⟨(hnoEnd line hline).2, hfits line hline⟩
  have hall : fgetsAll t.content = t.lines.map (· ++ [10]) := by
    unfold fgetsAll
    rw [hcut, List.map_map]
    apply List.map_congr_left
    intro line hline
    apply List.takeWhile_eq_self_iff.mpr
    intro b hb
    have hzero : b ≠ 0 := by
      rintro rfl
      rcases List.mem_append.mp hb with hb | hb
      · exact (hnoEnd line hline).1 hb
      · exact absurd hb (by simp)
    simpa using hzero
  have hpreamble := readLines_infos container t.preamble
    ((t.devices.flatMap Device.lines).map (· ++ [10]))
  rw [hall, lines, List.map_append, List.map_map]
  exact hpreamble.trans (readLines_devices hactive container)

end MdstatText

/-! ## The tables -/

/-- The table of a list of containers. -/
def tableOf (devices : List Device) : List ContainerDev :=
  (devices.take MAX_CONTAINERS).map Device.slot ++
    List.replicate (MAX_CONTAINERS - devices.length) .free

/-- A container whose name reads as the code expects: no `inactive` in it, and a number that is not
negative. -/
def Device.Readable (d : Device) : Prop :=
  d.IsContainer ∧ ¬ lit "inactive" <:+: d.name ∧ 0 ≤ d.number

/-- A new container is put behind the used ones in the array of the caller. -/
theorem collectDevices_append {used : List ContainerDev} (hused : ∀ c ∈ used, 0 ≤ c.devnum)
    (buf : List UInt8) (container : List ContainerDev) :
    collectDevices buf (used ++ container) = used ++ collectDevices buf container := by
  induction used with
  | nil => rfl
  | cons c used ih =>
      have hc : ¬ c.devnum < 0 := not_lt.mpr (hused c List.mem_cons_self)
      rw [List.cons_append, collectDevices, if_neg hc,
        ih fun c hc => hused c (List.mem_cons_of_mem _ hc)]
      rfl

/-- A container takes the first free slot. -/
theorem collectDevices_replicate {d : Device} (hd : d.IsContainer)
    (hname : ¬ lit "inactive" <:+: d.name) (k : Nat) :
    collectDevices (d.header ++ [10]) (List.replicate (k + 1) .free) =
      d.slot :: List.replicate k .free := by
  have hmembers : membersOfLine [] (d.header ++ [10]) = d.memberNames.reverse := by
    obtain ⟨hstate, -⟩ := hd
    unfold Device.isInactive at hstate
    split at hstate
    next => simp at hstate
    next members hmembers =>
      rw [d.membersOfLine_header hmembers hname, List.append_nil]
  rw [List.replicate_succ, collectDevices, if_pos (by decide), d.getDevnum_header]
  show (⟨membersOfLine [] (d.header ++ [10]), d.number⟩ : ContainerDev) :: _ = _
  rw [hmembers]
  rfl

/-- The containers fill the free slots one after the other. -/
theorem collectAll_eq {devices : List Device} (hreadable : ∀ d ∈ devices, d.Readable)
    (used : List ContainerDev) (hused : ∀ c ∈ used, 0 ≤ c.devnum) (k : Nat) :
    collectAll (used ++ List.replicate k .free) devices =
      used ++ ((devices.take k).map Device.slot ++ List.replicate (k - devices.length) .free) := by
  induction devices generalizing used k with
  | nil => simp [collectAll]
  | cons d devices ih =>
      obtain ⟨hd, hname, hnumber⟩ := hreadable d List.mem_cons_self
      have hrest : ∀ d ∈ devices, d.Readable := fun d hd => hreadable d (List.mem_cons_of_mem _ hd)
      unfold collectAll
      rw [List.foldl_cons, collectDevices_append hused]
      cases k with
      | zero =>
          have hnil := ih hrest used hused 0
          unfold collectAll at hnil
          simpa [collectDevices] using hnil
      | succ k =>
          have hslot : ∀ c ∈ used ++ [d.slot], 0 ≤ c.devnum := by
            intro c hc
            rcases List.mem_append.mp hc with hc | hc
            · exact hused c hc
            · obtain rfl := List.mem_singleton.mp hc
              exact hnumber
          have hnext := ih hrest (used ++ [d.slot]) hslot k
          unfold collectAll at hnext
          rw [List.append_assoc, List.singleton_append] at hnext
          rw [collectDevices_replicate hd hname, hnext]
          simp

/-- Starting from free slots, the table is that of the containers. -/
theorem collectAll_replicate {devices : List Device} (hreadable : ∀ d ∈ devices, d.Readable) :
    collectAll (List.replicate MAX_CONTAINERS .free) devices = tableOf devices :=
  collectAll_eq hreadable [] (fun _ h => absurd h List.not_mem_nil) MAX_CONTAINERS

/-- Clearing a table of containers frees all slots. -/
theorem clearContainer_tableOf {devices : List Device} (hnumbers : ∀ d ∈ devices, 0 ≤ d.number) :
    clearContainer (tableOf devices) = List.replicate MAX_CONTAINERS .free := by
  have hslots : ∀ c ∈ (devices.take MAX_CONTAINERS).map Device.slot,
      (if 0 ≤ c.devnum then ContainerDev.free else c) = .free := by
    intro c hc
    obtain ⟨d, hd, rfl⟩ := List.mem_map.mp hc
    exact if_pos (hnumbers d (List.mem_of_mem_take hd))
  have hfree : ∀ c ∈ List.replicate (MAX_CONTAINERS - devices.length) ContainerDev.free,
      (if 0 ≤ c.devnum then ContainerDev.free else c) = .free := by
    intro c hc
    rw [List.eq_of_mem_replicate hc]
    rfl
  unfold clearContainer tableOf
  rw [List.map_append, List.map_congr_left hslots, List.map_congr_left hfree, List.map_const',
    List.map_const', ← List.replicate_add]
  congr 1
  simp only [List.length_map, List.length_take, List.length_replicate]
  omega

end Mdstat

end Irstessi
