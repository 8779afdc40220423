import Irstessi.Ascii
import Irstessi.Lib.While
import Irstessi.Types

/-!
# The slots of an enclosure

The output of `sg_ses` has a block of text behind each "element index". The loop takes one block after
another off the text and adds a slot for each that has a bay number and an address.

* `getSlotInfo`: the loop.
* `blocks`, `slotOf`: the blocks of a text, and the slot that a block describes.
* **`getSlotInfo_eq`**: the loop ends and adds the slots of the blocks, in order.

The loop cuts the text at the first "element index" and goes on behind it, until nothing is left. It is
run with one round more than the text has characters, and `slotRound_step` shows that each of them
shortens what remains, so that the rounds are never used up. A text is cut by `Lib.Occurrence`; that the
word does not overlap itself makes the cuts those of the loop. Two words in a row would leave an empty
block, and the theorem is about texts without them. The statement with any bay number in place of the
first one fails for the sample.
-/

namespace Irstessi

open Occurrence

/-- Source: `enclosure.h` `Enclosure::Slot` -/
structure Slot where
  slotNumber : UInt64
  sasAddress : UInt64
  deriving DecidableEq, Repr

/-- The characters between the first occurrence of one text and the next one of another.
Source: `string.h` `String::between` -/
def Str.between (str s e : Str) : Str :=
  match str.find s.m_buffer 0 with
  | none => .empty
  | some n =>
      let t := n + s.m_length
      match str.find e.m_buffer t with
      | none => .empty
      | some stop => str.mid t stop

/-- `strtoull` with base 0.
Source: `string.cpp` `String::__internal_to_ulonglong` -/
def Str.toUlonglong (s : Str) : UInt64 := .ofNat (strtoul s.m_buffer)

/-- The slot of a block, if it has one.
Source: `enclosure.cpp` `Enclosure::__get_slot_info`, the body of the loop -/
def addSlot (info : Str) (m_Slots : List Slot) : List Slot :=
  let tmp := info.between (.ofLit "bay number: ") (.ofLit "\n")
  if tmp.isEmpty then m_Slots
  else
    let slotNumber := tmp.toUlonglong
    let tmp := info.reverseAfter (.ofLit "SAS address:")
    let tmp := tmp.leftOf (lit "\n")
    let sasAddress := tmp.toUlonglong
    if sasAddress ≠ 0 then m_Slots ++ [⟨slotNumber, sasAddress⟩] else m_Slots

/-- A round of the loop, with `right` and `m_Slots`.
Source: `enclosure.cpp` `Enclosure::__get_slot_info` -/
def slotRound : Str × List Slot → Except Fault (Option (Str × List Slot))
  | (right, m_Slots) =>
      if right.isEmpty then .ok none
      else
        let offset := (right.find (lit "element index") 0).getD 0
        let info := if offset ≠ 0 then right.left offset else right
        let m_Slots := addSlot info m_Slots
        if offset ≠ 0 then
          match right.get (offset + 13) with
          | none => .error (.exception .invalidOffset)
          | some p => .ok (some (.ofBytes p, m_Slots))
        else .ok (some (.ofLit "", m_Slots))

/-- The slots of the enclosure when the output has been read.
Source: `enclosure.cpp` `Enclosure::__get_slot_info` -/
def getSlotInfo (m_Slots : List Slot) (buffer : Str) : Except Fault (List Slot) :=
  let right := buffer.after (.ofLit "element index")
  (While.run .outOfRounds slotRound (buffer.m_length + 1) (right, m_Slots)).map Prod.snd

/-! ## Blocks -/

/-- What stands behind each "element index", up to the next one or the end. -/
def blocks (text : List UInt8) : List (List UInt8) := parts (lit "element index") text

/-- What stands between the first "bay number: " and the newline behind it. -/
def bayNumber (block : List UInt8) : Option (List UInt8) :=
  (behind (lit "bay number: ") block).bind (before (lit "\n"))

/-- The number behind the last "SAS address:" up to the newline behind it, 0 if there is none. -/
def sasAddress (block : List UInt8) : UInt64 :=
  .ofNat (Str.strtoul (((behindLast (lit "SAS address:") block).bind (before (lit "\n"))).getD []))

/-- The slot that a block describes. -/
def slotOf (block : List UInt8) : Option Slot :=
  match bayNumber block with
  | none => none
  | some number =>
      if number = [] ∨ sasAddress block = 0 then none
      else some ⟨.ofNat (Str.strtoul number), sasAddress block⟩

section texts

variable {t w : List UInt8} (ht : SingleBytes t)

include ht

/-- What stands behind the first occurrence of a word in a single-byte text is such a text. -/
theorem SingleBytes.behind {r : List UInt8} (h : Occurrence.behind w t = some r) : SingleBytes r := by
  obtain ⟨i, -, rfl⟩ := Option.map_eq_some_iff.mp h
  exact ht.drop _

/-- What stands behind the last occurrence is such a text. -/
theorem SingleBytes.behindLast {r : List UInt8} (h : Occurrence.behindLast w t = some r) :
    SingleBytes r := by
  obtain ⟨i, -, rfl⟩ := Option.map_eq_some_iff.mp h
  exact ht.drop _

/-- What stands in front of the first occurrence is such a text. -/
theorem SingleBytes.before {r : List UInt8} (h : Occurrence.before w t = some r) : SingleBytes r := by
  obtain ⟨i, -, rfl⟩ := Option.map_eq_some_iff.mp h
  exact ht.take _

/-- On single-byte texts `String::between` is: behind the first word, up to the second one; where one is
missing, nothing. -/
theorem Str.between_singleBytes {e : List UInt8} (hw : SingleBytes w) (he : SingleBytes e) :
    (ofBytes t).between (ofBytes w) (ofBytes e) =
      ofBytes (((Occurrence.behind w t).bind (Occurrence.before e)).getD []) := by
  have hlength : (ofBytes w).m_length = w.length := by rw [ofBytes_of_singleBytes hw]
  rw [between, ofBytes_buffer hw.wellFormed, ofBytes_buffer he.wellFormed, hlength,
    find_singleBytes ht, List.drop_zero, Occurrence.behind]
  rcases hfind : findPos w t with _ | p
  · rfl
  · have hle := (findPos_eq_some_iff.mp hfind).1.length_le
    rw [Option.map_some, Option.map_some, Nat.zero_min, Nat.zero_add, Option.bind_some,
      Occurrence.before]
    dsimp only
    rw [find_singleBytes ht, Nat.min_eq_left hle]
    rcases findPos e (t.drop (p + w.length)) with _ | q
    · rfl
    · rw [Option.map_some, Option.map_some, Option.getD_some]
      dsimp only
      rw [mid_singleBytes ht hle, Nat.add_sub_cancel_left]

end texts

/-- A single-byte text is empty in the class iff it has no bytes. -/
theorem isEmpty_ofBytes {t : List UInt8} (ht : SingleBytes t) : (Str.ofBytes t).isEmpty ↔ t = [] := by
  rw [Str.ofBytes_of_singleBytes ht, Str.isEmpty]
  simp

/-! ## The statement with any bay number -/

/-- The slot has the number of some "bay number: " of the block, with text up to a newline. -/
structure Describes (block : List UInt8) (slot : Slot) : Prop where
  slotNumber_eq : ∃ u number v, block = u ++ lit "bay number: " ++ number ++ lit "\n" ++ v ∧
    number ≠ [] ∧ slot.slotNumber = .ofNat (Str.strtoul number)
  sasAddress_eq : slot.sasAddress = sasAddress block
  sasAddress_ne_zero : slot.sasAddress ≠ 0

/-- Each block adds one of the slots that are described in it, if there is any. -/
def AddsDescribed (m_Slots : List Slot) (buffer : Str) : Prop :=
  ∃ rs : List (Option Slot), getSlotInfo m_Slots buffer = .ok (m_Slots ++ rs.reduceOption) ∧
    List.Forall₂ (fun block r => ∀ slot, Describes block slot → ∃ slot', r = some slot' ∧
      Describes block slot') (blocks buffer.m_buffer) rs

/-- A block that has text only behind its second "bay number: ". -/
def secondBay : Str := .ofLit "element indexbay number: \nbay number: 5\nSAS address:0x8\n"

/-- The slot is not added: the first "bay number: " counts, and there is no text behind it. -/
theorem not_addsDescribed_secondBay :
    secondBay.Constructed ∧ (∀ b ∈ secondBay.m_buffer, b < 0x80) ∧
      ¬ lit "element index" ++ lit "element index" <:+: secondBay.m_buffer ∧
      ¬ AddsDescribed [] secondBay := by
  refine ⟨Str.constructed_ofBytes _, by decide +kernel, by decide +kernel, ?_⟩
  rintro ⟨rs, hadded, hblocks⟩
  have hnone : getSlotInfo [] secondBay = .ok [] := by decide +kernel
  have hblock : blocks secondBay.m_buffer = [lit "bay number: \nbay number: 5\nSAS address:0x8\n"] := by
    decide +kernel
  rw [hblock] at hblocks
  obtain ⟨r, rs, hr, hrest, rfl⟩ := List.forall₂_cons_left_iff.mp hblocks
  obtain ⟨slot, rfl, -⟩ := hr ⟨5, 8⟩
    ⟨⟨lit "bay number: \n", lit "5", lit "SAS address:0x8\n", by decide +kernel⟩, by decide +kernel,
      by decide⟩
  rw [hnone] at hadded
  cases hadded

/-! ## The loop -/

/-- The number of a single-byte text is what `strtoul` reads of its bytes. -/
theorem Str.toUlonglong_ofBytes {t : List UInt8} (ht : SingleBytes t) :
    (Str.ofBytes t).toUlonglong = .ofNat (Str.strtoul t) := by
  rw [toUlonglong, ofBytes_buffer ht.wellFormed]

/-- The address that the body reads off a block. -/
theorem sasAddress_eq {block : List UInt8} (h : SingleBytes block) :
    (((Str.ofBytes block).reverseAfter (.ofLit "SAS address:")).leftOf (lit "\n")).toUlonglong =
      sasAddress block := by
  have hafter : (Str.ofBytes block).reverseAfter (.ofLit "SAS address:") =
      .ofBytes ((behindLast (lit "SAS address:") block).getD []) :=
    Str.reverseAfter_singleBytes h (by decide)
  rw [hafter, sasAddress]
  rcases hlast : behindLast (lit "SAS address:") block with _ | r
  · rfl
  · have hr := h.behindLast hlast
    rw [Option.getD_some, Option.bind_some, Str.leftOf_singleBytes hr]
    rcases hline : before (lit "\n") r with _ | t
    · rfl
    · rw [Option.getD_some, Str.toUlonglong_ofBytes (hr.before hline)]

/-- What the body adds for a block. -/
theorem addSlot_eq {block : List UInt8} (h : SingleBytes block) (m_Slots : List Slot) :
    addSlot (.ofBytes block) m_Slots = m_Slots ++ (slotOf block).toList := by
  have hbetween : (Str.ofBytes block).between (.ofLit "bay number: ") (.ofLit "\n") =
      .ofBytes ((bayNumber block).getD []) :=
    Str.between_singleBytes h (by decide) (by decide)
  unfold addSlot slotOf
  dsimp only
  rw [hbetween, sasAddress_eq h]
  rcases hbay : bayNumber block with _ | number
  · exact (List.append_nil _).symm
  · obtain ⟨r, hr, hline⟩ := Option.bind_eq_some_iff.mp hbay
    have hnumber : SingleBytes number := (h.behind hr).before hline
    rw [Option.getD_some, Str.toUlonglong_ofBytes hnumber]
    dsimp only
    by_cases hnil : number = []
    · rw [if_pos ((isEmpty_ofBytes hnumber).mpr hnil), if_pos (.inl hnil)]
      exact (List.append_nil _).symm
    · rw [if_neg (mt (isEmpty_ofBytes hnumber).mp hnil)]
      by_cases hzero : sasAddress block = 0
      · rw [if_neg (not_not.mpr hzero), if_pos (.inr hzero)]
        exact (List.append_nil _).symm
      · rw [if_pos hzero, if_neg (not_or.mpr ⟨hnil, hzero⟩)]
        rfl

/-- The block at the front of what is left, and those behind it. -/
def remaining (right : List UInt8) : List (List UInt8) := upTo (lit "element index") right :: blocks right

/-- The word that separates the blocks does not overlap itself, so that its occurrences are apart. -/
theorem unbordered_elementIndex : Unbordered (lit "element index") := by decide +kernel

section loop

variable {v : List UInt8} (hv : SingleBytes v)

include hv

/-- The search of the class finds the word where it first stands in the bytes. -/
theorem find_elementIndex :
    (Str.ofBytes v).find (lit "element index") 0 = findPos (lit "element index") v := by
  rw [Str.find_singleBytes hv, List.drop_zero, Nat.zero_min]
  rcases findPos (lit "element index") v with _ | p
  · rfl
  · rw [Option.map_some, Nat.zero_add]

/-- A round on the last block leaves nothing. -/
theorem slotRound_of_none (hne : v ≠ []) (hnone : findPos (lit "element index") v = none)
    (m_Slots : List Slot) :
    slotRound (.ofBytes v, m_Slots) = .ok (some (.ofBytes [], m_Slots ++ (slotOf v).toList)) := by
  unfold slotRound
  dsimp only
  rw [if_neg (mt (isEmpty_ofBytes hv).mp hne), find_elementIndex hv, hnone, Option.getD_none,
    if_neg (not_not.mpr rfl), if_neg (not_not.mpr rfl), addSlot_eq hv]
  rfl

/-- A round on a block with another one behind it leaves the text of that one. -/
theorem slotRound_of_some {block w : List UInt8} (hblock : block ≠ [])
    (heq : v = block ++ lit "element index" ++ w)
    (hsome : findPos (lit "element index") v = some block.length) (m_Slots : List Slot) :
    slotRound (.ofBytes v, m_Slots) =
      .ok (some (.ofBytes w, m_Slots ++ (slotOf block).toList)) := by
  have hne : v ≠ [] := by
    rw [heq, List.append_assoc]
    exact List.append_ne_nil_of_left_ne_nil hblock _
  have hoffset : block.length ≠ 0 := mt List.length_eq_zero_iff.mp hblock
  have hpattern : (lit "element index").length = 13 := by decide
  have hleft : (Str.ofBytes v).left block.length = .ofBytes block := by
    rw [Str.left_singleBytes hv, heq, List.append_assoc, List.take_left]
  have hget : (Str.ofBytes v).get (block.length + 13) = some w := by
    rw [Str.get_singleBytes hv, heq, ← hpattern, ← List.length_append, List.drop_left]
    rw [heq, List.length_append, List.length_append, hpattern]
    exact Nat.le_add_right _ _
  have hsingle : SingleBytes block := fun b hb => hv b (by simp [heq, hb])
  unfold slotRound
  dsimp only
  rw [if_neg (mt (isEmpty_ofBytes hv).mp hne), find_elementIndex hv, hsome, Option.getD_some,
    if_pos hoffset, if_pos hoffset, hleft, hget, addSlot_eq hsingle]

end loop

/-- What is left of the text stands behind an "element index", and the slots so far with those of the
blocks that are left are the slots of the enclosure. -/
structure Remains (text : List UInt8) (slots : List Slot) (right : List UInt8) (m_Slots : List Slot) :
    Prop where
  suffix : right = [] ∨ lit "element index" ++ right <:+ text
  slots_eq : m_Slots ++ (remaining right).filterMap slotOf = slots

/-- The slots of a row of blocks, block by block. -/
theorem filterMap_slotOf_cons (block : List UInt8) (rest : List (List UInt8)) :
    (block :: rest).filterMap slotOf = (slotOf block).toList ++ rest.filterMap slotOf := by
  rw [List.filterMap_cons]
  rcases slotOf block with _ | slot <;> rfl

/-- The state of the loop, with what is left of the text as a string. -/
def Running (text : List UInt8) (slots : List Slot) (s : Str × List Slot) : Prop :=
  ∃ right m_Slots, s = (.ofBytes right, m_Slots) ∧ Remains text slots right m_Slots

/-- What is left of an ASCII text is one. -/
theorem Remains.singleBytes {text right : List UInt8} {slots m_Slots : List Slot}
    (h : Remains text slots right m_Slots) (htext : SingleBytes text) : SingleBytes right := by
  rcases h.suffix with rfl | hsuffix
  · exact fun b hb => absurd hb List.not_mem_nil
  · exact fun b hb => htext b (hsuffix.subset (List.mem_append_right _ hb))

/-- What remains of the output is held byte by byte, so that its length is the measure of the loop. -/
theorem Remains.length_ofBytes {text right : List UInt8} {slots m_Slots : List Slot}
    (h : Remains text slots right m_Slots) (htext : SingleBytes text) :
    (Str.ofBytes right).m_buffer.length = right.length := by
  rw [Str.ofBytes_buffer (h.singleBytes htext).wellFormed]

/-- Of an empty rest no slots are to be read. -/
theorem remaining_nil : (remaining []).filterMap slotOf = [] := by decide +kernel

section run

variable {text : List UInt8} {slots : List Slot} (htext : SingleBytes text)
  (hdouble : ¬ lit "element index" ++ lit "element index" <:+: text)

include htext hdouble

/-- One round reads the block in front and leaves a shorter rest, as long as there is any. -/
theorem slotRound_step {right : List UInt8} {m_Slots : List Slot} (hne : right ≠ [])
    (h : Remains text slots right m_Slots) :
    ∃ w m_Slots', slotRound (.ofBytes right, m_Slots) = .ok (some (.ofBytes w, m_Slots')) ∧
      Remains text slots w m_Slots' ∧ w.length < right.length := by
  have hright := h.singleBytes htext
  obtain ⟨hsuffix, hslots⟩ := h
  have hsuffix := hsuffix.resolve_left hne
  have hpos := List.length_pos_iff.mpr hne
  rcases hfind : findPos (lit "element index") right with _ | p
  · refine ⟨[], _, slotRound_of_none hright hne hfind m_Slots, ⟨.inl rfl, ?_⟩, hpos⟩
    rw [remaining, upTo_of_none hfind, blocks, parts_of_none hfind] at hslots
    rw [remaining_nil, List.append_nil, ← hslots, filterMap_slotOf_cons,
      List.filterMap_nil, List.append_nil]
  · obtain ⟨block, w, heq, rfl⟩ := exists_append_of_findPos hfind
    have hblock : block ≠ [] := by
      rintro rfl
      refine hdouble (List.IsInfix.trans ?_ hsuffix.isInfix)
      rw [heq]
      exact ⟨[], w, by simp⟩
    refine ⟨w, _, slotRound_of_some hright hblock heq hfind m_Slots, ⟨.inr ?_, ?_⟩, ?_⟩
    · refine List.IsSuffix.trans ?_ hsuffix
      rw [heq, List.append_assoc, ← List.append_assoc]
      exact List.suffix_append _ _
    · rw [heq] at hfind
      rw [remaining, blocks, heq, upTo_append hfind, parts_append (by decide) unbordered_elementIndex
        hfind, filterMap_slotOf_cons, ← List.append_assoc] at hslots
      exact hslots
    · rw [heq, List.length_append, List.length_append]
      have hlength := List.length_pos_iff.mpr hblock
      omega

/-- A round ends the loop or keeps its invariant and shortens the rest. -/
theorem slotRound_cases (s : Str × List Slot) (hs : Running text slots s) :
    slotRound s = .ok none ∨
      ∃ s', slotRound s = .ok (some s') ∧ Running text slots s' ∧
        s'.1.m_buffer.length < s.1.m_buffer.length := by
  obtain ⟨right, m_Slots, rfl, h⟩ := hs
  by_cases hne : right = []
  · rw [hne]
    exact .inl rfl
  · obtain ⟨w, m_Slots', hround, hw, hlt⟩ := slotRound_step htext hdouble hne h
    refine .inr ⟨_, hround, ⟨w, m_Slots', rfl, hw⟩, ?_⟩
    dsimp only
    rw [hw.length_ofBytes htext, h.length_ofBytes htext]
    exact hlt

/-- The loop ends with the slots of the blocks that it begins with. -/
theorem exists_slotRounds {right : List UInt8} {m_Slots : List Slot} {rounds : Nat}
    (hrounds : right.length < rounds) (h : Remains text slots right m_Slots) :
    ∃ s, While.run .outOfRounds slotRound rounds (.ofBytes right, m_Slots) = .ok s ∧ s.2 = slots := by
  rw [← h.length_ofBytes htext] at hrounds
  obtain ⟨s, hrun, ⟨w, m_Slots', rfl, hw⟩, hlast⟩ :
      ∃ s, While.run .outOfRounds slotRound rounds (.ofBytes right, m_Slots) = .ok s ∧
        Running text slots s ∧ slotRound s = .ok none :=
    While.exists_run _ (fun s => s.1.m_buffer.length) (slotRound_cases htext hdouble)
      ⟨right, m_Slots, rfl, h⟩ hrounds
  refine ⟨_, hrun, ?_⟩
  have hnil : w = [] := by
    by_contra hne
    obtain ⟨right', m_Slots'', hround, -⟩ := slotRound_step htext hdouble hne hw
    rw [hround] at hlast
    cases hlast
  rw [← hw.slots_eq, hnil, remaining_nil, List.append_nil]

end run

/-- The loop begins with the blocks of the text: in front of the first there is no slot. -/
theorem remains_behind (text : List UInt8) (m_Slots : List Slot) :
    Remains text (m_Slots ++ (blocks text).filterMap slotOf)
      ((behind (lit "element index") text).getD []) m_Slots := by
  rcases hfind : findPos (lit "element index") text with _ | p
  · rw [behind, hfind, blocks, parts_of_none hfind]
    exact ⟨.inl rfl, congrArg _ remaining_nil⟩
  · obtain ⟨u, right, heq, rfl⟩ := exists_append_of_findPos hfind
    have hdrop : text.drop (u.length + (lit "element index").length) = right := by
      rw [heq, ← List.length_append, List.drop_left]
    rw [behind, hfind, Option.map_some, Option.getD_some, hdrop]
    refine ⟨.inr ⟨u, by rw [heq, List.append_assoc]⟩, ?_⟩
    rw [heq] at hfind
    rw [heq, blocks, parts_append (by decide) unbordered_elementIndex hfind]
    rfl

/-- The loop ends, and adds in order the slot of every block that has one. The text has no "element
index" directly behind another. The slots are those of `slotOf`, which a block has if it gives a bay
number and an address other than 0; they come behind the slots that there have been before. -/
theorem getSlotInfo_eq (m_Slots : List Slot) (buffer : Str) (hbuffer : buffer.Constructed)
    (hascii : ∀ b ∈ buffer.m_buffer, b < 0x80)
    (hdouble : ¬ lit "element index" ++ lit "element index" <:+: buffer.m_buffer) :
    getSlotInfo m_Slots buffer = .ok (m_Slots ++ (blocks buffer.m_buffer).filterMap slotOf) := by
  have htext := hbuffer.singleBytes hascii
  have hlength := (hbuffer.counted htext).2
  have hafter : buffer.after (.ofLit "element index") =
      .ofBytes ((behind (lit "element index") buffer.m_buffer).getD []) := by
    nth_rewrite 1 [hbuffer]
    exact Str.after_singleBytes htext (by decide)
  have hright : ((behind (lit "element index") buffer.m_buffer).getD []).length ≤ buffer.m_length := by
    rw [hlength, behind]
    rcases findPos (lit "element index") buffer.m_buffer with _ | p
    · exact Nat.zero_le _
    · exact (List.drop_sublist _ _).length_le
  obtain ⟨s, hrun, hs⟩ := exists_slotRounds htext hdouble (Nat.lt_succ_of_le hright)
    (remains_behind buffer.m_buffer m_Slots)
  unfold getSlotInfo
  dsimp only
  rw [hafter, hrun, ← hs]
  rfl

/-- A block with two addresses, one without an address, and one at the end of the text. -/
def threeBlocks : Str :=
  .ofBytes (lit "element index 0 bay number: 3\nSAS address:5\nSAS address:0x7\n" ++
    lit "element index 1 bay number: 4\nelement index 2 bay number: 9\nSAS address:6\n")

/-- Three blocks, one without a device: two slots are added behind those that there were. -/
theorem getSlotInfo_threeBlocks :
    getSlotInfo [⟨1, 2⟩] threeBlocks = .ok [⟨1, 2⟩, ⟨3, 7⟩, ⟨9, 6⟩] := by
  have hslots : (blocks threeBlocks.m_buffer).filterMap slotOf = [⟨3, 7⟩, ⟨9, 6⟩] := by decide +kernel
  rw [getSlotInfo_eq [⟨1, 2⟩] threeBlocks (Str.constructed_ofBytes _) (by decide +kernel)
    (by decide +kernel), hslots]
  rfl

end Irstessi
