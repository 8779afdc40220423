import Irstessi.Ascii
import Irstessi.Lib.While
import Irstessi.Mdadm

/-!
# Error lines

The error output of a command is split into lines, of which words are removed, and some of the last lines
become the last error message. The search for the end of a line throws at the end of the output, so that
what follows the last newline is no line.

* `splitStringToLines`, `mdadmErrorLines`, `shellExMessage`: the functions.
* `splitStringToLines_eq`: the lines of an output.
* **`losesNoLine_iff`**: no line is lost iff what follows the last newline is blank; the message does not
  depend on it.
* **`shellExMessage_eq`**: which lines the message consists of.

The loop searches for the next newline from a position and cuts the line out with `mid`, in characters.
Its invariant says which part of the text is still to be split and which lines there are, and the part
gets shorter in every round (`Lib.While`). The search throws where no newline is left, and this ends the
loop: what follows the last newline is lost. Lines are trimmed, and dropped where nothing is left of
them; then the words of `WordsToRemove` are removed, each as often as it occurs or comes about, and the
last lines are joined to the message. That no exception leaves the function is a result of its own
(`exists_mdadmErrorLines`).
-/

namespace Irstessi

open Occurrence

/-! ## Functions -/

/-- Source: `utils.cpp` `isFound` -/
def isFound (string : Str) (offset : Nat) (pattern : List UInt8) : Option Nat :=
  string.find pattern offset

/-- A round of the loop, with `pos` and `lines`.
Source: `utils.cpp` `splitStringToLines` -/
def splitRound (output newlines : Str) : Nat × List Str → Except Fault (Option (Nat × List Str))
  | (pos, lines) =>
      match isFound output pos newlines.m_buffer with
      | none => .ok none
      | some next =>
          match output.get pos with
          | none => .error (.exception .invalidOffset)
          | some p =>
              let line := (Str.ofBytes (Str.assign p (next - pos)).m_buffer).trim
              .ok (some (next + 1, if line.equal .empty then lines else lines ++ [line]))

/-- Source: `utils.cpp` `splitStringToLines` -/
def splitStringToLines (output newlines : Str) : Except Fault (List Str) :=
  (While.run .outOfRounds (splitRound output newlines) (output.m_length + 1) (0, [])).map Prod.snd

/-- The characters before `start` and those from `stop` on.
Source: `string.h` `String::reverse_mid` -/
def Str.reverseMid (s : Str) (start stop : Nat) : Str :=
  if start ≤ stop then
    let leftPart := Str.assign s.m_buffer start
    if stop < s.m_length then
      match s.get stop with
      | some p => leftPart ++ .ofBytes p
      | none => .empty
    else leftPart
  else .empty

/-- Source: `utils.cpp` `mdadmErrorLines`, `WordsToRemove` -/
def WordsToRemove : List Str := [.ofLit "mdadm: ", .ofLit "mdmon: ", .ofLit " Aborting..."]

/-- Source: `utils.cpp` `mdadmErrorLines`, the innermost loop -/
def removeRound (word line : Str) : Except Fault (Option Str) :=
  .ok ((isFound line 0 word.m_buffer).map fun found =>
    .ofBytes (line.reverseMid found (found + word.m_length)).m_buffer)

/-- All occurrences of the word are removed, also those that come about by it. -/
def removeWord (line word : Str) : Except Fault Str :=
  While.run .outOfRounds (removeRound word) (line.size + 1) line

/-- Source: `utils.cpp` `mdadmErrorLines`, the loop over the lines -/
def removeWords : List Str → Except Fault (List Str)
  | [] => .ok []
  | line :: lines => do
      let line ← WordsToRemove.foldlM removeWord line
      let lines ← removeWords lines
      pure (if line.equal .empty then lines else line :: lines)

/-- Source: `utils.cpp` `mdadmErrorLines` -/
def mdadmErrorLines (output : Str) : Except Fault (List Str) :=
  splitStringToLines output (.ofLit "\n") >>= removeWords

/-- The loop with `i` counting down; a line that there is not is a read out of range.
Source: `utils.cpp` `shellEx` -/
def messageLoop (lines : List Str) (offset : UInt32) : Nat → Str → Except Fault Str
  | 0, errorMessage => .ok errorMessage
  | i + 1, errorMessage =>
      if offset.toNat < i + 1 then
        match lines[lines.length - (i + 1)]? with
        | none => .error .outOfRange
        | some line =>
            let errorMessage := errorMessage ++ line
            messageLoop lines offset i
              (if (offset + 1).toNat < i + 1 then errorMessage ++ .ofLit " " else errorMessage)
      else .ok errorMessage

/-- What the error lines of a command that has failed come to.
Source: `utils.cpp` `shellEx` -/
def messageOf (lines : List Str) (linesNum offset : UInt32) : Except Fault Str :=
  messageLoop lines offset (min (linesNum + offset).toNat lines.length) .empty

/-- The text handed to `setLastErrorMessage`; a command that has succeeded has none.
Source: `utils.cpp` `shellEx` -/
def shellExMessage (status : Int) (output : Str) (linesNum offset : UInt32) :
    Except Fault (Option Str) :=
  if status ≠ 0 then do
    let lines ← mdadmErrorLines output
    let errorMessage ← messageOf lines linesNum offset
    pure (some errorMessage)
  else pure none

/-! ## The lines of an output -/

/-- The segments between newlines. -/
def segments (text : List UInt8) : List (List UInt8) := text.splitOn 10

/-- What is left of segments when they are trimmed and blank ones are left out. -/
def trimmedLines (segments : List (List UInt8)) : List (List UInt8) :=
  (segments.map Str.strip).filter (· ≠ [])

/-- The first line ends at the first newline. -/
theorem segments_append_cons {u v : List UInt8} (hu : 10 ∉ u) :
    segments (u ++ 10 :: v) = u :: segments v := by
  unfold segments
  rw [List.splitOn_append_cons_self, List.splitOn_eq_singleton hu]
  rfl

/-- A text without a newline is one segment. -/
theorem segments_of_not_mem {u : List UInt8} (hu : 10 ∉ u) : segments u = [u] :=
  List.splitOn_eq_singleton hu

/-- There is always at least one segment. -/
theorem segments_ne_nil (text : List UInt8) : segments text ≠ [] := List.splitOn_ne_nil 10 text

/-- A line that is blank altogether is dropped, the others are stripped. -/
theorem trimmedLines_cons (segment : List UInt8) (rest : List (List UInt8)) :
    trimmedLines (segment :: rest) =
      (if Str.strip segment = [] then [] else [Str.strip segment]) ++ trimmedLines rest := by
  unfold trimmedLines
  rw [List.map_cons, List.filter_cons]
  by_cases h : Str.strip segment = []
  · simp [h]
  · simp [h]

/-- Line by line, from the front. -/
theorem trimmedLines_append (front back : List (List UInt8)) :
    trimmedLines (front ++ back) = trimmedLines front ++ trimmedLines back := by
  unfold trimmedLines
  rw [List.map_append, List.filter_append]

/-- The lines that the loop finds. -/
def completeLines (text : List UInt8) : List Str :=
  (trimmedLines (segments text).dropLast).map Str.ofBytes

/-- The first complete line, and those behind it. -/
theorem completeLines_append_cons {u v : List UInt8} (hu : 10 ∉ u) :
    completeLines (u ++ 10 :: v) =
      (if Str.strip u = [] then [] else [.ofBytes (Str.strip u)]) ++ completeLines v := by
  unfold completeLines
  rw [segments_append_cons hu, List.dropLast_cons_of_ne_nil (segments_ne_nil v), trimmedLines_cons,
    List.map_append]
  split <;> rfl

/-- Without a newline there is no complete line: what is left at the end is not one. -/
theorem completeLines_of_not_mem {u : List UInt8} (hu : 10 ∉ u) : completeLines u = [] := by
  unfold completeLines
  rw [segments_of_not_mem hu]
  rfl

section splitting

variable {text : List UInt8} (h : SingleBytes text)

include h

/-- Stripping keeps a single-byte text one. -/
theorem strip_singleBytes : SingleBytes (Str.strip text) := fun b hb =>
  h b (List.dropWhile_subset _ ((List.rdropWhile_prefix Str.isBlank _).subset hb))

/-- A round at the beginning of a segment with a newline behind it. -/
theorem splitRound_of_mem {pos : Nat} {u v : List UInt8} (hpos : pos ≤ text.length)
    (hdrop : text.drop pos = u ++ 10 :: v) (hu : 10 ∉ u) (lines : List Str) :
    splitRound (.ofBytes text) (.ofLit "\n") (pos, lines) =
      .ok (some (pos + u.length + 1,
        lines ++ if Str.strip u = [] then [] else [.ofBytes (Str.strip u)])) := by
  have hnewline : (Str.ofLit "\n").m_buffer = [10] := by decide
  have hsingle : SingleBytes u := fun b hb => h.drop pos b (by rw [hdrop]; simp [hb])
  have hfound : isFound (.ofBytes text) pos [10] = some (pos + u.length) := by
    rw [isFound, Str.find_singleBytes h, hdrop, findPos_singleton hu, Option.map_some,
      Nat.min_eq_left hpos]
  have htake : Str.assign (u ++ 10 :: v) (pos + u.length - pos) = .ofBytes u := by
    rw [← hdrop, Str.assign_singleBytes (h.drop pos), hdrop, Nat.add_sub_cancel_left, List.take_left]
  unfold splitRound
  dsimp only
  rw [hnewline, hfound]
  dsimp only
  rw [Str.get_singleBytes h hpos, hdrop]
  dsimp only
  rw [htake, Str.ofBytes_ofBytes, Str.trim_singleBytes hsingle]
  have hempty : (Str.ofBytes (Str.strip u)).equal .empty ↔ Str.strip u = [] := by
    rw [Str.equal_empty_iff, Str.ofBytes_buffer (strip_singleBytes hsingle).wellFormed]
  by_cases hblank : Str.strip u = []
  · rw [if_pos (hempty.mpr hblank), if_pos hblank, List.append_nil]
  · rw [if_neg (mt hempty.mp hblank), if_neg hblank]

/-- The loop ends where no newline is left. -/
theorem splitRound_of_not_mem {pos : Nat} (hmem : 10 ∉ text.drop pos) (lines : List Str) :
    splitRound (.ofBytes text) (.ofLit "\n") (pos, lines) = .ok none := by
  have hnewline : (Str.ofLit "\n").m_buffer = [10] := by decide
  have hnone : findPos [10] (text.drop pos) = none := by
    rw [← Option.not_isSome_iff_eq_none, findPos_isSome_iff]
    exact fun hoccurs => hmem (hoccurs.subset List.mem_cons_self)
  unfold splitRound
  dsimp only
  rw [hnewline, isFound, Str.find_singleBytes h, hnone]
  rfl

/-- What is left of the text and the lines found so far make up the lines. -/
def Splits (text : List UInt8) (s : Nat × List Str) : Prop :=
  s.1 ≤ text.length ∧ s.2 ++ completeLines (text.drop s.1) = completeLines text

/-- A round ends the loop or keeps its invariant and gets on in the text. -/
theorem splitRound_step (s : Nat × List Str) (hs : Splits text s) :
    splitRound (.ofBytes text) (.ofLit "\n") s = .ok none ∨
      ∃ s', splitRound (.ofBytes text) (.ofLit "\n") s = .ok (some s') ∧ Splits text s' ∧
        text.length - s'.1 < text.length - s.1 := by
  obtain ⟨pos, lines⟩ := s
  obtain ⟨hpos, hlines⟩ := hs
  dsimp only at hpos hlines ⊢
  by_cases hmem : 10 ∈ text.drop pos
  · obtain ⟨u, v, hdrop, hu⟩ := List.eq_append_cons_of_mem hmem
    have hlength := congrArg List.length hdrop
    rw [List.length_drop, List.length_append, List.length_cons] at hlength
    have hrest : text.drop (pos + u.length + 1) = v := by
      rw [Nat.add_assoc, ← List.drop_drop, hdrop, ← List.drop_drop, List.drop_left]
      rfl
    rw [hdrop, completeLines_append_cons hu, ← List.append_assoc, ← hrest] at hlines
    refine .inr ⟨_, splitRound_of_mem h hpos hdrop hu lines, ⟨?_, hlines⟩, ?_⟩
    · dsimp only
      omega
    · dsimp only
      omega
  · exact .inl (splitRound_of_not_mem h hmem lines)

/-- The loop ends, and finds the segments that end with a newline. -/
theorem splitStringToLines_eq :
    splitStringToLines (.ofBytes text) (.ofLit "\n") = .ok (completeLines text) := by
  have hlength : (Str.ofBytes text).m_length = text.length := by rw [Str.ofBytes_of_singleBytes h]
  obtain ⟨⟨pos, lines⟩, hrun, ⟨hpos, hlines⟩, hlast⟩ :
      ∃ t, While.run Fault.outOfRounds (splitRound (.ofBytes text) (.ofLit "\n"))
          ((Str.ofBytes text).m_length + 1) (0, []) = .ok t ∧ Splits text t ∧
        splitRound (.ofBytes text) (.ofLit "\n") t = .ok none :=
    While.exists_run _ _ (splitRound_step h) ⟨Nat.zero_le _, rfl⟩ (by dsimp only; omega)
  have hmem : 10 ∉ text.drop pos := by
    intro hmem
    obtain ⟨u, v, hdrop, hu⟩ := List.eq_append_cons_of_mem hmem
    rw [splitRound_of_mem h hpos hdrop hu lines] at hlast
    cases hlast
  dsimp only at hlines
  rw [completeLines_of_not_mem hmem, List.append_nil] at hlines
  rw [splitStringToLines, hrun, ← hlines]
  rfl

end splitting

/-- A segment has no bytes but those of the text. -/
theorem subset_of_mem_segments {text segment : List UInt8} (hmem : segment ∈ segments text) :
    segment ⊆ text := by
  induction text generalizing segment with
  | nil =>
      rw [List.mem_singleton.mp hmem]
      exact List.nil_subset _
  | cons b text ih =>
      unfold segments at hmem ih
      rw [List.splitOn_cons_eq_if_modifyHead] at hmem
      split at hmem
      · rcases List.mem_cons.mp hmem with rfl | hmem
        · exact List.nil_subset _
        · exact List.subset_cons_of_subset b (ih hmem)
      · obtain ⟨first, rest, hsplit⟩ := List.exists_cons_of_ne_nil (List.splitOn_ne_nil 10 text)
        rw [hsplit] at hmem ih
        rcases List.mem_cons.mp hmem with rfl | hmem
        · exact List.cons_subset_cons b (ih List.mem_cons_self)
        · exact List.subset_cons_of_subset b (ih (List.mem_cons_of_mem _ hmem))

/-- The lines of a single-byte text are such texts. -/
theorem singleBytes_of_mem_trimmedLines {text line : List UInt8} (h : SingleBytes text)
    (hline : line ∈ trimmedLines (segments text).dropLast) : SingleBytes line := by
  obtain ⟨hmem, -⟩ := List.mem_filter.mp hline
  obtain ⟨segment, hsegment, rfl⟩ := List.mem_map.mp hmem
  have hsubset := subset_of_mem_segments (List.dropLast_subset _ hsegment)
  exact strip_singleBytes fun b hb => h b (hsubset hb)

/-- The complete lines as bytes, which is where the class and the list agree. -/
theorem buffer_completeLines {text : List UInt8} (h : SingleBytes text) :
    (completeLines text).map Str.m_buffer = trimmedLines (segments text).dropLast := by
  unfold completeLines
  rw [List.map_map]
  refine (List.map_congr_left ?_).trans (List.map_id _)
  exact fun line hline => Str.ofBytes_buffer (singleBytes_of_mem_trimmedLines h hline).wellFormed

/-- Without the segment behind the last newline the lines are the same. -/
theorem completeLines_rdropWhile (text : List UInt8) :
    completeLines (text.rdropWhile (· ≠ 10)) = completeLines text := by
  have hcut := List.rdropWhile_append_rtakeWhile (p := fun b : UInt8 => decide (b ≠ 10)) (l := text)
  have hlast : 10 ∉ text.rtakeWhile (· ≠ 10) := fun hmem => by
    simpa using List.mem_rtakeWhile_imp hmem
  rcases List.eq_nil_or_concat (text.rdropWhile (· ≠ 10)) with hnil | ⟨front, b, hfront⟩
  · rw [hnil, List.nil_append] at hcut
    rw [hnil, ← hcut, completeLines_of_not_mem hlast]
    rfl
  · have hb : b = 10 := by
      have hnot := List.rdropWhile_last_not (fun b : UInt8 => decide (b ≠ 10)) text
        (by rw [hfront]; simp)
      simp only [hfront] at hnot
      simpa using hnot
    rw [List.concat_eq_append] at hfront
    rw [hfront, hb, List.append_assoc, List.singleton_append] at hcut
    unfold completeLines segments
    rw [hfront, hb, ← hcut, List.splitOn_append_cons_self, List.splitOn_append_cons_self,
      List.splitOn_eq_singleton hlast, List.splitOn_nil, List.dropLast_concat, List.dropLast_concat]

/-! ## Main result on lines -/

/-- For every text of single-byte characters: the loop ends, and the lines are the trimmed segments that
are not blank iff the segment behind the last newline is blank; the error message does not depend on it. -/
theorem losesNoLine_iff {text : List UInt8} (h : SingleBytes text) :
    ((∃ lines, splitStringToLines (.ofBytes text) (.ofLit "\n") = .ok lines ∧
        lines.map Str.m_buffer = trimmedLines (segments text)) ↔
      ∀ last ∈ (segments text).getLast?, Str.strip last = []) ∧
    ∀ (status : Int) (linesNum offset : UInt32),
      shellExMessage status (.ofBytes text) linesNum offset =
        shellExMessage status (.ofBytes (text.rdropWhile (· ≠ 10))) linesNum offset := by
  constructor
  · obtain ⟨front, last, hsegments⟩ : ∃ front last, segments text = front ++ [last] :=
      ⟨_, _, (List.dropLast_append_getLast (segments_ne_nil text)).symm⟩
    have hbuffer := buffer_completeLines h
    rw [hsegments, List.dropLast_concat] at hbuffer
    simp only [splitStringToLines_eq h, Except.ok.injEq, exists_eq_left', hbuffer, hsegments]
    rw [trimmedLines_append, trimmedLines_cons, List.self_eq_append_right]
    simp [trimmedLines]
  · intro status linesNum offset
    have hfront : SingleBytes (text.rdropWhile (· ≠ 10)) :=
      fun b hb => h b ((List.rdropWhile_prefix _ _).subset hb)
    unfold shellExMessage mdadmErrorLines
    rw [splitStringToLines_eq h, splitStringToLines_eq hfront, completeLines_rdropWhile]

/-- An error line that ends with a newline is kept. -/
theorem losesNoLine_newline :
    SingleBytes (lit "mdadm: no devices\n") ∧
      ∃ lines, splitStringToLines (.ofBytes (lit "mdadm: no devices\n")) (.ofLit "\n") = .ok lines ∧
        lines.map Str.m_buffer = trimmedLines (segments (lit "mdadm: no devices\n")) :=
  ⟨by decide, (losesNoLine_iff (by decide)).1.mpr (by decide +kernel)⟩

/-- An error line without a newline is lost, and the last error message is empty. -/
theorem not_losesNoLine_last :
    ¬ (∀ text : List UInt8, SingleBytes text →
        ∃ lines, splitStringToLines (.ofBytes text) (.ofLit "\n") = .ok lines ∧
          lines.map Str.m_buffer = trimmedLines (segments text)) ∧
      shellExMessage 1 (.ofLit "mdadm: no devices") 1 0 = .ok (some .empty) := by
  refine ⟨fun hlines => ?_, by decide +kernel⟩
  obtain ⟨lines, hsplit, hbuffer⟩ := hlines (lit "no devices") (by decide)
  have hnone : splitStringToLines (.ofBytes (lit "no devices")) (.ofLit "\n") = .ok [] := by
    decide +kernel
  rw [hnone, Except.ok.injEq] at hsplit
  rw [← hsplit] at hbuffer
  exact absurd hbuffer (by decide +kernel)

/-! ## The words that are removed -/

/-- A round adds lines that have been trimmed. -/
theorem constructed_splitRound {output newlines : Str} {s s' : Nat × List Str}
    (hs : ∀ line ∈ s.2, line.Constructed) (h : splitRound output newlines s = .ok (some s')) :
    ∀ line ∈ s'.2, line.Constructed := by
  unfold splitRound at h
  dsimp only at h
  split at h
  next => cases h
  next next hfound =>
    split at h
    next => cases h
    next p hp =>
      obtain rfl := Option.some.inj (Except.ok.inj h)
      dsimp only
      split
      · exact hs
      · refine List.forall_mem_append.mpr ⟨hs, ?_⟩
        rw [List.forall_mem_singleton]
        exact Str.constructed_ofBytes _

/-- Every line that the splitting returns is a text that the class can hold. -/
theorem constructed_splitStringToLines {output newlines : Str} {lines : List Str}
    (h : splitStringToLines output newlines = .ok lines) : ∀ line ∈ lines, line.Constructed := by
  unfold splitStringToLines at h
  rcases hrun : While.run Fault.outOfRounds (splitRound output newlines) (output.m_length + 1) (0, [])
    with e | s
  · rw [hrun] at h
    cases h
  · rw [hrun] at h
    obtain rfl := Except.ok.inj h
    exact While.of_run (fun _ _ hs hround => constructed_splitRound hs hround) (by simp) hrun

/-- Removing a word keeps a text one that the class can hold. -/
theorem constructed_removeWord {line word r : Str} (hline : line.Constructed)
    (h : removeWord line word = .ok r) : r.Constructed := by
  refine While.of_run (fun s s' _ hround => ?_) hline h
  obtain ⟨found, -, rfl⟩ := Option.map_eq_some_iff.mp (Except.ok.inj hround)
  exact Str.constructed_ofBytes _

/-- Removing word after word keeps it too. -/
theorem constructed_foldlM {words : List Str} {line r : Str} (hline : line.Constructed)
    (h : words.foldlM removeWord line = .ok r) : r.Constructed := by
  induction words generalizing line with
  | nil =>
      obtain rfl := Except.ok.inj h
      exact hline
  | cons word words ih =>
      rw [List.foldlM_cons] at h
      rcases hword : removeWord line word with e | line'
      · rw [hword] at h
        cases h
      · rw [hword] at h
        exact ih (constructed_removeWord hline hword) h

/-- And so for all lines. -/
theorem constructed_removeWords {lines rs : List Str} (hlines : ∀ line ∈ lines, line.Constructed)
    (h : removeWords lines = .ok rs) : ∀ line ∈ rs, line.Constructed := by
  induction lines generalizing rs with
  | nil =>
      obtain rfl := Except.ok.inj h
      simp
  | cons line lines ih =>
      rw [removeWords] at h
      rcases hline : WordsToRemove.foldlM removeWord line with e | line'
      · rw [hline] at h
        cases h
      rcases hrest : removeWords lines with e | lines'
      · rw [hline, hrest] at h
        cases h
      · rw [hline, hrest] at h
        obtain rfl := Except.ok.inj h
        have hrest' := ih (fun l hl => hlines l (List.mem_cons_of_mem _ hl)) hrest
        split
        · exact hrest'
        · exact List.forall_mem_cons.mpr
            ⟨constructed_foldlM (hlines line List.mem_cons_self) hline, hrest'⟩

/-- The error lines are strings as constructors leave them. -/
theorem constructed_mdadmErrorLines {output : Str} {lines : List Str}
    (h : mdadmErrorLines output = .ok lines) : ∀ line ∈ lines, line.Constructed := by
  unfold mdadmErrorLines at h
  rcases hsplit : splitStringToLines output (.ofLit "\n") with e | found
  · rw [hsplit] at h
    cases h
  · rw [hsplit] at h
    exact constructed_removeWords (constructed_splitStringToLines hsplit) h

/-- A string of single-byte characters. -/
def Str.Plain (s : Str) : Prop := ∃ t, SingleBytes t ∧ s = .ofBytes t

/-- `reverseMid` on a single-byte text cuts a part out and joins what stands on both sides of it. -/
theorem Str.reverseMid_singleBytes {t : List UInt8} (ht : SingleBytes t) {start stop : Nat}
    (hstart : start ≤ stop) (hstop : stop ≤ t.length) :
    (ofBytes t).reverseMid start stop = ofBytes (t.take start ++ t.drop stop) := by
  have hlength : (ofBytes t).m_length = t.length := by rw [ofBytes_of_singleBytes ht]
  rw [reverseMid, if_pos hstart, hlength, ofBytes_buffer ht.wellFormed, assign_singleBytes ht]
  dsimp only
  split
  next hlt =>
    rw [get_singleBytes ht hstop]
    exact append_eq_ofBytes (ht.take start) (ht.drop stop).wellFormed
  next hge => rw [List.drop_eq_nil_of_le (by omega), List.append_nil]

/-- A round removes the first occurrence. -/
theorem removeRound_singleBytes {t : List UInt8} (ht : SingleBytes t) {word : Str}
    (hword : word.Counted) : removeRound word (.ofBytes t) = .ok ((findPos word.m_buffer t).map fun p =>
      .ofBytes (t.take p ++ t.drop (p + word.m_buffer.length))) := by
  unfold removeRound isFound
  rw [Str.find_singleBytes ht, List.drop_zero, Nat.zero_min, hword.2]
  rcases hfind : findPos word.m_buffer t with _ | p
  · rfl
  · have hle := ((findPos_eq_some_iff.mp hfind).1).length_le
    simp only [Option.map_some, Nat.zero_add]
    rw [Str.reverseMid_singleBytes ht (Nat.le_add_right _ _) hle, Str.ofBytes_ofBytes]

/-- Each removal leaves a shorter string, so that the loop ends. -/
theorem exists_removeWord {line word : Str} (hline : line.Plain) (hword : word.Counted)
    (hne : word.m_buffer ≠ []) : ∃ r, removeWord line word = .ok r ∧ r.Plain := by
  obtain ⟨r, hrun, hr, -⟩ : ∃ r, While.run Fault.outOfRounds (removeRound word) (line.size + 1) line =
      .ok r ∧ r.Plain ∧ removeRound word r = .ok none := by
    refine While.exists_run _ Str.size ?_ hline (Nat.lt_succ_self _)
    rintro s ⟨t, ht, rfl⟩
    rw [removeRound_singleBytes ht hword]
    rcases hfind : findPos word.m_buffer t with _ | p
    · exact .inl rfl
    · have hle := ((findPos_eq_some_iff.mp hfind).1).length_le
      have hpos := List.length_pos_iff.mpr hne
      have hrest : SingleBytes (t.take p ++ t.drop (p + word.m_buffer.length)) :=
        (ht.take p).append (ht.drop _)
      refine .inr ⟨_, rfl, ⟨_, hrest, rfl⟩, ?_⟩
      unfold Str.size
      rw [Str.ofBytes_buffer hrest.wellFormed, Str.ofBytes_buffer ht.wellFormed, List.length_append,
        List.length_take, List.length_drop]
      omega
  exact ⟨r, hrun, hr⟩

/-- Removing the words from a plain line throws nothing and leaves a plain line. -/
theorem exists_foldlM {words : List Str} (hwords : ∀ word ∈ words, word.Counted ∧ word.m_buffer ≠ [])
    {line : Str} (hline : line.Plain) : ∃ r, words.foldlM removeWord line = .ok r ∧ r.Plain := by
  induction words generalizing line with
  | nil => exact ⟨line, rfl, hline⟩
  | cons word words ih =>
      obtain ⟨hword, hne⟩ := hwords word List.mem_cons_self
      obtain ⟨r, hremove, hr⟩ := exists_removeWord hline hword hne
      rw [List.foldlM_cons, hremove]
      exact ih (fun w hw => hwords w (List.mem_cons_of_mem _ hw)) hr

/-- The words that are removed are not empty, and are counted as their bytes. -/
theorem wordsToRemove_counted : ∀ word ∈ WordsToRemove, word.Counted ∧ word.m_buffer ≠ [] := by
  unfold WordsToRemove
  simp only [List.forall_mem_cons, List.not_mem_nil, false_imp_iff, implies_true, and_true]
  exact ⟨⟨Str.counted_ofLit (by decide), by decide⟩, ⟨Str.counted_ofLit (by decide), by decide⟩,
    ⟨Str.counted_ofLit (by decide), by decide⟩⟩

/-- Removing the words from plain lines throws nothing. -/
theorem exists_removeWords {lines : List Str} (hlines : ∀ line ∈ lines, line.Plain) :
    ∃ rs, removeWords lines = .ok rs ∧ ∀ r ∈ rs, r.Plain := by
  induction lines with
  | nil => exact ⟨[], rfl, by simp⟩
  | cons line lines ih =>
      obtain ⟨r, hline, hr⟩ := exists_foldlM wordsToRemove_counted (hlines line List.mem_cons_self)
      obtain ⟨rs, hrest, hrs⟩ := ih fun l hl => hlines l (List.mem_cons_of_mem _ hl)
      rw [removeWords, hline, hrest]
      refine ⟨_, rfl, ?_⟩
      split
      · exact hrs
      · exact List.forall_mem_cons.mpr ⟨hr, hrs⟩

/-- Of an output of single-byte characters there are error lines, of such characters. -/
theorem exists_mdadmErrorLines {output : List UInt8} (h : SingleBytes output) :
    ∃ lines, mdadmErrorLines (.ofBytes output) = .ok lines ∧ ∀ line ∈ lines, line.Plain := by
  unfold mdadmErrorLines
  rw [splitStringToLines_eq h]
  apply exists_removeWords
  intro line hline
  obtain ⟨bytes, hbytes, rfl⟩ := List.mem_map.mp hline
  exact ⟨_, singleBytes_of_mem_trimmedLines h hbytes, rfl⟩

/-! ## The message -/

section message

variable {lines : List Str} {offset : UInt32}

/-- No line is read out of range, and what comes about is the summary. -/
theorem messageLoop_eq_summary {i : Nat} (hi : i ≤ lines.length) (hwrap : i < 2 ^ 32) (message : Str) :
    messageLoop lines offset i message = .ok (summary lines offset.toNat i message) := by
  induction i generalizing message with
  | zero => rfl
  | succ i ih =>
      rw [messageLoop, summary]
      by_cases hlt : offset.toNat < i + 1
      · have hget : lines[lines.length - (i + 1)]? = some (lines.getD (lines.length - (i + 1)) .empty) := by
          have hin : lines.length - (i + 1) < lines.length := by omega
          simp [hin]
        have hone : (offset + 1).toNat = offset.toNat + 1 := by
          rw [UInt32.toNat_add]
          exact Nat.mod_eq_of_lt (by
            have hbound : (1 : UInt32).toNat = 1 := rfl
            omega)
        rw [if_pos hlt, if_pos hlt, hget, hone]
        exact ih (by omega) (by omega) _
      · rw [if_neg hlt, if_neg hlt]

/-- The bytes of the summary: the lines from the one counted by `i` on, up to the last `offset`. -/
theorem buffer_summary (hlines : ∀ line ∈ lines, SingleBytes line.m_buffer) {offset i : Nat}
    (hi : i ≤ lines.length) {message : Str} (hmessage : message.Counted) :
    (summary lines offset i message).m_buffer = message.m_buffer ++
      List.intercalate [32]
        (((lines.map Str.m_buffer).take (lines.length - offset)).drop (lines.length - i)) := by
  have hlength : ((lines.map Str.m_buffer).take (lines.length - offset)).length =
      lines.length - offset := by
    rw [List.length_take, List.length_map]
    exact Nat.min_eq_left (Nat.sub_le _ _)
  induction i generalizing message with
  | zero =>
      rw [summary, List.drop_eq_nil_of_le (by omega), List.intercalate_nil, List.append_nil]
  | succ i ih =>
      rw [summary]
      by_cases hlt : offset < i + 1
      · have hin : lines.length - (i + 1) < lines.length := by omega
        have hget : lines.getD (lines.length - (i + 1)) .empty = lines[lines.length - (i + 1)] := by
          simp [hin]
        have hline := hlines _ (List.getElem_mem hin)
        obtain ⟨hcounted, hbuffer⟩ := hmessage.append hline
        have hcons : ((lines.map Str.m_buffer).take (lines.length - offset)).drop
            (lines.length - (i + 1)) = lines[lines.length - (i + 1)].m_buffer ::
              ((lines.map Str.m_buffer).take (lines.length - offset)).drop (lines.length - i) := by
          rw [List.drop_eq_getElem_cons (by omega), List.getElem_take, List.getElem_map]
          congr 2
          omega
        rw [if_pos hlt, hget, hcons]
        dsimp only
        by_cases hmore : offset + 1 < i + 1
        · have hblank : SingleBytes (Str.ofLit " ").m_buffer := by decide
          obtain ⟨hcounted', hbuffer'⟩ := hcounted.append hblank
          have hne : ((lines.map Str.m_buffer).take (lines.length - offset)).drop (lines.length - i) ≠
              [] := by
            rw [← List.length_pos_iff, List.length_drop]
            omega
          have hlit : (Str.ofLit " ").m_buffer = [32] := by decide
          rw [if_pos hmore, ih (by omega) hcounted', hbuffer', hbuffer, hlit,
            List.intercalate_cons_of_ne_nil hne]
          simp
        · have hnil : ((lines.map Str.m_buffer).take (lines.length - offset)).drop (lines.length - i) =
              [] := List.drop_eq_nil_of_le (by omega)
          rw [if_neg hmore, ih (by omega) hcounted, hbuffer, hnil, List.intercalate_nil,
            List.intercalate_singleton, List.append_nil]
      · rw [if_neg hlt, List.drop_eq_nil_of_le (by omega), List.intercalate_nil, List.append_nil]

/-- Without a wrap-around of the two numbers the message is the lines from the offset on, joined. -/
theorem messageOf_eq {linesNum : UInt32} (h : linesNum.toNat + offset.toNat < 2 ^ 32) :
    messageOf lines linesNum offset = .ok (errorMessage lines linesNum.toNat offset.toNat) := by
  have hsum : (linesNum + offset).toNat = linesNum.toNat + offset.toNat := by
    rw [UInt32.toNat_add]
    exact Nat.mod_eq_of_lt h
  unfold messageOf errorMessage
  rw [hsum]
  exact messageLoop_eq_summary (Nat.min_le_right _ _) ((Nat.min_le_left _ _).trans_lt h) _

end message

/-- For every command that fails and every list of error lines of single-byte characters: the text that
becomes the last error message consists of the lines with the numbers from `n - min (L + O) n` on and
below `n - O`, in their order and with a blank between two of them. No line is read out of range. -/
theorem shellExMessage_eq {status : Int} (hstatus : status ≠ 0) {output : Str} {lines : List Str}
    (h : mdadmErrorLines output = .ok lines) (hlines : ∀ line ∈ lines, SingleBytes line.m_buffer)
    (linesNum offset : UInt32) (hwrap : linesNum.toNat + offset.toNat < 2 ^ 32) :
    ∃ message, shellExMessage status output linesNum offset = .ok (some message) ∧
      message.m_buffer = List.intercalate [32]
        (((lines.map Str.m_buffer).take (lines.length - offset.toNat)).drop
          (lines.length - min (linesNum.toNat + offset.toNat) lines.length)) := by
  refine ⟨errorMessage lines linesNum.toNat offset.toNat, ?_, ?_⟩
  · unfold shellExMessage
    rw [if_pos hstatus, h]
    change (messageOf lines linesNum offset >>= _) = _
    rw [messageOf_eq hwrap]
    rfl
  · have hempty : Str.empty.Counted := ⟨by decide, rfl⟩
    rw [errorMessage, buffer_summary hlines (Nat.min_le_right _ _) hempty]
    rfl

/-- Of three lines two are to be taken, and the last one left out. -/
theorem shellExMessage_two :
    ∃ message, shellExMessage 1 (.ofLit "mdadm: a\nmdmon: b\nc\n") 2 1 = .ok (some message) ∧
      message.m_buffer = List.intercalate [32] [lit "a", lit "b"] := by
  have hlines : mdadmErrorLines (.ofLit "mdadm: a\nmdmon: b\nc\n") =
      .ok [.ofLit "a", .ofLit "b", .ofLit "c"] := by decide +kernel
  have hsingle : ∀ line ∈ [Str.ofLit "a", .ofLit "b", .ofLit "c"], SingleBytes line.m_buffer := by
    decide +kernel
  exact shellExMessage_eq (by decide) hlines hsingle 2 1 (by decide)

end Irstessi
