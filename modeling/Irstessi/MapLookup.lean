import Irstessi.RaidDevice
import Irstessi.Text
import Mathlib.Data.List.Find
import Mathlib.Data.List.Nodup

/-!
# The identity taken from the map file

mdadm's map file is a text of lines `device metadata uuid path/name`. `RaidDevice::__internal_update`
looks a name (or a device name) up in it and takes the other fields of the line it stops at.

* `MapLine`, `IsMapText`: the lines and their text, and `TakesOwnIdentity`: the line looked up is the
  one whose field equals what was asked for.
* `internalUpdate_eq`: the code takes the first of the lines it comes by (`linesOf`) whose compared
  field contains what was asked for.
* **`takesOwnIdentity_iff`**: it takes its own line iff that first line carries the identity of the
  own line; for texts of single-byte characters, iff no line before the own one (or no line, where
  there is no own one) has a compared field that contains what was asked for.

The loop of the source goes over the text of the map, which need not be a map file at all; `linesOf`
lists the strings that it comes by, and `firstMatch` is the first of them that contains what is looked
for in the compared field. With these two the function is described for every text. For the text of a
list of lines the strings are the lines, and the three fields that are taken are those of the line, as
far as the fields have no blank in them and the name no slash. The comparison is a search, so that an
earlier line whose field only contains what is looked for is taken instead of the own one.
-/

namespace Irstessi

open Interact

/-- In a list, the first element with `q` is the first one with the stronger `p` iff no element with
`q` stands before all those with `p`. -/
theorem find?_eq_find?_iff {α : Type} {p q : α → Bool} (hpq : ∀ x, p x → q x) (l : List α) :
    l.find? q = l.find? p ↔
      ∀ pre x post, l = pre ++ x :: post → q x → ∃ y ∈ pre ++ [x], p y := by
  induction l with
  | nil => simp
  | cons x l ih =>
      by_cases hp : p x
      · rw [List.find?_cons_of_pos (hpq x hp), List.find?_cons_of_pos hp]
        refine ⟨fun _ pre y post heq _ => ?_, fun _ => rfl⟩
        rcases pre with _ | ⟨z, pre⟩
        · obtain ⟨rfl, -⟩ := List.cons.inj heq
          exact ⟨x, by simp, hp⟩
        · obtain ⟨rfl, -⟩ := List.cons.inj heq
          exact ⟨x, by simp, hp⟩
      · by_cases hq : q x
        · rw [List.find?_cons_of_pos hq, List.find?_cons_of_neg hp]
          constructor
          · intro h
            exact absurd (List.find?_some h.symm) hp
          · intro h
            obtain ⟨y, hy, hpy⟩ := h [] x l rfl hq
            rw [List.nil_append, List.mem_singleton] at hy
            exact absurd (hy ▸ hpy) hp
        · rw [List.find?_cons_of_neg hq, List.find?_cons_of_neg hp, ih]
          constructor
          · intro h pre y post heq hy
            rcases pre with _ | ⟨z, pre⟩
            · obtain ⟨rfl, -⟩ := List.cons.inj heq
              exact absurd hy hq
            · have htail := (List.cons.inj heq).2
              obtain ⟨w, hw, hpw⟩ := h pre y post htail hy
              exact ⟨w, List.mem_cons_of_mem _ hw, hpw⟩
          · intro h pre y post heq hy
            obtain ⟨w, hw, hpw⟩ := h (x :: pre) y post (by rw [heq]; rfl) hy
            rcases List.mem_cons.mp hw with rfl | hw
            · exact absurd hpw hp
            · exact ⟨w, hw, hpw⟩

/-! ## The text of the map file -/

/-- A line of the map file. -/
structure MapLine where
  device : List UInt8
  metadata : List UInt8
  uuid : List UInt8
  path : List UInt8
  name : List UInt8
  deriving DecidableEq, Repr

namespace MapLine

/-- `device metadata uuid path/name`. -/
def text (l : MapLine) : List UInt8 :=
  l.device ++ 32 :: (l.metadata ++ 32 :: (l.uuid ++ 32 :: (l.path ++ 47 :: l.name)))

/-- The fields are texts without line ends and blanks, and the name is the last path component. -/
structure Valid (l : MapLine) : Prop where
  device : WellFormed l.device
  metadata : WellFormed l.metadata
  uuid : WellFormed l.uuid
  path : WellFormed l.path
  name : WellFormed l.name
  no_newline : 10 ∉ l.text
  device_blank : 32 ∉ l.device
  uuid_blank : 32 ∉ l.uuid
  path_blank : 32 ∉ l.path
  name_blank : 32 ∉ l.name
  name_slash : 47 ∉ l.name

/-- The field that is compared with a name or with a device name. -/
def key (byName : Bool) (l : MapLine) : List UInt8 := if byName then l.name else l.device

end MapLine

/-- The lines, each with its line end. -/
def unlines : List MapLine → List UInt8
  | [] => []
  | l :: lines => l.text ++ 10 :: unlines lines

/-- A text of lines; the last line end may be missing, as it is after `operator >>`. -/
def IsMapText (text : List UInt8) (lines : List MapLine) : Prop :=
  text = unlines lines ∨ text ++ [10] = unlines lines

namespace RaidDevice

/-! ## What the loop comes by -/

/-- The lines that the loop comes by while none matches. -/
def mapLines (rounds : Nat) (map line : Str) : List Str :=
  match rounds with
  | 0 => []
  | rounds + 1 =>
      if line.equal .empty then []
      else
        let map := map.after (.ofLit "\n")
        line :: mapLines rounds map (map.leftOf (lit "\n"))

/-- The lines that the lookup cuts from a text. -/
def linesOf (map : Str) : List Str :=
  let map := map ++ Str.ofLit "\n"
  mapLines (map.size + 1) map (map.leftOf (lit "\n"))

/-- The fields that are taken from a line. -/
def lineDevName (line : Str) : Str := line.leftOf (lit " ")

@[inherit_doc lineDevName]
def lineName (line : Str) : Str := line.reverseAfter (.ofLit "/")

@[inherit_doc lineDevName]
def lineUuid (line : Str) : Str := (line.reverseLeft (lit " ")).reverseAfter (.ofLit " ")

/-- The object after a line has been taken. -/
def take (d : RaidDevice) (line : Str) : RaidDevice :=
  if d.lookupByName then { d with m_DevName := lineDevName line, m_Uuid := lineUuid line }
  else { d with m_Name := lineName line, m_Uuid := lineUuid line }

/-- The line taken gives the uuid, whatever the lookup was by. -/
@[simp] theorem take_uuid (d : RaidDevice) (line : Str) : (d.take line).m_Uuid = lineUuid line := by
  unfold take
  split <;> rfl

/-- Only a lookup by name replaces the device name. -/
@[simp] theorem take_devName (d : RaidDevice) (line : Str) :
    (d.take line).m_DevName = if d.lookupByName then lineDevName line else d.m_DevName := by
  unfold take
  split <;> rfl

/-- Only a lookup by device name replaces the name. -/
@[simp] theorem take_name (d : RaidDevice) (line : Str) :
    (d.take line).m_Name = if d.lookupByName then d.m_Name else lineName line := by
  unfold take
  split <;> rfl

/-- The first line that the lookup stops at. -/
def firstMatch (d : RaidDevice) (map : Str) : Option Str :=
  (linesOf map).find? (lineMatches d.lookupByName d.wanted)

/-- The loop stops at the first of the lines that matches, or at an empty one. -/
theorem lookupLine_eq (create : Bool) (name : Str) (rounds : Nat) (map line : Str) :
    match (mapLines rounds map line).find? (lineMatches create name) with
    | some l => lookupLine create name rounds map line = l ∧ ¬ l.equal .empty
    | none => (lookupLine create name rounds map line).equal .empty := by
  induction rounds generalizing map line with
  | zero => rfl
  | succ rounds ih =>
      rw [mapLines, lookupLine]
      by_cases hempty : line.equal .empty
      · simp [hempty]
      · rw [if_neg hempty, if_neg hempty]
        by_cases hmatch : lineMatches create name line
        · rw [List.find?_cons_of_pos hmatch, if_pos hmatch]
          exact ⟨rfl, hempty⟩
        · rw [List.find?_cons_of_neg hmatch, if_neg hmatch]
          exact ih _ _

/-- The update takes the first line that matches, and throws where there is none. -/
theorem internalUpdate_eq (d : RaidDevice) (map : Str) :
    d.internalUpdate map =
      match d.firstMatch map with
      | some line => (none, d.take line)
      | none => (some .arrayCreateFailed, d) := by
  have hloop := lookupLine_eq d.lookupByName d.wanted ((map ++ Str.ofLit "\n").size + 1)
    (map ++ Str.ofLit "\n") ((map ++ Str.ofLit "\n").leftOf (lit "\n"))
  unfold firstMatch linesOf internalUpdate
  simp only
  split at hloop
  next line hfind =>
    obtain ⟨heq, hempty⟩ := hloop
    rw [heq, if_neg hempty]
    unfold take lineDevName lineName lineUuid
    split <;> rfl
  next hfind =>
    rw [if_pos hloop]

/-! ## Lines of single-byte characters -/

section fields

variable {l : MapLine} (h : l.Valid)

include h

/-- A line of the map is a well-formed text. -/
theorem text_wellFormed : WellFormed l.text := by
  have hpath := (wellFormed_append_cons_iff slash_lt).mpr ⟨h.path, h.name⟩
  have huuid := (wellFormed_append_cons_iff blank_lt).mpr ⟨h.uuid, hpath⟩
  have hmeta := (wellFormed_append_cons_iff blank_lt).mpr ⟨h.metadata, huuid⟩
  exact (wellFormed_append_cons_iff blank_lt).mpr ⟨h.device, hmeta⟩

/-- The first field of a line. -/
theorem lineDevName_text : lineDevName (.ofBytes l.text) = .ofBytes l.device := by
  have hrest := ((wellFormed_append_cons_iff blank_lt).mp (text_wellFormed h)).2
  exact Str.leftOf_separator blank_lt h.device hrest h.device_blank

/-- The last path component of a line. -/
theorem lineName_text : lineName (.ofBytes l.text) = .ofBytes l.name := by
  have hsplit : l.text =
      (l.device ++ 32 :: (l.metadata ++ 32 :: (l.uuid ++ 32 :: l.path))) ++ 47 :: l.name := by
    simp [MapLine.text]
  have hwf := text_wellFormed h
  rw [hsplit] at hwf ⊢
  exact Str.reverseAfter_separator slash_lt
    ((wellFormed_append_cons_iff slash_lt).mp hwf).1 h.name h.name_slash

/-- The last field before the path of a line. -/
theorem lineUuid_text : lineUuid (.ofBytes l.text) = .ofBytes l.uuid := by
  have hsplit : l.text =
      ((l.device ++ 32 :: l.metadata) ++ 32 :: l.uuid) ++ 32 :: (l.path ++ 47 :: l.name) := by
    simp [MapLine.text]
  have hwf := text_wellFormed h
  rw [hsplit] at hwf
  obtain ⟨hleft, hright⟩ := (wellFormed_append_cons_iff blank_lt).mp hwf
  have hblank : 32 ∉ l.path ++ 47 :: l.name := by
    simp [h.path_blank, h.name_blank]
  have hcut : Str.reverseLeft (.ofBytes l.text) (lit " ") =
      .ofBytes ((l.device ++ 32 :: l.metadata) ++ 32 :: l.uuid) := by
    rw [hsplit]
    exact Str.reverseLeft_separator blank_lt hleft hright hblank
  rw [lineUuid, hcut]
  exact Str.reverseAfter_separator blank_lt
    ((wellFormed_append_cons_iff blank_lt).mp hleft).1 h.uuid h.uuid_blank

/-- A line matches iff its compared field contains what is asked for. -/
theorem lineMatches_text (byName : Bool) (name : Str) :
    lineMatches byName name (.ofBytes l.text) ↔ name.m_buffer <:+: l.key byName := by
  have hkey : lineKey byName (.ofBytes l.text) = .ofBytes (l.key byName) := by
    cases byName with
    | true => exact lineName_text h
    | false => exact lineDevName_text h
  have hwf : WellFormed (l.key byName) := by
    cases byName with
    | true => exact h.name
    | false => exact h.device
  rw [lineMatches, hkey, Str.find_isSome_iff, Str.ofBytes_buffer hwf]

end fields

/-- So is a map of valid lines. -/
theorem wellFormed_unlines {lines : List MapLine} (h : ∀ l ∈ lines, l.Valid) :
    WellFormed (unlines lines) := by
  induction lines with
  | nil => exact wellFormed_nil
  | cons l lines ih =>
      exact (wellFormed_append_cons_iff newline_lt).mpr
        ⟨text_wellFormed (h l List.mem_cons_self), ih fun k hk => h k (List.mem_cons_of_mem _ hk)⟩

/-- A map has at least as many bytes as lines, which bounds the rounds of the loop over them. -/
theorem length_le_length_unlines (lines : List MapLine) : lines.length ≤ (unlines lines).length := by
  induction lines with
  | nil => simp
  | cons l lines ih =>
      simp only [unlines, List.length_cons, List.length_append]
      omega

/-- The loop comes by the lines of a text one by one; a further line end is an empty line, at which
it ends. -/
theorem mapLines_unlines {lines : List MapLine} (h : ∀ l ∈ lines, l.Valid) {rest : List UInt8}
    (hrest : rest = [] ∨ rest = [10]) {rounds : Nat} (hrounds : lines.length < rounds) :
    mapLines rounds (.ofBytes (unlines lines ++ rest))
        (Str.leftOf (.ofBytes (unlines lines ++ rest)) (lit "\n")) =
      lines.map fun l => .ofBytes l.text := by
  have hrestwf : WellFormed rest := by
    rcases hrest with rfl | rfl
    · exact wellFormed_nil
    · exact SingleBytes.wellFormed (by decide)
  induction lines generalizing rounds with
  | nil =>
      obtain ⟨rounds, rfl⟩ : ∃ n, rounds = n + 1 := ⟨rounds - 1, by simp at hrounds; omega⟩
      rcases hrest with rfl | rfl <;> rfl
  | cons l lines ih =>
      obtain ⟨rounds, rfl⟩ : ∃ n, rounds = n + 1 := ⟨rounds - 1, by simp at hrounds; omega⟩
      have hl := h l List.mem_cons_self
      have hlines : ∀ k ∈ lines, k.Valid := fun k hk => h k (List.mem_cons_of_mem _ hk)
      have htail := (wellFormed_unlines hlines).append hrestwf
      have hsplit : unlines (l :: lines) ++ rest = l.text ++ 10 :: (unlines lines ++ rest) := by
        simp [unlines]
      have hleft : Str.leftOf (.ofBytes (unlines (l :: lines) ++ rest)) (lit "\n") =
          .ofBytes l.text := by
        rw [hsplit]
        exact Str.leftOf_separator newline_lt (text_wellFormed hl) htail hl.no_newline
      have hafter : Str.after (.ofBytes (unlines (l :: lines) ++ rest)) (.ofLit "\n") =
          .ofBytes (unlines lines ++ rest) := by
        rw [hsplit]
        exact Str.after_separator newline_lt (text_wellFormed hl) htail hl.no_newline
      have hne : ¬ (Str.ofBytes l.text).equal .empty := by
        rw [Str.equal_empty_iff, Str.ofBytes_buffer (text_wellFormed hl)]
        simp [MapLine.text]
      rw [hleft, mapLines, if_neg hne]
      simp only [hafter, List.map_cons]
      rw [ih hlines (by simpa using hrounds)]

/-- For single-byte characters the lines that the lookup comes by are the lines of the text. -/
theorem linesOf_mapText {lines : List MapLine} (h : ∀ l ∈ lines, l.Valid) {text : List UInt8}
    (htext : IsMapText text lines) (hsingle : SingleBytes text) :
    linesOf (.ofBytes text) = lines.map fun l => .ofBytes l.text := by
  have happend : Str.ofBytes text ++ Str.ofLit "\n" = .ofBytes (text ++ [10]) :=
    Str.append_eq_ofBytes hsingle (SingleBytes.wellFormed (by decide))
  obtain ⟨rest, hrest, heq⟩ :
      ∃ rest, (rest = [] ∨ rest = [10]) ∧ text ++ [10] = unlines lines ++ rest := by
    rcases htext with rfl | heq
    · exact ⟨[10], .inr rfl, rfl⟩
    · exact ⟨[], .inl rfl, by rw [heq, List.append_nil]⟩
  have hrestsingle : SingleBytes (text ++ [10]) := hsingle.append (by decide)
  have hlen := length_le_length_unlines lines
  have hsize : (Str.ofBytes (text ++ [10])).size = (unlines lines ++ rest).length := by
    rw [Str.size, Str.ofBytes_buffer hrestsingle.wellFormed, heq]
  unfold linesOf
  simp only
  rw [happend, hsize, heq]
  apply mapLines_unlines h hrest
  rw [List.length_append]
  omega

/-! ## The own line -/

/-- The compared field equals what is asked for. -/
def IsWanted (d : RaidDevice) (l : MapLine) : Bool := l.key d.lookupByName = d.wanted.m_buffer

/-- The compared field contains what is asked for. -/
def ContainsWanted (d : RaidDevice) (l : MapLine) : Bool :=
  d.wanted.m_buffer <:+: l.key d.lookupByName

/-- The line that a lookup asks for. -/
def ownLine (d : RaidDevice) (lines : List MapLine) : Option MapLine := lines.find? d.IsWanted

/-- The names and the identity are those of the own line; where there is none the lookup throws and
changes nothing. -/
def TakesOwnIdentity (d : RaidDevice) (lines : List MapLine)
    (result : Option Exception × RaidDevice) : Prop :=
  match d.ownLine lines with
  | some l => result.1 = none ∧ result.2.m_Name.m_buffer = l.name ∧
      result.2.m_DevName.m_buffer = l.device ∧ result.2.m_Uuid.m_buffer = l.uuid
  | none => result.1 ≠ none ∧ result.2.m_Name = d.m_Name ∧ result.2.m_DevName = d.m_DevName ∧
      result.2.m_Uuid = d.m_Uuid

/-- The first line of the text that contains what is asked for in its compared field carries the
identity of the own line; or there are neither. -/
def FirstMatchIsOwn (d : RaidDevice) (lines : List MapLine) (map : Str) : Prop :=
  match d.ownLine lines, d.firstMatch map with
  | some l, some line =>
      (if d.lookupByName then (lineDevName line).m_buffer = l.device
        else (lineName line).m_buffer = l.name) ∧ (lineUuid line).m_buffer = l.uuid
  | none, none => True
  | _, _ => False

/-- A line whose compared field contains what is asked for is the own line or stands behind it. -/
def NoEarlierMatch (d : RaidDevice) (lines : List MapLine) : Prop :=
  ∀ pre l post, lines = pre ++ l :: post → d.ContainsWanted l → ∃ k ∈ pre ++ [l], d.IsWanted k

/-- The own line has the field that was asked for. -/
theorem key_of_ownLine {d : RaidDevice} {lines : List MapLine} {l : MapLine}
    (h : d.ownLine lines = some l) : l.key d.lookupByName = d.wanted.m_buffer := by
  have hwanted := List.find?_some h
  rwa [IsWanted, decide_eq_true_iff] at hwanted

/-- Any text: the lookup takes its own line iff the first match carries the own identity. -/
theorem takesOwnIdentity_iff_firstMatch (d : RaidDevice) (lines : List MapLine) (map : Str) :
    d.TakesOwnIdentity lines (d.internalUpdate map) ↔ d.FirstMatchIsOwn lines map := by
  rw [internalUpdate_eq, TakesOwnIdentity, FirstMatchIsOwn]
  rcases hown : d.ownLine lines with _ | l
  · rcases hfirst : d.firstMatch map with _ | line
    · simp
    · simp
  · rcases hfirst : d.firstMatch map with _ | line
    · simp
    · have hkey := key_of_ownLine hown
      by_cases hname : d.lookupByName
      · simp only [hname, if_true, MapLine.key, wanted] at hkey ⊢
        simp [hkey, hname]
      · simp only [hname, if_false, MapLine.key, wanted, Bool.false_eq_true] at hkey ⊢
        simp [hkey, hname]

/-- Texts of single-byte characters: the first match is the own line iff no match precedes it. -/
theorem firstMatchIsOwn_iff {d : RaidDevice} {lines : List MapLine} (h : ∀ l ∈ lines, l.Valid)
    (hdevice : (lines.map MapLine.device).Nodup) (hname : (lines.map MapLine.name).Nodup)
    {text : List UInt8} (htext : IsMapText text lines) (hsingle : SingleBytes text) :
    d.FirstMatchIsOwn lines (.ofBytes text) ↔ d.NoEarlierMatch lines := by
  have hfirst : d.firstMatch (.ofBytes text) =
      (lines.find? d.ContainsWanted).map fun l => Str.ofBytes l.text := by
    rw [firstMatch, linesOf_mapText h htext hsingle, List.find?_map]
    congr 1
    refine List.find?_congr fun l hl => ?_
    rw [Function.comp_apply, Bool.eq_iff_iff, lineMatches_text (h l hl), ContainsWanted,
      decide_eq_true_iff]
  have hle : ∀ l, d.IsWanted l → d.ContainsWanted l := by
    intro l hl
    rw [IsWanted, decide_eq_true_iff] at hl
    rw [ContainsWanted, decide_eq_true_iff, hl]
  rw [NoEarlierMatch, ← find?_eq_find?_iff hle, FirstMatchIsOwn, hfirst, ownLine]
  rcases hown : lines.find? d.IsWanted with _ | l <;>
    rcases hcontains : lines.find? d.ContainsWanted with _ | k
  · simp
  · simp
  · simp
  · have hl := h l (List.mem_of_find?_eq_some hown)
    have hk := h k (List.mem_of_find?_eq_some hcontains)
    rw [Option.some.injEq]
    simp only [Option.map_some, lineDevName_text hk, lineName_text hk, lineUuid_text hk,
      Str.ofBytes_buffer hk.device, Str.ofBytes_buffer hk.name, Str.ofBytes_buffer hk.uuid]
    constructor
    · rintro ⟨hfield, -⟩
      split at hfield
      next => exact List.inj_on_of_nodup_map hdevice (List.mem_of_find?_eq_some hcontains)
                (List.mem_of_find?_eq_some hown) hfield
      next => exact List.inj_on_of_nodup_map hname (List.mem_of_find?_eq_some hcontains)
                (List.mem_of_find?_eq_some hown) hfield
    · rintro rfl
      simp

/-! ## Main result -/

/-- **When the lookup takes its own line.** For every text of lines with pairwise distinct device
names and pairwise distinct volume names, the update takes name, device name and uuid of the line
whose field equals what was asked for (and throws, changing nothing, where there is none) iff the
first line with a field that contains what was asked for carries the identity of that line. For
texts of single-byte characters this says that no line with a field that contains what was asked
for stands before it. -/
theorem takesOwnIdentity_iff (d : RaidDevice) {lines : List MapLine} (h : ∀ l ∈ lines, l.Valid)
    (hdevice : (lines.map MapLine.device).Nodup) (hname : (lines.map MapLine.name).Nodup)
    {text : List UInt8} (htext : IsMapText text lines) :
    (d.TakesOwnIdentity lines (d.internalUpdate (.ofBytes text)) ↔
      d.FirstMatchIsOwn lines (.ofBytes text)) ∧
    (SingleBytes text → (d.TakesOwnIdentity lines (d.internalUpdate (.ofBytes text)) ↔
      d.NoEarlierMatch lines)) := by
  have hiff := takesOwnIdentity_iff_firstMatch d lines (.ofBytes text)
  refine ⟨hiff, fun hsingle => ?_⟩
  rw [hiff, firstMatchIsOwn_iff h hdevice hname htext hsingle]

section example_map

/-- Two volumes of one container, the name of the second being contained in that of the first. -/
def twoVolumes : List MapLine :=
  [⟨lit "md126", lit "/md127/0", lit "aa:1", lit "/dev/md", lit "vol2"⟩,
    ⟨lit "md125", lit "/md127/1", lit "bb:2", lit "/dev/md", lit "vol"⟩]

/-- A device with the given name and nothing else. -/
def named (name : Str) : RaidDevice := ⟨.empty, .empty, name, .empty, []⟩

/-- The sample map has lines as mdadm writes them. -/
theorem twoVolumes_valid : ∀ l ∈ twoVolumes, l.Valid := by
  intro l hl
  simp only [twoVolumes, List.mem_cons, List.not_mem_nil, or_false] at hl
  rcases hl with rfl | rfl <;>
    exact ⟨SingleBytes.wellFormed (by decide), SingleBytes.wellFormed (by decide),
      SingleBytes.wellFormed (by decide), SingleBytes.wellFormed (by decide),
      SingleBytes.wellFormed (by decide), by decide, by decide, by decide, by decide, by decide,
      by decide⟩

/-- The sample map is the text of its lines. -/
theorem twoVolumes_isMapText : IsMapText (unlines twoVolumes) twoVolumes := .inl rfl

/-- The equivalence at the two volumes, asked for the first one, which is found. -/
theorem takesOwnIdentity_vol2 :
    (named (.ofLit "vol2")).TakesOwnIdentity twoVolumes
      ((named (.ofLit "vol2")).internalUpdate (.ofBytes (unlines twoVolumes))) := by
  refine ((takesOwnIdentity_iff (named (.ofLit "vol2")) twoVolumes_valid (by decide) (by decide)
    twoVolumes_isMapText).2 (by decide)).mpr ?_
  intro pre l post heq hl
  rcases pre with _ | ⟨k, pre⟩
  · obtain ⟨rfl, -⟩ := List.cons.inj heq
    exact ⟨_, List.mem_singleton_self _, by decide⟩
  · obtain ⟨rfl, -⟩ := List.cons.inj heq
    exact ⟨_, List.mem_cons_self, by decide⟩

/-- The lookup of `vol` stops at the line of `vol2`, whose name contains it. -/
theorem not_takesOwnIdentity_vol :
    ¬ ∀ (d : RaidDevice) (lines : List MapLine) (text : List UInt8), (∀ l ∈ lines, l.Valid) →
      (lines.map MapLine.device).Nodup → (lines.map MapLine.name).Nodup → IsMapText text lines →
      d.wanted.m_buffer ≠ [] → d.TakesOwnIdentity lines (d.internalUpdate (.ofBytes text)) := by
  intro h
  have hvol := h (named (.ofLit "vol")) twoVolumes _ twoVolumes_valid (by decide) (by decide)
    twoVolumes_isMapText (by decide)
  have hdev : ((named (.ofLit "vol")).internalUpdate
      (.ofBytes (unlines twoVolumes))).2.m_DevName.m_buffer = lit "md126" := by decide +kernel
  have hown : (named (.ofLit "vol")).ownLine twoVolumes = twoVolumes[1]? := by decide
  rw [TakesOwnIdentity, hown] at hvol
  obtain ⟨-, -, hdev', -⟩ := hvol
  rw [hdev] at hdev'
  exact absurd hdev' (by decide)

end example_map

end RaidDevice

end Irstessi
