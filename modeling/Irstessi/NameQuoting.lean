import Irstessi.Lib.Follow
import Irstessi.Lib.Shell
import Irstessi.Numerals
import Irstessi.Rename
import Irstessi.VolumeCreate

/-!
# Volume names on the command line

`Volume::create` and `Array::renameVolume` put the name of a volume in quotes and hand the command
line to the shell.

* `shellOutputText`, `shellExText`: the texts that `popen` gets.
* `RunsMdadm`: the shell takes the text for one command of mdadm, with the name as an argument.
* `GivesName`: the texts with a name that has been accepted.
* **`runsMdadm_of_givesName`**: the shell does so for names of single-byte characters without quotes,
  and for no others of single-byte characters.

What the shell does with a text is the subject of `Lib.Shell`: a text is cut into tokens, and a simple
command is read off these. The commands are put together from parts of which all but the name are
without characters that the shell treats specially; `IsArgument` says so, and every part of the two
command lines is shown to be such a text. Then the name between its quotes is one word iff it has no
quote of its own. For names with characters of several bytes the count of `String` and the number of
bytes differ, and the claim is made for those of single bytes only where it is an equivalence.
-/

namespace Irstessi

open Interact Shell

/-! ## Texts -/

/-- The error output is what is read.
Source: `utils.cpp` `shell_output` -/
def shellOutputText (command : Str) : Str := command ++ .ofLit " 2>&1 1>/dev/null"

/-- Source: `utils.cpp` `shellEx` -/
def shellExText (s : Str) : Str := shellOutputText (.ofLit "export MDADM_EXPERIMENTAL=1; " ++ s)

/-- The setting in front of a command. -/
def exportSetting : List Token :=
  [.word (lit "export"), .word (lit "MDADM_EXPERIMENTAL=1"), .operator (lit ";")]

/-- The text is one simple command of mdadm, behind the setting if there is one, and the name is one
of its arguments. -/
def RunsMdadm (name text : List UInt8) : Prop :=
  ∃ setting command args, (setting = [] ∨ setting = exportSetting) ∧
    tokens text = some (setting ++ command) ∧ simple? command = some (lit "mdadm" :: args) ∧
    name ∈ args

namespace Str

/-- Texts of single-byte characters are put behind one another. -/
theorem concat_counted {texts : List Str} (h : ∀ t ∈ texts, SingleBytes t.m_buffer) :
    (Command.concat texts).Counted ∧
      (Command.concat texts).m_buffer = texts.flatMap (·.m_buffer) := by
  have hfold : ∀ s : Str, s.Counted → (texts.foldl (· ++ ·) s).Counted ∧
      (texts.foldl (· ++ ·) s).m_buffer = s.m_buffer ++ texts.flatMap (·.m_buffer) := by
    induction texts with
    | nil => exact fun s hs => ⟨hs, by simp⟩
    | cons t texts ih =>
        intro s hs
        obtain ⟨ht, htexts⟩ := List.forall_mem_cons.mp h
        obtain ⟨hst, hbuffer⟩ := hs.append ht
        obtain ⟨hall, hbuffers⟩ := ih htexts (s ++ t) hst
        exact ⟨hall, by rw [List.foldl_cons, hbuffers, hbuffer]; simp⟩
  exact hfold .empty ⟨by simp [empty, SingleBytes], rfl⟩

end Str

/-! ## One command with the name -/

section shell

/-- What `shell_output` puts behind the command. -/
def redirectTokens : List Token :=
  [.number (lit "2"), .operator (lit ">&"), .word (lit "1"), .number (lit "1"), .operator (lit ">"),
    .word (lit "/dev/null")]

/-- What the functions append to a command is the redirection, behind whatever word the command ends
with. -/
theorem tokensFrom_redirect (w : List UInt8) (bare : Bool) :
    tokensFrom (.word w bare) (lit " 2>&1 1>/dev/null") = some (.word w :: redirectTokens) := by
  have hblank : Shell.lex (.word w bare) [blank] = some ([.word w], .between) := rfl
  have hrest : tokensFrom .between (lit "2>&1 1>/dev/null") = some redirectTokens := by decide
  have htext : lit " 2>&1 1>/dev/null" = [blank] ++ lit "2>&1 1>/dev/null" := by decide
  rw [htext, tokensFrom_append hblank, hrest]
  rfl

/-- The redirection closes the word in front of it. -/
theorem closes_redirect : Closes (lit " 2>&1 1>/dev/null") := ⟨by decide +kernel, by decide⟩

/-- A name in quotes, behind the words of an mdadm command and in front of others. -/
theorem runsMdadm_iff {first : List UInt8} {before name : List UInt8} {args : List (List UInt8)}
    {setting : List Token} (hsetting : setting = [] ∨ setting = exportSetting)
    (hbefore : Shell.lex .between before =
      some (setting ++ (lit "mdadm" :: args).map .word, .single []))
    (hargs : ∀ w ∈ args, quote ∉ w) {words : List (List UInt8)}
    (hwords : ∀ r ∈ first :: words, WordText r ∧ Harmless r) :
    RunsMdadm name (before ++ (name ++ quote :: (line (first :: words) ++ lit " 2>&1 1>/dev/null"))) ↔
      quote ∉ name := by
  obtain ⟨hfirst, hrest⟩ := List.forall_mem_cons.mp hwords
  have htext : line (first :: words) ++ lit " 2>&1 1>/dev/null" =
      blank :: (first ++ (line words ++ lit " 2>&1 1>/dev/null")) := by
    simp
  rw [htext]
  constructor
  · rintro ⟨setting', command, args', -, htokens, hsimple, hname⟩ hquote
    have hcloses := hfirst.1.closes hfirst.2 (closes_line hrest closes_redirect)
    have hnone : Token.word name ∉ setting ++ (lit "mdadm" :: args).map .word := by
      have hsettingWords : ∀ w, .word w ∈ exportSetting → quote ∉ w := by
        intro w hw
        simp only [exportSetting, List.mem_cons, Token.word.injEq, reduceCtorEq, List.not_mem_nil,
          or_false] at hw
        rcases hw with rfl | rfl <;> decide
      intro hmem
      rcases List.mem_append.mp hmem with hmem | hmem
      · rcases hsetting with rfl | rfl
        · simp at hmem
        · exact hsettingWords name hmem hquote
      · obtain ⟨w, hw, heq⟩ := List.mem_map.mp hmem
        obtain rfl := Token.word.inj heq
        rcases List.mem_cons.mp hw with rfl | hw
        · exact absurd hquote (by decide)
        · exact hargs w hw hquote
    apply not_mem_tokens_quoted hbefore hnone hquote hcloses htokens
    exact List.mem_append_right _ (mem_of_simple? hsimple (List.mem_cons_of_mem _ hname))
  · intro hquote
    obtain ⟨w, bare, hlex⟩ := hfirst.1.lex
    obtain ⟨ws, hws⟩ := tokensFrom_line (fun r hr => (hrest r hr).1) tokensFrom_redirect w bare
    have hbehind : tokens (first ++ (line words ++ lit " 2>&1 1>/dev/null")) =
        some (.word w :: (ws.map .word ++ redirectTokens)) := by
      rw [tokens, tokensFrom_append hlex, hws]
      rfl
    have htokens := tokens_quoted hbefore hquote hbehind
    refine ⟨setting, ((lit "mdadm" :: args) ++ name :: w :: ws).map .word ++ redirectTokens,
      args ++ name :: w :: ws, hsetting, htokens.trans ?_, ?_, ?_⟩
    · simp
    · have hredirect : simple? redirectTokens = some [] := by decide
      rw [simple?_words, hredirect]
      simp
    · exact List.mem_append_right _ List.mem_cons_self

end shell

/-! ## The words of the two commands -/

/-- A byte of the words that the source writes without quotes. -/
def IsSafe (b : UInt8) : Prop := IsOrdinary b ∧ b ≠ 35 ∧ b ≠ 126 ∧ b < 0x7f

instance (b : UInt8) : Decidable (IsSafe b) := inferInstanceAs (Decidable (_ ∧ _))

/-- The text is one word of single-byte characters. -/
structure IsArgument (r : List UInt8) : Prop where
  word : WordText r
  harmless : Harmless r
  single : SingleBytes r

/-- A name that is put in quotes: of a block device or a container. -/
structure PlainName (name : Str) : Prop where
  single : SingleBytes name.m_buffer
  harmless : Harmless name.m_buffer
  quoteFree : quote ∉ name.m_buffer

/-- Digits mean nothing to the shell. -/
theorem isSafe_of_mem_decimal {n : Nat} {b : UInt8} (hb : b ∈ decimal n) : IsSafe b := by
  have hdigits : ∀ k ∈ List.range' 48 10, IsSafe (UInt8.ofNat k) := by decide
  obtain ⟨hlow, hhigh⟩ := digit_of_mem_decimal hb
  have hsafe := hdigits b.toNat (List.mem_range'_1.mpr ⟨hlow, by omega⟩)
  rwa [UInt8.ofNat_toNat] at hsafe

/-- An option that the source writes, with a text of safe bytes behind it. -/
theorem isArgument_of_isSafe {r : List UInt8} (hne : r ≠ []) (hr : ∀ b ∈ r, IsSafe b) :
    IsArgument r := by
  refine ⟨?_, fun b hb => ?_, fun b hb => (hr b hb).2.2.2⟩
  · obtain ⟨b, u, rfl⟩ := List.exists_cons_of_ne_nil hne
    exact .ordinary ⟨(hr b List.mem_cons_self).2.1, (hr b List.mem_cons_self).2.2.1⟩ fun c hc =>
      (hr c hc).1
  · obtain ⟨⟨-, hoperator, hbackslash, -, hdouble, -⟩, hcomment, -, -⟩ := hr b hb
    refine ⟨hbackslash, hdouble, hcomment, ?_⟩
    rintro rfl
    exact hoperator (by decide)

/-- An option of safe bytes is one argument. -/
theorem isArgument_option {option : List UInt8} (hoption : option ≠ [] ∧ ∀ b ∈ option, IsSafe b)
    {value : List UInt8} (hvalue : ∀ b ∈ value, IsSafe b) : IsArgument (option ++ value) :=
  isArgument_of_isSafe (List.append_ne_nil_of_left_ne_nil hoption.1 _)
    (List.forall_mem_append.mpr ⟨hoption.2, hvalue⟩)

/-- A path in quotes. -/
theorem isArgument_quoted {directory : List UInt8}
    (hdirectory : SingleBytes directory ∧ Harmless directory ∧ quote ∉ directory) {name : Str}
    (hname : PlainName name) :
    IsArgument (quote :: ((directory ++ name.m_buffer) ++ [quote])) := by
  obtain ⟨hsingle, hharmless, hquote⟩ := hdirectory
  refine ⟨.quoted ?_, fun b hb => ?_, fun b hb => ?_⟩
  · exact fun hmem => (List.mem_append.mp hmem).elim hquote hname.quoteFree
  · rcases List.mem_cons.mp hb with rfl | hb
    · decide
    · rcases List.mem_append.mp hb with hb | hb
      · exact (List.mem_append.mp hb).elim (hharmless b) (hname.harmless b)
      · rw [List.mem_singleton.mp hb]
        decide
  · rcases List.mem_cons.mp hb with rfl | hb
    · decide
    · rcases List.mem_append.mp hb with hb | hb
      · exact (List.mem_append.mp hb).elim (hsingle b) (hname.single b)
      · rw [List.mem_singleton.mp hb]
        decide

/-- The text of a number is its numeral. -/
theorem buffer_ofNat (n : Nat) : (Str.ofNat n).m_buffer = decimal n :=
  Str.ofBytes_buffer (singleBytes_decimal n).wellFormed

/-- An option that may be left out, with the blank in front of it. -/
def OptionText (s : Str) : Prop := ∃ words, s.m_buffer = line words ∧ ∀ r ∈ words, IsArgument r

/-- A line of arguments is a single-byte text. -/
theorem SingleBytes.line {words : List (List UInt8)} (h : ∀ r ∈ words, IsArgument r) :
    SingleBytes (line words) := by
  intro b hb
  obtain ⟨r, hr, hb⟩ := List.mem_flatMap.mp hb
  rcases List.mem_cons.mp hb with rfl | hb
  · decide
  · exact (h r hr).single b hb

/-- The paths of disks, each in quotes. -/
def devicePaths (disks : List Str) : List (List UInt8) :=
  disks.map fun disk => quote :: ((lit "/dev/" ++ disk.m_buffer) ++ [quote])

/-- The paths of plain device names are arguments. -/
theorem isArgument_devicePaths {disks : List Str} (h : ∀ d ∈ disks, PlainName d) :
    ∀ r ∈ devicePaths disks, IsArgument r := by
  intro r hr
  obtain ⟨d, hd, rfl⟩ := List.mem_map.mp hr
  exact isArgument_quoted (by decide) (h d hd)

/-- The devices of a command are rendered as a line of their paths. -/
theorem concat_quotedDevice {disks : List Str} (h : ∀ d ∈ disks, PlainName d) :
    (Command.concat (disks.map Command.quotedDevice)).m_buffer = line (devicePaths disks) := by
  have hone : ∀ d ∈ disks, (Command.quotedDevice d).m_buffer =
      blank :: (quote :: ((lit "/dev/" ++ d.m_buffer) ++ [quote])) := by
    intro d hd
    have hbytes : ∀ t ∈ [Str.ofLit " '/dev/", d, Str.ofLit "'"], SingleBytes t.m_buffer := by
      simp only [List.forall_mem_cons, List.not_mem_nil, false_implies, implies_true, and_true]
      exact ⟨(Str.counted_ofLit (by decide)).1, (h d hd).single, (Str.counted_ofLit (by decide)).1⟩
    rw [Command.quotedDevice, (Str.concat_counted hbytes).2]
    have hopen : (Str.ofLit " '/dev/").m_buffer = blank :: quote :: lit "/dev/" :=
      Str.buffer_ofLit (by decide)
    have hclose : (Str.ofLit "'").m_buffer = [quote] := Str.buffer_ofLit (by decide)
    simp [hopen, hclose]
  have hsingle : ∀ t ∈ disks.map Command.quotedDevice, SingleBytes t.m_buffer := by
    intro t ht
    obtain ⟨d, hd, rfl⟩ := List.mem_map.mp ht
    rw [hone d hd]
    have hdirectory : SingleBytes (lit "/dev/") ∧ Harmless (lit "/dev/") ∧ quote ∉ lit "/dev/" := by
      decide
    have hpath := (isArgument_quoted hdirectory (h d hd)).single
    exact List.forall_mem_cons.mpr ⟨by decide, hpath⟩
  rw [(Str.concat_counted hsingle).2]
  unfold line devicePaths
  rw [List.flatMap_map, List.flatMap_map]
  exact List.flatMap_congr fun d hd => hone d hd

/-- The redirection is put behind the command. -/
theorem buffer_shellOutputText {s : Str} (hs : s.Counted) :
    (shellOutputText s).m_buffer = s.m_buffer ++ lit " 2>&1 1>/dev/null" := by
  have hredirect : SingleBytes (lit " 2>&1 1>/dev/null") := by decide
  rw [shellOutputText, (hs.append (Str.counted_ofLit hredirect).1).2, Str.buffer_ofLit hredirect]

/-- The words behind the name where a volume is created. -/
theorem createVolume_text {name size chunk rwhPolicy : Str} {disks : List Str}
    (hname : SingleBytes name.m_buffer) (hsize : ∀ b ∈ size.m_buffer, IsSafe b)
    (hchunk : OptionText chunk) (hpolicy : OptionText rwhPolicy) (hdisks : ∀ d ∈ disks, PlainName d)
    (level n : Nat) : ∃ words, (∀ r ∈ lit "-amd" :: words, IsArgument r) ∧
      (shellOutputText (Command.createVolume name level size chunk rwhPolicy n disks).render).m_buffer =
        lit "mdadm -CR '" ++
          (name.m_buffer ++ quote :: (line (lit "-amd" :: words) ++ lit " 2>&1 1>/dev/null")) := by
  obtain ⟨chunkWords, hchunk, hchunkWords⟩ := hchunk
  obtain ⟨policyWords, hpolicy, hpolicyWords⟩ := hpolicy
  have hpaths := isArgument_devicePaths hdisks
  have hlevel : IsArgument (lit "-l" ++ decimal level) :=
    isArgument_option (by decide +kernel) fun b hb => isSafe_of_mem_decimal hb
  have hn : IsArgument (lit "-n" ++ decimal n) :=
    isArgument_option (by decide +kernel) fun b hb => isSafe_of_mem_decimal hb
  have hsizeWord : IsArgument (lit "--size=" ++ size.m_buffer) := isArgument_option (by decide +kernel) hsize
  refine ⟨[lit "-l" ++ decimal level, lit "--size=" ++ size.m_buffer] ++ chunkWords ++ policyWords ++
    (lit "-n" ++ decimal n) :: devicePaths disks, ?_, ?_⟩
  · have hmode : IsArgument (lit "-amd") := isArgument_of_isSafe (by decide) (by decide +kernel)
    simp only [List.forall_mem_cons, List.forall_mem_append, List.not_mem_nil, false_implies,
      implies_true, and_true]
    exact ⟨hmode, ⟨⟨⟨hlevel, hsizeWord⟩, hchunkWords⟩, hpolicyWords⟩, hn, hpaths⟩
  · have hsingle : ∀ t ∈ [Str.ofLit "mdadm -CR '", name, .ofLit "' -amd -l", .ofNat level,
        .ofLit " --size=", size, chunk, rwhPolicy, .ofLit " -n", .ofNat n,
        Command.concat (disks.map Command.quotedDevice)], SingleBytes t.m_buffer := by
      simp only [List.forall_mem_cons, List.not_mem_nil, false_implies, implies_true, and_true,
        buffer_ofNat, concat_quotedDevice hdisks, hchunk, hpolicy]
      exact ⟨(Str.counted_ofLit (by decide)).1, hname, (Str.counted_ofLit (by decide)).1,
        singleBytes_decimal _, (Str.counted_ofLit (by decide)).1, fun b hb => (hsize b hb).2.2.2,
        .line hchunkWords, .line hpolicyWords, (Str.counted_ofLit (by decide)).1,
        singleBytes_decimal _, .line hpaths⟩
    obtain ⟨hcounted, hbuffer⟩ := Str.concat_counted hsingle
    have hamd : (Str.ofLit "' -amd -l").m_buffer = quote :: blank :: (lit "-amd" ++ blank :: lit "-l") :=
      Str.buffer_ofLit (by decide)
    have hsizeLit : (Str.ofLit " --size=").m_buffer = blank :: lit "--size=" :=
      Str.buffer_ofLit (by decide)
    have hnLit : (Str.ofLit " -n").m_buffer = blank :: lit "-n" := Str.buffer_ofLit (by decide)
    have hstart : (Str.ofLit "mdadm -CR '").m_buffer = lit "mdadm -CR '" :=
      Str.buffer_ofLit (by decide)
    rw [Command.render, buffer_shellOutputText hcounted, hbuffer]
    simp only [List.flatMap_cons, List.flatMap_nil, hamd, hsizeLit, hnLit, hstart, buffer_ofNat,
      hchunk, hpolicy, concat_quotedDevice hdisks, line_cons, line_append, List.append_assoc,
      List.cons_append, List.nil_append, List.append_nil]

/-- The text where a volume is renamed. -/
theorem updateName_text {newName name : Str} (hnew : SingleBytes newName.m_buffer)
    (hname : PlainName name) (ordinal : Nat) :
    (shellExText (Command.updateName ordinal newName name).render).m_buffer =
      lit "export MDADM_EXPERIMENTAL=1; mdadm --misc --update-subarray=" ++
        (decimal ordinal ++ lit " --update=name -N '") ++
        (newName.m_buffer ++ quote :: (line [quote :: ((lit "/dev/md/" ++ name.m_buffer) ++ [quote])] ++
          lit " 2>&1 1>/dev/null")) := by
  have hsingle : ∀ t ∈ [Str.ofLit "mdadm --misc --update-subarray=", .ofNat ordinal,
      .ofLit " --update=name -N '", newName, .ofLit "' '/dev/md/", name, .ofLit "'"],
      SingleBytes t.m_buffer := by
    simp only [List.forall_mem_cons, List.not_mem_nil, false_implies, implies_true, and_true,
      buffer_ofNat]
    exact ⟨(Str.counted_ofLit (by decide)).1, singleBytes_decimal _,
      (Str.counted_ofLit (by decide)).1, hnew, (Str.counted_ofLit (by decide)).1, hname.single,
      (Str.counted_ofLit (by decide)).1⟩
  obtain ⟨hcounted, hbuffer⟩ := Str.concat_counted hsingle
  have hsetting : (Str.ofLit "export MDADM_EXPERIMENTAL=1; ").Counted :=
    Str.counted_ofLit (by decide)
  obtain ⟨hboth, hbytes⟩ := hsetting.append hcounted.1
  have hopen : (Str.ofLit "' '/dev/md/").m_buffer = quote :: blank :: quote :: lit "/dev/md/" :=
    Str.buffer_ofLit (by decide)
  have hclose : (Str.ofLit "'").m_buffer = [quote] := Str.buffer_ofLit (by decide)
  have hoption : (Str.ofLit " --update=name -N '").m_buffer = lit " --update=name -N '" :=
    Str.buffer_ofLit (by decide)
  have hstart : lit "export MDADM_EXPERIMENTAL=1; mdadm --misc --update-subarray=" =
      (Str.ofLit "export MDADM_EXPERIMENTAL=1; ").m_buffer ++
        (Str.ofLit "mdadm --misc --update-subarray=").m_buffer := by
    rw [Str.buffer_ofLit (by decide), Str.buffer_ofLit (by decide)]
    decide
  rw [shellExText, Command.render, buffer_shellOutputText hboth, hbytes, hbuffer, hstart]
  simp only [List.flatMap_cons, List.flatMap_nil, hopen, hclose, hoption, buffer_ofNat,
    line_cons, line_nil, List.append_assoc, List.cons_append, List.nil_append, List.append_nil]

/-- The words in front of the new name. -/
theorem lex_updateName (ordinal : Nat) :
    Shell.lex .between (lit "export MDADM_EXPERIMENTAL=1; mdadm --misc --update-subarray=" ++
        (decimal ordinal ++ lit " --update=name -N '")) =
      some (exportSetting ++ (lit "mdadm" :: [lit "--misc", lit "--update-subarray=" ++ decimal ordinal,
        lit "--update=name", lit "-N"]).map .word, .single []) := by
  have hstart : Shell.lex .between
      (lit "export MDADM_EXPERIMENTAL=1; mdadm --misc --update-subarray=") =
      some (exportSetting ++ [.word (lit "mdadm"), .word (lit "--misc")],
        .word (lit "--update-subarray=") true) := by
    decide
  have hend : Shell.lex .between (lit "--update=name -N '") =
      some ([.word (lit "--update=name"), .word (lit "-N")], .single []) := by
    decide
  have hblank : ∀ w, Shell.lex (.word w true) (lit " --update=name -N '") =
      some ([.word w, .word (lit "--update=name"), .word (lit "-N")], .single []) := by
    intro w
    have htext : lit " --update=name -N '" = [blank] ++ lit "--update=name -N '" := by decide
    rw [htext, lex_append, show Shell.lex (.word w true) [blank] = some ([.word w], .between) from rfl,
      Option.bind_some, hend]
    rfl
  have hordinal := lex_ordinary (fun b hb => (isSafe_of_mem_decimal (n := ordinal) hb).1)
    (lit "--update-subarray=") true
  rw [lex_append, hstart, Option.bind_some, lex_append, hordinal, Option.bind_some, hblank]
  rfl

/-! ## The two commands -/

section commands

variable {v : Volume} {rwhPolicy : Str}

/-- Both forms of the policy option are option texts. -/
theorem optionText_policy (h : v.HasPolicyOption rwhPolicy) : OptionText rwhPolicy := by
  have hwritten : ∀ option word : String, (Str.ofLit option ++ Str.ofLit "ppl").m_buffer =
      line [lit word] → (lit word ≠ [] ∧ ∀ b ∈ lit word, IsSafe b) →
      OptionText (Str.ofLit option ++ Str.ofLit "ppl") := by
    intro option word hbuffer hword
    refine ⟨[lit word], hbuffer, ?_⟩
    simpa using isArgument_of_isSafe hword.1 hword.2
  have hnone : OptionText (.ofLit "") := ⟨[], by decide, by simp⟩
  unfold Volume.HasPolicyOption Volume.policyOption at h
  by_cases hpolicy : v.m_RwhPolicy = .distributed
  · simp only [hpolicy, if_true, rwhPolicyToString, newRwhPolicyToString, Except.map,
      Except.ok.injEq] at h
    rcases h with rfl | rfl
    · exact hwritten " --rwh-policy=" "--rwh-policy=ppl" (by decide) (by decide +kernel)
    · exact hwritten " --consistency-policy=" "--consistency-policy=ppl" (by decide +kernel)
        (by decide +kernel)
  · simp only [hpolicy, if_false, or_self, Except.ok.injEq] at h
    rwa [← h]

/-- The chunk option is an option text, or left out. -/
theorem optionText_chunk (level stripSize : UInt32) :
    OptionText (if level ≠ 1 then .ofLit " --chunk=" ++ Str.ofNat stripSize.toNat else .ofLit "") := by
  split
  next =>
    have hoption : (Str.ofLit " --chunk=").Counted := Str.counted_ofLit (by decide)
    have hnumber : SingleBytes (Str.ofNat stripSize.toNat).m_buffer := by
      rw [buffer_ofNat]
      exact singleBytes_decimal _
    have hblank : (Str.ofLit " --chunk=").m_buffer = blank :: lit "--chunk=" :=
      Str.buffer_ofLit (by decide)
    refine ⟨[lit "--chunk=" ++ decimal stripSize.toNat], ?_, ?_⟩
    · rw [(hoption.append hnumber).2, hblank, buffer_ofNat]
      simp
    · rw [List.forall_mem_singleton]
      exact isArgument_option (by decide +kernel) fun b hb => isSafe_of_mem_decimal hb
  next => exact ⟨[], by decide, by simp⟩

/-- The command of creation is read as one of mdadm, with the volume's name, where no quote is in
it. -/
theorem runsMdadm_createCommand (hname : SingleBytes v.m_Name.m_buffer)
    (hdisks : ∀ d ∈ v.m_BlockDevices, PlainName d.m_DevName) (hpolicy : v.HasPolicyOption rwhPolicy) :
    RunsMdadm v.m_Name.m_buffer (shellOutputText (v.createCommand rwhPolicy).render).m_buffer ↔
      quote ∉ v.m_Name.m_buffer := by
  have hsize : ∀ b ∈ (if v.m_ComponentSize = 0 then .ofLit "max"
      else Str.ofNat (v.m_ComponentSize / 1024).toNat).m_buffer, IsSafe b := by
    split
    next => decide +kernel
    next =>
      intro b hb
      rw [buffer_ofNat] at hb
      exact isSafe_of_mem_decimal hb
  have hnames : ∀ d ∈ v.m_BlockDevices.map (·.m_DevName), PlainName d := by
    simpa using hdisks
  obtain ⟨words, hwords, htext⟩ := createVolume_text hname hsize
    (optionText_chunk v.m_RaidLevel (v.m_StripSize / 1024)) (optionText_policy hpolicy) hnames
    v.m_RaidLevel.toNat v.m_BlockDevices.length
  have hbefore : Shell.lex .between (lit "mdadm -CR '") =
      some ([] ++ (lit "mdadm" :: [lit "-CR"]).map .word, .single []) := by
    decide
  unfold Volume.createCommand
  dsimp only
  rw [htext]
  exact runsMdadm_iff (.inl rfl) hbefore (by decide) fun r hr =>
    ⟨(hwords r hr).word, (hwords r hr).harmless⟩

/-- The update runs mdadm with the new name iff there is no quote in it. -/
theorem runsMdadm_updateName {newName name : Str} (hnew : SingleBytes newName.m_buffer)
    (hname : PlainName name) (ordinal : Nat) :
    RunsMdadm newName.m_buffer
        (shellExText (Command.updateName ordinal newName name).render).m_buffer ↔
      quote ∉ newName.m_buffer := by
  have hdirectory : SingleBytes (lit "/dev/md/") ∧ Harmless (lit "/dev/md/") ∧ quote ∉ lit "/dev/md/" := by
    decide
  have hpath := isArgument_quoted hdirectory hname
  have hordinal : quote ∉ lit "--update-subarray=" ++ decimal ordinal := by
    rw [List.mem_append, not_or]
    refine ⟨by decide, fun hmem => ?_⟩
    exact absurd (isSafe_of_mem_decimal hmem) (by decide)
  have hargs : ∀ w ∈ [lit "--misc", lit "--update-subarray=" ++ decimal ordinal,
      lit "--update=name", lit "-N"], quote ∉ w := by
    simp only [List.forall_mem_cons, List.not_mem_nil, false_implies, implies_true, and_true]
    exact ⟨by decide, hordinal, by decide, by decide⟩
  rw [updateName_text hnew hname]
  apply runsMdadm_iff (.inr rfl) (lex_updateName ordinal) hargs
  rw [List.forall_mem_singleton]
  exact ⟨hpath.word, hpath.harmless⟩

/-- A rename in the array issues the update and an inquiry. -/
theorem RaidArray.calls_renameVolume (a : RaidArray) (ordinal : UInt32) (newName : Str) :
    (a.renameVolume ordinal newName).Calls (OnShell fun cmd =>
      cmd = .updateName ordinal.toNat newName a.m_Name ∨ cmd = .examineBrief) := by
  refine Prog.calls_bind ?_ fun status _ => ?_
  · unfold updateName
    split
    next => exact Prog.calls_bind (show (Prog.tell _).Calls _ from trivial) fun _ _ => trivial
    next =>
      apply calls_shellEx_bind (.inl rfl)
      intro r
      split
      next => exact trivial
      next => exact trivial
  · unfold writeConfiguration
    rw [shellOutput_bind]
    refine ⟨.inr rfl, fun reply => ?_⟩
    dsimp only
    split
    next => exact trivial
    next =>
      rw [appendConfig_bind]
      refine ⟨trivial, fun thrown => ?_⟩
      dsimp only
      split
      next => exact trivial
      next => exact trivial

end commands

/-! ## Accepted names -/

/-- The shell gets the text with the name: where a volume of that name is created or, without a name,
has been given this one, and where the container renames a volume. The names of disks and containers,
which the system gives, are plain. -/
inductive GivesName : Str → Str → Prop
  | create {v v' : Volume} {name : Str} {rounds : Nat} {cmd : Command}
      (hname : v.setVolumeName name = .ok v') (hgiven : name.equal .empty = false)
      (hdisks : ∀ d ∈ v.m_BlockDevices, PlainName d.m_DevName)
      (hcmd : (v'.create rounds).MayCall (· = .shell cmd)) :
      GivesName name (shellOutputText cmd.render)
  | createUnnamed {v v' : Volume} {name found : Str} {rounds level n : Nat}
      {size chunk rwhPolicy : Str} {disks : List Str}
      (hname : v.setVolumeName name = .ok v') (hempty : name.equal .empty = true)
      (hdisks : ∀ d ∈ v.m_BlockDevices, PlainName d.m_DevName)
      (hcmd : (v'.create rounds).MayCall
        (· = .shell (.createVolume found level size chunk rwhPolicy n disks))) :
      GivesName found
        (shellOutputText (Command.createVolume found level size chunk rwhPolicy n disks).render)
  | rename {a : RaidArray} {ordinal : UInt32} {name : Str} {cmd : Command} (harray : PlainName a.m_Name)
      (hcmd : (a.renameVolume ordinal name).MayCall (· = .shell cmd)) (hupdate : cmd ≠ .examineBrief) :
      GivesName name (shellExText cmd.render)

section accepted

variable {name text : Str}

/-- Setting the name sets nothing else. -/
theorem eq_of_setVolumeName {v v' : Volume} (h : v.setVolumeName name = .ok v') :
    v' = { v with m_Name := name } := by
  unfold Volume.setVolumeName RaidDevice.setName at h
  split_ifs at h
  exact (Except.ok.inj h).symm

/-- Every command of a creation is a create command for the volume under the chosen name. -/
theorem exists_of_create {v : Volume} {rounds : Nat} {cmd : Command}
    (h : (v.create rounds).MayCall (· = .shell cmd)) : ∃ v' rwhPolicy, v.Named v' ∧
      v'.HasPolicyOption rwhPolicy ∧ cmd = v'.createCommand rwhPolicy := by
  have hcalls := v.calls_create_of (P := fun cmd => ∃ v' rwhPolicy, v.Named v' ∧
    v'.HasPolicyOption rwhPolicy ∧ cmd = v'.createCommand rwhPolicy) rounds
    fun v' hnamed _ rwhPolicy hpolicy => ⟨v', rwhPolicy, hnamed, hpolicy, rfl⟩
  obtain ⟨_, hissued, rfl⟩ := hcalls.exists_of_mayCall h
  exact hissued

/-- The quotes around a name of single-byte characters hold it together unless it has one itself. -/
theorem runsMdadm_iff_quoteFree (h : GivesName name text) (hsingle : SingleBytes name.m_buffer) :
    RunsMdadm name.m_buffer text.m_buffer ↔ quote ∉ name.m_buffer := by
  have hcommand : ∀ {v' : Volume} {rwhPolicy : Str}, v'.m_Name = name →
      (∀ d ∈ v'.m_BlockDevices, PlainName d.m_DevName) → v'.HasPolicyOption rwhPolicy →
      (RunsMdadm name.m_buffer (shellOutputText (v'.createCommand rwhPolicy).render).m_buffer ↔
        quote ∉ name.m_buffer) := by
    rintro v' rwhPolicy rfl hdisks hpolicy
    exact runsMdadm_createCommand hsingle hdisks hpolicy
  cases h with
  | @create v _ _ _ _ hname hgiven hdisks hcmd =>
      obtain rfl := eq_of_setVolumeName hname
      obtain ⟨v', rwhPolicy, hnamed, hpolicy, rfl⟩ := exists_of_create hcmd
      have heq : v' = { v with m_Name := name } := by
        unfold Volume.Named at hnamed
        rwa [if_neg (by simp [hgiven])] at hnamed
      exact hcommand (by rw [heq]) (by rw [heq]; exact hdisks) hpolicy
  | @createUnnamed v _ given _ _ _ _ _ _ _ _ hname hempty hdisks hcmd =>
      obtain rfl := eq_of_setVolumeName hname
      obtain ⟨v', rwhPolicy, hnamed, hpolicy, heq⟩ := exists_of_create hcmd
      have hmembers : v'.m_BlockDevices = v.m_BlockDevices := by
        unfold Volume.Named at hnamed
        rw [if_pos hempty] at hnamed
        obtain ⟨n, rfl⟩ := hnamed
        rfl
      have hfound : v'.m_Name = name := by
        injection heq with hfound
        exact hfound.symm
      rw [heq]
      exact hcommand hfound (by rw [hmembers]; exact hdisks) hpolicy
  | @rename a ordinal _ cmd harray hcmd hupdate =>
      obtain ⟨_, hissued, rfl⟩ := (a.calls_renameVolume ordinal name).exists_of_mayCall hcmd
      rcases hissued with rfl | rfl
      · exact runsMdadm_updateName hsingle harray _
      · exact absurd rfl hupdate

/-- The container issues the update of a name that it does not reject. -/
theorem mayCall_renameVolume (a : RaidArray) (ordinal : UInt32) (h : rejectsName name = false) :
    (a.renameVolume ordinal name).MayCall
      (· = .shell (.updateName ordinal.toNat name a.m_Name)) := by
  unfold RaidArray.renameVolume RaidArray.updateName
  rw [if_neg (by simp [h])]
  exact Prog.mayCall_bind.mpr (.inl (mayCall_shellEx_bind.mpr (.inl rfl)))

end accepted

/-- The shell takes the text for one command of mdadm with the name where the name consists of
single-byte characters other than a quote, and of the names of single-byte characters for no others.

A quote in the name ends the quotation. -/
theorem runsMdadm_of_givesName {name text : Str} (h : GivesName name text) :
    (SingleBytes name.m_buffer ∧ quote ∉ name.m_buffer → RunsMdadm name.m_buffer text.m_buffer) ∧
      (SingleBytes name.m_buffer → RunsMdadm name.m_buffer text.m_buffer → quote ∉ name.m_buffer) :=
  ⟨fun hname => (runsMdadm_iff_quoteFree h hname.1).mpr hname.2,
    fun hsingle => (runsMdadm_iff_quoteFree h hsingle).mp⟩

/-- An ordinary name is passed on as it is. -/
theorem runsMdadm_of_givesName_data :
    RunsMdadm (Str.ofLit "data").m_buffer (shellExText (Command.updateName 0 (.ofLit "data")
      sampleArray.m_Name).render).m_buffer :=
  (runsMdadm_of_givesName (.rename ⟨by decide, by decide, by decide⟩
    (mayCall_renameVolume sampleArray 0 (by decide +kernel)) nofun)).1 ⟨by decide, by decide⟩

/-- A name with a quote is accepted, and the shell runs a second command. -/
theorem not_runsMdadm_reboot : ∃ text, GivesName (.ofLit "x';reboot;'") text ∧
    ¬ RunsMdadm (Str.ofLit "x';reboot;'").m_buffer text.m_buffer ∧
    ∃ before behind, tokens text.m_buffer = some (before ++
      .operator (lit ";") :: .word (lit "reboot") :: .operator (lit ";") :: behind) := by
  have harray : PlainName sampleArray.m_Name := ⟨by decide, by decide, by decide⟩
  refine ⟨_, .rename harray (mayCall_renameVolume sampleArray 0 (by decide +kernel)) nofun,
    fun hruns => ?_, ?_⟩
  · exact (runsMdadm_updateName (by decide) harray 0).mp hruns (by decide)
  · exact ⟨exportSetting ++ [.word (lit "mdadm"), .word (lit "--misc"),
      .word (lit "--update-subarray=0"), .word (lit "--update=name"), .word (lit "-N"), .word (lit "x")],
      .word [] :: .word (lit "/dev/md/" ++ sampleArray.m_Name.m_buffer) :: redirectTokens,
      by decide +kernel⟩

end Irstessi
