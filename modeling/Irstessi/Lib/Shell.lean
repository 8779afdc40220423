import Mathlib.Algebra.Group.Nat.Even
import Mathlib.Data.List.Basic

/-!
# Tokens of the POSIX shell

How a command line is cut into words and operators, byte by byte. Words are those that stand for
themselves: where a parameter, a command or a file name would be expanded there is no token list.

* `step`, `lex`, `tokens`: the recogniser; `simple?`: the arguments of a simple command with its
  redirections left out.
* `lex_append`, `lex_single`, `lex_ordinary`: texts put together, and the pieces they are made of.
* `lex_length`: no word is longer than the text it is made of.
* `lex_quoteFree`: without escapes no word has a quote in it.
* `lex_parity`: each quote begins or ends a quotation.
* **`tokens_quoted`**: a text without quotes, put in quotes, is one word.
* **`not_mem_tokens_quoted`**: a text with a quote in it is none.
-/

namespace Shell

/-! ## The recogniser -/

inductive Token
  | word (w : List UInt8)
  /-- The number of the file that a redirection is for. -/
  | number (w : List UInt8)
  | operator (op : List UInt8)
  deriving DecidableEq, Repr

/-- `'` -/
abbrev quote : UInt8 := 39

/-- `"` -/
abbrev doubleQuote : UInt8 := 34

/-- `\` -/
abbrev backslash : UInt8 := 92

abbrev blank : UInt8 := 32

abbrev newline : UInt8 := 10

def IsBlank (b : UInt8) : Prop := b = blank ∨ b = 9

instance (b : UInt8) : Decidable (IsBlank b) := inferInstanceAs (Decidable (_ ∨ _))

/-- The operators, prefixes of them included, which all are operators. -/
def operators : List (List UInt8) :=
  [[10], [38], [40], [41], [59], [60], [62], [124], [38, 38], [124, 124], [59, 59], [60, 60],
    [62, 62], [60, 38], [62, 38], [60, 62], [62, 124], [60, 60, 45]]

/-- `$` and the back quote. -/
def Substitutes (b : UInt8) : Prop := b = 36 ∨ b = 96

instance (b : UInt8) : Decidable (Substitutes b) := inferInstanceAs (Decidable (_ ∨ _))

/-- `*`, `?`, `[`. -/
def IsPattern (b : UInt8) : Prop := b = 42 ∨ b = 63 ∨ b = 91

instance (b : UInt8) : Decidable (IsPattern b) := inferInstanceAs (Decidable (_ ∨ _))

def isDigit (b : UInt8) : Bool := 48 ≤ b && b ≤ 57

/-- Where the recogniser stands. A word that has begun is kept, with whether nothing in it has been
quoted. -/
inductive State
  | between
  | comment
  | operator (op : List UInt8)
  | word (w : List UInt8) (bare : Bool)
  /-- After a backslash, in a word or before one. -/
  | escaped (before : Option (List UInt8 × Bool))
  | single (w : List UInt8)
  | double (w : List UInt8)
  | doubleEscaped (w : List UInt8)
  deriving DecidableEq, Repr

/-- A byte of a word, outside of quotations. -/
def inWord (w : List UInt8) (bare : Bool) (b : UInt8) : Option State :=
  if b = quote then some (.single w)
  else if b = doubleQuote then some (.double w)
  else if Substitutes b ∨ IsPattern b then none
  else some (.word (w ++ [b]) bare)

/-- A byte where no word has begun. -/
def fresh (b : UInt8) : Option State :=
  if IsBlank b then some .between
  else if [b] ∈ operators then some (.operator [b])
  else if b = 35 then some .comment
  else if b = 126 then none
  else if b = backslash then some (.escaped none)
  else inWord [] true b

/-- A word that is ended by the byte. -/
def ended (w : List UInt8) (bare : Bool) (b : UInt8) : Token :=
  if bare = true ∧ w.all isDigit = true ∧ (b = 60 ∨ b = 62) then .number w else .word w

/-- One byte: the tokens that it ends, and the next state. -/
def step : State → UInt8 → Option (List Token × State)
  | .between, b => (fresh b).map ([], ·)
  | .comment, b => if b = newline then (fresh b).map ([], ·) else some ([], .comment)
  | .operator op, b =>
      if op ++ [b] ∈ operators then some ([], .operator (op ++ [b]))
      else (fresh b).map ([.operator op], ·)
  | .word w bare, b =>
      if IsBlank b then some ([.word w], .between)
      else if [b] ∈ operators then some ([ended w bare b], .operator [b])
      else if b = backslash then some ([], .escaped (some (w, bare)))
      else (inWord w bare b).map ([], ·)
  | .escaped before, b =>
      if b = newline then
        match before with
        | none => some ([], .between)
        | some (w, bare) => some ([], .word w bare)
      else some ([], .word ((before.map Prod.fst).getD [] ++ [b]) false)
  | .single w, b => if b = quote then some ([], .word w false) else some ([], .single (w ++ [b]))
  | .double w, b =>
      if b = doubleQuote then some ([], .word w false)
      else if Substitutes b then none
      else if b = backslash then some ([], .doubleEscaped w)
      else some ([], .double (w ++ [b]))
  | .doubleEscaped w, b =>
      if b = newline then some ([], .double w)
      else if Substitutes b ∨ b = doubleQuote ∨ b = backslash then some ([], .double (w ++ [b]))
      else some ([], .double (w ++ [backslash, b]))

/-- The tokens of a text, and the state at its end. -/
def lex : State → List UInt8 → Option (List Token × State)
  | st, [] => some ([], st)
  | st, b :: text =>
      (step st b).bind fun x => (lex x.2 text).map fun y => (x.1 ++ y.1, y.2)

/-- The tokens that the end of the text ends; it may not come in a quotation. -/
def finish : State → Option (List Token)
  | .between => some []
  | .comment => some []
  | .operator op => some [.operator op]
  | .word w _ => some [.word w]
  | _ => none

/-- The tokens of the rest of a text. -/
def tokensFrom (st : State) (text : List UInt8) : Option (List Token) :=
  (lex st text).bind fun x => (finish x.2).map (x.1 ++ ·)

/-- The tokens of a whole text. -/
def tokens (text : List UInt8) : Option (List Token) := tokensFrom .between text

/-- `<`, `>`, `>>`, `<&`, `>&`, `<>`, `>|`. -/
def redirections : List (List UInt8) := [[60], [62], [62, 62], [60, 38], [62, 38], [60, 62], [62, 124]]

/-- The words of a simple command, its name first. Redirections are left out; with another operator
the tokens are no simple command. -/
def simple? : List Token → Option (List (List UInt8))
  | [] => some []
  | .word w :: ts => (simple? ts).map (w :: ·)
  | .number _ :: .operator op :: .word _ :: ts => if op ∈ redirections then simple? ts else none
  | .operator op :: .word _ :: ts => if op ∈ redirections then simple? ts else none
  | _ => none

/-! ## Texts put together -/

/-- A text is read in two parts, the second from the state that the first has left. -/
theorem lex_append (st : State) (u v : List UInt8) :
    lex st (u ++ v) = (lex st u).bind fun x => (lex x.2 v).map fun y => (x.1 ++ y.1, y.2) := by
  induction u generalizing st with
  | nil => simp [lex]
  | cons b u ih =>
      rw [List.cons_append, lex, lex]
      rcases step st b with _ | ⟨ts, st'⟩
      · rfl
      · simp only [Option.bind_some, ih]
        rcases lex st' u with _ | ⟨ts', st''⟩
        · rfl
        · simp [Option.map_map, Function.comp_def]

/-- So are its tokens, where the first part can be read. -/
theorem tokensFrom_append {st st' : State} {u v : List UInt8} {ts : List Token}
    (h : lex st u = some (ts, st')) :
    tokensFrom st (u ++ v) = (tokensFrom st' v).map (ts ++ ·) := by
  rw [tokensFrom, tokensFrom, lex_append, h, Option.bind_some]
  rcases lex st' v with _ | ⟨ts', st''⟩
  · rfl
  · simp [Option.map_map, Function.comp_def]

/-- In quotes all other bytes stand for themselves. -/
theorem lex_single {u : List UInt8} (hu : quote ∉ u) (w : List UInt8) :
    lex (.single w) u = some ([], .single (w ++ u)) := by
  induction u generalizing w with
  | nil => simp [lex]
  | cons b u ih =>
      rw [List.mem_cons, not_or] at hu
      rw [lex, step, if_neg (Ne.symm hu.1), Option.bind_some, ih hu.2]
      simp

/-- A byte that is part of a word wherever it stands in one. -/
def IsOrdinary (b : UInt8) : Prop :=
  ¬ IsBlank b ∧ [b] ∉ operators ∧ b ≠ backslash ∧ b ≠ quote ∧ b ≠ doubleQuote ∧
    ¬ (Substitutes b ∨ IsPattern b)

instance (b : UInt8) : Decidable (IsOrdinary b) := inferInstanceAs (Decidable (_ ∧ _))

/-- Ordinary bytes go on with the word that has been begun. -/
theorem lex_ordinary {u : List UInt8} (hu : ∀ b ∈ u, IsOrdinary b) (w : List UInt8) (bare : Bool) :
    lex (.word w bare) u = some ([], .word (w ++ u) bare) := by
  induction u generalizing w with
  | nil => simp [lex]
  | cons b u ih =>
      rw [List.forall_mem_cons] at hu
      obtain ⟨⟨hblank, hoperator, hbackslash, hquote, hdouble, hexpands⟩, hu⟩ := hu
      have hstep : step (.word w bare) b = some ([], .word (w ++ [b]) bare) := by
        simp only [step, if_neg hblank, if_neg hoperator, if_neg hbackslash, inWord, if_neg hquote,
          if_neg hdouble, if_neg hexpands, Option.map_some]
      rw [lex, hstep, Option.bind_some, ih hu]
      simp

/-- A comment goes on to the end of its line. -/
theorem lex_comment {u : List UInt8} (hu : newline ∉ u) : lex .comment u = some ([], .comment) := by
  induction u with
  | nil => rfl
  | cons b u ih =>
      rw [List.mem_cons, not_or] at hu
      rw [lex, step, if_neg (Ne.symm hu.1), Option.bind_some, ih hu.2]
      rfl

/-! ## What each byte does to the words -/

namespace State

/-- The length of the word that has begun, a backslash included. -/
def length : State → Nat
  | between => 0
  | comment => 0
  | operator _ => 0
  | word w _ => w.length
  | escaped none => 1
  | escaped (some (w, _)) => w.length + 1
  | single w => w.length
  | double w => w.length
  | doubleEscaped w => w.length + 1

/-- There is no escape, no double quote, and no quote in the word that has begun. -/
def QuoteFree : State → Prop
  | between => True
  | comment => True
  | operator _ => True
  | word w _ => quote ∉ w
  | single w => quote ∉ w
  | _ => False

/-- In a quotation with double quotes. -/
def InDouble : State → Prop
  | double _ => True
  | doubleEscaped _ => True
  | _ => False

/-- Between words, in one, or in a quotation with quotes. -/
def Plain : State → Prop
  | between => True
  | operator _ => True
  | word _ _ => True
  | single _ => True
  | _ => False

def inSingle : State → Bool
  | single _ => true
  | _ => false

end State

section steps

variable {st st' : State} {b : UInt8} {w : List UInt8} {bare : Bool} {ts ts' : List Token}

/-- Within a word a byte begins a quotation of one of the two kinds, or goes on with the word. -/
theorem inWord_cases (h : inWord w bare b = some st) : (b = quote ∧ st = .single w) ∨
    (b = doubleQuote ∧ st = .double w) ∨ (b ≠ quote ∧ b ≠ doubleQuote ∧ st = .word (w ++ [b]) bare) := by
  unfold inWord at h
  split_ifs at h with hquote hdouble
  · exact .inl ⟨hquote, (Option.some.inj h).symm⟩
  · exact .inr (.inl ⟨hdouble, (Option.some.inj h).symm⟩)
  · exact .inr (.inr ⟨hquote, hdouble, (Option.some.inj h).symm⟩)

/-- Where no word has been begun, a byte is a separator, the beginning of an operator or of a comment,
an escape, or begins a word. -/
theorem fresh_cases (h : fresh b = some st) : (b ≠ quote ∧ (st = .between ∨ st = .operator [b])) ∨
    (b = 35 ∧ st = .comment) ∨ (b = backslash ∧ st = .escaped none) ∨ inWord [] true b = some st := by
  unfold fresh at h
  split_ifs at h with hblank hoperator hcomment _ hbackslash
  · refine .inl ⟨?_, .inl (Option.some.inj h).symm⟩
    rintro rfl
    exact absurd hblank (by decide)
  · refine .inl ⟨?_, .inr (Option.some.inj h).symm⟩
    rintro rfl
    exact absurd hoperator (by decide)
  · exact .inr (.inl ⟨hcomment, (Option.some.inj h).symm⟩)
  · exact .inr (.inr (.inl ⟨hbackslash, (Option.some.inj h).symm⟩))
  · exact .inr (.inr (.inr h))

/-- A byte after a word has begun without quotation. -/
theorem step_word_cases (h : step (.word w bare) b = some (ts, st')) :
    (b ≠ quote ∧ (∀ w', .word w' ∈ ts → w' = w) ∧ (st' = .between ∨ st' = .operator [b])) ∨
      (b = backslash ∧ ts = [] ∧ st' = .escaped (some (w, bare))) ∨
      (ts = [] ∧ inWord w bare b = some st') := by
  rw [step] at h
  split_ifs at h with hblank hoperator hbackslash
  · obtain ⟨rfl, rfl⟩ := Prod.mk.inj (Option.some.inj h)
    refine .inl ⟨?_, by simp, .inl rfl⟩
    rintro rfl
    exact absurd hblank (by decide)
  · obtain ⟨rfl, rfl⟩ := Prod.mk.inj (Option.some.inj h)
    refine .inl ⟨?_, fun w' hw' => ?_, .inr rfl⟩
    · rintro rfl
      exact absurd hoperator (by decide)
    · unfold ended at hw'
      split_ifs at hw'
      · simp at hw'
      · simpa using hw'
  · obtain ⟨rfl, rfl⟩ := Prod.mk.inj (Option.some.inj h)
    exact .inr (.inl ⟨hbackslash, rfl, rfl⟩)
  · obtain ⟨st'', hword, heq⟩ := Option.map_eq_some_iff.mp h
    obtain ⟨rfl, rfl⟩ := Prod.mk.inj heq
    exact .inr (.inr ⟨rfl, hword⟩)

/-- An operator goes on, or ends and the byte is read afresh. -/
theorem step_operator_cases {op : List UInt8} (h : step (.operator op) b = some (ts, st')) :
    (b ≠ quote ∧ ts = [] ∧ st' = .operator (op ++ [b])) ∨
      (ts = [.operator op] ∧ fresh b = some st') := by
  rw [step] at h
  split_ifs at h with hoperator
  · obtain ⟨rfl, rfl⟩ := Prod.mk.inj (Option.some.inj h)
    refine .inl ⟨?_, rfl, rfl⟩
    rintro rfl
    have hnone : ∀ op' ∈ operators, op'.getLast? ≠ some quote := by decide
    exact hnone _ hoperator (by simp)
  · obtain ⟨st'', hfresh, heq⟩ := Option.map_eq_some_iff.mp h
    obtain ⟨rfl, rfl⟩ := Prod.mk.inj heq
    exact .inr ⟨rfl, hfresh⟩

/-- A byte makes the word that is being read longer by one at most. -/
theorem length_of_inWord (h : inWord w bare b = some st) : st.length ≤ w.length + 1 := by
  rcases inWord_cases h with ⟨-, rfl⟩ | ⟨-, rfl⟩ | ⟨-, -, rfl⟩ <;> simp [State.length]

/-- A word that has just been begun has one byte at most. -/
theorem length_of_fresh (h : fresh b = some st) : st.length ≤ 1 := by
  rcases fresh_cases h with ⟨-, rfl | rfl⟩ | ⟨-, rfl⟩ | ⟨-, rfl⟩ | h
  · exact Nat.zero_le 1
  · exact Nat.zero_le 1
  · exact Nat.zero_le 1
  · exact le_refl 1
  · exact length_of_inWord h

/-- A byte makes a word longer by one byte at most. -/
theorem step_length (h : step st b = some (ts, st')) :
    (∀ w, .word w ∈ ts → w.length ≤ st.length) ∧ st'.length ≤ st.length + 1 := by
  cases st with
  | between =>
      obtain ⟨st'', hfresh, heq⟩ := Option.map_eq_some_iff.mp h
      obtain ⟨rfl, rfl⟩ := Prod.mk.inj heq
      exact ⟨by simp, length_of_fresh hfresh⟩
  | comment =>
      rw [step] at h
      split_ifs at h
      · obtain ⟨st'', hfresh, heq⟩ := Option.map_eq_some_iff.mp h
        obtain ⟨rfl, rfl⟩ := Prod.mk.inj heq
        exact ⟨by simp, length_of_fresh hfresh⟩
      · obtain ⟨rfl, rfl⟩ := Prod.mk.inj (Option.some.inj h)
        exact ⟨by simp, Nat.zero_le 1⟩
  | operator op =>
      rcases step_operator_cases h with ⟨-, rfl, rfl⟩ | ⟨rfl, hfresh⟩
      · exact ⟨by simp, Nat.zero_le 1⟩
      · exact ⟨by simp, length_of_fresh hfresh⟩
  | word w bare =>
      rcases step_word_cases h with ⟨-, hword, hst⟩ | ⟨-, rfl, rfl⟩ | ⟨rfl, hinWord⟩
      · refine ⟨fun w' hw' => (hword w' hw') ▸ le_refl _, ?_⟩
        rcases hst with rfl | rfl <;> exact Nat.zero_le _
      · exact ⟨by simp, le_refl _⟩
      · exact ⟨by simp, length_of_inWord hinWord⟩
  | escaped before =>
      rcases before with _ | ⟨w, bare⟩
      · rw [step] at h
        split_ifs at h
        all_goals
          obtain ⟨rfl, rfl⟩ := Prod.mk.inj (Option.some.inj h)
          exact ⟨by simp, by simp [State.length]⟩
      · rw [step] at h
        split_ifs at h
        · obtain ⟨rfl, rfl⟩ := Prod.mk.inj (Option.some.inj h)
          exact ⟨by simp, Nat.le_add_right w.length 2⟩
        · obtain ⟨rfl, rfl⟩ := Prod.mk.inj (Option.some.inj h)
          exact ⟨by simp, by simp [State.length]⟩
  | single w =>
      rw [step] at h
      split_ifs at h
      all_goals
        obtain ⟨rfl, rfl⟩ := Prod.mk.inj (Option.some.inj h)
        exact ⟨by simp, by simp [State.length]⟩
  | double w =>
      rw [step] at h
      split_ifs at h
      all_goals
        obtain ⟨rfl, rfl⟩ := Prod.mk.inj (Option.some.inj h)
        exact ⟨by simp, by simp [State.length]⟩
  | doubleEscaped w =>
      rw [step] at h
      split_ifs at h
      all_goals
        obtain ⟨rfl, rfl⟩ := Prod.mk.inj (Option.some.inj h)
        refine ⟨by simp, ?_⟩
        simp only [State.length, List.length_append, List.length_cons, List.length_nil]
        omega

/-- Without escapes and double quotes no word gets a quote. -/
theorem step_quoteFree (hbackslash : b ≠ backslash) (hdouble : b ≠ doubleQuote) (hst : st.QuoteFree)
    (h : step st b = some (ts, st')) :
    (∀ w, .word w ∈ ts → quote ∉ w) ∧ st'.QuoteFree := by
  have hword : ∀ {w bare st'}, quote ∉ w → inWord w bare b = some st' → st'.QuoteFree := by
    intro w bare st' hw h
    rcases inWord_cases h with ⟨-, rfl⟩ | ⟨rfl, -⟩ | ⟨hquote, -, rfl⟩
    · exact hw
    · exact absurd rfl hdouble
    · simp only [State.QuoteFree, List.mem_append, List.mem_singleton, not_or]
      exact ⟨hw, Ne.symm hquote⟩
  have hfresh : ∀ {st'}, fresh b = some st' → st'.QuoteFree := by
    intro st' h
    rcases fresh_cases h with ⟨-, rfl | rfl⟩ | ⟨-, rfl⟩ | ⟨rfl, -⟩ | h
    · exact trivial
    · exact trivial
    · exact trivial
    · exact absurd rfl hbackslash
    · exact hword (by simp) h
  cases st with
  | between =>
      obtain ⟨st'', hst', heq⟩ := Option.map_eq_some_iff.mp h
      obtain ⟨rfl, rfl⟩ := Prod.mk.inj heq
      exact ⟨by simp, hfresh hst'⟩
  | comment =>
      rw [step] at h
      split_ifs at h
      · obtain ⟨st'', hst', heq⟩ := Option.map_eq_some_iff.mp h
        obtain ⟨rfl, rfl⟩ := Prod.mk.inj heq
        exact ⟨by simp, hfresh hst'⟩
      · obtain ⟨rfl, rfl⟩ := Prod.mk.inj (Option.some.inj h)
        exact ⟨by simp, trivial⟩
  | operator op =>
      rcases step_operator_cases h with ⟨-, rfl, rfl⟩ | ⟨rfl, hst'⟩
      · exact ⟨by simp, trivial⟩
      · exact ⟨by simp, hfresh hst'⟩
  | word w bare =>
      rcases step_word_cases h with ⟨-, hts, rfl | rfl⟩ | ⟨rfl, -, -⟩ | ⟨rfl, hinWord⟩
      · exact ⟨fun w' hw' => (hts w' hw') ▸ hst, trivial⟩
      · exact ⟨fun w' hw' => (hts w' hw') ▸ hst, trivial⟩
      · exact absurd rfl hbackslash
      · exact ⟨by simp, hword hst hinWord⟩
  | single w =>
      rw [step] at h
      split_ifs at h with hquote
      · obtain ⟨rfl, rfl⟩ := Prod.mk.inj (Option.some.inj h)
        exact ⟨by simp, hst⟩
      · obtain ⟨rfl, rfl⟩ := Prod.mk.inj (Option.some.inj h)
        refine ⟨by simp, ?_⟩
        simp only [State.QuoteFree, List.mem_append, List.mem_singleton, not_or]
        exact ⟨hst, Ne.symm hquote⟩
  | escaped before => exact hst.elim
  | double w => exact hst.elim
  | doubleEscaped w => exact hst.elim

/-- A quotation with double quotes goes on to the next one. -/
theorem step_inDouble (hdouble : b ≠ doubleQuote) (hst : st.InDouble)
    (h : step st b = some (ts, st')) : st'.InDouble := by
  cases st with
  | double w =>
      rw [step, if_neg hdouble] at h
      split_ifs at h
      all_goals
        obtain ⟨-, rfl⟩ := Prod.mk.inj (Option.some.inj h)
        exact trivial
  | doubleEscaped w =>
      rw [step] at h
      split_ifs at h
      all_goals
        obtain ⟨-, rfl⟩ := Prod.mk.inj (Option.some.inj h)
        exact trivial
  | _ => exact hst.elim

/-- Without escapes, double quotes and comments, each quote begins or ends a quotation. -/
theorem step_plain (hbackslash : b ≠ backslash) (hdouble : b ≠ doubleQuote) (hcomment : b ≠ 35)
    (hst : st.Plain) (h : step st b = some (ts, st')) :
    st'.Plain ∧ (st'.inSingle = true ↔ (b = quote ↔ st.inSingle = false)) := by
  have hword : ∀ {w bare st'}, inWord w bare b = some st' →
      st'.Plain ∧ (st'.inSingle = true ↔ b = quote) := by
    intro w bare st' h
    rcases inWord_cases h with ⟨rfl, rfl⟩ | ⟨rfl, -⟩ | ⟨hquote, -, rfl⟩
    · exact ⟨trivial, by simp [State.inSingle]⟩
    · exact absurd rfl hdouble
    · exact ⟨trivial, by simp [State.inSingle, hquote]⟩
  have hfresh : ∀ {st'}, fresh b = some st' → st'.Plain ∧ (st'.inSingle = true ↔ b = quote) := by
    intro st' h
    rcases fresh_cases h with ⟨hquote, rfl | rfl⟩ | ⟨rfl, -⟩ | ⟨rfl, -⟩ | h
    · exact ⟨trivial, by simp [State.inSingle, hquote]⟩
    · exact ⟨trivial, by simp [State.inSingle, hquote]⟩
    · exact absurd rfl hcomment
    · exact absurd rfl hbackslash
    · exact hword h
  cases st with
  | between =>
      obtain ⟨st'', hst', heq⟩ := Option.map_eq_some_iff.mp h
      obtain ⟨rfl, rfl⟩ := Prod.mk.inj heq
      simpa [State.inSingle] using hfresh hst'
  | operator op =>
      rcases step_operator_cases h with ⟨hquote, -, rfl⟩ | ⟨-, hst'⟩
      · exact ⟨trivial, by simp [State.inSingle, hquote]⟩
      · simpa [State.inSingle] using hfresh hst'
  | word w bare =>
      rcases step_word_cases h with ⟨hquote, -, rfl | rfl⟩ | ⟨rfl, -, -⟩ | ⟨-, hinWord⟩
      · exact ⟨trivial, by simp [State.inSingle, hquote]⟩
      · exact ⟨trivial, by simp [State.inSingle, hquote]⟩
      · exact absurd rfl hbackslash
      · simpa [State.inSingle] using hword hinWord
  | single w =>
      rw [step] at h
      split_ifs at h with hquote
      · obtain ⟨-, rfl⟩ := Prod.mk.inj (Option.some.inj h)
        exact ⟨trivial, by simp [State.inSingle, hquote]⟩
      · obtain ⟨-, rfl⟩ := Prod.mk.inj (Option.some.inj h)
        exact ⟨trivial, by simp [State.inSingle, hquote]⟩
  | comment => exact hst.elim
  | escaped before => exact hst.elim
  | double w => exact hst.elim
  | doubleEscaped w => exact hst.elim

end steps

/-! ## What a text does to the words -/

section texts

variable {st st' : State} {u : List UInt8} {ts : List Token}

/-- A text that can be read has its first byte read, and then the rest. -/
theorem lex_cons_cases {b : UInt8} (h : lex st (b :: u) = some (ts, st')) :
    ∃ ts₁ st₁ ts₂, step st b = some (ts₁, st₁) ∧ lex st₁ u = some (ts₂, st') ∧ ts = ts₁ ++ ts₂ := by
  rw [lex] at h
  obtain ⟨⟨ts₁, st₁⟩, hstep, h⟩ := Option.bind_eq_some_iff.mp h
  obtain ⟨⟨ts₂, st₂⟩, hrest, heq⟩ := Option.map_eq_some_iff.mp h
  obtain ⟨rfl, rfl⟩ := Prod.mk.inj heq
  exact ⟨ts₁, st₁, ts₂, hstep, hrest, rfl⟩

/-- No word is longer than the text that it is made of. -/
theorem lex_length (h : lex st u = some (ts, st')) :
    (∀ w, .word w ∈ ts → w.length ≤ st.length + u.length) ∧
      st'.length ≤ st.length + u.length := by
  induction u generalizing st ts with
  | nil =>
      obtain ⟨rfl, rfl⟩ := Prod.mk.inj (Option.some.inj h)
      exact ⟨by simp, le_refl _⟩
  | cons b u ih =>
      obtain ⟨ts₁, st₁, ts₂, hstep, hrest, rfl⟩ := lex_cons_cases h
      obtain ⟨hwords, hlength⟩ := step_length hstep
      obtain ⟨hwords', hlength'⟩ := ih hrest
      rw [List.length_cons]
      refine ⟨fun w hw => ?_, by omega⟩
      rcases List.mem_append.mp hw with hw | hw
      · have := hwords w hw
        omega
      · have := hwords' w hw
        omega

/-- Without escapes and double quotes, no word gets a single quote: it ends the quotation instead. -/
theorem lex_quoteFree (hu : ∀ b ∈ u, b ≠ backslash ∧ b ≠ doubleQuote) (hst : st.QuoteFree)
    (h : lex st u = some (ts, st')) : (∀ w, .word w ∈ ts → quote ∉ w) ∧ st'.QuoteFree := by
  induction u generalizing st ts with
  | nil =>
      obtain ⟨rfl, rfl⟩ := Prod.mk.inj (Option.some.inj h)
      exact ⟨by simp, hst⟩
  | cons b u ih =>
      obtain ⟨ts₁, st₁, ts₂, hstep, hrest, rfl⟩ := lex_cons_cases h
      obtain ⟨⟨hbackslash, hdouble⟩, hu⟩ := List.forall_mem_cons.mp hu
      obtain ⟨hwords, hst₁⟩ := step_quoteFree hbackslash hdouble hst hstep
      obtain ⟨hwords', hst'⟩ := ih hu hst₁ hrest
      refine ⟨fun w hw => ?_, hst'⟩
      exact (List.mem_append.mp hw).elim (hwords w) (hwords' w)

/-- A double quotation goes on until it is closed. -/
theorem lex_inDouble (hu : doubleQuote ∉ u) (hst : st.InDouble) (h : lex st u = some (ts, st')) :
    st'.InDouble := by
  induction u generalizing st ts with
  | nil =>
      obtain ⟨rfl, rfl⟩ := Prod.mk.inj (Option.some.inj h)
      exact hst
  | cons b u ih =>
      obtain ⟨ts₁, st₁, ts₂, hstep, hrest, rfl⟩ := lex_cons_cases h
      rw [List.mem_cons, not_or] at hu
      exact ih hu.2 (step_inDouble (Ne.symm hu.1) hst hstep) hrest

/-- The state after a text is in a quotation as the number of quotes says. -/
theorem lex_parity (hu : ∀ b ∈ u, b ≠ backslash ∧ b ≠ doubleQuote ∧ b ≠ 35) (hst : st.Plain)
    (h : lex st u = some (ts, st')) :
    st'.inSingle = true ↔ (st.inSingle = true ↔ Even (u.count quote)) := by
  induction u generalizing st ts with
  | nil =>
      obtain ⟨rfl, rfl⟩ := Prod.mk.inj (Option.some.inj h)
      simp
  | cons b u ih =>
      obtain ⟨ts₁, st₁, ts₂, hstep, hrest, rfl⟩ := lex_cons_cases h
      obtain ⟨⟨hbackslash, hdouble, hcomment⟩, hu⟩ := List.forall_mem_cons.mp hu
      obtain ⟨hst₁, hin⟩ := step_plain hbackslash hdouble hcomment hst hstep
      rw [ih hu hst₁ hrest, hin]
      by_cases hb : b = quote
      · subst hb
        rw [List.count_cons_self, Nat.even_add_one]
        cases st.inSingle <;> simp
      · rw [List.count_cons_of_ne hb]
        cases st.inSingle <;> simp [hb]

end texts

/-! ## A name in quotes -/

section name

variable {n before rest : List UInt8} {ts₀ ts : List Token}

/-- What comes behind the closing quote: a blank, and a text without escapes, double quotes, comments
and line ends, in which all quotations are closed. -/
structure Closes (rest : List UInt8) : Prop where
  bytes : ∀ b ∈ rest, b ≠ backslash ∧ b ≠ doubleQuote ∧ b ≠ 35 ∧ b ≠ newline
  closed : Even (rest.count quote)

/-- A quotation that is closed and followed by a blank is one word. -/
theorem tokensFrom_single (w rest : List UInt8) :
    tokensFrom (.single w) (quote :: blank :: rest) = (tokens rest).map (.word w :: ·) := by
  have hclose : lex (.single w) [quote, blank] = some ([.word w], .between) := rfl
  exact tokensFrom_append hclose

/-- The tokens of a text are those that are read and those that the end makes of what has been begun. -/
theorem tokensFrom_cases {st : State} {u : List UInt8} (h : tokensFrom st u = some ts) :
    ∃ ts₁ st₁ ts₂, lex st u = some (ts₁, st₁) ∧ finish st₁ = some ts₂ ∧ ts = ts₁ ++ ts₂ := by
  obtain ⟨⟨ts₁, st₁⟩, hlex, h⟩ := Option.bind_eq_some_iff.mp h
  obtain ⟨ts₂, hfinish, heq⟩ := Option.map_eq_some_iff.mp h
  exact ⟨ts₁, st₁, ts₂, hlex, hfinish, heq.symm⟩

/-- The end of the text puts no quote into a word. -/
theorem finish_quoteFree {st : State} (hst : st.QuoteFree) (h : finish st = some ts) :
    ∀ w, .word w ∈ ts → quote ∉ w := by
  intro w hw
  cases st with
  | word w' bare =>
      obtain rfl := Option.some.inj h
      obtain rfl := Token.word.inj (List.mem_singleton.mp hw)
      exact hst
  | operator op =>
      obtain rfl := Option.some.inj h
      cases List.mem_singleton.mp hw
  | between =>
      obtain rfl := Option.some.inj h
      simp at hw
  | comment =>
      obtain rfl := Option.some.inj h
      simp at hw
  | _ => cases h

/-- In a quotation a text has no end. -/
theorem finish_inSingle {st : State} (hst : st.inSingle = true) : finish st = none := by
  cases st <;> first | rfl | cases hst

/-- A double quotation that is not closed makes the text unreadable. -/
theorem finish_inDouble {st : State} (hst : st.InDouble) : finish st = none := by
  cases st <;> first | rfl | exact hst.elim

/-- A text without quotes, put in quotes, is one word. -/
theorem tokens_quoted (hbefore : lex .between before = some (ts₀, .single [])) (hn : quote ∉ n)
    (hrest : tokens rest = some ts) :
    tokens (before ++ (n ++ quote :: blank :: rest)) = some (ts₀ ++ .word n :: ts) := by
  rw [tokens, tokensFrom_append hbefore, tokensFrom_append (lex_single hn []), List.nil_append,
    tokensFrom_single, hrest]
  rfl

/-- Words without a quote come behind the closing quote. -/
theorem not_mem_tokens_of_quoteFree (hn : quote ∈ n) {st : State} (hst : st.QuoteFree)
    (hrest : ∀ b ∈ rest, b ≠ backslash ∧ b ≠ doubleQuote) (h : tokensFrom st rest = some ts) :
    .word n ∉ ts := by
  obtain ⟨ts₁, st₁, ts₂, hlex, hfinish, rfl⟩ := tokensFrom_cases h
  obtain ⟨hwords, hst₁⟩ := lex_quoteFree hrest hst hlex
  intro hmem
  rcases List.mem_append.mp hmem with hmem | hmem
  · exact hwords n hmem hn
  · exact finish_quoteFree hst₁ hfinish n hmem hn

/-- A word that has begun in front of the closing quote is too short, or the text has no end. -/
theorem not_mem_tokens_of_length (hn : quote ∈ n) {st : State} (hst : st.length < n.length)
    (hrest : Closes rest) (h : tokensFrom st (quote :: blank :: rest) = some ts) : .word n ∉ ts := by
  have hquoteFree : ∀ b ∈ rest, b ≠ backslash ∧ b ≠ doubleQuote := fun b hb =>
    ⟨(hrest.bytes b hb).1, (hrest.bytes b hb).2.1⟩
  have hbytes : ∀ b ∈ quote :: blank :: rest,
      b ≠ backslash ∧ b ≠ doubleQuote ∧ b ≠ 35 ∧ b ≠ newline := by
    rw [List.forall_mem_cons, List.forall_mem_cons]
    exact ⟨by decide, by decide, hrest.bytes⟩
  have hodd : ¬ Even ((quote :: blank :: rest).count quote) := by
    rw [List.count_cons_self, List.count_cons_of_ne (by decide), Nat.even_add_one, not_not]
    exact hrest.closed
  -- outside of a quotation the quote begins one, and the last quote another
  have hplain : st.Plain → st.inSingle = true := by
    intro hst
    obtain ⟨ts₁, st₁, ts₂, hlex, hfinish, rfl⟩ := tokensFrom_cases h
    have hparity := lex_parity (fun b hb => ⟨(hbytes b hb).1, (hbytes b hb).2.1,
      (hbytes b hb).2.2.1⟩) hst hlex
    by_contra hout
    rw [finish_inSingle (hparity.mpr (iff_of_false hout hodd))] at hfinish
    simp at hfinish
  have hdouble : ¬ st.InDouble := by
    intro hst
    obtain ⟨ts₁, st₁, ts₂, hlex, hfinish, rfl⟩ := tokensFrom_cases h
    have hmem : doubleQuote ∉ quote :: blank :: rest := fun hmem => (hbytes _ hmem).2.1 rfl
    rw [finish_inDouble (lex_inDouble hmem hst hlex)] at hfinish
    simp at hfinish
  -- a word that the blank ends
  have hended : ∀ {w : List UInt8}, w.length ≤ st.length →
      tokensFrom st (quote :: blank :: rest) = (tokens rest).map (.word w :: ·) → .word n ∉ ts := by
    intro w hw heq
    obtain ⟨ts', htokens, rfl⟩ := Option.map_eq_some_iff.mp (heq.symm.trans h)
    have hfresh : State.between.QuoteFree := trivial
    rw [List.mem_cons, not_or]
    refine ⟨fun heq => ?_, not_mem_tokens_of_quoteFree hn hfresh hquoteFree htokens⟩
    obtain rfl := Token.word.inj heq
    omega
  cases st with
  | between => exact nomatch hplain trivial
  | operator op => exact nomatch hplain trivial
  | word w bare => exact nomatch hplain trivial
  | double w => exact absurd trivial hdouble
  | doubleEscaped w => exact absurd trivial hdouble
  | single w => exact hended (le_refl _) (tokensFrom_single w rest)
  | escaped before =>
      have hstep : lex (.escaped before) [quote, blank] =
          some ([.word ((before.map Prod.fst).getD [] ++ [quote])], .between) := by
        rcases before with _ | ⟨w, bare⟩ <;> rfl
      refine hended ?_ (tokensFrom_append hstep)
      rcases before with _ | ⟨w, bare⟩ <;> simp [State.length]
  | comment =>
      have hcomment : lex .comment (quote :: blank :: rest) = some ([], .comment) :=
        lex_comment fun hmem => (hbytes _ hmem).2.2.2 rfl
      rw [tokensFrom, hcomment] at h
      obtain rfl := Option.some.inj h
      exact List.not_mem_nil

/-- A text with a quote in it is no word. -/
theorem not_mem_tokens_quoted (hbefore : lex .between before = some (ts₀, .single []))
    (hfirst : .word n ∉ ts₀) (hn : quote ∈ n) (hrest : Closes rest)
    (h : tokens (before ++ (n ++ quote :: blank :: rest)) = some ts) : .word n ∉ ts := by
  obtain ⟨front, back, hsplit, hfront⟩ := List.eq_append_cons_of_mem hn
  have hopen : lex (.single []) (front ++ [quote]) = some ([], .word front false) := by
    rw [lex_append, lex_single hfront]
    rfl
  have htext : before ++ (n ++ quote :: blank :: rest) =
      before ++ ((front ++ [quote]) ++ (back ++ quote :: blank :: rest)) := by
    rw [hsplit]
    simp
  rw [htext, tokens, tokensFrom_append hbefore, tokensFrom_append hopen] at h
  -- the rest of the name, in a word that has lost a quote
  have hlength : n.length = front.length + back.length + 1 := by
    rw [hsplit, List.length_append, List.length_cons]
    omega
  rcases hlex : lex (.word front false) back with _ | ⟨ts₁, st⟩
  · rw [tokensFrom, lex_append, hlex] at h
    simp at h
  · rw [tokensFrom_append hlex] at h
    simp only [Option.map_eq_some_iff] at h
    obtain ⟨_, ⟨_, ⟨ts₂, hrest', rfl⟩, rfl⟩, rfl⟩ := h
    obtain ⟨hwords, hst⟩ := lex_length hlex
    have hbegun : (State.word front false).length = front.length := rfl
    rw [hbegun] at hwords hst
    simp only [List.nil_append, List.mem_append, not_or]
    refine ⟨hfirst, fun hmem => ?_, not_mem_tokens_of_length hn (by omega) hrest hrest'⟩
    have := hwords n hmem
    omega

end name

/-! ## Words behind one another -/

/-- The words, each behind a blank. -/
def line (words : List (List UInt8)) : List UInt8 := words.flatMap (blank :: ·)

/-- No words are the empty text. -/
@[simp] theorem line_nil : line [] = [] := rfl

/-- Each word comes behind a blank. -/
@[simp] theorem line_cons (r : List UInt8) (rs : List (List UInt8)) :
    line (r :: rs) = blank :: (r ++ line rs) := rfl

/-- Two rows of words one behind the other. -/
@[simp] theorem line_append (rs rs' : List (List UInt8)) : line (rs ++ rs') = line rs ++ line rs' :=
  List.flatMap_append

/-- The text of one word: it needs no quotation, or it is in quotes. -/
inductive WordText : List UInt8 → Prop
  | ordinary {b : UInt8} {u : List UInt8} (hb : b ≠ 35 ∧ b ≠ 126) (hu : ∀ c ∈ b :: u, IsOrdinary c) :
      WordText (b :: u)
  | quoted {u : List UInt8} (hu : quote ∉ u) : WordText (quote :: (u ++ [quote]))

section words

variable {r tail : List UInt8} {rs : List (List UInt8)} {ts : List Token}

/-- The text of a word is read as a word that has been begun. -/
theorem WordText.lex (h : WordText r) :
    ∃ w bare, Shell.lex .between r = some ([], .word w bare) := by
  cases h with
  | @ordinary b u hb hu =>
      obtain ⟨⟨hblank, hoperator, hbackslash, hquote, hdouble, hexpands⟩, hu⟩ :=
        List.forall_mem_cons.mp hu
      have hfirst : step .between b = some ([], .word [b] true) := by
        simp only [step, fresh, if_neg hblank, if_neg hoperator, if_neg hb.1, if_neg hb.2,
          if_neg hbackslash, inWord, if_neg hquote, if_neg hdouble, if_neg hexpands, Option.map_some,
          List.nil_append]
      exact ⟨_, _, by rw [Shell.lex, hfirst, Option.bind_some, lex_ordinary hu]; rfl⟩
  | @quoted u hu =>
      have hopen : Shell.lex .between [quote] = some ([], .single []) := rfl
      have hquoted : Shell.lex .between (quote :: (u ++ [quote])) =
          Shell.lex .between ([quote] ++ (u ++ [quote])) := rfl
      refine ⟨u, false, ?_⟩
      rw [hquoted, lex_append, hopen, Option.bind_some, lex_append, lex_single hu]
      rfl

/-- Its quotes come in pairs. -/
theorem WordText.even_count (h : WordText r) : Even (r.count quote) := by
  cases h with
  | ordinary hb hu =>
      rw [List.count_eq_zero_of_not_mem fun hmem => (hu _ hmem).2.2.2.1 rfl]
      decide
  | quoted hu =>
      rw [List.count_cons_self, List.count_append, List.count_eq_zero_of_not_mem hu]
      decide

/-- Words, each behind a blank, behind another one. -/
theorem tokensFrom_line (hwords : ∀ r ∈ rs, WordText r)
    (htail : ∀ w bare, tokensFrom (.word w bare) tail = some (.word w :: ts)) (w : List UInt8)
    (bare : Bool) : ∃ ws : List (List UInt8),
      tokensFrom (.word w bare) (line rs ++ tail) = some (.word w :: (ws.map .word ++ ts)) := by
  induction rs generalizing w bare with
  | nil => exact ⟨[], htail w bare⟩
  | cons r rs ih =>
      obtain ⟨hr, hrs⟩ := List.forall_mem_cons.mp hwords
      obtain ⟨w', bare', hlex⟩ := hr.lex
      obtain ⟨ws, hws⟩ := ih hrs w' bare'
      have hblank : Shell.lex (.word w bare) [blank] = some ([.word w], .between) := rfl
      have htext : line (r :: rs) ++ tail = [blank] ++ (r ++ (line rs ++ tail)) := by simp
      refine ⟨w' :: ws, ?_⟩
      rw [htext, tokensFrom_append hblank, tokensFrom_append hlex, hws]
      rfl

/-- Words at the beginning are those of the command. -/
theorem simple?_words (ws : List (List UInt8)) (ts : List Token) :
    simple? (ws.map .word ++ ts) = (simple? ts).map (ws ++ ·) := by
  induction ws with
  | nil => simp
  | cons w ws ih =>
      rw [List.map_cons, List.cons_append, simple?, ih, Option.map_map]
      rfl

/-- The words of a command are among its tokens. -/
theorem mem_of_simple? {ts : List Token} {ws : List (List UInt8)} (h : simple? ts = some ws)
    {w : List UInt8} (hw : w ∈ ws) : .word w ∈ ts := by
  induction ts using simple?.induct generalizing ws with
  | case1 =>
      obtain rfl := Option.some.inj h
      simp at hw
  | case2 w' ts ih =>
      rw [simple?] at h
      obtain ⟨ws', hws', rfl⟩ := Option.map_eq_some_iff.mp h
      rcases List.mem_cons.mp hw with rfl | hw
      · exact List.mem_cons_self
      · exact List.mem_cons_of_mem _ (ih hws' hw)
  | case3 n op target ts hop ih =>
      rw [simple?, if_pos hop] at h
      exact List.mem_cons_of_mem _ (List.mem_cons_of_mem _ (List.mem_cons_of_mem _ (ih h hw)))
  | case4 n op target ts hop =>
      rw [simple?, if_neg hop] at h
      simp at h
  | case5 op target ts hop ih =>
      rw [simple?, if_pos hop] at h
      exact List.mem_cons_of_mem _ (List.mem_cons_of_mem _ (ih h hw))
  | case6 op target ts hop =>
      rw [simple?, if_neg hop] at h
      simp at h
  | case7 ts h1 h2 h3 h4 =>
      rw [simple?] at h
      · simp at h
      all_goals assumption

/-- The bytes of the text end no word and begin no comment, nor do they escape or quote one. -/
def Harmless (text : List UInt8) : Prop :=
  ∀ b ∈ text, b ≠ backslash ∧ b ≠ doubleQuote ∧ b ≠ 35 ∧ b ≠ newline

instance (text : List UInt8) : Decidable (Harmless text) := List.decidableBAll _ _

/-- A word in front of what closes a quotation closes it as well. -/
theorem WordText.closes (hr : WordText r) (hbytes : Harmless r) (h : Closes tail) :
    Closes (r ++ tail) := by
  refine ⟨fun b hb => ?_, ?_⟩
  · exact (List.mem_append.mp hb).elim (hbytes b) (h.bytes b)
  · rw [List.count_append]
    exact hr.even_count.add h.closed

/-- So does a row of words. -/
theorem closes_line (hwords : ∀ r ∈ rs, WordText r ∧ Harmless r) (h : Closes tail) :
    Closes (line rs ++ tail) := by
  induction rs with
  | nil => exact h
  | cons r rs ih =>
      obtain ⟨⟨hr, hbytes⟩, hrs⟩ := List.forall_mem_cons.mp hwords
      have hrest := hr.closes hbytes (ih hrs)
      rw [line_cons, List.cons_append, List.append_assoc]
      refine ⟨List.forall_mem_cons.mpr ⟨by decide, hrest.bytes⟩, ?_⟩
      rw [List.count_cons_of_ne (by decide)]
      exact hrest.closed

end words

end Shell
