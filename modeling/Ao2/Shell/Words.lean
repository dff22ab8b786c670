import Ao2.Provider.Repair
import Mathlib.Tactic.Common

/-!
# The words of a command line

A shell reads a command line character by character. A blank ends a word, quotes and backslashes keep the
characters behind them from being taken for something else, and an operator stands for itself. What a word
becomes then depends on the characters in it that are not quoted: it is the text that it looks like unless one
of them calls for an expansion.

A parameter, a command substitution and a here-document are not followed: a reader that comes to a dollar sign
or a backquote outside of single quotes stops. An operator of two characters is two tokens here.

A text is put into a command line in quotes, with every quote in it taken out of them, or as it is if all its
characters are harmless. An empty text has no harmful character.

## Main results

* `isOneWord_of_run` — what is read as one word from between two words is one word
* `isOneWord_shellSingleQuote` — the quotes of the repair prompt are exact
* `isOneWord_iff` — both are, if and only if the text is not empty
-/

namespace Ao2

namespace Shell

/-- A character of a word, and whether it is quoted. -/
structure Letter where
  char : Char
  quoted : Bool
  deriving DecidableEq, Repr

inductive Token where
  | word (letters : List Letter)
  | operator (c : Char)
  | newline
  deriving DecidableEq, Repr

inductive Mode where
  | plain | single | double
  /-- After a backslash, outside of quotes and in double quotes. -/
  | escaped | doubleEscaped
  | comment
  deriving DecidableEq, Repr

/-- A reader: how the next character is taken, and the word that has been begun. -/
structure State where
  mode : Mode
  word : Option (List Letter)
  deriving DecidableEq, Repr

def start : State := ⟨.plain, none⟩

/-- The word that comes to an end here. -/
def State.close (s : State) : List Token := s.word.toList.map .word

/-- One more character in the word, which is begun if there is none. -/
def State.add (s : State) (mode : Mode) (c : Char) (quoted : Bool) : State :=
  ⟨mode, some (s.word.getD [] ++ [⟨c, quoted⟩])⟩

def State.quote (s : State) (mode : Mode) : State := ⟨mode, some (s.word.getD [])⟩

def isBlankChar (c : Char) : Bool := c = ' ' || c = '\t'

def isOperatorChar (c : Char) : Bool := c ∈ ['&', '|', ';', '<', '>', '(', ')']

/-- A dollar sign or a backquote. -/
def startsExpansion (c : Char) : Bool := c = '$' || c = Char.ofNat 96

/-- A character outside of quotes. -/
def stepPlain (s : State) (c : Char) : Option (List Token × State) :=
  if c = '\\' then some ([], { s with mode := .escaped })
  else if c = '\'' then some ([], s.quote .single)
  else if c = '"' then some ([], s.quote .double)
  else if startsExpansion c then none
  else if isOperatorChar c then some (s.close ++ [.operator c], start)
  else if c = '\n' then some (s.close ++ [.newline], start)
  else if isBlankChar c then some (s.close, start)
  else if c = '#' ∧ s.word = none then some ([], ⟨.comment, none⟩)
  else some ([], s.add .plain c false)

/-- One character: the tokens that it ends, and the reader after it. -/
def step (s : State) (c : Char) : Option (List Token × State) :=
  match s.mode with
  | .plain => stepPlain s c
  | .single => if c = '\'' then some ([], { s with mode := .plain }) else some ([], s.add .single c true)
  | .double =>
    if c = '"' then some ([], { s with mode := .plain })
    else if c = '\\' then some ([], { s with mode := .doubleEscaped })
    else if startsExpansion c then none
    else some ([], s.add .double c true)
  | .escaped => if c = '\n' then some ([], { s with mode := .plain }) else some ([], s.add .plain c true)
  | .doubleEscaped =>
    if startsExpansion c || c = '"' || c = '\\' then some ([], s.add .double c true)
    else if c = '\n' then some ([], { s with mode := .double })
    else some ([], (s.add .double '\\' true).add .double c true)
  | .comment => if c = '\n' then some ([.newline], start) else some ([], s)

/-- Characters one after the other. -/
def run : State → List Char → Option (List Token × State)
  | s, [] => some ([], s)
  | s, c :: text => do
    let (tokens, s) ← step s c
    let (rest, s) ← run s text
    some (tokens ++ rest, s)

/-- The tokens of the rest of a line. A quote that is left open is no end. -/
def tokensFrom (s : State) (text : List Char) : Option (List Token) := do
  let (tokens, s) ← run s text
  if s.mode = .plain ∨ s.mode = .comment then some (tokens ++ s.close) else none

/-- The tokens of a line. -/
def shellTokens (line : List Char) : Option (List Token) := tokensFrom start line

/-- Characters that call for an expansion where they are not quoted. -/
def expands (l : Letter) : Bool := !l.quoted && l.char ∈ ['*', '?', '[', '~']

/-- The text of a word that is not expanded. -/
def wordText (letters : List Letter) : Option (List Char) :=
  if letters.any expands then none else some (letters.map Letter.char)

/-- **One word.** Between blanks, wherever that is outside of quotes and comments, the text is read as a single
word, and that word is the value. -/
def IsOneWord (text value : List Char) : Prop :=
  ∃ letters, wordText letters = some value ∧
    ∀ before tokens s after rest, run start before = some (tokens, s) → s.mode = .plain →
      shellTokens after = some rest →
        shellTokens (before ++ ' ' :: (text ++ ' ' :: after)) =
          some (tokens ++ s.close ++ .word letters :: rest)

/-! ### Reading one text after the other -/

theorem run_cons {s s' : State} {c : Char} {tokens : List Token} {text : List Char}
    (h : step s c = some (tokens, s')) :
    run s (c :: text) = (run s' text).map fun r => (tokens ++ r.1, r.2) := by
  rw [run, h, Option.map_eq_bind]
  rfl

theorem run_append {s s' : State} {first second : List Char} {tokens : List Token}
    (h : run s first = some (tokens, s')) :
    run s (first ++ second) = (run s' second).map fun r => (tokens ++ r.1, r.2) := by
  induction first generalizing s tokens with
  | nil =>
    cases h
    simp
  | cons c first ih =>
    cases hstep : step s c with
    | none =>
      rw [run, hstep] at h
      cases h
    | some r =>
      obtain ⟨ended, s₁⟩ := r
      rw [run_cons hstep] at h
      obtain ⟨⟨tokens', s₂⟩, hrest, heq⟩ := Option.map_eq_some_iff.mp h
      cases heq
      rw [List.cons_append, run_cons hstep, ih hrest, Option.map_map]
      simp [Function.comp_def]

theorem tokensFrom_append {s s' : State} {first second : List Char} {tokens : List Token}
    (h : run s first = some (tokens, s')) :
    tokensFrom s (first ++ second) = (tokensFrom s' second).map (tokens ++ ·) := by
  rw [tokensFrom, tokensFrom, run_append h]
  cases run s' second with
  | none => rfl
  | some r =>
    obtain ⟨rest, s₂⟩ := r
    by_cases hend : s₂.mode = .plain ∨ s₂.mode = .comment
    · simp [hend]
    · simp [hend]

/-- A blank outside of quotes ends a word. -/
theorem run_blank {s : State} (h : s.mode = .plain) : run s [' '] = some (s.close, start) := by
  have hstep : step s ' ' = some (s.close, start) := by
    rw [step, h]
    rfl
  rw [run_cons hstep, run, Option.map_some, List.append_nil]

/-- What is read as a word from between two words is one word. -/
theorem isOneWord_of_run {text value : List Char} {letters : List Letter}
    (hvalue : wordText letters = some value) (hrun : run start text = some ([], ⟨.plain, some letters⟩)) :
    IsOneWord text value := by
  refine ⟨letters, hvalue, fun before tokens s after rest hbefore hplain hafter => ?_⟩
  have hnext : tokensFrom ⟨.plain, some letters⟩ ([' '] ++ after) = some (.word letters :: rest) := by
    rw [tokensFrom_append (run_blank rfl), show tokensFrom start after = some rest from hafter]
    rfl
  calc tokensFrom start (before ++ ([' '] ++ (text ++ ([' '] ++ after))))
      = (tokensFrom s ([' '] ++ (text ++ ([' '] ++ after)))).map (tokens ++ ·) := tokensFrom_append hbefore
    _ = ((tokensFrom start (text ++ ([' '] ++ after))).map (s.close ++ ·)).map (tokens ++ ·) := by
        rw [tokensFrom_append (run_blank hplain)]
    _ = some (tokens ++ s.close ++ .word letters :: rest) := by
        rw [tokensFrom_append hrun, hnext]
        simp

end Shell

end Ao2

/-! ## Quoted words -/

namespace Ao2

open Shell

/-- A character that needs no quotes. -/
def isHarmless (c : Char) : Bool := c.isAlphanum || c ∈ ['-', '_', '.', '/', ':', '=']

def shellQuote (input : String) : String :=
  if input.toList.all isHarmless then input
  else "'" ++ .ofList (input.toList.flatMap fun c => if c = '\'' then "'\\''".toList else [c]) ++ "'"

namespace Shell

/-! ### In quotes -/

/-- The letters of a quoted text. -/
def quotedLetters (text : List Char) : List Letter := text.map fun c => ⟨c, true⟩

theorem wordText_quotedLetters (text : List Char) : wordText (quotedLetters text) = some text := by
  have hany : (quotedLetters text).any expands = false := by
    simp [quotedLetters, expands]
  rw [wordText, if_neg (by rw [hany]; decide), quotedLetters, List.map_map]
  exact congrArg some (List.map_id text)

/-- **A text in quotes** is read letter by letter, if what stands for a quote is read as one. -/
theorem run_single {escape : List Char}
    (h : ∀ w, run ⟨.single, some w⟩ escape = some ([], ⟨.single, some (w ++ [⟨'\'', true⟩])⟩))
    (w : List Letter) (text : List Char) :
    run ⟨.single, some w⟩ (text.flatMap fun c => if c = '\'' then escape else [c]) =
      some ([], ⟨.single, some (w ++ quotedLetters text)⟩) := by
  induction text generalizing w with
  | nil => simp [run, quotedLetters]
  | cons c text ih =>
    have hfirst : run ⟨.single, some w⟩ (if c = '\'' then escape else [c]) =
        some ([], ⟨.single, some (w ++ [⟨c, true⟩])⟩) := by
      by_cases hc : c = '\''
      · rw [if_pos hc, hc]
        exact h w
      · rw [if_neg hc, run, step, if_neg hc]
        rfl
    rw [List.flatMap_cons, run_append hfirst, ih]
    simp [quotedLetters]

theorem isOneWord_single {escape : List Char}
    (h : ∀ w, run ⟨.single, some w⟩ escape = some ([], ⟨.single, some (w ++ [⟨'\'', true⟩])⟩))
    (text : List Char) :
    IsOneWord ('\'' :: ((text.flatMap fun c => if c = '\'' then escape else [c]) ++ ['\''])) text := by
  refine isOneWord_of_run (wordText_quotedLetters text) ?_
  have hopen : step start '\'' = some ([], ⟨.single, some []⟩) := rfl
  have hclose : run ⟨.single, some (quotedLetters text)⟩ ['\''] =
      some ([], ⟨.plain, some (quotedLetters text)⟩) := rfl
  rw [run_cons hopen, run_append (run_single h [] text), List.nil_append, hclose]
  rfl

/-- A quote, taken out of the quotes and escaped. -/
theorem run_escapedQuote (w : List Letter) :
    run ⟨.single, some w⟩ "'\\''".toList = some ([], ⟨.single, some (w ++ [⟨'\'', true⟩])⟩) := rfl

/-- A quote, taken out of the quotes and put into double ones. -/
theorem run_doubleQuotedQuote (w : List Letter) :
    run ⟨.single, some w⟩ "'\"'\"'".toList = some ([], ⟨.single, some (w ++ [⟨'\'', true⟩])⟩) := rfl

/-! ### Without quotes -/

def bareLetters (text : List Char) : List Letter := text.map fun c => ⟨c, false⟩

theorem ne_of_isHarmless {c d : Char} (h : isHarmless c = true) (hd : isHarmless d = false) : c ≠ d := by
  rintro rfl
  rw [h] at hd
  cases hd

theorem stepPlain_of_isHarmless {c : Char} (h : isHarmless c = true) (w : Option (List Letter)) :
    step ⟨.plain, w⟩ c = some ([], ⟨.plain, some (w.getD [] ++ [⟨c, false⟩])⟩) := by
  have hoperator : isOperatorChar c = false := by
    simp only [isOperatorChar, List.mem_cons, List.not_mem_nil, or_false, decide_eq_false_iff_not, not_or]
    exact ⟨ne_of_isHarmless h rfl, ne_of_isHarmless h rfl, ne_of_isHarmless h rfl, ne_of_isHarmless h rfl,
      ne_of_isHarmless h rfl, ne_of_isHarmless h rfl, ne_of_isHarmless h rfl⟩
  have hblank : isBlankChar c = false := by
    simp only [isBlankChar, Bool.or_eq_false_iff, decide_eq_false_iff_not]
    exact ⟨ne_of_isHarmless h rfl, ne_of_isHarmless h rfl⟩
  have hexpansion : startsExpansion c = false := by
    simp only [startsExpansion, Bool.or_eq_false_iff, decide_eq_false_iff_not]
    exact ⟨ne_of_isHarmless h rfl, ne_of_isHarmless h rfl⟩
  have hcomment : ¬ (c = '#' ∧ w = none) := fun hc => ne_of_isHarmless h rfl hc.1
  rw [step, stepPlain, if_neg (ne_of_isHarmless h rfl), if_neg (ne_of_isHarmless h rfl),
    if_neg (ne_of_isHarmless h rfl), hexpansion, if_neg Bool.false_ne_true, hoperator, if_neg Bool.false_ne_true,
    if_neg (ne_of_isHarmless h rfl), hblank, if_neg Bool.false_ne_true, if_neg hcomment]
  rfl

theorem wordText_bareLetters {text : List Char} (h : ∀ c ∈ text, isHarmless c = true) :
    wordText (bareLetters text) = some text := by
  have hany : (bareLetters text).any expands = false := by
    rw [bareLetters, List.any_map, List.any_eq_false]
    intro c hc
    simp only [Function.comp_apply, expands, Bool.not_false, Bool.true_and, List.mem_cons, List.not_mem_nil, or_false,
      decide_eq_true_eq, not_or]
    exact ⟨ne_of_isHarmless (h c hc) rfl, ne_of_isHarmless (h c hc) rfl, ne_of_isHarmless (h c hc) rfl,
      ne_of_isHarmless (h c hc) rfl⟩
  rw [wordText, if_neg (by rw [hany]; decide), bareLetters, List.map_map]
  exact congrArg some (List.map_id text)

theorem run_bare {text : List Char} (h : ∀ c ∈ text, isHarmless c = true) (w : List Letter) :
    run ⟨.plain, some w⟩ text = some ([], ⟨.plain, some (w ++ bareLetters text)⟩) := by
  induction text generalizing w with
  | nil => simp [run, bareLetters]
  | cons c text ih =>
    rw [List.forall_mem_cons] at h
    rw [run_cons (stepPlain_of_isHarmless h.1 _), Option.getD_some, ih h.2]
    simp [bareLetters]

theorem isOneWord_bare {c : Char} {text : List Char} (h : ∀ d ∈ c :: text, isHarmless d = true) :
    IsOneWord (c :: text) (c :: text) := by
  refine isOneWord_of_run (wordText_bareLetters h) ?_
  rw [List.forall_mem_cons] at h
  rw [start, run_cons (stepPlain_of_isHarmless h.1 none), run_bare h.2]
  rfl

/-- Nothing between two blanks is no word. -/
theorem not_isOneWord_nil : ¬ IsOneWord [] [] := by
  rintro ⟨letters, -, h⟩
  cases h [] [] start [] [] rfl rfl rfl

end Shell

/-! ### Both quotings -/

/-- **The quotes of the repair prompt are exact.** -/
theorem isOneWord_shellSingleQuote (value : String) : IsOneWord (shellSingleQuote value).toList value.toList := by
  rw [toList_shellSingleQuote]
  exact isOneWord_single run_doubleQuotedQuote value.toList

theorem isOneWord_shellQuote {input : String} (hne : input ≠ "") :
    IsOneWord (shellQuote input).toList input.toList := by
  rw [shellQuote]
  split_ifs with hall
  · obtain ⟨c, text, htext⟩ := List.exists_cons_of_ne_nil (mt String.toList_eq_nil_iff.mp hne)
    rw [htext] at hall ⊢
    exact isOneWord_bare (List.all_eq_true.mp hall)
  · simp only [String.toList_append, String.toList_ofList]
    exact isOneWord_single run_escapedQuote input.toList

/-- **Both quotings are exact if and only if the text is not empty.** -/
theorem isOneWord_iff (s : String) :
    IsOneWord (shellQuote s).toList s.toList ∧ IsOneWord (shellSingleQuote s).toList s.toList ↔ s ≠ "" := by
  constructor
  · rintro ⟨hquote, -⟩ rfl
    exact not_isOneWord_nil hquote
  · intro hne
    exact ⟨isOneWord_shellQuote hne, isOneWord_shellSingleQuote s⟩

/-- An empty argument is no argument. -/
theorem shellQuote_empty : shellQuote "" = "" ∧ ¬ IsOneWord (shellQuote "").toList "".toList ∧
    shellTokens ("cmd ".toList ++ (shellQuote "").toList ++ " x".toList) = shellTokens "cmd x".toList :=
  ⟨rfl, not_isOneWord_nil, rfl⟩

end Ao2
