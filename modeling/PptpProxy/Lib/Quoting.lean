/-
  Two quoting disciplines over texts of Unicode scalars: POSIX shell words and AppleScript string
  literals.

  Both readers are automata that take one scalar at a time (`Shell.Lexer.step`, `AppleScript.step`) and
  are folded over the text, so a text in parts is read part by part (`run_append`).  A shell word keeps, with
  each scalar, whether quoting made it LITERAL: what is not literal may still be a pattern, an
  expansion or a comment sign to the shell, so "nothing of this text is interpreted" is a statement
  about the result of the lexer and not about the text.

  The rules a quoting function needs: a span in apostrophes is read literally (`Shell.run_span`), an
  apostrophe is written by leaving the span (`Shell.run_apostrophe`), and a text whose backslashes and
  quotation marks are escaped is read back by the literal reader (`AppleScript.run_escaped`).
-/
import Mathlib.Data.List.Basic

namespace Quoting

def apostrophe : Char := '\x27'
def backslash : Char := '\x5c'
def quotationMark : Char := '\x22'

/-- Every occurrence of a scalar replaced, scalar by scalar. -/
def replace (c : Char) (r : List Char) (t : List Char) : List Char := t.flatMap fun x => if x = c then r else [x]

@[simp] theorem replace_nil (c : Char) (r : List Char) : replace c r [] = [] := rfl

theorem replace_cons (c : Char) (r : List Char) (x : Char) (t : List Char) :
    replace c r (x :: t) = (if x = c then r else [x]) ++ replace c r t := List.flatMap_cons

end Quoting

/-! ## The shell -/

namespace Shell

open Quoting

/-- A scalar of a word; a literal one has lost its meaning to the shell. -/
structure Glyph where
  char : Char
  literal : Bool
  deriving DecidableEq, Repr

inductive Token
  | word (glyphs : List Glyph)
  /-- One scalar of a control or redirection operator. -/
  | operator (c : Char)
  deriving DecidableEq, Repr

/-- A word all of whose scalars are literal. -/
def literally (t : List Char) : Token := .word (t.map fun c => ⟨c, true⟩)

inductive Mode
  | bare
  /-- Behind a backslash outside quotes. -/
  | escaped
  | single
  | double
  /-- Behind a backslash in quotation marks. -/
  | doubleEscaped
  /-- From a number sign at the start of a word to the end of the line. -/
  | comment
  deriving DecidableEq, Repr

/-- The tokens so far, newest first, and the word being read; a word may be empty, so no word is
    `none`. -/
structure Lexer where
  mode : Mode
  word : Option (List Glyph)
  tokens : List Token
  deriving DecidableEq, Repr

def Lexer.start : Lexer := ⟨.bare, none, []⟩

def isBlank (c : Char) : Bool := c == ' ' || c == '\t'

/-- The scalars of operators, among them the newline. -/
def isOperator (c : Char) : Bool := ['\n', ';', '&', '|', '<', '>', '(', ')'].contains c

/-- The scalars a backslash escapes in quotation marks. -/
def isDoubleEscapable (c : Char) : Bool := ['$', '\x60', quotationMark, backslash].contains c

namespace Lexer

/-- The word grows; there is one from now on. -/
def push (l : Lexer) (c : Char) (literal : Bool) : Lexer :=
  { l with word := some (l.word.getD [] ++ [⟨c, literal⟩]) }

/-- A delimiter ends the word. -/
def close (l : Lexer) : Lexer :=
  match l.word with
  | none => l
  | some w => { l with word := none, tokens := .word w :: l.tokens }

/-- One scalar outside quotes. -/
def stepBare (l : Lexer) (c : Char) : Lexer :=
  if c = backslash then { l with mode := .escaped }
  else if c = apostrophe then { l with mode := .single, word := some (l.word.getD []) }
  else if c = quotationMark then { l with mode := .double, word := some (l.word.getD []) }
  else if isBlank c then l.close
  else if isOperator c then { l.close with tokens := .operator c :: l.close.tokens }
  else if c = '#' ∧ l.word = none then { l with mode := .comment }
  else l.push c false

/-- One scalar. -/
def step (l : Lexer) (c : Char) : Lexer :=
  match l.mode with
  | .bare => l.stepBare c
  | .escaped =>
    -- a backslash in front of a newline continues the line
    if c = '\n' then { l with mode := .bare } else { l.push c true with mode := .bare }
  | .single => if c = apostrophe then { l with mode := .bare } else l.push c true
  | .double =>
    if c = quotationMark then { l with mode := .bare }
    else if c = backslash then { l with mode := .doubleEscaped }
    else l.push c (! (c == '$' || c == '\x60'))
  | .doubleEscaped =>
    if c = '\n' then { l with mode := .double }
    else if isDoubleEscapable c then { l.push c true with mode := .double }
    else { (l.push backslash true).push c true with mode := .double }
  | .comment => if c = '\n' then { l with mode := .bare, tokens := .operator c :: l.tokens } else l

def run (l : Lexer) (t : List Char) : Lexer := t.foldl step l

end Lexer

/-- The tokens of a text; `none` when a quotation is left open. -/
def tokens (t : List Char) : Option (List Token) :=
  let l := Lexer.start.run t
  match l.mode with
  | .bare | .comment => some l.close.tokens.reverse
  | _ => none

section

variable (l : Lexer)

@[simp] theorem run_nil : l.run [] = l := rfl

@[simp] theorem run_cons (c : Char) (t : List Char) : l.run (c :: t) = (l.step c).run t := rfl

theorem run_append (t u : List Char) : l.run (t ++ u) = (l.run t).run u := List.foldl_append

variable {l}

/-- In apostrophes one scalar other than the apostrophe is itself. -/
theorem step_single {c : Char} (hmode : l.mode = .single) (hc : c ≠ apostrophe) :
    l.step c = l.push c true := by
  unfold Lexer.step
  rw [hmode]
  exact if_neg hc

/-- **An apostrophe in a quotation**: the span is left, an escaped apostrophe follows, and the next
    span begins. -/
theorem run_apostrophe (hmode : l.mode = .single) :
    l.run [apostrophe, backslash, apostrophe, apostrophe] = l.push apostrophe true := by
  obtain ⟨mode, word, tokens⟩ := l
  obtain rfl : mode = .single := hmode
  rfl

/-- A blank ends the word. -/
theorem run_blank (hmode : l.mode = .bare) : l.run [' '] = l.close := by
  obtain ⟨mode, word, tokens⟩ := l
  obtain rfl : mode = .bare := hmode
  rfl

end

/-- The same lexer with tokens in front of its own. -/
def Lexer.above (l : Lexer) (ts : List Token) : Lexer := { l with tokens := l.tokens ++ ts }

theorem close_above (l : Lexer) (ts : List Token) : (l.above ts).close = l.close.above ts := by
  obtain ⟨mode, word, tokens⟩ := l
  cases word <;> rfl

theorem step_above (l : Lexer) (ts : List Token) (c : Char) :
    (l.above ts).step c = (l.step c).above ts := by
  have hbare : (l.above ts).stepBare c = (l.stepBare c).above ts := by
    have hclose := close_above l ts
    obtain ⟨mode, word, tokens⟩ := l
    unfold Lexer.stepBare
    rw [hclose]
    unfold Lexer.above
    dsimp only
    repeat' split
    all_goals rfl
  obtain ⟨mode, word, tokens⟩ := l
  cases mode with
  | bare => exact hbare
  | _ =>
    unfold Lexer.step Lexer.above
    dsimp only
    repeat' split
    all_goals rfl

/-- The tokens so far do not matter to what follows. -/
theorem run_above (l : Lexer) (ts : List Token) (t : List Char) :
    (l.above ts).run t = (l.run t).above ts := by
  induction t generalizing l with
  | nil => rfl
  | cons c t ih => rw [run_cons, step_above, ih, run_cons]

/-- The lexer behind a complete literal text in a quotation it has entered. -/
def Lexer.pushAll (l : Lexer) (t : List Char) : Lexer :=
  { l with word := some (l.word.getD [] ++ t.map fun c => ⟨c, true⟩) }

theorem pushAll_cons (l : Lexer) (c : Char) (t : List Char) :
    (l.push c true).pushAll t = l.pushAll (c :: t) := by
  unfold Lexer.pushAll Lexer.push
  simp

/-- **A quoted text is read literally**, whatever it is made of, when its apostrophes are written
    the long way. -/
theorem run_span {l : Lexer} (hmode : l.mode = .single) (hword : l.word ≠ none) (t : List Char) :
    l.run (replace apostrophe [apostrophe, backslash, apostrophe, apostrophe] t) = l.pushAll t := by
  induction t generalizing l with
  | nil =>
    obtain ⟨w, hw⟩ := Option.ne_none_iff_exists'.mp hword
    unfold Lexer.pushAll
    obtain ⟨mode, word, tokens⟩ := l
    subst hw
    simp
  | cons c t ih =>
    have hstep : l.run (if c = apostrophe then [apostrophe, backslash, apostrophe, apostrophe]
        else [c]) = l.push c true := by
      by_cases hc : c = apostrophe
      · rw [if_pos hc, run_apostrophe hmode, hc]
      · rw [if_neg hc, run_cons, step_single hmode hc, run_nil]
    rw [replace_cons, run_append, hstep]
    exact (ih (l := l.push c true) hmode (Option.some_ne_none _)).trans (pushAll_cons l c t)

end Shell

/-! ## AppleScript -/

namespace AppleScript

open Quoting

inductive Mode
  | text
  | escaped
  /-- Behind the closing quotation mark. -/
  | closed
  deriving DecidableEq, Repr

structure Reader where
  mode : Mode
  value : List Char
  deriving DecidableEq, Repr

/-- What a backslash and the scalar behind it stand for. -/
def escape (c : Char) : Option Char :=
  if c = backslash ∨ c = quotationMark then some c
  else if c = 'n' then some '\n'
  else if c = 'r' then some '\r'
  else if c = 't' then some '\t'
  else none

def step (r : Reader) (c : Char) : Option Reader :=
  match r.mode with
  | .text =>
    if c = backslash then some { r with mode := .escaped }
    else if c = quotationMark then some { r with mode := .closed }
    else some { r with value := r.value ++ [c] }
  | .escaped => (escape c).map fun x => ⟨.text, r.value ++ [x]⟩
  | .closed => none

def run (r : Reader) (t : List Char) : Option Reader := t.foldlM step r

/-- The value of a string literal: a quotation mark, the text, and the closing quotation mark as its
    very last scalar. -/
def decode (t : List Char) : Option (List Char) :=
  match t with
  | [] => none
  | c :: t =>
    if c ≠ quotationMark then none
    else
      match run ⟨.text, []⟩ t with
      | some ⟨.closed, value⟩ => some value
      | _ => none

theorem run_append (r : Reader) (t u : List Char) : run r (t ++ u) = (run r t).bind (run · u) :=
  List.foldlM_append

/-- **An escaped text is read back.** -/
theorem run_escaped (t value : List Char) :
    run ⟨.text, value⟩ (replace quotationMark [backslash, quotationMark]
      (replace backslash [backslash, backslash] t)) = some ⟨.text, value ++ t⟩ := by
  induction t generalizing value with
  | nil => simp [run]
  | cons c t ih =>
    have hstep : run ⟨.text, value⟩ (replace quotationMark [backslash, quotationMark]
        (if c = backslash then [backslash, backslash] else [c])) = some ⟨.text, value ++ [c]⟩ := by
      by_cases hb : c = backslash
      · subst hb
        rfl
      · rw [if_neg hb, replace_cons, replace_nil, List.append_nil]
        by_cases hq : c = quotationMark
        · subst hq
          rfl
        · rw [if_neg hq]
          show step ⟨.text, value⟩ c >>= pure = _
          unfold step
          dsimp only
          rw [if_neg hb, if_neg hq]
          rfl
    have hsplit : replace quotationMark [backslash, quotationMark]
        (replace backslash [backslash, backslash] (c :: t)) =
        replace quotationMark [backslash, quotationMark]
          (if c = backslash then [backslash, backslash] else [c]) ++
        replace quotationMark [backslash, quotationMark]
          (replace backslash [backslash, backslash] t) := by
      rw [replace_cons]
      exact List.flatMap_append
    rw [hsplit, run_append, hstep]
    show run ⟨.text, value ++ [c]⟩ _ = _
    rw [ih, List.append_assoc]
    rfl

end AppleScript
