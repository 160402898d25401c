/-
  The command the app runs as root (`PPTPProxyClient.swift`): `shellQuote`, the command line `connect`
  puts together, and the AppleScript literal in which `privileged` hands it to `osascript`.

  The server and the account name in that command are what the user typed, so two readers stand
  between them and the engine: AppleScript reads the literal, the shell reads what comes out.  Both
  are in `Lib.Quoting`; the result is that the first gives the command back and the second sees the
  arguments as literal words, whatever is in them.

  What is left out: the process that runs `osascript` and its exit status.
-/
import PptpProxy.App.Settings
import PptpProxy.Lib.Quoting

namespace PptpProxy

open Quoting

/-- `shellQuote`. -/
def shellQuote (value : Text) : Text :=
  apostrophe :: (replace apostrophe [apostrophe, backslash, apostrophe, apostrophe] value ++
    [apostrophe])

/-- The literal `quoted` of `privileged`. -/
def privilegedLiteral (command : Text) : Text :=
  quotationMark :: (replace quotationMark [backslash, quotationMark]
    (replace backslash [backslash, backslash] command) ++ [quotationMark])

/-- The script `privileged` gives to `osascript`. -/
def privilegedScript (command : Text) : Text :=
  "do shell script ".toList ++ privilegedLiteral command ++ " with administrator privileges".toList

/-- The part of the command with the program and its arguments. -/
def invocation (proxyPath : Text) (args : List Text) : Text :=
  shellQuote proxyPath ++ [' '] ++ [' '].intercalate (args.map shellQuote)

/-- The command of `connect`. -/
def connectCommand (proxyPath : Text) (args : List Text) (logPath : Text) : Text :=
  "umask 022; ".toList ++ invocation proxyPath args ++ " >".toList ++ shellQuote logPath ++
    " 2>&1 </dev/null & echo $!".toList

/-! ## The literal -/

theorem decode_privilegedLiteral (command : Text) :
    AppleScript.decode (privilegedLiteral command) = some command := by
  have hrun : AppleScript.run ⟨.text, []⟩ (replace quotationMark [backslash, quotationMark]
      (replace backslash [backslash, backslash] command) ++ [quotationMark]) =
      some ⟨.closed, command⟩ := by
    rw [AppleScript.run_append, AppleScript.run_escaped]
    rfl
  unfold AppleScript.decode privilegedLiteral
  dsimp only
  rw [if_neg (not_not.mpr rfl), hrun]

/-! ## The words -/

section

open Shell

variable {l : Lexer}

/-- A quoted value is one literal stretch of the word at hand. -/
theorem run_shellQuote (hmode : l.mode = .bare) (value : Text) :
    l.run (shellQuote value) = l.pushAll value := by
  have hopen : l.step apostrophe = { l with mode := .single, word := some (l.word.getD []) } := by
    unfold Lexer.step
    rw [hmode]
    rfl
  have hspan := run_span (l := { l with mode := .single, word := some (l.word.getD []) }) rfl
    (Option.some_ne_none _) value
  unfold shellQuote
  rw [run_cons, hopen, Shell.run_append, hspan]
  obtain ⟨mode, word, tokens⟩ := l
  obtain rfl : mode = .bare := hmode
  rfl

/-- Quoted values with blanks between them are so many words. -/
theorem run_arguments (hmode : l.mode = .bare) (hword : l.word = none) (args : List Text) :
    (l.run ([' '].intercalate (args.map shellQuote))).close =
      { l with tokens := (args.map literally).reverse ++ l.tokens } ∧
    (l.run ([' '].intercalate (args.map shellQuote))).mode = .bare := by
  obtain ⟨mode, word, tokens⟩ := l
  obtain rfl : mode = .bare := hmode
  obtain rfl : word = none := hword
  induction args generalizing tokens with
  | nil => exact ⟨rfl, rfl⟩
  | cons a args ih =>
    have hfirst : (Lexer.run ⟨.bare, none, tokens⟩ (shellQuote a)).close =
        ⟨.bare, none, literally a :: tokens⟩ := by
      rw [run_shellQuote rfl]
      rfl
    cases args with
    | nil =>
      rw [List.map_singleton, List.intercalate_singleton]
      refine ⟨hfirst, ?_⟩
      rw [run_shellQuote rfl]
      rfl
    | cons b args =>
      have hblank : (Lexer.run ⟨.bare, none, tokens⟩ (shellQuote a)).run [' '] =
          ⟨.bare, none, literally a :: tokens⟩ := by
        rw [run_blank (by rw [run_shellQuote rfl]; rfl), hfirst]
      obtain ⟨h1, h2⟩ := ih (literally a :: tokens)
      rw [List.map_cons, List.map_cons, List.intercalate_cons_cons, Shell.run_append,
        Shell.run_append, hblank, ← List.map_cons]
      refine ⟨?_, h2⟩
      rw [h1]
      simp

/-- The program and its arguments, whatever stands in front of them. -/
theorem run_invocation (tokens : List Token) (proxyPath : Text) (args : List Text) :
    (Lexer.run ⟨.bare, none, tokens⟩ (invocation proxyPath args)).close =
      ⟨.bare, none, ((proxyPath :: args).map literally).reverse ++ tokens⟩ ∧
    (Lexer.run ⟨.bare, none, tokens⟩ (invocation proxyPath args)).mode = .bare := by
  have hblank : (Lexer.run ⟨.bare, none, tokens⟩ (shellQuote proxyPath)).run [' '] =
      ⟨.bare, none, literally proxyPath :: tokens⟩ := by
    rw [run_blank (by rw [run_shellQuote rfl]; rfl), run_shellQuote rfl]
    rfl
  unfold invocation
  rw [Shell.run_append, Shell.run_append, hblank]
  obtain ⟨h1, h2⟩ := run_arguments (l := ⟨.bare, none, literally proxyPath :: tokens⟩) rfl rfl args
  refine ⟨?_, h2⟩
  rw [h1]
  simp

/-- A blank behind a word that may still be open. -/
theorem run_close_blank (hmode : l.mode = .bare) (t : Text) :
    l.run (' ' :: t) = l.close.run t := by
  rw [← List.singleton_append, Shell.run_append, run_blank hmode]

end

/-- The tokens of `connect`'s command in front of the program and behind its arguments. -/
def commandHead : List Shell.Token :=
  [.word [⟨'u', false⟩, ⟨'m', false⟩, ⟨'a', false⟩, ⟨'s', false⟩, ⟨'k', false⟩],
    .word [⟨'0', false⟩, ⟨'2', false⟩, ⟨'2', false⟩], .operator ';']

def commandTail (logPath : Text) : List Shell.Token :=
  [.operator '>', Shell.literally logPath, .word [⟨'2', false⟩], .operator '>', .operator '&',
    .word [⟨'1', false⟩], .operator '<', .word ("/dev/null".toList.map fun c => ⟨c, false⟩),
    .operator '&', .word ("echo".toList.map fun c => ⟨c, false⟩),
    .word [⟨'$', false⟩, ⟨'!', false⟩]]

/-- **No injection into the privileged command.**  AppleScript reads back exactly the command; the
    shell splits the invocation into exactly the program and its arguments, all of them literal; and in
    the whole command nothing but these words and the log path comes from outside. -/
theorem privileged_exact (proxyPath logPath : Text) (args : List Text) :
    (∀ command, AppleScript.decode (privilegedLiteral command) = some command) ∧
    Shell.tokens (invocation proxyPath args) = some ((proxyPath :: args).map Shell.literally) ∧
    Shell.tokens (connectCommand proxyPath args logPath) =
      some (commandHead ++ (proxyPath :: args).map Shell.literally ++ commandTail logPath) := by
  refine ⟨decode_privilegedLiteral, ?_, ?_⟩
  · obtain ⟨h1, h2⟩ := run_invocation [] proxyPath args
    unfold Shell.tokens Shell.Lexer.start
    dsimp only
    rw [h2]
    dsimp only
    rw [h1]
    simp
  · have hhead : Shell.Lexer.start.run "umask 022; ".toList =
        ⟨.bare, none, commandHead.reverse⟩ := by decide
    obtain ⟨h1, h2⟩ := run_invocation commandHead.reverse proxyPath args
    have hinvoked : Shell.Lexer.start.run
        ("umask 022; ".toList ++ invocation proxyPath args ++ " >".toList) =
        ⟨.bare, none, .operator '>' ::
          (((proxyPath :: args).map Shell.literally).reverse ++ commandHead.reverse)⟩ := by
      rw [Shell.run_append, Shell.run_append, hhead]
      show Shell.Lexer.run _ (' ' :: ['>']) = _
      rw [run_close_blank h2, h1]
      rfl
    have htail : Shell.Lexer.start.run "2>&1 </dev/null & echo $!".toList =
        ⟨.bare, some [⟨'$', false⟩, ⟨'!', false⟩],
          [.word ("echo".toList.map fun c => ⟨c, false⟩), .operator '&',
            .word ("/dev/null".toList.map fun c => ⟨c, false⟩), .operator '<', .word [⟨'1', false⟩],
            .operator '&', .operator '>', .word [⟨'2', false⟩]]⟩ := by decide
    have hlog : (Shell.Lexer.pushAll ⟨.bare, none, .operator '>' ::
          (((proxyPath :: args).map Shell.literally).reverse ++ commandHead.reverse)⟩ logPath).close =
        Shell.Lexer.start.above (Shell.literally logPath :: .operator '>' ::
          (((proxyPath :: args).map Shell.literally).reverse ++ commandHead.reverse)) := rfl
    have hrun : Shell.Lexer.start.run (connectCommand proxyPath args logPath) =
        (Shell.Lexer.start.run "2>&1 </dev/null & echo $!".toList).above
          (Shell.literally logPath :: .operator '>' ::
            (((proxyPath :: args).map Shell.literally).reverse ++ commandHead.reverse)) := by
      have hblank : " 2>&1 </dev/null & echo $!".toList =
          ' ' :: "2>&1 </dev/null & echo $!".toList := by decide
      unfold connectCommand
      rw [Shell.run_append, Shell.run_append, hinvoked, run_shellQuote rfl, hblank,
        run_close_blank rfl, hlog, Shell.run_above]
    unfold Shell.tokens
    rw [hrun, htail]
    simp [Shell.Lexer.above, Shell.Lexer.close, commandTail]

end PptpProxy
