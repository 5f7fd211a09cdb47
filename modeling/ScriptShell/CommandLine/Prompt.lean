import ScriptShell.CommandLine.Output
import ScriptShell.Shell.Basic

/-! # The prompt

The prompt evaluates the lines that are entered one after the other. -/

namespace ScriptShell.CommandLine

/-- What is shown of an outcome. -/
def showOutcome : Outcome → Output
  | .success value loaded =>
    joinOutputs (loaded.map fun m => writeLine ("Loaded " ++ m.display))
      ++ joinOutputs (value.toList.map fun v => writeLine v.display)
  | .fault cause => errorLine cause.detail
  | .cancelled => errorLine "Cancelled"
  | .unfinished => errorLine "Unfinished"

/-- The help of the prompt. -/
def helpText : String :=
  "Enter a fragment to evaluate it. A trailing expression without `;` prints its value.\n\n"
    ++ "  #load \"<module>\"   bind a module (math, text, time, stats) or a project manifest\n"
    ++ "  use <module>       import a module's members\n"
    ++ "  #history           list committed fragments, oldest first (UTC times)\n"
    ++ "  #help              show this help\n"
    ++ "  exit               leave the prompt"

/-- What is shown to ask for a line. -/
def promptText : String := "> "

/-- The prompt: its shell, and when each committed fragment was committed, the newest first. -/
structure Prompt where
  shell : Shell
  times : List String := []

namespace Prompt

/-- The prompt of a shell that was started at a time. -/
def ofShell (shell : Shell) (now : String) : Prompt :=
  ⟨shell, shell.session.history.map fun _ => now⟩

/-- One line for each committed fragment, the oldest first. -/
def transcript (p : Prompt) : List String :=
  (p.shell.session.history.zipWith
    (fun submission time =>
      "[" ++ time ++ "] " ++ submission.unit.name ++ " " ++ Text.firstLine submission.unit.source)
    p.times).reverse

/-- Evaluates an entered fragment. -/
def evaluate (p : Prompt) (now text : String) : Output × Prompt :=
  let e := p.shell.session.evaluate p.shell.host text [] {}
  let times := if e.outcome.isSuccess then now :: p.times else p.times
  (write e.world.printed ++ showOutcome e.outcome, ⟨{ p.shell with session := e.session }, times⟩)

/-- Answers an entered line; none when it ends the prompt. -/
def enter (p : Prompt) (now : String) (line : String) : Option (Output × Prompt) :=
  let input := String.ofList (Text.trim line.toList)
  if input = "" then some ({}, p)
  else if input = "exit" then none
  else if input = "#help" then some (writeLine helpText, p)
  else if input = "#history" then some (joinOutputs (p.transcript.map writeLine), p)
  else some (p.evaluate now input)

/-- Answers lines until one ends the prompt or there are no more. -/
def enterAll (p : Prompt) (now : String) : List String → Output
  | [] => write promptText
  | line :: rest =>
    match p.enter now line with
    | none => write promptText
    | some (output, p) => write promptText ++ output ++ p.enterAll now rest

end Prompt

end ScriptShell.CommandLine
