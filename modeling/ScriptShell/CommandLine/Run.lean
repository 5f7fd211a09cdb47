import ScriptShell.CommandLine.Arguments
import ScriptShell.CommandLine.Prompt
import ScriptShell.Evaluation.Data
import ScriptShell.Json.Parser

/-! # Running commands

`CommandLine.run` starts a shell and does what an invocation asks for. -/

namespace ScriptShell.CommandLine

/-- Evaluates fragments one after the other: the output, and how many of them were not committed. -/
def evalAll (h : Host) (args : List String) :
    Session → World → List String → Output × Nat
  | _, _, [] => ({}, 0)
  | session, world, text :: rest =>
    let e := session.evaluate h text args { world with printed := "" }
    let (output, failed) := evalAll h args e.session e.world rest
    (write e.world.printed ++ showOutcome e.outcome ++ output,
     if e.outcome.isSuccess then failed else failed + 1)

/-- Evaluates the fragments of a command. -/
def runEval (shell : Shell) (fragments args : List String) : Report :=
  let (output, failed) := evalAll shell.host args shell.session {} fragments
  { output
    failure :=
      if failed = 0 then none
      else some (toString failed ++ " of " ++ toString fragments.length ++ " fragments failed") }

/-- A completion on a line. -/
def showItem (item : Suggestion) : Output :=
  writeLine (Text.padRight 24 item.display ++ " " ++ Text.firstLine item.description)

/-- Shows the completions at a caret, by default at the end of the text. -/
def runComplete (shell : Shell) (text : String) (caret : Option Nat) : Report :=
  let caret := caret.getD (byteSize text.toList)
  match (shell.complete 0 (shell.document "cli") text caret).1 with
  | .error _ => { failure := some "Failed to compute completions" }
  | .ok listing =>
    if listing.items.isEmpty then { output := writeLine "No completions" }
    else { output := joinOutputs (listing.items.map showItem) }

/-- Lists the members of a type, by default of the globals module. -/
def runMembers (shell : Shell) (type : Option String) : Report :=
  let type := type.getD shell.bridge.globalsTypeName
  match Bridge.list shell.host.catalog type with
  | .error e => { failure := some e.message }
  | .ok response =>
    { output := writeLine (type ++ ":")
        ++ joinOutputs (response.texts.map fun text => writeLine ("  " ++ text)) }

/-- Shows a compiled fragment. -/
def runInspect (shell : Shell) (text : String) : Report :=
  match shell.session.compileNext shell.host text with
  | .error problems => { failure := some ("Compilation failed\n" ++ displayDiagnostics problems) }
  | .ok unit =>
    { output := writeLine ("Unit: " ++ unit.name)
        ++ writeLine ("References: " ++ "; ".intercalate (unit.references.map (·.display)))
        ++ writeLine unit.program.toJson.pretty }

/-- Calls a tool of the bridge. -/
def runBridge (shell : Shell) (tool arguments : String) : Report :=
  match Json.parse? arguments with
  | none => { failure := some "Tool arguments must be a JSON object" }
  | some arguments =>
    let called := shell.bridge.call shell.host tool arguments {}
    let printed := write called.world.printed
    match called.result with
    | .error e => { output := printed, failure := some e.message }
    | .ok response => { output := printed ++ writeLine response.toJson.pretty }

/-- Does what a command asks for; `lines` are what the prompt reads, and `now` is the time it shows.
-/
def runCommand (shell : Shell) (command : Command) (lines : List String) (now : String) : Report :=
  match command with
  | .eval fragments args => runEval shell fragments args
  | .repl => { output := (Prompt.ofShell shell now).enterAll now lines }
  | .complete text caret => runComplete shell text caret
  | .members type => runMembers shell type
  | .inspect text => runInspect shell text
  | .bridge tool arguments => runBridge shell tool arguments

/-- What is shown of the preload: what it printed, and its faults. -/
def showPreload (shell : Shell) (world : World) : Output :=
  write world.printed
    ++ joinOutputs ((shell.preload.filterMap (·.fault?)).map fun cause =>
      errorLine ("Preload failed: " ++ cause.detail))

/-- Starts a shell for an invocation. -/
def startFor (surroundings : Surroundings) (invocation : Invocation) (rounds : Nat) :
    Except StartError (Shell × World) :=
  Shell.start surroundings { path := invocation.settingsPath, rounds }

/-- Starts a shell and does what an invocation asks for. -/
def run (surroundings : Surroundings) (invocation : Invocation) (lines : List String) (now : String)
    (rounds : Nat) : Report :=
  match startFor surroundings invocation rounds with
  | .error e => { failure := some e.message }
  | .ok (shell, world) =>
    let report := runCommand shell invocation.command lines now
    { report with output := showPreload shell world ++ report.output }

end ScriptShell.CommandLine
