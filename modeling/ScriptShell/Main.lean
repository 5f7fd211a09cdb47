import ScriptShell.CommandLine.Clock
import ScriptShell.CommandLine.Run
import Std.Time.DateTime.Timestamp

/-! # The program

Gathers what the shell is started on, runs the command that the arguments ask for, and writes its
output. -/

namespace ScriptShell.CommandLine

/-- Loops are followed for more rounds than any run goes through. -/
def allRounds : Nat := Nat.pow 2 62

/-- The files below a place of the working directory, down to a depth. Files that hold no text are
left out. -/
def readFiles (place : List String) : (depth : Nat) → IO (List (String × String))
  | 0 => return []
  | depth + 1 => do
    let directory := place.foldl (· / ·) (← IO.currentDir)
    let mut found := []
    for entry in ← directory.readDir do
      let path := place ++ [entry.fileName]
      if ← entry.path.isDir then
        found := found ++ (← readFiles path depth)
      else
        try
          found := found ++ [(joinParts path, ← IO.FS.readFile entry.path)]
        catch _ => pure ()
    return found

/-- The variables that the shell looks at. -/
def readVariables : IO Variables := do
  let mut found : Variables := {}
  for name in Variables.names do
    if let some value ← IO.getEnv name then
      found := found.insert name value
  return found

/-- The time of day. -/
def readTime : IO String := do
  return clockTime (← Std.Time.Timestamp.now).toSecondsSinceUnixEpoch.val.toNat

/-- Writes output. -/
def Output.emit (output : Output) : IO Unit := do
  IO.print output.stdout
  (← IO.getStdout).flush
  IO.eprint output.stderr

/-- Answers the lines of the input until it ends or one of them ends the prompt. -/
partial def converse (p : Prompt) : IO Unit := do
  (write promptText).emit
  let line ← (← IO.getStdin).getLine
  unless line.isEmpty do
    match p.enter (← readTime) line with
    | none => return
    | some (output, p) =>
      output.emit
      converse p

/-- Writes why the program ends early. -/
def abort (message : String) (code : UInt32) : IO UInt32 := do
  (errorLine ("Error: " ++ message)).emit
  return code

/-- Does what an invocation asks for. -/
def perform (invocation : Invocation) : IO UInt32 := do
  let surroundings : Surroundings := ⟨FileTree.ofList (← readFiles [] 8), ← readVariables⟩
  match startFor surroundings invocation allRounds with
  | .error e => abort e.message 1
  | .ok (shell, world) =>
    (showPreload shell world).emit
    match invocation.command with
    | .repl =>
      converse (.ofShell shell (← readTime))
      return 0
    | command =>
      let report := runCommand shell command [] ""
      report.output.emit
      match report.failure with
      | some message => abort message 1
      | none => return 0

end ScriptShell.CommandLine

open ScriptShell in
/-- Runs the shell. -/
def main (arguments : List String) : IO UInt32 := do
  match CommandLine.parse arguments with
  | .error .help | .error .nothing =>
    (CommandLine.writeLine CommandLine.usageText).emit
    return 0
  | .error e => CommandLine.abort e.message 2
  | .ok invocation => CommandLine.perform invocation
