import ScriptShell.Text.Lines

/-! # Output

What a command writes, and whether it failed. -/

namespace ScriptShell.CommandLine

/-- What is written to the output and to the error output. -/
structure Output where
  stdout : String := ""
  stderr : String := ""
  deriving DecidableEq, Repr, Inhabited

instance : Append Output where
  append a b := ⟨a.stdout ++ b.stdout, a.stderr ++ b.stderr⟩

/-- A text on the output. -/
def write (text : String) : Output := { stdout := text }

/-- A line on the output. -/
def writeLine (line : String) : Output := { stdout := Text.asLine line }

/-- A line on the error output. -/
def errorLine (line : String) : Output := { stderr := Text.asLine line }

/-- Outputs one after the other. -/
def joinOutputs (outputs : List Output) : Output :=
  outputs.foldl (· ++ ·) {}

/-- Output, and why the command failed if it did. -/
structure Report where
  output : Output := {}
  failure : Option String := none
  deriving DecidableEq, Repr, Inhabited

end ScriptShell.CommandLine
