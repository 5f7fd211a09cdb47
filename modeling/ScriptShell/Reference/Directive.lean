import ScriptShell.Text.Alphanumeric
import ScriptShell.Text.Lines

/-! # Directives

Which modules a fragment loads and which it imports, read off its lines without parsing it.
`loadTargets` and `importNames` work on texts that do not parse, too. -/

namespace ScriptShell

open Text

/-- A text without the quotes around it, if it has both. -/
def unquote (text : List Char) : List Char :=
  ((dropLead? ['"'] text).bind (dropTail? ['"'])).getD text

/-- The target of a line that is a load directive. -/
def loadTarget? (line : List Char) : Option (List Char) :=
  (dropLead? "#load".toList (trim line)).bind fun rest =>
    let target := unquote (trim (dropEndWhile (· == ';') (trim rest)))
    if target.isEmpty then none else some target

/-- The targets of the load directives of a text, one to a line. -/
def loadTargets (text : String) : List String :=
  ((lines text.toList).filterMap loadTarget?).map String.ofList

/-- Characters of an imported module's name. -/
def isImportChar (c : Char) : Bool :=
  isAlphanumeric c || c == '_' || c == '.'

/-- The module that a piece of text imports. -/
def importName? (piece : List Char) : Option (List Char) :=
  (dropLead? "use ".toList (trim piece)).bind fun rest =>
    let name := (trim rest).takeWhile isImportChar
    if name.isEmpty then none else some name

/-- The modules that a text imports; line feeds and semicolons divide its pieces. -/
def importNames (text : String) : List String :=
  ((pieces (fun c => c == '\n' || c == ';') text.toList).filterMap importName?).map String.ofList

end ScriptShell
