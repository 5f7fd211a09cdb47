import ScriptShell.Settings.Variable
import ScriptShell.Text.Alphanumeric

/-! # Variable files

A file of environment variables has a variable to a line: a name, an equals sign and a value. Values
may be quoted, over several lines if need be, and may mention other variables. Reading ends at the
first line that cannot be read. -/

namespace ScriptShell.VariableFile

/-! ## Lines -/

/-- How far the scan of a line has come. -/
inductive LineState where
  | plain
  /-- After a blank, where a comment may start. -/
  | blank
  | escaped
  | weak
  | weakEscaped
  | strong
  | strongEscaped
  | comment
  deriving DecidableEq, Repr, Inhabited

/-- The state after a character outside of quotes. -/
def openState (c : Char) : LineState :=
  if c = '\\' then .escaped
  else if c = '"' then .weak
  else if c = '\x27' then .strong
  else .plain

/-- The state after a character. -/
def LineState.next (state : LineState) (c : Char) : LineState :=
  match state with
  | .blank => if c = '#' then .comment else openState c
  | .plain =>
    if Text.isBlank c && c != '\n' && c != '\r' then .blank else openState c
  | .escaped => .plain
  | .weak => if c = '\\' then .weakEscaped else if c = '"' then .plain else .weak
  | .weakEscaped => .weak
  | .strong => if c = '\\' then .strongEscaped else if c = '\x27' then .plain else .strong
  | .strongEscaped => .strong
  | .comment => .comment

/-- Scans a line up to a comment: what precedes it, and the state at the end. -/
def scanLine (state : LineState) : List Char → List Char × LineState
  | [] => ([], state)
  | c :: rest =>
    match state.next c with
    | .comment => ([], .comment)
    | state =>
      let (kept, last) := scanLine state rest
      (c :: kept, last)

/-- The lines of a text, with their ends. -/
def rawLines : List Char → List (List Char)
  | [] => []
  | '\n' :: rest => ['\n'] :: rawLines rest
  | c :: rest =>
    match rawLines rest with
    | [] => [[c]]
    | line :: more => (c :: line) :: more

/-- A line without its end. -/
def dropLineEnd (line : List Char) : List Char :=
  match Text.dropTail? ['\r', '\n'] line with
  | some rest => rest
  | none => (Text.dropTail? ['\n'] line).getD line

/-- Joins lines inside of which a quotation or escape is open; a file that ends in one is cut short
there. -/
def joinLines (state : LineState) (begun : List Char) : List (List Char) → List (Option (List Char))
  | [] => if state = .plain ∧ begun = [] then [] else [none]
  | line :: rest =>
    let whole := begun ++ line
    if (Text.trimStart whole).head? = some '#' then some [] :: joinLines .plain [] rest
    else
      let (kept, last) := scanLine state line
      match last with
      | .comment => some (begun ++ kept) :: joinLines .plain [] rest
      | .plain => some (dropLineEnd whole) :: joinLines .plain [] rest
      | .blank => joinLines .blank whole rest
      | last => joinLines last whole rest

/-! ## Values -/

/-- How far the reading of a value has come. -/
structure ValueState where
  strong : Bool := false
  weak : Bool := false
  escaped : Bool := false
  /-- After the value, where only blanks and a comment may follow. -/
  ended : Bool := false
  /-- Inside the name of a variable, and whether braces are around it. -/
  name : Option (Bool × List Char) := none
  output : List Char := []

/-- The characters that a backslash makes of others. -/
def escapedChar? (c : Char) : Option Char :=
  if c = '\\' ∨ c = '\x27' ∨ c = '"' ∨ c = '$' ∨ c = ' ' then some c
  else if c = 'n' then some '\n'
  else none

/-- Reads one character of a value, outside of variable names. -/
def ValueState.read (s : ValueState) (c : Char) : ValueState :=
  if c = '$' then { s with name := some (false, []) }
  else if s.weak then
    if c = '"' then { s with weak := false }
    else if c = '\\' then { s with escaped := true }
    else { s with output := s.output ++ [c] }
  else if c = '\x27' then { s with strong := true }
  else if c = '"' then { s with weak := true }
  else if c = '\\' then { s with escaped := true }
  else if c = ' ' ∨ c = '\t' then { s with ended := true }
  else { s with output := s.output ++ [c] }

/-- Puts the value of a variable in the place of its name. -/
def ValueState.substitute (lookup : String → String) (name : List Char) (s : ValueState) :
    ValueState :=
  { s with name := none, output := s.output ++ (lookup (String.ofList name)).toList }

/-- Reads a value, given the values of variables. -/
def readValue? (lookup : String → String) (s : ValueState) : List Char → Option (List Char)
  | [] =>
    match s.name with
    | some (true, _) => none
    | some (false, name) =>
      if s.strong || s.weak then none else some (s.substitute lookup name).output
    | none => if s.strong || s.weak then none else some s.output
  | c :: rest =>
    if s.ended then
      if c = ' ' ∨ c = '\t' then readValue? lookup s rest
      else if c = '#' then
        if s.strong || s.weak then none else some s.output
      else none
    else if s.escaped then
      match escapedChar? c with
      | some c => readValue? lookup { s with escaped := false, output := s.output ++ [c] } rest
      | none => none
    else if s.strong then
      if c = '\x27' then readValue? lookup { s with strong := false } rest
      else readValue? lookup { s with output := s.output ++ [c] } rest
    else
      match s.name with
      | none => readValue? lookup (s.read c) rest
      | some (true, name) =>
        if c = '\x7d' then readValue? lookup (s.substitute lookup name) rest
        else readValue? lookup { s with name := some (true, name ++ [c]) } rest
      | some (false, name) =>
        if Text.isAlphanumeric c then
          readValue? lookup { s with name := some (false, name ++ [c]) } rest
        else if c = '\x7b' && name.isEmpty then
          readValue? lookup { s with name := some (true, []) } rest
        else
          let s := s.substitute lookup name
          if c = '$' then readValue? lookup { s with name := some (false, []) } rest
          else readValue? lookup { s with output := s.output ++ [c] } rest

/-! ## Variables -/

/-- Characters that names start with. -/
def isNameStart (c : Char) : Bool :=
  c.isAlpha || c == '_'

/-- Characters of names. -/
def isNameChar (c : Char) : Bool :=
  c.isAlphanum || c == '_' || c == '.'

/-- A name, and what follows it and the blanks after it. -/
def name? (text : List Char) : Option (List Char × List Char) :=
  match text with
  | c :: _ =>
    if isNameStart c then
      some (text.takeWhile isNameChar, Text.trimStart (text.dropWhile isNameChar))
    else none
  | [] => none

/-- The name of a line and what follows the equals sign. The word `export` may come before the name.
-/
def assignment? (text : List Char) : Option (List Char × List Char) := do
  let (name, rest) ← name? text
  match rest with
  | '=' :: rest => return (name, Text.trimStart rest)
  | rest =>
    if name = "export".toList then
      let (name, rest) ← name? rest
      match rest with
      | '=' :: rest => return (name, Text.trimStart rest)
      | _ => none
    else none

/-- What a line holds. -/
inductive Line where
  | nothing
  | setting (name value : String)
  | unreadable
  deriving DecidableEq, Repr, Inhabited

/-- Reads a line, given the values of variables. -/
def readLine (lookup : String → String) (line : List Char) : Line :=
  match Text.trim line with
  | [] | '#' :: _ => .nothing
  | text =>
    match assignment? text with
    | none => .unreadable
    | some (name, value) =>
      match value with
      | [] | '#' :: _ => .setting (String.ofList name) ""
      | value =>
        match readValue? lookup {} value with
        | none => .unreadable
        | some value => .setting (String.ofList name) (String.ofList value)

/-- Adds the variables of lines that are not set yet, up to the first line that cannot be read.
`seen` holds the values that the lines gave. -/
def addLines (seen : Dict String) (vars : Variables) : List (Option (List Char)) → Variables
  | [] | none :: _ => vars
  | some line :: rest =>
    let lookup name := ((vars.get? name).or (seen.get? name)).getD ""
    match readLine lookup line with
    | .nothing => addLines seen vars rest
    | .unreadable => vars
    | .setting name value =>
      addLines (seen.insert name value)
        (if vars.contains name then vars else vars.insert name value) rest

/-- Adds the variables of a file that are not set yet. -/
def addTo (vars : Variables) (text : String) : Variables :=
  let chars := match text.toList with
    | c :: rest => if c.toNat = 0xfeff then rest else c :: rest
    | [] => []
  addLines {} vars (joinLines .plain [] (rawLines chars))

end ScriptShell.VariableFile
