import ScriptShell.Completion.Candidate
import ScriptShell.Reference.Directive
import ScriptShell.Session.Compile

/-! # Candidates in scripts

`Catalog.candidates` says what can complete the word before a caret: members after a period, names
of modules inside a load directive, and otherwise everything in scope, keywords and snippets. -/

namespace ScriptShell

open Text

/-- The keywords, with what they are for. -/
def keywords : List (String × String) :=
  [("let", "Declare a binding"), ("fn", "Declare a function"),
   ("use", "Import a module's members into scope"), ("if", "Conditional statement"),
   ("else", "Else branch of conditional"), ("while", "While loop"), ("await", "Wait for a future"),
   ("true", "Boolean true"), ("false", "Boolean false"), ("null", "Null value")]

/-! ## Where the caret is -/

/-- The number of bytes of a text. -/
def byteSize (text : List Char) : Nat :=
  text.foldl (fun size c => size + c.utf8Size) 0

/-- The part of a text before a caret, unless the caret is inside a character or past the end. -/
def beforeCaret? : List Char → (caret : Nat) → Option (List Char)
  | _, 0 => some []
  | [], _ + 1 => none
  | c :: text, caret + 1 =>
    if c.utf8Size ≤ caret + 1 then
      (beforeCaret? text (caret + 1 - c.utf8Size)).map (c :: ·)
    else none

/-- What a place on a line is part of. -/
inductive LinePlace where
  | code | string | comment
  deriving DecidableEq, Repr, Inhabited

/-- How far the scan of a line has come. -/
inductive LineScan where
  /-- Outside of a string, after a character. -/
  | code (previous : Char)
  | string
  /-- Inside of a string, after a backslash. -/
  | escaped
  deriving DecidableEq, Repr, Inhabited

/-- What the end of a line is part of. -/
def placeFrom : LineScan → List Char → LinePlace
  | .code _, [] => .code
  | .string, [] | .escaped, [] => .string
  | .code previous, c :: rest =>
    if c = '"' then placeFrom .string rest
    else if c = '/' && previous = '/' then .comment
    else placeFrom (.code c) rest
  | .string, c :: rest =>
    if c = '\\' then placeFrom .escaped rest
    else if c = '"' then placeFrom (.code c) rest
    else placeFrom .string rest
  | .escaped, _ :: rest => placeFrom .string rest

/-- What the end of a line is part of. -/
def linePlace (line : List Char) : LinePlace :=
  placeFrom (.code (Char.ofNat 0)) line

/-- The longest end of a text whose characters all satisfy `keep`. -/
def endWhile (keep : Char → Bool) (text : List Char) : List Char :=
  (text.reverse.takeWhile keep).reverse

/-- A text before a caret, divided: the lines above, the line up to the word, and the word. -/
structure CaretPlace where
  above : List Char
  head : List Char
  word : List Char

/-- Divides the text before a caret. -/
def CaretPlace.of (before : List Char) : CaretPlace where
  above := dropEndWhile (· != '\n') before
  head := dropEndWhile isWordChar (endWhile (· != '\n') before)
  word := endWhile isWordChar before

namespace CaretPlace

/-- The line up to the caret. -/
def line (p : CaretPlace) : List Char :=
  p.head ++ p.word

/-- The word before the period that the word follows. -/
def receiver? (p : CaretPlace) : Option (List Char) :=
  (dropTail? ['.'] p.head).map (endWhile isWordChar)

/-- Whether the word follows the sign of a directive. -/
def isDirective (p : CaretPlace) : Bool :=
  trim p.head == ['#']

/-- Whether the word is the first of its line. -/
def isFirst (p : CaretPlace) : Bool :=
  (trim p.head).isEmpty

end CaretPlace

/-! ## What is in scope -/

/-- Appends names that are new. -/
def addNames (found more : List String) : List String :=
  more.foldl (fun found name => if name ∈ found then found else found ++ [name]) found

/-- The modules that a text being edited may use: those of the session and those it loads itself. -/
def Catalog.editingModules (c : Catalog) (document : Document) (text : String) : List String :=
  (loadTargets text).foldl
    (fun found target => addNames found ((c.closure target).map (·.name)))
    (addNames [preludeName] ((c.visible document.references).map (·.name)))

/-- The modules that a text being edited imports. -/
def editingImports (document : Document) (text : String) : List String :=
  addNames [preludeName] (document.references.imports ++ importNames text)

/-- The scope at a place of a text being edited: that of the session, with what the lines above
declare if they have no problems. -/
def Catalog.editingScope (c : Catalog) (document : Document) (text : String) (above : List Char) :
    Scope :=
  let scope : Scope :=
    { catalog := c, modules := c.editingModules document text,
      imports := editingImports document text, bindings := bindingsAfter document.unit }
  match parseChars above with
  | .error _ => scope
  | .ok statements =>
    let checked := scope.checkAll statements
    if checked.problems.isEmpty then scope.withBindings checked.bindings else scope

/-! ## Candidates -/

/-- What a name of a type is offered as. -/
def Ty.kind : Ty → CandidateKind
  | .fn _ (.future _) _ => .asyncFunction
  | .fn .. => .function
  | .module _ => .module
  | _ => .variable

/-- The description of a member of a module. -/
def ScriptModule.memberDescription (m : ScriptModule) (name : String) : String :=
  match m.function? name with
  | some f => m.name ++ "." ++ f.name ++ ": " ++ f.signature.display ++ "\n" ++ f.doc
  | none =>
    match m.constant? name with
    | some k =>
      m.name ++ "." ++ k.name ++ ": " ++ k.type.display ++ " = " ++ k.value.display ++ "\n" ++ k.doc
    | none => ""

/-- The members of a module. -/
def ScriptModule.candidates (m : ScriptModule) : List Candidate :=
  m.functions.map (fun f =>
      { label := f.name, kind := if f.isAsync then .asyncFunction else .function,
        description := m.memberDescription f.name })
    ++ m.constants.map (fun k =>
      { label := k.name, kind := .constant, description := m.memberDescription k.name })

/-- The members of the runtime object. -/
def runtimeCandidates : List Candidate :=
  [{ label := "version", kind := .property,
     description := "version: str\nVersion of the evaluation environment" },
   { label := "submission", kind := .property,
     description := "submission: num\nNumber of the running submission" }]

/-- The module that a name before a period stands for. -/
def Scope.receiverModule? (s : Scope) (receiver : String) : Option String :=
  match s.bindings.get? receiver with
  | some (.module name) => some name
  | some _ => none
  | none => if receiver ∈ s.modules then some receiver else none

/-- The candidates after a period. -/
def Scope.candidatesAfterDot (s : Scope) (receiver : String) : List Candidate :=
  if receiver = runtimeName then runtimeCandidates
  else
    match (s.receiverModule? receiver).bind s.catalog.get? with
    | some m => m.candidates
    | none => []

/-- The candidates for declared names. -/
def Scope.bindingCandidates (s : Scope) : List Candidate :=
  s.bindings.entries.map fun (name, type) =>
    { label := name, kind := type.kind,
      description := name ++ ": " ++ type.display }

/-- The candidates for the names that are always there. -/
def builtinCandidates : List Candidate :=
  [{ label := argsName, kind := .variable,
     description := argsName ++ ": list<str>\nArguments passed to the evaluation" },
   { label := runtimeName, kind := .variable }]

/-- The candidates for members of imported modules. -/
def Scope.importCandidates (s : Scope) : List Candidate :=
  (s.imports.filterMap s.catalog.get?).flatMap (·.candidates)

/-- The candidate for a module. -/
def ScriptModule.toCandidate (m : ScriptModule) : Candidate where
  label := m.name
  kind := .module
  description := "module " ++ m.name ++ ", version=" ++ m.version ++ "\n" ++ m.description

/-- The candidates for modules. -/
def Scope.moduleCandidates (s : Scope) : List Candidate :=
  (s.modules.filterMap s.catalog.get?).map (·.toCandidate)

/-- The candidates for keywords. -/
def keywordCandidates : List Candidate :=
  keywords.map fun (word, doc) => { label := word, kind := .keyword, description := doc }

/-- The snippet of a load directive. -/
def loadSnippet : Candidate where
  label := "#load"
  kind := .snippet
  isComplex := true
  description := "#load \"<module>\"\nBind a module to the session"

/-- The snippet of a conditional. -/
def branchSnippet : Candidate where
  label := "if-else"
  kind := .snippet
  inline := "conditional with an else branch"
  isComplex := true
  description := "if <condition> \x7b \x7d else \x7b \x7d"

/-- Keeps the first candidate of each label. -/
def firstOfLabel (kept : List Candidate) : List Candidate → List Candidate
  | [] => kept
  | c :: rest =>
    firstOfLabel (if kept.any (·.label == c.label) then kept else kept ++ [c]) rest

/-- The candidates for a word on its own. -/
def Scope.nameCandidates (s : Scope) (atLineStart : Bool) : List Candidate :=
  firstOfLabel []
    (s.bindingCandidates ++ builtinCandidates ++ s.importCandidates ++ s.moduleCandidates
      ++ keywordCandidates ++ (if atLineStart then [loadSnippet] else []) ++ [branchSnippet])

/-! ## Order -/

/-- Whether one candidate may stand before another: by classification, then by label. -/
def Candidate.le (a b : Candidate) : Bool :=
  a.kind.rank < b.kind.rank
    || (a.kind.rank == b.kind.rank && !(b.label < a.label))

/-- Puts a candidate at its place in an ordered list, before those it ties with. -/
def insertCandidate (c : Candidate) : List Candidate → List Candidate
  | [] => [c]
  | other :: rest => if c.le other then c :: other :: rest else other :: insertCandidate c rest

/-- Orders candidates; those that tie keep their order. -/
def sortCandidates (candidates : List Candidate) : List Candidate :=
  candidates.foldr insertCandidate []

/-! ## All together -/

/-- The modules that a load directive could name: those whose name starts as given and that are not
bound yet. -/
def Catalog.loadCandidates (c : Catalog) (document : Document) (start : List Char) :
    List Candidate :=
  (c.modules.filter fun m =>
      m.name != preludeName && start.isPrefixOf m.name.toList
        && !document.references.hasModule m.name).map fun m =>
    { label := m.name, kind := .module, description := m.description }

/-- What follows the opening quote of the load directive that a line is. -/
def loadStart? (line : List Char) : Option (List Char) :=
  ((dropLead? "#load".toList (trimStart line)).map trimStart).bind (dropLead? ['"'])

/-- The candidates at a place in code, with the start that they must have. -/
def Scope.codeCandidates (s : Scope) (p : CaretPlace) : List Char × List Candidate :=
  match p.receiver? with
  | some receiver => (p.word, s.candidatesAfterDot (String.ofList receiver))
  | none =>
    (if p.isDirective then '#' :: p.word else p.word,
     s.nameCandidates (p.isFirst || p.isDirective))

/-- The candidates at a place. -/
def Catalog.candidatesFor (c : Catalog) (document : Document) (text : String) (p : CaretPlace) :
    Option (List Candidate) :=
  match linePlace p.line with
  | .comment => none
  | .string => (loadStart? p.line).map (c.loadCandidates document)
  | .code =>
    let (start, candidates) := (c.editingScope document text p.above).codeCandidates p
    some (sortCandidates (candidates.filter fun candidate =>
      start.isPrefixOf candidate.label.toList))

/-- The candidates before a caret. -/
def Catalog.candidates (c : Catalog) : CompletionSource := fun document text caret =>
  let chars := text.toList
  if byteSize chars < caret then .error (.caretOutOfRange caret (byteSize chars))
  else
    match beforeCaret? chars caret with
    | none => .error (.caretInsideCharacter caret)
    | some before => .ok (c.candidatesFor document text (.of before))

end ScriptShell
