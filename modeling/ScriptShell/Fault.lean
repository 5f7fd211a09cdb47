/-! # Faults

Why a fragment does not complete: it does not compile, its references do not resolve, or its run
stops with an error. Each cause is data; the wording of a cause is given once, next to its type. -/

namespace ScriptShell

/-! ## Diagnostics -/

/-- A problem found before a fragment runs, at a line and column counted from zero. -/
structure Diagnostic where
  message : String
  line : Nat
  col : Nat
  deriving DecidableEq, Repr, Inhabited

/-- A diagnostic with its place counted from one. -/
def Diagnostic.display (d : Diagnostic) : String :=
  "(" ++ toString (d.line + 1) ++ "," ++ toString (d.col + 1) ++ "): error: " ++ d.message

/-- Diagnostics, one to a line. -/
def displayDiagnostics (diagnostics : List Diagnostic) : String :=
  "\n".intercalate (diagnostics.map Diagnostic.display)

/-! ## Errors of a run -/

/-- The kinds of errors a run can stop with. -/
inductive ErrorCode where
  | undefinedVariable
  | typeError
  | wrongArgCount
  | wrongArgType
  | propertyNotFound
  | divisionByZero
  | unknownFunction
  | userError
  | hostError
  | recursionLimit
  deriving DecidableEq, Repr, Inhabited

namespace ErrorCode

/-- Every kind. -/
def all : List ErrorCode :=
  [.undefinedVariable, .typeError, .wrongArgCount, .wrongArgType, .propertyNotFound,
   .divisionByZero, .unknownFunction, .userError, .hostError, .recursionLimit]

/-- The name of a kind. -/
def name : ErrorCode → String
  | .undefinedVariable => "UndefinedVariable"
  | .typeError => "TypeError"
  | .wrongArgCount => "WrongArgCount"
  | .wrongArgType => "WrongArgType"
  | .propertyNotFound => "PropertyNotFound"
  | .divisionByZero => "DivisionByZero"
  | .unknownFunction => "UnknownFunction"
  | .userError => "Error"
  | .hostError => "HostError"
  | .recursionLimit => "RecursionLimit"

/-- The kind of a name. -/
def ofName? (text : String) : Option ErrorCode :=
  all.find? (·.name == text)

end ErrorCode

/-- What lies behind an error: another error, or that the evaluation was cancelled. -/
inductive Cause where
  | failure (code : ErrorCode) (message : String)
  | cancelled
  deriving DecidableEq, Repr, Inhabited

/-- The written form of a cause. -/
def Cause.display : Cause → String
  | .failure code message => code.name ++ ": " ++ message
  | .cancelled => "evaluation was cancelled"

/-- An error of a run, with its causes from the outermost to the innermost. -/
structure RunError where
  code : ErrorCode
  message : String
  causes : List Cause := []
  deriving DecidableEq, Repr, Inhabited

/-- Whether a cancellation lies behind an error. -/
def RunError.wasCancelled (e : RunError) : Bool :=
  e.causes.contains .cancelled

/-! ## References that do not resolve -/

/-- Why a reference does not resolve. -/
inductive ResolutionError where
  /-- The manifest at this path cannot be read. -/
  | unreadable (path : String)
  /-- The manifest at this path is not one. -/
  | malformed (path : String)
  | unknownModule (name : String)
  | unresolved (target : String)
  deriving DecidableEq, Repr, Inhabited

/-- The written form of a resolution error. -/
def ResolutionError.message : ResolutionError → String
  | .unreadable path => "failed to read " ++ path
  | .malformed path => "malformed manifest " ++ path
  | .unknownModule name => "module '" ++ name ++ "' not found"
  | .unresolved target => "reference '" ++ target ++ "' could not be resolved"

/-! ## Faults of a fragment -/

/-- Why a fragment did not complete. -/
inductive Fault where
  | compile (diagnostics : List Diagnostic)
  | runtime (error : RunError)
  | resolve (error : ResolutionError)
  deriving DecidableEq, Repr, Inhabited

namespace Fault

/-- The written form of a fault. -/
def display : Fault → String
  | .compile diagnostics => "compilation failed\n" ++ displayDiagnostics diagnostics
  | .runtime error => error.code.name ++ ": " ++ error.message
  | .resolve error => "reference resolution failed: " ++ error.message

/-- What lies behind a fault, from the outermost to the innermost cause. -/
def causes : Fault → List Cause
  | .runtime error => error.causes
  | _ => []

/-- The written form of a fault followed by what lies behind it, one cause to a line. -/
def detail (fault : Fault) : String :=
  fault.display ++ String.join (fault.causes.map fun cause => "\n  caused by: " ++ cause.display)

/-- Whether a cancellation lies behind a fault. -/
def wasCancelled (fault : Fault) : Bool :=
  fault.causes.contains .cancelled

end Fault

end ScriptShell
