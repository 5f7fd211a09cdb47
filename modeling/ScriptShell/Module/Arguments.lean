import ScriptShell.Module.Basic

/-! # Arguments of native functions

Readers for the arguments of a native function, with the errors that a wrong argument raises. -/

namespace ScriptShell.Arguments

/-- What reading arguments gives: something, or an error of the call. -/
abbrev Read (α : Type) := Except RunError α

/-- The error of a call with the wrong number of arguments. -/
def wrongCount (function : String) (expected given : Nat) : RunError :=
  ⟨.wrongArgCount,
    s!"{function}() expects {expected} argument(s), got {given}", []⟩

/-- Requires a number of arguments. -/
def expect (function : String) (count : Nat) (args : List Value) : Read Unit :=
  if args.length = count then .ok () else .error (wrongCount function count args.length)

/-- The error of an argument of the wrong kind. -/
def wrongKind (function : String) (index : Nat) (wanted : String) (given : Value) : RunError :=
  ⟨.wrongArgType,
    function ++ "() argument " ++ toString (index + 1) ++ " must be " ++ wanted ++ ", got "
      ++ given.kind, []⟩

/-- The error of an argument that is not there. -/
def missing (function : String) (index : Nat) : RunError :=
  ⟨.wrongArgCount, function ++ "() is missing argument " ++ toString (index + 1), []⟩

/-- The argument of an index as a number. -/
def number (function : String) (args : List Value) (index : Nat) : Read Float :=
  match args[index]? with
  | some (.num x) => .ok x
  | some other => .error (wrongKind function index "num" other)
  | none => .error (missing function index)

/-- The argument of an index as a text. -/
def text (function : String) (args : List Value) (index : Nat) : Read String :=
  match args[index]? with
  | some (.str s) => .ok s
  | some other => .error (wrongKind function index "str" other)
  | none => .error (missing function index)

/-- A list item as a number. -/
def numberItem (function : String) : Value → Read Float
  | .num x => .ok x
  | other =>
    .error ⟨.wrongArgType,
      function ++ "() expects a list of num, found " ++ other.kind, []⟩

/-- The argument of an index as a list of numbers. -/
def numbers (function : String) (args : List Value) (index : Nat) : Read (List Float) :=
  match args[index]? with
  | some (.list items) => items.mapM (numberItem function)
  | some other => .error (wrongKind function index "a list" other)
  | none => .error (missing function index)

end ScriptShell.Arguments
