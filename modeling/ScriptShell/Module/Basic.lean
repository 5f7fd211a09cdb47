import ScriptShell.Module.Reference
import ScriptShell.Value.Basic
import ScriptShell.Ty
import ScriptShell.Fault
import ScriptShell.Text.Quoted

/-! # Modules

A module has functions and constants. What a function does is a map from its arguments to a
`NativeReply`: how the call ends, and what it does besides, which is to print or to cancel the run.
So a function keeps nothing between its calls: with the same arguments it does the same again. An
asynchronous function may also do something on the way to its reply, which a `NativeEffect` tells.
-/

namespace ScriptShell

/-- How a call of a native function ends. -/
inductive NativeResult where
  | value (value : Value)
  | failure (error : RunError)
  /-- The run breaks off without a result. -/
  | breakdown
  deriving Inhabited

/-- What a call of a native function does: how it ends, what it prints, and whether it cancels the
run it is part of. -/
structure NativeReply where
  result : NativeResult
  printed : String := ""
  cancels : Bool := false
  deriving Inhabited

namespace NativeReply

/-- A reply that only ends with a value or an error. -/
def ofExcept : Except RunError Value → NativeReply
  | .ok value => ⟨.value value, "", false⟩
  | .error error => ⟨.failure error, "", false⟩

end NativeReply

/-- What an asynchronous function does on the way to its reply: what it prints, whether it cancels
the run, and whether it breaks off there. -/
structure NativeEffect where
  printed : String := ""
  cancels : Bool := false
  breaks : Bool := false
  deriving DecidableEq, Repr, Inhabited

/-- A function of a module. An asynchronous one runs when its call is awaited. -/
structure NativeFunction where
  name : String
  params : List (String × Ty) := []
  /-- The type of what the function answers, once awaited if it is asynchronous. -/
  answers : Ty := .any
  /-- Whether it takes any number of further arguments. -/
  variadic : Bool := false
  isAsync : Bool := false
  doc : String := ""
  /-- The reply, which is a function of the arguments alone. -/
  body : List Value → NativeReply
  /-- What an asynchronous function does as soon as a call of it is awaited. -/
  starts : List Value → NativeEffect := fun _ => {}
  /-- What an asynchronous function does at each poll that leaves its call pending. -/
  pauses : List Value → List NativeEffect := fun _ => []

namespace NativeFunction

/-- The type of a call. -/
def returns (f : NativeFunction) : Ty :=
  if f.isAsync then .future f.answers else f.answers

/-- The type of the function as a value. -/
def signature (f : NativeFunction) : Ty :=
  .fn (f.params.map (·.2)) f.returns f.variadic

/-- A one-line description. -/
def summary (f : NativeFunction) : String :=
  "FunctionDef \x7b name: " ++ Text.quoted f.name ++ ", signature: "
    ++ Text.quoted f.signature.display ++ " \x7d"

end NativeFunction

/-- A constant of a module. -/
structure Constant where
  name : String
  type : Ty
  value : Value
  doc : String := ""
  deriving Inhabited

/-- A module. -/
structure ScriptModule where
  name : String
  version : String := "1.0"
  description : String := ""
  /-- The names of the modules it needs. -/
  dependencies : List String := []
  functions : List NativeFunction := []
  constants : List Constant := []

namespace ScriptModule

/-- The first function of a name. -/
def function? (m : ScriptModule) (name : String) : Option NativeFunction :=
  m.functions.find? (·.name == name)

/-- The first constant of a name. -/
def constant? (m : ScriptModule) (name : String) : Option Constant :=
  m.constants.find? (·.name == name)

/-- The type of the member of a name; functions come before constants. -/
def typeOf? (m : ScriptModule) (name : String) : Option Ty :=
  match m.function? name with
  | some f => some f.signature
  | none => (m.constant? name).map (·.type)

/-- The value of the member of a name; functions come before constants. -/
def member? (m : ScriptModule) (name : String) : Option Value :=
  match m.function? name with
  | some _ => some (.native ⟨m.name, name⟩)
  | none => (m.constant? name).map (·.value)

/-- The names of the members, functions first. -/
def names (m : ScriptModule) : List String :=
  m.functions.map (·.name) ++ m.constants.map (·.name)

/-- The reference to a module. -/
def ref (m : ScriptModule) : Reference :=
  ⟨m.name, m.version, m.dependencies⟩

/-- A name has a type as a member exactly when it has a value as a member. -/
theorem isSome_member? (m : ScriptModule) (name : String) :
    (m.member? name).isSome = (m.typeOf? name).isSome := by
  unfold member? typeOf?
  cases m.function? name <;> simp

end ScriptModule

end ScriptShell
