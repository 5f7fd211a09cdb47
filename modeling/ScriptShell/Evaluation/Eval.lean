import ScriptShell.Evaluation.Operator
import ScriptShell.Evaluation.Unit
import ScriptShell.Module.Catalog
import ScriptShell.Typing.Scope

/-! # Evaluating expressions

`Execution.eval` evaluates an expression. It recurs on the number of levels that may still be
opened, so that it ends on every expression, whatever functions call each other: a call opens a
level, and without levels left the run stops with an error. -/

namespace ScriptShell

/-- Values of names. -/
abbrev Environment := Dict Value

/-- What stays the same during a run: the modules there are, the unit that runs, and its arguments.
-/
structure Execution where
  catalog : Catalog
  unit : ScriptUnit
  args : List String := []

/-- How many levels of blocks and expressions a run may have open at once. -/
def maxOpenLevels : Nat := 1000

/-- The version that the runtime object tells. -/
def runtimeVersion : String := "0.1.0"

namespace Execution

/-! ## Names and members -/

/-- The object that describes the running unit. -/
def runtimeObject (s : Execution) : Value :=
  .obj [("submission", .num (Float.ofNat s.unit.id)), ("version", .str runtimeVersion)]

/-- The values of the names that are always there. -/
def builtin? (s : Execution) (name : String) : Option Value :=
  if name = argsName then some (.list (s.args.map .str))
  else if name = runtimeName then some s.runtimeObject
  else none

/-- The value of a loaded module's name. -/
def module? (s : Execution) (name : String) : Option Value :=
  if name ∈ s.unit.program.modules then some (.module name) else none

/-- The value of a name as a member of the first import that has it. -/
def imported? (s : Execution) (name : String) : Option Value :=
  s.unit.program.imports.findSome? fun m => (s.catalog.get? m).bind (·.member? name)

/-- The value of a name: parameters first, then declared names, the names that are always there,
modules, and members of imported modules. -/
def lookup? (s : Execution) (env locals : Environment) (name : String) : Option Value :=
  (locals.get? name).or <| (env.get? name).or <| (s.builtin? name).or <|
    (s.module? name).or (s.imported? name)

/-- The value of a member of a module. -/
def memberValue (s : Execution) (module name : String) : Run Value :=
  match s.catalog.get? module with
  | none => Run.fail .unknownFunction ("unknown module '" ++ module ++ "'")
  | some m =>
    match m.member? name with
    | some value => pure value
    | none =>
      Run.fail .propertyNotFound ("module '" ++ module ++ "' has no member '" ++ name ++ "'")

/-- The value of a member of a value. -/
def memberOf (s : Execution) (object : Value) (property : String) : Run Value :=
  match object with
  | .module name => s.memberValue name property
  | .obj fields =>
    match fields.lookup property with
    | some value => pure value
    | none => Run.fail .propertyNotFound ("object has no property '" ++ property ++ "'")
  | other =>
    Run.fail .propertyNotFound (other.kind ++ " has no property '" ++ property ++ "'")

/-- The native function of a reference. -/
def native? (s : Execution) (ref : NativeId) : Option NativeFunction :=
  (s.catalog.get? ref.module).bind (·.function? ref.name)

/-! ## Calls -/

/-- Calls a native function; a call of an asynchronous one is pending until it is awaited. -/
def callNative (s : Execution) (ref : NativeId) (args : List Value) : Run Value :=
  match s.native? ref with
  | none => Run.fail .unknownFunction ("unknown function " ++ Value.nativeName ref)
  | some f => if f.isAsync then pure (.pending ref args) else Run.perform (f.body args)

/-- Calls a value, given how to evaluate the body of a function with its parameters bound. -/
def call (s : Execution) (evalBody : Environment → Expr → Run Value) (callee : Value)
    (args : List Value) : Run Value :=
  match callee with
  | .func ref =>
    match s.unit.function? ref.name ref.unit with
    | none => Run.fail .unknownFunction ("function '" ++ ref.name ++ "' is no longer defined")
    | some decl =>
      if decl.params.length = args.length then
        evalBody (Dict.ofList (decl.params.zip args)) decl.body
      else
        Run.fail .wrongArgCount (ref.name ++ "() expects " ++ toString decl.params.length
          ++ " argument(s), got " ++ toString args.length)
  | .native ref => s.callNative ref args
  | other => Run.fail .typeError (other.kind ++ " is not callable")

/-- Awaits a value: a pending call starts now and is polled until its reply is there, unless the run
is cancelled, and any other value is its own result. -/
def await (s : Execution) : Value → Run Value
  | .pending target args =>
    match (s.native? target).filter (·.isAsync) with
    | none => Run.fail .unknownFunction (Value.nativeName target ++ " is not asynchronous")
    | some f => do
      Run.note (f.starts args)
      Run.poll (f.body args) (f.pauses args)
  | value => pure value

/-! ## Expressions -/

/-- Takes up a result that may be an error. -/
def ofResult : Except RunError Value → Run Value
  | .ok value => pure value
  | .error error => throw (.failed error)

/-- Applies a prefix operator. -/
def applyUnary (s : Execution) (op : UnaryOp) (operand : Value) : Run Value :=
  match op, operand with
  | .neg, .num x => pure (.num (-x))
  | .neg, other => Run.fail .typeError ("operator '-' expects num, got " ++ other.kind)
  | .not, value => pure (.bool (!value.isTruthy))
  | .await, value => s.await value

/-- Evaluates expressions from left to right, given how to evaluate one. -/
def evalItems (eval : Expr → Run Value) : List Expr → Run (List Value)
  | [] => pure []
  | e :: rest => do
    let value ← eval e
    let values ← evalItems eval rest
    return value :: values

/-- Evaluates an expression, given how to evaluate the expressions one level below it. -/
def evalStep (s : Execution) (env : Environment) (eval : Environment → Expr → Run Value)
    (locals : Environment) : Expr → Run Value
  | .num x _ => pure (.num x)
  | .str text _ => pure (.str text)
  | .bool value _ => pure (.bool value)
  | .null _ => pure .null
  | .list items _ => do
    let values ← evalItems (eval locals) items
    return .list values
  | .ident name _ =>
    match s.lookup? env locals name with
    | some value => pure value
    | none => Run.fail .undefinedVariable ("undefined variable '" ++ name ++ "'")
  | .member object property _ => do
    let value ← eval locals object
    s.memberOf value property
  | .call callee args _ => do
    let function ← eval locals callee
    let values ← evalItems (eval locals) args
    s.call eval function values
  | .unary op operand _ => do
    let value ← eval locals operand
    s.applyUnary op value
  | .binary .and left right _ => do
    let l ← eval locals left
    if l.isTruthy then
      let r ← eval locals right
      return .bool r.isTruthy
    else return .bool false
  | .binary .or left right _ => do
    let l ← eval locals left
    if l.isTruthy then return .bool true
    else
      let r ← eval locals right
      return .bool r.isTruthy
  | .binary op left right _ => do
    let l ← eval locals left
    let r ← eval locals right
    ofResult (op.apply l r)

/-- Stops because too many levels are open. -/
def tooManyLevels {α : Type} : Run α :=
  Run.fail .recursionLimit
    ("evaluation nested deeper than " ++ toString maxOpenLevels ++ " levels")

/-- Evaluates an expression with at most `room` levels still to be opened. -/
def eval (s : Execution) (env : Environment) :
    (room : Nat) → (locals : Environment) → Expr → Run Value
  | 0 => fun _ _ => tooManyLevels
  | room + 1 => s.evalStep env (s.eval env room)

end Execution

end ScriptShell
