import ScriptShell.Typing.Scope
import ScriptShell.Syntax.Ast

/-! # Types of expressions

`Scope.infer` gives every expression a type and reports what is wrong with it. An expression that is
wrong still has a type, so that one problem does not hide the next. -/

namespace ScriptShell

/-- A type together with the problems found on the way to it, in the order of the source. -/
structure Typed where
  type : Ty
  problems : List Diagnostic := []

/-- A problem at a place. -/
def problemAt (span : Span) (message : String) : Diagnostic :=
  ⟨message, span.line, span.col⟩

namespace Typed

/-- What is typed must be a value: a type without values is a problem. -/
def asValue (t : Typed) (span : Span) : Typed :=
  if t.type.isVoid then ⟨.any, t.problems ++ [problemAt span "expression has no value"]⟩ else t

end Typed

/-- How a problem names what is called. -/
def Expr.calledAs : Expr → String
  | .ident name _ => name
  | .member object property _ => object.calledAs ++ "." ++ property
  | _ => "expression"

/-! ## Types of one step -/

namespace Scope

/-- Why a module's name cannot be used. -/
def unavailable (s : Scope) (name : String) : String :=
  if s.catalog.contains name then
    "module '" ++ name ++ "' is not loaded; add #load \"" ++ name ++ "\""
  else "unknown module '" ++ name ++ "'"

/-- The type of a name. -/
def typeOfName (s : Scope) (name : String) (span : Span) : Typed :=
  match s.typeOf? name with
  | some type => ⟨type, []⟩
  | none =>
    let message :=
      if s.catalog.contains name then s.unavailable name
      else "undefined variable '" ++ name ++ "'"
    ⟨.any, [problemAt span message]⟩

/-- The type of a member of something of a type. -/
def typeOfMember (s : Scope) (object : Ty) (property : String) (span : Span) : Typed :=
  match object with
  | .module name =>
    match (s.catalog.get? name).bind (·.typeOf? property) with
    | some type => ⟨type, []⟩
    | none =>
      ⟨.any, [problemAt span ("module '" ++ name ++ "' has no member '" ++ property ++ "'")]⟩
  | .any => ⟨.any, []⟩
  | other =>
    ⟨.any, [problemAt span ("type " ++ other.display ++ " has no member '" ++ property ++ "'")]⟩

end Scope

/-- The problems of arguments whose types do not fit, counted from `index`. -/
def argumentProblems (name : String) (span : Span) : (index : Nat) → List Ty → List Ty →
    List Diagnostic
  | index, expected :: params, actual :: args =>
    let rest := argumentProblems name span (index + 1) params args
    if expected.accepts actual then rest
    else
      problemAt span ("argument " ++ toString index ++ " of '" ++ name ++ "' expects "
        ++ expected.display ++ ", got " ++ actual.display) :: rest
  | _, _, _ => []

/-- The problem of a wrong number of arguments. -/
def countProblems (name : String) (span : Span) (params args : List Ty) (variadic : Bool) :
    List Diagnostic :=
  let fits := if variadic then params.length ≤ args.length else args.length = params.length
  if fits then []
  else
    [problemAt span ("'" ++ name ++ "' expects " ++ toString params.length ++ " argument(s), got "
      ++ toString args.length)]

/-- The type of a call of something of a type. -/
def typeOfCall (name : String) (callee : Ty) (args : List Ty) (span : Span) : Typed :=
  match callee with
  | .fn params returns variadic =>
    ⟨returns, countProblems name span params args variadic
      ++ argumentProblems name span 1 params args⟩
  | .any => ⟨.any, []⟩
  | other =>
    ⟨.any, [problemAt span ("'" ++ name ++ "' of type " ++ other.display ++ " is not callable")]⟩

/-- The type of a prefix operator applied to something of a type. -/
def typeOfUnary (op : UnaryOp) (operand : Ty) (span : Span) : Typed :=
  match op, operand with
  | .neg, operand =>
    if Ty.num.accepts operand then ⟨.num, []⟩
    else ⟨.num, [problemAt span ("operator '-' expects num, got " ++ operand.display)]⟩
  | .not, _ => ⟨.bool, []⟩
  | .await, .future item => ⟨item, []⟩
  | .await, .any => ⟨.any, []⟩
  | .await, other =>
    ⟨other, [problemAt span ("cannot await a value of type " ++ other.display)]⟩

/-- The problem of operands that an operator does not take. -/
def operandProblem (op : BinaryOp) (left right : Ty) (span : Span) : Diagnostic :=
  problemAt span ("operator '" ++ op.symbol ++ "' cannot be applied to " ++ left.display ++ " and "
    ++ right.display)

/-- The type of a sum, when there is one. -/
def typeOfSum? : Ty → Ty → Option Ty
  | .num, .num => some .num
  | .str, _ | _, .str => some .str
  | .list a, .list b => some (.list (a.join b))
  | .any, _ | _, .any => some .any
  | _, _ => none

/-- Whether values of two types are ordered. -/
def areOrdered : Ty → Ty → Bool
  | .num, .num | .str, .str | .any, _ | _, .any => true
  | _, _ => false

/-- The type of an operator between two operands of given types. -/
def typeOfBinary (op : BinaryOp) (left right : Ty) (span : Span) : Typed :=
  match op with
  | .eq | .ne | .and | .or => ⟨.bool, []⟩
  | .add =>
    match typeOfSum? left right with
    | some type => ⟨type, []⟩
    | none => ⟨.any, [operandProblem op left right span]⟩
  | .sub | .mul | .div | .mod =>
    if Ty.num.accepts left && Ty.num.accepts right then ⟨.num, []⟩
    else ⟨.num, [operandProblem op left right span]⟩
  | .lt | .lte | .gt | .gte =>
    if areOrdered left right then ⟨.bool, []⟩
    else ⟨.bool, [operandProblem op left right span]⟩

/-- The common type of list items; the items of an empty list may be anything. -/
def joinAll : List Ty → Ty
  | [] => .any
  | t :: ts => ts.foldl Ty.join t

/-! ## Types of whole expressions -/

namespace Scope

mutual

/-- The type of an expression. -/
def infer (s : Scope) : Expr → Typed
  | .num .. => ⟨.num, []⟩
  | .str .. => ⟨.str, []⟩
  | .bool .. => ⟨.bool, []⟩
  | .null _ => ⟨.null, []⟩
  | .list items _ =>
    let typed := inferAll s items
    ⟨.list (joinAll typed.1), typed.2⟩
  | .ident name span => s.typeOfName name span
  | .member object property span =>
    let inner := (infer s object).asValue object.span
    let outer := s.typeOfMember inner.type property span
    ⟨outer.type, inner.problems ++ outer.problems⟩
  | .call callee args span =>
    let function := (infer s callee).asValue callee.span
    let typed := inferAll s args
    let outer := typeOfCall callee.calledAs function.type typed.1 span
    ⟨outer.type, function.problems ++ typed.2 ++ outer.problems⟩
  | .unary op operand span =>
    let inner := (infer s operand).asValue operand.span
    let outer := typeOfUnary op inner.type span
    ⟨outer.type, inner.problems ++ outer.problems⟩
  | .binary op left right span =>
    let l := (infer s left).asValue left.span
    let r := (infer s right).asValue right.span
    let outer := typeOfBinary op l.type r.type span
    ⟨outer.type, l.problems ++ r.problems ++ outer.problems⟩

/-- The types of expressions that must be values, and all their problems. -/
def inferAll (s : Scope) : List Expr → List Ty × List Diagnostic
  | [] => ([], [])
  | e :: rest =>
    let first := (infer s e).asValue e.span
    let others := inferAll s rest
    (first.type :: others.1, first.problems ++ others.2)

end

end Scope

end ScriptShell
