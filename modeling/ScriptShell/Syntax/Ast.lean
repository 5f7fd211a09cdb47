import ScriptShell.Syntax.Span

/-! # Syntax trees

Expressions and statements of scripts. Every node carries the stretch of source text it was read
from. -/

namespace ScriptShell

/-- Operators between two operands. -/
inductive BinaryOp where
  | add | sub | mul | div | mod | eq | ne | lt | lte | gt | gte | and | or
  deriving DecidableEq, Repr, Inhabited

namespace BinaryOp

/-- How an operator is written. -/
def symbol : BinaryOp → String
  | .add => "+"
  | .sub => "-"
  | .mul => "*"
  | .div => "/"
  | .mod => "%"
  | .eq => "=="
  | .ne => "!="
  | .lt => "<"
  | .lte => "<="
  | .gt => ">"
  | .gte => ">="
  | .and => "&&"
  | .or => "||"

end BinaryOp

/-- Operators before an operand. -/
inductive UnaryOp where
  | neg | not | await
  deriving DecidableEq, Repr, Inhabited

/-- Expressions. -/
inductive Expr where
  | num (value : Float) (span : Span)
  | str (value : String) (span : Span)
  | bool (value : Bool) (span : Span)
  | null (span : Span)
  | list (items : List Expr) (span : Span)
  | ident (name : String) (span : Span)
  | member (object : Expr) (property : String) (span : Span)
  | call (callee : Expr) (args : List Expr) (span : Span)
  | unary (op : UnaryOp) (operand : Expr) (span : Span)
  | binary (op : BinaryOp) (left right : Expr) (span : Span)
  deriving Inhabited

/-- The source text of an expression. -/
def Expr.span : Expr → Span
  | .num _ span | .str _ span | .bool _ span | .null span | .list _ span | .ident _ span
  | .member _ _ span | .call _ _ span | .unary _ _ span | .binary _ _ _ span => span

/-- Statements. -/
inductive Stmt where
  /-- Binds a module to the session; it takes effect before the fragment is compiled. -/
  | load (target : String) (span : Span)
  /-- Brings the members of a module into scope. -/
  | use (module : String) (span : Span)
  /-- Declares a function. -/
  | define (name : String) (params : List String) (body : Expr) (span : Span)
  /-- Declares a name. -/
  | bind (name : String) (value : Expr) (span : Span)
  /-- Gives a name a value, declaring it when it is new. -/
  | assign (name : String) (value : Expr) (span : Span)
  | branch (test : Expr) (onTrue : List Stmt) (onFalse : Option (List Stmt)) (span : Span)
  | loop (test : Expr) (body : List Stmt) (span : Span)
  /-- Evaluates an expression; `terminated` when a semicolon follows it. -/
  | eval (expr : Expr) (terminated : Bool) (span : Span)
  deriving Inhabited

/-- The source text of a statement. -/
def Stmt.span : Stmt → Span
  | .load _ span | .use _ span | .define _ _ _ span | .bind _ _ span | .assign _ _ span
  | .branch _ _ _ span | .loop _ _ span | .eval _ _ span => span

end ScriptShell
