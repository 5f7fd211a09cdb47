import ScriptShell.Syntax.Ast
import ScriptShell.Json.Basic

/-! # Syntax trees as data

Every node becomes an object whose field `t` names the form of the node, followed by its parts in
order and its place in the source. A place that is all zeros is left out. -/

namespace ScriptShell

/-- A place in the source as data. -/
def Span.toJson (span : Span) : Json :=
  .obj [("start", .nat span.start), ("end", .nat span.stop), ("line", .nat span.line),
        ("col", .nat span.col)]

/-- A node of a syntax tree as data. -/
def nodeToJson (form : String) (parts : List (String × Json)) (span : Span) : Json :=
  .obj (("t", .str form) :: parts ++ if span = {} then [] else [("span", span.toJson)])

/-- The name of an operator between two operands. -/
def BinaryOp.name : BinaryOp → String
  | .add => "Add"
  | .sub => "Sub"
  | .mul => "Mul"
  | .div => "Div"
  | .mod => "Mod"
  | .eq => "Eq"
  | .ne => "Ne"
  | .lt => "Lt"
  | .lte => "Lte"
  | .gt => "Gt"
  | .gte => "Gte"
  | .and => "And"
  | .or => "Or"

/-- The name of an operator before an operand. -/
def UnaryOp.name : UnaryOp → String
  | .neg => "Neg"
  | .not => "Not"
  | .await => "Await"

/-- A number as data; one without a data form is null. -/
def Json.number (x : Float) : Json :=
  if x.isFinite then .float x else .null

mutual

/-- An expression as data. -/
def Expr.toJson : Expr → Json
  | .num value span => nodeToJson "Num" [("value", .number value)] span
  | .str value span => nodeToJson "Str" [("value", .str value)] span
  | .bool value span => nodeToJson "Bool" [("value", .bool value)] span
  | .null span => nodeToJson "Null" [] span
  | .list items span => nodeToJson "List" [("items", .arr (Expr.listToJson items))] span
  | .ident name span => nodeToJson "Ident" [("name", .str name)] span
  | .member object property span =>
    nodeToJson "Member" [("object", object.toJson), ("property", .str property)] span
  | .call callee args span =>
    nodeToJson "Call" [("callee", callee.toJson), ("args", .arr (Expr.listToJson args))] span
  | .unary op operand span =>
    nodeToJson "Unary" [("op", .str op.name), ("operand", operand.toJson)] span
  | .binary op left right span =>
    nodeToJson "Binary"
      [("op", .str op.name), ("left", left.toJson), ("right", right.toJson)] span

/-- Expressions as data. -/
def Expr.listToJson : List Expr → List Json
  | [] => []
  | e :: rest => e.toJson :: Expr.listToJson rest

end

mutual

/-- A statement as data. -/
def Stmt.toJson : Stmt → Json
  | .load target span => nodeToJson "Load" [("target", .str target)] span
  | .use module span => nodeToJson "Use" [("module", .str module)] span
  | .define name params body span =>
    nodeToJson "Fn"
      [("name", .str name), ("params", .strings params), ("body", body.toJson)] span
  | .bind name value span =>
    nodeToJson "Let" [("name", .str name), ("value", value.toJson)] span
  | .assign name value span =>
    nodeToJson "Assign" [("name", .str name), ("value", value.toJson)] span
  | .branch test onTrue none span =>
    nodeToJson "If"
      [("test", test.toJson), ("then_b", .arr (Stmt.listToJson onTrue)), ("else_b", .null)] span
  | .branch test onTrue (some onFalse) span =>
    nodeToJson "If"
      [("test", test.toJson), ("then_b", .arr (Stmt.listToJson onTrue)),
       ("else_b", .arr (Stmt.listToJson onFalse))] span
  | .loop test body span =>
    nodeToJson "While" [("test", test.toJson), ("body", .arr (Stmt.listToJson body))] span
  | .eval expr terminated span =>
    nodeToJson "Expr" [("expr", expr.toJson), ("terminated", .bool terminated)] span

/-- Statements as data. -/
def Stmt.listToJson : List Stmt → List Json
  | [] => []
  | s :: rest => s.toJson :: Stmt.listToJson rest

end

end ScriptShell
