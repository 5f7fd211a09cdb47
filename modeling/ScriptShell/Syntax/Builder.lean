import ScriptShell.Syntax.Ast
import ScriptShell.Syntax.Grammar
import ScriptShell.Number.Decimal

/-! # From parse trees to syntax trees

`Expr.ofTree` and `Stmt.ofTree` read syntax trees off parse trees. Chains of operators become
left-deep trees, prefix operators and suffixes wrap what they apply to, and nesting deeper than
`nestingLimit` levels is refused. -/

namespace ScriptShell

open Grammar (ParseTree)

/-- Why a text is not a fragment. -/
inductive SyntaxError where
  /-- The text does not match the grammar; what was expected, and where. -/
  | unexpected (expected : List Rule) (line col : Nat)
  /-- Expressions or blocks are nested too deeply. -/
  | tooDeep (span : Span)
  /-- A parse tree has a shape that the grammar does not produce. -/
  | malformed (rule : Rule) (span : Span)
  /-- The text is a fragment, but not a single expression. -/
  | notExpression
  deriving DecidableEq, Repr, Inhabited

/-- Deepest nesting of expressions and blocks. -/
def nestingLimit : Nat := 128

/-! ## Leaves -/

/-- The text of a string literal between its quotes: a backslash makes `n`, `t` and `r` a control
and any other character stand for itself. -/
def readEscapes : List Char → List Char
  | '\\' :: 'n' :: rest => '\n' :: readEscapes rest
  | '\\' :: 't' :: rest => '\t' :: readEscapes rest
  | '\\' :: 'r' :: rest => '\r' :: readEscapes rest
  | '\\' :: c :: rest => c :: readEscapes rest
  | c :: rest => c :: readEscapes rest
  | [] => []

/-- Digits, at least one. -/
def isDigits (text : List Char) : Bool :=
  !text.isEmpty && text.all Char.isDigit

/-- Numerals: digits, maybe with a point and more digits after them. -/
def isNumeral (text : List Char) : Bool :=
  isDigits (text.takeWhile Char.isDigit) &&
    match text.dropWhile Char.isDigit with
    | [] => true
    | x :: decimals => x == '.' && isDigits decimals

/-- The double nearest to a number literal. -/
def numberOf (text : List Char) : Float :=
  let whole := text.takeWhile Char.isDigit
  let fraction := (text.dropWhile Char.isDigit).drop 1
  Decimal.toFloat false (Decimal.ofDigits whole fraction)

/-- The value of a numeral; no other text has one. -/
def numberOf? (text : List Char) : Option Float :=
  if isNumeral text then some (numberOf text) else none

/-- The operator of a rule between two operands. -/
def Rule.binaryOp? : Rule → Option BinaryOp
  | .opOr => some .or
  | .opAnd => some .and
  | .opLte => some .lte
  | .opGte => some .gte
  | .opEq => some .eq
  | .opNe => some .ne
  | .opLt => some .lt
  | .opGt => some .gt
  | .opAdd => some .add
  | .opSub => some .sub
  | .opMul => some .mul
  | .opDiv => some .div
  | .opMod => some .mod
  | _ => none

/-- The operator of a rule before an operand. -/
def Rule.unaryOp? : Rule → Option UnaryOp
  | .opNeg => some .neg
  | .opNot => some .not
  | .opAwait => some .await
  | _ => none

/-- Applies prefix operators, the innermost first. -/
def Expr.wrap (e : Expr) (ops : List (UnaryOp × Span)) : Expr :=
  ops.foldl (fun e (op, span) => .unary op e (span.merge e.span)) e

/-! ## Expressions -/

mutual

/-- The expression of a parse tree, below `depth` levels of expressions, operators and blocks. -/
def Expr.ofTree (t : ParseTree Rule) (depth : Nat) : Except SyntaxError Expr :=
  if nestingLimit < depth then .error (.tooDeep t.span)
  else
    match t with
    | .phrase .expression _ [inner] => Expr.ofTree inner (depth + 1)
    | .phrase .orExpr span parts => Expr.ofChain span parts depth
    | .phrase .andExpr span parts => Expr.ofChain span parts depth
    | .phrase .cmpExpr span parts => Expr.ofChain span parts depth
    | .phrase .addExpr span parts => Expr.ofChain span parts depth
    | .phrase .mulExpr span parts => Expr.ofChain span parts depth
    | .phrase .unary span parts => Expr.ofPrefixed span [] parts depth
    | .phrase .postfixExpr _ (first :: suffixes) => do
      let inner := depth + suffixes.length
      let e ← Expr.ofTree first inner
      Expr.ofSuffixes e suffixes inner
    | .token .number span text =>
      match numberOf? text with
      | some value => .ok (.num value span)
      | none => .error (.malformed .number span)
    | .phrase .string span [.token .stringInner _ text] =>
      .ok (.str (String.ofList (readEscapes text)) span)
    | .token .boolean span text => .ok (.bool (text == "true".toList) span)
    | .token .nullLit span _ => .ok (.null span)
    | .phrase .list span items => do
      let items ← Expr.ofTrees items (depth + 1)
      return .list items span
    | .token .identifier span text => .ok (.ident (String.ofList text) span)
    | t => .error (.malformed t.rule t.span)

/-- The expressions of several parse trees. -/
def Expr.ofTrees : List (ParseTree Rule) → (depth : Nat) → Except SyntaxError (List Expr)
  | [], _ => .ok []
  | t :: rest, depth => do
    let e ← Expr.ofTree t depth
    let es ← Expr.ofTrees rest depth
    return e :: es

/-- The expression of a chain of operators, which counts one level for each of them. -/
def Expr.ofChain (span : Span) : List (ParseTree Rule) → (depth : Nat) → Except SyntaxError Expr
  | [], _ => .error (.malformed .expression span)
  | first :: rest, depth =>
    let operators := (rest.length + 1) / 2
    if nestingLimit < depth + operators then .error (.tooDeep span)
    else do
      let left ← Expr.ofTree first (depth + operators)
      Expr.ofOperators left rest (depth + operators)

/-- Applies the operators of a chain from left to right. -/
def Expr.ofOperators (left : Expr) : List (ParseTree Rule) → (depth : Nat) → Except SyntaxError Expr
  | [], _ => .ok left
  | operator :: operand :: rest, depth =>
    match operator.rule.binaryOp? with
    | none => .error (.malformed operator.rule operator.span)
    | some op => do
      let right ← Expr.ofTree operand depth
      Expr.ofOperators (.binary op left right (left.span.merge right.span)) rest depth
  | [operator], _ => .error (.malformed operator.rule operator.span)

/-- The expression of an operand after prefix operators, of which `ops` were read, the last one
first. -/
def Expr.ofPrefixed (span : Span) (ops : List (UnaryOp × Span)) :
    List (ParseTree Rule) → (depth : Nat) → Except SyntaxError Expr
  | [], _ => .error (.malformed .unary span)
  | t :: rest, depth =>
    match t.rule.unaryOp? with
    | some op => Expr.ofPrefixed span ((op, t.span) :: ops) rest depth
    | none =>
      if rest.isEmpty then do
        let e ← Expr.ofTree t (depth + ops.length)
        return e.wrap ops
      else .error (.malformed .unary span)

/-- Applies member accesses and calls from left to right. -/
def Expr.ofSuffixes (e : Expr) : List (ParseTree Rule) → (depth : Nat) → Except SyntaxError Expr
  | [], _ => .ok e
  | .phrase .member span [.token .identifier _ name] :: rest, depth =>
    Expr.ofSuffixes (.member e (String.ofList name) (e.span.merge span)) rest depth
  | .phrase .call span args :: rest, depth => do
    let args ← Expr.ofTrees args depth
    Expr.ofSuffixes (.call e args (e.span.merge span)) rest depth
  | suffix :: _, _ => .error (.malformed suffix.rule suffix.span)

end

/-! ## Statements -/

/-- The names of parameters. -/
def paramNames (parts : List (ParseTree Rule)) : List String :=
  parts.map fun t => String.ofList t.text

mutual

/-- The statement of a parse tree, below `depth` levels of blocks. -/
def Stmt.ofTree (t : ParseTree Rule) (depth : Nat) : Except SyntaxError Stmt :=
  if nestingLimit < depth then .error (.tooDeep t.span)
  else
    match t with
    | .phrase .statement _ (body :: ending) => Stmt.ofBody body (!ending.isEmpty) depth
    | t => .error (.malformed t.rule t.span)

/-- The statement of a parse tree without its terminator. -/
def Stmt.ofBody (t : ParseTree Rule) (terminated : Bool) (depth : Nat) : Except SyntaxError Stmt :=
  match t with
  | .phrase .loadStmt span [.phrase .string _ [.token .stringInner _ text]] =>
    .ok (.load (String.ofList (readEscapes text)) span)
  | .phrase .loadStmt span [.token .bareTarget _ text] => .ok (.load (String.ofList text) span)
  | .phrase .useStmt span [.token .identifier _ name] => .ok (.use (String.ofList name) span)
  | .phrase .fnDecl span [.token .identifier _ name, .phrase .params _ params, body] => do
    let body ← Expr.ofTree body depth
    return .define (String.ofList name) (paramNames params) body span
  | .phrase .letStmt span [.token .identifier _ name, value] => do
    let value ← Expr.ofTree value depth
    return .bind (String.ofList name) value span
  | .phrase .assignStmt span [.token .identifier _ name, value] => do
    let value ← Expr.ofTree value depth
    return .assign (String.ofList name) value span
  | .phrase .exprStmt span [expr] => do
    let expr ← Expr.ofTree expr depth
    return .eval expr terminated span
  | .phrase .whileStmt span [test, .phrase .block _ body] => do
    let test ← Expr.ofTree test depth
    let body ← Stmt.ofTrees body (depth + 1)
    return .loop test body span
  | .phrase .ifStmt span [test, .phrase .block _ onTrue] =>
    if nestingLimit < depth then .error (.tooDeep span)
    else do
      let test ← Expr.ofTree test depth
      let onTrue ← Stmt.ofTrees onTrue (depth + 1)
      return .branch test onTrue none span
  | .phrase .ifStmt span
      [test, .phrase .block _ onTrue, .phrase .elseClause _ [.phrase .block _ onFalse]] =>
    if nestingLimit < depth then .error (.tooDeep span)
    else do
      let test ← Expr.ofTree test depth
      let onTrue ← Stmt.ofTrees onTrue (depth + 1)
      let onFalse ← Stmt.ofTrees onFalse (depth + 1)
      return .branch test onTrue (some onFalse) span
  | .phrase .ifStmt span [test, .phrase .block _ onTrue, .phrase .elseClause _ [next]] =>
    if nestingLimit < depth then .error (.tooDeep span)
    else do
      let test ← Expr.ofTree test depth
      let onTrue ← Stmt.ofTrees onTrue (depth + 1)
      let onFalse ← Stmt.ofBody next false (depth + 1)
      return .branch test onTrue (some [onFalse]) span
  | t => .error (.malformed t.rule t.span)

/-- The statements of several parse trees. -/
def Stmt.ofTrees : List (ParseTree Rule) → (depth : Nat) → Except SyntaxError (List Stmt)
  | [], _ => .ok []
  | t :: rest, depth => do
    let s ← Stmt.ofTree t depth
    let ss ← Stmt.ofTrees rest depth
    return s :: ss

end

end ScriptShell
