import ScriptShell.Grammar.Match

/-! # The grammar of scripts

A fragment is a sequence of statements. A statement ends at a semicolon or simply where the next one
begins; whether the last one ends with a semicolon decides whether its value is shown. -/

namespace ScriptShell

/-- The rules of the grammar, in the order in which expectations are listed. -/
inductive Rule where
  | endOfInput
  | program | statement | terminator
  | identChar
  | kwLet | kwFn | kwUse | kwIf | kwElse | kwWhile | kwAwait
  | keyword | identifier
  | loadStmt | bareTarget | useStmt | fnDecl | params | letStmt | ifStmt | elseClause | whileStmt
  | block | assignStmt | exprStmt
  | expression | orExpr | andExpr | cmpExpr | addExpr | mulExpr | unary | postfixExpr
  | member | call | primary
  | number | string | stringInner | boolean | nullLit | list
  | opOr | opAnd | opLte | opGte | opEq | opNe | opLt | opGt
  | opAdd | opSub | opMul | opDiv | opMod | opNeg | opNot | opAwait
  deriving DecidableEq, Repr, Inhabited

namespace Rule

/-- Every rule, in the order in which expectations are listed. -/
def all : List Rule :=
  [.endOfInput, .program, .statement, .terminator, .identChar,
   .kwLet, .kwFn, .kwUse, .kwIf, .kwElse, .kwWhile, .kwAwait, .keyword, .identifier,
   .loadStmt, .bareTarget, .useStmt, .fnDecl, .params, .letStmt, .ifStmt, .elseClause, .whileStmt,
   .block, .assignStmt, .exprStmt,
   .expression, .orExpr, .andExpr, .cmpExpr, .addExpr, .mulExpr, .unary, .postfixExpr,
   .member, .call, .primary, .number, .string, .stringInner, .boolean, .nullLit, .list,
   .opOr, .opAnd, .opLte, .opGte, .opEq, .opNe, .opLt, .opGt,
   .opAdd, .opSub, .opMul, .opDiv, .opMod, .opNeg, .opNot, .opAwait]

/-- How a rule is called when it is what was expected. -/
def describe : Rule → String
  | .endOfInput => "end of input"
  | .program => "program"
  | .statement => "statement"
  | .terminator => "';'"
  | .identChar => "ident_char"
  | .kwLet => "kw_let"
  | .kwFn => "kw_fn"
  | .kwUse => "kw_use"
  | .kwIf => "kw_if"
  | .kwElse => "kw_else"
  | .kwWhile => "kw_while"
  | .kwAwait => "kw_await"
  | .keyword => "keyword"
  | .identifier => "identifier"
  | .loadStmt => "load_stmt"
  | .bareTarget => "bare_target"
  | .useStmt => "use_stmt"
  | .fnDecl => "fn_decl"
  | .params => "params"
  | .letStmt => "let_stmt"
  | .ifStmt => "if_stmt"
  | .elseClause => "else_clause"
  | .whileStmt => "while_stmt"
  | .block => "'\x7b'"
  | .assignStmt => "assign_stmt"
  | .exprStmt => "expr_stmt"
  | .expression | .orExpr | .unary | .postfixExpr => "expression"
  | .andExpr => "and_expr"
  | .cmpExpr => "cmp_expr"
  | .addExpr => "add_expr"
  | .mulExpr => "mul_expr"
  | .member => "member"
  | .call => "call"
  | .primary => "primary"
  | .number => "number"
  | .string => "string"
  | .stringInner => "string_inner"
  | .boolean => "boolean"
  | .nullLit => "null_lit"
  | .list => "list"
  | .opOr => "op_or"
  | .opAnd => "op_and"
  | .opLte => "op_lte"
  | .opGte => "op_gte"
  | .opEq => "op_eq"
  | .opNe => "op_ne"
  | .opLt => "op_lt"
  | .opGt => "op_gt"
  | .opAdd => "op_add"
  | .opSub => "op_sub"
  | .opMul => "op_mul"
  | .opDiv => "op_div"
  | .opMod => "op_mod"
  | .opNeg => "op_neg"
  | .opNot => "op_not"
  | .opAwait => "op_await"

/-- What a rule makes of its text. -/
def kind : Rule → Grammar.RuleKind
  | .identChar | .primary => .silent
  | .kwLet | .kwFn | .kwUse | .kwIf | .kwElse | .kwWhile | .kwAwait | .keyword | .identifier
  | .bareTarget | .number | .stringInner | .boolean | .nullLit => .token
  | .loadStmt | .string => .solid
  | _ => .phrase

open Grammar (Pattern)
open Grammar.Pattern (lit here plus oneOf inOrder char seq alt opt star ahead notAhead rule)

/-- A word that no identifier character follows. -/
def word (text : String) : Pattern Rule :=
  seq (lit text) (notAhead (rule .identChar))

/-- A keyword that starts a statement or a clause, and then its letters. -/
def opening (kw : Rule) (text : String) (parts : List (Pattern Rule)) : Pattern Rule :=
  inOrder (ahead (rule kw)) (lit text :: parts)

/-- Operands with operators between them. -/
def chain (operand : Rule) (operator : Pattern Rule) : Pattern Rule :=
  seq (rule operand) (star (seq operator (rule operand)))

/-- Items between brackets, with commas between them. -/
def bracketed (left : String) (item : Rule) (right : String) : Pattern Rule :=
  inOrder (lit left) [opt (seq (rule item) (star (seq (lit ",") (rule item)))), lit right]

/-- The pattern of each rule. -/
def pattern : Rule → Pattern Rule
  | .endOfInput => .atEnd
  | .program => inOrder here [star (rule .statement), rule .endOfInput]
  | .statement =>
    seq
      (oneOf (rule .loadStmt)
        [rule .useStmt, rule .fnDecl, rule .letStmt, rule .ifStmt, rule .whileStmt,
         rule .assignStmt, rule .exprStmt])
      (opt (rule .terminator))
  | .terminator => lit ";"
  | .identChar => alt (char Char.isAlphanum) (lit "_")
  | .kwLet => word "let"
  | .kwFn => word "fn"
  | .kwUse => word "use"
  | .kwIf => word "if"
  | .kwElse => word "else"
  | .kwWhile => word "while"
  | .kwAwait => word "await"
  | .keyword =>
    seq
      (oneOf (lit "let")
        [lit "fn", lit "use", lit "if", lit "else", lit "while", lit "await", lit "true",
         lit "false", lit "null"])
      (notAhead (rule .identChar))
  | .identifier =>
    inOrder (notAhead (rule .keyword)) [alt (char Char.isAlpha) (lit "_"), star (rule .identChar)]
  | .loadStmt =>
    inOrder (lit "#load") [plus (alt (lit " ") (lit "\t")), alt (rule .string) (rule .bareTarget)]
  | .bareTarget => plus (oneOf (char Char.isAlphanum) [lit "_", lit ".", lit "/", lit "-"])
  | .useStmt => opening .kwUse "use" [rule .identifier]
  | .fnDecl =>
    opening .kwFn "fn" [rule .identifier, rule .params, lit "=", rule .expression]
  | .params => bracketed "(" .identifier ")"
  | .letStmt => opening .kwLet "let" [rule .identifier, lit "=", rule .expression]
  | .ifStmt => opening .kwIf "if" [rule .expression, rule .block, opt (rule .elseClause)]
  | .elseClause => opening .kwElse "else" [alt (rule .ifStmt) (rule .block)]
  | .whileStmt => opening .kwWhile "while" [rule .expression, rule .block]
  | .block => inOrder (lit "\x7b") [star (rule .statement), lit "\x7d"]
  | .assignStmt => inOrder (rule .identifier) [lit "=", notAhead (lit "="), rule .expression]
  | .exprStmt => rule .expression
  | .expression => rule .orExpr
  | .orExpr => chain .andExpr (rule .opOr)
  | .andExpr => chain .cmpExpr (rule .opAnd)
  | .cmpExpr =>
    chain .addExpr
      (oneOf (rule .opLte)
        [rule .opGte, rule .opEq, rule .opNe, rule .opLt, rule .opGt])
  | .addExpr => chain .mulExpr (alt (rule .opAdd) (rule .opSub))
  | .mulExpr => chain .unary (oneOf (rule .opMul) [rule .opDiv, rule .opMod])
  | .unary =>
    seq (star (oneOf (rule .opNeg) [rule .opNot, rule .opAwait])) (rule .postfixExpr)
  | .postfixExpr => seq (rule .primary) (star (alt (rule .member) (rule .call)))
  | .member => seq (lit ".") (rule .identifier)
  | .call => bracketed "(" .expression ")"
  | .primary =>
    oneOf (rule .number)
      [rule .string, rule .boolean, rule .nullLit, rule .list, rule .identifier,
       inOrder (lit "(") [rule .expression, lit ")"]]
  | .number =>
    seq (plus (char Char.isDigit)) (opt (seq (lit ".") (plus (char Char.isDigit))))
  | .string => inOrder (lit "\"") [rule .stringInner, lit "\""]
  | .stringInner =>
    star (alt
      (seq (notAhead (alt (lit "\"") (lit "\\"))) (char fun _ => true))
      (seq (lit "\\") (char fun _ => true)))
  | .boolean => seq (alt (lit "true") (lit "false")) (notAhead (rule .identChar))
  | .nullLit => word "null"
  | .list => bracketed "[" .expression "]"
  | .opOr => lit "||"
  | .opAnd => lit "&&"
  | .opLte => lit "<="
  | .opGte => lit ">="
  | .opEq => lit "=="
  | .opNe => lit "!="
  | .opLt => lit "<"
  | .opGt => lit ">"
  | .opAdd => lit "+"
  | .opSub => lit "-"
  | .opMul => lit "*"
  | .opDiv => lit "/"
  | .opMod => lit "%"
  | .opNeg => lit "-"
  | .opNot => seq (lit "!") (notAhead (lit "="))
  | .opAwait => seq (ahead (rule .kwAwait)) (lit "await")

end Rule

/-- The grammar of scripts: spaces, tabs and line ends between the parts of a phrase, comments from
two slashes to the end of the line. -/
def scriptGrammar : Grammar Rule where
  rules := Rule.all
  kind := Rule.kind
  pattern := Rule.pattern
  isBlank c := c == ' ' || c == '\t' || c == '\r' || c == '\n'
  commentMark := ['/', '/']

end ScriptShell
