import ScriptShell.Syntax.Builder
import ScriptShell.Fault

/-! # Reading fragments

`parse` reads the statements of a fragment and `parseExpression` a fragment that is a single
expression. -/

namespace ScriptShell

namespace SyntaxError

/-- The written form of a syntax error. -/
def message : SyntaxError → String
  | .unexpected [] _ _ => "syntax error"
  | .unexpected expected _ _ =>
    "syntax error, expected " ++ " or ".intercalate (expected.map Rule.describe)
  | .tooDeep _ => "fragment nests too deeply (limit " ++ toString nestingLimit ++ ")"
  | .malformed rule _ => "malformed " ++ rule.describe
  | .notExpression => "Expected a single expression"

/-- Where a syntax error is, when it has a place. -/
def span? : SyntaxError → Option Span
  | .unexpected _ line col => some ⟨0, 0, line, col⟩
  | .tooDeep span | .malformed _ span => some span
  | .notExpression => none

/-- A syntax error as a diagnostic; without a place it is at the start. -/
def diagnostic (e : SyntaxError) : Diagnostic :=
  let span := e.span?.getD {}
  ⟨e.message, span.line, span.col⟩

end SyntaxError

/-- The point of a text that an offset names: the first one with that many bytes before it. -/
def positionOf (offset : Nat) : Position → List Char → Position
  | p, [] => p
  | p, c :: rest => if offset ≤ p.offset then p else positionOf offset (p.advance c) rest

/-- The statements among the parts of a program. -/
def statementsOf (parts : List (Grammar.ParseTree Rule)) : List (Grammar.ParseTree Rule) :=
  parts.filter fun t => t.rule = .statement

/-- Reads the statements of a fragment given as characters. -/
def parseChars (text : List Char) : Except SyntaxError (List Stmt) :=
  match scriptGrammar.match? .program text with
  | .error unexpected =>
    let place := positionOf unexpected.offset {} text
    .error (.unexpected unexpected.expected place.line place.col)
  | .ok [.phrase .program _ parts] => Stmt.ofTrees (statementsOf parts) 0
  | .ok _ => .error (.malformed .program {})

/-- Reads the statements of a fragment. -/
def parse (text : String) : Except SyntaxError (List Stmt) :=
  parseChars text.toList

/-- Reads a fragment that is a single expression. -/
def parseExpression (text : String) : Except SyntaxError Expr := do
  match ← parse text with
  | [.eval expr _ _] => return expr
  | _ => throw .notExpression

end ScriptShell
