import ScriptShell.Syntax.Span

/-! # Parse trees

What matching a text against a grammar yields: tokens with their text, and phrases with their parts,
as far as the grammar engine's documentation says which rules leave them. -/

namespace ScriptShell.Grammar

/-- Parse trees over the rules `ρ`. -/
inductive ParseTree (ρ : Type) where
  | token (rule : ρ) (span : Span) (text : List Char)
  | phrase (rule : ρ) (span : Span) (parts : List (ParseTree ρ))
  deriving Inhabited

namespace ParseTree

variable {ρ : Type}

/-- The source text of a tree. -/
def span : ParseTree ρ → Span
  | .token _ span _ | .phrase _ span _ => span

/-- The rule a tree was matched by. -/
def rule : ParseTree ρ → ρ
  | .token rule _ _ | .phrase rule _ _ => rule

/-- The text of a token; phrases have none of their own. -/
def text : ParseTree ρ → List Char
  | .token _ _ text => text
  | .phrase .. => []

end ParseTree

end ScriptShell.Grammar
