import ScriptShell.Syntax.Span
import ScriptShell.Text.CharClass

/-! # Grammars

A grammar names its rules and gives each one a pattern. Patterns are matched at the front of a text
by ordered choice: the first alternative that matches is taken, and repetition takes as much as it
can. Between the parts of a sequence and between repetitions, blanks and comments are skipped,
except in rules that say otherwise.

The engine that matches the grammar of scripts is a library. What is said of it here, in `Match` and
in `Attempts` follows what it documents: its text is not part of what is modelled, so that it does
behave like this is taken on trust. -/

namespace ScriptShell.Grammar

/-- Patterns over the rules `ρ`. -/
inductive Pattern (ρ : Type) where
  /-- These characters, in this order. -/
  | text (chars : List Char)
  /-- One character of a class. -/
  | char (allowed : Char → Bool)
  /-- Both, one after the other. -/
  | seq (first second : Pattern ρ)
  /-- The first, or else the second. -/
  | alt (first second : Pattern ρ)
  /-- The pattern, or nothing. -/
  | opt (pattern : Pattern ρ)
  /-- The pattern as often as it matches. -/
  | star (pattern : Pattern ρ)
  /-- Nothing, provided the pattern matches here. -/
  | ahead (pattern : Pattern ρ)
  /-- Nothing, provided the pattern does not match here. -/
  | notAhead (pattern : Pattern ρ)
  /-- The end of the text. -/
  | atEnd
  /-- The pattern of a rule. -/
  | rule (name : ρ)

namespace Pattern

variable {ρ : Type}

/-- A literal text. -/
def lit (text : String) : Pattern ρ :=
  .text text.toList

/-- The start of a text, or of a part of it: nothing. -/
def here : Pattern ρ :=
  .text []

/-- The pattern once or more. -/
def plus (pattern : Pattern ρ) : Pattern ρ :=
  .seq pattern (.star pattern)

/-- The first of several patterns that matches. -/
def oneOf : Pattern ρ → List (Pattern ρ) → Pattern ρ
  | first, [] => first
  | first, next :: more => .alt first (oneOf next more)

/-- Several patterns one after the other. -/
def inOrder : Pattern ρ → List (Pattern ρ) → Pattern ρ
  | first, [] => first
  | first, next :: more => .seq first (inOrder next more)

end Pattern

/-- What a rule makes of the text it matches. -/
inductive RuleKind where
  /-- A phrase, with the phrases and tokens inside it; gaps are skipped. -/
  | phrase
  /-- A phrase inside which no gap is skipped. -/
  | solid
  /-- A token: its text counts, and no gap is skipped inside it. -/
  | token
  /-- Nothing of its own; what is inside it belongs to the rule around it. -/
  | silent
  deriving DecidableEq, Repr, Inhabited

end ScriptShell.Grammar

namespace ScriptShell

/-- A grammar over the rules `ρ`. -/
structure Grammar (ρ : Type) where
  /-- Every rule, in the order in which expectations are listed. -/
  rules : List ρ
  kind : ρ → Grammar.RuleKind
  pattern : ρ → Grammar.Pattern ρ
  /-- Characters that may stand between two parts of a phrase; the line feed is one of them. -/
  isBlank : Char → Bool
  /-- The text that starts a comment, which extends to the end of its line. -/
  commentMark : List Char

end ScriptShell
