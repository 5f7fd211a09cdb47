import ScriptShell.Grammar.Pattern

/-! # Places while matching

A `Cursor` is a point of a source text together with the text that follows it. Moving it forward
keeps the two in step, and counts lines and columns as the grammar engine documents it. -/

namespace ScriptShell.Grammar

/-- A point of a text and what follows it. -/
structure Cursor where
  position : Position
  rest : List Char
  deriving DecidableEq, Repr, Inhabited

namespace Cursor

/-- The point before a text. -/
def start (text : List Char) : Cursor :=
  ⟨{}, text⟩

/-- Moves over the given characters, when they come next. -/
def text? (chars : List Char) (c : Cursor) : Option Cursor :=
  (Text.dropLead? chars c.rest).map fun rest => ⟨c.position.advanceAll chars, rest⟩

/-- Moves over one character, when it is of the given class. -/
def char? (allowed : Char → Bool) (c : Cursor) : Option Cursor :=
  match c.rest with
  | [] => none
  | x :: rest => if allowed x then some ⟨c.position.advance x, rest⟩ else none

/-- Moves over blanks and comments, starting inside a comment when `inComment`. A comment extends to
the end of its line, the line feed included. -/
def skipFrom {ρ : Type} (g : Grammar ρ) : (inComment : Bool) → Position → List Char → Cursor
  | _, p, [] => ⟨p, []⟩
  | true, p, x :: rest => skipFrom g (x != '\n') (p.advance x) rest
  | false, p, x :: rest =>
    if g.isBlank x then skipFrom g false (p.advance x) rest
    else if g.commentMark.isPrefixOf (x :: rest) then skipFrom g true (p.advance x) rest
    else ⟨p, x :: rest⟩

/-- Moves over blanks and comments. -/
def skipGap {ρ : Type} (g : Grammar ρ) (c : Cursor) : Cursor :=
  skipFrom g false c.position c.rest

/-- The characters between a point and a later one. -/
def textTo (first last : Cursor) : List Char :=
  first.rest.take (first.rest.length - last.rest.length)

end Cursor

end ScriptShell.Grammar
