/-! # Places in a source text

A `Position` is a point of a source text: how many bytes lie before it, on which line it is and at
which column. A `Span` is a stretch of the text between two points, with the line and column of the
first. -/

namespace ScriptShell

/-- A point of a text: bytes before it, line feeds before it, and characters since the last one. -/
structure Position where
  offset : Nat := 0
  line : Nat := 0
  col : Nat := 0
  deriving DecidableEq, Repr, Inhabited

/-- The point after a character. -/
def Position.advance (p : Position) (c : Char) : Position :=
  if c = '\n' then ⟨p.offset + c.utf8Size, p.line + 1, 0⟩
  else ⟨p.offset + c.utf8Size, p.line, p.col + 1⟩

/-- The point after some characters. -/
def Position.advanceAll (p : Position) (text : List Char) : Position :=
  text.foldl Position.advance p

/-- A stretch of a text by its first byte and the byte after its last, with the line and column
where it starts. -/
structure Span where
  start : Nat := 0
  stop : Nat := 0
  line : Nat := 0
  col : Nat := 0
  deriving DecidableEq, Repr, Inhabited

namespace Span

/-- The stretch between two points. -/
def between (first last : Position) : Span :=
  ⟨first.offset, last.offset, first.line, first.col⟩

/-- The least stretch that covers two; its place is that of the one that starts earlier. -/
def merge (a b : Span) : Span :=
  let first := if a.start ≤ b.start then a else b
  ⟨min a.start b.start, max a.stop b.stop, first.line, first.col⟩

end Span

end ScriptShell
