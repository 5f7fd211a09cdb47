/-! # Lines and pieces

Cutting a text at line ends and at separator characters. `lines` treats a line feed, and a carriage
return before it, as the end of a line; `pieces` cuts at every character of a class and keeps empty
pieces. -/

namespace ScriptShell.Text

/-- The parts of a text between the characters that satisfy `cut`; there is always at least one. -/
def pieces (cut : Char → Bool) : List Char → List (List Char)
  | [] => [[]]
  | c :: text =>
    if cut c then [] :: pieces cut text
    else
      match pieces cut text with
      | [] => [[c]]
      | piece :: more => (c :: piece) :: more

/-- Removes a carriage return from the end of a line. -/
def dropReturn (line : List Char) : List Char :=
  if line.getLast? = some '\r' then line.dropLast else line

/-- Lines ended by a line feed lose it and a carriage return before it; what follows the last line
feed is a line only when it is not empty. -/
def closeLines : List (List Char) → List (List Char)
  | [] => []
  | [last] => if last.isEmpty then [] else [last]
  | line :: next :: more => dropReturn line :: closeLines (next :: more)

/-- The lines of a text, without their ends. -/
def lines (text : List Char) : List (List Char) :=
  closeLines (pieces (· == '\n') text)

/-- The first line of a text, empty when it has none. -/
def firstLine (text : String) : String :=
  String.ofList ((lines text.toList).head?.getD [])

/-- Pads with spaces on the right up to `width` characters. -/
def padRight (width : Nat) (text : String) : String :=
  text ++ String.ofList (List.replicate (width - text.length) ' ')

/-- A text followed by a line end. -/
def asLine (text : String) : String :=
  text ++ "\n"

/-- Every text has a first piece. -/
theorem pieces_ne_nil (cut : Char → Bool) (text : List Char) : pieces cut text ≠ [] := by
  induction text with
  | nil => simp [pieces]
  | cons c text ih =>
    by_cases h : cut c
    · simp [pieces, h]
    · cases rest : pieces cut text <;> simp [pieces, h, rest]

end ScriptShell.Text
