import ScriptShell.Number.Format
import ScriptShell.Dict

/-! # Data text

Structured data and its two written forms: compact on one line, and indented by two spaces. Objects
keep their fields in the order given; `Json.sorted` makes one with its fields by name. -/

namespace ScriptShell

/-- Structured data. Whole numbers are kept apart from doubles. -/
inductive Json where
  | null
  | bool (value : Bool)
  | int (value : Int)
  | float (value : Float)
  | str (value : String)
  | arr (items : List Json)
  | obj (fields : List (String × Json))
  deriving Inhabited

namespace Json

/-- The object with the fields of a dictionary, by name. -/
def sorted (fields : Dict Json) : Json :=
  .obj fields.entries

/-- The array of some texts. -/
def strings (texts : List String) : Json :=
  .arr (texts.map .str)

/-- A natural number. -/
def nat (n : Nat) : Json :=
  .int n

/-- An optional value, absent as null. -/
def ofOption : Option Json → Json
  | none => .null
  | some value => value

/-- The field of an object by name; the last one of that name counts. -/
def field? (name : String) : Json → Option Json
  | .obj fields => fields.reverse.lookup name
  | _ => none

/-! ## Writing -/

/-- A character of a string: quotes and backslashes escaped, controls by letter or by number. -/
def escapeChar (c : Char) : List Char :=
  match c with
  | '"' => ['\\', '"']
  | '\\' => ['\\', '\\']
  | '\n' => ['\\', 'n']
  | '\r' => ['\\', 'r']
  | '\t' => ['\\', 't']
  | c =>
    if c.toNat = 8 then ['\\', 'b']
    else if c.toNat = 12 then ['\\', 'f']
    else if c.toNat < 0x20 then
      ['\\', 'u', '0', '0', Nat.digitChar (c.toNat / 16), Nat.digitChar (c.toNat % 16)]
    else [c]

/-- A string between quotes. -/
def writeString (text : String) : String :=
  String.ofList ('"' :: (text.toList.flatMap escapeChar ++ ['"']))

mutual

/-- The compact form. -/
def compact : Json → String
  | .null => "null"
  | .bool value => if value then "true" else "false"
  | .int value => toString value
  | .float value => dataNumber value
  | .str value => writeString value
  | .arr items => "[" ++ ",".intercalate (compactItems items) ++ "]"
  | .obj fields => "\x7b" ++ ",".intercalate (compactFields fields) ++ "\x7d"

/-- The compact forms of array items. -/
def compactItems : List Json → List String
  | [] => []
  | item :: rest => compact item :: compactItems rest

/-- The compact forms of object fields. -/
def compactFields : List (String × Json) → List String
  | [] => []
  | (name, value) :: rest => (writeString name ++ ":" ++ compact value) :: compactFields rest

end

/-- A line break followed by the indentation of a nesting level. -/
def newline (level : Nat) : String :=
  "\n" ++ String.ofList (List.replicate (2 * level) ' ')

/-- Written parts one to a line between two brackets, which stand alone when there is no part. -/
def enclose (opening closing : String) (level : Nat) (parts : List String) : String :=
  if parts.isEmpty then opening ++ closing
  else
    opening ++ newline (level + 1) ++ ("," ++ newline (level + 1)).intercalate parts
      ++ newline level ++ closing

mutual

/-- The indented form at a nesting level. -/
def prettyAt (level : Nat) : Json → String
  | .arr items => enclose "[" "]" level (prettyItems (level + 1) items)
  | .obj fields => enclose "\x7b" "\x7d" level (prettyFields (level + 1) fields)
  | .null => "null"
  | .bool value => if value then "true" else "false"
  | .int value => toString value
  | .float value => dataNumber value
  | .str value => writeString value

/-- The indented forms of array items. -/
def prettyItems (level : Nat) : List Json → List String
  | [] => []
  | item :: rest => prettyAt level item :: prettyItems level rest

/-- The indented forms of object fields. -/
def prettyFields (level : Nat) : List (String × Json) → List String
  | [] => []
  | (name, value) :: rest =>
    (writeString name ++ ": " ++ prettyAt level value) :: prettyFields level rest

end

/-- The indented form. -/
def pretty (value : Json) : String :=
  value.prettyAt 0

end Json

end ScriptShell
