import ScriptShell.Toml.Basic
import ScriptShell.Text.CharClass

/-! # Settings text: blanks, comments and strings

Readers take a text and give what they read with the rest of the text, by the rules of the published
format. -/

namespace ScriptShell.Toml

/-- What a reader gives: something and the rest of the text, or nothing. -/
abbrev Reader (α : Type) := List Char → Option (α × List Char)

/-! ## Blanks and comments -/

/-- Blanks within a line. -/
def isSpace (c : Char) : Bool :=
  c == ' ' || c == '\t'

/-- Drops blanks within a line. -/
def skipSpaces (text : List Char) : List Char :=
  text.dropWhile isSpace

/-- Characters of comments: all but controls other than the tab. -/
def isCommentChar (c : Char) : Bool :=
  c == '\t' || (0x20 ≤ c.toNat && c.toNat != 0x7f)

/-- Drops a comment. -/
def skipComment (text : List Char) : List Char :=
  match text with
  | '#' :: rest => rest.dropWhile isCommentChar
  | _ => text

/-- What follows a line break. -/
def newline? : List Char → Option (List Char)
  | '\n' :: rest => some rest
  | '\r' :: '\n' :: rest => some rest
  | _ => none

/-- What follows the end of a line: blanks, a comment, and a line break unless the text ends. -/
def lineEnd? (text : List Char) : Option (List Char) :=
  match skipComment (skipSpaces text) with
  | [] => some []
  | rest => newline? rest

/-- Drops blanks, comments and line breaks, at most `fuel` of them. -/
def skipLines : (fuel : Nat) → List Char → List Char
  | 0, text => text
  | fuel + 1, text =>
    match skipSpaces text with
    | '#' :: rest => skipLines fuel (rest.dropWhile isCommentChar)
    | rest =>
      match newline? rest with
      | some rest => skipLines fuel rest
      | none => rest

/-- Drops all blanks, comments and line breaks. -/
def skipAll (text : List Char) : List Char :=
  skipLines (text.length + 1) text

/-! ## Strings -/

/-- Characters that stand for themselves between double quotes. -/
def isBasicChar (c : Char) : Bool :=
  c == '\t' || (0x20 ≤ c.toNat && c != '"' && c != '\\' && c.toNat != 0x7f)

/-- Characters between single quotes. -/
def isLiteralChar (c : Char) : Bool :=
  c == '\t' || (0x20 ≤ c.toNat && c != '\x27' && c.toNat != 0x7f)

/-- The value of a hexadecimal digit. -/
def hexDigit? (c : Char) : Option Nat :=
  if '0' ≤ c ∧ c ≤ '9' then some (c.toNat - '0'.toNat)
  else if 'a' ≤ c ∧ c ≤ 'f' then some (c.toNat - 'a'.toNat + 10)
  else if 'A' ≤ c ∧ c ≤ 'F' then some (c.toNat - 'A'.toNat + 10)
  else none

/-- The value of hexadecimal digits. -/
def hexValue? (digits : List Char) : Option Nat :=
  digits.foldlM (fun n d => (hexDigit? d).map (n * 16 + ·)) 0

/-- The character of a code point. -/
def charOf? (code : Nat) : Option Char :=
  if code < 0xd800 ∨ (0xdfff < code ∧ code < 0x110000) then some (Char.ofNat code) else none

/-- The character of an escape, after its backslash. -/
def escape? : Reader Char
  | 'b' :: rest => some (Char.ofNat 8, rest)
  | 't' :: rest => some ('\t', rest)
  | 'n' :: rest => some ('\n', rest)
  | 'f' :: rest => some (Char.ofNat 12, rest)
  | 'r' :: rest => some ('\r', rest)
  | '"' :: rest => some ('"', rest)
  | '\\' :: rest => some ('\\', rest)
  | 'u' :: rest =>
    if rest.length < 4 then none
    else ((hexValue? (rest.take 4)).bind charOf?).map (·, rest.drop 4)
  | 'U' :: rest =>
    if rest.length < 8 then none
    else ((hexValue? (rest.take 8)).bind charOf?).map (·, rest.drop 8)
  | _ => none

/-- The rest of a string in double quotes, given what was read in reverse. -/
def basicRest? : (fuel : Nat) → (done : List Char) → Reader (List Char)
  | 0, _, _ => none
  | _ + 1, done, '"' :: rest => some (done.reverse, rest)
  | fuel + 1, done, '\\' :: rest =>
    match escape? rest with
    | some (c, rest) => basicRest? fuel (c :: done) rest
    | none => none
  | fuel + 1, done, c :: rest => if isBasicChar c then basicRest? fuel (c :: done) rest else none
  | _ + 1, _, [] => none

/-- The rest of a string in single quotes. -/
def literalRest? : Reader (List Char) := fun text =>
  match text.dropWhile isLiteralChar with
  | '\x27' :: rest => some (text.takeWhile isLiteralChar, rest)
  | _ => none

/-- Drops the line break that a string of several lines may start with. -/
def dropFirstBreak (text : List Char) : List Char :=
  (newline? text).getD text

/-- Drops blanks and line breaks, at most `fuel` of them. -/
def skipBreaks : (fuel : Nat) → List Char → List Char
  | 0, text => text
  | fuel + 1, text =>
    let rest := skipSpaces text
    match newline? rest with
    | some rest => skipBreaks fuel rest
    | none => rest

/-- The rest of a string of several lines in double quotes, given what was read in reverse. A
backslash at the end of a line leaves out everything up to the next character that is no blank. -/
def longBasicRest? : (fuel : Nat) → (done : List Char) → Reader (List Char)
  | 0, _, _ => none
  | _ + 1, done, '"' :: '"' :: '"' :: '"' :: '"' :: rest =>
    some (('"' :: '"' :: done).reverse, rest)
  | _ + 1, done, '"' :: '"' :: '"' :: '"' :: rest => some (('"' :: done).reverse, rest)
  | _ + 1, done, '"' :: '"' :: '"' :: rest => some (done.reverse, rest)
  | fuel + 1, done, '"' :: rest => longBasicRest? fuel ('"' :: done) rest
  | fuel + 1, done, '\\' :: rest =>
    match newline? (skipSpaces rest) with
    | some after => longBasicRest? fuel done (skipBreaks (after.length + 1) after)
    | none =>
      match escape? rest with
      | some (c, rest) => longBasicRest? fuel (c :: done) rest
      | none => none
  | fuel + 1, done, '\n' :: rest => longBasicRest? fuel ('\n' :: done) rest
  | fuel + 1, done, '\r' :: '\n' :: rest => longBasicRest? fuel ('\n' :: done) rest
  | fuel + 1, done, c :: rest =>
    if isBasicChar c then longBasicRest? fuel (c :: done) rest else none
  | _ + 1, _, [] => none

/-- The rest of a string of several lines in single quotes, given what was read in reverse. -/
def longLiteralRest? : (fuel : Nat) → (done : List Char) → Reader (List Char)
  | 0, _, _ => none
  | _ + 1, done, '\x27' :: '\x27' :: '\x27' :: '\x27' :: '\x27' :: rest =>
    some (('\x27' :: '\x27' :: done).reverse, rest)
  | _ + 1, done, '\x27' :: '\x27' :: '\x27' :: '\x27' :: rest =>
    some (('\x27' :: done).reverse, rest)
  | _ + 1, done, '\x27' :: '\x27' :: '\x27' :: rest => some (done.reverse, rest)
  | fuel + 1, done, '\x27' :: rest => longLiteralRest? fuel ('\x27' :: done) rest
  | fuel + 1, done, '\n' :: rest => longLiteralRest? fuel ('\n' :: done) rest
  | fuel + 1, done, '\r' :: '\n' :: rest => longLiteralRest? fuel ('\n' :: done) rest
  | fuel + 1, done, c :: rest =>
    if isLiteralChar c then longLiteralRest? fuel (c :: done) rest else none
  | _ + 1, _, [] => none

/-- A string on one line. -/
def shortString? : Reader (List Char)
  | '"' :: rest => basicRest? (rest.length + 1) [] rest
  | '\x27' :: rest => literalRest? rest
  | _ => none

/-- A string. -/
def string? : Reader (List Char)
  | '"' :: '"' :: '"' :: rest => longBasicRest? (rest.length + 1) [] (dropFirstBreak rest)
  | '\x27' :: '\x27' :: '\x27' :: rest =>
    longLiteralRest? (rest.length + 1) [] (dropFirstBreak rest)
  | text => shortString? text

end ScriptShell.Toml
