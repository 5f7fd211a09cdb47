import ScriptShell.Text.CaseTable

/-! # Upper and lower case

Full case mapping of text: a character may map to several, and a capital sigma at the end of a word
has its own small form. -/

namespace ScriptShell.Text

/-- The image of `c` in a table of runs. -/
def runImage? (runs : List CaseRun) (c : Char) : Option Char :=
  runs.findSome? fun (first, last, step, shift) =>
    if first ≤ c.toNat ∧ c.toNat ≤ last ∧ (c.toNat - first) % step = 0 then
      some (Char.ofNat (c.toNat + shift).toNat)
    else none

/-- The image of `c` in a table of longer mappings, then in a table of runs; a character in neither
stands for itself. -/
def caseImage (long : List (Nat × List Nat)) (runs : List CaseRun) (c : Char) : List Char :=
  match long.lookup c.toNat with
  | some image => image.map Char.ofNat
  | none => [(runImage? runs c).getD c]

/-- Upper case of a character. -/
def upperChar (c : Char) : List Char :=
  if c.toNat < 0x80 then [c.toUpper] else caseImage upperLong upperRuns c

/-- Lower case of a character on its own. -/
def lowerChar (c : Char) : List Char :=
  if c.toNat < 0x80 then [c.toLower] else caseImage lowerLong lowerRuns c

/-- Characters that have case. -/
def isCased (c : Char) : Bool :=
  c.isAlpha || (0x80 ≤ c.toNat && wideCased.has c)

/-- Characters that casing looks through; of ASCII these are the apostrophe, the full stop, the
colon, the circumflex and the grave accent. -/
def isCaseIgnorable (c : Char) : Bool :=
  [0x27, 0x2e, 0x3a, 0x5e, 0x60].contains c.toNat || (0x80 ≤ c.toNat && wideCaseIgnorable.has c)

/-- Whether the first character that casing does not look through has case. -/
def meetsCased (text : List Char) : Bool :=
  ((text.dropWhile isCaseIgnorable).head?.map isCased).getD false

/-- Lower case of `text`, given the characters before it in reverse. A capital sigma after a cased
character and not before one takes its final form. -/
def lowerAfter : List Char → List Char → List Char
  | _, [] => []
  | before, c :: text =>
    let image :=
      if c = 'Σ' then [if meetsCased before && !meetsCased text then 'ς' else 'σ']
      else lowerChar c
    image ++ lowerAfter (c :: before) text

/-- Upper case of a text. -/
def upper (text : String) : String :=
  String.ofList (text.toList.flatMap upperChar)

/-- Lower case of a text. -/
def lower (text : String) : String :=
  String.ofList (lowerAfter [] text.toList)

end ScriptShell.Text
