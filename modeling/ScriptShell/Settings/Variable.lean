import ScriptShell.Settings.Basic
import ScriptShell.Dict
import ScriptShell.Text.Lines

/-! # Environment variables

Variables whose name starts with `STANZA_` are settings. What such a variable stands for is read off
its text. -/

namespace ScriptShell

/-- Environment variables by name. -/
abbrev Variables := Dict String

namespace Variables

/-- The start of the names of variables that are settings, in lower case. -/
def settingsMark : List Char := "stanza_".toList

/-- The variable that names the settings file. -/
def pathVariable : String := "STANZA_CONFIG_PATH"

/-- The settings that are lists. -/
def listKeys : List String := ["references", "imports", "module_paths"]

/-! ## Numbers in variables -/

/-- A sign, and what follows it. -/
def splitSign : List Char → Bool × List Char
  | '-' :: rest => (true, rest)
  | '+' :: rest => (false, rest)
  | text => (false, text)

/-- A whole number. -/
def int? (text : List Char) : Option Int :=
  let (negative, digits) := splitSign text
  let magnitude : Int := Decimal.natOfDigits digits
  let value := if negative then -magnitude else magnitude
  if digits.isEmpty || !digits.all Char.isDigit then none
  else if -0x8000000000000000 ≤ value ∧ value < 0x8000000000000000 then some value
  else none

/-- An exponent: absent, or a mark and digits with a sign. -/
def exponent? (text : List Char) : Option Int :=
  match text with
  | [] => some 0
  | mark :: rest =>
    let (negative, digits) := splitSign rest
    let magnitude : Int := Decimal.natOfDigits digits
    if mark.toLower != 'e' || digits.isEmpty || !digits.all Char.isDigit then none
    else some (if negative then -magnitude else magnitude)

/-- A number: digits with a point among or around them and an exponent, or a word for infinity or
for what is not a number. -/
def float? (text : List Char) : Option Float := do
  let (negative, rest) := splitSign text
  let word := rest.map Char.toLower
  let infinity : Float := 1 / 0
  if word = "inf".toList ∨ word = "infinity".toList then
    return if negative then -infinity else infinity
  if word = "nan".toList then return 0 / 0
  let whole := rest.takeWhile Char.isDigit
  let afterWhole := rest.dropWhile Char.isDigit
  let (fraction, afterFraction) := match afterWhole with
    | '.' :: more => (more.takeWhile Char.isDigit, more.dropWhile Char.isDigit)
    | more => ([], more)
  if whole.isEmpty && fraction.isEmpty then none
  let exponent ← exponent? afterFraction
  let read := Decimal.ofDigits whole fraction
  return Decimal.toFloat negative ⟨read.coefficient, read.exponent + exponent⟩

/-! ## Settings in variables -/

/-- What a variable stands for: a truth value, a number, a list if its setting is one, or a text. -/
def valueOf (isList : Bool) (text : String) : Toml :=
  let chars := text.toList
  let word := Text.lower text
  if word == "true" then .bool true
  else if word == "false" then .bool false
  else
    match int? chars with
    | some n => .int n
    | none =>
      match float? chars with
      | some x => .float x
      | none =>
        if isList then
          .arr ((Text.pieces (· == ',') chars).map fun item => .str (String.ofList item))
        else .str text

/-- The setting that a variable is, if it is one. -/
def setting? (entry : String × String) : Option (String × Toml) :=
  (Text.dropLead? settingsMark (Text.lower entry.1).toList).map fun key =>
    let key := String.ofList key
    (key, valueOf (listKeys.contains key) entry.2)

/-- The usual names of the variables that settings are read from. -/
def names : List String :=
  pathVariable :: Settings.keys.map fun key => Text.upper (String.ofList settingsMark ++ key)

/-- The settings among variables. -/
def settings (vars : Variables) : Dict Toml :=
  Dict.ofList (vars.entries.filterMap setting?)

end Variables

end ScriptShell
