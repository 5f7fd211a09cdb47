import ScriptShell.Toml.Basic
import ScriptShell.Number.Format
import ScriptShell.Number.Arithmetic
import ScriptShell.Text.CharClass
import ScriptShell.Text.Casing

/-! # Settings

The settings of the shell, and how single settings are read off values of other kinds. -/

namespace ScriptShell

/-- The settings of the shell. -/
structure Settings where
  /-- Whether completions are shown with a sign of what they are. -/
  richDisplay : Bool := false
  /-- How long completions are kept. -/
  completionTtlSeconds : Nat := 60
  /-- Modules to load at the start. -/
  references : List String := ["math", "text", "time"]
  /-- Modules to import at the start. -/
  imports : List String := []
  /-- Directories to look for manifests in. -/
  modulePaths : List String := []
  /-- A script to run at the start. -/
  loadScript : Option String := none
  /-- The module whose members tool callers use without qualification. -/
  globalsModule : String := "core"
  serverName : String := "stanza"
  trace : Bool := false
  deriving DecidableEq, Repr, Inhabited

/-- How long completions are kept, in milliseconds. -/
def Settings.completionLifetime (s : Settings) : Nat :=
  s.completionTtlSeconds * 1000

namespace Setting

/-! ## Reading single settings -/

/-- Words for true. -/
def yesWords : List String := ["true", "on", "yes"]

/-- Words for false. -/
def noWords : List String := ["false", "off", "no"]

/-- A truth value: given as such, as a word in any case, or as a number. -/
def bool? : Toml → Option Bool
  | .bool value => some value
  | .int value => some (value != 0)
  | .float x => some (x != 0)
  | .str text | .dateTime text =>
    let word := Text.lower text
    if yesWords.contains word || word == "1" then some true
    else if noWords.contains word || word == "0" then some false
    else none
  | _ => none

/-- The greatest count. -/
def maxCount : Nat := 0xffffffffffffffff

/-- A count in decimal digits, perhaps after a plus sign. -/
def digits? (text : String) : Option Nat :=
  let digits := match text.toList with
    | '+' :: rest => rest
    | chars => chars
  let value := Decimal.natOfDigits digits
  if digits.isEmpty || !digits.all Char.isDigit || maxCount < value then none else some value

/-- The count nearest to a number; what is below or above all counts is the least or greatest. -/
def nearestCount (x : Float) : Nat :=
  match Binary.ofFloat? (Number.round x) with
  | none => if 0 < x then maxCount else 0
  | some b => if x < 0 then 0 else min maxCount (b.numerator / b.denominator)

/-- A count: given as such, in digits, as a word for true or false, or by rounding. -/
def count? : Toml → Option Nat
  | .int value => if value < 0 then none else some value.toNat
  | .bool value => some value.toNat
  | .float x => some (nearestCount x)
  | .str text | .dateTime text =>
    let word := Text.lower text
    if yesWords.contains word then some 1
    else if noWords.contains word then some 0
    else digits? text
  | _ => none

/-- A text: given as such, or the written form of a truth value or number. -/
def text? : Toml → Option String
  | .str text | .dateTime text => some text
  | .bool value => some (if value then "true" else "false")
  | .int value => some (toString value)
  | .float x => some (plainNumber x)
  | _ => none

/-- A list of texts. -/
def texts? : Toml → Option (List String)
  | .arr items => items.mapM text?
  | _ => none

end Setting

namespace Settings

/-- The names of the settings. -/
def keys : List String :=
  ["rich_display", "completion_ttl_secs", "references", "imports", "module_paths", "load_script",
   "globals_module", "server_name", "trace"]

/-- A part of the settings: the default unless it is given. -/
def part? {α : Type} (read : Toml → Option α) (default : α) : Option Toml → Option α
  | none => some default
  | some value => read value

/-- Settings from a table; what is not there has its default, and what is not known is left out. -/
def ofTable? (table : Toml) : Option Settings := do
  let defaults : Settings := {}
  return {
    richDisplay := ← part? Setting.bool? defaults.richDisplay (table.field? "rich_display")
    completionTtlSeconds :=
      ← part? Setting.count? defaults.completionTtlSeconds (table.field? "completion_ttl_secs")
    references := ← part? Setting.texts? defaults.references (table.field? "references")
    imports := ← part? Setting.texts? defaults.imports (table.field? "imports")
    modulePaths := ← part? Setting.texts? defaults.modulePaths (table.field? "module_paths")
    loadScript :=
      ← part? (fun value => (Setting.text? value).map some) defaults.loadScript
        (table.field? "load_script")
    globalsModule := ← part? Setting.text? defaults.globalsModule (table.field? "globals_module")
    serverName := ← part? Setting.text? defaults.serverName (table.field? "server_name")
    trace := ← part? Setting.bool? defaults.trace (table.field? "trace") }

end Settings

end ScriptShell
