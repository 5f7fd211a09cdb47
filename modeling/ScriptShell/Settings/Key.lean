import ScriptShell.Toml.Text
import ScriptShell.Number.Decimal
import ScriptShell.Text.Casing

/-! # Keys of settings

A key names a setting, in any case, or a part of one: `references[0]` is the first reference and
`trace.x` a field below `trace`. Giving such a part a value makes tables and lists of what is on the
way to it. -/

namespace ScriptShell

/-- A step from a value to a part of it. -/
inductive KeyStep where
  | field (name : String)
  /-- An item of a list; a negative index counts from the end. -/
  | item (index : Int)
  deriving DecidableEq, Repr, Inhabited

/-- The steps from all settings to the part that a key names. -/
abbrev SettingKey := List KeyStep

/-! ## Reading keys -/

namespace SettingKey

open Toml (Reader)

/-- Characters of names. -/
def isNameChar (c : Char) : Bool :=
  c.isAlphanum || c == ' ' || c == '_' || c == '-'

/-- A name. -/
def name? : Reader String := fun text =>
  let name := text.takeWhile isNameChar
  if name.isEmpty then none else some (String.ofList name, text.dropWhile isNameChar)

/-- A sign, and what follows it. -/
def splitMinus : List Char → Bool × List Char
  | '-' :: rest => (true, rest)
  | text => (false, text)

/-- An index after its opening bracket, with blanks around it. -/
def index? : Reader Int := fun text =>
  let (negative, rest) := splitMinus (Toml.skipSpaces text)
  let digits := rest.takeWhile Char.isDigit
  let magnitude : Int := Decimal.natOfDigits digits
  let index := if negative then -magnitude else magnitude
  if digits.isEmpty || index < -0x8000000000000000 || 0x8000000000000000 ≤ index then none
  else
    match Toml.skipSpaces (rest.dropWhile Char.isDigit) with
    | ']' :: rest => some (index, rest)
    | _ => none

/-- The steps after the name that a key starts with. -/
def steps? : (fuel : Nat) → List Char → Option SettingKey
  | _, [] => some []
  | fuel + 1, '.' :: text => do
    let (name, rest) ← name? text
    return .field name :: (← steps? fuel rest)
  | fuel + 1, '[' :: text => do
    let (index, rest) ← index? text
    return .item index :: (← steps? fuel rest)
  | _, _ => none

/-- A key in lower case. -/
def parse? (text : List Char) : Option SettingKey := do
  let (name, rest) ← name? text
  return .field name :: (← steps? rest.length rest)

/-- The steps of a key. One that cannot be read is a name as a whole. -/
def of (key : String) : SettingKey :=
  let key := Text.lower key
  (parse? key.toList).getD [.field key]

end SettingKey

/-! ## Giving values to parts -/

namespace Toml

/-- What stands where no value is given. -/
def nothing : Toml := .table []

/-- The fields of a value; there are none unless it is a table. -/
def fieldList : Toml → List (String × Toml)
  | .table fields => fields
  | _ => []

/-- The items of a value; there are none unless it is a list. -/
def itemList : Toml → List Toml
  | .arr items => items
  | _ => []

/-- Changes the field of a name, or adds it. -/
def changeField (change : Toml → Toml) (name : String) :
    List (String × Toml) → List (String × Toml)
  | [] => [(name, change nothing)]
  | (other, held) :: rest =>
    if other = name then (other, change held) :: rest
    else (other, held) :: changeField change name rest

/-- Changes the item at an index. The list becomes long enough for it. -/
def changeItem (change : Toml → Toml) (index : Int) (items : List Toml) : List Toml :=
  let place := if index < 0 then (items.length + index).toNat else index.toNat
  (items ++ List.replicate (place + 1 - items.length) nothing).modify place change

/-- Changes the part of a value that a key names. -/
def changePart (change : Toml → Toml) : SettingKey → Toml → Toml
  | [], value => change value
  | .field name :: steps, value =>
    .table (changeField (changePart change steps) name value.fieldList)
  | .item index :: steps, value =>
    .arr (changeItem (changePart change steps) index value.itemList)

mutual

/-- A value put over another: the fields of a table are put over those that are there, and every
other value takes the place of what is there. -/
def mergeInto : (value held : Toml) → Toml
  | .table fields, held => mergeFields fields held
  | value, _ => value

/-- Fields put over a value, one after the other. -/
def mergeFields : List (String × Toml) → (held : Toml) → Toml
  | [], held => held
  | (name, value) :: rest, held =>
    mergeFields rest (.table (changeField value.mergeInto name held.fieldList))

end

/-- Gives the part that a key names a value. -/
def give (settings : Toml) (entry : String × Toml) : Toml :=
  changePart entry.2.mergeInto (SettingKey.of entry.1) settings

/-- Gives parts their values, one after the other. -/
def giveAll (settings : Toml) (entries : List (String × Toml)) : Toml :=
  entries.foldl give settings

end Toml

end ScriptShell
