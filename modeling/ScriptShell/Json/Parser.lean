import ScriptShell.Json.Basic

/-! # Reading data text

`Json.parse?` reads one value and nothing after it. Nesting is limited to `Json.nestingLimit`
levels, numbers must be finite, and a surrogate escape must be half of a pair. -/

namespace ScriptShell.Json

/-- Arrays and objects may be nested less deeply than this. -/
def nestingLimit : Nat := 128

/-- Blanks between the parts of data text. -/
def isGap (c : Char) : Bool :=
  c == ' ' || c == '\t' || c == '\n' || c == '\r'

/-- Drops blanks. -/
def skipGap (text : List Char) : List Char :=
  text.dropWhile isGap

/-! ## Strings -/

/-- The value of a hexadecimal digit. -/
def hexValue? (c : Char) : Option Nat :=
  if '0' ≤ c ∧ c ≤ '9' then some (c.toNat - '0'.toNat)
  else if 'a' ≤ c ∧ c ≤ 'f' then some (c.toNat - 'a'.toNat + 10)
  else if 'A' ≤ c ∧ c ≤ 'F' then some (c.toNat - 'A'.toNat + 10)
  else none

/-- Four hexadecimal digits. -/
def hexUnit? : List Char → Option (Nat × List Char)
  | a :: b :: c :: d :: rest => do
    let a ← hexValue? a
    let b ← hexValue? b
    let c ← hexValue? c
    let d ← hexValue? d
    return (a * 4096 + b * 256 + c * 16 + d, rest)
  | _ => none

/-- The character of a numeric escape, after its letter; two surrogates make one character. -/
def unicodeEscape? (text : List Char) : Option (Char × List Char) := do
  let (unit, rest) ← hexUnit? text
  if 0xd800 ≤ unit ∧ unit ≤ 0xdbff then
    match rest with
    | '\\' :: 'u' :: rest => do
      let (low, rest) ← hexUnit? rest
      if 0xdc00 ≤ low ∧ low ≤ 0xdfff then
        return (Char.ofNat (0x10000 + (unit - 0xd800) * 1024 + (low - 0xdc00)), rest)
      else none
    | _ => none
  else if 0xdc00 ≤ unit ∧ unit ≤ 0xdfff then none
  else return (Char.ofNat unit, rest)

/-- The character of an escape, after its backslash. -/
def escape? : List Char → Option (Char × List Char)
  | '"' :: rest => some ('"', rest)
  | '\\' :: rest => some ('\\', rest)
  | '/' :: rest => some ('/', rest)
  | 'b' :: rest => some (Char.ofNat 8, rest)
  | 'f' :: rest => some (Char.ofNat 12, rest)
  | 'n' :: rest => some ('\n', rest)
  | 'r' :: rest => some ('\r', rest)
  | 't' :: rest => some ('\t', rest)
  | 'u' :: rest => unicodeEscape? rest
  | _ => none

/-- The rest of a string after its opening quote, given what was read of it in reverse. -/
def stringRest? : (fuel : Nat) → List Char → List Char → Option (String × List Char)
  | 0, _, _ => none
  | fuel + 1, done, text =>
    match text with
    | [] => none
    | '"' :: rest => some (String.ofList done.reverse, rest)
    | '\\' :: rest => do
      let (c, rest) ← escape? rest
      stringRest? fuel (c :: done) rest
    | c :: rest => if c.toNat < 0x20 then none else stringRest? fuel (c :: done) rest

/-! ## Numbers -/

/-- A run of digits at the front of a text. -/
def digits (text : List Char) : List Char × List Char :=
  (text.takeWhile Char.isDigit, text.dropWhile Char.isDigit)

/-- The digits after a point; a point needs some. -/
def fraction? (text : List Char) : Option (Option (List Char) × List Char) :=
  match text with
  | '.' :: rest =>
    let (places, rest) := digits rest
    if places.isEmpty then none else some (some places, rest)
  | _ => some (none, text)

/-- The exponent of a number; its letter needs digits after it. -/
def exponent? (text : List Char) : Option (Option Int × List Char) :=
  let signed (sign : Int) (rest : List Char) : Option (Option Int × List Char) :=
    let (value, rest) := digits rest
    if value.isEmpty then none else some (some (sign * Decimal.natOfDigits value), rest)
  match text with
  | 'e' :: rest | 'E' :: rest =>
    match rest with
    | '-' :: rest => signed (-1) rest
    | '+' :: rest => signed 1 rest
    | rest => signed 1 rest
  | _ => some (none, text)

/-- The greatest whole number that is kept as one. -/
def maxInt : Int := 0xffffffffffffffff

/-- The least whole number that is kept as one. -/
def minInt : Int := -0x8000000000000000

/-- A number after its sign. Whole digits have no leading zero. -/
def number? (negative : Bool) (text : List Char) : Option (Json × List Char) := do
  let (whole, rest) := digits text
  if whole.isEmpty || (whole.length > 1 && whole.head? == some '0') then none
  let (places, rest) ← fraction? rest
  let (exponent, rest) ← exponent? rest
  let magnitude : Int := Decimal.natOfDigits whole
  let value := if negative then -magnitude else magnitude
  if places.isNone && exponent.isNone && !(negative && magnitude == 0)
      && decide (minInt ≤ value) && decide (value ≤ maxInt) then
    return (.int value, rest)
  let read := Decimal.ofDigits whole (places.getD [])
  let x := Decimal.toFloat negative ⟨read.coefficient, read.exponent + exponent.getD 0⟩
  if x.isFinite then return (.float x, rest) else none

/-! ## Values -/

mutual

/-- A value at the front of a text, with `room` levels of nesting left. -/
def value? : (fuel : Nat) → (room : Nat) → List Char → Option (Json × List Char)
  | 0, _, _ => none
  | fuel + 1, room, text =>
    match skipGap text with
    | 'n' :: 'u' :: 'l' :: 'l' :: rest => some (.null, rest)
    | 't' :: 'r' :: 'u' :: 'e' :: rest => some (.bool true, rest)
    | 'f' :: 'a' :: 'l' :: 's' :: 'e' :: rest => some (.bool false, rest)
    | '"' :: rest => (stringRest? (rest.length + 1) [] rest).map fun (s, rest) => (.str s, rest)
    | '-' :: rest => number? true rest
    | '[' :: rest =>
      if room ≤ 1 then none
      else
        match skipGap rest with
        | ']' :: rest => some (.arr [], rest)
        | rest => (items? fuel (room - 1) [] rest).map fun (items, rest) => (.arr items, rest)
    | '\x7b' :: rest =>
      if room ≤ 1 then none
      else
        match skipGap rest with
        | '\x7d' :: rest => some (.obj [], rest)
        | rest => (fields? fuel (room - 1) [] rest).map fun (fields, rest) => (.obj fields, rest)
    | rest => number? false rest

/-- The rest of an array from an item on, given the items before it in reverse. -/
def items? : (fuel : Nat) → (room : Nat) → List Json → List Char → Option (List Json × List Char)
  | 0, _, _, _ => none
  | fuel + 1, room, done, text => do
    let (item, rest) ← value? fuel room text
    match skipGap rest with
    | ',' :: rest => items? fuel room (item :: done) rest
    | ']' :: rest => return ((item :: done).reverse, rest)
    | _ => none

/-- The rest of an object from a field on, given the fields before it in reverse. -/
def fields? : (fuel : Nat) → (room : Nat) → List (String × Json) → List Char →
    Option (List (String × Json) × List Char)
  | 0, _, _, _ => none
  | fuel + 1, room, done, text => do
    let '"' :: rest := skipGap text | none
    let (name, rest) ← stringRest? (rest.length + 1) [] rest
    let ':' :: rest := skipGap rest | none
    let (value, rest) ← value? fuel room rest
    match skipGap rest with
    | ',' :: rest => fields? fuel room ((name, value) :: done) rest
    | '\x7d' :: rest => return (((name, value) :: done).reverse, rest)
    | _ => none

end

/-- Reads a text that holds one value and blanks around it. -/
def parse? (text : String) : Option Json := do
  let chars := text.toList
  let (value, rest) ← value? (2 * chars.length + 2) nestingLimit chars
  if (skipGap rest).isEmpty then return value else none

end ScriptShell.Json
