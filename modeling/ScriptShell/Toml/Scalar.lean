import ScriptShell.Toml.Text
import ScriptShell.Number.Decimal

/-! # Settings text: numbers, truth values, dates and times

These are single words; `scalar?` says what a word stands for, by the rules of the published format.
-/

namespace ScriptShell.Toml

/-! ## Numbers -/

/-- Digits, which may be divided by single underscores, without the underscores. -/
def grouped? (isDigit : Char → Bool) : List Char → Option (List Char)
  | [] => none
  | [c] => if isDigit c then some [c] else none
  | c :: '_' :: rest =>
    if isDigit c then (grouped? isDigit rest).map (c :: ·) else none
  | c :: next :: rest =>
    if isDigit c then (grouped? isDigit (next :: rest)).map (c :: ·) else none

/-- A sign, and what follows it. -/
def splitSign : List Char → Bool × List Char
  | '+' :: rest => (false, rest)
  | '-' :: rest => (true, rest)
  | word => (false, word)

/-- The digits of a whole number, which has no leading zeros. -/
def wholeDigits? (word : List Char) : Option (List Char) :=
  match word with
  | '0' :: _ :: _ => none
  | _ => grouped? Char.isDigit word

/-- A number that whole numbers can hold. -/
def intOf? (value : Int) : Option Toml :=
  if -0x8000000000000000 ≤ value ∧ value < 0x8000000000000000 then some (.int value) else none

/-- The value of a digit in a base. -/
def digitIn? (base : Nat) (c : Char) : Option Nat :=
  (hexDigit? c).filter (· < base)

/-- A whole number in a base, after its mark. -/
def basedInt? (base : Nat) (word : List Char) : Option Toml := do
  let digits ← grouped? (fun c => (digitIn? base c).isSome) word
  let value ← digits.foldlM (fun n d => (digitIn? base d).map (n * base + ·)) 0
  intOf? value

/-- A whole number. -/
def int? (word : List Char) : Option Toml :=
  match word with
  | '0' :: 'x' :: rest => basedInt? 16 rest
  | '0' :: 'o' :: rest => basedInt? 8 rest
  | '0' :: 'b' :: rest => basedInt? 2 rest
  | word => do
    let (negative, rest) := splitSign word
    let digits ← wholeDigits? rest
    let magnitude : Int := Decimal.natOfDigits digits
    intOf? (if negative then -magnitude else magnitude)

/-- Whether a character marks an exponent. -/
def isExponentMark (c : Char) : Bool :=
  c == 'e' || c == 'E'

/-- The exponent after its mark. -/
def exponent? (word : List Char) : Option Int := do
  let (negative, rest) := splitSign word
  let digits ← grouped? Char.isDigit rest
  let magnitude : Int := Decimal.natOfDigits digits
  return if negative then -magnitude else magnitude

/-- What follows the first character of a word that satisfies `cut`, and what precedes it. -/
def divide (cut : Char → Bool) (word : List Char) : List Char × Option (List Char) :=
  match word.dropWhile (!cut ·) with
  | [] => (word, none)
  | _ :: rest => (word.takeWhile (!cut ·), some rest)

/-- A number with a point or an exponent. A positive one must not be too great. -/
def decimal? (word : List Char) : Option Toml := do
  let (negative, rest) := splitSign word
  let (mantissa, exponentWord) := divide isExponentMark rest
  let (wholeWord, fractionWord) := divide (· == '.') mantissa
  if exponentWord.isNone && fractionWord.isNone then none
  let whole ← wholeDigits? wholeWord
  let fraction ← match fractionWord with
    | none => some []
    | some word => grouped? Char.isDigit word
  let exponent ← match exponentWord with
    | none => some 0
    | some word => exponent? word
  let read := Decimal.ofDigits whole fraction
  let x := Decimal.toFloat negative ⟨read.coefficient, read.exponent + exponent⟩
  if !negative && !x.isFinite then none else return .float x

/-- Infinity or not a number. -/
def special? (word : List Char) : Option Toml :=
  let (negative, rest) := splitSign word
  let infinity : Float := 1 / 0
  if rest = "inf".toList then some (.float (if negative then -infinity else infinity))
  else if rest = "nan".toList then some (.float (0 / 0))
  else none

/-! ## Dates and times -/

/-- A number of exactly so many digits. -/
def fixedDigits? (count : Nat) : Reader Nat := fun word =>
  let digits := word.take count
  if digits.length = count && digits.all Char.isDigit then
    some (Decimal.natOfDigits digits, word.drop count)
  else none

/-- A number of two digits within a range. -/
def twoDigits? (least most : Nat) : Reader Nat := fun word =>
  (fixedDigits? 2 word).filter fun (n, _) => least ≤ n && n ≤ most

/-- What follows a character. -/
def after? (c : Char) : List Char → Option (List Char)
  | d :: rest => if c = d then some rest else none
  | [] => none

/-- The number of days of a month. -/
def daysOf (year month : Nat) : Nat :=
  if month = 2 then
    if year % 4 = 0 ∧ (year % 100 ≠ 0 ∨ year % 400 = 0) then 29 else 28
  else if month = 4 ∨ month = 6 ∨ month = 9 ∨ month = 11 then 30
  else 31

/-- A date, as it was written. -/
def date? : Reader (List Char) := fun word => do
  let (year, rest) ← fixedDigits? 4 word
  let rest ← after? '-' rest
  let (month, rest) ← twoDigits? 1 12 rest
  let rest ← after? '-' rest
  let (_, rest) ← twoDigits? 1 (daysOf year month) rest
  return (word.take 10, rest)

/-- The fraction of a second: at most nine digits count, and zeros at the end are left out. -/
def fraction? : Reader (List Char) := fun word =>
  match word with
  | '.' :: rest =>
    let digits := rest.takeWhile Char.isDigit
    if digits.isEmpty then none
    else
      let kept := Text.dropEndWhile (· == '0') (digits.take 9)
      some (if kept.isEmpty then [] else '.' :: kept, rest.dropWhile Char.isDigit)
  | _ => some ([], word)

/-- A time of the day. -/
def time? : Reader (List Char) := fun word => do
  let (_, rest) ← twoDigits? 0 23 word
  let rest ← after? ':' rest
  let (_, rest) ← twoDigits? 0 59 rest
  let rest ← after? ':' rest
  let (_, rest) ← twoDigits? 0 60 rest
  let (fraction, rest) ← fraction? rest
  return (word.take 8 ++ fraction, rest)

/-- The offset of a time. -/
def offset? : Reader (List Char) := fun word =>
  match word with
  | 'Z' :: rest | 'z' :: rest => some (['Z'], rest)
  | c :: rest =>
    if c = '+' ∨ c = '-' then do
      let (_, after) ← twoDigits? 0 23 rest
      let after ← after? ':' after
      let (_, after) ← twoDigits? 0 59 after
      return (word.take 6, after)
    else none
  | [] => some ([], [])

/-- A whole word that is a date, a time, or both. -/
def dateTime? (word : List Char) : Option Toml := do
  let text ← match date? word with
    | some (date, []) => some date
    | some (date, c :: rest) =>
      if c = 'T' ∨ c = 't' ∨ c = ' ' then do
        let (time, rest) ← time? rest
        let (offset, rest) ← offset? rest
        if rest.isEmpty then some (date ++ 'T' :: (time ++ offset)) else none
      else none
    | none => do
      let (time, rest) ← time? word
      if rest.isEmpty then some time else none
  return .dateTime (String.ofList text)

/-! ## Words -/

/-- Characters of words. -/
def isScalarChar (c : Char) : Bool :=
  c.isAlphanum || c == '+' || c == '-' || c == '_' || c == '.' || c == ':'

/-- Whether what follows a date is a time after a blank. -/
def continues : List Char → Bool
  | ' ' :: c :: _ => c.isDigit
  | _ => false

/-- A word at the front of a text. A date and a time may be divided by a blank. -/
def word (text : List Char) : List Char × List Char :=
  let first := text.takeWhile isScalarChar
  let rest := text.dropWhile isScalarChar
  match date? first with
  | some (_, []) =>
    if continues rest then
      (first ++ ' ' :: (rest.drop 1).takeWhile isScalarChar, (rest.drop 1).dropWhile isScalarChar)
    else (first, rest)
  | _ => (first, rest)

/-- What a word stands for. -/
def ofWord? (word : List Char) : Option Toml :=
  if word = "true".toList then some (.bool true)
  else if word = "false".toList then some (.bool false)
  else
    (int? word).or <| (decimal? word).or <| (special? word).or (dateTime? word)

/-- A number, truth value, date or time. -/
def scalar? : Reader Toml := fun text =>
  let (word, rest) := word text
  (ofWord? word).map (·, rest)

end ScriptShell.Toml
