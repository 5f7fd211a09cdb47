import ScriptShell.Number.Decimal

/-! # Number text

Two written forms of a double, both with the fewest digits that read back. `NumberFormat` holds the
decisions in which they differ: data text keeps a fraction, turns to exponents for large and small
numbers and sends ties to the even digit; displayed text does none of these. -/

namespace ScriptShell

/-- How the chosen digits are laid out. -/
structure NumberFormat where
  /-- Scientific exponents from the first up to, not including, the second are written without an
  exponent; `none` writes every number so. -/
  positional : Option (Int × Int)
  /-- Whether a whole number keeps `.0`. -/
  keepFraction : Bool
  /-- Which of two shortest decimals is written when they are equally near. -/
  tie : Decimal.Tie

namespace NumberFormat

/-- Numbers in data text: positional from `1e-5` up to `1e16`, whole numbers with `.0`, ties to the
even digit. -/
def data : NumberFormat := ⟨some (-5, 16), true, .toEven⟩

/-- Numbers as displayed: always positional, whole numbers without a fraction, ties upwards. -/
def displayed : NumberFormat := ⟨none, false, .up⟩

/-- Digits without an exponent. -/
def writePositional (format : NumberFormat) (d : Decimal) : String :=
  let digits := (Nat.repr d.coefficient).toList
  if 0 ≤ d.exponent then
    String.ofList (digits ++ List.replicate d.exponent.toNat '0')
      ++ (if format.keepFraction then ".0" else "")
  else
    let places := (-d.exponent).toNat
    let padded := List.replicate (places + 1 - digits.length) '0' ++ digits
    let whole := padded.take (padded.length - places)
    let fraction := padded.drop (padded.length - places)
    String.ofList whole ++ "." ++ String.ofList fraction

/-- Digits with the point after the first one, and an exponent. -/
def writeScientific (d : Decimal) : String :=
  let digits := (Nat.repr d.coefficient).toList
  let exponent := d.exponent + (digits.length - 1 : Nat)
  let sign := if 0 ≤ exponent then "+" else "-"
  let point := if digits.length ≤ 1 then "" else "."
  String.ofList (digits.take 1) ++ point ++ String.ofList (digits.drop 1)
    ++ "e" ++ sign ++ Nat.repr exponent.natAbs

/-- The magnitude of a finite double. -/
def writeMagnitude (format : NumberFormat) (b : Binary) : String :=
  let d := Decimal.shortest format.tie b
  let exponent := d.exponent + (Decimal.digitCount d.coefficient - 1 : Nat)
  match format.positional with
  | none => format.writePositional d
  | some (low, high) =>
    if b.mantissa = 0 ∨ (low ≤ exponent ∧ exponent < high) then format.writePositional d
    else writeScientific d

end NumberFormat

/-- A double in data text; the numbers without one are `null`. -/
def dataNumber (x : Float) : String :=
  match Binary.ofFloat? x with
  | none => "null"
  | some b => (if b.negative then "-" else "") ++ NumberFormat.data.writeMagnitude b

/-- A double with the fewest digits that read back, and never with an exponent. -/
def plainNumber (x : Float) : String :=
  match Binary.ofFloat? x with
  | none => if x.isNaN then "NaN" else if x < 0 then "-inf" else "inf"
  | some b => (if b.negative then "-" else "") ++ NumberFormat.displayed.writeMagnitude b

/-- A double as displayed: zero has no sign. -/
def displayNumber (x : Float) : String :=
  if x == 0 then "0" else plainNumber x

end ScriptShell
