import ScriptShell.Number.Binary

/-! # Decimal numbers

`Decimal` is `coefficient · 10^exponent`. `Decimal.toFloat` rounds one to the nearest double and
`Decimal.shortest` picks, for a double, the decimal with the fewest digits that rounds back to it.
-/

namespace ScriptShell

/-- A nonnegative number `coefficient · 10^exponent`. -/
structure Decimal where
  coefficient : Nat
  exponent : Int
  deriving DecidableEq, Repr

namespace Decimal

/-- The number of decimal digits of a whole number; zero has one. -/
def digitCount (n : Nat) : Nat :=
  (Nat.toDigits 10 n).length

/-! ## Reading -/

/-- The value of a run of decimal digits. -/
def natOfDigits (digits : List Char) : Nat :=
  digits.foldl (fun n d => n * 10 + (d.toNat - '0'.toNat)) 0

/-- The double nearest to `± coefficient · 10^exponent`. Magnitudes beyond the range of doubles on
either side are decided by their number of digits alone. -/
def toFloat (negative : Bool) (d : Decimal) : Float :=
  let magnitude := d.exponent + digitCount d.coefficient
  if d.coefficient = 0 ∨ magnitude < -330 then Binary.ofMagnitudeBits negative 0
  else if 310 < magnitude then Binary.ofMagnitudeBits negative Binary.infinityBits
  else
    Binary.nearest negative (d.coefficient * Nat.pow 10 d.exponent.toNat)
      (Nat.pow 10 (-d.exponent).toNat)

/-- A decimal written as whole digits and digits after the point. -/
def ofDigits (whole fraction : List Char) : Decimal :=
  ⟨natOfDigits (whole ++ fraction), -(fraction.length : Int)⟩

/-! ## The shortest digits -/

/-- Removes zeros at the end of the coefficient, at most `fuel` of them. -/
def stripZeros : (fuel : Nat) → Decimal → Decimal
  | 0, d => d
  | fuel + 1, d =>
    if d.coefficient % 10 = 0 ∧ d.coefficient ≠ 0 then
      stripZeros fuel ⟨d.coefficient / 10, d.exponent + 1⟩
    else d

/-- The whole part of the decimal logarithm of `num / den`, for positive `num` and `den`. -/
def log10Ratio (num den : Nat) : Int :=
  if den ≤ num then (digitCount (num / den) : Int) - 1
  else
    let places := digitCount (den / num)
    if num * Nat.pow 10 (places - 1) = den then 1 - (places : Int) else -(places : Int)

/-- The numbers that round to a double, as multiples of `1 / scale`: the double itself and the two
ends, which belong to the interval when `closed`. -/
structure Neighbourhood where
  scale : Nat
  low : Nat
  value : Nat
  high : Nat
  closed : Bool

/-- The numbers that round to `b`. The gap below a power of two is half the gap above it. -/
def Neighbourhood.of (b : Binary) : Neighbourhood :=
  let unit := Nat.pow 2 (b.exponent - 2).toNat
  let below := if b.mantissa = Binary.leadingBit ∧ Binary.minExponent < b.exponent then 1 else 2
  { scale := Nat.pow 2 (2 - b.exponent).toNat
    low := (4 * b.mantissa - below) * unit
    value := 4 * b.mantissa * unit
    high := (4 * b.mantissa + 2) * unit
    closed := b.mantissa % 2 = 0 }

/-- Which of two decimals to take when they are equally near. -/
inductive Tie where
  /-- The one whose last digit is even. -/
  | toEven
  /-- The greater one. -/
  | up
  deriving DecidableEq, Repr

/-- Whether the greater of two neighbours wins a tie, given the lesser one. -/
def Tie.isUp : Tie → (lesser : Nat) → Bool
  | .toEven, lesser => lesser % 2 == 1
  | .up, _ => true

/-- The decimal nearest to the value among the multiples of `10^grid` that round to it, if any. -/
def Neighbourhood.pick? (n : Neighbourhood) (tie : Tie) (grid : Int) : Option Decimal :=
  let up := Nat.pow 10 grid.toNat * n.scale
  let down := Nat.pow 10 (-grid).toNat
  let inside (c : Nat) : Bool :=
    if n.closed then n.low * down ≤ c * up && c * up ≤ n.high * down
    else n.low * down < c * up && c * up < n.high * down
  let c := n.value * down / up
  let below := n.value * down - c * up
  let above := (c + 1) * up - n.value * down
  let preferUpper := decide (above < below) || (above == below && tie.isUp c)
  match inside c, inside (c + 1) with
  | true, true => some ⟨if preferUpper then c + 1 else c, grid⟩
  | true, false => some ⟨c, grid⟩
  | false, true => some ⟨c + 1, grid⟩
  | false, false => none

/-- The decimal with the fewest digits that rounds to `b`, and of those the nearest one, or the one
that `tie` says. Seventeen digits always suffice. -/
def shortest (tie : Tie) (b : Binary) : Decimal :=
  if b.mantissa = 0 then ⟨0, 0⟩
  else
    let n := Neighbourhood.of b
    let leading := log10Ratio n.value n.scale
    let found := (List.range 17).findSome? fun (extra : Nat) => n.pick? tie (leading - extra)
    stripZeros 400 (found.getD ⟨0, 0⟩)

end Decimal

end ScriptShell
