/-! # Doubles as exact numbers

A finite double is `± mantissa · 2^exponent`. `Binary.ofFloat?` reads these three parts off the bits
and `Binary.nearest` builds the double nearest to a positive fraction, so that everything in between
can be done in exact arithmetic. -/

namespace ScriptShell

/-- A number `± mantissa · 2^exponent`. -/
structure Binary where
  negative : Bool
  mantissa : Nat
  exponent : Int
  deriving DecidableEq, Repr

namespace Binary

/-- The exponent of the smallest positive double. -/
def minExponent : Int := -1074

/-- The least mantissa of a double that is not subnormal. -/
def leadingBit : Nat := Nat.pow 2 52

/-- The parts of a double; none for infinities and for the number that is not one. -/
def ofFloat? (x : Float) : Option Binary :=
  let bits := x.toBits.toNat
  let negative := bits / Nat.pow 2 63 == 1
  let biased : Nat := bits / Nat.pow 2 52 % 2048
  let fraction := bits % Nat.pow 2 52
  if biased = 2047 then none
  else if biased = 0 then some ⟨negative, fraction, minExponent⟩
  else some ⟨negative, leadingBit + fraction, (biased : Int) - 1075⟩

/-- The magnitude as a fraction. -/
def numerator (b : Binary) : Nat :=
  b.mantissa * Nat.pow 2 b.exponent.toNat

/-- The denominator of the magnitude as a fraction. -/
def denominator (b : Binary) : Nat :=
  Nat.pow 2 (-b.exponent).toNat

/-- The double with the given sign and magnitude bits. -/
def ofMagnitudeBits (negative : Bool) (bits : Nat) : Float :=
  Float.ofBits (UInt64.ofNat (bits + if negative then Nat.pow 2 63 else 0))

/-- The bits of positive infinity. -/
def infinityBits : Nat := 2047 * Nat.pow 2 52

/-- The double `± mantissa · 2^exponent`, for a mantissa up to `2^53` that fills 53 bits unless the
exponent is the least one. A mantissa of `2^53` carries into the exponent. -/
def ofParts (negative : Bool) (mantissa : Nat) (exponent : Int) : Float :=
  let bits :=
    if mantissa < leadingBit then mantissa
    else (exponent + 1075).toNat * leadingBit + (mantissa - leadingBit)
  ofMagnitudeBits negative (min bits infinityBits)

/-- The quotient rounded to the nearest whole number, a half to the even one. -/
def roundedQuotient (num den : Nat) : Nat :=
  let q := num / den
  let r := num % den
  if den < 2 * r ∨ (2 * r = den ∧ q % 2 = 1) then q + 1 else q

/-- The whole part of the binary logarithm of `num / den`, for positive `num` and `den`. -/
def log2Ratio (num den : Nat) : Int :=
  let guess : Int := (num.log2 : Int) - den.log2
  let reaches := den * Nat.pow 2 guess.toNat ≤ num * Nat.pow 2 (-guess).toNat
  if reaches then guess else guess - 1

/-- The double nearest to `± num / den`, a half to the even neighbour. -/
def nearest (negative : Bool) (num den : Nat) : Float :=
  if num = 0 ∨ den = 0 then ofMagnitudeBits negative 0
  else
    let exponent := max (log2Ratio num den - 52) minExponent
    let mantissa :=
      roundedQuotient (num * Nat.pow 2 (-exponent).toNat) (den * Nat.pow 2 exponent.toNat)
    ofParts negative mantissa exponent

end Binary

end ScriptShell
