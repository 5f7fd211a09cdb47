import ScriptShell.Number.Binary

/-! # Arithmetic on doubles

Exact remainder, rounding to whole numbers, least and greatest, and sums. Each works on the exact
value of its operands and keeps the sign of zero. -/

namespace ScriptShell.Number

/-- The remainder of a division that rounds toward zero; it has the sign of the dividend. -/
def remainder (x y : Float) : Float :=
  match Binary.ofFloat? x, Binary.ofFloat? y with
  | some a, some b =>
    if b.mantissa = 0 then x - x + y / y
    else
      let exponent := min a.exponent b.exponent
      let dividend := a.mantissa * Nat.pow 2 (a.exponent - exponent).toNat
      let divisor := b.mantissa * Nat.pow 2 (b.exponent - exponent).toNat
      let rest := dividend % divisor
      Binary.nearest a.negative (rest * Nat.pow 2 exponent.toNat) (Nat.pow 2 (-exponent).toNat)
  | some _, none => if y.isNaN then y else x
  | none, _ => x - x + (y - y)

/-- Rounds to a whole number: `roundUp` decides, from the sign, the whole part and the remaining
fraction of the magnitude, whether the magnitude goes up. -/
def roundWhole (roundUp : Bool → (part whole : Nat) → Bool) (x : Float) : Float :=
  match Binary.ofFloat? x with
  | none => x
  | some b =>
    if 0 ≤ b.exponent then x
    else
      let unit := Nat.pow 2 (-b.exponent).toNat
      let whole := b.mantissa / unit
      let part := b.mantissa % unit
      Binary.nearest b.negative (if roundUp b.negative part unit then whole + 1 else whole) 1

/-- The greatest whole number not above `x`. -/
def floor (x : Float) : Float :=
  roundWhole (fun negative part _ => negative && part != 0) x

/-- The least whole number not below `x`. -/
def ceil (x : Float) : Float :=
  roundWhole (fun negative part _ => !negative && part != 0) x

/-- The nearest whole number, a half away from zero. -/
def round (x : Float) : Float :=
  roundWhole (fun _ part unit => decide (unit ≤ 2 * part)) x

/-- The magnitude of `x`. -/
def abs (x : Float) : Float :=
  Float.ofBits (UInt64.ofNat (x.toBits.toNat % Nat.pow 2 63))

/-- The smaller of two numbers, the second when neither is smaller; an operand that is not a number
gives way. -/
def least (x y : Float) : Float :=
  if x.isNaN then y else if y.isNaN then x else if x < y then x else y

/-- The larger of two numbers, the second when neither is larger; an operand that is not a number
gives way. -/
def greatest (x y : Float) : Float :=
  if x.isNaN then y else if y.isNaN then x else if y < x then x else y

/-- The sum from left to right. It starts at negative zero, the neutral number of addition. -/
def sum (xs : List Float) : Float :=
  xs.foldl (· + ·) (-0.0)

end ScriptShell.Number
