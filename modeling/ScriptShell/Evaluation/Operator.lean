import ScriptShell.Evaluation.Run
import ScriptShell.Syntax.Ast
import ScriptShell.Number.Arithmetic

/-! # Operators on values -/

namespace ScriptShell

/-- The error of operands that an operator does not take. -/
def operandError (op : BinaryOp) (left right : Value) : RunError :=
  ⟨.typeError,
    "operator '" ++ op.symbol ++ "' cannot be applied to " ++ left.kind ++ " and " ++ right.kind,
    []⟩

/-- The error of dividing by zero. -/
def divisionByZero : RunError :=
  ⟨.divisionByZero, "division by zero", []⟩

/-- An operator between two numbers. -/
def BinaryOp.onNumbers (op : BinaryOp) (x y : Float) : Except RunError Value :=
  match op with
  | .add => .ok (.num (x + y))
  | .sub => .ok (.num (x - y))
  | .mul => .ok (.num (x * y))
  | .div => if y == 0 then .error divisionByZero else .ok (.num (x / y))
  | .mod => if y == 0 then .error divisionByZero else .ok (.num (Number.remainder x y))
  | .lt => .ok (.bool (x < y))
  | .lte => .ok (.bool (x ≤ y))
  | .gt => .ok (.bool (y < x))
  | .gte => .ok (.bool (y ≤ x))
  | op => .error (operandError op (.num x) (.num y))

/-- An operator between two strings; strings are ordered by their characters. -/
def BinaryOp.onStrings (op : BinaryOp) (x y : String) : Except RunError Value :=
  match op with
  | .add => .ok (.str (x ++ y))
  | .lt => .ok (.bool (x < y))
  | .lte => .ok (.bool (!(y < x)))
  | .gt => .ok (.bool (y < x))
  | .gte => .ok (.bool (!(x < y)))
  | op => .error (operandError op (.str x) (.str y))

/-- An operator between two values: equality is of any values, numbers calculate, lists join, and a
sum with a string is the text of both. -/
def BinaryOp.apply (op : BinaryOp) (left right : Value) : Except RunError Value :=
  match op, left, right with
  | .eq, left, right => .ok (.bool (left.same right))
  | .ne, left, right => .ok (.bool (!left.same right))
  | op, .num x, .num y => op.onNumbers x y
  | .add, .list xs, .list ys => .ok (.list (xs ++ ys))
  | op, .str x, .str y => op.onStrings x y
  | .add, .str x, right => .ok (.str (x ++ right.plain))
  | .add, left, .str y => .ok (.str (left.plain ++ y))
  | op, left, right => .error (operandError op left right)

end ScriptShell
