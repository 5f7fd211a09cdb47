/-! # Attempts

While a text is matched, `Attempts` records which rules were tried in vain at the furthest point
that any rule was tried at. When the whole text does not match, these rules are what was expected
there.

A rule that fails where only rules inside it failed stands for them, unless exactly one attempt was
made inside it: that one says more than the rule does. This is how the grammar engine, a library, is
documented to track attempts. -/

namespace ScriptShell.Grammar

/-- Whether a pattern is matched to consume text, or only to look whether it comes next, or whether
it does not. -/
inductive Lookahead where
  | none | positive | negative
  deriving DecidableEq, Repr, Inhabited

/-- Looking ahead inside a lookahead: a negative one is turned around by another. -/
def Lookahead.enter (wanted : Bool) : Lookahead → Lookahead
  | .negative => if wanted then .negative else .positive
  | _ => if wanted then .positive else .negative

/-- The rules tried in vain at the furthest point. -/
structure Attempts (ρ : Type) where
  /-- The furthest point. -/
  furthest : Nat := 0
  /-- Rules that did not match there, in the order of the attempts. -/
  missing : List ρ := []
  /-- Rules that matched there and should not have. -/
  unwanted : List ρ := []
  deriving Repr, Inhabited

namespace Attempts

variable {ρ : Type}

/-- How many attempts are recorded at a point. -/
def countAt (a : Attempts ρ) (offset : Nat) : Nat :=
  if offset = a.furthest then a.missing.length + a.unwanted.length else 0

/-- Drops what was recorded at `offset` since `before`. -/
def restore (before after : Attempts ρ) (offset : Nat) : Attempts ρ :=
  let (missing, unwanted) :=
    if offset = before.furthest then (before.missing.length, before.unwanted.length) else (0, 0)
  { after with
    missing := after.missing.take missing
    unwanted := after.unwanted.take unwanted }

/-- Adds an attempt at the furthest point. -/
def push (look : Lookahead) (rule : ρ) (a : Attempts ρ) : Attempts ρ :=
  if look = .negative then { a with unwanted := a.unwanted ++ [rule] }
  else { a with missing := a.missing ++ [rule] }

/-- Records that `rule` was tried in vain at `offset`, given the attempts before and after what was
tried inside it. -/
def record (look : Lookahead) (rule : ρ) (offset : Nat) (before after : Attempts ρ) : Attempts ρ :=
  if after.countAt offset = before.countAt offset + 1 then after
  else if offset = after.furthest then (restore before after offset).push look rule
  else if after.furthest < offset then push look rule { furthest := offset }
  else after

end Attempts

end ScriptShell.Grammar
