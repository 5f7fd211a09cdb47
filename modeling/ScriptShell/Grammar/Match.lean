import ScriptShell.Grammar.Cursor
import ScriptShell.Grammar.ParseTree
import ScriptShell.Grammar.Attempts

/-! # Matching

`Grammar.match?` matches a text against a rule of a grammar and yields a parse tree, or what was
expected at the furthest point reached. Matching is defined in two steps. `Pattern.run` follows one
pattern, given what to do for a rule; `Grammar.call` runs the pattern of a rule and ties the knot,
with a bound on how many rules may be open at once.

Where gaps are skipped, which rules leave trees and where a tree ends is the documented behaviour of
the grammar engine, which is a library and not modelled beyond that. -/

namespace ScriptShell

namespace Grammar

/-- Whether gaps are skipped and whether rules leave trees and attempts. -/
inductive Texture where
  /-- Gaps are skipped. -/
  | loose
  /-- Gaps are not skipped. -/
  | solid
  /-- Gaps are not skipped, and rules leave neither trees nor attempts. -/
  | mute
  deriving DecidableEq, Repr, Inhabited

/-- How a pattern is matched. -/
structure Mode where
  look : Lookahead := .none
  texture : Texture := .loose
  deriving DecidableEq, Repr, Inhabited

variable {ρ : Type}

/-- What matching leaves: where it ended and the trees it made, if it matched, and the attempts. -/
structure Reply (ρ : Type) where
  result : Option (Cursor × List (ParseTree ρ))
  attempts : Attempts ρ

/-- A way to match something at a point. -/
abbrev Matcher (ρ : Type) := Mode → Cursor → Attempts ρ → Reply ρ

/-- Continues with what follows a match. -/
def Reply.andThen (r : Reply ρ) (next : Cursor → Attempts ρ → Reply ρ) : Reply ρ :=
  match r.result with
  | none => r
  | some (c, trees) =>
    let after := next c r.attempts
    ⟨after.result.map fun (c', more) => (c', trees ++ more), after.attempts⟩

/-- Tries something else when there is no match. -/
def Reply.orElse (r : Reply ρ) (other : Attempts ρ → Reply ρ) : Reply ρ :=
  match r.result with
  | none => other r.attempts
  | some _ => r

/-- Moves over a gap, where gaps are skipped. -/
def skip (g : Grammar ρ) (m : Mode) (c : Cursor) : Cursor :=
  if m.texture = .loose then c.skipGap g else c

/-- Repeats a match, at most `fuel` times, each time after a gap. -/
def repeatMatch (g : Grammar ρ) (m : Mode) (once : Matcher ρ) :
    (fuel : Nat) → Cursor → Attempts ρ → Reply ρ
  | 0, c, a => ⟨some (c, []), a⟩
  | fuel + 1, c, a =>
    (((once m (skip g m c) a).andThen (repeatMatch g m once fuel))).orElse
      fun a => ⟨some (c, []), a⟩

/-- Follows a pattern, given how to match a rule. A repetition is followed at most `fuel` times. -/
def Pattern.run (g : Grammar ρ) (call : ρ → Matcher ρ) (fuel : Nat) : Pattern ρ → Matcher ρ
  | .text chars, _, c, a => ⟨(c.text? chars).map (·, []), a⟩
  | .char allowed, _, c, a => ⟨(c.char? allowed).map (·, []), a⟩
  | .seq first second, m, c, a =>
    (first.run g call fuel m c a).andThen fun c a => second.run g call fuel m (skip g m c) a
  | .alt first second, m, c, a =>
    (first.run g call fuel m c a).orElse fun a => second.run g call fuel m c a
  | .opt pattern, m, c, a =>
    (pattern.run g call fuel m c a).orElse fun a => ⟨some (c, []), a⟩
  | .star pattern, m, c, a =>
    ((pattern.run g call fuel m c a).andThen
        (repeatMatch g m (pattern.run g call fuel) fuel)).orElse
      fun a => ⟨some (c, []), a⟩
  | .ahead pattern, m, c, a =>
    let r := pattern.run g call fuel { m with look := m.look.enter true } c a
    ⟨r.result.map fun _ => (c, []), r.attempts⟩
  | .notAhead pattern, m, c, a =>
    let r := pattern.run g call fuel { m with look := m.look.enter false } c a
    ⟨if r.result.isSome then none else some (c, []), r.attempts⟩
  | .atEnd, _, c, a => ⟨if c.rest.isEmpty then some (c, []) else none, a⟩
  | .rule name, m, c, a => call name m c a

/-- How a rule of a kind is matched, as seen from outside. -/
def RuleKind.outer (kind : RuleKind) (m : Mode) : Mode :=
  if kind = .solid then { m with texture := .solid } else m

/-- How the pattern of a rule of a kind is matched. -/
def RuleKind.inner (kind : RuleKind) (m : Mode) : Mode :=
  if kind = .token then { m with texture := .mute } else m

/-- The tree of a match of a rule. -/
def makeTree (kind : RuleKind) (rule : ρ) (first last : Cursor) (parts : List (ParseTree ρ)) :
    ParseTree ρ :=
  let span := Span.between first.position last.position
  if kind = .token then .token rule span (first.textTo last) else .phrase rule span parts

/-- What a rule makes of matching its pattern: a tree if it matched and the text is consumed, and an
attempt if it failed, or matched where it should not have. -/
def closeRule (kind : RuleKind) (rule : ρ) (m : Mode) (c : Cursor) (before : Attempts ρ)
    (r : Reply ρ) : Reply ρ :=
  let inVain := r.result.isSome == (m.look == .negative)
  let attempts :=
    if inVain ∧ m.texture ≠ .mute then
      Attempts.record m.look rule c.position.offset before r.attempts
    else r.attempts
  let result := r.result.map fun (last, parts) =>
    if m.look = .none ∧ m.texture ≠ .mute then (last, [makeTree kind rule c last parts])
    else (last, [])
  ⟨result, attempts⟩

end Grammar

open Grammar

variable {ρ : Type}

/-- Matches a rule, with at most `fuel` rules open at once. -/
def Grammar.call (g : Grammar ρ) : (fuel : Nat) → ρ → Matcher ρ
  | 0 => fun _ _ _ a => ⟨none, a⟩
  | fuel + 1 => fun rule m c a =>
    let kind := g.kind rule
    if kind = .silent then (g.pattern rule).run g (g.call fuel) fuel m c a
    else
      let outer := kind.outer m
      closeRule kind rule outer c a
        ((g.pattern rule).run g (g.call fuel) fuel (kind.inner outer) c a)

/-- Rules that are open at once: between two characters a rule is open at most once. -/
def Grammar.depthBound (g : Grammar ρ) (text : List Char) : Nat :=
  (g.rules.length + 1) * (text.length + 2)

/-- What was expected where a text stopped matching: the offset, and the rules in the order of the
grammar. -/
structure Grammar.Unexpected (ρ : Type) where
  offset : Nat
  expected : List ρ
  deriving Repr, Inhabited

/-- Matches a text against a rule. -/
def Grammar.match? [DecidableEq ρ] (g : Grammar ρ) (start : ρ) (text : List Char) :
    Except (Grammar.Unexpected ρ) (List (ParseTree ρ)) :=
  let r := g.call (g.depthBound text) start {} (Cursor.start text) {}
  match r.result with
  | some (_, trees) => .ok trees
  | none => .error ⟨r.attempts.furthest, g.rules.filter (· ∈ r.attempts.missing)⟩

end ScriptShell
