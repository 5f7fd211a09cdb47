import ScriptShell.Proofs.Grammar.Shapes
import ScriptShell.Syntax.Builder

/-! # What the grammar puts below a phrase

The patterns of the grammar of scripts read as rows of rules: which trees stand below a phrase, and
in which order. Rules without repetition have a table of rows (**`mem_rows`**); rules with one have
a lemma each, which says what the builder needs to know of the row. -/

namespace ScriptShell

open Grammar (ParseTree Yields Derived)

/-- A rule that is not silent yields its own tree. -/
theorem yields_rule {r : Rule} {row : List Rule} (notSilent : r.kind ≠ .silent) :
    Yields scriptGrammar (.rule r) row ↔ row = [r] :=
  Yields.rule_iff notSilent

/-- The rules of statements without their terminator. -/
def Rule.bodies : List Rule :=
  [.loadStmt, .useStmt, .fnDecl, .letStmt, .ifStmt, .whileStmt, .assignStmt, .exprStmt]

/-- The rows below a phrase of a rule without repetition. -/
def Rule.rows : Rule → List (List Rule)
  | .statement => Rule.bodies.flatMap fun body => [[body, .terminator], [body]]
  | .loadStmt => [[.string], [.bareTarget]]
  | .useStmt | .member => [[.identifier]]
  | .fnDecl => [[.identifier, .params, .expression]]
  | .letStmt | .assignStmt => [[.identifier, .expression]]
  | .exprStmt => [[.expression]]
  | .whileStmt => [[.expression, .block]]
  | .ifStmt => [[.expression, .block, .elseClause], [.expression, .block]]
  | .elseClause => [[.ifStmt], [.block]]
  | .expression => [[.orExpr]]
  | .string => [[.stringInner]]
  | _ => []

/-- Trees below a phrase of a rule without repetition are of one of its rows. -/
theorem mem_rows {r : Rule} {span : Span} {parts : List (ParseTree Rule)}
    (derived : Derived scriptGrammar (.phrase r span parts)) (has : r.rows ≠ []) :
    parts.map (·.rule) ∈ r.rows := by
  have yields : Yields scriptGrammar r.pattern (parts.map (·.rule)) := derived.parts.1
  generalize parts.map (·.rule) = row at yields ⊢
  cases r
  case statement | useStmt | fnDecl | letStmt | ifStmt | elseClause | whileStmt | assignStmt |
      exprStmt | expression | member | string =>
    simpa (disch := decide) [Rule.rows, Rule.bodies, Rule.pattern, Rule.opening,
      Grammar.Pattern.inOrder, Grammar.Pattern.oneOf, Grammar.Pattern.lit, yields_rule,
      or_and_right, exists_or, or_assoc] using yields
  case loadStmt =>
    -- The blanks before a target are repeated, but leave no trees.
    have blanks : ∀ row, Yields scriptGrammar (.star (.alt (.text [' ']) (.text ['\t']))) row ↔
        row = [] := fun row => Yields.star_iff_of_empty fun turn isTurn => by simpa using isTurn
    simpa (disch := decide) [Rule.rows, Rule.pattern, Grammar.Pattern.inOrder,
      Grammar.Pattern.plus, Grammar.Pattern.lit, yields_rule, blanks] using yields
  all_goals exact absurd rfl has

/-- The part of a phrase that has only one. -/
theorem eq_singleton {r rule : Rule} {span : Span} {parts : List (ParseTree Rule)}
    (derived : Derived scriptGrammar (.phrase r span parts)) (rows : r.rows = [[rule]]) :
    ∃ t, parts = [t] ∧ t.rule = rule := by
  have row := mem_rows derived (by simp [rows])
  rw [rows, List.mem_singleton] at row
  exact List.map_eq_singleton_iff.mp row

/-- What stands between quotes. -/
theorem eq_stringInner {span : Span} {parts : List (ParseTree Rule)}
    (derived : Derived scriptGrammar (.phrase .string span parts)) :
    ∃ span text, parts = [.token .stringInner span text] := by
  obtain ⟨inner, rfl, isInner⟩ := eq_singleton derived rfl
  obtain ⟨span, text, rfl⟩ := (derived.parts.2 _ (.head _)).eq_token isInner rfl
  exact ⟨span, text, rfl⟩

/-! ## Rules with repetition -/

/-- The rules whose trees are read as expressions. -/
def Rule.expressions : List Rule :=
  [.expression, .orExpr, .andExpr, .cmpExpr, .addExpr, .mulExpr, .unary, .postfixExpr, .number,
   .string, .boolean, .nullLit, .list, .identifier]

/-- The rules of chains of operators. -/
def Rule.chains : List Rule :=
  [.orExpr, .andExpr, .cmpExpr, .addExpr, .mulExpr]

/-- Operators between two operands, each with its right operand after it. -/
inductive Linked : List (ParseTree Rule) → Prop where
  | nil : Linked []
  | cons {operator operand rest} : operator.rule.binaryOp?.isSome →
      operand.rule ∈ Rule.expressions → Linked rest → Linked (operator :: operand :: rest)

variable {span : Span} {parts : List (ParseTree Rule)}

/-- Trees whose rules are those of an operator and an operand in turn. -/
theorem linked_of_flatten {operand : Rule} (isOperand : operand ∈ Rule.expressions)
    {turns : List (List Rule)}
    (each : ∀ turn ∈ turns, ∃ r : Rule, r.binaryOp?.isSome ∧ turn = [r, operand])
    (row : parts.map (·.rule) = turns.flatten) : Linked parts := by
  induction turns generalizing parts with
  | nil =>
      rw [List.map_eq_nil_iff.mp row]
      exact .nil
  | cons turn turns ih =>
      rw [List.forall_mem_cons] at each
      obtain ⟨⟨r, isOperator, rfl⟩, others⟩ := each
      obtain ⟨operator, _, rfl, isFirst, row⟩ := List.map_eq_cons_iff.mp row
      obtain ⟨right, rest, rfl, isSecond, row⟩ := List.map_eq_cons_iff.mp row
      exact .cons (isFirst ▸ isOperator) (isSecond ▸ isOperand) (ih others row)

/-- What a pattern for chains leaves: an operand, and then operators with their operands. -/
theorem linked_of_yields {operand : Rule} {operator : Grammar.Pattern Rule}
    (notSilent : operand.kind ≠ .silent) (isOperand : operand ∈ Rule.expressions)
    (operators : ∀ row, Yields scriptGrammar operator row →
      ∃ r : Rule, r.binaryOp?.isSome ∧ row = [r])
    (yields : Yields scriptGrammar (Rule.chain operand operator) (parts.map (·.rule))) :
    ∃ first rest, parts = first :: rest ∧ first.rule ∈ Rule.expressions ∧ Linked rest := by
  obtain ⟨_, more, isFirst, isMore, row⟩ := Yields.seq_iff.mp yields
  rw [yields_rule notSilent] at isFirst
  obtain ⟨turns, each, rfl⟩ := Yields.star_iff.mp isMore
  obtain ⟨first, rest, rfl, ofFirst, ofRest⟩ := List.map_eq_cons_iff.mp (isFirst ▸ row)
  refine ⟨first, rest, rfl, ofFirst ▸ isOperand, linked_of_flatten isOperand ?_ ofRest⟩
  intro turn member
  obtain ⟨_, _, isOperator, isRight, rfl⟩ := Yields.seq_iff.mp (each turn member)
  obtain ⟨r, isSome, rfl⟩ := operators _ isOperator
  exact ⟨r, isSome, by rw [(yields_rule notSilent).mp isRight]; rfl⟩

/-- The parts of a chain: an operand, and operators each with another one. -/
theorem linked_of_chain {r : Rule} (isChain : r ∈ Rule.chains)
    (derived : Derived scriptGrammar (.phrase r span parts)) :
    ∃ first rest, parts = first :: rest ∧ first.rule ∈ Rule.expressions ∧ Linked rest := by
  have yields := derived.parts.1
  simp only [Rule.chains, List.mem_cons, List.not_mem_nil, or_false] at isChain
  rcases isChain with rfl | rfl | rfl | rfl | rfl
  all_goals
    refine linked_of_yields (by decide) (by decide) (fun row isRow => ?_) yields
    simp (disch := decide) only [Grammar.Pattern.oneOf, Yields.alt_iff, yields_rule] at isRow
    grind [Rule.binaryOp?]

/-- Before the operand of prefix operators stand only these. -/
theorem exists_of_unary (derived : Derived scriptGrammar (.phrase .unary span parts)) :
    ∃ operators operand, parts = operators ++ [operand] ∧
      (∀ t ∈ operators, t.rule.unaryOp?.isSome) ∧ operand.rule = .postfixExpr := by
  obtain ⟨_, _, isOperators, isOperand, row⟩ := Yields.seq_iff.mp derived.parts.1
  have each := isOperators.forall_of_star (fun turn isTurn => show ∀ r ∈ turn, r.unaryOp?.isSome by
    simp (disch := decide) only [Grammar.Pattern.oneOf, Yields.alt_iff, yields_rule] at isTurn
    grind [Rule.unaryOp?])
  obtain ⟨operators, others, rfl, rfl, isRest⟩ := List.map_eq_append_iff.mp row
  rw [(yields_rule (by decide)).mp isOperand, List.map_eq_singleton_iff] at isRest
  obtain ⟨operand, rfl, isRule⟩ := isRest
  exact ⟨operators, operand, rfl, fun t member => each _ (List.mem_map_of_mem member), isRule⟩

/-- After what stands first in an operand stand only member accesses and calls. -/
theorem exists_of_postfixExpr (derived : Derived scriptGrammar (.phrase .postfixExpr span parts)) :
    ∃ first suffixes, parts = first :: suffixes ∧ first.rule ∈ Rule.expressions ∧
      ∀ t ∈ suffixes, t.rule = .member ∨ t.rule = .call := by
  obtain ⟨starting, _, isFirst, isSuffixes, row⟩ := Yields.seq_iff.mp derived.parts.1
  have each := isSuffixes.forall_of_star (fun turn isTurn =>
      show ∀ r ∈ turn, r = Rule.member ∨ r = .call by
    simp (disch := decide) only [Yields.alt_iff, yields_rule] at isTurn
    grind)
  have starts : ∃ r ∈ Rule.expressions, starting = [r] := by
    cases isFirst with
    | rule notSilent => exact absurd rfl notSilent
    | silent _ isFirst =>
        have isOne : Yields scriptGrammar (Rule.pattern .primary) starting := isFirst
        simp (disch := decide) [Rule.pattern, Grammar.Pattern.oneOf, Grammar.Pattern.inOrder,
          Grammar.Pattern.lit, yields_rule] at isOne
        rcases isOne with isOne | isOne | isOne | isOne | isOne | isOne | isOne <;>
          exact ⟨_, by decide, isOne⟩
  obtain ⟨r, isOperand, rfl⟩ := starts
  obtain ⟨first, suffixes, rfl, rfl, rfl⟩ := List.map_eq_cons_iff.mp row
  exact ⟨first, suffixes, rfl, isOperand, fun t member => each _ (List.mem_map_of_mem member)⟩

/-- Between brackets stand only items. -/
theorem yields_bracketed {left right : String} {item : Rule} {row : List Rule}
    (notSilent : item.kind ≠ .silent)
    (yields : Yields scriptGrammar (Rule.bracketed left item right) row) : ∀ r ∈ row, r = item := by
  simp only [Rule.bracketed, Grammar.Pattern.inOrder, Grammar.Pattern.lit, Yields.seq_iff,
    Yields.text_iff, Yields.opt_iff, yields_rule notSilent] at yields
  obtain ⟨_, _, rfl, ⟨inner, _, isInner, rfl, rfl⟩, rfl⟩ := yields
  rw [List.nil_append, List.append_nil]
  rcases isInner with ⟨_, more, rfl, isMore, rfl⟩ | rfl
  · refine List.forall_mem_append.mpr ⟨by simp, isMore.forall_of_star fun turn isTurn => ?_⟩
    simp only [Yields.seq_iff, Yields.text_iff, yields_rule notSilent] at isTurn
    simp_all
  · simp

/-- The rules of phrases that are items of one rule, and that rule. -/
def Rule.repetitions : List (Rule × Rule) :=
  [(.list, .expression), (.call, .expression), (.block, .statement)]

/-- A rule that repeats an item has parts of that item only. -/
theorem rule_of_mem_parts {r item : Rule} (holds : (r, item) ∈ Rule.repetitions)
    (derived : Derived scriptGrammar (.phrase r span parts)) : ∀ t ∈ parts, t.rule = item := by
  have each : ∀ r ∈ parts.map (·.rule), r = item := by
    have yields := derived.parts.1
    simp only [Rule.repetitions, List.mem_cons, Prod.mk.injEq, List.not_mem_nil, or_false] at holds
    rcases holds with ⟨rfl, rfl⟩ | ⟨rfl, rfl⟩ | ⟨rfl, rfl⟩
    · exact yields_bracketed (by decide) yields
    · exact yields_bracketed (by decide) yields
    · simp only [scriptGrammar, Rule.pattern, Grammar.Pattern.inOrder, Grammar.Pattern.lit,
        Yields.seq_iff, Yields.text_iff] at yields
      obtain ⟨_, _, rfl, ⟨_, _, isRow, rfl, rfl⟩, isParts⟩ := yields
      rw [isParts, List.nil_append, List.append_nil]
      refine Yields.forall_of_star isRow fun turn isTurn => ?_
      simp [(yields_rule (by decide)).mp isTurn]
  exact fun t member => each _ (List.mem_map_of_mem member)

end ScriptShell
