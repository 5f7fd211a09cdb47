import ScriptShell.Proofs.Grammar.Bound
import ScriptShell.Proofs.Syntax.Rows
import ScriptShell.Proofs.Syntax.Tokens
import ScriptShell.Syntax.Parser

/-! # The builder covers the grammar

The builder takes parse trees apart by the rules of their parts, and has an answer for shapes that
it does not know. No text gets that answer: whatever the grammar produces is built, unless it nests
too deeply. The proofs follow the production of a tree, and at each rule compare the row of trees
that the grammar puts below it with the shapes that the builder takes. -/

namespace ScriptShell

open Grammar (ParseTree Derived Spells Matches Cursor)

/-- Results that are missing, if they are, only for too much nesting. -/
def Covered {α : Type} (result : Except SyntaxError α) : Prop :=
  ∀ e, result = .error e → ∃ span, e = .tooDeep span

namespace Covered

variable {α β : Type}

/-- What is built is covered. -/
theorem ok {a : α} : Covered (.ok a) := by
  intro e failed
  cases failed

/-- What is nested too deeply is covered. -/
theorem tooDeep {span : Span} : Covered (.error (.tooDeep span) : Except SyntaxError α) := by
  intro e failed
  cases failed
  exact ⟨span, rfl⟩

/-- One step after another. -/
theorem bind {x : Except SyntaxError α} {f : α → Except SyntaxError β} (first : Covered x)
    (second : ∀ a, Covered (f a)) : Covered (x >>= f) := by
  cases x with
  | ok a => exact second a
  | error e =>
      intro _ failed
      cases failed
      exact first e rfl

/-- Something that is built only where there is room. -/
theorem ifRoom {deep : Prop} [Decidable deep] {span : Span} {x : Except SyntaxError α}
    (covered : Covered x) : Covered (if deep then .error (.tooDeep span) else x) := by
  split
  · exact tooDeep
  · exact covered

end Covered

/-! ## Leaves -/

/-- What the rule for numbers spells is a numeral. -/
theorem isNumeral_of_spells {text : List Char} (spells : Spells scriptGrammar .number text) :
    isNumeral text = true := by
  obtain ⟨m, c, c', _, mute, isMatch, rfl⟩ := spells
  obtain ⟨text, isRest, numeral⟩ := of_numberPattern (by simp [mute]) isMatch
  rwa [Cursor.textTo_of_append isRest]

/-! ## Expressions -/

namespace Expr

variable {ts : List (ParseTree Rule)}

/-- Expressions from several trees. -/
theorem covered_ofTrees (each : ∀ t ∈ ts, ∀ depth, Covered (ofTree t depth)) (depth : Nat) :
    Covered (ofTrees ts depth) := by
  induction ts with
  | nil => exact .ok
  | cons t rest ih =>
      rw [List.forall_mem_cons] at each
      simp only [ofTrees]
      exact .bind (each.1 depth) fun _ => .bind (ih each.2) fun _ => .ok

/-- Operators with their operands. -/
theorem covered_ofOperators (linked : Linked ts)
    (each : ∀ t ∈ ts, t.rule ∈ Rule.expressions → ∀ depth, Covered (ofTree t depth))
    (left : Expr) (depth : Nat) : Covered (ofOperators left ts depth) := by
  induction linked generalizing left with
  | nil => exact .ok
  | @cons operator operand rest isOperator isOperand _ ih =>
      obtain ⟨op, isOp⟩ := Option.isSome_iff_exists.mp isOperator
      simp only [List.forall_mem_cons] at each
      simp only [ofOperators, isOp]
      exact .bind (each.2.1 isOperand depth) fun _ => ih each.2.2 _

/-- Prefix operators in front of an operand. -/
theorem covered_ofPrefixed {operand : ParseTree Rule} (isOperand : operand.rule.unaryOp? = none)
    (covered : ∀ depth, Covered (ofTree operand depth)) (span : Span)
    (operators : ∀ t ∈ ts, t.rule.unaryOp?.isSome) (ops : List (UnaryOp × Span)) (depth : Nat) :
    Covered (ofPrefixed span ops (ts ++ [operand]) depth) := by
  induction ts generalizing ops with
  | nil =>
      simp only [List.nil_append, ofPrefixed, isOperand, List.isEmpty_nil, if_true]
      exact .bind (covered _) fun _ => .ok
  | cons t rest ih =>
      rw [List.forall_mem_cons] at operators
      obtain ⟨op, isOp⟩ := Option.isSome_iff_exists.mp operators.1
      simp only [List.cons_append, ofPrefixed, isOp]
      exact ih operators.2 _

/-- What the builder makes of a tree as an expression, and as a suffix of one. -/
structure Covers (t : ParseTree Rule) : Prop where
  expression : t.rule ∈ Rule.expressions → ∀ depth, Covered (ofTree t depth)
  suffix : t.rule = .member ∨ t.rule = .call → ∀ e rest depth,
    (∀ e, Covered (ofSuffixes e rest depth)) → Covered (ofSuffixes e (t :: rest) depth)

/-- Suffixes one after the other. -/
theorem covered_ofSuffixes (each : ∀ t ∈ ts, Covers t)
    (suffixes : ∀ t ∈ ts, t.rule = .member ∨ t.rule = .call) (e : Expr) (depth : Nat) :
    Covered (ofSuffixes e ts depth) := by
  induction ts generalizing e with
  | nil => exact .ok
  | cons t rest ih =>
      rw [List.forall_mem_cons] at each suffixes
      exact each.1.suffix suffixes.1 e rest depth fun e => ih each.2 suffixes.2 e

variable {r : Rule} {span : Span}

/-- Tokens that are read as expressions. -/
theorem covered_token {text : List Char} (isToken : r.kind = .token)
    (spells : Spells scriptGrammar r text) (isExpression : r ∈ Rule.expressions) (depth : Nat) :
    Covered (ofTree (.token r span text) depth) := by
  unfold ofTree
  refine .ifRoom ?_
  simp only [Rule.expressions, List.mem_cons, List.not_mem_nil, or_false] at isExpression
  rcases isExpression with rfl | rfl | rfl | rfl | rfl | rfl | rfl | rfl | rfl | rfl | rfl | rfl |
    rfl | rfl
  all_goals cases isToken
  · simp only [numberOf?, isNumeral_of_spells spells, if_true]
    exact .ok
  · exact .ok
  · exact .ok
  · exact .ok

/-- A chain of operators. -/
theorem covered_ofChain (isChain : r ∈ Rule.chains)
    (derived : Derived scriptGrammar (.phrase r span ts))
    (each : ∀ t ∈ ts, t.rule ∈ Rule.expressions → ∀ depth, Covered (ofTree t depth))
    (depth : Nat) : Covered (ofChain span ts depth) := by
  obtain ⟨first, rest, rfl, isFirst, linked⟩ := linked_of_chain isChain derived
  rw [List.forall_mem_cons] at each
  simp only [ofChain]
  exact .ifRoom (.bind (each.1 isFirst _) fun left => covered_ofOperators linked each.2 left _)

/-- The items of a list and the arguments of a call are covered if all trees in them are. -/
theorem covered_of_items (holds : (r, .expression) ∈ Rule.repetitions)
    (derived : Derived scriptGrammar (.phrase r span ts)) (each : ∀ t ∈ ts, Covers t) :
    ∀ t ∈ ts, ∀ depth, Covered (ofTree t depth) := by
  intro t member
  have isItem := rule_of_mem_parts holds derived t member
  exact (each t member).expression (by simp [isItem, Rule.expressions])

/-- Phrases that are read as expressions. -/
theorem covered_phrase (derived : Derived scriptGrammar (.phrase r span ts))
    (notToken : r.kind ≠ .token) (each : ∀ t ∈ ts, Covers t) (isExpression : r ∈ Rule.expressions)
    (depth : Nat) : Covered (ofTree (.phrase r span ts) depth) := by
  have inside : ∀ t ∈ ts, t.rule ∈ Rule.expressions → ∀ depth, Covered (ofTree t depth) :=
    fun t member => (each t member).expression
  unfold ofTree
  refine .ifRoom ?_
  simp only [Rule.expressions, List.mem_cons, List.not_mem_nil, or_false] at isExpression
  rcases isExpression with rfl | rfl | rfl | rfl | rfl | rfl | rfl | rfl | rfl | rfl | rfl | rfl |
    rfl | rfl
  any_goals exact absurd rfl notToken
  · obtain ⟨inner, rfl, isInner⟩ := eq_singleton derived rfl
    exact inside inner (.head _) (by simp [isInner, Rule.expressions]) _
  · exact covered_ofChain (by decide) derived inside depth
  · exact covered_ofChain (by decide) derived inside depth
  · exact covered_ofChain (by decide) derived inside depth
  · exact covered_ofChain (by decide) derived inside depth
  · exact covered_ofChain (by decide) derived inside depth
  · obtain ⟨operators, operand, rfl, each, isOperand⟩ := exists_of_unary derived
    refine covered_ofPrefixed (by simp [isOperand, Rule.unaryOp?]) ?_ span each [] depth
    exact inside operand (by simp) (by simp [isOperand, Rule.expressions])
  · obtain ⟨first, suffixes, rfl, isFirst, isSuffix⟩ := exists_of_postfixExpr derived
    rw [List.forall_mem_cons] at each
    exact .bind (each.1.expression isFirst _) fun e => covered_ofSuffixes each.2 isSuffix e _
  · obtain ⟨_, text, rfl⟩ := eq_stringInner derived
    exact .ok
  · exact .bind (covered_ofTrees (covered_of_items (by decide) derived each) _) fun _ => .ok

/-- **Every expression that the grammar produces is covered**, and every suffix of one. -/
theorem covers {t : ParseTree Rule} (derived : Derived scriptGrammar t) : Covers t := by
  induction derived with
  | token isToken spells =>
      refine ⟨covered_token isToken spells, ?_⟩
      rintro (rfl | rfl)
      all_goals cases isToken
  | @phrase r span parts notToken yields inside ih =>
      have derived : Derived scriptGrammar (.phrase r span parts) := .phrase notToken yields inside
      refine ⟨covered_phrase derived notToken ih, ?_⟩
      rintro (rfl | rfl) e rest depth more
      · obtain ⟨_, rfl, isName⟩ := eq_singleton derived rfl
        obtain ⟨_, name, rfl⟩ := (inside _ (.head _)).eq_token isName rfl
        exact more _
      · have args := covered_of_items (by decide) derived ih
        exact .bind (covered_ofTrees args depth) fun _ => more _

end Expr

/-! ## Statements -/

namespace Stmt

/-- What the builder makes of a tree as a statement, with and without its terminator, and of the
statements in it if it is a block or the rest of a branch. -/
structure Covers (t : ParseTree Rule) : Prop where
  statement : t.rule = .statement → ∀ depth, Covered (ofTree t depth)
  body : t.rule ∈ Rule.bodies → ∀ terminated depth, Covered (ofBody t terminated depth)
  block : t.rule = .block → ∃ span parts, t = .phrase .block span parts ∧
    ∀ depth, Covered (ofTrees parts depth)
  otherwise : t.rule = .elseClause →
    (∃ span span' parts, t = .phrase .elseClause span [.phrase .block span' parts] ∧
      ∀ depth, Covered (ofTrees parts depth)) ∨
    (∃ span span' parts, t = .phrase .elseClause span [.phrase .ifStmt span' parts] ∧
      ∀ depth, Covered (ofBody (.phrase .ifStmt span' parts) false depth))

variable {r : Rule} {span : Span} {parts : List (ParseTree Rule)}

/-- Statements from several trees. -/
theorem covered_ofTrees {ts : List (ParseTree Rule)}
    (each : ∀ t ∈ ts, ∀ depth, Covered (ofTree t depth)) (depth : Nat) :
    Covered (ofTrees ts depth) := by
  induction ts with
  | nil => exact .ok
  | cons t rest ih =>
      rw [List.forall_mem_cons] at each
      simp only [ofTrees]
      exact .bind (each.1 depth) fun _ => .bind (ih each.2) fun _ => .ok

/-- An expression in its place is covered. -/
theorem covered_expression {t : ParseTree Rule} (derived : Derived scriptGrammar t)
    (isRule : t.rule = .expression) (depth : Nat) : Covered (Expr.ofTree t depth) :=
  (Expr.covers derived).expression (by simp [isRule, Rule.expressions]) depth

/-- Loads. -/
theorem covered_loadStmt (derived : Derived scriptGrammar (.phrase .loadStmt span parts))
    (terminated : Bool) (depth : Nat) :
    Covered (ofBody (.phrase .loadStmt span parts) terminated depth) := by
  have row := mem_rows derived (by decide)
  simp only [Rule.rows, List.mem_cons, List.not_mem_nil, or_false, List.map_eq_singleton_iff] at row
  obtain ⟨target, rfl, isTarget⟩ | ⟨target, rfl, isTarget⟩ := row
  · have inside := derived.parts.2 target (.head _)
    obtain ⟨_, _, rfl⟩ := inside.eq_phrase isTarget (by decide)
    obtain ⟨_, _, rfl⟩ := eq_stringInner inside
    exact .ok
  · obtain ⟨_, _, rfl⟩ := (derived.parts.2 target (.head _)).eq_token isTarget rfl
    exact .ok

/-- Branches, with and without an alternative. -/
theorem covered_ifStmt (derived : Derived scriptGrammar (.phrase .ifStmt span parts))
    (each : ∀ t ∈ parts, Covers t) (terminated : Bool) (depth : Nat) :
    Covered (ofBody (.phrase .ifStmt span parts) terminated depth) := by
  have row := mem_rows derived (by decide)
  simp only [Rule.rows, List.mem_cons, List.not_mem_nil, or_false, List.map_eq_cons_iff,
    List.map_eq_nil_iff] at row
  obtain ⟨test, _, rfl, isTest, onTrue, _, rfl, isTrue, others⟩ |
    ⟨test, _, rfl, isTest, onTrue, _, rfl, isTrue, rfl⟩ := row
  all_goals
    have ofTest := covered_expression (derived.parts.2 test (.head _)) isTest
    obtain ⟨_, _, rfl, ofTrue⟩ := (each onTrue (.tail _ (.head _))).block isTrue
  · obtain ⟨onFalse, _, rfl, isFalse, rfl⟩ := others
    have ofFalse := (each onFalse (.tail _ (.tail _ (.head _)))).otherwise isFalse
    obtain ⟨_, _, _, rfl, ofFalse⟩ | ⟨_, _, _, rfl, ofFalse⟩ := ofFalse
    · unfold ofBody
      exact .ifRoom (.bind (ofTest _) fun _ => .bind (ofTrue _) fun _ => .bind (ofFalse _)
        fun _ => .ok)
    · unfold ofBody
      exact .ifRoom (.bind (ofTest _) fun _ => .bind (ofTrue _) fun _ => .bind (ofFalse _)
        fun _ => .ok)
  · unfold ofBody
    exact .ifRoom (.bind (ofTest _) fun _ => .bind (ofTrue _) fun _ => .ok)

/-- Phrases that are read as statements without a terminator. -/
theorem covered_ofBody (derived : Derived scriptGrammar (.phrase r span parts))
    (each : ∀ t ∈ parts, Covers t) (isBody : r ∈ Rule.bodies) (terminated : Bool) (depth : Nat) :
    Covered (ofBody (.phrase r span parts) terminated depth) := by
  have inside := derived.parts.2
  simp only [Rule.bodies, List.mem_cons, List.not_mem_nil, or_false] at isBody
  rcases isBody with rfl | rfl | rfl | rfl | rfl | rfl | rfl | rfl
  case inl => exact covered_loadStmt derived terminated depth
  case inr.inr.inr.inr.inl => exact covered_ifStmt derived each terminated depth
  all_goals
    have row := mem_rows derived (by decide)
    simp only [Rule.rows, List.mem_cons, List.not_mem_nil, or_false, List.map_eq_cons_iff,
      List.map_eq_nil_iff] at row
  · obtain ⟨name, _, rfl, isName, rfl⟩ := row
    obtain ⟨_, _, rfl⟩ := (inside name (.head _)).eq_token isName rfl
    exact .ok
  · obtain ⟨name, _, rfl, isName, params, _, rfl, isParams, body, _, rfl, isBody, rfl⟩ := row
    obtain ⟨_, _, rfl⟩ := (inside name (.head _)).eq_token isName rfl
    obtain ⟨_, _, rfl⟩ := (inside params (.tail _ (.head _))).eq_phrase isParams (by decide)
    exact .bind (covered_expression (inside body (.tail _ (.tail _ (.head _)))) isBody _)
      fun _ => .ok
  · obtain ⟨name, _, rfl, isName, value, _, rfl, isValue, rfl⟩ := row
    obtain ⟨_, _, rfl⟩ := (inside name (.head _)).eq_token isName rfl
    exact .bind (covered_expression (inside value (.tail _ (.head _))) isValue _) fun _ => .ok
  · obtain ⟨test, _, rfl, isTest, body, _, rfl, isBlock, rfl⟩ := row
    obtain ⟨_, _, rfl, ofBody⟩ := (each body (.tail _ (.head _))).block isBlock
    exact .bind (covered_expression (inside test (.head _)) isTest _) fun _ =>
      .bind (ofBody _) fun _ => .ok
  · obtain ⟨name, _, rfl, isName, value, _, rfl, isValue, rfl⟩ := row
    obtain ⟨_, _, rfl⟩ := (inside name (.head _)).eq_token isName rfl
    exact .bind (covered_expression (inside value (.tail _ (.head _))) isValue _) fun _ => .ok
  · obtain ⟨value, _, rfl, isValue, rfl⟩ := row
    exact .bind (covered_expression (inside value (.head _)) isValue _) fun _ => .ok

/-- **Every statement that the grammar produces is covered**, and every block. -/
theorem covers {t : ParseTree Rule} (derived : Derived scriptGrammar t) : Covers t := by
  induction derived with
  | @token r _ _ isToken =>
      have isKind : r.kind = .token := isToken
      constructor
      · rintro rfl
        cases isKind
      · intro isBody
        have noToken : ∀ r ∈ Rule.bodies, r.kind ≠ .token := by decide
        exact absurd isKind (noToken r isBody)
      · rintro rfl
        cases isKind
      · rintro rfl
        cases isKind
  | @phrase r span parts notToken yields inside ih =>
      have derived : Derived scriptGrammar (.phrase r span parts) := .phrase notToken yields inside
      refine ⟨?_, covered_ofBody derived ih, ?_, ?_⟩
      · rintro rfl depth
        have row := mem_rows derived (by decide)
        simp only [Rule.rows, List.mem_flatMap, List.mem_cons, List.not_mem_nil, or_false,
          List.map_eq_cons_iff, List.map_eq_nil_iff] at row
        obtain ⟨body, isBody, ⟨first, _, rfl, rfl, -⟩ | ⟨first, _, rfl, rfl, -⟩⟩ := row
        all_goals exact .ifRoom ((ih first (.head _)).body isBody _ depth)
      · rintro rfl
        have items : ∀ t ∈ parts, t.rule = .statement := rule_of_mem_parts (by decide) derived
        exact ⟨span, parts, rfl, covered_ofTrees fun t member =>
          (ih t member).statement (items t member)⟩
      · rintro rfl
        have row := mem_rows derived (by decide)
        simp only [Rule.rows, List.mem_cons, List.not_mem_nil, or_false,
          List.map_eq_singleton_iff] at row
        obtain ⟨next, rfl, isNext⟩ | ⟨block, rfl, isBlock⟩ := row
        · obtain ⟨span', parts, rfl⟩ := (inside next (.head _)).eq_phrase isNext (by decide)
          have isBody : Rule.ifStmt ∈ Rule.bodies := by decide
          exact .inr ⟨span, span', parts, rfl, (ih _ (.head _)).body isBody false⟩
        · obtain ⟨span', parts, rfl, covered⟩ := (ih block (.head _)).block isBlock
          exact .inl ⟨span, span', parts, rfl, covered⟩

end Stmt

/-! ## Fragments -/

/-- The parse tree of a text that the grammar matches. -/
theorem exists_program {text : List Char} {trees : List (ParseTree Rule)}
    (matched : scriptGrammar.match? .program text = .ok trees) :
    ∃ span parts, trees = [.phrase .program span parts] ∧
      ∀ t ∈ parts, Derived scriptGrammar t := by
  obtain ⟨last, isMatch⟩ := Grammar.matches_of_match? scriptRanked (by decide) matched
  obtain ⟨yields, derived⟩ := isMatch.derived rfl (by decide)
  rw [yields_rule (by decide), List.map_eq_singleton_iff] at yields
  obtain ⟨t, rfl, isProgram⟩ := yields
  obtain ⟨span, parts, rfl⟩ := (derived t (.head _)).eq_phrase isProgram (by decide)
  exact ⟨span, parts, rfl, (derived _ (.head _)).parts.2⟩

/-- A text that the grammar matches is covered. -/
theorem covered_parse {text : String} {trees : List (ParseTree Rule)}
    (matched : scriptGrammar.match? .program text.toList = .ok trees) : Covered (parse text) := by
  obtain ⟨span, parts, rfl, derived⟩ := exists_program matched
  unfold parse parseChars
  rw [matched]
  refine Stmt.covered_ofTrees (fun t member => ?_) 0
  obtain ⟨inside, isStatement⟩ := List.mem_filter.mp member
  exact (Stmt.covers (derived t inside)).statement (of_decide_eq_true isStatement)

/-- **The builder covers the grammar.** A text that the grammar does not match is refused for what
was expected in it; any other text is read as statements, unless it nests too deeply. -/
theorem parse_covers (text : String) :
    (Matches scriptGrammar (.rule .program) {} (Cursor.start text.toList) none ∧
      ∃ expected line col, parse text = .error (.unexpected expected line col)) ∨
    (∃ found, Matches scriptGrammar (.rule .program) {} (Cursor.start text.toList) (some found)) ∧
      ((∃ stmts, parse text = .ok stmts) ∨
        ∃ e, parse text = .error e ∧ e.message = "fragment nests too deeply (limit 128)") := by
  have isMatch := Grammar.matches_call scriptRanked (by decide) .program text.toList
  revert isMatch
  generalize (scriptGrammar.call _ _ _ _ _).result = found
  intro isMatch
  cases found with
  | none =>
      obtain ⟨e, unmatched⟩ := Grammar.match?_of_not_matches scriptRanked (by decide) isMatch
      refine .inl ⟨isMatch, ?_⟩
      unfold parse parseChars
      rw [unmatched]
      exact ⟨_, _, _, rfl⟩
  | some found =>
      have covered := covered_parse (Grammar.match?_of_matches scriptRanked (by decide) isMatch)
      refine .inr ⟨⟨found, isMatch⟩, ?_⟩
      cases built : parse text with
      | ok stmts => exact .inl ⟨stmts, rfl⟩
      | error e =>
          obtain ⟨span, rfl⟩ := covered e built
          exact .inr ⟨_, rfl, rfl⟩

end ScriptShell
