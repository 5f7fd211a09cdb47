import ScriptShell.Proofs.Syntax.Rows
import ScriptShell.Syntax.Parser

/-! # How syntax trees are built

`Expr.Built`, `Stmt.Built` and the relations beside them are the rules by which syntax trees come
from parse trees, with one rule for each shape of a tree that the builder accepts. The builder
follows them (**`Expr.ofTree_eq_ok_iff`**, **`Stmt.ofTrees_eq_ok_iff`**), so what is built has a
property as soon as every rule keeps it. -/

namespace ScriptShell

open Grammar (ParseTree)

/-! ## Expressions -/

namespace Expr

mutual

/-- The expression that a tree is built into, below `depth` levels. -/
inductive Built : ParseTree Rule → (depth : Nat) → Expr → Prop where
  | expression {span inner depth e} : depth ≤ nestingLimit → Built inner (depth + 1) e →
      Built (.phrase .expression span [inner]) depth e
  -- The levels of all operators are counted before the first operand is built.
  | chain {r span first rest depth left e} : r ∈ Rule.chains →
      depth + (rest.length + 1) / 2 ≤ nestingLimit →
      Built first (depth + (rest.length + 1) / 2) left →
      Operated left rest (depth + (rest.length + 1) / 2) e →
      Built (.phrase r span (first :: rest)) depth e
  | unary {span parts depth e} : depth ≤ nestingLimit → Prefixed [] parts depth e →
      Built (.phrase .unary span parts) depth e
  | suffixed {span first suffixes depth object e} : depth ≤ nestingLimit →
      Built first (depth + suffixes.length) object →
      Suffixed object suffixes (depth + suffixes.length) e →
      Built (.phrase .postfixExpr span (first :: suffixes)) depth e
  | num {span text value depth} : depth ≤ nestingLimit → numberOf? text = some value →
      Built (.token .number span text) depth (.num value span)
  | str {span inText text depth} : depth ≤ nestingLimit →
      Built (.phrase .string span [.token .stringInner inText text]) depth
        (.str (String.ofList (readEscapes text)) span)
  | bool {span text depth} : depth ≤ nestingLimit →
      Built (.token .boolean span text) depth (.bool (text == "true".toList) span)
  | null {span text depth} : depth ≤ nestingLimit →
      Built (.token .nullLit span text) depth (.null span)
  | list {span items depth es} : depth ≤ nestingLimit → BuiltAll items (depth + 1) es →
      Built (.phrase .list span items) depth (.list es span)
  | ident {span text depth} : depth ≤ nestingLimit →
      Built (.token .identifier span text) depth (.ident (String.ofList text) span)

/-- The expressions that several trees are built into. -/
inductive BuiltAll : List (ParseTree Rule) → (depth : Nat) → List Expr → Prop where
  | nil {depth} : BuiltAll [] depth []
  | cons {t rest depth e es} : Built t depth e → BuiltAll rest depth es →
      BuiltAll (t :: rest) depth (e :: es)

/-- The operators of a chain are applied from left to right. -/
inductive Operated : (left : Expr) → List (ParseTree Rule) → (depth : Nat) → Expr → Prop where
  | noOperator {left depth} : Operated left [] depth left
  | operator {left operator operand rest depth op right e} : operator.rule.binaryOp? = some op →
      Built operand depth right →
      Operated (.binary op left right (left.span.merge right.span)) rest depth e →
      Operated left (operator :: operand :: rest) depth e

/-- Prefix operators are read, the last one first, and wrapped around their operand. -/
inductive Prefixed : (ops : List (UnaryOp × Span)) → List (ParseTree Rule) → (depth : Nat) →
    Expr → Prop where
  | before {ops t rest depth op e} : t.rule.unaryOp? = some op →
      Prefixed ((op, t.span) :: ops) rest depth e → Prefixed ops (t :: rest) depth e
  | operand {ops t depth e} : Built t (depth + ops.length) e →
      Prefixed ops [t] depth (e.wrap ops)

/-- Member accesses and calls are applied from left to right. -/
inductive Suffixed : (object : Expr) → List (ParseTree Rule) → (depth : Nat) → Expr → Prop where
  | noSuffix {object depth} : Suffixed object [] depth object
  | member {object span inName name rest depth e} :
      Suffixed (.member object (String.ofList name) (object.span.merge span)) rest depth e →
      Suffixed object (.phrase .member span [.token .identifier inName name] :: rest) depth e
  | call {object span args rest depth es e} : BuiltAll args depth es →
      Suffixed (.call object es (object.span.merge span)) rest depth e →
      Suffixed object (.phrase .call span args :: rest) depth e

end

/-- What two steps that may fail came to. -/
theorem bind_ok {α β ε : Type} {x : Except ε α} {f : α → Except ε β} {b : β}
    (ok : (x >>= f) = .ok b) : ∃ a, x = .ok a ∧ f a = .ok b := by
  cases x with
  | error e => cases ok
  | ok a => exact ⟨a, rfl, ok⟩

mutual

/-- What the builder makes of a tree. -/
theorem built_of_ofTree {t : ParseTree Rule} {depth : Nat} {e : Expr}
    (built : ofTree t depth = .ok e) : Built t depth e := by
  unfold ofTree at built
  split at built
  · cases built
  · rename_i within
    have within := Nat.not_lt.mp within
    -- The cases are those of the builder, in its order.
    split at built
    case h_1 => exact .expression within (built_of_ofTree built)
    case h_2 | h_3 | h_4 | h_5 | h_6 => exact built_of_ofChain (by decide) built
    case h_7 => exact .unary within (prefixed_of_ofPrefixed built)
    case h_8 =>
      obtain ⟨object, isFirst, built⟩ := bind_ok built
      exact .suffixed within (built_of_ofTree isFirst) (suffixed_of_ofSuffixes built)
    case h_9 =>
      split at built
      · rename_i isNumber
        cases built
        exact .num within isNumber
      · cases built
    case h_10 =>
      cases built
      exact .str within
    case h_11 =>
      cases built
      exact .bool within
    case h_12 =>
      cases built
      exact .null within
    case h_13 =>
      obtain ⟨items, isItems, built⟩ := bind_ok built
      cases built
      exact .list within (builtAll_of_ofTrees isItems)
    case h_14 =>
      cases built
      exact .ident within
    case h_15 => cases built
termination_by sizeOf t

/-- What is built from several trees is built by the rules. -/
theorem builtAll_of_ofTrees {ts : List (ParseTree Rule)} {depth : Nat} {es : List Expr}
    (built : ofTrees ts depth = .ok es) : BuiltAll ts depth es := by
  cases ts with
  | nil =>
      cases built
      exact .nil
  | cons t rest =>
      obtain ⟨e, isFirst, built⟩ := bind_ok built
      obtain ⟨others, isRest, built⟩ := bind_ok built
      cases built
      exact .cons (built_of_ofTree isFirst) (builtAll_of_ofTrees isRest)
termination_by sizeOf ts

/-- What is built from a chain of operators is built by the rules. -/
theorem built_of_ofChain {r : Rule} (isChain : r ∈ Rule.chains) {span : Span}
    {ts : List (ParseTree Rule)} {depth : Nat} {e : Expr} (built : ofChain span ts depth = .ok e) :
    Built (.phrase r span ts) depth e := by
  cases ts with
  | nil => cases built
  | cons first rest =>
      rw [ofChain] at built
      split at built
      · cases built
      · rename_i within
        obtain ⟨left, isFirst, built⟩ := bind_ok built
        exact .chain isChain (Nat.not_lt.mp within) (built_of_ofTree isFirst)
          (operated_of_ofOperators built)
termination_by sizeOf ts

/-- What is built from operators and their operands is built by the rules. -/
theorem operated_of_ofOperators {left e : Expr} {ts : List (ParseTree Rule)} {depth : Nat}
    (built : ofOperators left ts depth = .ok e) : Operated left ts depth e := by
  match ts with
  | [] =>
      cases built
      exact .noOperator
  | [operator] => cases built
  | operator :: operand :: rest =>
      rw [ofOperators] at built
      split at built
      · cases built
      · rename_i op isOperator
        obtain ⟨right, isRight, built⟩ := bind_ok built
        exact .operator isOperator (built_of_ofTree isRight) (operated_of_ofOperators built)
termination_by sizeOf ts

/-- What is built from prefix operators is built by the rules. -/
theorem prefixed_of_ofPrefixed {span : Span} {ops : List (UnaryOp × Span)}
    {ts : List (ParseTree Rule)} {depth : Nat} {e : Expr}
    (built : ofPrefixed span ops ts depth = .ok e) : Prefixed ops ts depth e := by
  cases ts with
  | nil => cases built
  | cons t rest =>
      rw [ofPrefixed] at built
      split at built
      · rename_i op isOperator
        exact .before isOperator (prefixed_of_ofPrefixed built)
      · split at built
        · rename_i isLast
          obtain ⟨operand, isOperand, built⟩ := bind_ok built
          cases built
          cases List.isEmpty_iff.mp isLast
          exact .operand (built_of_ofTree isOperand)
        · cases built
termination_by sizeOf ts

/-- What is built from suffixes is built by the rules. -/
theorem suffixed_of_ofSuffixes {object e : Expr} {ts : List (ParseTree Rule)} {depth : Nat}
    (built : ofSuffixes object ts depth = .ok e) : Suffixed object ts depth e := by
  unfold ofSuffixes at built
  split at built
  · cases built
    exact .noSuffix
  · exact .member (suffixed_of_ofSuffixes built)
  · obtain ⟨args, isArgs, built⟩ := bind_ok built
    exact .call (builtAll_of_ofTrees isArgs) (suffixed_of_ofSuffixes built)
  · cases built
termination_by sizeOf ts

end

/-- Expressions are built from trees of the rules for expressions only. -/
theorem Built.rule_mem {t : ParseTree Rule} {depth : Nat} {e : Expr} (built : Built t depth e) :
    t.rule ∈ Rule.expressions := by
  cases built with
  | chain isChain =>
      have within : Rule.chains ⊆ Rule.expressions := by decide
      exact within isChain
  | expression | unary | suffixed | num | str | bool | null | list | ident =>
      simp [ParseTree.rule, Rule.expressions]

/-- A chain within the limit is built as a chain. -/
theorem ofTree_chain {r : Rule} (isChain : r ∈ Rule.chains) {depth : Nat}
    (within : depth ≤ nestingLimit) (span : Span) (parts : List (ParseTree Rule)) :
    ofTree (.phrase r span parts) depth = ofChain span parts depth := by
  simp only [Rule.chains, List.mem_cons, List.not_mem_nil, or_false] at isChain
  rcases isChain with rfl | rfl | rfl | rfl | rfl <;> rw [ofTree, if_neg (Nat.not_lt.mpr within)]

/-- What the rules say is what the builder makes. -/
theorem Built.ofTree_eq {t : ParseTree Rule} {depth : Nat} {e : Expr} (built : Built t depth e) :
    ofTree t depth = .ok e := by
  induction built using @Built.rec _ (fun ts depth es _ => ofTrees ts depth = .ok es)
    (fun left ts depth e _ => ofOperators left ts depth = .ok e)
    (fun ops ts depth e _ => ∀ span, ofPrefixed span ops ts depth = .ok e)
    (fun object ts depth e _ => ofSuffixes object ts depth = .ok e) with
  | nil | noOperator | noSuffix => rfl
  | str within | bool within | null within | ident within =>
      rw [ofTree, if_neg (Nat.not_lt.mpr within)]
  | num within isNumber =>
      rw [ofTree, if_neg (Nat.not_lt.mpr within)]
      simp only [isNumber]
  | expression within _ isInner =>
      rw [ofTree, if_neg (Nat.not_lt.mpr within)]
      exact isInner
  | chain isChain within _ _ isFirst isWhole =>
      rw [ofTree_chain isChain (Nat.le_of_add_right_le within), ofChain,
        if_neg (Nat.not_lt.mpr within), isFirst]
      exact isWhole
  | unary within _ isOperand =>
      rw [ofTree, if_neg (Nat.not_lt.mpr within)]
      exact isOperand _
  | suffixed within _ _ isFirst isWhole =>
      rw [ofTree, if_neg (Nat.not_lt.mpr within)]
      simp only [isFirst]
      exact isWhole
  | list within _ isItems =>
      rw [ofTree, if_neg (Nat.not_lt.mpr within)]
      simp only [isItems]
      rfl
  | cons _ _ isFirst isRest =>
      rw [ofTrees, isFirst, isRest]
      rfl
  | operator isOperator _ _ isRight isWhole =>
      rw [ofOperators, isOperator, isRight]
      exact isWhole
  | before isOperator _ isOperand span =>
      rw [ofPrefixed, isOperator]
      exact isOperand span
  | operand built isOperand span =>
      have noOperator : ∀ r ∈ Rule.expressions, r.unaryOp? = none := by decide
      rw [ofPrefixed, noOperator _ built.rule_mem, isOperand]
      rfl
  | member _ isWhole => rwa [ofSuffixes]
  | call _ _ isArgs isWhole =>
      rw [ofSuffixes, isArgs]
      exact isWhole

/-- **The builder of expressions follows the rules.** -/
theorem ofTree_eq_ok_iff {t : ParseTree Rule} {depth : Nat} {e : Expr} :
    ofTree t depth = .ok e ↔ Built t depth e :=
  ⟨built_of_ofTree, Built.ofTree_eq⟩

end Expr

/-! ## Statements -/

namespace Stmt

open ScriptShell.Expr (bind_ok)

mutual

/-- The statement that a tree without its terminator is built into, below `depth` levels of
blocks. -/
inductive Built : ParseTree Rule → (terminated : Bool) → (depth : Nat) → Stmt → Prop where
  | loadQuoted {span inString inText text terminated depth} :
      Built (.phrase .loadStmt span [.phrase .string inString [.token .stringInner inText text]])
        terminated depth (.load (String.ofList (readEscapes text)) span)
  | loadBare {span inTarget text terminated depth} :
      Built (.phrase .loadStmt span [.token .bareTarget inTarget text]) terminated depth
        (.load (String.ofList text) span)
  | use {span inName name terminated depth} :
      Built (.phrase .useStmt span [.token .identifier inName name]) terminated depth
        (.use (String.ofList name) span)
  | define {span inName name inParams params body terminated depth e} :
      Expr.Built body depth e →
      Built (.phrase .fnDecl span
          [.token .identifier inName name, .phrase .params inParams params, body])
        terminated depth (.define (String.ofList name) (paramNames params) e span)
  | bind {span inName name value terminated depth e} : Expr.Built value depth e →
      Built (.phrase .letStmt span [.token .identifier inName name, value]) terminated depth
        (.bind (String.ofList name) e span)
  | assign {span inName name value terminated depth e} : Expr.Built value depth e →
      Built (.phrase .assignStmt span [.token .identifier inName name, value]) terminated depth
        (.assign (String.ofList name) e span)
  | eval {span expr terminated depth e} : Expr.Built expr depth e →
      Built (.phrase .exprStmt span [expr]) terminated depth (.eval e terminated span)
  | loop {span test inBody body terminated depth e stmts} : Expr.Built test depth e →
      BuiltAll body (depth + 1) stmts →
      Built (.phrase .whileStmt span [test, .phrase .block inBody body]) terminated depth
        (.loop e stmts span)
  | branch {span test inTrue onTrue terminated depth e stmts} : depth ≤ nestingLimit →
      Expr.Built test depth e → BuiltAll onTrue (depth + 1) stmts →
      Built (.phrase .ifStmt span [test, .phrase .block inTrue onTrue]) terminated depth
        (.branch e stmts none span)
  | branchElse {span test inTrue onTrue inElse inFalse onFalse terminated depth e stmts others} :
      depth ≤ nestingLimit → Expr.Built test depth e →
      BuiltAll onTrue (depth + 1) stmts → BuiltAll onFalse (depth + 1) others →
      Built (.phrase .ifStmt span [test, .phrase .block inTrue onTrue,
          .phrase .elseClause inElse [.phrase .block inFalse onFalse]])
        terminated depth (.branch e stmts (some others) span)
  -- What follows `else` directly is built like a statement, but not looked at like one.
  | branchElseIf {span test inTrue onTrue inElse next terminated depth e stmts other} :
      depth ≤ nestingLimit → Expr.Built test depth e →
      BuiltAll onTrue (depth + 1) stmts → Built next false (depth + 1) other →
      Built (.phrase .ifStmt span [test, .phrase .block inTrue onTrue,
          .phrase .elseClause inElse [next]])
        terminated depth (.branch e stmts (some [other]) span)

/-- The statements that several trees are built into. -/
inductive BuiltAll : List (ParseTree Rule) → (depth : Nat) → List Stmt → Prop where
  | nil {depth} : BuiltAll [] depth []
  | cons {span body ending rest depth stmt stmts} : depth ≤ nestingLimit →
      Built body (!ending.isEmpty) depth stmt → BuiltAll rest depth stmts →
      BuiltAll (.phrase .statement span (body :: ending) :: rest) depth (stmt :: stmts)

end

mutual

/-- What the builder makes of a tree without its terminator. -/
theorem built_of_ofBody {t : ParseTree Rule} {terminated : Bool} {depth : Nat} {stmt : Stmt}
    (built : ofBody t terminated depth = .ok stmt) : Built t terminated depth stmt := by
  -- The cases are those of the builder, in its order.
  unfold ofBody at built
  split at built
  case h_1 =>
    cases built
    exact .loadQuoted
  case h_2 =>
    cases built
    exact .loadBare
  case h_3 =>
    cases built
    exact .use
  case h_4 =>
    obtain ⟨e, isBody, built⟩ := bind_ok built
    cases built
    exact .define (Expr.ofTree_eq_ok_iff.mp isBody)
  case h_5 =>
    obtain ⟨e, isValue, built⟩ := bind_ok built
    cases built
    exact .bind (Expr.ofTree_eq_ok_iff.mp isValue)
  case h_6 =>
    obtain ⟨e, isValue, built⟩ := bind_ok built
    cases built
    exact .assign (Expr.ofTree_eq_ok_iff.mp isValue)
  case h_7 =>
    obtain ⟨e, isExpr, built⟩ := bind_ok built
    cases built
    exact .eval (Expr.ofTree_eq_ok_iff.mp isExpr)
  case h_8 =>
    obtain ⟨e, isTest, built⟩ := bind_ok built
    obtain ⟨body, isBody, built⟩ := bind_ok built
    cases built
    exact .loop (Expr.ofTree_eq_ok_iff.mp isTest) (builtAll_of_ofTrees isBody)
  case h_9 =>
    split at built
    · cases built
    · rename_i within
      obtain ⟨e, isTest, built⟩ := bind_ok built
      obtain ⟨onTrue, isTrue, built⟩ := bind_ok built
      cases built
      exact .branch (Nat.not_lt.mp within) (Expr.ofTree_eq_ok_iff.mp isTest)
        (builtAll_of_ofTrees isTrue)
  case h_10 =>
    split at built
    · cases built
    · rename_i within
      obtain ⟨e, isTest, built⟩ := bind_ok built
      obtain ⟨onTrue, isTrue, built⟩ := bind_ok built
      obtain ⟨onFalse, isFalse, built⟩ := bind_ok built
      cases built
      exact .branchElse (Nat.not_lt.mp within) (Expr.ofTree_eq_ok_iff.mp isTest)
        (builtAll_of_ofTrees isTrue) (builtAll_of_ofTrees isFalse)
  case h_11 =>
    split at built
    · cases built
    · rename_i within
      obtain ⟨e, isTest, built⟩ := bind_ok built
      obtain ⟨onTrue, isTrue, built⟩ := bind_ok built
      obtain ⟨onFalse, isFalse, built⟩ := bind_ok built
      cases built
      exact .branchElseIf (Nat.not_lt.mp within) (Expr.ofTree_eq_ok_iff.mp isTest)
        (builtAll_of_ofTrees isTrue) (built_of_ofBody isFalse)
  case h_12 => cases built
termination_by sizeOf t

/-- What the builder makes of several trees. -/
theorem builtAll_of_ofTrees {ts : List (ParseTree Rule)} {depth : Nat} {stmts : List Stmt}
    (built : ofTrees ts depth = .ok stmts) : BuiltAll ts depth stmts := by
  cases ts with
  | nil =>
      cases built
      exact .nil
  | cons t rest =>
      obtain ⟨stmt, isFirst, built⟩ := bind_ok built
      obtain ⟨others, isRest, built⟩ := bind_ok built
      cases built
      unfold ofTree at isFirst
      split at isFirst
      · cases isFirst
      · rename_i within
        split at isFirst
        · exact .cons (Nat.not_lt.mp within) (built_of_ofBody isFirst) (builtAll_of_ofTrees isRest)
        · cases isFirst
termination_by sizeOf ts

end

/-- What the rules say is what the builder makes. -/
theorem BuiltAll.ofTrees_eq {ts : List (ParseTree Rule)} {depth : Nat} {stmts : List Stmt}
    (built : BuiltAll ts depth stmts) : ofTrees ts depth = .ok stmts := by
  induction built using @BuiltAll.rec
    (fun t terminated depth stmt _ => ofBody t terminated depth = .ok stmt) _ with
  | loadQuoted | loadBare | use | nil => rfl
  | define isExpr | bind isExpr | assign isExpr | eval isExpr =>
      rw [ofBody, Expr.ofTree_eq_ok_iff.mpr isExpr]
      rfl
  | loop isTest _ isBody =>
      rw [ofBody, Expr.ofTree_eq_ok_iff.mpr isTest, isBody]
      rfl
  | branch within isTest _ isTrue =>
      rw [ofBody, if_neg (Nat.not_lt.mpr within), Expr.ofTree_eq_ok_iff.mpr isTest, isTrue]
      rfl
  | branchElse within isTest _ _ isTrue isFalse =>
      rw [ofBody, if_neg (Nat.not_lt.mpr within), Expr.ofTree_eq_ok_iff.mpr isTest, isTrue, isFalse]
      rfl
  | branchElseIf within isTest _ next isTrue isNext =>
      rw [ofBody, if_neg (Nat.not_lt.mpr within), Expr.ofTree_eq_ok_iff.mpr isTest, isTrue, isNext]
      · rfl
      -- No rule builds a statement from a block.
      · rintro span block rfl
        cases next
  | cons within _ _ isFirst isRest =>
      rw [ofTrees, ofTree, if_neg (Nat.not_lt.mpr within)]
      simp only [isFirst, isRest]
      rfl

/-- **The builder of statements follows the rules.** -/
theorem ofTrees_eq_ok_iff {ts : List (ParseTree Rule)} {depth : Nat} {stmts : List Stmt} :
    ofTrees ts depth = .ok stmts ↔ BuiltAll ts depth stmts :=
  ⟨builtAll_of_ofTrees, BuiltAll.ofTrees_eq⟩

end Stmt

end ScriptShell
