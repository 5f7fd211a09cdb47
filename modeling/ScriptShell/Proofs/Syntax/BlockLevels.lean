import ScriptShell.Proofs.Grammar.Bound
import ScriptShell.Proofs.Syntax.Levels
import ScriptShell.Proofs.Syntax.Rows
import ScriptShell.Proofs.Syntax.Tokens

/-! # How deep blocks go

A run opens a level for each block and for each expression on its way into a fragment.
`Stmt.blockLevels` counts them along the longest way, and **`blockLevels_le_of_parse`** says that no
fragment has more than `nestingLimit + 1`. The builder looks at blocks, branches and expressions
separately; what ties its looks together is that the grammar puts an expression where it expects
one, so that every statement with an expression has been looked at a level below. -/

namespace ScriptShell

open Grammar (ParseTree Derived)

/-! ## Levels of statements -/

mutual

/-- How many levels of blocks and expressions lie on the longest way into a statement. -/
def Stmt.levels : Stmt → Nat
  | .load .. | .use .. => 0
  | .define _ _ e _ | .bind _ e _ | .assign _ e _ | .eval e _ _ => e.levels
  | .branch test onTrue none _ => max test.levels (Stmt.blockLevels onTrue)
  | .branch test onTrue (some onFalse) _ =>
    max test.levels (max (Stmt.blockLevels onTrue) (Stmt.blockLevels onFalse))
  | .loop test body _ => max test.levels (Stmt.blockLevels body)

/-- How many levels lie on the longest way into a block, which is one itself. -/
def Stmt.blockLevels : List Stmt → Nat
  | [] => 1
  | stmt :: rest => max (stmt.levels + 1) (Stmt.blockLevels rest)

end

/-- Every expression is a level. -/
theorem Expr.levels_pos (e : Expr) : 0 < e.levels := by
  cases e <;> simp only [levels] <;> omega

namespace Stmt

/-- Every block is a level. -/
theorem blockLevels_pos (stmts : List Stmt) : 0 < blockLevels stmts := by
  cases stmts <;> simp only [blockLevels] <;> omega

/-- A statement has fewer levels than its block. -/
theorem levels_lt_blockLevels {stmt : Stmt} {stmts : List Stmt} (member : stmt ∈ stmts) :
    stmt.levels < blockLevels stmts := by
  induction stmts with
  | nil => cases member
  | cons first rest ih =>
      unfold blockLevels
      rcases List.mem_cons.mp member with rfl | member
      · omega
      · have below := ih member
        omega

/-- The test of a branch is no deeper than the branch. -/
theorem levels_test_le {test : Expr} {onTrue : List Stmt} {onFalse : Option (List Stmt)}
    {span : Span} : test.levels ≤ (Stmt.branch test onTrue onFalse span).levels := by
  cases onFalse <;> simp only [levels] <;> omega

end Stmt

/-! ## Building -/

namespace Stmt

/-- An expression in its place is built a level further down. -/
theorem levels_ofExpression {t : ParseTree Rule} (isExpression : t.rule = .expression) {depth : Nat}
    {e : Expr} (built : Expr.Built t depth e) : e.levels + depth ≤ nestingLimit := by
  cases built with
  | expression _ inner =>
      have below := inner.levels_le
      omega
  | chain isChain =>
      cases isExpression
      exact absurd isChain (by decide)
  | unary | suffixed | num | str | bool | null | list | ident => cases isExpression

/-- The test of a branch or a loop leaves room for the level of a block. -/
theorem levels_ofTest {r : Rule} (tests : r = .ifStmt ∨ r = .whileStmt) {span : Span}
    {t : ParseTree Rule} {blocks : List (ParseTree Rule)}
    (derived : Derived scriptGrammar (.phrase r span (t :: blocks))) {depth : Nat} {test : Expr}
    (built : Expr.Built t depth test) :
    depth + 1 ≤ nestingLimit ∧ test.levels + depth ≤ nestingLimit := by
  have isExpression : t.rule = .expression := by
    rcases tests with rfl | rfl
    all_goals
      have row := mem_rows derived (by decide)
      simp only [Rule.rows, List.map_cons, List.mem_cons, List.cons.injEq] at row
      grind
  have ofTest := levels_ofExpression isExpression built
  have one := test.levels_pos
  omega

/-- The statements of a block below `depth` levels of blocks. -/
theorem BuiltAll.blockLevels_le {ts : List (ParseTree Rule)} {depth : Nat} {stmts : List Stmt}
    (built : BuiltAll ts depth stmts) (derived : ∀ t ∈ ts, Derived scriptGrammar t)
    (within : depth ≤ nestingLimit) : blockLevels stmts + depth ≤ nestingLimit + 1 := by
  -- A statement has no block of its own around it, so it leaves one level more.
  induction built using @BuiltAll.rec
    (fun t _ depth stmt _ => Derived scriptGrammar t → depth ≤ nestingLimit →
      stmt.levels + depth ≤ nestingLimit) _ with
  | loadQuoted _ within | loadBare _ within | use _ within =>
      simpa [levels] using within
  | define isExpr derived _ | bind isExpr derived _ | assign isExpr derived _
  | eval isExpr derived _ =>
      have row := mem_rows derived (by decide)
      simp only [Rule.rows, List.map_cons, List.map_nil, List.mem_singleton,
        List.cons.injEq, and_true] at row
      exact levels_ofExpression (by simp only [row]) isExpr
  | loop isTest _ ofBody derived _ =>
      have ofTest := levels_ofTest (.inr rfl) derived isTest
      obtain ⟨-, inside⟩ := derived.parts
      have below := ofBody (inside _ (.tail _ (.head _))).parts.2 ofTest.1
      simp only [levels]
      omega
  | branch _ isTest _ ofTrue derived _ =>
      have ofTest := levels_ofTest (.inl rfl) derived isTest
      obtain ⟨-, inside⟩ := derived.parts
      have below := ofTrue (inside _ (.tail _ (.head _))).parts.2 ofTest.1
      simp only [levels]
      omega
  | branchElse _ isTest _ _ ofTrue ofFalse derived _ =>
      have ofTest := levels_ofTest (.inl rfl) derived isTest
      obtain ⟨-, inside⟩ := derived.parts
      have below := ofTrue (inside _ (.tail _ (.head _))).parts.2 ofTest.1
      have inElse := (inside _ (.tail _ (.tail _ (.head _)))).parts.2 _ (.head _)
      have below' := ofFalse inElse.parts.2 ofTest.1
      simp only [levels]
      omega
  | branchElseIf _ isTest _ _ ofTrue ofNext derived _ =>
      have ofTest := levels_ofTest (.inl rfl) derived isTest
      obtain ⟨-, inside⟩ := derived.parts
      have below := ofTrue (inside _ (.tail _ (.head _))).parts.2 ofTest.1
      have inElse := (inside _ (.tail _ (.tail _ (.head _)))).parts.2 _ (.head _)
      have below' := ofNext inElse ofTest.1
      simp only [levels, blockLevels]
      omega
  | nil =>
      simp only [blockLevels]
      omega
  | cons _ _ _ ofFirst ofRest =>
      rw [List.forall_mem_cons] at derived
      have first := ofFirst (derived.1.parts.2 _ (.head _)) within
      have others := ofRest derived.2 within
      simp only [blockLevels]
      omega

end Stmt

/-- **A fragment is not deep.** No way into a fragment has more than `nestingLimit + 1` levels. -/
theorem blockLevels_le_of_parse {text : String} {stmts : List Stmt}
    (parsed : parse text = .ok stmts) : Stmt.blockLevels stmts ≤ nestingLimit + 1 := by
  unfold parse parseChars at parsed
  split at parsed
  · cases parsed
  · rename_i parts matched
    obtain ⟨last, isMatch⟩ := Grammar.matches_of_match? scriptRanked (by decide) matched
    obtain ⟨-, derived⟩ := isMatch.derived rfl (by decide)
    have inside := (derived _ (.head _)).parts.2
    exact (Stmt.ofTrees_eq_ok_iff.mp parsed).blockLevels_le
      (fun t member => inside t (List.mem_filter.mp member).1) (Nat.zero_le _)
  · cases parsed

end ScriptShell
