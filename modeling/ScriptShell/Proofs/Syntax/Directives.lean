import ScriptShell.Proofs.Syntax.Levels
import ScriptShell.Proofs.Syntax.Lexeme

/-! # Directives of trees

The directives of a parse tree in the order of the source, those in blocks included, read off
without building statements; and **`Stmt.BuiltAll.directives_eq`**: the statements that are built
have the same ones. -/

namespace ScriptShell

open Grammar (ParseTree)

/-- Phrases in which statements stand. -/
def Rule.holdsStatements : Rule → Bool
  | .block | .ifStmt | .elseClause | .whileStmt => true
  | _ => false

/-- The target of a load directive, given its tree. -/
def targetOf : ParseTree Rule → List Char
  | .token _ _ text => text
  | .phrase _ _ [] => []
  | .phrase _ _ (raw :: _) => readEscapes raw.text

mutual

/-- The directives of a parse tree. -/
def treeDirectives : ParseTree Rule → List Directive
  | .token .. => []
  | .phrase _ _ [] => []
  | .phrase rule _ (first :: more) =>
    if rule = .loadStmt then [.load (targetOf first)]
    else if rule = .useStmt then [.use first.text]
    else if rule = .statement then treeDirectives first
    else if rule.holdsStatements then treeDirectives first ++ treeDirectivesAll more
    else []

/-- The directives of several parse trees. -/
def treeDirectivesAll : List (ParseTree Rule) → List Directive
  | [] => []
  | t :: rest => treeDirectives t ++ treeDirectivesAll rest

end

@[simp] theorem treeDirectivesAll_append (first second : List (ParseTree Rule)) :
    treeDirectivesAll (first ++ second) = treeDirectivesAll first ++ treeDirectivesAll second := by
  induction first with
  | nil => rfl
  | cons t rest ih => simp [treeDirectivesAll, ih]

/-- Where statements stand, the directives are those of the parts. -/
theorem treeDirectives_of_holdsStatements {rule : Rule} (holds : rule.holdsStatements = true)
    (span : Span) (parts : List (ParseTree Rule)) :
    treeDirectives (.phrase rule span parts) = treeDirectivesAll parts := by
  cases parts with
  | nil => rfl
  | cons first more =>
      have notLoad : rule ≠ .loadStmt := by
        rintro rfl
        cases holds
      have notUse : rule ≠ .useStmt := by
        rintro rfl
        cases holds
      have notStatement : rule ≠ .statement := by
        rintro rfl
        cases holds
      simp [treeDirectives, treeDirectivesAll, notLoad, notUse, notStatement, holds]

section

variable (span : Span) (parts : List (ParseTree Rule))

/-- The directives of a block are those of its parts. -/
theorem treeDirectives_block :
    treeDirectives (.phrase .block span parts) = treeDirectivesAll parts :=
  treeDirectives_of_holdsStatements rfl span parts

/-- The directives of a branch are those of its parts. -/
theorem treeDirectives_ifStmt :
    treeDirectives (.phrase .ifStmt span parts) = treeDirectivesAll parts :=
  treeDirectives_of_holdsStatements rfl span parts

/-- The directives of an alternative are those of its parts. -/
theorem treeDirectives_elseClause :
    treeDirectives (.phrase .elseClause span parts) = treeDirectivesAll parts :=
  treeDirectives_of_holdsStatements rfl span parts

/-- The directives of a loop are those of its parts. -/
theorem treeDirectives_whileStmt :
    treeDirectives (.phrase .whileStmt span parts) = treeDirectivesAll parts :=
  treeDirectives_of_holdsStatements rfl span parts

/-- The directives of a statement are those of its body. -/
theorem treeDirectives_statement (body : ParseTree Rule) (ending : List (ParseTree Rule)) :
    treeDirectives (.phrase .statement span (body :: ending)) = treeDirectives body := by
  simp [treeDirectives]

end

/-- Other phrases have no directives, unless they are one or hold one statement. -/
theorem treeDirectives_eq_nil {rule : Rule} (notLoad : rule ≠ .loadStmt) (notUse : rule ≠ .useStmt)
    (notStatement : rule ≠ .statement) (notHolds : rule.holdsStatements = false) (span : Span)
    (parts : List (ParseTree Rule)) : treeDirectives (.phrase rule span parts) = [] := by
  cases parts with
  | nil => rfl
  | cons first more => simp [treeDirectives, notLoad, notUse, notStatement, notHolds]

/-- The directive of a statement. -/
def Stmt.directive? : Stmt → Option Directive
  | .load target _ => some (.load target.toList)
  | .use name _ => some (.use name.toList)
  | .define .. | .bind .. | .assign .. | .branch .. | .loop .. | .eval .. => none

/-- The directives of statements, in the order of the source, those in blocks included. -/
def Stmt.directives (stmts : List Stmt) : List Directive :=
  (Stmt.partsAll stmts).filterMap Stmt.directive?

@[simp] theorem Stmt.directives_cons (stmt : Stmt) (rest : List Stmt) :
    Stmt.directives (stmt :: rest) =
      stmt.directive?.toList ++ stmt.inner.filterMap Stmt.directive? ++ Stmt.directives rest := by
  simp only [directives, partsAll, List.cons_append, List.filterMap_cons, List.filterMap_append]
  cases stmt.directive? <;> rfl

/-- The trees of expressions have no directives. -/
theorem Expr.Built.treeDirectives_eq_nil {t : ParseTree Rule} {depth : Nat} {e : Expr}
    (built : Expr.Built t depth e) : treeDirectives t = [] := by
  have isExpression := built.rule_mem
  cases t with
  | token => rfl
  | phrase rule span parts =>
      have other : rule ≠ .loadStmt ∧ rule ≠ .useStmt ∧ rule ≠ .statement ∧
          rule.holdsStatements = false := by
        revert isExpression
        rw [ParseTree.rule]
        cases rule <;> decide
      exact ScriptShell.treeDirectives_eq_nil other.1 other.2.1 other.2.2.1 other.2.2.2 span parts

namespace Stmt

/-- A statement with what stands in its blocks. -/
theorem directives_singleton (stmt : Stmt) :
    directives [stmt] = stmt.directive?.toList ++ stmt.inner.filterMap directive? := by
  rw [directives_cons]
  exact List.append_nil _

/-- **The statements that are built from trees have the directives of the trees.** -/
theorem BuiltAll.directives_eq {ts : List (ParseTree Rule)} {depth : Nat} {stmts : List Stmt}
    (built : BuiltAll ts depth stmts) : directives stmts = treeDirectivesAll ts := by
  induction built using @BuiltAll.rec
    (fun t _ _ stmt _ => directives [stmt] = treeDirectives t) _ with
  | loadQuoted | loadBare | use =>
      rw [directives_singleton]
      simp [directive?, inner, treeDirectives, targetOf, ParseTree.text]
  | define | bind | assign | eval => rfl
  | loop isTest _ ofBody =>
      simp only [treeDirectives_whileStmt, treeDirectivesAll, treeDirectives_block]
      rw [directives_singleton, isTest.treeDirectives_eq_nil, ← ofBody]
      simp [directive?, inner, directives]
  | branch _ isTest _ ofTrue =>
      simp only [treeDirectives_ifStmt, treeDirectivesAll, treeDirectives_block]
      rw [directives_singleton, isTest.treeDirectives_eq_nil, ← ofTrue]
      simp [directive?, inner, directives]
  | branchElse _ isTest _ _ ofTrue ofFalse =>
      simp only [treeDirectives_ifStmt, treeDirectivesAll, treeDirectives_block,
        treeDirectives_elseClause]
      rw [directives_singleton, isTest.treeDirectives_eq_nil, ← ofTrue, ← ofFalse]
      simp [directive?, inner, directives]
  -- A branch after `else` is a statement by itself, not one in a block.
  | branchElseIf _ isTest _ _ ofTrue ofNext =>
      simp only [treeDirectives_ifStmt, treeDirectivesAll, treeDirectives_block,
        treeDirectives_elseClause]
      rw [directives_singleton, isTest.treeDirectives_eq_nil, ← ofTrue, ← ofNext]
      simp [directive?, inner, directives]
  | nil => rfl
  | cons _ _ _ ofFirst ofRest =>
      rw [directives_cons, ← directives_singleton, treeDirectivesAll, treeDirectives_statement,
        ofFirst, ofRest]

end Stmt

end ScriptShell
