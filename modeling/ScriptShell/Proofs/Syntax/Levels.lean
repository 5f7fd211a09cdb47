import ScriptShell.Proofs.Syntax.Built
import ScriptShell.Proofs.Syntax.Parts

/-! # How deep expressions go

The builder of syntax trees counts levels on its way down and refuses what lies below
`nestingLimit` of them. Its count covers the tree that it builds: **`Expr.Built.levels_le`** says
that an expression built below some levels has no more of its own than were left. Chains of
operators and suffixes are where this is not plain, since they grow a tree to the left, above what
was built first; the builder counts all their levels before it goes down. -/

namespace ScriptShell

namespace Expr

open Grammar (ParseTree)

/-- Prefix operators add a level each. -/
theorem levels_wrap (e : Expr) (ops : List (UnaryOp × Span)) :
    (e.wrap ops).levels = e.levels + ops.length := by
  unfold wrap
  induction ops generalizing e with
  | nil => rfl
  | cons op rest ih =>
      rw [List.foldl_cons, ih]
      simp only [levels, List.length_cons]
      omega

/-- **Levels are counted.** An expression that was built below `depth` levels has at most as many
levels as `nestingLimit` leaves. -/
theorem Built.levels_le {t : ParseTree Rule} {depth : Nat} {e : Expr} (built : Built t depth e) :
    e.levels + depth ≤ nestingLimit + 1 := by
  -- Operators and suffixes grow a tree by a level each; `extra` are those it has grown by so far.
  induction built using @Built.rec _
    (fun _ depth es _ => levelsAll es ≤ nestingLimit + 1 - depth)
    (fun left ts depth e _ => ∀ extra, left.levels + depth ≤ nestingLimit + 1 + extra →
      e.levels + depth ≤ nestingLimit + 1 + extra + ts.length / 2)
    (fun _ _ depth e _ => e.levels + depth ≤ nestingLimit + 1)
    (fun object ts depth e _ => ∀ extra, object.levels + depth ≤ nestingLimit + 1 + extra →
      e.levels + depth ≤ nestingLimit + 1 + extra + ts.length) with
  | num within _ | str within | bool within | null within | ident within =>
      simp only [levels]
      omega
  | expression _ _ inner => omega
  | chain _ _ _ _ first grown =>
      have whole := grown 0 first
      omega
  | unary _ _ operand => exact operand
  | suffixed _ _ _ first grown =>
      have whole := grown 0 first
      omega
  | list within _ items =>
      simp only [levels]
      omega
  | nil => exact Nat.zero_le _
  | cons _ _ first others =>
      simp only [levelsAll]
      omega
  | noOperator extra below => simpa using below
  | operator _ _ _ right grown extra below =>
      -- The new root is one level above both operands, which the next operator may rely on.
      have whole := grown (extra + 1) (by simp only [levels]; omega)
      simp only [List.length_cons]
      omega
  | before _ _ operand => exact operand
  | operand _ below =>
      rw [levels_wrap]
      omega
  | noSuffix extra below => simpa using below
  | member _ grown extra below =>
      have whole := grown (extra + 1) (by simp only [levels]; omega)
      simp only [List.length_cons]
      omega
  | call _ _ args grown extra below =>
      have whole := grown (extra + 1) (by simp only [levels]; omega)
      simp only [List.length_cons]
      omega

end Expr

namespace Stmt

open Grammar (ParseTree)

/-- The expression of a statement built below `depth` levels. -/
theorem Built.levels_le {t : ParseTree Rule} {terminated : Bool} {depth : Nat} {stmt : Stmt}
    (built : Built t terminated depth stmt) {e : Expr} (own : stmt.expression? = some e) :
    e.levels + depth ≤ nestingLimit + 1 := by
  cases built with
  | loadQuoted | loadBare | use => cases own
  | define isExpr | bind isExpr | assign isExpr | eval isExpr | loop isExpr _ | branch _ isExpr _
  | branchElse _ isExpr _ _ | branchElseIf _ isExpr _ _ =>
      cases own
      exact isExpr.levels_le

/-- The statements built from parse trees come from one of them each. -/
theorem BuiltAll.exists_of_mem {ts : List (ParseTree Rule)} {depth : Nat} {stmts : List Stmt}
    (built : BuiltAll ts depth stmts) {stmt : Stmt} (member : stmt ∈ stmts) :
    ∃ t terminated, Built t terminated depth stmt := by
  induction stmts generalizing ts with
  | nil => cases member
  | cons first others ih =>
      cases built with
      | cons _ isFirst rest =>
          rcases List.mem_cons.mp member with rfl | member
          · exact ⟨_, _, isFirst⟩
          · exact ih rest member

end Stmt

/-- What something can be said of as a result is one. -/
theorem exists_ok_of_any {ε α : Type} {result : Except ε α} {p : α → Bool}
    (isAny : result.toOption.any p = true) : ∃ a, result = .ok a ∧ p a = true := by
  cases result with
  | error e => cases isAny
  | ok a => exact ⟨a, rfl, isAny⟩

/-- A text of which something can be said as a fragment is one. -/
theorem exists_parse_of_any {text : String} {p : List Stmt → Bool}
    (isAny : (parse text).toOption.any p = true) : ∃ stmts, parse text = .ok stmts ∧ p stmts :=
  exists_ok_of_any isAny

/-- The expressions of the statements of a fragment have at most `nestingLimit + 1` levels. -/
theorem levels_le_of_parse {text : String} {stmts : List Stmt} (parsed : parse text = .ok stmts)
    {stmt : Stmt} (member : stmt ∈ stmts) {e : Expr} (own : stmt.expression? = some e) :
    e.levels ≤ nestingLimit + 1 := by
  unfold parse parseChars at parsed
  split at parsed
  · cases parsed
  · obtain ⟨t, terminated, built⟩ := (Stmt.ofTrees_eq_ok_iff.mp parsed).exists_of_mem member
    have below := built.levels_le own
    omega
  · cases parsed

end ScriptShell
