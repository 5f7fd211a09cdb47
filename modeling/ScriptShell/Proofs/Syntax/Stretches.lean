import ScriptShell.Proofs.Grammar.Bound
import ScriptShell.Proofs.Grammar.Stretches
import ScriptShell.Proofs.Syntax.Levels
import ScriptShell.Proofs.Syntax.Tokens

/-! # Where syntax trees lie

The builder takes stretches over from parse trees, and makes new ones by merging where it grows a
tree to the left or wraps operators around an operand. Neither loses what is known of the parse
trees: the stretch of every expression and statement is exact, and what stands right below it lies
in a row inside it. -/

namespace ScriptShell

open Grammar (ParseTree)

/-! ## Expressions -/

namespace Expr

/-- The stretch of an expression is exact, and its operands lie in a row inside it. -/
structure Spanned (text : String) (e : Expr) : Prop where
  exact : e.span.Exact text
  row : Span.Row e.span.start (e.operands.map span) e.span.stop

/-- An expression that lies between two offsets, all parts of which are spanned. -/
structure Lies (text : String) (first last : Nat) (e : Expr) : Prop where
  spanned : ∀ part ∈ e.parts, part.Spanned text
  starts : first ≤ e.span.start
  stops : e.span.stop ≤ last

namespace Lies

variable {text : String} {first last : Nat} {e : Expr}

/-- An expression that lies in a text has an exact stretch of it. -/
theorem exact (lies : Lies text first last e) : e.span.Exact text :=
  (lies.spanned e e.self_mem_parts).exact

/-- An expression lies between any offsets further apart. -/
theorem widen (lies : Lies text first last e) {first' last' : Nat} (starts : first' ≤ first)
    (stops : last ≤ last') : Lies text first' last' e :=
  ⟨lies.spanned, Nat.le_trans starts lies.starts, Nat.le_trans lies.stops stops⟩

/-- An expression lies where its stretch does, if its operands lie in it. -/
theorem of_spanned (spanned : e.Spanned text) (starts : first ≤ e.span.start)
    (stops : e.span.stop ≤ last)
    (operands : ∀ operand ∈ e.operands, ∀ part ∈ operand.parts, part.Spanned text) :
    Lies text first last e := by
  refine ⟨fun part member => ?_, starts, stops⟩
  rcases mem_parts_iff.mp member with rfl | ⟨operand, isOperand, inside⟩
  · exact spanned
  · exact operands operand isOperand part inside

/-- An expression without operands. -/
theorem leaf {s : Span} (exact : s.Exact text) (isSpan : e.span = s) (isLeaf : e.operands = []) :
    Lies text s.start s.stop e := by
  subst isSpan
  refine of_spanned ⟨exact, ?_⟩ (Nat.le_refl _) (Nat.le_refl _) (by simp [isLeaf])
  rw [isLeaf]
  exact exact.ordered

/-- An operator between two operands, the left one of which comes first. -/
theorem binary {middle : Nat} {left right : Expr} (op : BinaryOp)
    (ofLeft : Lies text first middle left) (ofRight : Lies text middle last right) :
    Lies text first last (.binary op left right (left.span.merge right.span)) := by
  have leftOrdered := ofLeft.exact.ordered
  have rightOrdered := ofRight.exact.ordered
  have starts := ofLeft.starts
  have ends := ofLeft.stops
  have begins := ofRight.starts
  have stops := ofRight.stops
  refine of_spanned ⟨ofLeft.exact.merge ofRight.exact, ?_⟩ ?_ ?_ ?_
  · show Span.Row (min left.span.start right.span.start) [left.span, right.span]
      (max left.span.stop right.span.stop)
    exact ⟨by omega, leftOrdered, by omega, rightOrdered, Nat.le_max_right _ _⟩
  · show first ≤ min left.span.start right.span.start
    omega
  · show max left.span.stop right.span.stop ≤ last
    omega
  · simp only [operands, List.mem_cons, List.not_mem_nil, or_false, forall_eq_or_imp, forall_eq]
    exact ⟨ofLeft.spanned, ofRight.spanned⟩

/-- An operand and a stretch beside it, merged. -/
theorem merged {whole : Expr} {s : Span} (lies : Lies text first last e)
    (beside : s.Exact text) (starts : first ≤ s.start) (stops : s.stop ≤ last)
    (isSpan : whole.span = s.merge e.span ∨ whole.span = e.span.merge s)
    (isOperand : whole.operands = [e]) : Lies text first last whole := by
  have ordered := lies.exact.ordered
  have exact : whole.span.Exact text := by
    rcases isSpan with isSpan | isSpan
    · rw [isSpan]
      exact beside.merge lies.exact
    · rw [isSpan]
      exact lies.exact.merge beside
  have bounds : whole.span.start = min s.start e.span.start ∧
      whole.span.stop = max s.stop e.span.stop := by
    rcases isSpan with isSpan | isSpan
    · rw [isSpan]
      exact ⟨rfl, rfl⟩
    · rw [isSpan]
      exact ⟨Nat.min_comm _ _, Nat.max_comm _ _⟩
  have := lies.starts
  have := lies.stops
  refine of_spanned ⟨exact, ?_⟩ (by omega) (by omega) (by simpa [isOperand] using lies.spanned)
  rw [isOperand]
  exact .singleton (by omega) ordered (by omega)

/-- A member of an expression, named by a suffix. -/
theorem member {s : Span} (property : String) (lies : Lies text first s.start e)
    (suffix : s.Exact text) : Lies text first s.stop (.member e property (e.span.merge s)) := by
  have ordered := lies.exact.ordered
  have begins := lies.starts
  have ends := lies.stops
  exact (lies.widen (Nat.le_refl _) suffix.ordered).merged suffix (by omega) (Nat.le_refl _)
    (.inr rfl) rfl

/-- Prefix operators before an operand. -/
theorem wrap {ops : List (UnaryOp × Span)} (lies : Lies text first last e)
    (each : ∀ op ∈ ops, op.2.Exact text ∧ first ≤ op.2.start ∧ op.2.stop ≤ last) :
    Lies text first last (e.wrap ops) := by
  unfold Expr.wrap
  induction ops generalizing e with
  | nil => exact lies
  | cons op rest ih =>
      rw [List.forall_mem_cons] at each
      obtain ⟨⟨exact, starts, stops⟩, others⟩ := each
      exact ih (lies.merged exact starts stops (.inl rfl) rfl) others

/-- A call of an expression with arguments in a row inside the stretch of a suffix. -/
theorem call {s : Span} {args : List Expr} (callee : Lies text first s.start e)
    (suffix : s.Exact text) (row : Span.Row s.start (args.map span) s.stop)
    (each : ∀ arg ∈ args, ∀ part ∈ arg.parts, part.Spanned text) :
    Lies text first s.stop (.call e args (e.span.merge s)) := by
  have ordered := callee.exact.ordered
  have further := suffix.ordered
  have ends := callee.stops
  have begins := callee.starts
  refine of_spanned ⟨callee.exact.merge suffix, ?_⟩ ?_ ?_ ?_
  · exact ⟨Nat.min_le_left _ _, ordered, row.widen ends (Nat.le_max_right _ _)⟩
  · show first ≤ min e.span.start s.start
    omega
  · show max e.span.stop s.stop ≤ s.stop
    omega
  · exact List.forall_mem_cons.mpr ⟨callee.spanned, each⟩

end Lies

/-- **Expressions lie where they were read.** The expression of a tree lies inside the stretch of
the tree. -/
theorem Built.lies {text : String} {t : ParseTree Rule} {depth : Nat} {e : Expr}
    (built : Built t depth e) (laid : t.Laid text) : Lies text t.span.start t.span.stop e := by
  -- Operators and suffixes are applied after what lies before them; the operators before an operand
  -- lie between the same offsets as the operand.
  induction built using @Built.rec _
    (fun ts _ es _ => ∀ first last, (∀ t ∈ ts, t.Laid text) →
      Span.Row first (ts.map (·.span)) last →
      Span.Row first (es.map span) last ∧ ∀ e ∈ es, ∀ part ∈ e.parts, part.Spanned text)
    (fun left ts _ e _ => ∀ first middle last, Lies text first middle left →
      (∀ t ∈ ts, t.Laid text) → Span.Row middle (ts.map (·.span)) last → Lies text first last e)
    (fun ops ts _ e _ => ∀ first last, (∀ t ∈ ts, t.Laid text) →
      Span.Row first (ts.map (·.span)) last →
      (∀ op ∈ ops, op.2.Exact text ∧ first ≤ op.2.start ∧ op.2.stop ≤ last) →
      Lies text first last e)
    (fun object ts _ e _ => ∀ first middle last, Lies text first middle object →
      (∀ t ∈ ts, t.Laid text) → Span.Row middle (ts.map (·.span)) last →
      Lies text first last e) with
  | num | str | bool | null | ident => exact .leaf laid.exact rfl rfl
  | expression _ _ ofInner =>
      obtain ⟨inside, row⟩ := laid.parts
      have bounds := row.bounds (.head _)
      exact (ofInner (inside _ (.head _))).widen bounds.1 bounds.2
  | chain _ _ _ _ ofFirst grown | suffixed _ _ _ ofFirst grown =>
      obtain ⟨inside, row⟩ := laid.parts
      rw [List.forall_mem_cons] at inside
      exact grown _ _ _ ((ofFirst inside.1).widen row.1 (Nat.le_refl _)) inside.2 row.2.2
  | unary _ _ ofParts => exact ofParts _ _ laid.parts.1 laid.parts.2 (by simp)
  | list _ _ ofItems =>
      obtain ⟨row, each⟩ := ofItems _ _ laid.parts.1 laid.parts.2
      exact .of_spanned ⟨laid.exact, row⟩ (Nat.le_refl _) (Nat.le_refl _) each
  | nil first last _ row => exact ⟨row, by simp⟩
  | cons _ _ ofFirst ofRest first last laid row =>
      rw [List.forall_mem_cons] at laid
      have lies := ofFirst laid.1
      obtain ⟨further, each⟩ := ofRest _ _ laid.2 row.2.2
      refine ⟨⟨Nat.le_trans row.1 lies.starts, lies.exact.ordered, ?_⟩, ?_⟩
      · exact further.widen lies.stops (Nat.le_refl _)
      · exact List.forall_mem_cons.mpr ⟨lies.spanned, each⟩
  | noOperator first middle last before _ row | noSuffix first middle last before _ row =>
      exact before.widen (Nat.le_refl _) row
  | operator _ _ _ ofRight grown first middle last before laid row =>
      simp only [List.forall_mem_cons] at laid
      obtain ⟨starts, ordered, begins, -, others⟩ := row
      have right := (ofRight laid.2.1).widen
        (Nat.le_trans starts (Nat.le_trans ordered begins)) (Nat.le_refl _)
      exact grown _ _ _ (before.binary _ right) laid.2.2 others
  | before _ _ ofRest first last laid row each =>
      rw [List.forall_mem_cons] at laid
      refine ofRest _ _ laid.2 (row.2.2.widen (Nat.le_trans row.1 row.2.1) (Nat.le_refl _)) ?_
      exact List.forall_mem_cons.mpr ⟨⟨laid.1.exact, row.bounds (.head _)⟩, each⟩
  | operand _ ofOperand first last laid row each =>
      have bounds := row.bounds (.head _)
      exact ((ofOperand (laid _ (.head _))).widen bounds.1 bounds.2).wrap each
  | member _ grown first middle last before laid row =>
      rw [List.forall_mem_cons] at laid
      obtain ⟨starts, -, others⟩ := row
      have object := before.widen (Nat.le_refl _) starts
      exact grown _ _ _ (object.member _ laid.1.exact) laid.2 others
  | call _ _ ofArgs grown first middle last before laid row =>
      rw [List.forall_mem_cons] at laid
      obtain ⟨starts, -, others⟩ := row
      have object := before.widen (Nat.le_refl _) starts
      obtain ⟨inside, argsRow⟩ := laid.1.parts
      obtain ⟨argsRow, each⟩ := ofArgs _ _ inside argsRow
      exact grown _ _ _ (object.call laid.1.exact argsRow each) laid.2 others

end Expr

/-! ## Statements -/

namespace Stmt

/-- The stretches of what stands right below a statement: its expression, and the statements of its
blocks. -/
def childSpans : Stmt → List Span
  | .load .. | .use .. => []
  | .define _ _ e _ | .bind _ e _ | .assign _ e _ | .eval e _ _ => [e.span]
  | .branch test onTrue onFalse _ =>
    test.span :: onTrue.map span ++ (onFalse.getD []).map span
  | .loop test body _ => test.span :: body.map span

/-- The stretch of a statement is exact, what stands right below it lies in a row inside it, and all
parts of its expression are spanned. -/
structure Spanned (text : String) (stmt : Stmt) : Prop where
  exact : stmt.span.Exact text
  row : Span.Row stmt.span.start stmt.childSpans stmt.span.stop
  parts : ∀ e, stmt.expression? = some e → ∀ part ∈ e.parts, part.Spanned text

variable {text : String}

/-- A statement whose expression stands first below it. -/
theorem Spanned.of_lies {stmt : Stmt} {e : Expr} {middle : Nat} {blocks : List Span}
    (exact : stmt.span.Exact text) (lies : Expr.Lies text stmt.span.start middle e)
    (isExpression : stmt.expression? = some e) (isRow : stmt.childSpans = e.span :: blocks)
    (row : Span.Row middle blocks stmt.span.stop) : stmt.Spanned text := by
  refine ⟨exact, ?_, ?_⟩
  · rw [isRow]
    exact ⟨lies.starts, lies.exact.ordered, row.widen lies.stops (Nat.le_refl _)⟩
  · intro other own
    cases isExpression.symm.trans own
    exact lies.spanned

/-- The expression of a tree below a phrase lies inside the stretch of the phrase. -/
theorem lies_of_mem {r : Rule} {span : Span} {parts : List (ParseTree Rule)} {t : ParseTree Rule}
    (laid : (ParseTree.phrase r span parts).Laid text) (member : t ∈ parts) {depth : Nat} {e : Expr}
    (built : Expr.Built t depth e) : Expr.Lies text span.start span.stop e := by
  obtain ⟨inside, row⟩ := laid.parts
  have bounds := row.bounds (List.mem_map_of_mem member)
  exact (built.lies (inside t member)).widen bounds.1 bounds.2

/-- The expression of the first tree below a phrase lies before the other trees. -/
theorem lies_of_head {r : Rule} {span : Span} {t : ParseTree Rule} {rest : List (ParseTree Rule)}
    (laid : (ParseTree.phrase r span (t :: rest)).Laid text) {depth : Nat} {e : Expr}
    (built : Expr.Built t depth e) : Expr.Lies text span.start t.span.stop e := by
  obtain ⟨inside, row⟩ := laid.parts
  exact (built.lies (inside t (.head _))).widen row.1 (Nat.le_refl _)

/-- The statements of several trees in a row lie in a row, and all statements in them are
spanned. -/
theorem BuiltAll.row {ts : List (ParseTree Rule)} {depth first last : Nat} {stmts : List Stmt}
    (built : BuiltAll ts depth stmts) (laid : ∀ t ∈ ts, t.Laid text)
    (row : Span.Row first (ts.map (·.span)) last) :
    Span.Row first (stmts.map span) last ∧ ∀ part ∈ partsAll stmts, part.Spanned text := by
  -- A statement without its terminator has the stretch of its tree.
  induction built using @BuiltAll.rec
    (fun t _ _ stmt _ => t.Laid text →
      stmt.span = t.span ∧ ∀ part ∈ stmt.parts, part.Spanned text) _ generalizing first last with
  | loadQuoted laid | loadBare laid | use laid =>
      have exact := laid.exact
      refine ⟨rfl, List.forall_mem_singleton.mpr ⟨exact, exact.ordered, fun e own => ?_⟩⟩
      cases own
  | define isExpr laid | bind isExpr laid | assign isExpr laid | eval isExpr laid =>
      have lies := lies_of_mem laid (by simp) isExpr
      exact ⟨rfl, List.forall_mem_singleton.mpr (.of_lies laid.exact lies rfl rfl (Nat.le_refl _))⟩
  | loop isTest _ ofBody laid =>
      obtain ⟨inside, -, -, begins, -, stops⟩ := laid.parts
      have lies := lies_of_head laid isTest
      have block := (inside _ (.tail _ (.head _))).parts
      obtain ⟨bodyRow, bodySpanned⟩ := ofBody block.1 block.2
      refine ⟨rfl, List.forall_mem_cons.mpr ⟨?_, bodySpanned⟩⟩
      exact .of_lies laid.exact lies rfl rfl (bodyRow.widen begins stops)
  | branch _ isTest _ ofTrue laid =>
      obtain ⟨inside, -, -, begins, -, stops⟩ := laid.parts
      have lies := lies_of_head laid isTest
      have block := (inside _ (.tail _ (.head _))).parts
      obtain ⟨trueRow, trueSpanned⟩ := ofTrue block.1 block.2
      refine ⟨rfl, List.forall_mem_cons.mpr ⟨?_, trueSpanned⟩⟩
      exact .of_lies laid.exact lies rfl (by simp [childSpans]) (trueRow.widen begins stops)
  | branchElse _ isTest _ _ ofTrue ofFalse laid =>
      obtain ⟨inside, -, -, begins, -, follows, -, stops⟩ := laid.parts
      have lies := lies_of_head laid isTest
      have block := (inside _ (.tail _ (.head _))).parts
      obtain ⟨trueRow, trueSpanned⟩ := ofTrue block.1 block.2
      -- The second block lies in the clause around it.
      obtain ⟨inClause, clauseRow⟩ := (inside _ (.tail _ (.tail _ (.head _)))).parts
      have other := (inClause _ (.head _)).parts
      obtain ⟨falseRow, falseSpanned⟩ := ofFalse other.1 other.2
      refine ⟨rfl, List.forall_mem_cons.mpr ⟨.of_lies laid.exact lies rfl rfl ?_,
        List.forall_mem_append.mpr ⟨trueSpanned, falseSpanned⟩⟩⟩
      exact (trueRow.widen begins follows).append
        (falseRow.widen clauseRow.1 (Nat.le_trans clauseRow.2.2 stops))
  | branchElseIf _ isTest _ _ ofTrue ofNext laid =>
      obtain ⟨inside, -, -, begins, -, follows, -, stops⟩ := laid.parts
      have lies := lies_of_head laid isTest
      have block := (inside _ (.tail _ (.head _))).parts
      obtain ⟨trueRow, trueSpanned⟩ := ofTrue block.1 block.2
      obtain ⟨inClause, clauseRow⟩ := (inside _ (.tail _ (.tail _ (.head _)))).parts
      obtain ⟨isSpan, nextSpanned⟩ := ofNext (inClause _ (.head _))
      rw [List.map_cons, ← isSpan] at clauseRow
      refine ⟨rfl, List.forall_mem_cons.mpr ⟨.of_lies laid.exact lies rfl rfl ?_,
        List.forall_mem_append.mpr ⟨trueSpanned, ?_⟩⟩⟩
      · exact (trueRow.widen begins follows).append (clauseRow.widen (Nat.le_refl _) stops)
      · simpa [partsAll, parts] using nextSpanned
  | nil => exact ⟨row, by simp [partsAll]⟩
  | cons _ _ _ ofFirst ofRest =>
      rw [List.forall_mem_cons] at laid
      obtain ⟨further, each⟩ := ofRest laid.2 row.2.2
      obtain ⟨inside, inner⟩ := laid.1.parts
      have bounds := inner.bounds (.head _)
      have ofBody := inside _ (.head _)
      obtain ⟨isSpan, spanned⟩ := ofFirst ofBody
      refine ⟨⟨?_, ?_, ?_⟩, List.forall_mem_append.mpr ⟨spanned, each⟩⟩
      · rw [isSpan]
        exact Nat.le_trans row.1 bounds.1
      · rw [isSpan]
        exact ofBody.exact.ordered
      · rw [isSpan]
        exact further.widen bounds.2 (Nat.le_refl _)

end Stmt

/-! ## Fragments -/

/-- **Stretches are exact and nested.** The statements of a fragment lie in a row in its text. The
stretch of each of them, at the top or in a block, and of each expression in it is exact, and what
stands right below lies in a row inside it. -/
theorem spanned_of_parse {text : String} {stmts : List Stmt} (parsed : parse text = .ok stmts) :
    Span.Row 0 (stmts.map Stmt.span) text.utf8ByteSize ∧
      ∀ stmt ∈ Stmt.partsAll stmts, stmt.Spanned text := by
  unfold parse parseChars at parsed
  split at parsed
  · cases parsed
  · rename_i parts matched
    obtain ⟨last, isMatch⟩ := Grammar.matches_of_match? scriptRanked (by decide) matched
    obtain ⟨-, laid, -⟩ := isMatch.laid (.refl _)
    have program := laid _ (.head _)
    obtain ⟨inside, row⟩ := program.parts
    refine (Stmt.ofTrees_eq_ok_iff.mp parsed).row
      (fun t member => inside t (List.mem_filter.mp member).1) ?_
    exact (row.sublist (List.filter_sublist.map _)).widen (Nat.zero_le _) program.exact.within
  · cases parsed

/-- A text in which bytes and characters differ, with a comment, parentheses and a block. -/
theorem spanned_of_parse_accented : ∃ text stmts, parse text = .ok stmts ∧
    (Stmt.partsAll stmts).map Stmt.span = [⟨7, 20, 1, 0⟩, ⟨20, 57, 2, 0⟩, ⟨33, 56, 2, 13⟩] ∧
    Span.Row 0 (stmts.map Stmt.span) text.utf8ByteSize ∧
    ∀ stmt ∈ Stmt.partsAll stmts, stmt.Spanned text := by
  have checked : (parse
      "// ∞\nlet s = \"é\"\nif s != \"\" \x7b -(1 + 2) * f([s], 3).x \x7d").toOption.any
        (fun stmts => (Stmt.partsAll stmts).map Stmt.span =
          [⟨7, 20, 1, 0⟩, ⟨20, 57, 2, 0⟩, ⟨33, 56, 2, 13⟩]) = true := by decide +kernel
  obtain ⟨stmts, parsed, isSpans⟩ := exists_parse_of_any checked
  exact ⟨_, stmts, parsed, of_decide_eq_true isSpans, spanned_of_parse parsed⟩

end ScriptShell
