import ScriptShell.Proofs.Grammar.Moved
import ScriptShell.Syntax.Builder

/-! # Places in syntax trees

`Expr.mapSpan` and `Stmt.mapSpan` change the places that syntax trees carry and nothing else; two
trees that are the same up to places have the same `bare` form. **`Stmt.ofTrees_mapSpan`**: the
builder of syntax trees passes places on without looking at them, so trees that stand elsewhere give
statements that stand elsewhere, and are refused for the same reason. -/

namespace ScriptShell

/-! ## Changing places -/

mutual

/-- An expression with other places. -/
def Expr.mapSpan (f : Span → Span) : Expr → Expr
  | .num value span => .num value (f span)
  | .str value span => .str value (f span)
  | .bool value span => .bool value (f span)
  | .null span => .null (f span)
  | .list items span => .list (Expr.mapSpanAll f items) (f span)
  | .ident name span => .ident name (f span)
  | .member object property span => .member (object.mapSpan f) property (f span)
  | .call callee args span => .call (callee.mapSpan f) (Expr.mapSpanAll f args) (f span)
  | .unary op operand span => .unary op (operand.mapSpan f) (f span)
  | .binary op left right span => .binary op (left.mapSpan f) (right.mapSpan f) (f span)

/-- Expressions with other places. -/
def Expr.mapSpanAll (f : Span → Span) : List Expr → List Expr
  | [] => []
  | e :: rest => e.mapSpan f :: Expr.mapSpanAll f rest

end

mutual

/-- A statement with other places. -/
def Stmt.mapSpan (f : Span → Span) : Stmt → Stmt
  | .load target span => .load target (f span)
  | .use module span => .use module (f span)
  | .define name params body span => .define name params (body.mapSpan f) (f span)
  | .bind name value span => .bind name (value.mapSpan f) (f span)
  | .assign name value span => .assign name (value.mapSpan f) (f span)
  | .branch test onTrue none span =>
    .branch (test.mapSpan f) (Stmt.mapSpanAll f onTrue) none (f span)
  | .branch test onTrue (some onFalse) span =>
    .branch (test.mapSpan f) (Stmt.mapSpanAll f onTrue) (some (Stmt.mapSpanAll f onFalse)) (f span)
  | .loop test body span => .loop (test.mapSpan f) (Stmt.mapSpanAll f body) (f span)
  | .eval expr terminated span => .eval (expr.mapSpan f) terminated (f span)

/-- Statements with other places. -/
def Stmt.mapSpanAll (f : Span → Span) : List Stmt → List Stmt
  | [] => []
  | stmt :: rest => stmt.mapSpan f :: Stmt.mapSpanAll f rest

end

section

variable (f g : Span → Span)

@[simp] theorem Expr.span_mapSpan (e : Expr) : (e.mapSpan f).span = f e.span := by
  cases e <;> rfl

mutual

/-- Places that are changed twice are changed once by both. -/
theorem Expr.mapSpan_mapSpan (e : Expr) : (e.mapSpan f).mapSpan g = e.mapSpan (g ∘ f) := by
  cases e with
  | num | str | bool | null | ident => rfl
  | list items => simp only [mapSpan, mapSpanAll_mapSpanAll items, Function.comp]
  | member object => simp only [mapSpan, mapSpan_mapSpan object, Function.comp]
  | call callee args =>
      simp only [mapSpan, mapSpan_mapSpan callee, mapSpanAll_mapSpanAll args, Function.comp]
  | unary op operand => simp only [mapSpan, mapSpan_mapSpan operand, Function.comp]
  | binary op left right =>
      simp only [mapSpan, mapSpan_mapSpan left, mapSpan_mapSpan right, Function.comp]

/-- Places that are changed twice, in several expressions. -/
theorem Expr.mapSpanAll_mapSpanAll (items : List Expr) :
    Expr.mapSpanAll g (Expr.mapSpanAll f items) = Expr.mapSpanAll (g ∘ f) items := by
  cases items with
  | nil => rfl
  | cons e rest => simp only [mapSpanAll, mapSpan_mapSpan e, mapSpanAll_mapSpanAll rest]

end

mutual

/-- Places that are changed twice, in a statement. -/
theorem Stmt.mapSpan_mapSpan (stmt : Stmt) :
    (stmt.mapSpan f).mapSpan g = stmt.mapSpan (g ∘ f) := by
  match stmt with
  | .load .. | .use .. => rfl
  | .define .. | .bind .. | .assign .. | .eval .. =>
      simp only [mapSpan, Expr.mapSpan_mapSpan, Function.comp]
  | .branch _ onTrue none _ =>
      simp only [mapSpan, Expr.mapSpan_mapSpan, mapSpanAll_mapSpanAll onTrue, Function.comp]
  | .branch _ onTrue (some onFalse) _ =>
      simp only [mapSpan, Expr.mapSpan_mapSpan, mapSpanAll_mapSpanAll onTrue,
        mapSpanAll_mapSpanAll onFalse, Function.comp]
  | .loop _ body _ =>
      simp only [mapSpan, Expr.mapSpan_mapSpan, mapSpanAll_mapSpanAll body, Function.comp]

/-- Places that are changed twice, in several statements. -/
theorem Stmt.mapSpanAll_mapSpanAll (stmts : List Stmt) :
    Stmt.mapSpanAll g (Stmt.mapSpanAll f stmts) = Stmt.mapSpanAll (g ∘ f) stmts := by
  match stmts with
  | [] => rfl
  | stmt :: rest => simp only [mapSpanAll, mapSpan_mapSpan stmt, mapSpanAll_mapSpanAll rest]

end

end

/-! ## Without places -/

mutual

/-- An expression without places in a text. -/
def Expr.bare : Expr → Expr
  | .num value _ => .num value default
  | .str value _ => .str value default
  | .bool value _ => .bool value default
  | .null _ => .null default
  | .list items _ => .list (Expr.bareAll items) default
  | .ident name _ => .ident name default
  | .member object property _ => .member object.bare property default
  | .call callee args _ => .call callee.bare (Expr.bareAll args) default
  | .unary op operand _ => .unary op operand.bare default
  | .binary op left right _ => .binary op left.bare right.bare default

/-- Expressions without places in a text. -/
def Expr.bareAll : List Expr → List Expr
  | [] => []
  | e :: rest => e.bare :: Expr.bareAll rest

end

mutual

/-- To put everything at no place is to leave out the places. -/
theorem Expr.mapSpan_default (e : Expr) : e.mapSpan (fun _ => default) = e.bare := by
  cases e with
  | num | str | bool | null | ident => rfl
  | list items => rw [mapSpan, bare, mapSpanAll_default items]
  | member object => rw [mapSpan, bare, mapSpan_default object]
  | call callee args => rw [mapSpan, bare, mapSpan_default callee, mapSpanAll_default args]
  | unary op operand => rw [mapSpan, bare, mapSpan_default operand]
  | binary op left right => rw [mapSpan, bare, mapSpan_default left, mapSpan_default right]

/-- To put several expressions at no place is to leave out their places. -/
theorem Expr.mapSpanAll_default (items : List Expr) :
    Expr.mapSpanAll (fun _ => default) items = Expr.bareAll items := by
  cases items with
  | nil => rfl
  | cons e rest => rw [mapSpanAll, bareAll, mapSpan_default e, mapSpanAll_default rest]

end

/-- Statements without places in a text. -/
def Stmt.bareAll (stmts : List Stmt) : List Stmt :=
  Stmt.mapSpanAll (fun _ => default) stmts

/-- Moved statements are the same up to places. -/
theorem Stmt.bareAll_mapSpanAll (f : Span → Span) (stmts : List Stmt) :
    Stmt.bareAll (Stmt.mapSpanAll f stmts) = Stmt.bareAll stmts :=
  Stmt.mapSpanAll_mapSpanAll f (fun _ => default) stmts

/-! ## Building -/

/-- A syntax error with another place. -/
def SyntaxError.mapSpan (f : Span → Span) : SyntaxError → SyntaxError
  | .tooDeep span => .tooDeep (f span)
  | .malformed rule span => .malformed rule (f span)
  | .unexpected expected line col => .unexpected expected line col
  | .notExpression => .notExpression

/-- What was built, or why nothing was, with other places. -/
def rebuilt {α β : Type} (f : Span → Span) (place : α → β) :
    Except SyntaxError α → Except SyntaxError β
  | .ok a => .ok (place a)
  | .error e => .error (e.mapSpan f)

/-- Building in two steps. -/
theorem rebuilt_bind {α β γ δ : Type} {f : Span → Span} {place : α → β} {place' : γ → δ}
    {x : Except SyntaxError α} {next : α → Except SyntaxError γ} {next' : β → Except SyntaxError δ}
    (same : ∀ a, next' (place a) = rebuilt f place' (next a)) :
    (rebuilt f place x >>= next') = rebuilt f place' (x >>= next) := by
  cases x with
  | error e => rfl
  | ok a => exact same a

/-- Building what does not lie too deep. -/
theorem rebuilt_unless {α β : Type} {f : Span → Span} {place : α → β} {span : Span} {deep : Prop}
    [Decidable deep] {x : Except SyntaxError α} {y : Except SyntaxError β}
    (same : y = rebuilt f place x) :
    (if deep then .error (.tooDeep (f span)) else y) =
      rebuilt f place (if deep then .error (.tooDeep span) else x) := by
  by_cases isDeep : deep
  · rw [if_pos isDeep, if_pos isDeep]
    rfl
  · rw [if_neg isDeep, if_neg isDeep]
    exact same

open Grammar

/-- Changing places keeps the number of trees. -/
theorem Grammar.ParseTree.length_mapSpanAll {ρ : Type} (f : Span → Span) (ts : List (ParseTree ρ)) :
    (ParseTree.mapSpanAll f ts).length = ts.length := by
  rw [ParseTree.mapSpanAll_eq_map, List.length_map]

/-- Changing places commutes with covering two of them. -/
def Span.Merging (f : Span → Span) : Prop :=
  ∀ a b : Span, f (a.merge b) = (f a).merge (f b)

/-- Moving stretches respects how they are merged. -/
theorem Span.merging_moved (base : Position) : Span.Merging (Span.moved base) :=
  Span.moved_merge base

section

variable {f : Span → Span}

/-- Prefix operators around an expression, with changed places. -/
theorem Expr.mapSpan_wrap (merges : Span.Merging f) (e : Expr) (ops : List (UnaryOp × Span)) :
    (e.wrap ops).mapSpan f = (e.mapSpan f).wrap (ops.map fun (op, span) => (op, f span)) := by
  unfold wrap
  induction ops generalizing e with
  | nil => rfl
  | cons op rest ih =>
      rw [List.foldl_cons, List.map_cons, List.foldl_cons, ih]
      rw [mapSpan, merges, span_mapSpan]

mutual

/-- Trees that stand elsewhere give expressions that stand elsewhere. -/
theorem Expr.ofTree_mapSpan (merges : Span.Merging f) (t : ParseTree Rule) (depth : Nat) :
    ofTree (t.mapSpan f) depth = rebuilt f (mapSpan f) (ofTree t depth) := by
  by_cases deep : nestingLimit < depth
  · unfold ofTree
    rw [if_pos deep, if_pos deep, ParseTree.span_mapSpan]
    rfl
  · unfold ofTree
    rw [if_neg deep, if_neg deep]
    cases t with
    | token rule span text =>
        cases rule with
        | number =>
            simp only [ParseTree.mapSpan]
            cases numberOf? text <;> rfl
        | _ => rfl
    | phrase rule span parts =>
        -- Only some rules make expressions, and of some of these the parts must be right.
        cases rule with
        | expression =>
            match parts with
            | [] | _ :: _ :: _ => rfl
            | [inner] => exact ofTree_mapSpan merges inner (depth + 1)
        | orExpr | andExpr | cmpExpr | addExpr | mulExpr =>
            exact ofChain_mapSpan merges span parts depth
        | unary => exact ofPrefixed_mapSpan merges span [] parts depth
        | postfixExpr =>
            match parts with
            | [] => rfl
            | first :: suffixes =>
                simp only [ParseTree.mapSpan, ParseTree.mapSpanAll, ParseTree.length_mapSpanAll]
                rw [ofTree_mapSpan merges first]
                exact rebuilt_bind fun e => ofSuffixes_mapSpan merges e suffixes _
        | string =>
            match parts with
            | [] | [.phrase ..] | .phrase .. :: _ :: _ => rfl
            | [.token rule _ _] | .token rule _ _ :: _ :: _ => cases rule <;> rfl
        | list =>
            simp only [ParseTree.mapSpan]
            rw [ofTrees_mapSpan merges parts]
            exact rebuilt_bind fun items => rfl
        | _ => rfl
termination_by sizeOf t

/-- Expressions from several trees with changed places. -/
theorem Expr.ofTrees_mapSpan (merges : Span.Merging f) (ts : List (ParseTree Rule)) (depth : Nat) :
    ofTrees (ParseTree.mapSpanAll f ts) depth = rebuilt f (mapSpanAll f) (ofTrees ts depth) := by
  match ts with
  | [] => rfl
  | t :: rest =>
      simp only [ParseTree.mapSpanAll, ofTrees]
      rw [ofTree_mapSpan merges t, ofTrees_mapSpan merges rest]
      exact rebuilt_bind fun e => rebuilt_bind fun es => rfl
termination_by sizeOf ts

/-- Chains of operators with changed places. -/
theorem Expr.ofChain_mapSpan (merges : Span.Merging f) (span : Span) (ts : List (ParseTree Rule))
    (depth : Nat) :
    ofChain (f span) (ParseTree.mapSpanAll f ts) depth =
      rebuilt f (mapSpan f) (ofChain span ts depth) := by
  match ts with
  | [] => rfl
  | first :: rest =>
      simp only [ParseTree.mapSpanAll, ofChain, ParseTree.length_mapSpanAll]
      by_cases deep : nestingLimit < depth + (rest.length + 1) / 2
      · rw [if_pos deep, if_pos deep]
        rfl
      · rw [if_neg deep, if_neg deep, ofTree_mapSpan merges first]
        exact rebuilt_bind fun left => ofOperators_mapSpan merges left rest _
termination_by sizeOf ts

/-- Operators and their operands with changed places. -/
theorem Expr.ofOperators_mapSpan (merges : Span.Merging f) (left : Expr)
    (ts : List (ParseTree Rule)) (depth : Nat) :
    ofOperators (left.mapSpan f) (ParseTree.mapSpanAll f ts) depth =
      rebuilt f (mapSpan f) (ofOperators left ts depth) := by
  match ts with
  | [] => rfl
  | [operator] =>
      simp only [ParseTree.mapSpanAll, ofOperators, ParseTree.rule_mapSpan,
        ParseTree.span_mapSpan]
      rfl
  | operator :: operand :: rest =>
      simp only [ParseTree.mapSpanAll, ofOperators, ParseTree.rule_mapSpan,
        ParseTree.span_mapSpan]
      cases operator.rule.binaryOp? with
      | none => rfl
      | some op =>
          simp only
          rw [ofTree_mapSpan merges operand]
          refine rebuilt_bind fun right => ?_
          rw [← ofOperators_mapSpan merges _ rest, mapSpan, merges, span_mapSpan, span_mapSpan]
termination_by sizeOf ts

/-- Prefix operators with changed places. -/
theorem Expr.ofPrefixed_mapSpan (merges : Span.Merging f) (span : Span)
    (ops : List (UnaryOp × Span)) (ts : List (ParseTree Rule)) (depth : Nat) :
    ofPrefixed (f span) (ops.map fun (op, span) => (op, f span)) (ParseTree.mapSpanAll f ts) depth =
      rebuilt f (mapSpan f) (ofPrefixed span ops ts depth) := by
  match ts with
  | [] => rfl
  | t :: rest =>
      simp only [ParseTree.mapSpanAll, ofPrefixed, ParseTree.rule_mapSpan, ParseTree.span_mapSpan,
        List.length_map]
      cases t.rule.unaryOp? with
      | some op => exact ofPrefixed_mapSpan merges span ((op, t.span) :: ops) rest depth
      | none =>
          cases rest with
          | nil =>
              simp only [ParseTree.mapSpanAll, List.isEmpty_nil, if_true]
              rw [ofTree_mapSpan merges t]
              refine rebuilt_bind fun e => ?_
              rw [← mapSpan_wrap merges]
              rfl
          | cons => rfl
termination_by sizeOf ts

/-- Suffixes with changed places. -/
theorem Expr.ofSuffixes_mapSpan (merges : Span.Merging f) (e : Expr)
    (ts : List (ParseTree Rule)) (depth : Nat) :
    ofSuffixes (e.mapSpan f) (ParseTree.mapSpanAll f ts) depth =
      rebuilt f (mapSpan f) (ofSuffixes e ts depth) := by
  rw [ofSuffixes.eq_def e]
  split
  case h_1 => rfl
  case h_2 rest =>
    simp only [ParseTree.mapSpanAll, ParseTree.mapSpan, ofSuffixes]
    rw [← ofSuffixes_mapSpan merges _ rest, mapSpan, merges, span_mapSpan]
  case h_3 args rest =>
    simp only [ParseTree.mapSpanAll, ParseTree.mapSpan, ofSuffixes]
    rw [ofTrees_mapSpan merges args]
    refine rebuilt_bind fun es => ?_
    rw [← ofSuffixes_mapSpan merges _ rest, mapSpan, merges, span_mapSpan]
  case h_4 =>
    rw [ParseTree.mapSpanAll, ofSuffixes.eq_4, ParseTree.rule_mapSpan, ParseTree.span_mapSpan]
    · rfl
    all_goals
      simp only [ParseTree.mapSpan_eq_phrase_iff, ParseTree.mapSpan_eq_token_iff,
        ParseTree.mapSpanAll_eq_map, List.map_eq_cons_iff, List.map_eq_nil_iff, forall_exists_index,
        and_imp]
      intros
      subst_vars
      solve_by_elim
termination_by sizeOf ts

end

/-- The names of parameters do not depend on their places. -/
theorem paramNames_mapSpanAll (params : List (ParseTree Rule)) :
    paramNames (ParseTree.mapSpanAll f params) = paramNames params := by
  unfold paramNames
  rw [ParseTree.mapSpanAll_eq_map, List.map_map]
  congr 1
  funext t
  rw [Function.comp, ParseTree.text_mapSpan]

mutual

/-- The builder looks at the shape of a tree, which does not change. -/
theorem Stmt.ofBody_mapSpan (merges : Span.Merging f) (t : ParseTree Rule) (terminated : Bool)
    (depth : Nat) :
    ofBody (t.mapSpan f) terminated depth = rebuilt f (mapSpan f) (ofBody t terminated depth) := by
  -- The cases are those of the builder, in its order.
  rw [ofBody.eq_def t]
  split
  case h_1 | h_2 | h_3 => rfl
  case h_4 body =>
    simp only [ParseTree.mapSpan, ParseTree.mapSpanAll, ofBody]
    rw [Expr.ofTree_mapSpan merges body, paramNames_mapSpanAll]
    exact rebuilt_bind fun body => rfl
  case h_5 e | h_6 e | h_7 e =>
    simp only [ParseTree.mapSpan, ParseTree.mapSpanAll, ofBody]
    rw [Expr.ofTree_mapSpan merges e]
    exact rebuilt_bind fun e => rfl
  case h_8 test _ body =>
    simp only [ParseTree.mapSpan, ParseTree.mapSpanAll, ofBody]
    rw [Expr.ofTree_mapSpan merges test, ofTrees_mapSpan merges body]
    exact rebuilt_bind fun test => rebuilt_bind fun body => rfl
  case h_9 test _ onTrue =>
    simp only [ParseTree.mapSpan, ParseTree.mapSpanAll, ofBody]
    refine rebuilt_unless ?_
    rw [Expr.ofTree_mapSpan merges test, ofTrees_mapSpan merges onTrue]
    exact rebuilt_bind fun test => rebuilt_bind fun onTrue => rfl
  case h_10 test _ onTrue _ _ onFalse =>
    simp only [ParseTree.mapSpan, ParseTree.mapSpanAll, ofBody]
    refine rebuilt_unless ?_
    rw [Expr.ofTree_mapSpan merges test, ofTrees_mapSpan merges onTrue,
      ofTrees_mapSpan merges onFalse]
    exact rebuilt_bind fun test => rebuilt_bind fun onTrue => rebuilt_bind fun onFalse => rfl
  case h_11 test _ onTrue _ next notBlock =>
    simp only [ParseTree.mapSpan, ParseTree.mapSpanAll]
    rw [ofBody.eq_11]
    · refine rebuilt_unless ?_
      rw [Expr.ofTree_mapSpan merges test, ofTrees_mapSpan merges onTrue,
        ofBody_mapSpan merges next]
      exact rebuilt_bind fun test => rebuilt_bind fun onTrue => rebuilt_bind fun next => rfl
    · intro span block isBlock
      obtain ⟨_, _, rfl, -⟩ := ParseTree.mapSpan_eq_phrase_iff.mp isBlock
      exact notBlock _ _ rfl
  case h_12 =>
    rw [ofBody.eq_12, ParseTree.rule_mapSpan, ParseTree.span_mapSpan]
    · rfl
    -- A tree that has one of the other shapes elsewhere has it here.
    all_goals
      simp only [ParseTree.mapSpan_eq_phrase_iff, ParseTree.mapSpan_eq_token_iff,
        ParseTree.mapSpanAll_eq_map, List.map_eq_cons_iff, List.map_eq_nil_iff, forall_exists_index,
        and_imp]
      intros
      subst_vars
      solve_by_elim
termination_by sizeOf t

/-- **The builder passes places on.** Trees that stand elsewhere give statements that stand
elsewhere, or are refused for the same reason. -/
theorem Stmt.ofTrees_mapSpan (merges : Span.Merging f) (ts : List (ParseTree Rule)) (depth : Nat) :
    ofTrees (ParseTree.mapSpanAll f ts) depth = rebuilt f (mapSpanAll f) (ofTrees ts depth) := by
  match ts with
  | [] => rfl
  | t :: rest =>
      have first : ofTree (t.mapSpan f) depth = rebuilt f (mapSpan f) (ofTree t depth) := by
        unfold ofTree
        by_cases deep : nestingLimit < depth
        · rw [if_pos deep, if_pos deep, ParseTree.span_mapSpan]
          rfl
        · rw [if_neg deep, if_neg deep]
          cases t with
          | token => rfl
          | phrase rule span parts =>
              cases rule with
              | statement =>
                  match parts with
                  | [] => rfl
                  | body :: ending =>
                      have same : (ParseTree.mapSpanAll f ending).isEmpty = ending.isEmpty := by
                        cases ending <;> rfl
                      simp only [ParseTree.mapSpan, ParseTree.mapSpanAll]
                      rw [same, ofBody_mapSpan merges body]
              | _ => rfl
      simp only [ParseTree.mapSpanAll, ofTrees]
      rw [first, ofTrees_mapSpan merges rest]
      exact rebuilt_bind fun stmt => rebuilt_bind fun stmts => rfl
termination_by sizeOf ts

end

end

end ScriptShell
