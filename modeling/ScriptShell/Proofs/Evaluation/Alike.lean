import ScriptShell.Proofs.Evaluation.ByDeclaration
import ScriptShell.Proofs.Evaluation.Unbound

/-! # Runs that do the same

What a run does depends on its statements up to places (**`runBlock_bareAll`**), and on its unit
only through what names, modules and functions it gives: `Execution.Alike` units run all code alike
that does not ask for the running unit (**`Alike.runBlock`**). Statements in a row run one after the
other (**`execAll_append`**). -/

namespace ScriptShell

/-- Statements that are no directive and declare no function. -/
def Stmt.isOrdinary : Stmt → Bool
  | .load .. | .use .. | .define .. => false
  | _ => true

namespace Execution

/-! ## Places -/

section

variable (s : Execution) (rounds : Nat)

/-- Where statements stand in a text does not matter to running them one after the other. -/
theorem execAll_mapSpanAll {step : Environment → Stmt → Run (Environment × Value)}
    (f : Span → Span) (same : ∀ env stmt, step env (stmt.mapSpan f) = step env stmt) (last : Value)
    (env : Environment) (stmts : List Stmt) :
    execAll step last env (Stmt.mapSpanAll f stmts) = execAll step last env stmts := by
  induction stmts generalizing last env with
  | nil => rfl
  | cons stmt rest ih => simp only [Stmt.mapSpanAll, execAll, same, ih]

/-- **Where statements stand makes no difference to what they do.** -/
theorem runBlock_bareAll (room : Nat) (env : Environment) (stmts : List Stmt) :
    s.runBlock rounds room env (Stmt.bareAll stmts) = s.runBlock rounds room env stmts := by
  induction room generalizing env stmts with
  | zero => rfl
  | succ room ih =>
      refine execAll_mapSpanAll _ (fun env stmt => ?_) .null env stmts
      have evals : ∀ env e, s.eval env room {} (e.mapSpan fun _ => default) =
          s.eval env room {} e := by
        intro env e
        rw [Expr.mapSpan_default, eval_bare]
      have blocks : ∀ env body,
          s.runBlock rounds room env (Stmt.mapSpanAll (fun _ => default) body) =
            s.runBlock rounds room env body := ih
      cases stmt with
      | load | use | define => rfl
      | bind | assign | eval => simp only [Stmt.mapSpan, execStep, evals]
      | branch _ _ onFalse =>
          cases onFalse <;> simp only [Stmt.mapSpan, execStep, evals, blocks]
      | loop => simp only [Stmt.mapSpan, execStep, evals, blocks]

end

/-! ## Units -/

/-- Expressions that are evaluated alike, one after the other. -/
theorem evalItems_congr {eval eval' : Expr → Run Value} {items : List Expr}
    (same : ∀ e ∈ items, eval e = eval' e) : evalItems eval items = evalItems eval' items := by
  induction items with
  | nil => rfl
  | cons e rest ih =>
      rw [evalItems, evalItems, same e List.mem_cons_self,
        ih fun e member => same e (List.mem_cons_of_mem _ member)]

/-- Statements that run alike, one after the other. -/
theorem execAll_congr {step step' : Environment → Stmt → Run (Environment × Value)}
    {stmts : List Stmt} (same : ∀ stmt ∈ stmts, ∀ env, step env stmt = step' env stmt)
    (last : Value) (env : Environment) :
    execAll step last env stmts = execAll step' last env stmts := by
  induction stmts generalizing last env with
  | nil => rfl
  | cons stmt rest ih =>
      simp only [execAll, same stmt List.mem_cons_self,
        ih fun stmt member => same stmt (List.mem_cons_of_mem _ member)]

/-- Two executions in which names, modules and functions stand for the same, but for the object that
describes the running unit; no function asks for that. -/
structure Alike (x y : Execution) : Prop where
  catalog : x.catalog = y.catalog
  args : x.args = y.args
  modules : x.unit.program.modules = y.unit.program.modules
  imports : x.unit.program.imports = y.unit.program.imports
  function? : ∀ name unit, x.unit.function? name unit = y.unit.function? name unit
  bodies : ∀ name unit decl, x.unit.function? name unit = some decl →
    ¬decl.body.Mentions runtimeName

namespace Alike

variable {x y : Execution} (alike : x.Alike y) {env : Environment}

include alike

/-- Every name but that of the object for the running unit has the same value. -/
theorem lookup? {name : String} (other : name ≠ runtimeName) (env locals : Environment) :
    x.lookup? env locals name = y.lookup? env locals name := by
  have builtin : x.builtin? name = y.builtin? name := by
    rw [builtin?, builtin?, alike.args, if_neg other, if_neg other]
  have module : x.module? name = y.module? name := by rw [module?, module?, alike.modules]
  have imported : x.imported? name = y.imported? name := by
    rw [imported?, imported?, alike.imports, alike.catalog]
  rw [Execution.lookup?, Execution.lookup?, builtin, module, imported]

/-- Members have the same values. -/
theorem memberOf : x.memberOf = y.memberOf := by
  funext object property
  unfold Execution.memberOf memberValue
  rw [alike.catalog]

/-- References to native functions lead to the same ones. -/
theorem native? : x.native? = y.native? := by
  funext ref
  rw [Execution.native?, Execution.native?, alike.catalog]

/-- Prefix operators do the same. -/
theorem applyUnary : x.applyUnary = y.applyUnary := by
  funext op operand
  unfold Execution.applyUnary await
  rw [alike.native?]

/-- A call, when bodies evaluate alike. -/
theorem call {eval eval' : Environment → Expr → Run Value}
    (evals : ∀ locals e, ¬e.Mentions runtimeName → eval locals e = eval' locals e) (callee : Value)
    (args : List Value) : x.call eval callee args = y.call eval' callee args := by
  unfold Execution.call callNative
  rw [alike.native?]
  cases callee with
  | func ref =>
      simp only [← alike.function?]
      cases found : x.unit.function? ref.name ref.unit with
      | none => rfl
      | some decl => simp only [evals _ _ (alike.bodies _ _ _ found)]
  | _ => rfl

/-- **An expression evaluates alike** unless it asks for the running unit. -/
theorem eval (env : Environment) (room : Nat) (locals : Environment) {e : Expr}
    (unasked : ¬e.Mentions runtimeName) :
    x.eval env room locals e = y.eval env room locals e := by
  induction room generalizing locals e with
  | zero => rfl
  | succ room ih =>
      have below : ∀ operand ∈ e.operands,
          x.eval env room locals operand = y.eval env room locals operand := by
        intro operand member
        refine ih locals fun ⟨span, mentions⟩ => ?_
        exact unasked ⟨span, Expr.parts_of_mem_operands member _ mentions⟩
      show x.evalStep env (x.eval env room) locals e = y.evalStep env (y.eval env room) locals e
      cases e with
      | num | str | bool | null => rfl
      | list items =>
          have values : evalItems (x.eval env room locals) items = _ := evalItems_congr below
          simp only [evalStep, values]
      | ident name span =>
          have other : name ≠ runtimeName := by
            rintro rfl
            exact unasked ⟨span, List.mem_singleton.mpr rfl⟩
          simp only [evalStep, alike.lookup? other]
      | member object property =>
          simp only [evalStep, below object (by simp [Expr.operands]), alike.memberOf]
      | call callee args =>
          have values := evalItems_congr fun e member =>
            below e (List.mem_cons_of_mem callee member)
          have calls := alike.call fun locals e unasked => ih locals unasked
          simp only [evalStep, below callee List.mem_cons_self, values, calls]
      | unary op operand =>
          simp only [evalStep, below operand (by simp [Expr.operands]), alike.applyUnary]
      | binary op left right =>
          have l := below left (by simp [Expr.operands])
          have r := below right (by simp [Expr.operands])
          cases op <;> simp only [evalStep, l, r]

/-- **Statements run alike** that neither declare functions nor ask for the running unit. -/
theorem runBlock (rounds room : Nat) (env : Environment) {stmts : List Stmt}
    (ordinary : ∀ part ∈ Stmt.partsAll stmts, part.isOrdinary = true)
    (unasked : ∀ part ∈ Stmt.partsAll stmts, ∀ e, part.expression? = some e →
      ¬e.Mentions runtimeName) :
    x.runBlock rounds room env stmts = y.runBlock rounds room env stmts := by
  induction room generalizing env stmts with
  | zero => rfl
  | succ room ih =>
      refine execAll_congr (fun stmt member env => ?_) .null env
      have inner : ∀ part ∈ stmt.parts, part ∈ Stmt.partsAll stmts :=
        fun part inside => Stmt.mem_partsAll.mpr ⟨stmt, member, inside⟩
      have self : stmt ∈ Stmt.partsAll stmts := inner stmt List.mem_cons_self
      have evals : ∀ {e}, stmt.expression? = some e → ∀ env,
          x.eval env room {} e = y.eval env room {} e :=
        fun own env => alike.eval env room {} (unasked stmt self _ own)
      have blocks : ∀ {body}, (∀ part ∈ Stmt.partsAll body, part ∈ stmt.parts) → ∀ env,
          x.runBlock rounds room env body = y.runBlock rounds room env body :=
        fun inside env =>
          ih env (fun part member => ordinary part (inner part (inside part member)))
            fun part member => unasked part (inner part (inside part member))
      cases stmt with
      | load | use | define => cases ordinary _ self
      | bind | assign | eval => simp only [execStep, evals rfl]
      | branch test onTrue onFalse span =>
          cases onFalse with
          | none =>
              have first := @blocks onTrue fun part inside => by
                simp [Stmt.parts, Stmt.inner, inside]
              simp only [execStep, evals rfl, first]
          | some onFalse =>
              have first := @blocks onTrue fun part inside => by
                simp [Stmt.parts, Stmt.inner, inside]
              have second := @blocks onFalse fun part inside => by
                simp [Stmt.parts, Stmt.inner, inside]
              simp only [execStep, evals rfl, first, second]
      | loop test body span =>
          have inside := @blocks body fun part inside => by
            simp [Stmt.parts, Stmt.inner, inside]
          simp only [execStep, evals rfl, inside]

end Alike

/-! ## Statements in a row -/

/-- Statements after others start with what those leave. -/
theorem execAll_append (step : Environment → Stmt → Run (Environment × Value)) (last : Value)
    (env : Environment) (first second : List Stmt) :
    execAll step last env (first ++ second) = (do
      let after ← execAll step last env first
      execAll step after.2 after.1 second) := by
  induction first generalizing last env with
  | nil => rfl
  | cons stmt rest ih => simp only [List.cons_append, execAll, ih, bind_assoc]

/-- The value of statements is that of the last one, whatever was before the first. -/
theorem execAll_of_ne_nil (step : Environment → Stmt → Run (Environment × Value)) (last : Value)
    (env : Environment) {stmts : List Stmt} (nonempty : stmts ≠ []) :
    execAll step last env stmts = execAll step .null env stmts := by
  cases stmts with
  | nil => exact absurd rfl nonempty
  | cons stmt rest => rfl

/-- **Statements in a row**: the first ones run, and then the second ones with what the first ones
leave. -/
theorem runBlock_append (s : Execution) (rounds room : Nat) (env : Environment) (first : List Stmt)
    {second : List Stmt} (nonempty : second ≠ []) :
    s.runBlock rounds (room + 1) env (first ++ second) = (do
      let after ← s.runBlock rounds (room + 1) env first
      s.runBlock rounds (room + 1) after.1 second) := by
  simp only [Execution.runBlock, execAll_append, execAll_of_ne_nil _ _ _ nonempty]

end Execution

end ScriptShell
