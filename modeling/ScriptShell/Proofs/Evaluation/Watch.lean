import ScriptShell.Proofs.Evaluation.Agreement
import ScriptShell.Proofs.Evaluation.Values

/-! # Watching a run

What holds of all values at every moment of a run cannot be read off the end of the run. So this
file puts a watch into the evaluator: `watchedEval` and `watchedBlock` evaluate and run as `eval`
and `runBlock` do, but look at all names before and after every statement, at all names and
parameters before every expression, and at the value of every expression after it. As soon as a
value has a part that is not `ok`, they stop with an alarm.

**`watchedRun_eq`** says that a run that starts with good values and is supplied with good ones
(`Execution.Closed`) never gives the alarm: whatever the alarm is, the watched run is the run. -/

namespace ScriptShell

/-! ## Looking at values -/

/-- Goes on if a look was fine, and stops with an alarm if not. -/
def Run.require (fine : Bool) (alarm : Stop) : Run Unit :=
  if fine then pure () else throw alarm

/-- Whether all parts of a value are fine. -/
def Value.check (ok : Value → Bool) (v : Value) : Bool :=
  v.parts.all ok

/-- Whether all parts of all values that names hold are fine. -/
def Environment.check (ok : Value → Bool) (env : Environment) : Bool :=
  env.keys.all fun name => (env.get? name).all (·.check ok)

/-- A value of good parts passes the check. -/
theorem Value.All.check {ok : Value → Bool} {v : Value} (all : v.All (ok · = true)) :
    v.check ok = true :=
  List.all_eq_true.mpr all

/-- Names with values of good parts pass the check. -/
theorem Environment.All.check {ok : Value → Bool} {env : Environment}
    (all : env.All (ok · = true)) : env.check ok = true := by
  refine List.all_eq_true.mpr fun name _ => ?_
  cases held : Dict.get? env name with
  | none => rfl
  | some v => exact (all name v held).check

namespace Execution

/-! ## The watched evaluator -/

/-- Evaluates an expression as `eval` does, under watch. -/
def watchedEval (s : Execution) (ok : Value → Bool) (alarm : Stop) (env : Environment) :
    (room : Nat) → (locals : Environment) → Expr → Run Value
  | 0 => fun _ _ => tooManyLevels
  | room + 1 => fun locals e => do
    Run.require (env.check ok && locals.check ok) alarm
    let value ← s.evalStep env (s.watchedEval ok alarm env room) locals e
    Run.require (value.check ok) alarm
    return value

/-- Runs a block as `runBlock` does, under watch. -/
def watchedBlock (s : Execution) (ok : Value → Bool) (alarm : Stop) (rounds : Nat) :
    (room : Nat) → Environment → List Stmt → Run (Environment × Value)
  | 0 => fun _ _ => tooManyLevels
  | room + 1 =>
    execAll
      (fun env stmt => do
        Run.require (env.check ok) alarm
        let after ← s.execStep rounds (fun env => s.watchedEval ok alarm env room {})
          (fun env body => do return (← s.watchedBlock ok alarm rounds room env body).1) env stmt
        Run.require (after.1.check ok && after.2.check ok) alarm
        return after)
      .null

/-- Runs the statements of the unit under watch. -/
def watchedRun (s : Execution) (ok : Value → Bool) (alarm : Stop) (rounds : Nat)
    (env : Environment) : Run (Environment × Value) :=
  s.watchedBlock ok alarm rounds maxOpenLevels env s.unit.program.statements

/-! ## Evaluating alike -/

section Alike

variable {s : Execution} {good : Value → Prop} {env : Environment}

/-- Expressions one after the other. -/
theorem evalItems_agrees {eval eval' : Expr → Run Value} (items : List Expr)
    (each : ∀ e ∈ items, (eval e).Agrees (Run.Same (·.All good)) (eval' e)) :
    (evalItems eval items).Agrees (Run.Same fun values => ∀ v ∈ values, v.All good)
      (evalItems eval' items) := by
  induction items with
  | nil => exact .pure ⟨rfl, fun v none => by cases none⟩
  | cons e rest ih =>
      refine .bind (each e List.mem_cons_self) fun v v' ⟨same, all⟩ => ?_
      refine .bind (ih fun e member => each e (List.mem_cons_of_mem _ member)) ?_
      rintro values values' ⟨same', alls⟩
      refine .pure ⟨by rw [same, same'], ?_⟩
      intro value member
      rcases List.mem_cons.mp member with rfl | member
      · exact all
      · exact alls value member

/-- Calls into bodies that evaluate alike. -/
theorem call_agrees (closed : s.Closed good) {eval eval' : Environment → Expr → Run Value}
    (evals : ∀ locals e, locals.All good →
      (eval locals e).Agrees (Run.Same (·.All good)) (eval' locals e))
    (callee : Value) {args : List Value} (all : ∀ v ∈ args, v.All good) :
    (s.call eval callee args).Agrees (Run.Same (·.All good)) (s.call eval' callee args) := by
  unfold call
  split
  · split
    · exact .fail _ _
    · split
      · exact evals _ _ (Environment.all_ofList all)
      · exact .fail _ _
  · exact .of_ensures (closed.callNative_all all)
  · exact .fail _ _

/-- An expression, when what is below it evaluates alike. -/
theorem evalStep_agrees (closed : s.Closed good) {eval eval' : Environment → Expr → Run Value}
    (env_all : env.All good)
    (evals : ∀ locals e, locals.All good →
      (eval locals e).Agrees (Run.Same (·.All good)) (eval' locals e))
    {locals : Environment} (locals_all : locals.All good) (e : Expr) :
    (s.evalStep env eval locals e).Agrees (Run.Same (·.All good))
      (s.evalStep env eval' locals e) := by
  have items : ∀ es : List Expr, (evalItems (eval locals) es).Agrees
      (Run.Same fun values => ∀ v ∈ values, v.All good) (evalItems (eval' locals) es) :=
    fun es => evalItems_agrees es fun e _ => evals locals e locals_all
  have truth : ∀ b, Run.Same (·.All good) (Value.bool b) (Value.bool b) :=
    fun b => ⟨rfl, closed.all_data rfl rfl⟩
  cases e with
  | num | str | bool | null => exact .pure ⟨rfl, closed.all_data rfl rfl⟩
  | list es =>
      refine .bind (items es) ?_
      rintro values _ ⟨rfl, all⟩
      exact .pure ⟨rfl, closed.all_items all⟩
  | ident name =>
      simp only [evalStep]
      split
      · rename_i v found
        exact .pure ⟨rfl, closed.lookup_all env_all locals_all found⟩
      · exact .fail _ _
  | member object property =>
      refine .bind (evals locals object locals_all) ?_
      rintro v _ ⟨rfl, all⟩
      exact .of_ensures (closed.memberOf_all all property)
  | call callee args =>
      refine .bind (evals locals callee locals_all) ?_
      rintro f _ ⟨rfl, -⟩
      refine .bind (items args) ?_
      rintro values _ ⟨rfl, all⟩
      exact call_agrees closed evals f all
  | unary op operand =>
      refine .bind (evals locals operand locals_all) ?_
      rintro v _ ⟨rfl, all⟩
      exact .of_ensures (closed.applyUnary_all op all)
  | binary op left right =>
      have first := evals locals left locals_all
      have second := evals locals right locals_all
      cases op with
      | and =>
          refine .bind first ?_
          rintro l _ ⟨rfl, -⟩
          split
          · refine .bind second ?_
            rintro r _ ⟨rfl, -⟩
            exact .pure (truth _)
          · exact .pure (truth _)
      | or =>
          refine .bind first ?_
          rintro l _ ⟨rfl, -⟩
          split
          · exact .pure (truth _)
          · refine .bind second ?_
            rintro r _ ⟨rfl, -⟩
            exact .pure (truth _)
      | add | sub | mul | div | mod | eq | ne | lt | lte | gt | gte =>
          refine .bind first ?_
          rintro l _ ⟨rfl, left_all⟩
          refine .bind second ?_
          rintro r _ ⟨rfl, right_all⟩
          exact .of_ensures (closed.apply_all _ left_all right_all)

/-- A loop, when its test and its body run alike. -/
theorem repeatWhile_agrees {test test' : Environment → Run Value}
    {body body' : Environment → Run Environment} {keeps : Environment → Prop}
    {fine : Value → Prop} (rounds : Nat)
    (tests : ∀ env, keeps env → (test env).Agrees (Run.Same fine) (test' env))
    (bodies : ∀ env, keeps env → (body env).Agrees (Run.Same keeps) (body' env))
    (holds : keeps env) :
    (repeatWhile test body rounds env).Agrees (Run.Same keeps)
      (repeatWhile test' body' rounds env) := by
  induction rounds generalizing env with
  | zero => exact .throw _
  | succ rounds ih =>
      refine .bind (.refl _) fun _ _ _ => .bind (.refl _) fun _ _ _ => ?_
      refine .bind (tests env holds) ?_
      rintro v _ ⟨rfl, -⟩
      split
      · refine .bind (bodies env holds) ?_
        rintro env' _ ⟨rfl, holds'⟩
        exact ih holds'
      · exact .pure ⟨rfl, holds⟩

/-- What is true of the names and the value after a statement. -/
def GoodAfter (good : Value → Prop) (after : Environment × Value) : Prop :=
  after.1.All good ∧ after.2.All good

/-- A statement, when what is below it evaluates and runs alike. -/
theorem execStep_agrees (closed : s.Closed good) {eval eval' : Environment → Expr → Run Value}
    {block block' : Environment → List Stmt → Run Environment} (rounds : Nat) {stmt : Stmt}
    (evals : ∀ env e, env.All good → (eval env e).Agrees (Run.Same (·.All good)) (eval' env e))
    (blocks : ∀ env body, env.All good → (∀ part ∈ Stmt.partsAll body, part ∈ stmt.parts) →
      (block env body).Agrees (Run.Same (Environment.All good)) (block' env body))
    (functions : ∀ name params body span, .define name params body span ∈ stmt.parts →
      good (.func ⟨name, s.unit.id⟩)) (env_all : env.All good) :
    (s.execStep rounds eval block env stmt).Agrees (Run.Same (GoodAfter good))
      (s.execStep rounds eval' block' env stmt) := by
  have null : (Value.null).All good := closed.all_data rfl rfl
  have self : stmt ∈ stmt.parts := List.mem_cons_self
  -- What a block leaves is taken over, and its value is dropped.
  have left : ∀ {x y : Run Environment}, x.Agrees (Run.Same (Environment.All good)) y →
      Run.Agrees (Run.Same (GoodAfter good)) (do let env ← x; return (env, .null))
        (do let env ← y; return (env, .null)) := by
    intro x y agrees
    refine .bind agrees ?_
    rintro env' _ ⟨rfl, all⟩
    exact .pure ⟨rfl, all, null⟩
  cases stmt with
  | load | use => exact .pure ⟨rfl, env_all, null⟩
  | define name params body span =>
      have isGood : (Value.func ⟨name, s.unit.id⟩).All good :=
        Value.all_of_parts_eq rfl (functions name params body span self)
      exact .pure ⟨rfl, env_all.insert isGood name, null⟩
  | bind name value | assign name value =>
      refine .bind (evals env value env_all) ?_
      rintro v _ ⟨rfl, all⟩
      exact .pure ⟨rfl, env_all.insert all name, null⟩
  | branch test onTrue onFalse span =>
      refine .bind (evals env test env_all) ?_
      rintro v _ ⟨rfl, -⟩
      cases onFalse with
      | none =>
          split
          · refine left (blocks env onTrue env_all fun part inside => ?_)
            simp [Stmt.parts, Stmt.inner, inside]
          · exact .pure ⟨rfl, env_all, null⟩
      | some onFalse =>
          split
          · refine left (blocks env onTrue env_all fun part inside => ?_)
            simp [Stmt.parts, Stmt.inner, inside]
          · refine left (blocks env onFalse env_all fun part inside => ?_)
            simp [Stmt.parts, Stmt.inner, inside]
  | loop test body span =>
      refine left (repeatWhile_agrees rounds (fun env all => evals env test all)
        (fun env all => blocks env body all fun part inside => ?_) env_all)
      simp [Stmt.parts, Stmt.inner, inside]
  | eval e =>
      refine .bind (evals env e env_all) ?_
      rintro v _ ⟨rfl, all⟩
      exact .pure ⟨rfl, env_all, all⟩

/-- Statements one after the other, when each runs alike. -/
theorem execAll_agrees {step step' : Environment → Stmt → Run (Environment × Value)}
    (stmts : List Stmt)
    (each : ∀ stmt ∈ stmts, ∀ env, env.All good →
      (step env stmt).Agrees (Run.Same (GoodAfter good)) (step' env stmt))
    (env_all : env.All good) {last : Value} (last_all : last.All good) :
    (execAll step last env stmts).Agrees (Run.Same (GoodAfter good))
      (execAll step' last env stmts) := by
  induction stmts generalizing env last with
  | nil => exact .pure ⟨rfl, env_all, last_all⟩
  | cons stmt rest ih =>
      refine .bind (.refl _) fun _ _ _ => ?_
      refine .bind (each stmt List.mem_cons_self env env_all) ?_
      rintro after _ ⟨rfl, after_all, value_all⟩
      exact ih (fun stmt member => each stmt (List.mem_cons_of_mem _ member)) after_all value_all

end Alike

/-! ## No alarm -/

section NoAlarm

variable {s : Execution} {ok : Value → Bool} {env : Environment}

/-- A computation whose result is good agrees with itself under watch. -/
theorem watch_agrees {α : Type} {value : α → Prop} {x y : Run α} {before : Bool} {after : α → Bool}
    {alarm : Stop} (fine : before = true) (agrees : x.Agrees (Run.Same value) y)
    (fine_after : ∀ a, value a → after a = true) :
    Run.Agrees (Run.Same value)
      (do
        Run.require before alarm
        let a ← x
        Run.require (after a) alarm
        return a) y := by
  have watched : (do
        Run.require before alarm
        let a ← x
        Run.require (after a) alarm
        return a) = (do
        let a ← x
        Run.require (after a) alarm
        return a) := by
    rw [fine]
    rfl
  rw [watched]
  have unwatched : y = y >>= pure := (bind_pure y).symm
  rw [unwatched]
  refine .bind agrees ?_
  rintro a _ ⟨rfl, holds⟩
  rw [fine_after a holds]
  exact .pure ⟨rfl, holds⟩

/-- Evaluating good names gives no alarm. -/
theorem watchedEval_agrees (closed : s.Closed (ok · = true)) (alarm : Stop)
    (env_all : env.All (ok · = true)) (room : Nat) {locals : Environment}
    (locals_all : locals.All (ok · = true)) (e : Expr) :
    (s.watchedEval ok alarm env room locals e).Agrees (Run.Same (·.All (ok · = true)))
      (s.eval env room locals e) := by
  induction room generalizing locals e with
  | zero => exact .fail _ _
  | succ room ih =>
      refine watch_agrees ?_ (evalStep_agrees closed env_all (fun _ e all => ih all e) locals_all e)
        fun v all => all.check
      rw [env_all.check, locals_all.check]
      rfl

/-- Running statements with good names gives no alarm. -/
theorem watchedBlock_agrees (closed : s.Closed (ok · = true)) (alarm : Stop) (rounds room : Nat)
    (env_all : env.All (ok · = true)) (stmts : List Stmt)
    (functions : ∀ name params body span, .define name params body span ∈ Stmt.partsAll stmts →
      ok (.func ⟨name, s.unit.id⟩) = true) :
    (s.watchedBlock ok alarm rounds room env stmts).Agrees
      (Run.Same (GoodAfter (ok · = true))) (s.runBlock rounds room env stmts) := by
  induction room generalizing env stmts with
  | zero => exact .fail _ _
  | succ room ih =>
      refine execAll_agrees stmts (fun stmt member env env_all => ?_) env_all
        (closed.all_data rfl rfl)
      have inner : ∀ part ∈ stmt.parts, part ∈ Stmt.partsAll stmts :=
        fun part inside => Stmt.mem_partsAll.mpr ⟨stmt, member, inside⟩
      refine watch_agrees env_all.check (execStep_agrees closed rounds ?_ ?_ ?_ env_all) ?_
      · intro env e all
        exact watchedEval_agrees closed alarm all room Environment.all_empty e
      · intro env body all inside
        refine .bind (ih all body fun name params e span member =>
          functions name params e span (inner _ (inside _ member))) ?_
        rintro after _ ⟨rfl, after_all, -⟩
        exact .pure ⟨rfl, after_all⟩
      · intro name params body span member
        exact functions name params body span (inner _ member)
      · rintro after ⟨after_all, value_all⟩
        rw [after_all.check, value_all.check]
        rfl

/-- **A run that is supplied with good values has only good values at every moment**: under watch it
is the same run, whatever the alarm. -/
theorem watchedRun_eq (closed : s.Closed (ok · = true)) (alarm : Stop) (rounds : Nat)
    (env_all : env.All (ok · = true))
    (functions : ∀ name params body span,
      .define name params body span ∈ Stmt.partsAll s.unit.program.statements →
        ok (.func ⟨name, s.unit.id⟩) = true) :
    s.watchedRun ok alarm rounds env = s.run rounds env :=
  (watchedBlock_agrees closed alarm rounds maxOpenLevels env_all _ functions).eq

end NoAlarm

end Execution

end ScriptShell
