import ScriptShell.Proofs.Evaluation.Agreement
import ScriptShell.Proofs.Evaluation.DeclaredValues
import ScriptShell.Proofs.Evaluation.Functions
import ScriptShell.Proofs.Syntax.Spans

/-! # Evaluating by declaration

The evaluator knows functions by reference and looks a declaration up when a function is called. The
one in this file never looks up what a script has declared: running a declaration makes a value that
has a declaration with it, and a call evaluates the body that the value brings. Which declaration
that is may be chosen (`carry`); the obvious choice is the statement's own one.

**`run_agrees`** compares the two. They agree, in the worlds they end in and in their results up to
declarations, as long as the declarations that values bring are those that the units know, up to
where they stand in a text. -/

namespace ScriptShell

/-! ## Where an expression stands -/

/-- A declaration without places in a text. -/
def FunctionDecl.bare (decl : FunctionDecl) : FunctionDecl :=
  ⟨decl.params, decl.body.bare⟩

namespace Execution

/-- Without their places in the text, expressions are evaluated alike one after the other. -/
theorem evalItems_bareAll {eval : Expr → Run Value} (same : ∀ e, eval e.bare = eval e)
    (items : List Expr) : evalItems eval (Expr.bareAll items) = evalItems eval items := by
  induction items with
  | nil => rfl
  | cons e rest ih => rw [Expr.bareAll, evalItems, evalItems, same, ih]

/-- **Where an expression stands makes no difference to its value.** -/
theorem eval_bare (s : Execution) (env : Environment) (room : Nat) (locals : Environment)
    (e : Expr) : s.eval env room locals e.bare = s.eval env room locals e := by
  induction room generalizing locals e with
  | zero => rfl
  | succ room ih =>
      have items := fun es => evalItems_bareAll (ih locals) es
      show s.evalStep env (s.eval env room) locals e.bare =
        s.evalStep env (s.eval env room) locals e
      cases e with
      | num | str | bool | null | ident => rfl
      | list es => simp only [Expr.bare, evalStep, items]
      | member object property => simp only [Expr.bare, evalStep, ih]
      | call callee args => simp only [Expr.bare, evalStep, ih, items]
      | unary op operand => simp only [Expr.bare, evalStep, ih]
      | binary op left right =>
          cases op <;> simp only [Expr.bare, evalStep, ih]

end Execution

/-! ## The evaluator -/

namespace ByDeclaration

/-- The value of a name, in the order in which `Execution.lookup?` looks. -/
def lookup? (s : Execution) (env locals : DeclEnvironment) (name : String) : Option DeclValue :=
  (locals.get? name).or <| (env.get? name).or <|
    ((s.builtin? name).or ((s.module? name).or (s.imported? name))).map .plain

/-- The value of a member of a value. -/
def memberOf (s : Execution) (object : DeclValue) (property : String) : Run DeclValue :=
  match object with
  | .obj fields =>
    match fields.lookup property with
    | some d => pure d
    | none => Run.fail .propertyNotFound ("object has no property '" ++ property ++ "'")
  | other => do return .plain (← s.memberOf other.forget property)

/-- Takes up the answer of a native function. The function saw no declarations, and its answer takes
over those of its arguments. -/
def answered (args : List DeclValue) (answer : Run Value) : Run DeclValue := do
  let value ← answer
  return .restore (DeclValue.declarationIn args) value

/-- Calls a native function; a call of an asynchronous one is pending until it is awaited. -/
def callNative (s : Execution) (ref : NativeId) (args : List DeclValue) : Run DeclValue :=
  match s.native? ref with
  | none => Run.fail .unknownFunction ("unknown function " ++ Value.nativeName ref)
  | some f =>
    if f.isAsync then pure (.pending ref args)
    else answered args (Run.perform (f.body (DeclValue.forgetAll args)))

/-- Calls a value: a function by the declaration that it has with it, if it has one. -/
def call (s : Execution) (evalBody : DeclEnvironment → Expr → Run DeclValue) (callee : DeclValue)
    (args : List DeclValue) : Run DeclValue :=
  match callee with
  | .func ref carried =>
    match carried.or (s.unit.function? ref.name ref.unit) with
    | none => Run.fail .unknownFunction ("function '" ++ ref.name ++ "' is no longer defined")
    | some decl =>
      if decl.params.length = args.length then
        evalBody (Dict.ofList (decl.params.zip args)) decl.body
      else
        Run.fail .wrongArgCount (ref.name ++ "() expects " ++ toString decl.params.length
          ++ " argument(s), got " ++ toString args.length)
  | .native ref => callNative s ref args
  | other => Run.fail .typeError (other.forget.kind ++ " is not callable")

/-- Awaits a value. -/
def await (s : Execution) : DeclValue → Run DeclValue
  | .pending target args =>
    match (s.native? target).filter (·.isAsync) with
    | none => Run.fail .unknownFunction (Value.nativeName target ++ " is not asynchronous")
    | some f => do
      let given := DeclValue.forgetAll args
      Run.note (f.starts given)
      answered args (Run.poll (f.body given) (f.pauses given))
  | value => pure value

/-- Applies a prefix operator. -/
def applyUnary (s : Execution) (op : UnaryOp) (operand : DeclValue) : Run DeclValue :=
  match op with
  | .await => await s operand
  | .neg | .not => do return .plain (← s.applyUnary op operand.forget)

/-- Applies an operator: lists join with the declarations in them, and everything else makes values
without functions. -/
def apply (op : BinaryOp) (left right : DeclValue) : Run DeclValue :=
  match op, left, right with
  | .add, .list xs, .list ys => pure (.list (xs ++ ys))
  | op, left, right => do return .plain (← Execution.ofResult (op.apply left.forget right.forget))

/-- Evaluates expressions from left to right. -/
def evalItems (eval : Expr → Run DeclValue) : List Expr → Run (List DeclValue)
  | [] => pure []
  | e :: rest => do
    let value ← eval e
    let values ← evalItems eval rest
    return value :: values

/-- Evaluates an expression, given how to evaluate the expressions one level below it. -/
def evalStep (s : Execution) (env : DeclEnvironment)
    (eval : DeclEnvironment → Expr → Run DeclValue) (locals : DeclEnvironment) :
    Expr → Run DeclValue
  | .num x _ => pure (.num x)
  | .str text _ => pure (.str text)
  | .bool value _ => pure (.bool value)
  | .null _ => pure .null
  | .list items _ => do
    let values ← evalItems (eval locals) items
    return .list values
  | .ident name _ =>
    match lookup? s env locals name with
    | some value => pure value
    | none => Run.fail .undefinedVariable ("undefined variable '" ++ name ++ "'")
  | .member object property _ => do
    let value ← eval locals object
    memberOf s value property
  | .call callee args _ => do
    let function ← eval locals callee
    let values ← evalItems (eval locals) args
    call s eval function values
  | .unary op operand _ => do
    let value ← eval locals operand
    applyUnary s op value
  | .binary .and left right _ => do
    let l ← eval locals left
    if l.forget.isTruthy then
      let r ← eval locals right
      return .bool r.forget.isTruthy
    else return .bool false
  | .binary .or left right _ => do
    let l ← eval locals left
    if l.forget.isTruthy then return .bool true
    else
      let r ← eval locals right
      return .bool r.forget.isTruthy
  | .binary op left right _ => do
    let l ← eval locals left
    let r ← eval locals right
    apply op l r

/-- Evaluates an expression with at most `room` levels still to be opened. -/
def eval (s : Execution) (env : DeclEnvironment) :
    (room : Nat) → (locals : DeclEnvironment) → Expr → Run DeclValue
  | 0 => fun _ _ => Execution.tooManyLevels
  | room + 1 => evalStep s env (eval s env room)

/-- Repeats a body while a test holds, for at most `rounds` tests. -/
def repeatWhile (test : DeclEnvironment → Run DeclValue)
    (body : DeclEnvironment → Run DeclEnvironment) :
    (rounds : Nat) → DeclEnvironment → Run DeclEnvironment
  | 0, _ => throw .unfinished
  | rounds + 1, env => do
    Run.checkpoint
    Run.suspend
    let value ← test env
    if value.forget.isTruthy then
      let env ← body env
      repeatWhile test body rounds env
    else return env

/-- Runs a statement. A declaration makes a function with the declaration that `carry` chooses for
it, given the name and what the statement says. -/
def execStep (s : Execution) (carry : String → FunctionDecl → FunctionDecl) (rounds : Nat)
    (eval : DeclEnvironment → Expr → Run DeclValue)
    (block : DeclEnvironment → List Stmt → Run DeclEnvironment) (env : DeclEnvironment) :
    Stmt → Run (DeclEnvironment × DeclValue)
  | .load .. | .use .. => pure (env, .null)
  | .define name params body _ =>
    pure (env.insert name (.func ⟨name, s.unit.id⟩ (some (carry name ⟨params, body⟩))), .null)
  | .bind name value _ | .assign name value _ => do
    let value ← eval env value
    return (env.insert name value, .null)
  | .branch test onTrue onFalse _ => do
    let value ← eval env test
    if value.forget.isTruthy then
      let env ← block env onTrue
      return (env, .null)
    else
      match onFalse with
      | none => return (env, .null)
      | some onFalse =>
        let env ← block env onFalse
        return (env, .null)
  | .loop test body _ => do
    let env ← repeatWhile (eval · test) (block · body) rounds env
    return (env, .null)
  | .eval expr _ _ => do
    let value ← eval env expr
    return (env, value)

/-- Runs statements one after the other. -/
def execAll (step : DeclEnvironment → Stmt → Run (DeclEnvironment × DeclValue)) (last : DeclValue) :
    DeclEnvironment → List Stmt → Run (DeclEnvironment × DeclValue)
  | env, [] => pure (env, last)
  | env, stmt :: rest => do
    Run.checkpoint
    let (env, value) ← step env stmt
    execAll step value env rest

/-- Runs a block with at most `room` levels still to be opened. -/
def runBlock (s : Execution) (carry : String → FunctionDecl → FunctionDecl) (rounds : Nat) :
    (room : Nat) → DeclEnvironment → List Stmt → Run (DeclEnvironment × DeclValue)
  | 0 => fun _ _ => Execution.tooManyLevels
  | room + 1 =>
    execAll
      (execStep s carry rounds (fun env => eval s env room {})
        (fun env body => do return (← runBlock s carry rounds room env body).1))
      .null

/-- Runs the statements of the unit. -/
def run (s : Execution) (carry : String → FunctionDecl → FunctionDecl) (rounds : Nat)
    (env : DeclEnvironment) : Run (DeclEnvironment × DeclValue) :=
  runBlock s carry rounds maxOpenLevels env s.unit.program.statements

/-! ## Both evaluators side by side -/

/-- A unit knows a declaration under a reference, up to where it stands. -/
def Kept (u : ScriptUnit) (ref : FunctionId) (decl : FunctionDecl) : Prop :=
  ∃ kept, u.function? ref.name ref.unit = some kept ∧ kept.bare = decl.bare

/-- A value stands for one with declarations, which are those that a unit knows. -/
def Stands (u : ScriptUnit) (v : Value) (d : DeclValue) : Prop :=
  v = d.forget ∧ d.Faithful (Kept u)

/-- The values of names stand for those with declarations. -/
def StandsEnv (u : ScriptUnit) (env : Environment) (d : DeclEnvironment) : Prop :=
  env = d.forget ∧ d.Faithful (Kept u)

/-- Names and a value stand for those with declarations. -/
def StandsAfter (u : ScriptUnit) (after : Environment × Value)
    (d : DeclEnvironment × DeclValue) : Prop :=
  StandsEnv u after.1 d.1 ∧ Stands u after.2 d.2

section Steps

variable {s : Execution} {u : ScriptUnit} {env locals : DeclEnvironment}

/-- A value that came about without declarations. -/
theorem plain_agrees (x : Run Value) : x.Agrees (Stands u) (do return DeclValue.plain (← x)) :=
  .map x fun v => ⟨(DeclValue.forget_plain v).symm, .plain v⟩

/-- A name stands for the same value with and without declarations. -/
theorem lookup?_forget (s : Execution) (env locals : DeclEnvironment) (name : String) :
    s.lookup? env.forget locals.forget name = (lookup? s env locals name).map DeclValue.forget := by
  unfold Execution.lookup? lookup?
  rw [DeclEnvironment.get?_forget, DeclEnvironment.get?_forget]
  -- What is no name of the script comes without declarations on both sides.
  have others : ∀ o : Option Value, o = (o.map DeclValue.plain).map DeclValue.forget := by
    intro o
    cases o with
    | none => rfl
    | some v => simp
  rw [Option.map_or, Option.map_or, ← others]

/-- The value of a name is faithful if all names have faithful values. -/
theorem lookup?_faithful (env_faithful : env.Faithful (Kept u))
    (locals_faithful : locals.Faithful (Kept u)) {name : String} {d : DeclValue}
    (found : lookup? s env locals name = some d) : d.Faithful (Kept u) := by
  unfold lookup? at found
  simp only [Option.or_eq_some_iff] at found
  rcases found with found | ⟨-, found | ⟨-, found⟩⟩
  · exact locals_faithful name d found
  · exact env_faithful name d found
  · obtain ⟨v, -, rfl⟩ := Option.map_eq_some_iff.mp found
    exact .plain v

/-- A member of a faithful value is faithful, and the one of the plain value. -/
theorem memberOf_agrees {object : DeclValue} (faithful : object.Faithful (Kept u))
    (property : String) :
    (s.memberOf object.forget property).Agrees (Stands u) (memberOf s object property) := by
  cases object with
  | obj fields =>
      simp only [DeclValue.forget, Execution.memberOf, memberOf, DeclValue.lookup_forgetFields]
      cases found : fields.lookup property with
      | none => exact .fail _ _
      | some d =>
          obtain ⟨before, after, split, -⟩ := List.lookup_eq_some_iff.mp found
          have held : d.Faithful (Kept u) :=
            DeclValue.Faithful.obj.mp faithful (property, d) (by simp [split])
          exact .pure ⟨rfl, held⟩
  | null | bool | num | str | list | func | native | module | pending => exact plain_agrees _

/-- An answer stands for itself with the declarations of the arguments. -/
theorem answered_agrees (answer : Run Value) {args : List DeclValue}
    (all : ∀ d ∈ args, d.Faithful (Kept u)) : answer.Agrees (Stands u) (answered args answer) :=
  .map _ fun v => ⟨(DeclValue.forget_restore _ v).symm, .restore all v⟩

/-- A call of a native function gives the same with and without declarations. -/
theorem callNative_agrees (ref : NativeId) {args : List DeclValue}
    (all : ∀ d ∈ args, d.Faithful (Kept u)) :
    (s.callNative ref (DeclValue.forgetAll args)).Agrees (Stands u) (callNative s ref args) := by
  unfold Execution.callNative callNative
  cases s.native? ref with
  | none => exact .fail _ _
  | some f =>
      dsimp only
      split
      · exact .pure ⟨rfl, DeclValue.Faithful.pending.mpr all⟩
      · exact answered_agrees _ all

/-- A call: the declaration that the function has with it says what the unit's one says. -/
theorem call_agrees {evalBody : Environment → Expr → Run Value}
    {evalBody' : DeclEnvironment → Expr → Run DeclValue}
    (placeless : ∀ locals e, evalBody locals e.bare = evalBody locals e)
    (bodies : ∀ (locals : DeclEnvironment) e, locals.Faithful (Kept s.unit) →
      (evalBody locals.forget e).Agrees (Stands s.unit) (evalBody' locals e))
    {callee : DeclValue} (faithful : callee.Faithful (Kept s.unit)) {args : List DeclValue}
    (all : ∀ d ∈ args, d.Faithful (Kept s.unit)) :
    (s.call evalBody callee.forget (DeclValue.forgetAll args)).Agrees (Stands s.unit)
      (call s evalBody' callee args) := by
  -- Once a declaration is at hand, both sides bind its parameters and evaluate its body.
  have enter : ∀ (name : String) (decl : FunctionDecl), Run.Agrees (Stands s.unit)
      (if decl.params.length = (DeclValue.forgetAll args).length then
        evalBody (Dict.ofList (decl.params.zip (DeclValue.forgetAll args))) decl.body
      else
        Run.fail .wrongArgCount (name ++ "() expects " ++ toString decl.params.length
          ++ " argument(s), got " ++ toString (DeclValue.forgetAll args).length))
      (if decl.params.length = args.length then
        evalBody' (Dict.ofList (decl.params.zip args)) decl.body
      else
        Run.fail .wrongArgCount (name ++ "() expects " ++ toString decl.params.length
          ++ " argument(s), got " ++ toString args.length)) := by
    intro name decl
    rw [DeclValue.length_forgetAll]
    split
    · rw [← DeclEnvironment.forget_ofList]
      exact bodies _ _ (.ofList all)
    · exact .fail _ _
  cases callee with
  | func ref carried =>
      simp only [DeclValue.forget, Execution.call, call]
      cases carried with
      | none =>
          rw [Option.none_or]
          cases s.unit.function? ref.name ref.unit with
          | none => exact .fail _ _
          | some decl => exact enter ref.name decl
      | some decl =>
          obtain ⟨kept, found, same⟩ := faithful ref decl List.mem_cons_self
          obtain ⟨params, body⟩ : kept.params = decl.params ∧ kept.body.bare = decl.body.bare :=
            FunctionDecl.mk.inj same
          rw [found, Option.some_or]
          dsimp only
          rw [params, ← placeless _ kept.body, body, placeless]
          exact enter ref.name decl
  | native ref => exact callNative_agrees ref all
  | null | bool | num | str | list | obj | module | pending => exact .fail _ _

/-- Awaiting gives the same with and without declarations. -/
theorem await_agrees {d : DeclValue} (faithful : d.Faithful (Kept u)) :
    (s.await d.forget).Agrees (Stands u) (await s d) := by
  cases d with
  | pending target args =>
      simp only [DeclValue.forget, Execution.await, await]
      cases (s.native? target).filter (·.isAsync) with
      | none => exact .fail _ _
      | some f =>
          refine .bind (.refl _) fun _ _ _ => ?_
          exact answered_agrees _ (DeclValue.Faithful.pending.mp faithful)
  | null | bool | num | str | list | obj | func | native | module => exact .pure ⟨rfl, faithful⟩

/-- Prefix operators give the same with and without declarations. -/
theorem applyUnary_agrees (op : UnaryOp) {d : DeclValue} (faithful : d.Faithful (Kept u)) :
    (s.applyUnary op d.forget).Agrees (Stands u) (applyUnary s op d) := by
  cases op with
  | await =>
      have awaits : s.applyUnary .await d.forget = s.await d.forget := by
        cases d.forget <;> rfl
      rw [awaits]
      exact await_agrees faithful
  | neg | not => exact plain_agrees _

/-- Operators between two operands give the same with and without declarations. -/
theorem apply_agrees (op : BinaryOp) {left right : DeclValue}
    (left_faithful : left.Faithful (Kept u)) (right_faithful : right.Faithful (Kept u)) :
    (Execution.ofResult (op.apply left.forget right.forget)).Agrees (Stands u)
      (apply op left right) := by
  unfold apply
  split
  · rename_i xs ys
    refine .pure ⟨?_, DeclValue.Faithful.list.mpr fun d member => ?_⟩
    · rw [DeclValue.forget, DeclValue.forgetAll_append]
    · rcases List.mem_append.mp member with member | member
      · exact DeclValue.Faithful.list.mp left_faithful d member
      · exact DeclValue.Faithful.list.mp right_faithful d member
  · exact plain_agrees _

/-- Expressions one after the other. -/
theorem evalItems_agrees {eval : Expr → Run Value} {eval' : Expr → Run DeclValue}
    (each : ∀ e, (eval e).Agrees (Stands u) (eval' e)) (items : List Expr) :
    (Execution.evalItems eval items).Agrees
      (fun values ds => values = DeclValue.forgetAll ds ∧ ∀ d ∈ ds, d.Faithful (Kept u))
      (evalItems eval' items) := by
  induction items with
  | nil => exact .pure ⟨rfl, fun d none => by cases none⟩
  | cons e rest ih =>
      refine .bind (each e) ?_
      rintro _ d ⟨rfl, faithful⟩
      refine .bind ih ?_
      rintro _ ds ⟨rfl, all⟩
      refine .pure ⟨rfl, fun d' member => ?_⟩
      rcases List.mem_cons.mp member with rfl | member
      · exact faithful
      · exact all d' member

end Steps

/-! ## Whole expressions -/

section Expressions

variable {s : Execution} {env locals : DeclEnvironment}

/-- An expression, when what is below it agrees. -/
theorem evalStep_agrees {eval : Environment → Expr → Run Value}
    {eval' : DeclEnvironment → Expr → Run DeclValue} (env_faithful : env.Faithful (Kept s.unit))
    (placeless : ∀ locals e, eval locals e.bare = eval locals e)
    (evals : ∀ (locals : DeclEnvironment) e, locals.Faithful (Kept s.unit) →
      (eval locals.forget e).Agrees (Stands s.unit) (eval' locals e))
    (locals_faithful : locals.Faithful (Kept s.unit)) (e : Expr) :
    (s.evalStep env.forget eval locals.forget e).Agrees (Stands s.unit)
      (evalStep s env eval' locals e) := by
  have part : ∀ e, (eval locals.forget e).Agrees (Stands s.unit) (eval' locals e) :=
    fun e => evals locals e locals_faithful
  have truth : ∀ b, Stands s.unit (.bool b) (.bool b) := fun _ => ⟨rfl, .of_nil rfl⟩
  cases e with
  | num | str | bool | null => exact .pure ⟨rfl, .of_nil rfl⟩
  | list items =>
      refine .bind (evalItems_agrees part items) ?_
      rintro _ ds ⟨rfl, all⟩
      exact .pure ⟨rfl, DeclValue.Faithful.list.mpr all⟩
  | ident name =>
      simp only [Execution.evalStep, evalStep, lookup?_forget]
      cases found : lookup? s env locals name with
      | none => exact .fail _ _
      | some d => exact .pure ⟨rfl, lookup?_faithful env_faithful locals_faithful found⟩
  | member object property =>
      refine .bind (part object) ?_
      rintro _ d ⟨rfl, faithful⟩
      exact memberOf_agrees faithful property
  | call callee args =>
      refine .bind (part callee) ?_
      rintro _ d ⟨rfl, faithful⟩
      refine .bind (evalItems_agrees part args) ?_
      rintro _ ds ⟨rfl, all⟩
      exact call_agrees placeless evals faithful all
  | unary op operand =>
      refine .bind (part operand) ?_
      rintro _ d ⟨rfl, faithful⟩
      exact applyUnary_agrees op faithful
  | binary op left right =>
      cases op with
      | and =>
          refine .bind (part left) ?_
          rintro _ l ⟨rfl, -⟩
          split
          · refine .bind (part right) ?_
            rintro _ r ⟨rfl, -⟩
            exact .pure (truth _)
          · exact .pure (truth _)
      | or =>
          refine .bind (part left) ?_
          rintro _ l ⟨rfl, -⟩
          split
          · exact .pure (truth _)
          · refine .bind (part right) ?_
            rintro _ r ⟨rfl, -⟩
            exact .pure (truth _)
      | add | sub | mul | div | mod | eq | ne | lt | lte | gt | gte =>
          refine .bind (part left) ?_
          rintro _ l ⟨rfl, left_faithful⟩
          refine .bind (part right) ?_
          rintro _ r ⟨rfl, right_faithful⟩
          exact apply_agrees _ left_faithful right_faithful

/-- **Expressions agree.** -/
theorem eval_agrees (env_faithful : env.Faithful (Kept s.unit)) (room : Nat)
    (locals_faithful : locals.Faithful (Kept s.unit)) (e : Expr) :
    (s.eval env.forget room locals.forget e).Agrees (Stands s.unit) (eval s env room locals e) := by
  induction room generalizing locals e with
  | zero => exact .fail _ _
  | succ room ih =>
      exact evalStep_agrees env_faithful (s.eval_bare env.forget room)
        (fun locals e faithful => ih faithful e) locals_faithful e

end Expressions

/-! ## Whole runs -/

section Statements

variable {s : Execution} {carry : String → FunctionDecl → FunctionDecl} {env : DeclEnvironment}

/-- A loop, when its test and its body agree. -/
theorem repeatWhile_agrees {u : ScriptUnit} {test : Environment → Run Value}
    {test' : DeclEnvironment → Run DeclValue} {body : Environment → Run Environment}
    {body' : DeclEnvironment → Run DeclEnvironment} (rounds : Nat)
    (tests : ∀ env : DeclEnvironment, env.Faithful (Kept u) →
      (test env.forget).Agrees (Stands u) (test' env))
    (bodies : ∀ env : DeclEnvironment, env.Faithful (Kept u) →
      (body env.forget).Agrees (StandsEnv u) (body' env))
    (faithful : env.Faithful (Kept u)) :
    (Execution.repeatWhile test body rounds env.forget).Agrees (StandsEnv u)
      (repeatWhile test' body' rounds env) := by
  induction rounds generalizing env with
  | zero => exact .throw _
  | succ rounds ih =>
      refine .bind (.refl _) fun _ _ _ => .bind (.refl _) fun _ _ _ => ?_
      refine .bind (tests env faithful) ?_
      rintro _ d ⟨rfl, -⟩
      split
      · refine .bind (bodies env faithful) ?_
        rintro _ env' ⟨rfl, faithful'⟩
        exact ih faithful'
      · exact .pure ⟨rfl, faithful⟩

/-- A statement, when what is below it agrees and what functions carry is known to the unit. -/
theorem execStep_agrees {eval : Environment → Expr → Run Value}
    {eval' : DeclEnvironment → Expr → Run DeclValue}
    {block : Environment → List Stmt → Run Environment}
    {block' : DeclEnvironment → List Stmt → Run DeclEnvironment} (rounds : Nat) {stmt : Stmt}
    (evals : ∀ (env : DeclEnvironment) e, env.Faithful (Kept s.unit) →
      (eval env.forget e).Agrees (Stands s.unit) (eval' env e))
    (blocks : ∀ (env : DeclEnvironment) body, env.Faithful (Kept s.unit) →
      (∀ part ∈ Stmt.partsAll body, part ∈ stmt.parts) →
      (block env.forget body).Agrees (StandsEnv s.unit) (block' env body))
    (carried : ∀ name params body span, .define name params body span ∈ stmt.parts →
      Kept s.unit ⟨name, s.unit.id⟩ (carry name ⟨params, body⟩))
    (faithful : env.Faithful (Kept s.unit)) :
    (s.execStep rounds eval block env.forget stmt).Agrees (StandsAfter s.unit)
      (execStep s carry rounds eval' block' env stmt) := by
  have null : Stands s.unit .null .null := ⟨rfl, .of_nil rfl⟩
  have self : stmt ∈ stmt.parts := List.mem_cons_self
  -- What a block leaves is taken over, and its value is dropped.
  have left : ∀ {x : Run Environment} {y : Run DeclEnvironment}, x.Agrees (StandsEnv s.unit) y →
      Run.Agrees (StandsAfter s.unit) (do let env ← x; return (env, .null))
        (do let env ← y; return (env, .null)) :=
    fun agrees => .bind agrees fun _ _ stands => .pure ⟨stands, null⟩
  cases stmt with
  | load | use => exact .pure ⟨⟨rfl, faithful⟩, null⟩
  | define name params body span =>
      have function : (DeclValue.func ⟨name, s.unit.id⟩ (some (carry name ⟨params, body⟩))).Faithful
          (Kept s.unit) := by
        intro ref decl member
        cases List.mem_singleton.mp member
        exact carried name params body span self
      refine .pure ⟨⟨?_, faithful.insert function name⟩, null⟩
      rw [DeclEnvironment.forget_insert]
      rfl
  | bind name value | assign name value =>
      refine .bind (evals env value faithful) ?_
      rintro _ d ⟨rfl, holds⟩
      refine .pure ⟨⟨?_, faithful.insert holds name⟩, null⟩
      rw [DeclEnvironment.forget_insert]
  | branch test onTrue onFalse span =>
      refine .bind (evals env test faithful) ?_
      rintro _ d ⟨rfl, -⟩
      cases onFalse with
      | none =>
          split
          · refine left (blocks env onTrue faithful fun part inside => ?_)
            simp [Stmt.parts, Stmt.inner, inside]
          · exact .pure ⟨⟨rfl, faithful⟩, null⟩
      | some onFalse =>
          split
          · refine left (blocks env onTrue faithful fun part inside => ?_)
            simp [Stmt.parts, Stmt.inner, inside]
          · refine left (blocks env onFalse faithful fun part inside => ?_)
            simp [Stmt.parts, Stmt.inner, inside]
  | loop test body span =>
      refine left (repeatWhile_agrees rounds (fun env holds => evals env test holds)
        (fun env holds => blocks env body holds fun part inside => ?_) faithful)
      simp [Stmt.parts, Stmt.inner, inside]
  | eval e =>
      refine .bind (evals env e faithful) ?_
      rintro _ d ⟨rfl, holds⟩
      exact .pure ⟨⟨rfl, faithful⟩, rfl, holds⟩

/-- Statements one after the other, when each agrees. -/
theorem execAll_agrees {u : ScriptUnit} {step : Environment → Stmt → Run (Environment × Value)}
    {step' : DeclEnvironment → Stmt → Run (DeclEnvironment × DeclValue)} (stmts : List Stmt)
    (each : ∀ stmt ∈ stmts, ∀ env : DeclEnvironment, env.Faithful (Kept u) →
      (step env.forget stmt).Agrees (StandsAfter u) (step' env stmt))
    (faithful : env.Faithful (Kept u)) {last : DeclValue} (last_faithful : last.Faithful (Kept u)) :
    (Execution.execAll step last.forget env.forget stmts).Agrees (StandsAfter u)
      (execAll step' last env stmts) := by
  induction stmts generalizing env last with
  | nil => exact .pure ⟨⟨rfl, faithful⟩, rfl, last_faithful⟩
  | cons stmt rest ih =>
      refine .bind (.refl _) fun _ _ _ => ?_
      refine .bind (each stmt List.mem_cons_self env faithful) ?_
      rintro ⟨_, _⟩ ⟨env', value⟩ ⟨⟨rfl, faithful'⟩, rfl, value_faithful⟩
      exact ih (fun stmt member => each stmt (List.mem_cons_of_mem _ member)) faithful'
        value_faithful

/-- A block gives the same with and without declarations, at every number of levels. -/
theorem runBlock_agrees (rounds room : Nat) (faithful : env.Faithful (Kept s.unit))
    (stmts : List Stmt)
    (carried : ∀ name params body span, .define name params body span ∈ Stmt.partsAll stmts →
      Kept s.unit ⟨name, s.unit.id⟩ (carry name ⟨params, body⟩)) :
    (s.runBlock rounds room env.forget stmts).Agrees (StandsAfter s.unit)
      (runBlock s carry rounds room env stmts) := by
  induction room generalizing env stmts with
  | zero => exact .fail _ _
  | succ room ih =>
      refine @execAll_agrees env s.unit _ _ stmts (fun stmt member env faithful => ?_) faithful
        .null (.of_nil rfl)
      have inner : ∀ part ∈ stmt.parts, part ∈ Stmt.partsAll stmts :=
        fun part inside => Stmt.mem_partsAll.mpr ⟨stmt, member, inside⟩
      refine execStep_agrees rounds ?_ ?_ ?_ faithful
      · intro env e holds
        exact eval_agrees holds room .empty e
      · intro env body holds inside
        refine .bind (ih holds body fun name params e span member =>
          carried name params e span (inner _ (inside _ member))) ?_
        rintro _ _ ⟨stands, -⟩
        exact .pure stands
      · intro name params body span member
        exact carried name params body span (inner _ member)

/-- **Runs agree**, if the unit knows what its functions carry and what the names bring. -/
theorem run_agrees (rounds : Nat) (faithful : env.Faithful (Kept s.unit))
    (carried : ∀ name params body span,
      .define name params body span ∈ Stmt.partsAll s.unit.program.statements →
        Kept s.unit ⟨name, s.unit.id⟩ (carry name ⟨params, body⟩)) :
    (s.run rounds env.forget).Agrees (StandsAfter s.unit) (run s carry rounds env) :=
  runBlock_agrees rounds maxOpenLevels faithful _ carried

end Statements

end ByDeclaration

end ScriptShell
