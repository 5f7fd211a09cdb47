import ScriptShell.Proofs.Evaluation.Ensures

/-! # The rules of evaluation

What a script means, as rules without a bound on loops: `Evaluates`, `Runs` and the relations beside
them derive how an expression or a block ends from how its parts end. They count the levels that are
open, and a loop goes on for as long as its test holds, so nothing says beforehand that a derivation
exists. The rules also name the declared functions that may be called: with none allowed, a
derivation is a run that calls none. -/

namespace ScriptShell

/-- How a computation ends: in a world, with a result or with a reason to stop. -/
abbrev Ending (α : Type) := EStateM.Result Stop World α

/-- Goes on after an ending, unless it was a stop. -/
def Ending.andThen {α β : Type} (ending : Ending α) (next : α → Run β) : Ending β :=
  match ending with
  | .ok a world => next a world
  | .error stop world => .error stop world

/-- What a first operand decides alone, for the connectives. -/
def BinaryOp.decided? : BinaryOp → Value → Option Bool
  | .and, left => if left.isTruthy then none else some false
  | .or, left => if left.isTruthy then some true else none
  | _, _ => none

namespace Execution

/-- What an operator makes of both operands. -/
def joined : BinaryOp → Value → Value → Run Value
  | .and, _, right | .or, _, right => pure (.bool right.isTruthy)
  | op, left, right => ofResult (op.apply left right)

/-- The body that a call opens, with its parameters bound: none where the callee is no declared
function, or one with another number of parameters. -/
def body? (s : Execution) : Value → List Value → Option (Environment × Expr)
  | .func ref, args =>
    (s.unit.function? ref.name ref.unit).bind fun decl =>
      if decl.params.length = args.length then
        some (Dict.ofList (decl.params.zip args), decl.body)
      else none
  | _, _ => none

mutual

/-- An expression is evaluated while `opened` levels are open. -/
inductive Evaluates (s : Execution) (allowed : FunctionId → Prop) :
    (opened : Nat) → (env locals : Environment) → Expr → World → Ending Value → Prop where
  | tooDeep {opened env locals e world} : maxOpenLevels ≤ opened →
      Evaluates s allowed opened env locals e world (tooManyLevels world)
  | opens {opened env locals e world ending} : opened < maxOpenLevels →
      Computes s allowed (opened + 1) env locals e world ending →
      Evaluates s allowed opened env locals e world ending

/-- An expression is evaluated, and its own level is among those that are open. -/
inductive Computes (s : Execution) (allowed : FunctionId → Prop) :
    (opened : Nat) → (env locals : Environment) → Expr → World → Ending Value → Prop where
  | num {opened env locals x span world} :
      Computes s allowed opened env locals (.num x span) world (.ok (.num x) world)
  | str {opened env locals text span world} :
      Computes s allowed opened env locals (.str text span) world (.ok (.str text) world)
  | bool {opened env locals value span world} :
      Computes s allowed opened env locals (.bool value span) world (.ok (.bool value) world)
  | null {opened env locals span world} :
      Computes s allowed opened env locals (.null span) world (.ok .null world)
  | list {opened env locals items span world ending} :
      EvaluatesAll s allowed opened env locals items world ending →
      Computes s allowed opened env locals (.list items span) world
        (ending.andThen fun values => pure (.list values))
  | ident {opened env locals name span world value} : s.lookup? env locals name = some value →
      Computes s allowed opened env locals (.ident name span) world (.ok value world)
  | unbound {opened env locals name span world} : s.lookup? env locals name = none →
      Computes s allowed opened env locals (.ident name span) world
        (Run.fail .undefinedVariable ("undefined variable '" ++ name ++ "'") world)
  | member {opened env locals object property span world ending} :
      Evaluates s allowed opened env locals object world ending →
      Computes s allowed opened env locals (.member object property span) world
        (ending.andThen fun value => s.memberOf value property)
  | unary {opened env locals op operand span world ending} :
      Evaluates s allowed opened env locals operand world ending →
      Computes s allowed opened env locals (.unary op operand span) world
        (ending.andThen (s.applyUnary op))
  | leftStops {opened env locals op left right span world stop ended} :
      Evaluates s allowed opened env locals left world (.error stop ended) →
      Computes s allowed opened env locals (.binary op left right span) world (.error stop ended)
  | decided {opened env locals op left right span world l middle truth} :
      Evaluates s allowed opened env locals left world (.ok l middle) →
      op.decided? l = some truth →
      Computes s allowed opened env locals (.binary op left right span) world
        (.ok (.bool truth) middle)
  | binary {opened env locals op left right span world l middle ending} :
      Evaluates s allowed opened env locals left world (.ok l middle) → op.decided? l = none →
      Evaluates s allowed opened env locals right middle ending →
      Computes s allowed opened env locals (.binary op left right span) world
        (ending.andThen (joined op l))
  | calleeStops {opened env locals callee args span world stop ended} :
      Evaluates s allowed opened env locals callee world (.error stop ended) →
      Computes s allowed opened env locals (.call callee args span) world (.error stop ended)
  | argsStop {opened env locals callee args span world f middle stop ended} :
      Evaluates s allowed opened env locals callee world (.ok f middle) →
      EvaluatesAll s allowed opened env locals args middle (.error stop ended) →
      Computes s allowed opened env locals (.call callee args span) world (.error stop ended)
  -- How a body would be evaluated does not matter where none is opened.
  | call {opened env locals callee args span world f middle values later evalBody} :
      Evaluates s allowed opened env locals callee world (.ok f middle) →
      EvaluatesAll s allowed opened env locals args middle (.ok values later) →
      s.body? f values = none →
      Computes s allowed opened env locals (.call callee args span) world
        (s.call evalBody f values later)
  | body {opened env locals callee args span world ref middle values later params body ending} :
      Evaluates s allowed opened env locals callee world (.ok (.func ref) middle) →
      EvaluatesAll s allowed opened env locals args middle (.ok values later) →
      s.body? (.func ref) values = some (params, body) → allowed ref →
      Evaluates s allowed opened env params body later ending →
      Computes s allowed opened env locals (.call callee args span) world ending

/-- Expressions are evaluated from left to right. -/
inductive EvaluatesAll (s : Execution) (allowed : FunctionId → Prop) :
    (opened : Nat) → (env locals : Environment) → List Expr → World → Ending (List Value) →
    Prop where
  | nil {opened env locals world} :
      EvaluatesAll s allowed opened env locals [] world (.ok [] world)
  | stops {opened env locals e rest world stop ended} :
      Evaluates s allowed opened env locals e world (.error stop ended) →
      EvaluatesAll s allowed opened env locals (e :: rest) world (.error stop ended)
  | cons {opened env locals e rest world value middle ending} :
      Evaluates s allowed opened env locals e world (.ok value middle) →
      EvaluatesAll s allowed opened env locals rest middle ending →
      EvaluatesAll s allowed opened env locals (e :: rest) world
        (ending.andThen fun values => pure (value :: values))

end

/-- The block that a branch takes. -/
def taken (test : Value) (onTrue : List Stmt) (onFalse : Option (List Stmt)) :
    Option (List Stmt) :=
  if test.isTruthy then some onTrue else onFalse

mutual

/-- A block is run while `opened` levels are open. -/
inductive Runs (s : Execution) (allowed : FunctionId → Prop) :
    (opened : Nat) → Environment → List Stmt → World → Ending (Environment × Value) → Prop where
  | tooDeep {opened env stmts world} : maxOpenLevels ≤ opened →
      Runs s allowed opened env stmts world (tooManyLevels world)
  | opens {opened env stmts world ending} : opened < maxOpenLevels →
      ExecutesAll s allowed (opened + 1) .null env stmts world ending →
      Runs s allowed opened env stmts world ending

/-- The statements of an open block are executed one after the other; `last` is the value of the
one before. -/
inductive ExecutesAll (s : Execution) (allowed : FunctionId → Prop) :
    (opened : Nat) → (last : Value) → Environment → List Stmt → World →
    Ending (Environment × Value) → Prop where
  | nil {opened last env world} :
      ExecutesAll s allowed opened last env [] world (.ok (env, last) world)
  | cancelled {opened last env stmt rest world stop ended} :
      Run.checkpoint world = .error stop ended →
      ExecutesAll s allowed opened last env (stmt :: rest) world (.error stop ended)
  | stops {opened last env stmt rest world looked stop ended} :
      Run.checkpoint world = .ok () looked →
      Executes s allowed opened env stmt looked (.error stop ended) →
      ExecutesAll s allowed opened last env (stmt :: rest) world (.error stop ended)
  | cons {opened last env stmt rest world looked after value middle ending} :
      Run.checkpoint world = .ok () looked →
      Executes s allowed opened env stmt looked (.ok (after, value) middle) →
      ExecutesAll s allowed opened value after rest middle ending →
      ExecutesAll s allowed opened last env (stmt :: rest) world ending

/-- A statement of an open block is executed. -/
inductive Executes (s : Execution) (allowed : FunctionId → Prop) :
    (opened : Nat) → Environment → Stmt → World → Ending (Environment × Value) → Prop where
  | load {opened env target span world} :
      Executes s allowed opened env (.load target span) world (.ok (env, .null) world)
  | use {opened env module span world} :
      Executes s allowed opened env (.use module span) world (.ok (env, .null) world)
  | define {opened env name params body span world} :
      Executes s allowed opened env (.define name params body span) world
        (.ok (env.insert name (.func ⟨name, s.unit.id⟩), .null) world)
  | bind {opened env name value span world ending} :
      Evaluates s allowed opened env {} value world ending →
      Executes s allowed opened env (.bind name value span) world
        (ending.andThen fun v => pure (env.insert name v, .null))
  | assign {opened env name value span world ending} :
      Evaluates s allowed opened env {} value world ending →
      Executes s allowed opened env (.assign name value span) world
        (ending.andThen fun v => pure (env.insert name v, .null))
  | eval {opened env e terminated span world ending} :
      Evaluates s allowed opened env {} e world ending →
      Executes s allowed opened env (.eval e terminated span) world
        (ending.andThen fun v => pure (env, v))
  | testStops {opened env test onTrue onFalse span world stop ended} :
      Evaluates s allowed opened env {} test world (.error stop ended) →
      Executes s allowed opened env (.branch test onTrue onFalse span) world (.error stop ended)
  | passed {opened env test onTrue onFalse span world v middle} :
      Evaluates s allowed opened env {} test world (.ok v middle) →
      taken v onTrue onFalse = none →
      Executes s allowed opened env (.branch test onTrue onFalse span) world
        (.ok (env, .null) middle)
  | branch {opened env test onTrue onFalse span world v middle body ending} :
      Evaluates s allowed opened env {} test world (.ok v middle) →
      taken v onTrue onFalse = some body → Runs s allowed opened env body middle ending →
      Executes s allowed opened env (.branch test onTrue onFalse span) world
        (ending.andThen fun r => pure (r.1, .null))
  | loop {opened env test body span world ending} :
      Repeats s allowed opened test body env world ending →
      Executes s allowed opened env (.loop test body span) world
        (ending.andThen fun after => pure (after, .null))

/-- A loop is followed to its end. -/
inductive Repeats (s : Execution) (allowed : FunctionId → Prop) :
    (opened : Nat) → (test : Expr) → (body : List Stmt) → Environment → World →
    Ending Environment → Prop where
  | cancelled {opened test body env world stop ended} :
      Run.checkpoint world = .error stop ended →
      Repeats s allowed opened test body env world (.error stop ended)
  | testStops {opened test body env world looked stop ended} :
      Run.checkpoint world = .ok () looked →
      Evaluates s allowed opened env {} test looked.resumed (.error stop ended) →
      Repeats s allowed opened test body env world (.error stop ended)
  | ends {opened test body env world looked v middle} :
      Run.checkpoint world = .ok () looked →
      Evaluates s allowed opened env {} test looked.resumed (.ok v middle) → v.isTruthy = false →
      Repeats s allowed opened test body env world (.ok env middle)
  | bodyStops {opened test body env world looked v middle stop ended} :
      Run.checkpoint world = .ok () looked →
      Evaluates s allowed opened env {} test looked.resumed (.ok v middle) → v.isTruthy = true →
      Runs s allowed opened env body middle (.error stop ended) →
      Repeats s allowed opened test body env world (.error stop ended)
  | again {opened test body env world looked v middle after value later ending} :
      Run.checkpoint world = .ok () looked →
      Evaluates s allowed opened env {} test looked.resumed (.ok v middle) → v.isTruthy = true →
      Runs s allowed opened env body middle (.ok (after, value) later) →
      Repeats s allowed opened test body after later ending →
      Repeats s allowed opened test body env world ending

end

end Execution

/-! ## Evaluation in the terms of the rules -/

namespace Run

variable {α β : Type} {x : Run α} {next : α → Run β} {world ended : World}

/-- One computation after another. -/
theorem bind_apply (x : Run α) (next : α → Run β) (world : World) :
    (x >>= next) world = Ending.andThen (x world) next := by
  cases ran : x world with
  | ok a ended => exact bind_of_ok ran
  | error stop ended => exact bind_of_error ran

/-- What two computations came to, one after the other. -/
theorem of_bind_ok {b : β} (ran : (x >>= next) world = .ok b ended) :
    ∃ a middle, x world = .ok a middle ∧ next a middle = .ok b ended := by
  rw [bind_apply] at ran
  cases first : x world with
  | ok a middle => exact ⟨a, middle, rfl, by rwa [first] at ran⟩
  | error stop middle =>
      rw [first] at ran
      cases ran

end Run

namespace Execution

variable {s : Execution} {env locals : Environment}

/-- Where no body is opened, how it would be evaluated does not matter. -/
theorem call_of_body?_none {f : Value} {values : List Value} (none : s.body? f values = none)
    (evalBody other : Environment → Expr → Run Value) :
    s.call evalBody f values = s.call other f values := by
  cases f with
  | func ref =>
      simp only [call]
      cases found : s.unit.function? ref.name ref.unit with
      | none => rfl
      | some decl =>
          simp only [body?, found, Option.bind_some, ite_eq_right_iff] at none
          have notEqual : ¬decl.params.length = values.length := fun equal => by cases none equal
          simp only [notEqual, if_false]
  | _ => rfl

/-- Where one is opened, it is what the call comes to. -/
theorem call_of_body?_some {ref : FunctionId} {values : List Value} {params : Environment}
    {body : Expr} (opens : s.body? (.func ref) values = some (params, body))
    (evalBody : Environment → Expr → Run Value) :
    s.call evalBody (.func ref) values = evalBody params body := by
  simp only [body?, Option.bind_eq_some_iff] at opens
  obtain ⟨decl, found, opens⟩ := opens
  split at opens
  · rename_i length
    cases opens
    simp only [call, found, length, if_true]
  · cases opens

/-- An operator looks at its first operand, and at the second one unless the first decides. -/
theorem evalStep_binary (eval : Environment → Expr → Run Value) (op : BinaryOp) (left right : Expr)
    (span : Span) :
    s.evalStep env eval locals (.binary op left right span) =
      eval locals left >>= fun l =>
        match op.decided? l with
        | some truth => pure (.bool truth)
        | none => eval locals right >>= joined op l := by
  cases op with
  | and | or =>
      simp only [evalStep, BinaryOp.decided?]
      congr 1
      funext l
      cases l.isTruthy <;> rfl
  | _ => rfl

/-- A branch runs the block that its test takes. -/
theorem execStep_branch (rounds : Nat) (eval : Environment → Expr → Run Value)
    (block : Environment → List Stmt → Run Environment) (test : Expr) (onTrue : List Stmt)
    (onFalse : Option (List Stmt)) (span : Span) :
    s.execStep rounds eval block env (.branch test onTrue onFalse span) =
      eval env test >>= fun v =>
        match taken v onTrue onFalse with
        | none => pure (env, .null)
        | some body => block env body >>= fun after => pure (after, .null) := by
  cases onFalse with
  | none | some =>
      simp only [execStep, taken]
      congr 1
      funext v
      cases v.isTruthy <;> rfl

end Execution

end ScriptShell
