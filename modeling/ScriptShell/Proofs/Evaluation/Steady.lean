import ScriptShell.Proofs.Evaluation.Ensures

/-! # Runs that nobody cancels

What is printed has no influence on a run, and the token has none as long as it is not fired. So a
run comes to the same result from all worlds from which it ends without the token being fired:
`Run.Steady`.

That is proved along the ways in which computations are put together. `Run.Compositional` says what
has to be shown of them for any property of computations; **`Compositional.runBlock`** makes the
induction over evaluation and running once. -/

namespace ScriptShell

/-- A look that leaves the token unfired has not found it fired. -/
theorem Token.look_eq_false {t : Token} (calm : t.look.2.fired = false) : t.look.1 = false := by
  by_cases isFired : t.fired = true
  · simp [look, isFired] at calm
  · cases fires : t.firesAfter with
    | none => simp [look, isFired, fires]
    | some looks =>
        cases looks with
        | zero => simp [look, fire, isFired, fires] at calm
        | succ looks => simp [look, isFired, fires]

namespace Run

variable {α β : Type}

/-! ## Properties of all runs -/

/-- A property of computations that those of one step have and that sequences keep. -/
structure Compositional (holds : (α : Type) → Run α → Prop) : Prop where
  pure : ∀ {α : Type} (a : α), holds α (Pure.pure a)
  throw : ∀ {α : Type} (e : Stop), holds α (MonadExcept.throw e)
  bind : ∀ {α β : Type} {x : Run α} {f : α → Run β}, holds α x → (∀ a, holds β (f a)) →
    holds β (x >>= f)
  checkpoint : holds Unit Run.checkpoint
  suspend : holds Unit Run.suspend
  note : ∀ effect : NativeEffect, holds Unit (Run.note effect)
  perform : ∀ reply : NativeReply, holds Value (Run.perform reply)

namespace Compositional

variable {holds : (α : Type) → Run α → Prop} (rules : Compositional holds) {s : Execution}
  {env : Environment}

include rules

/-- A failure is a stop. -/
theorem fail (code : ErrorCode) (message : String) : holds α (Run.fail code message) :=
  rules.throw _

/-- Expressions from left to right. -/
theorem evalItems {eval : Expr → Run Value} (evals : ∀ e, holds Value (eval e))
    (items : List Expr) : holds (List Value) (Execution.evalItems eval items) := by
  induction items with
  | nil => exact rules.pure []
  | cons e rest ih => exact rules.bind (evals e) fun v => rules.bind ih fun vs => rules.pure _

/-- Members of values. -/
theorem memberOf (object : Value) (property : String) :
    holds Value (s.memberOf object property) := by
  unfold Execution.memberOf
  split
  · unfold Execution.memberValue
    split
    · exact rules.fail _ _
    · split
      · exact rules.pure _
      · exact rules.fail _ _
  · split
    · exact rules.pure _
    · exact rules.fail _ _
  · exact rules.fail _ _

/-- Calls of native functions. -/
theorem callNative (ref : NativeId) (args : List Value) : holds Value (s.callNative ref args) := by
  unfold Execution.callNative
  split
  · exact rules.fail _ _
  · split
    · exact rules.pure _
    · exact rules.perform _

/-- Calls, when the bodies of functions have the property. -/
theorem call {eval : Environment → Expr → Run Value}
    (evals : ∀ locals e, holds Value (eval locals e)) (callee : Value) (args : List Value) :
    holds Value (s.call eval callee args) := by
  unfold Execution.call
  split
  · split
    · exact rules.fail _ _
    · split
      · exact evals _ _
      · exact rules.fail _ _
  · exact rules.callNative _ _
  · exact rules.fail _ _

/-- A call that is polled until its reply is there. -/
theorem poll (reply : NativeReply) (pauses : List NativeEffect) :
    holds Value (Run.poll reply pauses) := by
  induction pauses with
  | nil => exact rules.bind rules.checkpoint fun _ => rules.perform reply
  | cons effect rest ih =>
      exact rules.bind rules.checkpoint fun _ => rules.bind (rules.note effect) fun _ => ih

/-- Prefix operators, awaiting among them. -/
theorem applyUnary (op : UnaryOp) (operand : Value) : holds Value (s.applyUnary op operand) := by
  unfold Execution.applyUnary
  split
  · exact rules.pure _
  · exact rules.fail _ _
  · exact rules.pure _
  · unfold Execution.await
    split
    · split
      · exact rules.fail _ _
      · exact rules.bind (rules.note _) fun _ => rules.poll _ _
    · exact rules.pure _

/-- A result that may be an error. -/
theorem ofResult (x : Except RunError Value) : holds Value (Execution.ofResult x) := by
  cases x with
  | ok v => exact rules.pure v
  | error e => exact rules.throw _

/-- An expression, when what is below it has the property. -/
theorem evalStep {eval : Environment → Expr → Run Value}
    (evals : ∀ locals e, holds Value (eval locals e)) (locals : Environment) (e : Expr) :
    holds Value (s.evalStep env eval locals e) := by
  have items := rules.evalItems (evals locals)
  cases e with
  | num | str | bool | null => exact rules.pure _
  | list es => exact rules.bind (items es) fun vs => rules.pure _
  | ident name =>
      simp only [Execution.evalStep]
      split
      · exact rules.pure _
      · exact rules.fail _ _
  | member object property =>
      exact rules.bind (evals locals object) fun v => rules.memberOf v property
  | call callee args =>
      exact rules.bind (evals locals callee) fun f => rules.bind (items args) fun vs =>
        rules.call evals f vs
  | unary op operand => exact rules.bind (evals locals operand) fun v => rules.applyUnary op v
  | binary op left right =>
      cases op with
      | and =>
          refine rules.bind (evals locals left) fun l => ?_
          split
          · exact rules.bind (evals locals right) fun r => rules.pure _
          · exact rules.pure _
      | or =>
          refine rules.bind (evals locals left) fun l => ?_
          split
          · exact rules.pure _
          · exact rules.bind (evals locals right) fun r => rules.pure _
      | add | sub | mul | div | mod | eq | ne | lt | lte | gt | gte =>
          exact rules.bind (evals locals left) fun l => rules.bind (evals locals right) fun r =>
            rules.ofResult _

/-- Expressions, at every number of levels. -/
theorem eval (room : Nat) (locals : Environment) (e : Expr) :
    holds Value (s.eval env room locals e) := by
  induction room generalizing locals e with
  | zero => exact rules.fail _ _
  | succ room ih => exact rules.evalStep ih locals e

/-- Loops, when their test and their body have the property. -/
theorem repeatWhile {test : Environment → Run Value} {body : Environment → Run Environment}
    (tests : ∀ env, holds Value (test env)) (bodies : ∀ env, holds Environment (body env))
    (rounds : Nat) (env : Environment) :
    holds Environment (Execution.repeatWhile test body rounds env) := by
  induction rounds generalizing env with
  | zero => exact rules.throw _
  | succ rounds ih =>
      refine rules.bind rules.checkpoint fun _ => rules.bind rules.suspend fun _ => ?_
      refine rules.bind (tests env) fun v => ?_
      split
      · exact rules.bind (bodies env) ih
      · exact rules.pure env

/-- A statement, when what is below it has the property. -/
theorem execStep {rounds : Nat} {eval : Environment → Expr → Run Value}
    {block : Environment → List Stmt → Run Environment}
    (evals : ∀ env e, holds Value (eval env e)) (blocks : ∀ env body, holds _ (block env body))
    (env : Environment) (stmt : Stmt) :
    holds (Environment × Value) (s.execStep rounds eval block env stmt) := by
  cases stmt with
  | load | use | define => exact rules.pure _
  | bind name value | assign name value =>
      exact rules.bind (evals env value) fun v => rules.pure _
  | branch test onTrue onFalse =>
      refine rules.bind (evals env test) fun v => ?_
      cases onFalse with
      | none =>
          split
          · exact rules.bind (blocks env onTrue) fun env => rules.pure _
          · exact rules.pure _
      | some onFalse =>
          split
          · exact rules.bind (blocks env onTrue) fun env => rules.pure _
          · exact rules.bind (blocks env onFalse) fun env => rules.pure _
  | loop test body =>
      exact rules.bind (rules.repeatWhile (evals · test) (blocks · body) rounds env) fun env =>
        rules.pure _
  | eval e => exact rules.bind (evals env e) fun v => rules.pure _

/-- Statements one after the other, when each has the property. -/
theorem execAll {step : Environment → Stmt → Run (Environment × Value)}
    (steps : ∀ env stmt, holds _ (step env stmt)) (last : Value) (env : Environment)
    (stmts : List Stmt) : holds (Environment × Value) (Execution.execAll step last env stmts) := by
  induction stmts generalizing env last with
  | nil => exact rules.pure _
  | cons stmt rest ih =>
      exact rules.bind rules.checkpoint fun _ => rules.bind (steps env stmt) fun after => ih _ _

/-- **What sequences keep holds of every run of a block.** -/
theorem runBlock (s : Execution) (rounds room : Nat) (env : Environment) (stmts : List Stmt) :
    holds (Environment × Value) (s.runBlock rounds room env stmts) := by
  induction room generalizing env stmts with
  | zero => exact rules.fail _ _
  | succ room ih =>
      refine rules.execAll (rules.execStep (fun env e => rules.eval room {} e) ?_) .null env stmts
      intro env body
      exact rules.bind (ih env body) fun after => rules.pure _

end Compositional

/-! ## Results -/

/-- What a computation comes to from a world: a value, or the reason for which it stops. -/
def result (x : Run α) (world : World) : Except Stop α :=
  match x world with
  | .ok a _ => .ok a
  | .error e _ => .error e

/-- Whether the token is fired when a computation from a world has come to its result. -/
def endsFired (x : Run α) (world : World) : Bool :=
  match x world with
  | .ok _ ended | .error _ ended => ended.token.fired

/-- A computation that comes to one result from all worlds, as far as it ends without the token
being fired. A fired token stays fired. -/
structure Steady (x : Run α) : Prop where
  fired : ∀ {world}, world.token.fired = true → x.endsFired world = true
  result : ∀ {first second}, x.endsFired first = false → x.endsFired second = false →
    x.result first = x.result second

namespace Steady

variable {x : Run α} {f : α → Run β} {world : World}

/-- To return changes nothing about the token. -/
theorem pure (a : α) : Steady (Pure.pure a) :=
  ⟨fun isFired => isFired, fun _ _ => rfl⟩

/-- To stop changes nothing about the token. -/
theorem throw (e : Stop) : Steady (MonadExcept.throw e : Run α) :=
  ⟨fun isFired => isFired, fun _ _ => rfl⟩

/-- A look that leaves the token unfired goes on. -/
theorem result_checkpoint (calm : Run.checkpoint.endsFired world = false) :
    Run.checkpoint.result world = .ok () := by
  simp only [endsFired, Run.result, Run.checkpoint] at calm ⊢
  have unfired : world.token.look.1 = false := by
    refine Token.look_eq_false ?_
    split at calm
    all_goals
      rename_i isEnd
      split at isEnd <;> cases isEnd
      exact calm
  simp [unfired]

/-- A look at the token: it goes on exactly if it leaves the token unfired. -/
theorem checkpoint : Steady Run.checkpoint where
  fired isFired := by simp [endsFired, Run.checkpoint, Token.look, isFired]
  result calm₁ calm₂ := (result_checkpoint calm₁).trans (result_checkpoint calm₂).symm

/-- To let others go on keeps a fired token fired, and always goes on. -/
theorem suspend : Steady Run.suspend where
  fired isFired := by simp [endsFired, Run.suspend, World.resumed, Token.look, isFired]
  result _ _ := rfl

/-- What a native function does on the way to its reply: whether it breaks off is its own affair. -/
theorem note (effect : NativeEffect) : Steady (Run.note effect) where
  fired isFired := by
    simp only [endsFired, Run.note]
    cases effect.breaks <;> cases effect.cancels <;> simp [Token.fire, isFired]
  result _ _ := by
    simp only [Run.result, Run.note]
    cases effect.breaks <;> rfl

/-- The reply of a native function: its result is its own affair. -/
theorem perform (reply : NativeReply) : Steady (Run.perform reply) where
  fired isFired := by
    simp only [endsFired, Run.perform]
    cases reply.result <;> cases reply.cancels <;> simp [Token.fire, isFired]
  result _ _ := by
    simp only [Run.result, Run.perform]
    cases reply.result <;> rfl

/-- A sequence that ends with the token unfired has it unfired in between. -/
theorem endsFired_first (second : ∀ a, (f a).Steady) (calm : (x >>= f).endsFired world = false) :
    x.endsFired world = false := by
  cases ran : x world with
  | ok a ended =>
      rw [endsFired, bind_of_ok ran] at calm
      rw [endsFired, ran]
      refine Bool.eq_false_iff.mpr fun isFired => ?_
      exact absurd ((second a).fired isFired) (by rw [endsFired, calm]; decide)
  | error e ended =>
      rw [endsFired, bind_of_error ran] at calm
      rw [endsFired, ran]
      exact calm

/-- **The result of a sequence**, as far as nobody cancels it: what its first part comes to from any
other world, and then its second part from any world. -/
theorem result_bind (first : x.Steady) (second : ∀ a, (f a).Steady)
    (calm : (x >>= f).endsFired world = false) {world₁ : World}
    (calm₁ : x.endsFired world₁ = false) :
    match x.result world₁ with
    | .error e => (x >>= f).result world = .error e
    | .ok a => ∀ world₂, (f a).endsFired world₂ = false →
        (x >>= f).result world = (f a).result world₂ := by
  have same := first.result (endsFired_first second calm) calm₁
  rw [← same]
  cases ran : x world with
  | ok a ended =>
      rw [endsFired, bind_of_ok ran] at calm
      simp only [Run.result, ran, bind_of_ok ran]
      exact fun world₂ calm₂ => (second a).result calm calm₂
  | error e ended => simp only [Run.result, ran, bind_of_error ran]

/-- One computation after another. -/
theorem bind (first : x.Steady) (second : ∀ a, (f a).Steady) : (x >>= f).Steady where
  fired {world} isFired := by
    have between := first.fired isFired
    cases ran : x world with
    | ok a ended =>
        rw [endsFired, ran] at between
        rw [endsFired, bind_of_ok ran]
        exact (second a).fired between
    | error e ended =>
        rw [endsFired, ran] at between
        rw [endsFired, bind_of_error ran]
        exact between
  result {world world'} calm calm' := by
    have whole := result_bind first second calm (endsFired_first second calm')
    cases ran : x world' with
    | ok a ended =>
        rw [endsFired, bind_of_ok ran] at calm'
        simp only [Run.result, ran] at whole
        simp only [Run.result, bind_of_ok ran]
        exact whole ended calm'
    | error e ended =>
        simp only [Run.result, ran] at whole
        simp only [Run.result, bind_of_error ran]
        exact whole

/-- Steadiness is a property of all runs. -/
theorem compositional : Compositional fun _ x => x.Steady where
  pure := pure
  throw := throw
  bind := bind
  checkpoint := checkpoint
  suspend := suspend
  note := note
  perform := perform

end Steady

end Run

end ScriptShell
