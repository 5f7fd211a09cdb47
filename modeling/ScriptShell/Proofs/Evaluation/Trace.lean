import ScriptShell.Proofs.Evaluation.Rules

/-! # What happens during a run

A run looks at its token before every statement, at the start of every round of a loop and at every
poll of a call that it awaits. This file keeps a record of these moments: `tracedRun` runs as `run`
does and leaves, beside the ending, the events on the way there. An event is a step that the run
comes to, with whether it starts it; that a round of a loop lets others go on, and that its test
begins; that an await begins; that the body of a declared function is opened; or that a native
function fires the token.

**`tracedRun_tells`** says that the record is a true one: the traced run ends as the run does, a
step is started exactly if the token is unfired at that moment, one that is not started is the last
event, and the token at the end is what the events make of it. -/

namespace ScriptShell

/-! ## Events -/

/-- What a run starts only after a look at its token. -/
inductive Step where
  | statement (stmt : Stmt)
  /-- A round of a loop with this test. -/
  | round (test : Expr)
  /-- A poll of an awaited call. -/
  | poll (target : NativeId) (args : List Value)

/-- Whether a step is a round of a loop. -/
def Step.isRound : Step → Bool
  | .round _ => true
  | _ => false

/-- What may happen during a run. -/
inductive Event where
  /-- The run comes to a step, and starts it or not. -/
  | reach (step : Step) (starts : Bool)
  /-- A round of a loop lets others go on. -/
  | suspend
  /-- The test of a loop begins to be evaluated. -/
  | test (e : Expr)
  /-- An await of a pending call of an asynchronous native function begins. -/
  | await (target : NativeId) (args : List Value)
  /-- The body of a declared function is opened. -/
  | opens (ref : FunctionId)
  /-- A native function fires the token. -/
  | fire

/-- The test that begins to be evaluated, if that is the event. -/
def Event.test? : Event → Option Expr
  | .test e => some e
  | _ => none

/-- The function whose body is opened, if that is the event. -/
def Event.opened? : Event → Option FunctionId
  | .opens ref => some ref
  | _ => none

namespace Token

/-- What an event makes of a token: a step that is reached looks at it, and others who go on may
fire it. -/
def afterEvent (t : Token) : Event → Token
  | .reach .. | .suspend => t.look.2
  | .fire => t.fire
  | .test _ | .await .. | .opens _ => t

/-- What events make of a token. -/
def after (t : Token) (events : List Event) : Token :=
  events.foldl afterEvent t

/-- Events one after the other. -/
theorem after_append (t : Token) (first second : List Event) :
    t.after (first ++ second) = (t.after first).after second :=
  List.foldl_append

end Token

namespace Ending

variable {α : Type}

/-- The world at the end. -/
def world : Ending α → World
  | .ok _ world | .error _ world => world

/-- The token at the end. -/
def token (ending : Ending α) : Token :=
  ending.world.token

/-- Why a computation stopped, if it did. -/
def stop? : Ending α → Option Stop
  | .ok .. => none
  | .error reason _ => some reason

end Ending

/-- The events of a computation, from a token on to how it stopped, if it did: each step that was
reached was started exactly if a look found the token unfired, and one that was not started is the
last event, and stopped the computation as cancelled. A test begins only in a round that started,
after others went on, and what is awaited is polled unless it breaks off before. -/
inductive Obeys : Token → List Event → Option Stop → Prop where
  | done {t stop?} : Obeys t [] stop?
  | fire {t rest stop?} : Obeys t.fire rest stop? → Obeys t (.fire :: rest) stop?
  | opens {t ref rest stop?} : Obeys t rest stop? → Obeys t (.opens ref :: rest) stop?
  | await {t target args rest stop?} : Obeys t rest stop? →
      (stop? = some .broken ∨ ∃ step starts, .reach step starts ∈ rest) →
      Obeys t (.await target args :: rest) stop?
  | cancelled {t step} : t.look.1 = true → Obeys t [.reach step false] (some .cancelled)
  | starts {t step rest stop?} : t.look.1 = false → step.isRound = false →
      Obeys t.look.2 rest stop? → Obeys t (.reach step true :: rest) stop?
  | round {t e rest stop?} : t.look.1 = false → Obeys t.look.2.look.2 rest stop? →
      Obeys t (.reach (.round e) true :: .suspend :: .test e :: rest) stop?

/-- Events after those of a computation that ended. -/
theorem Obeys.append {t : Token} {first second : List Event} {stop? : Option Stop}
    (before : Obeys t first none) (after : Obeys (t.after first) second stop?) :
    Obeys t (first ++ second) stop? := by
  generalize ended : (none : Option Stop) = stop at before
  induction before with
  | done => exact after
  | fire _ ih => exact .fire (ih after ended)
  | opens _ ih => exact .opens (ih after ended)
  | await _ looks ih =>
      subst ended
      obtain ⟨step, starts, member⟩ := looks.resolve_left (by simp)
      exact .await (ih after rfl) (.inr ⟨step, starts, List.mem_append_left _ member⟩)
  | cancelled => cases ended
  | starts unfired notRound _ ih => exact .starts unfired notRound (ih after ended)
  | round unfired _ ih => exact .round unfired (ih after ended)

/-! ## Traced computations -/

/-- Computations of a run that leave their events. -/
def Traced (α : Type) := World → List Event × Ending α

namespace Traced

variable {α β : Type}

instance : Monad Traced where
  pure a := fun world => ([], .ok a world)
  bind x next := fun world =>
    match x world with
    | (events, .ok a ended) =>
      let after := next a ended
      (events ++ after.1, after.2)
    | (events, .error reason ended) => (events, .error reason ended)

/-- A computation without events. -/
def quiet (x : Run α) : Traced α := fun world =>
  ([], x world)

/-- A computation after one more event. -/
def marked (event : Event) (x : Traced α) : Traced α := fun world =>
  (event :: (x world).1, (x world).2)

/-- Comes to a step, and goes on to start it unless the token is fired. -/
def reach (step : Step) : Traced Unit := fun world =>
  ([.reach step !world.token.look.1], Run.checkpoint world)

/-- Comes to a round of a loop, lets others go on and goes on to its test, unless the token is
fired. -/
def round (e : Expr) : Traced Unit := do
  .reach (.round e)
  .marked .suspend (.quiet Run.suspend)
  .marked (.test e) (pure ())

/-- Takes up what a native function does on the way to its reply. -/
def note (effect : NativeEffect) : Traced Unit := fun world =>
  (if effect.cancels then [.fire] else [], Run.note effect world)

/-- Takes up the reply of a native function. -/
def perform (reply : NativeReply) : Traced Value := fun world =>
  (if reply.cancels then [.fire] else [], Run.perform reply world)

/-- Polls an awaited call until its reply is there; every poll is a step. -/
def poll (step : Step) (reply : NativeReply) : List NativeEffect → Traced Value
  | [] => do
    .reach step
    .perform reply
  | effect :: rest => do
    .reach step
    .note effect
    poll step reply rest

end Traced

namespace Execution

/-! ## The traced evaluator -/

/-- Calls a native function. -/
def tracedNative (s : Execution) (ref : NativeId) (args : List Value) : Traced Value :=
  match s.native? ref with
  | none => .quiet (s.callNative ref args)
  | some f => if f.isAsync then .quiet (s.callNative ref args) else .perform (f.body args)

/-- Calls a value, given how to evaluate the body of a function. -/
def tracedCall (s : Execution) (evalBody : Environment → Expr → Traced Value) (callee : Value)
    (args : List Value) : Traced Value :=
  match callee with
  | .func ref =>
    match s.body? (.func ref) args with
    | some (params, body) => .marked (.opens ref) (evalBody params body)
    | none => .quiet (s.call (fun _ _ => tooManyLevels) (.func ref) args)
  | .native ref => s.tracedNative ref args
  | callee => .quiet (s.call (fun _ _ => tooManyLevels) callee args)

/-- Applies a prefix operator. -/
def tracedUnary (s : Execution) : UnaryOp → Value → Traced Value
  | .await, .pending target args =>
    match (s.native? target).filter (·.isAsync) with
    | none => .quiet (s.await (.pending target args))
    | some f => .marked (.await target args) do
      .note (f.starts args)
      .poll (.poll target args) (f.body args) (f.pauses args)
  | op, v => .quiet (s.applyUnary op v)

/-- Evaluates expressions from left to right. -/
def tracedItems (eval : Expr → Traced Value) : List Expr → Traced (List Value)
  | [] => pure []
  | e :: rest => do
    let value ← eval e
    let values ← tracedItems eval rest
    return value :: values

/-- Evaluates an expression, given how to evaluate those one level below it. -/
def tracedStep (s : Execution) (env : Environment) (eval : Environment → Expr → Traced Value)
    (locals : Environment) : Expr → Traced Value
  | .list items _ => do
    let values ← tracedItems (eval locals) items
    return .list values
  | .member object property _ => do
    let value ← eval locals object
    .quiet (s.memberOf value property)
  | .call callee args _ => do
    let function ← eval locals callee
    let values ← tracedItems (eval locals) args
    s.tracedCall eval function values
  | .unary op operand _ => do
    let value ← eval locals operand
    s.tracedUnary op value
  | .binary op left right _ => do
    let l ← eval locals left
    match op.decided? l with
    | some truth => return .bool truth
    | none => do
      let r ← eval locals right
      .quiet (joined op l r)
  | e => .quiet (s.evalStep env (fun _ _ => tooManyLevels) locals e)

/-- Evaluates an expression as `eval` does. -/
def tracedEval (s : Execution) (env : Environment) :
    (room : Nat) → (locals : Environment) → Expr → Traced Value
  | 0 => fun _ _ => .quiet tooManyLevels
  | room + 1 => s.tracedStep env (s.tracedEval env room)

/-- Repeats a body while a test holds; every round is a step. -/
def tracedWhile (e : Expr) (test : Environment → Traced Value)
    (body : Environment → Traced Environment) : (rounds : Nat) → Environment → Traced Environment
  | 0, _ => .quiet (throw .unfinished)
  | rounds + 1, env => do
    .round e
    let value ← test env
    if value.isTruthy then
      let env ← body env
      tracedWhile e test body rounds env
    else return env

/-- Runs a statement, given how to evaluate expressions and run blocks one level below it. -/
def tracedStmt (s : Execution) (rounds : Nat) (eval : Environment → Expr → Traced Value)
    (block : Environment → List Stmt → Traced Environment) (env : Environment) :
    Stmt → Traced (Environment × Value)
  | .load .. | .use .. => pure (env, .null)
  | .define name _ _ _ => pure (env.insert name (.func ⟨name, s.unit.id⟩), .null)
  | .bind name value _ | .assign name value _ => do
    let value ← eval env value
    return (env.insert name value, .null)
  | .branch test onTrue onFalse _ => do
    let value ← eval env test
    match taken value onTrue onFalse with
    | none => return (env, .null)
    | some body => do
      let env ← block env body
      return (env, .null)
  | .loop test body _ => do
    let env ← tracedWhile test (eval · test) (block · body) rounds env
    return (env, .null)
  | .eval expr _ _ => do
    let value ← eval env expr
    return (env, value)

/-- Runs statements one after the other; each one is a step. -/
def tracedAll (run : Environment → Stmt → Traced (Environment × Value)) (last : Value) :
    Environment → List Stmt → Traced (Environment × Value)
  | env, [] => pure (env, last)
  | env, stmt :: rest => do
    .reach (.statement stmt)
    let (env, value) ← run env stmt
    tracedAll run value env rest

/-- Runs a block as `runBlock` does. -/
def tracedBlock (s : Execution) (rounds : Nat) : (room : Nat) → Environment → List Stmt →
    Traced (Environment × Value)
  | 0 => fun _ _ => .quiet tooManyLevels
  | room + 1 =>
    tracedAll
      (s.tracedStmt rounds (fun env => s.tracedEval env room {})
        (fun env body => do return (← s.tracedBlock rounds room env body).1))
      .null

/-- Runs the statements of the unit as `run` does. -/
def tracedRun (s : Execution) (rounds : Nat) (env : Environment) : Traced (Environment × Value) :=
  s.tracedBlock rounds maxOpenLevels env s.unit.program.statements

end Execution

/-! ## True records -/

/-- A computation that leaves the token as it is. -/
def Run.Quiet {α : Type} (x : Run α) : Prop :=
  ∀ world, Ending.token (x world) = world.token

/-- A traced computation tells what a computation does: it ends in the same way, its events obey the
token, and the token at the end is what they make of it. -/
structure Traced.Tells {α : Type} (x : Traced α) (y : Run α) : Prop where
  ending : ∀ world, (x world).2 = y world
  obeys : ∀ world, Obeys world.token (x world).1 (Ending.stop? (y world))
  token : ∀ world, Ending.token (y world) = world.token.after (x world).1

/-! ### Computations without events -/

namespace Run.Quiet

variable {α : Type}

/-- To return leaves the token alone. -/
theorem pure (a : α) : Quiet (Pure.pure a) :=
  fun _ => rfl

/-- To stop leaves the token alone. -/
theorem throw (reason : Stop) : Quiet (MonadExcept.throw reason : Run α) :=
  fun _ => rfl

/-- To fail leaves the token alone. -/
theorem fail (code : ErrorCode) (message : String) : Quiet (Run.fail code message : Run α) :=
  fun _ => rfl

variable {s : Execution}

/-- Members of values leave the token alone. -/
theorem memberOf (object : Value) (property : String) : (s.memberOf object property).Quiet := by
  unfold Execution.memberOf Execution.memberValue
  split
  · split
    · exact fail _ _
    · split
      · exact pure _
      · exact fail _ _
  · split
    · exact pure _
    · exact fail _ _
  · exact fail _ _

/-- Operators leave the token alone. -/
theorem joined (op : BinaryOp) (left right : Value) : (Execution.joined op left right).Quiet := by
  unfold Execution.joined Execution.ofResult
  split
  · exact pure _
  · exact pure _
  · split
    · exact pure _
    · exact throw _

/-- A call that opens no body, of something that is no native function. -/
theorem call {evalBody : Environment → Expr → Run Value} {callee : Value} {args : List Value}
    (closed : s.body? callee args = none) (notNative : ∀ ref, callee ≠ .native ref) :
    (s.call evalBody callee args).Quiet := by
  unfold Execution.call
  split
  · rename_i ref
    split
    · exact fail _ _
    · rename_i decl found
      split
      · rename_i length
        simp [Execution.body?, found, length] at closed
      · exact fail _ _
  · rename_i ref
    exact absurd rfl (notNative ref)
  · exact fail _ _

end Run.Quiet

/-! ### Looks at the token -/

namespace Run

variable {world : World}

/-- A look that finds the token fired. -/
theorem checkpoint_of_fired (fired : world.token.look.1 = true) :
    checkpoint world = .error .cancelled world.resumed := by
  simp [checkpoint, fired, World.resumed]

/-- A look that finds it unfired. -/
theorem checkpoint_of_unfired (unfired : world.token.look.1 = false) :
    checkpoint world = .ok () world.resumed := by
  simp [checkpoint, unfired, World.resumed]

end Run

/-! ### Putting records together -/

namespace Traced

variable {α β : Type} {x : Traced α} {y : Run α} {f : α → Traced β} {g : α → Run β}
  {world ended : World} {events : List Event}

/-- A traced computation that went on after another one. -/
theorem bind_of_ok {a : α} (ran : x world = (events, .ok a ended)) :
    (x >>= f) world = (events ++ (f a ended).1, (f a ended).2) := by
  simp only [Bind.bind, ran]

/-- A traced computation that did not come to go on. -/
theorem bind_of_error {reason : Stop} (ran : x world = (events, .error reason ended)) :
    (x >>= f) world = (events, .error reason ended) := by
  simp only [Bind.bind, ran]

/-- A function of what a computation comes to adds no events. -/
theorem map_of_ok {a : α} {h : α → β} (ran : x world = (events, .ok a ended)) :
    (x >>= fun a => pure (h a)) world = (events, .ok (h a) ended) := by
  rw [bind_of_ok ran]
  exact Prod.ext (List.append_nil events) rfl

/-- The events of a computation are among those of it and what follows. -/
theorem mem_bind_left {event : Event} (member : event ∈ (x world).1) :
    event ∈ ((x >>= f) world).1 := by
  cases ran : x world with
  | mk events ending =>
      rw [ran] at member
      cases ending with
      | ok a ended =>
          rw [bind_of_ok ran]
          exact List.mem_append_left _ member
      | error reason ended =>
          rw [bind_of_error ran]
          exact member

/-- How a computation and what follows it end, given how that ends. -/
theorem snd_bind (ends : ∀ a world, (f a world).2 = g a world) :
    ((x >>= f) world).2 = (x world).2.andThen g := by
  cases ran : x world with
  | mk events ending =>
      cases ending with
      | ok a ended =>
          rw [bind_of_ok ran]
          exact ends a ended
      | error reason ended =>
          rw [bind_of_error ran]
          rfl

/-- A step that is reached with a fired token. -/
theorem reach_of_fired (fired : world.token.look.1 = true) (step : Step) :
    reach step world = ([.reach step false], .error .cancelled world.resumed) := by
  rw [reach, fired, Run.checkpoint_of_fired fired, Bool.not_true]

/-- A step that is reached with an unfired one. -/
theorem reach_of_unfired (unfired : world.token.look.1 = false) (step : Step) :
    reach step world = ([.reach step true], .ok () world.resumed) := by
  rw [reach, unfired, Run.checkpoint_of_unfired unfired, Bool.not_false]

/-- A round that is reached with a fired token. -/
theorem round_of_fired (fired : world.token.look.1 = true) (e : Expr) :
    round e world = ([.reach (.round e) false], .error .cancelled world.resumed) :=
  bind_of_error (reach_of_fired fired _)

/-- A round that is reached with an unfired one. -/
theorem round_of_unfired (unfired : world.token.look.1 = false) (e : Expr) :
    round e world =
      ([.reach (.round e) true, .suspend, .test e], .ok () world.resumed.resumed) :=
  bind_of_ok (reach_of_unfired unfired _)

namespace Tells

/-- A record that is true of every world on its own. -/
theorem of_forall (all : ∀ world, (x world).2 = y world ∧
    Obeys world.token (x world).1 (Ending.stop? (y world)) ∧
    Ending.token (y world) = world.token.after (x world).1) : x.Tells y :=
  ⟨fun world => (all world).1, fun world => (all world).2.1, fun world => (all world).2.2⟩

/-- A computation that leaves the token alone has no events. -/
theorem quiet (isQuiet : y.Quiet) : Tells (.quiet y) y :=
  ⟨fun _ => rfl, fun _ => .done, isQuiet⟩

/-- To return has no events. -/
theorem pure (a : α) : Tells (Pure.pure a) (Pure.pure a) :=
  quiet (.pure a)

/-- One computation after another. -/
theorem bind (first : x.Tells y) (second : ∀ a, (f a).Tells (g a)) :
    Tells (x >>= f) (y >>= g) := by
  refine of_forall fun world => ?_
  have ending := first.ending world
  have obeys := first.obeys world
  have token := first.token world
  -- Either both first computations stop, or both go on from the same world.
  cases ran : y world with
  | error reason ended =>
      rw [ran] at ending obeys token
      rw [bind_of_error (Prod.ext rfl ending), Run.bind_of_error ran]
      exact ⟨rfl, obeys, token⟩
  | ok a ended =>
      rw [ran] at ending obeys token
      have isToken : ended.token = world.token.after (x world).1 := token
      rw [bind_of_ok (Prod.ext rfl ending), Run.bind_of_ok ran, Token.after_append, ← isToken]
      exact ⟨(second a).ending ended, obeys.append (isToken ▸ (second a).obeys ended),
        (second a).token ended⟩

/-- A step that is reached and is no round of a loop. -/
theorem reach {step : Step} (notRound : step.isRound = false) :
    Tells (.reach step) Run.checkpoint := by
  refine of_forall fun world => ?_
  cases isFired : world.token.look.1 with
  | true =>
      rw [reach_of_fired isFired, Run.checkpoint_of_fired isFired]
      exact ⟨rfl, .cancelled isFired, rfl⟩
  | false =>
      rw [reach_of_unfired isFired, Run.checkpoint_of_unfired isFired]
      exact ⟨rfl, .starts isFired notRound .done, rfl⟩

/-- A round of a loop that is reached. -/
theorem round (e : Expr) :
    Tells (.round e) (Run.checkpoint >>= fun _ => Run.suspend) := by
  refine of_forall fun world => ?_
  cases isFired : world.token.look.1 with
  | true =>
      rw [round_of_fired isFired, Run.bind_of_error (Run.checkpoint_of_fired isFired)]
      exact ⟨rfl, .cancelled isFired, rfl⟩
  | false =>
      rw [round_of_unfired isFired, Run.bind_of_ok (Run.checkpoint_of_unfired isFired)]
      exact ⟨rfl, .round isFired .done, rfl⟩

/-- A computation that does no more to the token than to fire it, if it cancels. -/
theorem fires {cancels : Bool}
    (isRecord : ∀ world, x world = (if cancels then [.fire] else [], y world))
    (token : ∀ world, Ending.token (y world) =
      if cancels then world.token.fire else world.token) : x.Tells y := by
  refine of_forall fun world => ?_
  rw [isRecord, token]
  cases cancels with
  | true => exact ⟨rfl, .fire .done, rfl⟩
  | false => exact ⟨rfl, .done, rfl⟩

/-- What a native function does on the way to its reply. -/
theorem note (effect : NativeEffect) : Tells (.note effect) (Run.note effect) := by
  refine fires (fun _ => rfl) fun world => ?_
  unfold Run.note
  cases effect.breaks <;> rfl

/-- A native function that replies. -/
theorem perform (reply : NativeReply) : Tells (.perform reply) (Run.perform reply) := by
  refine fires (fun _ => rfl) fun world => ?_
  unfold Run.perform
  cases reply.result <;> rfl

/-- An awaited call that is polled. -/
theorem poll {step : Step} (notRound : step.isRound = false) (reply : NativeReply)
    (pauses : List NativeEffect) : Tells (.poll step reply pauses) (Run.poll reply pauses) := by
  induction pauses with
  | nil => exact .bind (.reach notRound) fun _ => .perform reply
  | cons effect rest ih => exact .bind (.reach notRound) fun _ => .bind (.note effect) fun _ => ih

/-- The body of a declared function that is opened. -/
theorem opens (ref : FunctionId) (tells : x.Tells y) : Tells (.marked (.opens ref) x) y :=
  ⟨tells.ending, fun world => .opens (tells.obeys world), tells.token⟩

/-- An await that begins: what is awaited is polled, unless it breaks off before. -/
theorem await (target : NativeId) (args : List Value) (tells : x.Tells y)
    (polls : ∀ world, Ending.stop? (y world) = some .broken ∨
      ∃ step starts, .reach step starts ∈ (x world).1) :
    Tells (.marked (.await target args) x) y :=
  ⟨tells.ending, fun world => .await (tells.obeys world) (polls world), tells.token⟩

end Tells

end Traced

/-! ## The traced run -/

namespace Execution

open Traced (Tells)

variable {s : Execution} {env : Environment}

/-- Calls of native functions. -/
theorem tracedNative_tells (ref : NativeId) (args : List Value) :
    (s.tracedNative ref args).Tells (s.callNative ref args) := by
  unfold tracedNative callNative
  cases s.native? ref with
  | none => exact .quiet (.fail _ _)
  | some f =>
      cases isAsync : f.isAsync with
      | true => simpa only [isAsync] using .quiet (.pure _)
      | false => simpa only [isAsync] using .perform _

/-- A call that opens no body. -/
theorem tracedCall_tells_of_closed {callee : Value} {args : List Value}
    (closed : s.body? callee args = none) (eval : Environment → Expr → Traced Value) :
    (s.tracedCall eval callee args).Tells (s.call (fun _ _ => tooManyLevels) callee args) := by
  cases callee with
  | func ref =>
      simp only [tracedCall, closed]
      exact .quiet (.call closed fun _ => by simp)
  | native ref => exact tracedNative_tells ref args
  | _ => exact .quiet (.call closed fun _ => by simp)

/-- Calls, if the evaluation of bodies is told. -/
theorem tracedCall_tells {eval : Environment → Expr → Traced Value}
    {eval' : Environment → Expr → Run Value}
    (evals : ∀ locals e, (eval locals e).Tells (eval' locals e)) (callee : Value)
    (args : List Value) : (s.tracedCall eval callee args).Tells (s.call eval' callee args) := by
  cases opens : s.body? callee args with
  | none =>
      rw [call_of_body?_none opens eval' fun _ _ => tooManyLevels]
      exact tracedCall_tells_of_closed opens eval
  | some bound =>
      cases callee with
      | func ref =>
          rw [call_of_body?_some opens]
          simp only [tracedCall, opens]
          exact .opens ref (evals bound.1 bound.2)
      | _ => cases opens

/-- An awaited call is polled, unless it breaks off as soon as it starts. -/
theorem polled_or_broken (step : Step) (effect : NativeEffect) (reply : NativeReply)
    (pauses : List NativeEffect) (world : World) :
    Ending.stop? ((Run.note effect >>= fun _ => Run.poll reply pauses) world) = some .broken ∨
      ∃ reached starts, .reach reached starts ∈
        ((Traced.note effect >>= fun _ => .poll step reply pauses) world).1 := by
  -- The first poll looks at the token before anything else.
  have looks : ∀ world, ∃ starts, .reach step starts ∈ (Traced.poll step reply pauses world).1 := by
    intro world
    cases pauses with
    | nil | cons =>
        refine ⟨!world.token.look.1, ?_⟩
        exact Traced.mem_bind_left List.mem_cons_self
  cases ran : Run.note effect world with
  | error reason ended =>
      rw [Run.bind_of_error ran]
      cases breaks : effect.breaks with
      | true =>
          simp only [Run.note, breaks, if_true] at ran
          cases ran
          exact .inl rfl
      | false => simp [Run.note, breaks] at ran
  | ok _ ended =>
      obtain ⟨starts, member⟩ := looks ended
      refine .inr ⟨step, starts, ?_⟩
      rw [Traced.bind_of_ok (x := .note effect) (Prod.ext rfl ran)]
      exact List.mem_append_right _ member

/-- Prefix operators, awaiting among them. -/
theorem tracedUnary_tells (op : UnaryOp) (v : Value) :
    (s.tracedUnary op v).Tells (s.applyUnary op v) := by
  unfold tracedUnary
  split
  · rename_i target args
    simp only [applyUnary, await]
    cases (s.native? target).filter (·.isAsync) with
    | none => exact .quiet (.fail _ _)
    | some f =>
        refine .await target args (.bind (.note _) fun _ => .poll rfl _ _) fun world => ?_
        exact polled_or_broken _ _ _ _ world
  · rename_i notAwaited
    refine .quiet ?_
    unfold applyUnary
    split
    · exact .pure _
    · exact .fail _ _
    · exact .pure _
    · unfold await
      split
      · exact absurd rfl (notAwaited _ _ rfl)
      · exact .pure _

/-- Expressions from left to right. -/
theorem tracedItems_tells {eval : Expr → Traced Value} {eval' : Expr → Run Value}
    (evals : ∀ e, (eval e).Tells (eval' e)) (items : List Expr) :
    (tracedItems eval items).Tells (evalItems eval' items) := by
  induction items with
  | nil => exact .pure []
  | cons e rest ih => exact .bind (evals e) fun _ => .bind ih fun _ => .pure _

/-- An expression, if those one level below it are told. -/
theorem tracedStep_tells {eval : Environment → Expr → Traced Value}
    {eval' : Environment → Expr → Run Value}
    (evals : ∀ locals e, (eval locals e).Tells (eval' locals e)) (locals : Environment) (e : Expr) :
    (s.tracedStep env eval locals e).Tells (s.evalStep env eval' locals e) := by
  have items := tracedItems_tells (evals locals)
  cases e with
  | num | str | bool | null => exact .quiet (.pure _)
  | ident name =>
      refine .quiet ?_
      simp only [evalStep]
      split
      · exact .pure _
      · exact .fail _ _
  | list es => exact .bind (items es) fun _ => .pure _
  | member object property =>
      exact .bind (evals locals object) fun v => .quiet (.memberOf v property)
  | call callee args =>
      exact .bind (evals locals callee) fun f => .bind (items args) fun vs =>
        tracedCall_tells evals f vs
  | unary op operand => exact .bind (evals locals operand) fun v => tracedUnary_tells op v
  | binary op left right =>
      rw [evalStep_binary]
      refine .bind (evals locals left) fun l => ?_
      cases op.decided? l with
      | some truth => exact .pure _
      | none => exact .bind (evals locals right) fun r => .quiet (.joined op l r)

/-- Expressions, at every number of levels. -/
theorem tracedEval_tells (room : Nat) (locals : Environment) (e : Expr) :
    (s.tracedEval env room locals e).Tells (s.eval env room locals e) := by
  induction room generalizing locals e with
  | zero => exact .quiet (.fail _ _)
  | succ room ih => exact tracedStep_tells ih locals e

/-- Loops, if their test and their body are told. -/
theorem tracedWhile_tells (e : Expr) {test : Environment → Traced Value}
    {test' : Environment → Run Value} {body : Environment → Traced Environment}
    {body' : Environment → Run Environment} (tests : ∀ env, (test env).Tells (test' env))
    (bodies : ∀ env, (body env).Tells (body' env)) (rounds : Nat) (env : Environment) :
    (tracedWhile e test body rounds env).Tells (repeatWhile test' body' rounds env) := by
  induction rounds generalizing env with
  | zero => exact .quiet (.throw _)
  | succ rounds ih =>
      have isRound : repeatWhile test' body' (rounds + 1) env =
          (Run.checkpoint >>= fun _ => Run.suspend) >>= fun _ => test' env >>= fun v =>
            if v.isTruthy then body' env >>= repeatWhile test' body' rounds else pure env := by
        rw [bind_assoc]
        rfl
      rw [isRound]
      refine .bind (.round e) fun _ => .bind (tests env) fun v => ?_
      cases v.isTruthy with
      | true => exact .bind (bodies env) ih
      | false => exact .pure env

/-- A statement, if what is one level below it is told. -/
theorem tracedStmt_tells (rounds : Nat) {eval : Environment → Expr → Traced Value}
    {eval' : Environment → Expr → Run Value}
    {block : Environment → List Stmt → Traced Environment}
    {block' : Environment → List Stmt → Run Environment}
    (evals : ∀ env e, (eval env e).Tells (eval' env e))
    (blocks : ∀ env body, (block env body).Tells (block' env body)) (env : Environment)
    (stmt : Stmt) :
    (s.tracedStmt rounds eval block env stmt).Tells (s.execStep rounds eval' block' env stmt) := by
  cases stmt with
  | load | use | define => exact .pure _
  | bind _ value | assign _ value | eval value => exact .bind (evals env value) fun _ => .pure _
  | branch test onTrue onFalse =>
      rw [execStep_branch]
      refine .bind (evals env test) fun v => ?_
      cases taken v onTrue onFalse with
      | none => exact .pure _
      | some body => exact .bind (blocks env body) fun _ => .pure _
  | loop test body =>
      have rounds := tracedWhile_tells test (evals · test) (blocks · body) rounds env
      exact .bind rounds fun _ => .pure _

/-- Statements one after the other. -/
theorem tracedAll_tells {run : Environment → Stmt → Traced (Environment × Value)}
    {run' : Environment → Stmt → Run (Environment × Value)}
    (runs : ∀ env stmt, (run env stmt).Tells (run' env stmt)) (last : Value) (env : Environment)
    (stmts : List Stmt) : (tracedAll run last env stmts).Tells (execAll run' last env stmts) := by
  induction stmts generalizing last env with
  | nil => exact .pure _
  | cons stmt rest ih =>
      exact .bind (.reach rfl) fun _ => .bind (runs env stmt) fun after => ih _ _

/-- Blocks, at every number of levels. -/
theorem tracedBlock_tells (rounds room : Nat) (env : Environment) (stmts : List Stmt) :
    (s.tracedBlock rounds room env stmts).Tells (s.runBlock rounds room env stmts) := by
  induction room generalizing env stmts with
  | zero => exact .quiet (.fail _ _)
  | succ room ih =>
      refine tracedAll_tells (tracedStmt_tells rounds ?_ ?_) .null env stmts
      · exact fun env e => tracedEval_tells room {} e
      · exact fun env body => .bind (ih env body) fun _ => .pure _

/-- **The record of a run is true.** -/
theorem tracedRun_tells (s : Execution) (rounds : Nat) (env : Environment) :
    (s.tracedRun rounds env).Tells (s.run rounds env) :=
  tracedBlock_tells rounds maxOpenLevels env s.unit.program.statements

end Execution

end ScriptShell
