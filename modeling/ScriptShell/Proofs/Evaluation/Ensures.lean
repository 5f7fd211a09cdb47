import ScriptShell.Evaluation.Exec

/-! # What a computation ensures

`Run.Ensures x value stop` says of a computation, in whatever world it starts: if it ends, its
result has the property `value`, and if it stops before, the reason has the property `stop`. The
rules below follow the ways in which computations are put together, so that a property of evaluation
is proved along the evaluated syntax and no proof looks at worlds. -/

namespace ScriptShell

namespace Run

variable {α β : Type}

section Sequences

variable {x : Run α} {next : α → Run β} {world ended : World}

/-- A computation that went on after another one. -/
theorem bind_of_ok {a : α} (ok : x world = .ok a ended) : (x >>= next) world = next a ended := by
  simp only [Bind.bind, EStateM.bind, ok]

/-- A computation that did not come to go on. -/
theorem bind_of_error {stop : Stop} (error : x world = .error stop ended) :
    (x >>= next) world = .error stop ended := by
  simp only [Bind.bind, EStateM.bind, error]

end Sequences

/-- In every world: what ends has the one property, what stops has the other. -/
def Ensures (x : Run α) (value : α → Prop) (stop : Stop → Prop) : Prop :=
  ∀ world, match x world with
    | .ok a _ => value a
    | .error reason _ => stop reason

namespace Ensures

variable {x : Run α} {f : α → Run β} {value other : α → Prop} {next : β → Prop}
  {stop reason : Stop → Prop}

/-- What holds of a result that a computation came to. -/
theorem of_ok (ensures : x.Ensures value stop) {world ended : World} {a : α}
    (ok : x world = .ok a ended) : value a := by
  have holds := ensures world
  rwa [ok] at holds

/-- What holds of the reason for which a computation stopped. -/
theorem of_error (ensures : x.Ensures value stop) {world ended : World} {e : Stop}
    (error : x world = .error e ended) : stop e := by
  have holds := ensures world
  rwa [error] at holds

/-- A computation that only returns. -/
theorem pure {a : α} (holds : value a) : Ensures (Pure.pure a) value stop :=
  fun _ => holds

/-- A computation that only stops. -/
theorem throw {e : Stop} (holds : stop e) : Ensures (MonadExcept.throw e : Run α) value stop :=
  fun _ => holds

/-- A computation that only fails. -/
theorem fail {code : ErrorCode} {message : String} (holds : stop (.failed ⟨code, message, []⟩)) :
    Ensures (Run.fail code message : Run α) value stop :=
  fun _ => holds

/-- One computation after another. -/
theorem bind (first : x.Ensures value stop) (second : ∀ a, value a → (f a).Ensures next stop) :
    Ensures (x >>= f) next stop := by
  intro world
  have holds := first world
  -- Either the first computation stops, and so does the whole, or the second one starts where it
  -- ended.
  cases ran : x world with
  | ok a ended =>
      rw [ran] at holds
      rw [bind_of_ok ran]
      exact second a holds ended
  | error e ended =>
      rw [ran] at holds
      rw [bind_of_error ran]
      exact holds

/-- Weaker properties. -/
theorem mono (ensures : x.Ensures value stop) (value_imp : ∀ a, value a → other a)
    (stop_imp : ∀ e, stop e → reason e) : x.Ensures other reason := by
  intro world
  have holds := ensures world
  cases ran : x world with
  | ok a ended =>
      rw [ran] at holds
      exact value_imp a holds
  | error e ended =>
      rw [ran] at holds
      exact stop_imp e holds

/-- A weaker property of the result. -/
theorem value_mono (ensures : x.Ensures value stop) (value_imp : ∀ a, value a → other a) :
    x.Ensures other stop :=
  ensures.mono value_imp fun _ holds => holds

/-- A weaker property of the reason to stop. -/
theorem stop_mono (ensures : x.Ensures value stop) (stop_imp : ∀ e, stop e → reason e) :
    x.Ensures value reason :=
  ensures.mono (fun _ holds => holds) stop_imp

/-- Two things that a computation ensures of its result. -/
theorem and (first : x.Ensures value stop) (second : x.Ensures other fun _ => True) :
    x.Ensures (fun a => value a ∧ other a) stop := by
  intro world
  have holds := first world
  have holds' := second world
  cases ran : x world with
  | ok a ended =>
      rw [ran] at holds holds'
      exact ⟨holds, holds'⟩
  | error e ended =>
      rw [ran] at holds
      exact holds

/-- A look at the token only stops by cancelling. -/
theorem checkpoint (holds : stop .cancelled) :
    Run.checkpoint.Ensures (fun _ => True) stop := by
  intro world
  unfold Run.checkpoint
  dsimp only
  split
  · rename_i ran
    trivial
  · rename_i e ended ran
    -- A look that stops found the token fired.
    split at ran
    · cases ran
      exact holds
    · cases ran

/-- To let others go on stops nothing. -/
theorem suspend : Run.suspend.Ensures (fun _ => True) stop :=
  fun _ => trivial

/-- What a native function does on the way to its reply only stops by breaking off. -/
theorem note (effect : NativeEffect) (breaks : stop .broken) :
    (Run.note effect).Ensures (fun _ => True) stop := by
  intro world
  unfold Run.note
  cases effect.breaks with
  | true => exact breaks
  | false => trivial

/-- A native function's reply: its value, its error, or that the run breaks off. -/
theorem perform {reply : NativeReply} {value : Value → Prop}
    (returns : ∀ v, reply.result = .value v → value v)
    (fails : ∀ e, reply.result = .failure e → stop (.failed e)) (breaks : stop .broken) :
    (Run.perform reply).Ensures value stop := by
  intro world
  unfold Run.perform
  dsimp only
  cases result : reply.result with
  | value v => exact returns v result
  | failure e => exact fails e result
  | breakdown => exact breaks

/-- An awaited call comes to what its reply does, unless it is cancelled or breaks off before. -/
theorem poll {reply : NativeReply} {value : Value → Prop}
    (replies : (Run.perform reply).Ensures value stop) (cancelled : stop .cancelled)
    (breaks : stop .broken) (pauses : List NativeEffect) :
    (Run.poll reply pauses).Ensures value stop := by
  induction pauses with
  | nil => exact .bind (.checkpoint cancelled) fun _ _ => replies
  | cons effect rest ih =>
      exact .bind (.checkpoint cancelled) fun _ _ => .bind (.note effect breaks) fun _ _ => ih

end Ensures

end Run

/-! ## Operators -/

/-- An operator fails only for its operands, or because of a division by zero. -/
theorem BinaryOp.code_of_apply {op : BinaryOp} {left right : Value} {e : RunError}
    (failed : op.apply left right = .error e) : e.code = .typeError ∨ e.code = .divisionByZero := by
  have numbers : ∀ {x y}, op.onNumbers x y = .error e →
      e.code = .typeError ∨ e.code = .divisionByZero := by
    intro x y failed
    unfold onNumbers at failed
    split at failed
    -- Division and remainder look at the divisor; the connectives do not apply to numbers.
    case h_4 | h_5 =>
      split at failed
      · cases failed
        exact .inr rfl
      · cases failed
    case h_10 =>
      cases failed
      exact .inl rfl
    all_goals cases failed
  have strings : ∀ {x y}, op.onStrings x y = .error e → e.code = .typeError := by
    intro x y failed
    unfold onStrings at failed
    split at failed
    case h_6 =>
      cases failed
      rfl
    all_goals cases failed
  unfold apply at failed
  split at failed
  -- Only two numbers, two texts and the pairs left over can fail.
  case h_3 => exact numbers failed
  case h_5 => exact .inl (strings failed)
  case h_8 =>
    cases failed
    exact .inl rfl
  all_goals cases failed

namespace Execution

/-- A result that was taken up. -/
theorem ofResult_ensures {x : Except RunError Value} {value : Value → Prop} {stop : Stop → Prop}
    (ok : ∀ v, x = .ok v → value v) (error : ∀ e, x = .error e → stop (.failed e)) :
    (ofResult x).Ensures value stop := by
  cases x with
  | ok v => exact .pure (ok v rfl)
  | error e => exact .throw (error e rfl)

end Execution

/-! ## Repeated computations -/

namespace Execution

/-- What holds of every item's value holds of all values, and there is one for each item. -/
theorem evalItems_ensures {eval : Expr → Run Value} {value : Value → Prop} {stop : Stop → Prop}
    (items : List Expr) (each : ∀ e ∈ items, (eval e).Ensures value stop) :
    (evalItems eval items).Ensures
      (fun values => values.length = items.length ∧ ∀ v ∈ values, value v) stop := by
  induction items with
  | nil => exact .pure ⟨rfl, by simp⟩
  | cons e rest ih =>
      refine .bind (each e (by simp)) fun v holds => ?_
      refine .bind (ih fun e' member => each e' (by simp [member])) fun values all => ?_
      refine .pure ⟨by simp [all.1], ?_⟩
      simp only [List.mem_cons, forall_eq_or_imp]
      exact ⟨holds, all.2⟩

/-- An invariant that the body of a loop keeps is kept by the loop. -/
theorem repeatWhile_ensures {test : Environment → Run Value} {body : Environment → Run Environment}
    {keeps : Environment → Prop} {stop : Stop → Prop} (rounds : Nat) (env : Environment)
    (unfinished : stop .unfinished) (cancelled : stop .cancelled)
    (tests : ∀ env, keeps env → (test env).Ensures (fun _ => True) stop)
    (bodies : ∀ env, keeps env → (body env).Ensures keeps stop) (holds : keeps env) :
    (repeatWhile test body rounds env).Ensures keeps stop := by
  induction rounds generalizing env with
  -- No more rounds: the loop is given up, which is a reason of its own to stop.
  | zero => exact .throw unfinished
  | succ rounds ih =>
      refine .bind (.checkpoint cancelled) fun _ _ => .bind .suspend fun _ _ => ?_
      refine .bind (tests env holds) fun v _ => ?_
      split
      · exact .bind (bodies env holds) fun env' holds' => ih env' holds'
      · exact .pure holds

/-- What every statement keeps is kept by statements one after the other. -/
theorem execAll_ensures {step : Environment → Stmt → Run (Environment × Value)}
    {keeps : Environment → Prop} {fine : Value → Prop} {stop : Stop → Prop} (stmts : List Stmt)
    (cancelled : stop .cancelled)
    (each : ∀ stmt ∈ stmts, ∀ env, keeps env →
      (step env stmt).Ensures (fun r => keeps r.1 ∧ fine r.2) stop)
    {env : Environment} (env_keeps : keeps env) {last : Value} (last_fine : fine last) :
    (execAll step last env stmts).Ensures (fun r => keeps r.1 ∧ fine r.2) stop := by
  induction stmts generalizing env last with
  | nil => exact .pure ⟨env_keeps, last_fine⟩
  | cons stmt rest ih =>
      refine .bind (.checkpoint cancelled) fun _ _ => ?_
      refine .bind (each stmt (by simp) env env_keeps) fun r holds => ?_
      exact ih (fun stmt member => each stmt (by simp [member])) holds.1 holds.2

end Execution

end ScriptShell
