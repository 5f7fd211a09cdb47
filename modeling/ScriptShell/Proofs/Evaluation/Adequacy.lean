import ScriptShell.Proofs.Evaluation.Trace
import ScriptShell.Proofs.Syntax.Parts

/-! # Evaluation by rules and by recursion

The rules of evaluation and the functions that compute it say the same:

* **`evaluates_tracedEval`** and **`runs_tracedRun`**: what `eval` and `run` compute is derived,
  unless the run gave up on a loop, by calling the declared functions that the record of the run
  tells of and no others. So for a block without loops there is a derivation, whatever functions its
  expressions call.
* **`Evaluates.eq_eval`** and **`Runs.eq_runBlock`**: where no loop stands in the way, nothing else
  is derived, whatever bound the run has for loops. -/

namespace ScriptShell

/-! ## What is computed is derived -/

/-- The bodies that are opened in some events are those of allowed functions. -/
def OpensOnly (allowed : FunctionId → Prop) (events : List Event) : Prop :=
  ∀ ref, .opens ref ∈ events → allowed ref

namespace OpensOnly

variable {allowed : FunctionId → Prop} {first second : List Event}

/-- Of two rows of events, the second. -/
theorem right (opens : OpensOnly allowed (first ++ second)) : OpensOnly allowed second :=
  fun ref member => opens ref (List.mem_append_right _ member)

/-- The events of a first computation, given those of it and what follows. -/
theorem of_bind {α β : Type} {x : Traced α} {f : α → Traced β} {world : World}
    (opens : OpensOnly allowed ((x >>= f) world).1) : OpensOnly allowed (x world).1 :=
  fun ref member => opens ref (Traced.mem_bind_left member)

end OpensOnly

namespace Execution

variable {s : Execution} {allowed : FunctionId → Prop} {env locals : Environment} {opened : Nat}

/-- Expressions from left to right, if each of them is derived. -/
theorem evaluatesAll_tracedItems {eval : Expr → Traced Value}
    (each : ∀ e world, OpensOnly allowed (eval e world).1 →
      s.Evaluates allowed opened env locals e world (eval e world).2)
    (items : List Expr) (world : World)
    (opens : OpensOnly allowed (tracedItems eval items world).1) :
    s.EvaluatesAll allowed opened env locals items world (tracedItems eval items world).2 := by
  induction items generalizing world with
  | nil => exact .nil
  | cons e rest ih =>
      have first := each e world (OpensOnly.of_bind opens)
      rw [tracedItems] at opens ⊢
      rcases ran : eval e world with ⟨events, ⟨value, middle⟩ | ⟨stop, ended⟩⟩
      · rw [ran] at first
        rw [Traced.bind_of_ok ran] at opens ⊢
        dsimp only
        rw [Traced.snd_bind fun _ _ => rfl]
        exact .cons first (ih middle opens.right.of_bind)
      · rw [ran] at first
        rw [Traced.bind_of_error ran]
        exact .stops first

/-- One level: what `tracedStep` makes of derived endings is derived. -/
theorem computes_tracedStep {eval : Environment → Expr → Traced Value}
    (evals : ∀ locals e world, OpensOnly allowed (eval locals e world).1 →
      s.Evaluates allowed opened env locals e world (eval locals e world).2)
    (locals : Environment) (e : Expr) (world : World)
    (opens : OpensOnly allowed (s.tracedStep env eval locals e world).1) :
    s.Computes allowed opened env locals e world (s.tracedStep env eval locals e world).2 := by
  cases e with
  | num => exact .num
  | str => exact .str
  | bool => exact .bool
  | null => exact .null
  | list items =>
      rw [tracedStep] at opens ⊢
      rw [Traced.snd_bind fun _ _ => rfl]
      exact .list (evaluatesAll_tracedItems (evals locals) items world opens.of_bind)
  | ident name =>
      cases found : s.lookup? env locals name with
      | some value => simpa only [tracedStep, Traced.quiet, evalStep, found] using .ident found
      | none => simpa only [tracedStep, Traced.quiet, evalStep, found] using .unbound found
  | member object property =>
      rw [tracedStep] at opens ⊢
      rw [Traced.snd_bind fun _ _ => rfl]
      exact .member (evals locals object world opens.of_bind)
  | unary op operand =>
      rw [tracedStep] at opens ⊢
      rw [Traced.snd_bind fun v => (tracedUnary_tells op v).ending]
      exact .unary (evals locals operand world opens.of_bind)
  | binary op left right span =>
      rw [tracedStep] at opens ⊢
      have first := evals locals left world opens.of_bind
      rcases ran : eval locals left world with ⟨events, ⟨l, middle⟩ | ⟨stop, ended⟩⟩
      · rw [ran] at first
        rw [Traced.bind_of_ok ran] at opens ⊢
        cases decides : op.decided? l with
        | some truth => exact .decided first decides
        | none =>
            simp only [decides] at opens ⊢
            rw [Traced.snd_bind fun _ _ => rfl]
            exact .binary first decides (evals locals right middle opens.right.of_bind)
      · rw [ran] at first
        rw [Traced.bind_of_error ran]
        exact .leftStops first
  | call callee args span =>
      rw [tracedStep] at opens ⊢
      have first := evals locals callee world opens.of_bind
      rcases ran : eval locals callee world with ⟨events, ⟨f, middle⟩ | ⟨stop, ended⟩⟩
      · rw [ran] at first
        rw [Traced.bind_of_ok ran] at opens ⊢
        have items := evaluatesAll_tracedItems (evals locals) args middle opens.right.of_bind
        rcases given : tracedItems (eval locals) args middle with
          ⟨further, ⟨values, later⟩ | ⟨stop, ended⟩⟩
        · rw [given] at items
          rw [Traced.bind_of_ok given] at opens ⊢
          cases bound : s.body? f values with
          | none =>
              rw [(tracedCall_tells_of_closed bound eval).ending]
              exact .call first items bound
          | some inside =>
              cases f with
              | func ref =>
                  simp only [tracedCall, bound, Traced.marked] at opens ⊢
                  have isAllowed := opens.right.right ref List.mem_cons_self
                  have body := evals inside.1 inside.2 later fun ref member =>
                    opens.right.right ref (List.mem_cons_of_mem _ member)
                  exact .body first items bound isAllowed body
              | _ => cases bound
        · rw [given] at items
          rw [Traced.bind_of_error given]
          exact .argsStop first items
      · rw [ran] at first
        rw [Traced.bind_of_error ran]
        exact .calleeStops first

/-- **What evaluation computes is derived**, with the calls that it makes. -/
theorem evaluates_tracedEval {room : Nat} (levels : opened + room = maxOpenLevels)
    (locals : Environment) (e : Expr) (world : World)
    (opens : OpensOnly allowed (s.tracedEval env room locals e world).1) :
    s.Evaluates allowed opened env locals e world (s.tracedEval env room locals e world).2 := by
  induction room generalizing opened locals e world with
  | zero => exact .tooDeep (by omega)
  | succ room ih =>
      exact .opens (by omega) (computes_tracedStep (ih (by omega)) locals e world opens)

/-- With every call allowed, whatever evaluation computes is derived. -/
theorem evaluates_eval (s : Execution) {room : Nat} (levels : opened + room = maxOpenLevels)
    (env locals : Environment) (e : Expr) (world : World) :
    s.Evaluates (fun _ => True) opened env locals e world (s.eval env room locals e world) := by
  rw [← (tracedEval_tells room locals e).ending]
  exact evaluates_tracedEval levels locals e world fun _ _ => trivial

end Execution

/-- The computation did not give up on a loop. -/
def Ending.Finished {α : Type} (ending : Ending α) : Prop :=
  ∀ ended, ending ≠ .error .unfinished ended

/-- A first computation, given that what follows it did not give up. -/
theorem Ending.Finished.of_andThen {α β : Type} {ending : Ending α} {next : α → Run β}
    (finished : (ending.andThen next).Finished) : ending.Finished := by
  rintro ended rfl
  exact finished ended rfl

/-- A first computation, given that it and what follows did not. -/
theorem Ending.Finished.of_bind {α β : Type} {x : Traced α} {f : α → Traced β} {world : World}
    (finished : Ending.Finished ((x >>= f) world).2) : Ending.Finished (x world).2 := by
  intro ended gaveUp
  refine finished ended ?_
  rw [Traced.bind_of_error (Prod.ext rfl gaveUp)]

namespace Stmt

/-- Whether a statement is a loop. -/
def isLoop : Stmt → Bool
  | .loop .. => true
  | _ => false

/-- A loop stands somewhere in some statements. -/
def Loops (stmts : List Stmt) : Prop :=
  ∃ part ∈ partsAll stmts, part.isLoop = true

instance (stmts : List Stmt) : Decidable (Loops stmts) :=
  inferInstanceAs (Decidable (∃ part ∈ partsAll stmts, part.isLoop = true))

/-- A loop stands in the first statement or in the others. -/
theorem loops_cons {stmt : Stmt} {rest : List Stmt} :
    Loops (stmt :: rest) ↔ Loops [stmt] ∨ Loops rest := by
  have split : partsAll (stmt :: rest) = partsAll [stmt] ++ partsAll rest :=
    partsAll_append [stmt] rest
  simp only [Loops, split, List.mem_append, or_and_right, exists_or]

end Stmt

namespace Execution

variable {s : Execution} {allowed : FunctionId → Prop} {env : Environment} {opened : Nat}

/-- A loop that was not given up, from what its test and its body come to. -/
theorem repeats_tracedWhile {test : Expr} {body : List Stmt} {eval : Environment → Traced Value}
    {run : Environment → Traced (Environment × Value)}
    (tests : ∀ env world, OpensOnly allowed (eval env world).1 →
      s.Evaluates allowed opened env {} test world (eval env world).2)
    (bodies : ∀ env world, OpensOnly allowed (run env world).1 →
      Ending.Finished (run env world).2 → s.Runs allowed opened env body world (run env world).2)
    (rounds : Nat) (env : Environment) (world : World)
    (opens : OpensOnly allowed
      (tracedWhile test eval (fun env => do return (← run env).1) rounds env world).1)
    (finished : Ending.Finished
      (tracedWhile test eval (fun env => do return (← run env).1) rounds env world).2) :
    s.Repeats allowed opened test body env world
      (tracedWhile test eval (fun env => do return (← run env).1) rounds env world).2 := by
  induction rounds generalizing env world with
  | zero => exact absurd rfl (finished world)
  | succ rounds ih =>
      rw [tracedWhile] at opens finished ⊢
      cases isFired : world.token.look.1 with
      | true =>
          rw [Traced.bind_of_error (Traced.round_of_fired isFired test)]
          exact .cancelled (Run.checkpoint_of_fired isFired)
      | false =>
          have looks := Run.checkpoint_of_unfired isFired
          rw [Traced.bind_of_ok (Traced.round_of_unfired isFired test)] at opens finished ⊢
          have first := tests env world.resumed.resumed opens.right.of_bind
          rcases ran : eval env world.resumed.resumed with ⟨events, ⟨v, middle⟩ | ⟨stop, ended⟩⟩
          · rw [ran] at first
            rw [Traced.bind_of_ok ran] at opens finished ⊢
            cases truth : v.isTruthy with
            | false =>
                simp only [truth] at opens finished ⊢
                exact .ends looks first truth
            | true =>
                simp only [truth, if_true] at opens finished ⊢
                have opens := opens.right.right
                have inside := bodies env middle opens.of_bind.of_bind finished.of_bind.of_bind
                rcases went : run env middle with ⟨others, ⟨r, later⟩ | ⟨stop, ended⟩⟩
                · rw [went] at inside
                  rw [Traced.bind_of_ok (Traced.map_of_ok (h := Prod.fst) went)] at opens finished ⊢
                  exact .again looks first truth inside (ih r.1 later opens.right finished)
                · rw [went] at inside
                  rw [Traced.bind_of_error (Traced.bind_of_error went)]
                  exact .bodyStops looks first truth inside
          · rw [ran] at first
            rw [Traced.bind_of_error ran]
            exact .testStops looks first

/-- The block that a branch takes is one of its own. -/
theorem mem_inner_of_taken (test : Expr) (span : Span) {v : Value} {onTrue body : List Stmt}
    {onFalse : Option (List Stmt)} (isTaken : taken v onTrue onFalse = some body) :
    ∀ part ∈ Stmt.partsAll body, part ∈ (Stmt.branch test onTrue onFalse span).inner := by
  intro part member
  unfold taken at isTaken
  split at isTaken
  · cases isTaken
    cases onFalse with
    | none => exact member
    | some => exact List.mem_append_left _ member
  · cases isTaken
    exact List.mem_append_right _ member

/-- A loop in the block that a branch takes is in the branch. -/
theorem loops_of_taken {v : Value} {test : Expr} {onTrue body : List Stmt}
    {onFalse : Option (List Stmt)} {span : Span} (isTaken : taken v onTrue onFalse = some body)
    (loops : Stmt.Loops body) : Stmt.Loops [.branch test onTrue onFalse span] := by
  obtain ⟨part, member, isLoop⟩ := loops
  have inside := mem_inner_of_taken test span isTaken part member
  exact ⟨part, by simp [Stmt.partsAll, inside], isLoop⟩

/-- One statement, from what its expression and its blocks come to. -/
theorem executes_tracedStmt {rounds : Nat} {stmt : Stmt}
    {eval : Environment → Expr → Traced Value}
    {run : Environment → List Stmt → Traced (Environment × Value)}
    (evals : ∀ env e world, OpensOnly allowed (eval env e world).1 →
      s.Evaluates allowed opened env {} e world (eval env e world).2)
    (blocks : ∀ env body world, OpensOnly allowed (run env body world).1 →
      (Stmt.Loops body → Ending.Finished (run env body world).2) →
      s.Runs allowed opened env body world (run env body world).2)
    (env : Environment) (world : World)
    (opens : OpensOnly allowed
      (s.tracedStmt rounds eval (fun env body => do return (← run env body).1) env stmt world).1)
    (finished : Stmt.Loops [stmt] → Ending.Finished
      (s.tracedStmt rounds eval (fun env body => do return (← run env body).1) env stmt world).2) :
    s.Executes allowed opened env stmt world (s.tracedStmt rounds eval
      (fun env body => do return (← run env body).1) env stmt world).2 := by
  cases stmt with
  | load => exact .load
  | use => exact .use
  | define => exact .define
  | bind name value =>
      rw [tracedStmt] at opens ⊢
      rw [Traced.snd_bind fun _ _ => rfl]
      exact .bind (evals env value world opens.of_bind)
  | assign name value =>
      rw [tracedStmt] at opens ⊢
      rw [Traced.snd_bind fun _ _ => rfl]
      exact .assign (evals env value world opens.of_bind)
  | eval e =>
      rw [tracedStmt] at opens ⊢
      rw [Traced.snd_bind fun _ _ => rfl]
      exact .eval (evals env e world opens.of_bind)
  | loop test body span =>
      have loops : Stmt.Loops [.loop test body span] := ⟨_, List.mem_cons_self, rfl⟩
      have finished := finished loops
      rw [tracedStmt] at opens finished ⊢
      rw [Traced.snd_bind fun _ _ => rfl] at finished ⊢
      refine .loop (repeats_tracedWhile (evals · test) (fun env world opens finished => ?_) rounds
        env world opens.of_bind finished.of_andThen)
      exact blocks env body world opens fun _ => finished
  | branch test onTrue onFalse span =>
      rw [tracedStmt] at opens finished ⊢
      have first := evals env test world opens.of_bind
      rcases ran : eval env test world with ⟨events, ⟨v, middle⟩ | ⟨stop, ended⟩⟩
      · rw [ran] at first
        rw [Traced.bind_of_ok ran] at opens finished ⊢
        cases isTaken : taken v onTrue onFalse with
        | none => exact .passed first isTaken
        | some body =>
            simp only [isTaken] at opens finished ⊢
            have inside := blocks env body middle opens.right.of_bind.of_bind fun loops =>
              (finished (loops_of_taken isTaken loops)).of_bind.of_bind
            rw [Traced.snd_bind fun _ _ => rfl, Traced.snd_bind fun _ _ => rfl]
            have both : ∀ ending : Ending (Environment × Value),
                (ending.andThen fun r => pure r.1).andThen (fun after => pure (after, Value.null)) =
                  ending.andThen fun r => pure (r.1, .null) := by
              intro ending
              cases ending <;> rfl
            exact both _ ▸ .branch first isTaken inside
      · rw [ran] at first
        rw [Traced.bind_of_error ran]
        exact .testStops first

/-- Statements one after the other, from what each of them comes to. -/
theorem executesAll_tracedAll {step : Environment → Stmt → Traced (Environment × Value)}
    (each : ∀ stmt env world, OpensOnly allowed (step env stmt world).1 →
      (Stmt.Loops [stmt] → Ending.Finished (step env stmt world).2) →
      s.Executes allowed opened env stmt world (step env stmt world).2)
    (stmts : List Stmt) (last : Value) (env : Environment) (world : World)
    (opens : OpensOnly allowed (tracedAll step last env stmts world).1)
    (finished : Stmt.Loops stmts → Ending.Finished (tracedAll step last env stmts world).2) :
    s.ExecutesAll allowed opened last env stmts world (tracedAll step last env stmts world).2 := by
  induction stmts generalizing last env world with
  | nil => exact .nil
  | cons stmt rest ih =>
      rw [tracedAll] at opens finished ⊢
      cases isFired : world.token.look.1 with
      | true =>
          rw [Traced.bind_of_error (Traced.reach_of_fired isFired _)]
          exact .cancelled (Run.checkpoint_of_fired isFired)
      | false =>
          have looks := Run.checkpoint_of_unfired isFired
          rw [Traced.bind_of_ok (Traced.reach_of_unfired isFired _)] at opens finished ⊢
          have first := each stmt env world.resumed opens.right.of_bind fun loops =>
            (finished (Stmt.loops_cons.mpr (.inl loops))).of_bind
          rcases ran : step env stmt world.resumed with ⟨events, ⟨r, middle⟩ | ⟨stop, ended⟩⟩
          · rw [ran] at first
            rw [Traced.bind_of_ok ran] at opens finished ⊢
            exact .cons looks first (ih r.2 r.1 middle opens.right.right fun loops =>
              finished (Stmt.loops_cons.mpr (.inr loops)))
          · rw [ran] at first
            rw [Traced.bind_of_error ran]
            exact .stops looks first

/-- **What a run computes is derived**, with the calls that it makes, unless it gave up on a loop.
-/
theorem runs_tracedBlock {room : Nat} (levels : opened + room = maxOpenLevels) (rounds : Nat)
    (env : Environment) (stmts : List Stmt) (world : World)
    (opens : OpensOnly allowed (s.tracedBlock rounds room env stmts world).1)
    (finished : Stmt.Loops stmts →
      Ending.Finished (s.tracedBlock rounds room env stmts world).2) :
    s.Runs allowed opened env stmts world (s.tracedBlock rounds room env stmts world).2 := by
  induction room generalizing opened env stmts world with
  | zero => exact .tooDeep (by omega)
  | succ room ih =>
      refine .opens (by omega) (executesAll_tracedAll (fun stmt env world => ?_) stmts .null env
        world opens finished)
      exact executes_tracedStmt (fun env e => evaluates_tracedEval (by omega) {} e)
        (fun env body => ih (by omega) env body) env world

/-- A run of a unit that did not give up on a loop is derived, with the calls that its record tells
of. -/
theorem runs_tracedRun (s : Execution) (rounds : Nat) (env : Environment) (world : World)
    (opens : OpensOnly allowed (s.tracedRun rounds env world).1)
    (finished : Stmt.Loops s.unit.program.statements →
      Ending.Finished (s.run rounds env world)) :
    s.Runs allowed 0 env s.unit.program.statements world (s.run rounds env world) := by
  rw [← (s.tracedRun_tells rounds env).ending] at finished ⊢
  exact runs_tracedBlock (Nat.zero_add _) rounds env _ world opens finished

/-! ## What is derived is computed -/

mutual

/-- **An expression has one ending**: the one that evaluation computes. -/
theorem Evaluates.eq_eval {opened room : Nat} {locals : Environment} {e : Expr} {world : World}
    {ending : Ending Value} (derived : s.Evaluates allowed opened env locals e world ending)
    (levels : opened + room = maxOpenLevels) : ending = s.eval env room locals e world := by
  match derived, room with
  | .tooDeep deep, room =>
      obtain rfl : room = 0 := by omega
      rfl
  | .opens within _, 0 => omega
  | .opens _ inner, room + 1 => exact inner.eq_evalStep (by omega)

/-- One level of an expression. -/
theorem Computes.eq_evalStep {opened room : Nat} {locals : Environment} {e : Expr} {world : World}
    {ending : Ending Value} (derived : s.Computes allowed opened env locals e world ending)
    (levels : opened + room = maxOpenLevels) :
    ending = s.evalStep env (s.eval env room) locals e world := by
  match derived with
  | .num | .str | .bool | .null => rfl
  | .list items => rw [evalStep, Run.bind_apply, items.eq_evalItems levels]
  | .ident found =>
      simp only [evalStep, found]
      rfl
  | .unbound missing => simp only [evalStep, missing]
  | .member object => rw [evalStep, Run.bind_apply, object.eq_eval levels]
  | .unary operand => rw [evalStep, Run.bind_apply, operand.eq_eval levels]
  | .leftStops left => rw [evalStep_binary, Run.bind_of_error (left.eq_eval levels).symm]
  | .decided left decides =>
      rw [evalStep_binary, Run.bind_of_ok (left.eq_eval levels).symm, decides]
      rfl
  | .binary left decides right =>
      rw [evalStep_binary, Run.bind_of_ok (left.eq_eval levels).symm, decides]
      dsimp only
      rw [Run.bind_apply, right.eq_eval levels]
  | .calleeStops callee => rw [evalStep, Run.bind_of_error (callee.eq_eval levels).symm]
  | .argsStop callee args =>
      rw [evalStep, Run.bind_of_ok (callee.eq_eval levels).symm,
        Run.bind_of_error (args.eq_evalItems levels).symm]
  | .call callee args closed =>
      rw [evalStep, Run.bind_of_ok (callee.eq_eval levels).symm,
        Run.bind_of_ok (args.eq_evalItems levels).symm,
        call_of_body?_none closed _ (s.eval env room)]
  | .body callee args opens _ body =>
      rw [evalStep, Run.bind_of_ok (callee.eq_eval levels).symm,
        Run.bind_of_ok (args.eq_evalItems levels).symm, call_of_body?_some opens]
      exact body.eq_eval levels

/-- Several expressions. -/
theorem EvaluatesAll.eq_evalItems {opened room : Nat} {locals : Environment} {items : List Expr}
    {world : World} {ending : Ending (List Value)}
    (derived : s.EvaluatesAll allowed opened env locals items world ending)
    (levels : opened + room = maxOpenLevels) :
    ending = evalItems (s.eval env room locals) items world := by
  match derived with
  | .nil => rfl
  | .stops first => rw [evalItems, Run.bind_of_error (first.eq_eval levels).symm]
  | .cons first rest =>
      rw [evalItems, Run.bind_of_ok (first.eq_eval levels).symm, Run.bind_apply,
        rest.eq_evalItems levels]

end

mutual

/-- **A block without loops has one ending**: the one that a run computes, whatever its bound. -/
theorem Runs.eq_runBlock {opened room : Nat} {env : Environment} {stmts : List Stmt} {world : World}
    {ending : Ending (Environment × Value)} (derived : s.Runs allowed opened env stmts world ending)
    (levels : opened + room = maxOpenLevels) (straight : ¬Stmt.Loops stmts) (rounds : Nat) :
    ending = s.runBlock rounds room env stmts world := by
  match derived, room with
  | .tooDeep deep, room =>
      obtain rfl : room = 0 := by omega
      rfl
  | .opens within _, 0 => omega
  | .opens _ inner, room + 1 => exact inner.eq_execAll (by omega) straight rounds

/-- The statements of a block without loops. -/
theorem ExecutesAll.eq_execAll {opened room : Nat} {last : Value} {env : Environment}
    {stmts : List Stmt} {world : World} {ending : Ending (Environment × Value)}
    (derived : s.ExecutesAll allowed opened last env stmts world ending)
    (levels : opened + room = maxOpenLevels) (straight : ¬Stmt.Loops stmts) (rounds : Nat) :
    ending = execAll
      (s.execStep rounds (fun env => s.eval env room {})
        (fun env body => do return (← s.runBlock rounds room env body).1))
      last env stmts world := by
  match derived with
  | .nil => rfl
  | .cancelled looks => rw [execAll, Run.bind_of_error looks]
  | .stops looks first =>
      have here := fun loops => straight (Stmt.loops_cons.mpr (.inl loops))
      rw [execAll, Run.bind_of_ok looks,
        Run.bind_of_error (first.eq_execStep levels here rounds).symm]
  | .cons looks first rest =>
      have here := fun loops => straight (Stmt.loops_cons.mpr (.inl loops))
      have further := fun loops => straight (Stmt.loops_cons.mpr (.inr loops))
      rw [execAll, Run.bind_of_ok looks, Run.bind_of_ok (first.eq_execStep levels here rounds).symm]
      exact rest.eq_execAll levels further rounds

/-- One statement that is no loop and has none inside. -/
theorem Executes.eq_execStep {opened room : Nat} {env : Environment} {stmt : Stmt} {world : World}
    {ending : Ending (Environment × Value)}
    (derived : s.Executes allowed opened env stmt world ending)
    (levels : opened + room = maxOpenLevels) (straight : ¬Stmt.Loops [stmt]) (rounds : Nat) :
    ending = s.execStep rounds (fun env => s.eval env room {})
      (fun env body => do return (← s.runBlock rounds room env body).1) env stmt world := by
  match derived with
  | .load | .use | .define => rfl
  | .bind value | .assign value | .eval value =>
      rw [execStep, Run.bind_apply, value.eq_eval levels]
  | .testStops test => rw [execStep_branch, Run.bind_of_error (test.eq_eval levels).symm]
  | .passed test notTaken =>
      rw [execStep_branch, Run.bind_of_ok (test.eq_eval levels).symm, notTaken]
      rfl
  | .branch test isTaken body =>
      have here := fun loops => straight (loops_of_taken isTaken loops)
      rw [execStep_branch, Run.bind_of_ok (test.eq_eval levels).symm, isTaken]
      simp only [bind_assoc, pure_bind]
      rw [Run.bind_apply, body.eq_runBlock levels here rounds]
  | .loop _ => exact absurd ⟨_, List.mem_cons_self, rfl⟩ straight

end

end Execution

end ScriptShell
