import ScriptShell.Proofs.Evaluation.Adequacy
import ScriptShell.Proofs.Evaluation.Primitives
import ScriptShell.Proofs.Syntax.BlockLevels

/-! # Why a derived run stops

A derivation that stops does so for a reason that is found at one of its steps: a primitive step, a
name without a value, or one level too many. **`Runs.stops`** follows the derivation. The third
reason needs room for as many levels as the syntax has; where no declared function may be called,
counting them once is enough. -/

namespace ScriptShell

/-- The reason to stop where one level too many would be opened. -/
def Stop.tooDeep : Stop :=
  .failed ⟨.recursionLimit,
    "evaluation nested deeper than " ++ toString maxOpenLevels ++ " levels", []⟩

/-- The reason to stop where a name has no value. -/
def Stop.undefined (name : String) : Stop :=
  .failed ⟨.undefinedVariable, "undefined variable '" ++ name ++ "'", []⟩

namespace Ending

variable {α β : Type} {stop : Stop → Prop}

/-- If the computation stopped, then for a reason with a property. -/
def Stops (ending : Ending α) (stop : Stop → Prop) : Prop :=
  ∀ reason world, ending = .error reason world → stop reason

namespace Stops

/-- What ended did not stop. -/
theorem ok {a : α} {world : World} : Stops (.ok a world) stop :=
  fun _ _ stopped => by cases stopped

/-- What stopped for a reason with the property. -/
theorem error {reason : Stop} {world : World} (holds : stop reason) :
    Stops (.error reason world : Ending α) stop :=
  fun _ _ stopped => by cases stopped; exact holds

/-- The reason of what stopped. -/
theorem of_error {reason : Stop} {world : World}
    (stops : Stops (.error reason world : Ending α) stop) : stop reason :=
  stops reason world rfl

/-- The ending of a computation that ensures it. -/
theorem of_ensures {x : Run α} {value : α → Prop} (ensures : x.Ensures value stop) (world : World) :
    Stops (x world) stop :=
  fun _ _ stopped => ensures.of_error stopped

/-- An ending and what goes on after it. -/
theorem andThen {ending : Ending α} (first : ending.Stops stop) {next : α → Run β}
    (further : ∀ a, (next a).Ensures (fun _ => True) stop) : (ending.andThen next).Stops stop := by
  cases ending with
  | ok a world => exact of_ensures (further a) world
  | error reason world => exact error first.of_error

end Stops

end Ending

namespace Execution

/-- `stop` holds of every reason to stop but too many levels and an unfinished loop. -/
structure Admits (s : Execution) (stop : Stop → Prop) : Prop extends s.Tolerates stop where
  undefined : ∀ name, stop (.undefined name)

/-- There is room for `levels` more levels, or stopping without room has the property. Room is of
use only where no declared function may be called. -/
def Fits (stop : Stop → Prop) (allowed : FunctionId → Prop) (opened levels : Nat) : Prop :=
  stop .tooDeep ∨ (∀ ref, ¬allowed ref) ∧ opened + levels ≤ maxOpenLevels

namespace Fits

variable {stop : Stop → Prop} {allowed : FunctionId → Prop} {opened levels : Nat}

/-- Fewer levels fit where more of them do. -/
theorem mono (fits : Fits stop allowed opened levels) {opened' levels' : Nat}
    (le : opened' + levels' ≤ opened + levels) : Fits stop allowed opened' levels' :=
  fits.imp_right fun ⟨noCalls, room⟩ => ⟨noCalls, Nat.le_trans le room⟩

end Fits

variable {s : Execution} {allowed : FunctionId → Prop} {stop : Stop → Prop} {opened : Nat}
  {env locals : Environment} {world : World}

/-- What an operator makes of both operands stops for what is tolerated. -/
theorem Tolerates.joined (tolerates : s.Tolerates stop) (op : BinaryOp) (l r : Value) :
    (joined op l r).Ensures (fun _ => True) stop := by
  unfold Execution.joined
  split
  · exact .pure trivial
  · exact .pure trivial
  · exact tolerates.apply op l r

/-- The block that a branch takes is no deeper than the branch. -/
theorem blockLevels_le_of_taken {v : Value} {test : Expr} {onTrue body : List Stmt}
    {onFalse : Option (List Stmt)} {span : Span} (isTaken : taken v onTrue onFalse = some body) :
    Stmt.blockLevels body ≤ (Stmt.branch test onTrue onFalse span).levels := by
  unfold taken at isTaken
  split at isTaken
  · cases isTaken
    cases onFalse <;> simp only [Stmt.levels] <;> omega
  · cases isTaken
    simp only [Stmt.levels]
    omega

/-- A call that opens no body stops for what is tolerated. -/
theorem Tolerates.call_of_body?_none (tolerates : s.Tolerates stop) {f : Value}
    {values : List Value} (closed : s.body? f values = none)
    (evalBody : Environment → Expr → Run Value) :
    (s.call evalBody f values).Ensures (fun _ => True) stop := by
  refine tolerates.call fun isRef found length => ?_
  simp [isRef, body?, found, length] at closed

mutual

/-- Why the evaluation of an expression stops. -/
theorem Evaluates.stopsOnly (admits : s.Admits stop) {opened : Nat} {locals : Environment}
    {e : Expr} {world : World} {ending : Ending Value}
    (derived : s.Evaluates allowed opened env locals e world ending)
    (fits : Fits stop allowed opened e.levels) : ending.Stops stop := by
  match derived with
  | .tooDeep deep =>
      rcases fits with tooDeep | ⟨-, room⟩
      · exact .error tooDeep
      · have one := e.levels_pos
        omega
  | .opens _ inner =>
      refine inner.stopsOnly admits fun operand member => fits.mono ?_
      have less := Expr.levels_lt_of_mem_operands member
      omega

/-- Why an expression stops whose own level is open. -/
theorem Computes.stopsOnly (admits : s.Admits stop) {opened : Nat} {locals : Environment}
    {e : Expr} {world : World} {ending : Ending Value}
    (derived : s.Computes allowed opened env locals e world ending)
    (fits : ∀ operand ∈ e.operands, Fits stop allowed opened operand.levels) :
    ending.Stops stop := by
  match derived with
  | .num | .str | .bool | .null | .ident _ | .decided _ _ => exact .ok
  | .unbound _ => exact .error (admits.undefined _)
  | .list items => exact (items.stopsOnly admits fits).andThen fun _ => .pure trivial
  | .member object =>
      exact (object.stopsOnly admits (fits _ (.head _))).andThen fun v => admits.memberOf v _
  | .unary operand =>
      exact (operand.stopsOnly admits (fits _ (.head _))).andThen fun v => admits.applyUnary _ v
  | .leftStops left => exact left.stopsOnly admits (fits _ (.head _))
  | .binary _ _ right =>
      have onRight := right.stopsOnly admits (fits _ (.tail _ (.head _)))
      exact onRight.andThen fun r => admits.joined _ _ r
  | .calleeStops callee => exact callee.stopsOnly admits (fits _ (.head _))
  | .argsStop _ args =>
      exact .error (args.stopsOnly admits fun e member => fits e (.tail _ member)).of_error
  | .call _ _ closed => exact .of_ensures (admits.call_of_body?_none closed _) _
  | .body _ _ _ isAllowed body =>
      -- A body may have any number of levels, but it was opened by a call.
      rcases fits _ (.head _) with tooDeep | ⟨noCalls, -⟩
      · exact body.stopsOnly admits (.inl tooDeep)
      · exact absurd isAllowed (noCalls _)

/-- Why the evaluation of several expressions stops. -/
theorem EvaluatesAll.stopsOnly (admits : s.Admits stop) {opened : Nat} {locals : Environment}
    {items : List Expr} {world : World} {ending : Ending (List Value)}
    (derived : s.EvaluatesAll allowed opened env locals items world ending)
    (fits : ∀ e ∈ items, Fits stop allowed opened e.levels) : ending.Stops stop := by
  match derived with
  | .nil => exact .ok
  | .stops first => exact .error (first.stopsOnly admits (fits _ (.head _))).of_error
  | .cons _ rest =>
      have others := rest.stopsOnly admits fun e member => fits e (.tail _ member)
      exact others.andThen fun _ => .pure trivial

end

mutual

/-- **Why a block stops.** -/
theorem Runs.stopsOnly (admits : s.Admits stop) {opened : Nat} {env : Environment}
    {stmts : List Stmt} {world : World} {ending : Ending (Environment × Value)}
    (derived : s.Runs allowed opened env stmts world ending)
    (fits : Fits stop allowed opened (Stmt.blockLevels stmts)) : ending.Stops stop := by
  match derived with
  | .tooDeep deep =>
      rcases fits with tooDeep | ⟨-, room⟩
      · exact .error tooDeep
      · have one := Stmt.blockLevels_pos stmts
        omega
  | .opens _ inner =>
      refine inner.stopsOnly admits fun stmt member => fits.mono ?_
      have less := Stmt.levels_lt_blockLevels member
      omega

/-- Why the statements of an open block stop. -/
theorem ExecutesAll.stopsOnly (admits : s.Admits stop) {opened : Nat} {last : Value}
    {env : Environment} {stmts : List Stmt} {world : World} {ending : Ending (Environment × Value)}
    (derived : s.ExecutesAll allowed opened last env stmts world ending)
    (fits : ∀ stmt ∈ stmts, Fits stop allowed opened stmt.levels) : ending.Stops stop := by
  match derived with
  | .nil => exact .ok
  | .cancelled looks => exact .error ((Run.Ensures.checkpoint admits.cancelled).of_error looks)
  | .stops _ first => exact first.stopsOnly admits (fits _ (.head _))
  | .cons _ _ rest => exact rest.stopsOnly admits fun stmt member => fits stmt (.tail _ member)

/-- Why a statement stops. -/
theorem Executes.stopsOnly (admits : s.Admits stop) {opened : Nat} {env : Environment}
    {stmt : Stmt} {world : World} {ending : Ending (Environment × Value)}
    (derived : s.Executes allowed opened env stmt world ending)
    (fits : Fits stop allowed opened stmt.levels) : ending.Stops stop := by
  match derived with
  | .load | .use | .define | .passed _ _ => exact .ok
  | .bind value | .assign value | .eval value =>
      exact (value.stopsOnly admits fits).andThen fun _ => .pure trivial
  | .testStops test =>
      have room := fits.mono (Nat.add_le_add_left Stmt.levels_test_le opened)
      exact .error (test.stopsOnly admits room).of_error
  | .branch _ isTaken body =>
      have room := fits.mono (Nat.add_le_add_left (blockLevels_le_of_taken isTaken) opened)
      exact (body.stopsOnly admits room).andThen fun _ => .pure trivial
  | .loop rounds => exact (rounds.stopsOnly admits fits).andThen fun _ => .pure trivial

/-- Why a loop stops. -/
theorem Repeats.stopsOnly (admits : s.Admits stop) {opened : Nat} {test : Expr}
    {body : List Stmt} {env : Environment} {world : World} {ending : Ending Environment}
    (derived : s.Repeats allowed opened test body env world ending)
    (fits : Fits stop allowed opened (max test.levels (Stmt.blockLevels body))) :
    ending.Stops stop := by
  match derived with
  | .cancelled looks => exact .error ((Run.Ensures.checkpoint admits.cancelled).of_error looks)
  | .testStops _ stopped =>
      exact .error (stopped.stopsOnly admits (fits.mono (by omega))).of_error
  | .ends _ _ _ => exact .ok
  | .bodyStops _ _ _ stopped =>
      exact .error (stopped.stopsOnly admits (fits.mono (by omega))).of_error
  | .again _ _ _ _ more => exact more.stopsOnly admits fits

end

end Execution

end ScriptShell
