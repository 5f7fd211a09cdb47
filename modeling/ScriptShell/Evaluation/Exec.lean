import ScriptShell.Evaluation.Eval

/-! # Running statements

`Execution.runBlock` runs the statements of a block. Like evaluation it recurs on the levels that
may still be opened; a loop recurs on a number of rounds, which only bounds how long it is followed.
-/

namespace ScriptShell

namespace Execution

/-- Repeats a body while a test holds, for at most `rounds` tests. Every round starts with a look at
the token and lets others go on before its test. -/
def repeatWhile (test : Environment → Run Value) (body : Environment → Run Environment) :
    (rounds : Nat) → Environment → Run Environment
  | 0, _ => throw .unfinished
  | rounds + 1, env => do
    Run.checkpoint
    Run.suspend
    let value ← test env
    if value.isTruthy then
      let env ← body env
      repeatWhile test body rounds env
    else return env

/-- Runs a statement, given how to evaluate expressions and run blocks one level below it. The
result is the names after it and its value, which is null unless it is an expression. -/
def execStep (s : Execution) (rounds : Nat) (eval : Environment → Expr → Run Value)
    (block : Environment → List Stmt → Run Environment) (env : Environment) :
    Stmt → Run (Environment × Value)
  | .load .. | .use .. => pure (env, .null)
  | .define name _ _ _ => pure (env.insert name (.func ⟨name, s.unit.id⟩), .null)
  | .bind name value _ | .assign name value _ => do
    let value ← eval env value
    return (env.insert name value, .null)
  | .branch test onTrue onFalse _ => do
    let value ← eval env test
    if value.isTruthy then
      let env ← block env onTrue
      return (env, .null)
    else
      match onFalse with
      | none => return (env, .null)
      | some onFalse =>
        let env ← block env onFalse
        return (env, .null)
  | .loop test body _ => do
    let env ← repeatWhile (eval · test) (block · body) rounds env
    return (env, .null)
  | .eval expr _ _ => do
    let value ← eval env expr
    return (env, value)

/-- Runs statements one after the other, given how to run one. Every statement starts with a look at
the token; the value is that of the last one. -/
def execAll (step : Environment → Stmt → Run (Environment × Value)) (last : Value) :
    Environment → List Stmt → Run (Environment × Value)
  | env, [] => pure (env, last)
  | env, stmt :: rest => do
    Run.checkpoint
    let (env, value) ← step env stmt
    execAll step value env rest

/-- Runs a block with at most `room` levels still to be opened. -/
def runBlock (s : Execution) (rounds : Nat) : (room : Nat) → Environment → List Stmt →
    Run (Environment × Value)
  | 0 => fun _ _ => tooManyLevels
  | room + 1 =>
    execAll
      (s.execStep rounds (fun env => s.eval env room {})
        (fun env body => do return (← s.runBlock rounds room env body).1))
      .null

/-- Runs the statements of the unit. -/
def run (s : Execution) (rounds : Nat) (env : Environment) : Run (Environment × Value) :=
  s.runBlock rounds maxOpenLevels env s.unit.program.statements

end Execution

end ScriptShell
