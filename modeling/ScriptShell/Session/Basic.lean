import ScriptShell.Evaluation.Exec
import ScriptShell.Reference.Resolver
import ScriptShell.Session.Compile

/-! # Sessions

A session evaluates fragments one after the other. Each one is resolved, compiled, run and, only if
all of that succeeds, committed: a fragment that fails or is cancelled leaves the session as it was.
-/

namespace ScriptShell

/-- A committed fragment: its unit, the values of all names after it, and its own value if it has
one. -/
structure Commit where
  unit : ScriptUnit
  env : Environment
  value : Option Value
  deriving Inhabited

/-- What a session has come to: the references it has bound, the fragments it has committed, the
newest first, and the number of the next unit. -/
structure Session where
  references : References := {}
  history : List Commit := []
  nextUnit : Nat := 1
  deriving Inhabited

namespace Session

/-- The newest unit. -/
def newestUnit? (s : Session) : Option ScriptUnit :=
  s.history.head?.map (·.unit)

/-- The values of names before the next fragment. -/
def env (s : Session) : Environment :=
  (s.history.head?.map (·.env)).getD {}

end Session

/-- What sessions run on: the modules there are, how targets resolve, and how many rounds a loop is
followed for. -/
structure Host where
  catalog : Catalog
  resolvers : Resolvers
  rounds : Nat

/-- How an evaluation ends. -/
inductive Outcome where
  /-- The fragment was committed; its value if it has one, and the modules it brought in. -/
  | success (value : Option Value) (loaded : List Reference)
  | fault (cause : Fault)
  | cancelled
  /-- A loop was not followed to its end. -/
  | unfinished
  deriving Inhabited

namespace Outcome

/-- Whether the fragment was committed. -/
def isSuccess : Outcome → Bool
  | .success .. => true
  | _ => false

/-- The fault, if there was one. -/
def fault? : Outcome → Option Fault
  | .fault cause => some cause
  | _ => none

end Outcome

/-- An evaluation: how it ended, the session and the world after it, and which sources were asked.
-/
structure Evaluation where
  outcome : Outcome
  session : Session
  world : World
  trail : List Consultation := []

/-- The error of a run that broke off. -/
def brokenOff : RunError :=
  ⟨.hostError, "evaluation thread stopped without a result", []⟩

/-- How a run that stopped before its end counts. -/
def Stop.outcome : Stop → Outcome
  | .cancelled => .cancelled
  | .failed error => if error.wasCancelled then .cancelled else .fault (.runtime error)
  | .broken => .fault (.runtime brokenOff)
  | .unfinished => .unfinished

namespace Session

/-- The references that a fragment brings in by itself. -/
def incoming (text : String) (resolved : List Reference) : References :=
  ((({} : References).addTargets (loadTargets text)).addModules resolved).addImports
    (importNames text)

/-- The session after a fragment ran to its end, and the modules that are new to it. -/
def commit (s : Session) (incoming : References) (unit : ScriptUnit) (env : Environment)
    (value : Option Value) : Session × List Reference :=
  let all := incoming.addModules unit.references
  ({ references := s.references.merge all
     history := ⟨unit, env, value⟩ :: s.history
     nextUnit := s.nextUnit + 1 },
   s.references.newModules all.modules)

/-- Runs a compiled fragment and commits it if the run ends. -/
def runAndCommit (h : Host) (s : Session) (incoming : References) (unit : ScriptUnit)
    (text : String) (args : List String) (world : World) : Outcome × Session × World :=
  let execution : Execution := ⟨h.catalog, unit, args⟩
  match execution.run h.rounds s.env world with
  | .error stop world => (stop.outcome, s, world)
  | .ok (env, value) world =>
    let value := if capturesValue h.catalog unit text then some value else none
    let (session, loaded) := s.commit incoming unit env value
    (.success value loaded, session, world)

/-- Compiles a resolved fragment and runs it unless it was cancelled meanwhile. -/
def compileAndRun (h : Host) (s : Session) (text : String) (args : List String)
    (resolved : List Reference) (world : World) : Outcome × Session × World :=
  let incoming := incoming text resolved
  match compile h.catalog (s.references.merge incoming) s.newestUnit? s.nextUnit text with
  | .error problems => (.fault (.compile problems), s, world)
  | .ok unit =>
    let (fired, token) := world.token.look
    let world := { world with token }
    if fired then (.cancelled, s, world) else s.runAndCommit h incoming unit text args world

/-- Evaluates a fragment. -/
def evaluate (h : Host) (s : Session) (text : String) (args : List String) (world : World) :
    Evaluation :=
  let (fired, token) := world.token.look
  let world := { world with token }
  if fired then { outcome := .cancelled, session := s, world }
  else
    let resolution := h.resolvers.resolveText s.references text
    match resolution.result with
    | .error e =>
      { outcome := .fault (.resolve e), session := s, world, trail := resolution.trail }
    | .ok resolved =>
      let (outcome, session, world) := s.compileAndRun h text args resolved world
      { outcome, session, world, trail := resolution.trail }

/-! ## What a fragment that is not committed leaves -/

/-- A run that is no success leaves the session as it is. -/
theorem runAndCommit_session (h : Host) (s : Session) (incoming : References) (unit : ScriptUnit)
    (text : String) (args : List String) (world : World)
    (failed : (s.runAndCommit h incoming unit text args world).1.isSuccess = false) :
    (s.runAndCommit h incoming unit text args world).2.1 = s := by
  unfold runAndCommit at failed ⊢
  dsimp only at failed ⊢
  split at failed
  · rfl
  · simp [Outcome.isSuccess] at failed

/-- A fragment that is no success leaves the session as it is. -/
theorem compileAndRun_session (h : Host) (s : Session) (text : String) (args : List String)
    (resolved : List Reference) (world : World)
    (failed : (s.compileAndRun h text args resolved world).1.isSuccess = false) :
    (s.compileAndRun h text args resolved world).2.1 = s := by
  unfold compileAndRun at failed ⊢
  dsimp only at failed ⊢
  split at failed
  · rfl
  · split at failed <;> rename_i fired <;> simp only [fired]
    · rfl
    · exact runAndCommit_session _ _ _ _ _ _ _ failed

/-- A fragment that is not committed leaves the session as it was. -/
theorem evaluate_session (h : Host) (s : Session) (text : String) (args : List String)
    (world : World) (failed : (s.evaluate h text args world).outcome.isSuccess = false) :
    (s.evaluate h text args world).session = s := by
  unfold evaluate at failed ⊢
  dsimp only at failed ⊢
  split at failed <;> rename_i fired <;> simp only [fired]
  · rfl
  · split at failed
    · rfl
    · exact compileAndRun_session _ _ _ _ _ _ failed

/-- Compiles a fragment against the references that are bound, without evaluating it. -/
def compileNext (h : Host) (s : Session) (text : String) : Except (List Diagnostic) ScriptUnit :=
  compile h.catalog s.references s.newestUnit? s.nextUnit text

end Session

end ScriptShell
