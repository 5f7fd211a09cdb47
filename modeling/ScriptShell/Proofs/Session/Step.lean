import ScriptShell.Session.Basic

/-! # What one evaluation can do

`Session.evaluate` resolves, compiles, runs and commits. This file says once what that can come to,
so that the laws of whole sessions never open it again:

* **`evaluate_of_fired`**: a fragment whose token is fired already is cancelled at once.
* **`evaluate_success`** and **`evaluate_runtimeFault`**: what lies behind a fragment that was
  committed, and behind one that stopped with an error while it ran.
* **`evaluate_advances`**: the session after an evaluation is the one before it, or a commit on it.
* **`Session.Reachable`** and **`Session.ReachableBy`**: the sessions that evaluations lead to from
  a new one, on one host or on several, with the inductions that every invariant of sessions is
  proved by. -/

namespace ScriptShell

/-! ## Outcomes -/

namespace Outcome

/-- The value that a committed fragment ended with. -/
def value? : Outcome → Option Value
  | .success value _ => value
  | _ => none

/-- An outcome with a value is a success. -/
theorem eq_success_of_value? {outcome : Outcome} {v : Value} (isValue : outcome.value? = some v) :
    ∃ loaded, outcome = .success (some v) loaded := by
  cases outcome with
  | success value loaded =>
      have isValue : value = some v := isValue
      exact ⟨loaded, by rw [isValue]⟩
  | fault | cancelled | unfinished => cases isValue

/-- An outcome that is a success has what a success has. -/
theorem eq_success_of_isSuccess {outcome : Outcome} (isSuccess : outcome.isSuccess = true) :
    ∃ value loaded, outcome = .success value loaded := by
  cases outcome with
  | success value loaded => exact ⟨value, loaded, rfl⟩
  | fault | cancelled | unfinished => cases isSuccess

/-- An outcome with a fault is that fault. -/
theorem eq_fault_of_fault? {outcome : Outcome} {cause : Fault}
    (isFault : outcome.fault? = some cause) : outcome = .fault cause := by
  cases outcome with
  | fault =>
      cases isFault
      rfl
  | success | cancelled | unfinished => cases isFault

end Outcome

/-! ## Compiling -/

/-- What a compiled unit is made of: its statements are those of the text, they have no problems,
and everything else of the unit is computed from them and from what came before. -/
theorem compile_ok {c : Catalog} {references : References} {previous : Option ScriptUnit} {id : Nat}
    {text : String} {unit : ScriptUnit}
    (compiled : compile c references previous id text = .ok unit) :
    ∃ statements, parse text = .ok statements ∧
      ((c.scope references (bindingsAfter previous)).checkAll statements).problems = [] ∧
      unit =
        { id
          source := text
          program :=
            { statements
              bindings :=
                ((c.scope references (bindingsAfter previous)).checkAll statements).bindings
              modules := c.usable references
              imports := importedModules references
              functions := declaredFunctions statements }
          references := c.unitReferences references previous
          earlier := (previous.map (·.ancestors)).getD [] } := by
  -- A unit comes out of one branch only: the text parses and the checker has nothing to say.
  unfold compile at compiled
  cases parsed : parse text with
  | error e =>
      rw [parsed] at compiled
      cases compiled
  | ok statements =>
      simp only [parsed] at compiled
      split at compiled
      · rename_i clean
        cases compiled
        exact ⟨statements, rfl, List.isEmpty_iff.mp clean, rfl⟩
      · cases compiled

/-- The world after a look at its token. -/
def World.looked (world : World) : World :=
  { world with token := world.token.look.2 }

namespace Session

/-- The unit that a session's next fragment is compiled into, once its directives are resolved. -/
structure Compiles (h : Host) (s : Session) (text : String) (resolved : List Reference)
    (unit : ScriptUnit) : Prop where
  resolves : (h.resolvers.resolveText s.references text).result = .ok resolved
  compiles : compile h.catalog (s.references.merge (incoming text resolved)) s.newestUnit?
    s.nextUnit text = .ok unit

/-- A fragment that compiles has no problems. -/
theorem Compiles.clean {h : Host} {s : Session} {text : String} {resolved : List Reference}
    {unit : ScriptUnit} (compiles : s.Compiles h text resolved unit) :
    ((h.catalog.scope (s.references.merge (incoming text resolved))
      (bindingsAfter s.newestUnit?)).checkAll unit.program.statements).problems = [] := by
  obtain ⟨stmts, -, clean, isUnit⟩ := compile_ok compiles.compiles
  rw [isUnit]
  exact clean

/-- The newest unit is that of the newest commit. -/
theorem newestUnit?_of_head? {s : Session} {commit : Commit}
    (newest : s.history.head? = some commit) : s.newestUnit? = some commit.unit := by
  rw [newestUnit?, newest]
  rfl

/-- A compiled fragment comes before those of the newest unit. -/
theorem Compiles.ancestors {h : Host} {s : Session} {text : String} {resolved : List Reference}
    {unit newest : ScriptUnit} (compiles : s.Compiles h text resolved unit)
    (isNewest : s.newestUnit? = some newest) :
    unit.ancestors = unit.toFragment :: newest.ancestors := by
  obtain ⟨stmts, -, -, isUnit⟩ := compile_ok compiles.compiles
  rw [ScriptUnit.ancestors, isUnit, isNewest]
  rfl

/-! ## Evaluating -/

/-- A fragment whose token is fired already is cancelled at once, and its token stays fired. -/
theorem evaluate_of_fired (h : Host) (s : Session) (text : String) (args : List String)
    (world : World) (fired : world.token.fired = true) :
    (s.evaluate h text args world).outcome = .cancelled ∧
      (s.evaluate h text args world).world.token.fired = true := by
  have looked : world.token.look = (true, world.token) := by simp [Token.look, fired]
  simp [evaluate, looked, fired]

/-- An evaluation that came as far as to run its fragment, after two looks at the token, answers
what the run and the commit after it come to; every other one ends without a value and without an
error of a run. -/
theorem evaluate_cases (h : Host) (s : Session) (text : String) (args : List String)
    (world : World) :
    (∃ resolved unit, s.Compiles h text resolved unit ∧
      s.runAndCommit h (incoming text resolved) unit text args world.looked.looked =
        ((s.evaluate h text args world).outcome, (s.evaluate h text args world).session,
          (s.evaluate h text args world).world)) ∨
    ((s.evaluate h text args world).outcome.isSuccess = false ∧
      ∀ error, (s.evaluate h text args world).outcome ≠ .fault (.runtime error)) := by
  -- The branches follow the phases: a look at the token, the directives, the compiler, another
  -- look.
  unfold evaluate
  dsimp only
  split
  · exact .inr ⟨rfl, fun _ => Outcome.noConfusion⟩
  · split
    · exact .inr ⟨rfl, fun _ equal => by cases equal⟩
    · rename_i resolved resolves
      unfold compileAndRun
      dsimp only
      split
      · exact .inr ⟨rfl, fun _ equal => by cases equal⟩
      · rename_i unit compiles
        split
        · exact .inr ⟨rfl, fun _ => Outcome.noConfusion⟩
        · exact .inl ⟨resolved, unit, ⟨resolves, compiles⟩, rfl⟩

/-- What lies behind a committed fragment: it compiled, its run came to an end, and the session was
advanced by what the run left. -/
theorem evaluate_success {h : Host} {s : Session} {text : String} {args : List String}
    {world : World} {value : Option Value} {loaded : List Reference}
    (success : (s.evaluate h text args world).outcome = .success value loaded) :
    ∃ resolved unit env result ended, s.Compiles h text resolved unit ∧
      (⟨h.catalog, unit, args⟩ : Execution).run h.rounds s.env world.looked.looked
        = .ok (env, result) ended ∧
      value = (if capturesValue h.catalog unit text then some result else none) ∧
      s.commit (incoming text resolved) unit env value =
        ((s.evaluate h text args world).session, loaded) := by
  rcases evaluate_cases h s text args world with ⟨resolved, unit, compiles, ran⟩ | ⟨no, -⟩
  · rw [success] at ran
    unfold runAndCommit at ran
    dsimp only at ran
    -- A run that stopped gives no success, whatever stopped it.
    split at ran
    · rename_i stop ended stopped
      cases stop <;> simp only [Stop.outcome] at ran
      case failed error =>
        split at ran <;> cases ran
      all_goals cases ran
    · rename_i env result ended finished
      simp only [Prod.mk.injEq, Outcome.success.injEq] at ran
      obtain ⟨⟨rfl, rfl⟩, session, -⟩ := ran
      exact ⟨resolved, unit, env, result, ended, compiles, finished, rfl, Prod.ext session rfl⟩
  · rw [success] at no
    cases no

/-- An evaluation leaves the session as it was, or it succeeds and what ran is committed. -/
theorem evaluate_advances (h : Host) (s : Session) (text : String) (args : List String)
    (world : World) :
    ((s.evaluate h text args world).outcome.isSuccess = false ∧
      (s.evaluate h text args world).session = s) ∨
    ∃ value loaded resolved unit env result ended,
      (s.evaluate h text args world).outcome = .success value loaded ∧
      s.Compiles h text resolved unit ∧
      (⟨h.catalog, unit, args⟩ : Execution).run h.rounds s.env world.looked.looked
        = .ok (env, result) ended ∧
      s.commit (incoming text resolved) unit env value =
        ((s.evaluate h text args world).session, loaded) := by
  cases outcome : (s.evaluate h text args world).outcome with
  | success value loaded =>
      obtain ⟨resolved, unit, env, result, ended, compiles, finished, -, committed⟩ :=
        evaluate_success outcome
      exact .inr ⟨value, loaded, resolved, unit, env, result, ended, rfl, compiles, finished,
        committed⟩
  | fault | cancelled | unfinished =>
      exact .inl ⟨rfl, evaluate_session h s text args world (by rw [outcome]; rfl)⟩

/-- What lies behind an error of a run: the fragment compiled, and its run stopped with that error
and without a cancellation behind it, or broke off. -/
theorem evaluate_runtimeFault {h : Host} {s : Session} {text : String} {args : List String}
    {world : World} {error : RunError}
    (fault : (s.evaluate h text args world).outcome = .fault (.runtime error)) :
    ∃ resolved unit ended, s.Compiles h text resolved unit ∧
      ((⟨h.catalog, unit, args⟩ : Execution).run h.rounds s.env world.looked.looked
          = .error (.failed error) ended ∨
        error = brokenOff) := by
  rcases evaluate_cases h s text args world with ⟨resolved, unit, compiles, ran⟩ | ⟨-, no⟩
  · rw [fault] at ran
    unfold runAndCommit at ran
    dsimp only at ran
    split at ran
    · rename_i stop ended stopped
      refine ⟨resolved, unit, ended, compiles, ?_⟩
      -- Of the ways to stop, an error and running out of rounds show as a runtime fault; an error
      -- with a cancellation behind it does not.
      cases stop <;> simp only [Stop.outcome] at ran
      case failed raised =>
        split at ran
        · cases ran
        · simp only [Prod.mk.injEq, Outcome.fault.injEq, Fault.runtime.injEq] at ran
          rw [← ran.1]
          exact .inl stopped
      case broken =>
        simp only [Prod.mk.injEq, Outcome.fault.injEq, Fault.runtime.injEq] at ran
        exact .inr ran.1.symm
      all_goals cases ran
    · cases ran
  · exact absurd fault (no error)

/-! ## Committing -/

@[simp] theorem newestUnit?_commit (s : Session) (incoming : References) (unit : ScriptUnit)
    (env : Environment) (value : Option Value) :
    (s.commit incoming unit env value).1.newestUnit? = some unit := rfl

@[simp] theorem env_commit (s : Session) (incoming : References) (unit : ScriptUnit)
    (env : Environment) (value : Option Value) : (s.commit incoming unit env value).1.env = env :=
  rfl

@[simp] theorem history_commit (s : Session) (incoming : References) (unit : ScriptUnit)
    (env : Environment) (value : Option Value) :
    (s.commit incoming unit env value).1.history = ⟨unit, env, value⟩ :: s.history := rfl

/-! ## Reachable sessions -/

/-- The sessions that evaluations lead to, from a new one. -/
inductive Reachable (h : Host) : Session → Prop where
  /-- A new session. -/
  | new : Reachable h {}
  /-- The session after one more evaluation, however it ended. -/
  | evaluate {s : Session} (reachable : Reachable h s) (text : String) (args : List String)
      (world : World) : Reachable h (s.evaluate h text args world).session

/-- What holds of a new session and is kept by every commit holds of every reachable session. -/
theorem Reachable.induction {h : Host} {holds : Session → Prop} (new : holds {})
    (commit : ∀ s text args resolved unit env result started ended,
      Reachable h s → holds s → s.Compiles h text resolved unit →
      (⟨h.catalog, unit, args⟩ : Execution).run h.rounds s.env started = .ok (env, result) ended →
      ∀ value, holds (s.commit (incoming text resolved) unit env value).1)
    {s : Session} (reachable : Reachable h s) : holds s := by
  induction reachable with
  | new => exact new
  | @evaluate s reachable text args world ih =>
      rcases evaluate_advances h s text args world with ⟨-, same⟩ | advances
      · rwa [same]
      · obtain ⟨value, loaded, resolved, unit, env, result, ended, -, compiles, finished,
          committed⟩ := advances
        have kept := commit s text args resolved unit env result _ ended reachable ih compiles
          finished value
        rwa [committed] at kept

/-- The sessions that evaluations lead to, from a new one, when each may run on another one of some
hosts: what is found in files, say, may change from one evaluation to the next. -/
inductive ReachableBy (allowed : Host → Prop) : Session → Prop where
  /-- A new session. -/
  | new : ReachableBy allowed {}
  /-- The session after one more evaluation, however it ended. -/
  | evaluate {s : Session} {h : Host} (reachable : ReachableBy allowed s) (isAllowed : allowed h)
      (text : String) (args : List String) (world : World) :
      ReachableBy allowed (s.evaluate h text args world).session

/-- What holds of a new session and is kept by every commit holds of every session reached by
several hosts. -/
theorem ReachableBy.induction {allowed : Host → Prop} {holds : Session → Prop} (new : holds {})
    (commit : ∀ h s text args resolved unit env result started ended, allowed h → holds s →
      s.Compiles h text resolved unit →
      (⟨h.catalog, unit, args⟩ : Execution).run h.rounds s.env started = .ok (env, result) ended →
      ∀ value, (∀ v, value = some v → v = result) →
        holds (s.commit (incoming text resolved) unit env value).1)
    {s : Session} (reachable : ReachableBy allowed s) : holds s := by
  induction reachable with
  | new => exact new
  | @evaluate s h reachable isAllowed text args world ih =>
      cases outcome : (s.evaluate h text args world).outcome with
      | success value loaded =>
          obtain ⟨resolved, unit, env, result, ended, compiles, finished, captured, committed⟩ :=
            evaluate_success outcome
          have own : ∀ v, value = some v → v = result := by
            intro v isValue
            rw [captured] at isValue
            split at isValue
            · exact (Option.some.inj isValue).symm
            · cases isValue
          have kept := commit h s text args resolved unit env result _ ended isAllowed ih compiles
            finished value own
          rwa [committed] at kept
      | fault | cancelled | unfinished =>
          rwa [evaluate_session h s text args world (by rw [outcome]; rfl)]

end Session

end ScriptShell
