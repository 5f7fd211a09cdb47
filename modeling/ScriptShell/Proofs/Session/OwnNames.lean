import ScriptShell.Module.Standard
import ScriptShell.Proofs.Evaluation.Unbound
import ScriptShell.Proofs.Session.Step
import ScriptShell.Proofs.Syntax.Levels
import ScriptShell.Proofs.Typing.Names

/-! # Names that a fragment leaves alone

A fragment runs on the names of its session and may call functions of earlier fragments, which see
the same names. Even so it gives values and types to no other names than those that it declares
itself, at the top or in a block: **`evaluate_undeclared`**. The run and the checker are each shown
to leave a name alone (`Execution.runBlock_undeclared`, `Scope.get?_checkAll`). -/

namespace ScriptShell

/-! ## Values -/

/-- Statements leave the value of a name that none of them declares, whatever functions they call
and whatever calls they await. -/
theorem Execution.runBlock_undeclared (s : Execution) (rounds room : Nat) (env : Environment)
    {stmts : List Stmt} {name : String}
    (undeclared : ¬Stmt.Declares (Stmt.partsAll stmts) name) :
    (s.runBlock rounds room env stmts).Ensures
      (fun r => Dict.get? r.1 name = Dict.get? env name) fun _ => True := by
  have rule : s.Keeps (fun later => Dict.get? later name = Dict.get? env name)
      (fun _ => True) (fun _ => True) (Stmt.partsAll stmts) := by
    refine .of_insert fun {later v other} declares same => ?_
    have ne : name ≠ other := by
      rintro rfl
      exact undeclared declares
    rw [Dict.get?_insert_of_ne later ne, same]
  exact (rule.runBlock rounds room rfl).value_mono fun r holds => holds.1

/-! ## Types -/

namespace Scope

variable {name : String}

mutual

/-- Checking a statement leaves the type of a name that neither it nor a statement in it declares.
-/
theorem get?_check (s : Scope) (stmt : Stmt) (undeclared : ¬Stmt.Declares stmt.parts name) :
    (s.check stmt).bindings.get? name = s.bindings.get? name := by
  rw [Stmt.parts, Stmt.declares_cons, not_or] at undeclared
  have other : ∀ own : String, stmt.declared? = some own → name ≠ own := by
    rintro own declares rfl
    exact undeclared.1 declares
  cases stmt with
  | load | eval => rfl
  | use module span =>
      simp only [check]
      split <;> rfl
  | define own params body span =>
      simp only [check, checkFunction]
      rw [Dict.get?_insert_of_ne _ (other own rfl), Dict.get?_insert_of_ne _ (other own rfl)]
  | bind own value span | assign own value span =>
      simp only [check]
      rw [Dict.get?_insert_of_ne _ (other own rfl)]
  | branch test onTrue onFalse span =>
      cases onFalse with
      | none =>
          simp only [check]
          exact get?_checkAll s onTrue undeclared.2
      -- The second block is checked with the types that the first one leaves.
      | some onFalse =>
          rw [Stmt.inner, Stmt.declares_append, not_or] at undeclared
          simp only [check]
          rw [get?_checkAll _ onFalse undeclared.2.2, withBindings,
            get?_checkAll s onTrue undeclared.2.1]
  | loop test body span =>
      simp only [check]
      exact get?_checkAll s body undeclared.2

/-- Checking statements leaves the type of a name that is declared nowhere in them. -/
theorem get?_checkAll (s : Scope) (stmts : List Stmt)
    (undeclared : ¬Stmt.Declares (Stmt.partsAll stmts) name) :
    (s.checkAll stmts).bindings.get? name = s.bindings.get? name := by
  cases stmts with
  | nil => rfl
  | cons stmt rest =>
      rw [Stmt.partsAll, Stmt.declares_append, not_or] at undeclared
      simp only [checkAll]
      rw [get?_checkAll _ rest undeclared.2, withBindings, get?_check s stmt undeclared.1]

end

end Scope

/-! ## Evaluations -/

namespace Session

/-- **A fragment changes only the names that it declares.** After a fragment was committed, every
name that none of its statements declares at any depth has the value that it had, or still none, and
the type that it had, or still none; and every name that one of its top statements declares has both
a value and a type. -/
theorem evaluate_undeclared {h : Host} {s : Session} {text : String} {args : List String}
    {world : World} {value : Option Value} {loaded : List Reference}
    (success : (s.evaluate h text args world).outcome = .success value loaded) :
    let after := (s.evaluate h text args world).session
    ∃ stmts, parse text = .ok stmts ∧
      (∀ name, ¬Stmt.Declares (Stmt.partsAll stmts) name →
        Dict.get? after.env name = Dict.get? s.env name ∧
          (bindingsAfter after.newestUnit?).get? name = (bindingsAfter s.newestUnit?).get? name) ∧
      ∀ name, Stmt.Declares stmts name →
        (Dict.get? after.env name).isSome ∧
          ((bindingsAfter after.newestUnit?).get? name).isSome := by
  intro after
  obtain ⟨resolved, unit, env, result, ended, compiles, finished, -, committed⟩ :=
    evaluate_success success
  obtain ⟨stmts, parsed, -, isUnit⟩ := compile_ok compiles.compiles
  have isEnv : after.env = env := by
    rw [← env_commit s (incoming text resolved) unit env value, committed]
  have isBindings : bindingsAfter after.newestUnit? =
      ((h.catalog.scope (s.references.merge (incoming text resolved))
        (bindingsAfter s.newestUnit?)).checkAll stmts).bindings := by
    have newest := newestUnit?_commit s (incoming text resolved) unit env value
    rw [committed] at newest
    rw [show after.newestUnit? = some unit from newest, isUnit]
    rfl
  have isStatements : unit.program.statements = stmts := by rw [isUnit]
  rw [isEnv, isBindings]
  refine ⟨stmts, parsed, fun name undeclared => ⟨?_, ?_⟩, fun name declares => ⟨?_, ?_⟩⟩
  · rw [← isStatements] at undeclared
    exact (Execution.runBlock_undeclared _ h.rounds maxOpenLevels s.env undeclared).of_ok finished
  · exact Scope.get?_checkAll _ stmts undeclared
  · rw [Execution.run_eq] at finished
    refine ((Execution.execAll_declares h.rounds _ s.env _ .null).of_ok finished).2 name ?_
    rw [isStatements]
    exact declares
  · rw [Scope.isSome_checkAll, Stmt.declares_partsAll]
    exact .inr (.inl declares)

/-- A fragment with a loop and a branch that calls a function of the fragment before it, which reads
`step`, and awaits a call: `step` is as it was, and `count` is new. -/
theorem evaluate_undeclared_called :
    let h : Host := ⟨Catalog.standard, ⟨Resolver.ofCatalog Catalog.standard, []⟩, 5⟩
    let first := "#load \"time\"\nlet step = 2\nfn next(n) = await time.delay(1, n + step)"
    let second := "let count = 0\nwhile count < 2 \x7b if true \x7b count = next(count) \x7d \x7d"
    let s := (({} : Session).evaluate h first [] {}).session
    let e := s.evaluate h second [] {}
    e.outcome.isSuccess = true ∧ (Dict.get? s.env "step").isSome ∧
      (Dict.get? s.env "count").isSome = false ∧
      Dict.get? e.session.env "step" = Dict.get? s.env "step" ∧
      (bindingsAfter e.session.newestUnit?).get? "step" =
        (bindingsAfter s.newestUnit?).get? "step" ∧
      (Dict.get? e.session.env "count").isSome := by
  intro h first second s
  -- With the evaluation in its place the kernel compares it as it stands; a name for it would make
  -- the kernel run it.
  dsimp only
  have ran : (s.evaluate h second [] {}).outcome.isSuccess = true ∧
      (Dict.get? s.env "step").isSome ∧ (Dict.get? s.env "count").isSome = false := by
    decide +kernel
  have declared : (parse second).toOption.any (fun stmts =>
      (Stmt.partsAll stmts).all (·.declared? ≠ some "step") &&
        stmts.any (·.declared? = some "count")) = true := by decide +kernel
  obtain ⟨succeeds, hadStep, noCount⟩ := ran
  obtain ⟨value, loaded, success⟩ := Outcome.eq_success_of_isSuccess succeeds
  obtain ⟨stmts, parsed, undeclared, declares⟩ := evaluate_undeclared success
  obtain ⟨stmts', parsed', names⟩ := exists_parse_of_any declared
  obtain rfl : stmts = stmts' := Except.ok.inj (parsed.symm.trans parsed')
  obtain ⟨noStep, someCount⟩ := Bool.and_eq_true_iff.mp names
  have step := undeclared "step" (by
    rintro ⟨stmt, member, isStep⟩
    simpa [isStep] using List.all_eq_true.mp noStep stmt member)
  have count := declares "count" (by simpa [Stmt.Declares] using someCount)
  exact ⟨succeeds, hadStep, noCount, step.1, step.2, count.1⟩

end Session

end ScriptShell
