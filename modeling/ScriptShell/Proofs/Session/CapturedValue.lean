import ScriptShell.Module.Standard
import ScriptShell.Proofs.Evaluation.Adequacy
import ScriptShell.Proofs.Evaluation.Alike
import ScriptShell.Proofs.Session.Step
import ScriptShell.Proofs.Typing.Names

/-! # The value of a fragment

Whether a committed fragment has a value is decided after its run: its text is read once more, and
the type of its tail is inferred once more, in the scope that the finished unit leaves. Both come to
what the compiler had, since nothing follows the tail and an expression declares nothing. The value
itself is what the run ended with, and that is the value of the tail. -/

namespace ScriptShell

/-- The tail of statements is the last one, if it is an expression without a semicolon. -/
theorem tailOf_eq_some_iff {stmts : List Stmt} {e : Expr} :
    tailOf stmts = some e ↔ ∃ before span, stmts = before ++ [.eval e false span] := by
  unfold tailOf
  constructor
  · intro isTail
    split at isTail
    · rename_i span last
      cases isTail
      obtain ⟨before, isLast⟩ := List.getLast?_eq_some_iff.mp last
      exact ⟨before, span, isLast⟩
    · cases isTail
  · rintro ⟨before, span, rfl⟩
    rw [List.getLast?_concat]

namespace Scope

/-- An expression at the end declares nothing. -/
theorem bindings_checkAll_eval (s : Scope) (before : List Stmt) (e : Expr) (terminated : Bool)
    (span : Span) :
    (s.checkAll (before ++ [.eval e terminated span])).bindings = (s.checkAll before).bindings := by
  rw [bindings_checkAll_append]
  rfl

end Scope

namespace Execution

/-- Statements with an expression at the end: the value is that of the expression, where the names
are those that the statements before it leave. -/
theorem runBlock_eval {s : Execution} {rounds room : Nat} {env after : Environment}
    {before : List Stmt} {e : Expr} {terminated : Bool} {span : Span} {world ended : World}
    {v : Value}
    (ran : s.runBlock rounds (room + 1) env (before ++ [.eval e terminated span]) world =
      .ok (after, v) ended) :
    ∃ last paused started,
      s.runBlock rounds (room + 1) env before world = .ok (after, last) paused ∧
      Run.checkpoint paused = .ok () started ∧ s.eval after room {} e started = .ok v ended := by
  rw [runBlock_append s rounds room env before (by simp)] at ran
  obtain ⟨⟨names, last⟩, paused, first, ran⟩ := Run.of_bind_ok ran
  obtain ⟨⟨⟩, started, looks, ran⟩ := Run.of_bind_ok ran
  obtain ⟨result, done, tail, ran⟩ := Run.of_bind_ok ran
  obtain ⟨value, evaluated, isValue, isResult⟩ := Run.of_bind_ok tail
  cases isResult
  cases ran
  exact ⟨last, paused, started, first, looks, isValue⟩

end Execution

namespace Session

/-- The scope in which the compiler comes to the end of some statements of a session's next
fragment. -/
def scopeAfter (h : Host) (s : Session) (text : String) (resolved : List Reference)
    (before : List Stmt) : Scope :=
  let scope := h.catalog.scope (s.references.merge (incoming text resolved))
    (bindingsAfter s.newestUnit?)
  scope.withBindings (scope.checkAll before).bindings

/-- The scope that a unit leaves is the one in which the compiler came to its tail. -/
theorem Compiles.scope_eq {h : Host} {s : Session} {text : String} {resolved : List Reference}
    {unit : ScriptUnit} (compiles : s.Compiles h text resolved unit) {before : List Stmt} {e : Expr}
    {span : Span} (parsed : parse text = .ok (before ++ [.eval e false span])) :
    unit.program.scope h.catalog = s.scopeAfter h text resolved before := by
  obtain ⟨stmts, same, -, rfl⟩ := compile_ok compiles.compiles
  cases parsed.symm.trans same
  simp only [Program.scope, Scope.bindings_checkAll_eval]
  rfl

/-- Whether a unit captures a value, by the scope in which the compiler came to the tail. -/
theorem Compiles.capturesValue_iff {h : Host} {s : Session} {text : String}
    {resolved : List Reference} {unit : ScriptUnit} (compiles : s.Compiles h text resolved unit)
    {stmts : List Stmt} (parsed : parse text = .ok stmts) :
    capturesValue h.catalog unit text = true ↔
      ∃ before e span, stmts = before ++ [.eval e false span] ∧
        ((s.scopeAfter h text resolved before).infer e).type.isVoid = false := by
  have final : finalExpression text = tailOf stmts := by
    rw [finalExpression, parsed]
    rfl
  unfold capturesValue
  rw [final]
  cases isTail : tailOf stmts with
  | none =>
      refine iff_of_false (by simp) ?_
      rintro ⟨before, e, span, isLast, -⟩
      cases isTail.symm.trans (tailOf_eq_some_iff.mpr ⟨before, span, isLast⟩)
  | some e =>
      obtain ⟨before, span, rfl⟩ := tailOf_eq_some_iff.mp isTail
      simp only [compiles.scope_eq parsed, Bool.not_eq_true']
      constructor
      · intro valued
        exact ⟨before, e, span, rfl, valued⟩
      · rintro ⟨before', e', span', same, valued⟩
        obtain ⟨rfl, last⟩ := List.append_inj' same rfl
        cases last
        exact valued

/-- **The value of a committed fragment.** It has one exactly if its last statement is an expression
without a semicolon to which the compiler gave a type other than void, and this is the value of that
expression where the statements before it end. The unit gives the expression the same type after it
was compiled. -/
theorem evaluate_captured {h : Host} {s : Session} {text : String} {args : List String}
    {world : World} {value : Option Value} {loaded : List Reference}
    (success : (s.evaluate h text args world).outcome = .success value loaded) :
    ∃ resolved unit stmts, s.Compiles h text resolved unit ∧ parse text = .ok stmts ∧
      (value.isSome = true ↔ ∃ before e span, stmts = before ++ [.eval e false span] ∧
        ((s.scopeAfter h text resolved before).infer e).type.isVoid = false) ∧
      ∀ before e span, stmts = before ++ [.eval e false span] →
        (unit.program.scope h.catalog).infer e = (s.scopeAfter h text resolved before).infer e ∧
        ∀ v, value = some v → ∃ env last paused started ended,
          (⟨h.catalog, unit, args⟩ : Execution).runBlock h.rounds maxOpenLevels s.env before
            world.looked.looked = .ok (env, last) paused ∧
          Run.checkpoint paused = .ok () started ∧
          (⟨h.catalog, unit, args⟩ : Execution).eval env (maxOpenLevels - 1) {} e started =
            .ok v ended := by
  obtain ⟨resolved, unit, env, result, ended, compiles, finished, rfl, -⟩ :=
    evaluate_success success
  obtain ⟨stmts, parsed, -, isUnit⟩ := compile_ok compiles.compiles
  have captures := compiles.capturesValue_iff parsed
  refine ⟨resolved, unit, stmts, compiles, parsed, ?_, ?_⟩
  · rw [← captures]
    cases capturesValue h.catalog unit text <;> simp
  · rintro before e span rfl
    refine ⟨by rw [compiles.scope_eq parsed], fun v captured => ?_⟩
    split at captured
    · cases captured
      have statements : unit.program.statements = before ++ [.eval e false span] := by rw [isUnit]
      rw [Execution.run, statements] at finished
      obtain ⟨last, paused, started, first, looks, isValue⟩ := Execution.runBlock_eval finished
      exact ⟨env, last, paused, started, ended, first, looks, isValue⟩
    · cases captured

/-- Null is a value: a name that holds it is captured, after a statement that has none. -/
theorem evaluate_captured_null :
    let h : Host := ⟨Catalog.standard, ⟨Resolver.ofCatalog Catalog.standard, []⟩, 0⟩
    let text := "let x = null\nprint(x)\nx"
    ∃ loaded resolved unit before e span env last paused started ended,
      (({} : Session).evaluate h text [] {}).outcome = .success (some .null) loaded ∧
      parse text = .ok (before ++ [.eval e false span]) ∧
      ((({} : Session).scopeAfter h text resolved before).infer e).type.isVoid = false ∧
      (⟨h.catalog, unit, []⟩ : Execution).runBlock h.rounds maxOpenLevels {} before {} =
        .ok (env, last) paused ∧
      Run.checkpoint paused = .ok () started ∧
      (⟨h.catalog, unit, []⟩ : Execution).eval env (maxOpenLevels - 1) {} e started =
        .ok .null ended := by
  intro h text
  have checked :
      (({} : Session).evaluate h text [] {}).outcome.value?.any (·.same .null) = true := by
    decide +kernel
  obtain ⟨v, isValue, isNull⟩ := (Option.any_eq_true _ _).mp checked
  have isNull : v = .null := by
    cases v with
    | null => rfl
    | _ => cases isNull
  subst isNull
  obtain ⟨loaded, success⟩ := Outcome.eq_success_of_value? isValue
  obtain ⟨resolved, unit, stmts, -, parsed, captures, tail⟩ := evaluate_captured success
  obtain ⟨before, e, span, rfl, valued⟩ := captures.mp rfl
  obtain ⟨-, values⟩ := tail before e span rfl
  obtain ⟨env, last, paused, started, ended, first, looks, isValue⟩ := values .null rfl
  exact ⟨loaded, resolved, unit, before, e, span, env, last, paused, started, ended, success,
    parsed, valued, first, looks, isValue⟩

end Session

end ScriptShell
