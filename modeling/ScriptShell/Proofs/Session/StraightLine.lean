import ScriptShell.Proofs.Module.Closure
import ScriptShell.Proofs.Module.Standard
import ScriptShell.Proofs.Session.Step
import ScriptShell.Proofs.Syntax.Levels
import ScriptShell.Proofs.Typing.Soundness

/-! # Types are kept along straight-line sessions

A fragment without functions, branches and loops runs each of its statements once and in order, as
the checker follows them. So what the checker says of names after a fragment is true of the values
they have: **`execStep_fits`** for one statement, **`execAll_fits`** for a fragment, and by
induction over the commits of a session for every session that such fragments lead to. -/

namespace ScriptShell

/-! ## Straight-line fragments -/

/-- A statement that runs once and in order, and declares no function. -/
def Stmt.isStraight : Stmt → Bool
  | .load .. | .use .. | .bind .. | .assign .. | .eval .. => true
  | .define .. | .branch .. | .loop .. => false

/-- A text that parses to straight-line statements. -/
def isStraightText (text : String) : Bool :=
  match parse text with
  | .ok stmts => stmts.all Stmt.isStraight
  | .error _ => false

/-- All committed fragments of a session are straight-line. -/
def Session.isStraight (s : Session) : Bool :=
  s.history.all fun commit => commit.unit.program.statements.all Stmt.isStraight

namespace Scope

/-- Checking a statement gives the type `any` to a part of its expression. -/
def LooseStmt (s : Scope) (stmt : Stmt) : Prop :=
  ∃ e, stmt.expression? = some e ∧ s.Loose e

/-- Checking statements one after the other gives the type `any` to a part of an expression of one
of them. -/
def LooseIn (s : Scope) : List Stmt → Prop
  | [] => False
  | stmt :: rest => s.LooseStmt stmt ∨ LooseIn (s.withBindings (s.check stmt).bindings) rest

end Scope

/-! ## Running straight-line statements -/

namespace Execution

variable {s : Execution} {bindings : Dict Ty} {env : Environment} {room : Nat}

/-- A straight-line statement without problems: the names fit the types that checking the statement
gives them, and the value of an expression has its type. -/
theorem execStep_fits (honest : s.catalog.Honest) (closed : s.Closed (Value.Known s.catalog))
    (fits : env.Fits s.catalog bindings) (known : env.All (Value.Known s.catalog)) {stmt : Stmt}
    (straight : stmt.isStraight = true)
    (levels : ∀ e, stmt.expression? = some e → e.levels ≤ room)
    (clean : ((s.scope bindings).check stmt).problems = []) (rounds : Nat)
    (block : Environment → List Stmt → Run Environment) :
    (s.execStep rounds (fun env => s.eval env room {}) block env stmt).Ensures
      (fun r => r.1.Fits s.catalog ((s.scope bindings).check stmt).bindings ∧
        r.1.All (Value.Known s.catalog) ∧
        ∀ e terminated span, stmt = .eval e terminated span →
          r.2.Inhabits s.catalog ((s.scope bindings).infer e).type)
      (Stop.Excused ((s.scope bindings).LooseStmt stmt)) := by
  -- Every kind of statement evaluates at most one expression, so its soundness is used once.
  have evaluated : ∀ e, stmt.expression? = some e →
      ((s.scope bindings).infer e).problems = [] → (s.eval env room {} e).Ensures
        (fun v => v.Inhabits s.catalog ((s.scope bindings).infer e).type ∧
          v.All (Value.Known s.catalog))
        (Stop.Excused ((s.scope bindings).LooseStmt stmt)) := by
    intro e own clean
    have loosened : (s.scope bindings).Loose e → (s.scope bindings).LooseStmt stmt :=
      fun loose => ⟨e, own, loose⟩
    have typed := (eval_inhabits honest closed fits known (levels e own) clean).stop_mono
      fun stop excused => excused.mono loosened
    exact typed.and (eval_all closed known room Environment.all_empty e)
  cases stmt with
  | load target span => exact .pure ⟨fits, known, fun _ _ _ same => by cases same⟩
  | use module span =>
      have same : ((s.scope bindings).check (.use module span)).bindings = bindings := by
        simp only [Scope.check]
        split <;> rfl
      rw [same]
      exact .pure ⟨fits, known, fun _ _ _ same => by cases same⟩
  | bind name value span =>
      simp only [Scope.check] at clean ⊢
      have same := Scope.typeToBind_clean clean
      rw [same] at clean ⊢
      refine .bind (evaluated value rfl clean) fun v holds => ?_
      exact .pure ⟨fits.insert holds.1 name, known.insert holds.2 name,
        fun _ _ _ same => by cases same⟩
  | assign name value span =>
      simp only [Scope.check] at clean ⊢
      have same := Scope.typeToBind_clean clean
      rw [same] at clean ⊢
      refine .bind (evaluated value rfl clean) fun v holds => ?_
      -- The new type of the name is the join of its old one with the value's.
      have assigned : v.Inhabits s.catalog
          (Scope.assignedType bindings name ((s.scope bindings).infer value).type) := by
        unfold Scope.assignedType
        split
        · exact holds.1.join_right _
        · exact holds.1
      exact .pure ⟨fits.insert assigned name, known.insert holds.2 name,
        fun _ _ _ same => by cases same⟩
  | eval e terminated span =>
      simp only [Scope.check] at clean ⊢
      refine .bind (evaluated e rfl clean) fun v holds => .pure ⟨fits, known, ?_⟩
      intro e' terminated' span' same
      cases same
      exact holds.1
  | define | branch | loop => cases straight

/-- Straight-line statements without problems: the names fit the types after them, and if they end
with an expression, the value has its type. -/
theorem execAll_fits (honest : s.catalog.Honest) (closed : s.Closed (Value.Known s.catalog))
    (fits : env.Fits s.catalog bindings) (known : env.All (Value.Known s.catalog))
    {stmts : List Stmt} (straight : ∀ stmt ∈ stmts, stmt.isStraight = true)
    (levels : ∀ stmt ∈ stmts, ∀ e, stmt.expression? = some e → e.levels ≤ room)
    (clean : ((s.scope bindings).checkAll stmts).problems = []) (rounds : Nat)
    (block : Environment → List Stmt → Run Environment) (last : Value) :
    (execAll (s.execStep rounds (fun env => s.eval env room {}) block) last env stmts).Ensures
      (fun r => r.1.Fits s.catalog ((s.scope bindings).checkAll stmts).bindings ∧
        r.1.All (Value.Known s.catalog) ∧
        ∀ tail, tailOf stmts = some tail → r.2.Inhabits s.catalog
          ((s.scope ((s.scope bindings).checkAll stmts).bindings).infer tail).type)
      (Stop.Excused ((s.scope bindings).LooseIn stmts)) := by
  -- The types before a statement are those that checking the statements before it left.
  induction stmts generalizing bindings env last with
  | nil => exact .pure ⟨fits, known, fun tail none => by cases none⟩
  | cons stmt rest ih =>
      simp only [Scope.checkAll, List.append_eq_nil_iff] at clean ⊢
      refine .bind (.checkpoint trivial) fun _ _ => ?_
      have step := execStep_fits honest closed fits known (straight stmt (by simp))
        (levels stmt (by simp)) clean.1 rounds block
      refine .bind (step.stop_mono fun stop excused => excused.mono .inl) fun r holds => ?_
      cases rest with
      -- The last statement: only an expression without a semicolon is a tail.
      | nil =>
          refine .pure ⟨holds.1, holds.2.1, fun tail isTail => ?_⟩
          unfold tailOf at isTail
          split at isTail
          · rename_i e span isLast
            cases isTail
            simp only [List.getLast?_singleton, Option.some.injEq] at isLast
            subst isLast
            exact holds.2.2 tail false span rfl
          · cases isTail
      | cons second others =>
          have later := ih holds.1 holds.2.1 (fun stmt member => straight stmt (by simp [member]))
            (fun stmt member => levels stmt (by simp [member])) clean.2 r.2
          refine later.mono (fun r' holds' => ⟨holds'.1, holds'.2.1, fun tail isTail => ?_⟩)
            fun stop excused => excused.mono .inr
          exact holds'.2.2 tail (by rwa [tailOf, List.getLast?_cons_cons] at isTail)

end Execution

/-! ## Sessions of straight-line fragments -/

namespace Session

/-- What holds before each fragment of a straight-line session: the names fit the types that the
newest unit gives them, and their values are known. -/
structure IsTyped (c : Catalog) (s : Session) : Prop where
  fits : s.env.Fits c (bindingsAfter s.newestUnit?)
  known : s.env.All (Value.Known c)

/-- The run of a straight-line fragment: its names fit the types of its unit, its value has the type
of its tail, and it stops for the shape of a value only where the checker knew nothing. -/
theorem run_fits {h : Host} (honest : h.catalog.Honest) {s : Session} (typed : s.IsTyped h.catalog)
    {text : String} {resolved : List Reference} {unit : ScriptUnit}
    (compiles : s.Compiles h text resolved unit)
    (straight : ∀ stmt ∈ unit.program.statements, stmt.isStraight = true) (args : List String) :
    ((⟨h.catalog, unit, args⟩ : Execution).run h.rounds s.env).Ensures
      (fun r => r.1.Fits h.catalog unit.program.bindings ∧ r.1.All (Value.Known h.catalog) ∧
        ∀ tail, tailOf unit.program.statements = some tail →
          r.2.Inhabits h.catalog ((unit.program.scope h.catalog).infer tail).type)
      (Stop.Excused (((unit.program.scope h.catalog).withBindings
        (bindingsAfter s.newestUnit?)).LooseIn unit.program.statements)) := by
  obtain ⟨stmts, parsed, clean, isUnit⟩ := compile_ok compiles.compiles
  -- What evaluation finds by name is known, since modules stand in the catalog.
  have modules : ∀ name ∈ unit.program.modules, ∃ m, h.catalog.get? name = some m := by
    rw [isUnit]
    exact fun name member => Catalog.get?_of_mem_usable honest.prelude member
  have closed : (⟨h.catalog, unit, args⟩ : Execution).Closed (Value.Known h.catalog) :=
    Execution.closed_known honest modules
  subst isUnit
  -- A parsed expression is never deeper than the evaluator can go.
  refine Execution.execAll_fits honest closed typed.fits typed.known straight
    (fun stmt member e own => ?_) clean h.rounds _ .null
  exact Nat.le_trans (levels_le_of_parse parsed member own) (by decide)

/-- The unit of a straight-line text has straight-line statements. -/
theorem isStraight_of_compiles {h : Host} {s : Session} {text : String} {resolved : List Reference}
    {unit : ScriptUnit} (fragment : isStraightText text = true)
    (compiles : s.Compiles h text resolved unit) :
    ∀ stmt ∈ unit.program.statements, stmt.isStraight = true := by
  obtain ⟨stmts, parsed, -, isUnit⟩ := compile_ok compiles.compiles
  unfold isStraightText at fragment
  rw [parsed] at fragment
  rw [isUnit]
  exact List.all_eq_true.mp fragment

/-- Every session that straight-line fragments lead to is typed. -/
theorem isTyped_of_reachable {h : Host} (honest : h.catalog.Honest) {s : Session}
    (reachable : Reachable h s) (straight : s.isStraight = true) : s.IsTyped h.catalog := by
  -- Along the commits: a session is straight only if the one before the commit was.
  revert straight
  refine @Reachable.induction h (fun s => s.isStraight = true → s.IsTyped h.catalog) ?_ ?_ s
    reachable
  · intro _
    exact ⟨.empty, Environment.all_empty⟩
  · intro s text args resolved unit env result started ended _ before compiles ran value straight
    rw [isStraight, history_commit, List.all_cons, Bool.and_eq_true] at straight
    have after := (run_fits honest (before straight.2) compiles
      (List.all_eq_true.mp straight.1) args).of_ok ran
    exact ⟨after.1, after.2.1⟩

/-- **Types are kept along straight-line sessions.** Over the standard catalog, in a session of
straight-line fragments and for one more of them: if it succeeds, then the names are exactly those
of the new unit and hold values of their types, and a captured value has the type of the tail. If it
stops with an error, then not for a name, function or level that is not there, and for the shape of
a value only if the checker gave the type `any` to a part of an expression. -/
theorem evaluate_straight {h : Host} (standard : h.catalog = Catalog.standard) {s : Session}
    (reachable : Reachable h s) (committed : s.isStraight = true) {text : String}
    (fragment : isStraightText text = true) (args : List String) (world : World) :
    (∀ value loaded, (s.evaluate h text args world).outcome = .success value loaded →
      ∃ unit, (s.evaluate h text args world).session.newestUnit? = some unit ∧
        (s.evaluate h text args world).session.env.Fits h.catalog unit.program.bindings ∧
        ∀ v, value = some v → ∃ tail, finalExpression text = some tail ∧
          v.Inhabits h.catalog ((unit.program.scope h.catalog).infer tail).type) ∧
    (∀ error, (s.evaluate h text args world).outcome = .fault (.runtime error) →
      error.code ∉ [.undefinedVariable, .unknownFunction, .recursionLimit] ∧
      (error.code ∈ [.typeError, .propertyNotFound, .wrongArgCount] →
        ∃ resolved unit, s.Compiles h text resolved unit ∧
          ((unit.program.scope h.catalog).withBindings
            (bindingsAfter s.newestUnit?)).LooseIn unit.program.statements)) := by
  have honest : h.catalog.Honest := standard ▸ Catalog.standard_honest
  have typed := isTyped_of_reachable honest reachable committed
  constructor
  · intro value loaded success
    obtain ⟨resolved, unit, env, result, ended, compiles, ran, captured, committed⟩ :=
      evaluate_success success
    have after := (run_fits honest typed compiles
      (isStraight_of_compiles fragment compiles) args).of_ok ran
    have session : (s.evaluate h text args world).session =
        (s.commit (incoming text resolved) unit env value).1 := by rw [committed]
    rw [session, newestUnit?_commit, env_commit]
    refine ⟨unit, rfl, after.1, fun v isValue => ?_⟩
    obtain ⟨stmts, parsed, -, isUnit⟩ := compile_ok compiles.compiles
    have final : finalExpression text = tailOf unit.program.statements := by
      rw [finalExpression, parsed, isUnit]
      rfl
    -- A value is captured for a tail only, and the run's value has the tail's type.
    subst isValue
    split at captured
    · rename_i captures
      cases captured
      unfold capturesValue at captures
      split at captures
      · cases captures
      · rename_i tail isTail
        exact ⟨tail, isTail, after.2.2 tail (final ▸ isTail)⟩
    · cases captured
  · intro error fault
    obtain ⟨resolved, unit, ended, compiles, stopped⟩ := evaluate_runtimeFault fault
    -- Running out of rounds is no error of the two kinds.
    rcases stopped with stopped | rfl
    · have excused : error.Excused _ :=
        (run_fits honest typed compiles
          (isStraight_of_compiles fragment compiles) args).of_error stopped
      constructor
      · intro isScope
        have no := excused.1
        simp only [List.mem_cons, List.not_mem_nil, or_false] at isScope
        rcases isScope with same | same | same <;> simp [same, ErrorCode.isScopeError] at no
      · intro isShape
        refine ⟨resolved, unit, compiles, excused.2 ?_⟩
        simp only [List.mem_cons, List.not_mem_nil, or_false] at isShape
        rcases isShape with same | same | same <;> simp [same, ErrorCode.isShapeError]
    · exact ⟨by decide, fun isShape => absurd isShape (by decide)⟩

/-- A session that has started an asynchronous call and now collects it twice: the list of futures
that the fragment ends with has the type of its tail. -/
theorem evaluate_straight_futures :
    let h : Host := ⟨Catalog.standard, ⟨Resolver.ofCatalog Catalog.standard, []⟩, 0⟩
    let first := "#load \"time\"\nlet task = time.delay(1, \"a\")"
    let s := (({} : Session).evaluate h first [] {}).session
    let next := s.evaluate h "let all = [task]\nall + [task]" [] {}
    s.isStraight = true ∧ isStraightText "let all = [task]\nall + [task]" = true ∧
      ∃ v loaded unit tail, next.outcome = .success (some v) loaded ∧
        next.session.newestUnit? = some unit ∧
        next.session.env.Fits h.catalog unit.program.bindings ∧
        v.Inhabits h.catalog ((unit.program.scope h.catalog).infer tail).type := by
  intro h first s
  -- The evaluation stays in its place: a name for it would make the kernel run it.
  dsimp only
  have straight : s.isStraight = true := by decide +kernel
  have fragment : isStraightText "let all = [task]\nall + [task]" = true := by decide +kernel
  have captured : (s.evaluate h "let all = [task]\nall + [task]" [] {}).outcome.value?.isSome =
      true := by decide +kernel
  have typed := evaluate_straight rfl (.evaluate .new _ _ _) straight fragment [] {}
  obtain ⟨v, isValue⟩ := Option.isSome_iff_exists.mp captured
  obtain ⟨loaded, success⟩ := Outcome.eq_success_of_value? isValue
  obtain ⟨unit, newest, fits, values⟩ := typed.1 (some v) loaded success
  obtain ⟨tail, -, inhabits⟩ := values v rfl
  exact ⟨straight, fragment, v, loaded, unit, tail, success, newest, fits, inhabits⟩

end Session

end ScriptShell
