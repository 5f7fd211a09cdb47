import ScriptShell.Module.Standard
import ScriptShell.Proofs.Evaluation.Stops
import ScriptShell.Proofs.Session.Step

/-! # Fragments without loops finish

By the rules of evaluation a function may call itself without end, and only the levels that are open
keep a derivation finite. They are enough: **`evaluate_finishes`** says that every fragment without
a loop has one derivation, whatever functions were declared before it, and that its evaluation ends
with a value, a runtime error or a cancellation, for which the bound on loops does not matter. -/

namespace ScriptShell

/-- The one ending that is derived; it gives up on no loop. -/
structure Ending.IsOnly {α : Type} (derives : Ending α → Prop) (ending : Ending α) : Prop where
  finished : ending.Finished
  only : ∀ other, derives other ↔ other = ending

namespace Execution

variable (s : Execution)

/-- Only loops are given up on. -/
theorem admits_finished : s.Admits (· ≠ .unfinished) where
  cancelled := by simp
  broken := by simp
  failed _ _ := by simp
  natives _ _ := by simp
  undefined _ := by simp [Stop.undefined]

/-- With every call allowed, levels always fit: to run out of them is not to give up on a loop. -/
theorem fits_finished (opened levels : Nat) :
    Fits (· ≠ .unfinished) (fun _ => True) opened levels :=
  .inl (by simp [Stop.tooDeep])

/-- **Every expression has one ending**, at every number of open levels: each level that is opened
leaves fewer to be opened below it. -/
theorem isOnly_eval {opened room : Nat} (levels : opened + room = maxOpenLevels)
    (env locals : Environment) (e : Expr) (world : World) :
    Ending.IsOnly (s.Evaluates (fun _ => True) opened env locals e world)
      (s.eval env room locals e world) := by
  have derived := s.evaluates_eval levels env locals e world
  refine ⟨fun ended stopped => ?_, fun other => ⟨fun derived => derived.eq_eval levels, ?_⟩⟩
  · exact derived.stopsOnly s.admits_finished (fits_finished _ _) _ ended stopped rfl
  · rintro rfl
    exact derived

/-- **Every block without loops has one ending**, for which the bound on loops does not matter. -/
theorem isOnly_run (straight : ¬Stmt.Loops s.unit.program.statements) (rounds : Nat)
    (env : Environment) (world : World) :
    Ending.IsOnly (s.Runs (fun _ => True) 0 env s.unit.program.statements world)
      (s.run rounds env world) := by
  have derived := s.runs_tracedRun rounds env world (fun _ _ => trivial)
    fun loops => absurd loops straight
  refine ⟨fun ended stopped => ?_, fun other => ⟨fun derived => ?_, ?_⟩⟩
  · exact derived.stopsOnly s.admits_finished (fits_finished _ _) _ ended stopped rfl
  · exact derived.eq_runBlock (Nat.zero_add _) straight rounds
  · rintro rfl
    exact derived

/-- The bound on loops does not matter to a run without loops. -/
theorem run_eq_run (straight : ¬Stmt.Loops s.unit.program.statements) (rounds other : Nat)
    (env : Environment) (world : World) : s.run rounds env world = s.run other env world :=
  have derived := ((s.isOnly_run straight rounds env world).only _).mpr rfl
  ((s.isOnly_run straight other env world).only _).mp derived

end Execution

/-- A run that did not give up on a loop ended, failed or was cancelled. -/
theorem Stop.outcome_of_ne_unfinished {stop : Stop} (finished : stop ≠ .unfinished) :
    (∃ error, stop.outcome = .fault (.runtime error)) ∨ stop.outcome = .cancelled := by
  cases stop with
  | cancelled => exact .inr rfl
  | failed error =>
      simp only [outcome]
      split
      · exact .inr rfl
      · exact .inl ⟨error, rfl⟩
  | broken => exact .inl ⟨_, rfl⟩
  | unfinished => exact absurd rfl finished

namespace Session

variable {h : Host} {s : Session} {text : String} {resolved : List Reference} {unit : ScriptUnit}

/-- What a fragment that compiles comes to, with any bound on loops: it is cancelled at one of two
looks at the token, or else its run decides. -/
theorem evaluate_of_compiles (compiles : s.Compiles h text resolved unit) (args : List String)
    (world : World) (rounds : Nat) :
    s.evaluate { h with rounds } text args world =
      let trail := (h.resolvers.resolveText s.references text).trail
      if world.token.look.1 then { outcome := .cancelled, session := s, world := world.looked }
      else if world.looked.token.look.1 then
        { outcome := .cancelled, session := s, world := world.looked.looked, trail }
      else
        let (outcome, session, world) :=
          s.runAndCommit { h with rounds } (incoming text resolved) unit text args
            world.looked.looked
        { outcome, session, world, trail } := by
  unfold evaluate
  dsimp only
  rw [compiles.resolves]
  dsimp only
  unfold compileAndRun
  dsimp only
  rw [compiles.compiles]
  dsimp only
  split
  · rfl
  · unfold World.looked
    dsimp only
    split
    · rfl
    · rfl

/-- A run that gave up on no loop is committed, is a runtime fault or was cancelled. -/
theorem runAndCommit_of_finished {incoming : References} {args : List String} {world : World}
    (finished : Ending.Finished
      ((⟨h.catalog, unit, args⟩ : Execution).run h.rounds s.env world)) :
    let outcome := (s.runAndCommit h incoming unit text args world).1
    (∃ value loaded, outcome = .success value loaded) ∨
      (∃ error, outcome = .fault (.runtime error)) ∨ outcome = .cancelled := by
  unfold runAndCommit
  dsimp only
  split
  · rename_i stop ended stopped
    refine .inr (Stop.outcome_of_ne_unfinished ?_)
    rintro rfl
    exact finished ended stopped
  · exact .inl ⟨_, _, rfl⟩

/-- **Fragments without loops finish.** Every expression has one ending at every number of open
levels. Where a compiled fragment has no loop, so has its run from any names, whatever its bound on
loops; and its evaluation ends with a value, a runtime error or a cancellation, the same for every
bound. -/
theorem evaluate_finishes (compiles : s.Compiles h text resolved unit)
    (straight : ¬Stmt.Loops unit.program.statements) (args : List String) :
    let x : Execution := ⟨h.catalog, unit, args⟩
    (∀ opened ≤ maxOpenLevels, ∀ env locals e world, ∃ ending,
      Ending.IsOnly (x.Evaluates (fun _ => True) opened env locals e world) ending) ∧
    (∀ env world, ∃ ending,
      Ending.IsOnly (x.Runs (fun _ => True) 0 env unit.program.statements world) ending ∧
        ∀ rounds, x.run rounds env world = ending) ∧
    ∀ world, let evaluation := s.evaluate h text args world
      ((∃ value loaded, evaluation.outcome = .success value loaded) ∨
        (∃ error, evaluation.outcome = .fault (.runtime error)) ∨
        evaluation.outcome = .cancelled) ∧
      ∀ rounds, s.evaluate { h with rounds } text args world = evaluation := by
  intro x
  refine ⟨?_, ?_, ?_⟩
  · intro opened within env locals e world
    have levels : opened + (maxOpenLevels - opened) = maxOpenLevels := Nat.add_sub_of_le within
    exact ⟨_, x.isOnly_eval levels env locals e world⟩
  · intro env world
    exact ⟨x.run 0 env world, x.isOnly_run straight 0 env world,
      fun rounds => x.run_eq_run straight rounds 0 env world⟩
  · intro world evaluation
    refine ⟨?_, fun rounds => ?_⟩
    · have finished := (x.isOnly_run straight h.rounds s.env world.looked.looked).finished
      have isEvaluation : evaluation = _ := evaluate_of_compiles compiles args world h.rounds
      rw [isEvaluation]
      dsimp only
      split
      · exact .inr (.inr rfl)
      · split
        · exact .inr (.inr rfl)
        · exact runAndCommit_of_finished finished
    · have same := x.run_eq_run straight rounds h.rounds s.env
      show _ = s.evaluate { h with rounds := h.rounds } text args world
      rw [evaluate_of_compiles compiles, evaluate_of_compiles compiles]
      unfold runAndCommit
      dsimp only
      rw [same]

/-- For instance, functions that the fragment before declared call each other and what they are
given, twice at each level and without end: the evaluation ends all the same. -/
theorem evaluate_finishes_runaway :
    let h : Host := ⟨Catalog.standard, ⟨Resolver.ofCatalog Catalog.standard, []⟩, 0⟩
    let s := (({} : Session).evaluate h "fn h(g) = g(g)\nfn f(g) = [h(g), g(g)]" [] {}).session
    ∃ resolved unit, s.Compiles h "f(f)" resolved unit ∧ ¬Stmt.Loops unit.program.statements ∧
      ∀ rounds world, (s.evaluate { h with rounds } "f(f)" [] world).outcome ≠ .unfinished := by
  intro h s
  have resolves : (h.resolvers.resolveText s.references "f(f)").result.toOption.any
      (·.isEmpty) = true := by decide +kernel
  obtain ⟨resolved, resolves, isEmpty⟩ := exists_ok_of_any resolves
  obtain rfl := List.isEmpty_iff.mp isEmpty
  have compiles : (compile h.catalog (s.references.merge (incoming "f(f)" [])) s.newestUnit?
      s.nextUnit "f(f)").toOption.any (fun unit => ¬Stmt.Loops unit.program.statements) = true := by
    decide +kernel
  obtain ⟨unit, compiles, straight⟩ := exists_ok_of_any compiles
  have straight := of_decide_eq_true straight
  have compiled : s.Compiles h "f(f)" [] unit := ⟨resolves, compiles⟩
  refine ⟨[], unit, compiled, straight, fun rounds world => ?_⟩
  obtain ⟨ended, same⟩ := (evaluate_finishes compiled straight []).2.2 world
  rw [same rounds]
  rintro unfinished
  rw [unfinished] at ended
  simp at ended

end Session

end ScriptShell
