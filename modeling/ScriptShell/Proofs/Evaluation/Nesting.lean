import ScriptShell.Proofs.Evaluation.Stops
import ScriptShell.Proofs.Module.Standard

/-! # Fragments fit into the levels of a run

The parser refuses fragments that nest more than `nestingLimit` levels deep, and a run has
`maxOpenLevels` of them. The first limit keeps the second one away: **`run_shallow_of_parse`** says
that a run runs out of levels only by calling functions that scripts declare, since each of these
starts again with the levels of its own body. -/

namespace ScriptShell

/-- No native function fails with an error of this code. -/
def Catalog.NeverRaises (c : Catalog) (code : ErrorCode) : Prop :=
  ∀ {ref f args e}, c.native? ref = some f → (f.body args).result = .failure e → e.code ≠ code

/-- The functions of an honest catalog never claim that levels ran out. -/
theorem Catalog.Honest.neverRaises {c : Catalog} (honest : c.Honest) {code : ErrorCode}
    (scope : code.isScopeError = true) : c.NeverRaises code := by
  intro ref f args e native failed isCode
  have noScope := ((honest.functions native).fails failed).1
  rw [isCode, scope] at noScope
  cases noScope

/-- If the reason is an error, then of another kind than running out of levels. -/
def Stop.Shallow (stop : Stop) : Prop :=
  ∀ error, stop = .failed error → error.code ≠ .recursionLimit

namespace Execution

variable {s : Execution}

/-- Apart from levels, nothing in a run claims that levels ran out. -/
theorem admits_shallow (quiet : s.catalog.NeverRaises .recursionLimit) :
    s.Admits Stop.Shallow where
  cancelled _ failed := by cases failed
  broken _ failed := by cases failed
  failed _ shallow error failed := by cases failed; exact shallow
  natives known result error failed := by cases failed; exact quiet known result
  undefined name error failed := by cases failed; simp

/-- **Nesting is bounded before a run starts.** Along every way into an accepted fragment there are
at most `nestingLimit + 1` levels of blocks and expressions. So a run of it, from whatever names and
with whatever native functions, does not run out of levels if it opens the body of no declared
function. -/
theorem run_shallow_of_parse {text : String} {stmts : List Stmt} (parsed : parse text = .ok stmts) :
    Stmt.blockLevels stmts ≤ nestingLimit + 1 ∧
      ∀ (s : Execution), s.unit.program.statements = stmts →
        s.catalog.NeverRaises .recursionLimit → ∀ rounds env world,
        (∀ ref, .opens ref ∉ (s.tracedRun rounds env world).1) →
        ∀ error ended, s.run rounds env world = .error (.failed error) ended →
          error.code ≠ .recursionLimit := by
  have levels := blockLevels_le_of_parse parsed
  refine ⟨levels, fun s isUnit quiet rounds env world noCalls error ended failed => ?_⟩
  -- A run that failed did not give up on a loop, so it is derived, and without calls.
  have finished : Ending.Finished (s.run rounds env world) := by
    rw [failed]
    intro other
    simp
  have derived : s.Runs (fun _ => False) 0 env s.unit.program.statements world _ :=
    s.runs_tracedRun rounds env world noCalls fun _ => finished
  have fits :
      Fits Stop.Shallow (fun _ => False) 0 (Stmt.blockLevels s.unit.program.statements) := by
    refine .inr ⟨fun _ no => no, ?_⟩
    have limits : nestingLimit + 1 ≤ maxOpenLevels := by decide
    rw [isUnit]
    omega
  exact derived.stopsOnly (admits_shallow quiet) fits _ ended failed error rfl

/-- For instance, a loop whose body calls a native function of the standard modules, and which fails
in its second round: no body is opened, and the failure is another one. -/
theorem run_shallow_of_parse_nested :
    let text := "while true \x7b print([x]) if x \x7b x = null \x7d else \x7b x.y \x7d \x7d"
    let env : Environment := .ofList [("x", .bool true)]
    ∃ stmts, parse text = .ok stmts ∧
      ∃ s : Execution, s.unit.program.statements = stmts ∧ s.catalog = .standard ∧
        ∃ error ended, s.run 9 env {} = .error (.failed error) ended ∧
          ended.printed = "[true]\n[null]\n" ∧ error.code ≠ .recursionLimit := by
  -- The run prints twice, and then `null` has no member.
  let error : RunError := ⟨.propertyNotFound, "null has no property 'y'", []⟩
  let s : List Stmt → Execution := fun statements =>
    ⟨.standard, { (default : ScriptUnit) with
      program := { (default : Program) with statements, imports := ["core"] } }, []⟩
  intro text env
  have shape : (parse text).toOption.any (fun stmts =>
      ((s stmts).tracedRun 9 env {}).1.all (fun event => event.opened?.isNone) = true ∧
        Ending.stop? ((s stmts).run 9 env {}) = some (.failed error) ∧
        (Ending.world ((s stmts).run 9 env {})).printed = "[true]\n[null]\n") = true := by
    decide +kernel
  obtain ⟨stmts, parsed, shape⟩ := exists_parse_of_any shape
  obtain ⟨noCalls, failed, printed⟩ := of_decide_eq_true shape
  have noCalls : ∀ ref, .opens ref ∉ ((s stmts).tracedRun 9 env {}).1 := fun ref member => by
    cases List.all_eq_true.mp noCalls _ member
  refine ⟨stmts, parsed, s stmts, rfl, rfl, error, ?_⟩
  have shallow := (run_shallow_of_parse parsed).2 (s stmts) rfl
    (Catalog.standard_honest.neverRaises rfl) 9 env {} noCalls error
  cases ran : (s stmts).run 9 env {} with
  | ok result ended =>
      rw [ran] at failed
      cases failed
  | error stop ended =>
      rw [ran] at failed printed
      cases failed
      exact ⟨ended, rfl, printed, shallow ended ran⟩

end Execution

end ScriptShell
