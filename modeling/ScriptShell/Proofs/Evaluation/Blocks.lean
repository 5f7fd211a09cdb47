import ScriptShell.Proofs.Evaluation.Ensures
import ScriptShell.Proofs.Syntax.Parts

/-! # What running a block keeps

Statements change nothing but the values of the names they declare. So whatever is kept when such a
name gets a value is kept by whole blocks, through all branches and rounds of loops, and what is
true of every evaluated expression is true of the value that a block ends with. `Execution.Keeps`
collects what has to be shown; **`Keeps.runBlock`** is the induction over blocks, made once. -/

namespace ScriptShell

namespace Execution

/-- What the statements among `parts` keep: `keeps` holds of the names, `fine` of all values that
come up, and `stop` of every reason to stop. -/
structure Keeps (s : Execution) (keeps : Environment → Prop) (fine : Value → Prop)
    (stop : Stop → Prop) (parts : List Stmt) : Prop where
  null : fine .null
  functions : ∀ {name params body span}, .define name params body span ∈ parts →
    fine (.func ⟨name, s.unit.id⟩)
  insert : ∀ {env v name}, Stmt.Declares parts name → keeps env → fine v →
    keeps (Dict.insert env name v)
  evals : ∀ {env} room {part e}, keeps env → part ∈ parts → part.evaluated? = some e →
    (s.eval env room {} e).Ensures fine stop
  levels : (tooManyLevels : Run (Environment × Value)).Ensures (fun _ => False) stop
  cancelled : stop .cancelled
  unfinished : stop .unfinished

variable {s : Execution} {keeps : Environment → Prop} {fine : Value → Prop} {stop : Stop → Prop}
  {env : Environment}

/-- Fewer statements keep no less. -/
theorem Keeps.mono {parts fewer : List Stmt} (rule : s.Keeps keeps fine stop parts)
    (le : ∀ part ∈ fewer, part ∈ parts) : s.Keeps keeps fine stop fewer where
  null := rule.null
  functions member := rule.functions (le _ member)
  insert := fun ⟨part, member, declares⟩ => rule.insert ⟨part, le part member, declares⟩
  evals room _ _ holds member own := rule.evals room holds (le _ member) own
  levels := rule.levels
  cancelled := rule.cancelled
  unfinished := rule.unfinished

/-- What is kept whenever a declared name gets a value is kept, whatever the values are and whatever
is evaluated for them. -/
theorem Keeps.of_insert {parts : List Stmt}
    (insert : ∀ {env v name}, Stmt.Declares parts name → keeps env →
      keeps (Dict.insert env name v)) :
    s.Keeps keeps (fun _ => True) (fun _ => True) parts where
  null := trivial
  functions _ := trivial
  insert declares holds _ := insert declares holds
  evals _ _ _ _ _ _ world := by split <;> trivial
  levels := .fail trivial
  cancelled := trivial
  unfinished := trivial

/-- One statement, given what the blocks in it keep. -/
theorem Keeps.execStep {stmt : Stmt} (rule : s.Keeps keeps fine stop stmt.parts) (rounds room : Nat)
    {block : Environment → List Stmt → Run Environment}
    (blocks : ∀ env body, keeps env → (∀ part ∈ Stmt.partsAll body, part ∈ stmt.parts) →
      (block env body).Ensures keeps stop) (holds : keeps env) :
    (s.execStep rounds (fun env => s.eval env room {}) block env stmt).Ensures
      (fun r => keeps r.1 ∧ fine r.2) stop := by
  have self : stmt ∈ stmt.parts := List.mem_cons_self
  -- Names change in declarations and assignments only; branches and loops hand the names to their
  -- blocks and take back what these leave.
  cases stmt with
  | load | use => exact .pure ⟨holds, rule.null⟩
  | define name =>
      exact .pure ⟨rule.insert ⟨_, self, rfl⟩ holds (rule.functions self), rule.null⟩
  | bind name value | assign name value =>
      refine .bind (rule.evals room holds self rfl) fun v isFine => ?_
      exact .pure ⟨rule.insert ⟨_, self, rfl⟩ holds isFine, rule.null⟩
  | branch test onTrue onFalse span =>
      refine .bind (rule.evals room holds self rfl) fun v _ => ?_
      cases onFalse with
      | none =>
          split
          · refine .bind (blocks env onTrue holds fun part inside => ?_) fun env' holds' => ?_
            · simp [Stmt.parts, Stmt.inner, inside]
            · exact .pure ⟨holds', rule.null⟩
          · exact .pure ⟨holds, rule.null⟩
      | some onFalse =>
          split
          · refine .bind (blocks env onTrue holds fun part inside => ?_) fun env' holds' => ?_
            · simp [Stmt.parts, Stmt.inner, inside]
            · exact .pure ⟨holds', rule.null⟩
          · refine .bind (blocks env onFalse holds fun part inside => ?_) fun env' holds' => ?_
            · simp [Stmt.parts, Stmt.inner, inside]
            · exact .pure ⟨holds', rule.null⟩
  | loop test body span =>
      have inside : ∀ part ∈ Stmt.partsAll body, part ∈ (Stmt.loop test body span).parts :=
        fun part inside => by simp [Stmt.parts, Stmt.inner, inside]
      have loops := repeatWhile_ensures rounds env rule.unfinished rule.cancelled
        (fun env holds => (rule.evals room holds self rfl).value_mono fun _ _ => trivial)
        (fun env holds => blocks env body holds inside) holds
      exact .bind loops fun env' holds' => .pure ⟨holds', rule.null⟩
  | eval e =>
      exact .bind (rule.evals room holds self rfl) fun v isFine => .pure ⟨holds, isFine⟩

/-- **What every statement keeps is kept by a block.** -/
theorem Keeps.runBlock {stmts : List Stmt} (rule : s.Keeps keeps fine stop (Stmt.partsAll stmts))
    (rounds room : Nat) (holds : keeps env) :
    (s.runBlock rounds room env stmts).Ensures (fun r => keeps r.1 ∧ fine r.2) stop := by
  -- The levels still to be opened carry the induction, since a block in a statement is one level
  -- below.
  induction room generalizing env stmts with
  | zero => exact rule.levels.value_mono fun _ => False.elim
  | succ room ih =>
      refine execAll_ensures stmts rule.cancelled (fun stmt member env holds => ?_) holds rule.null
      have inner : ∀ part ∈ stmt.parts, part ∈ Stmt.partsAll stmts :=
        fun part inside => Stmt.mem_partsAll.mpr ⟨stmt, member, inside⟩
      refine (rule.mono inner).execStep rounds room (fun env body holds inside => ?_) holds
      have below := ih (rule.mono fun part member => inner part (inside part member)) holds
      exact .bind below fun r holds => .pure holds.1

end Execution

end ScriptShell
