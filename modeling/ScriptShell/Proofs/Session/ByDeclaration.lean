import Mathlib.Data.List.Pairwise
import ScriptShell.Module.Standard
import ScriptShell.Proofs.Evaluation.ByDeclaration
import ScriptShell.Proofs.Session.Chain
import ScriptShell.Proofs.Session.FailedCalls

/-! # Which declaration a function runs

A session refers to functions by name and unit. This file sets a second session beside it, whose
names hold functions with their declarations and whose runs look nothing up
(`ByDeclaration.answerAll`), and asks which declarations make the two the same.

* The last one of its name in the fragment (`Carry.last`), always: wherever a function value is kept
  and whatever later fragments declare, a call runs the last declaration, in the text of the
  fragment that made the value.
* The one whose execution made the value (`Carry.own`), if a fragment has no two declarations of one
  name that say different things (`Unambiguous`). Without this the two differ
  (**`answer_own_branches`**): of two declarations in the branches of a condition the second one is
  called, whichever was run.

Both are in **`answerAll_byDeclaration`**. -/

namespace ScriptShell

/-! ## Ambiguous names -/

/-- Any two declarations of one name, anywhere in some statements, say the same, up to where they
stand. -/
def Unambiguous (stmts : List Stmt) : Prop :=
  ∀ name, ∀ first ∈ Stmt.partsAll stmts, ∀ second ∈ Stmt.partsAll stmts, ∀ decl other,
    first.declarationOf? name = some decl → second.declarationOf? name = some other →
      decl.bare = other.bare

/-- The name of the function that a statement declares. -/
def Stmt.functionName? : Stmt → Option String
  | .define name _ _ _ => some name
  | .load .. | .use .. | .bind .. | .assign .. | .branch .. | .loop .. | .eval .. => none

/-- A statement that declares a name has it as its name. -/
theorem Stmt.functionName?_of_declarationOf? {stmt : Stmt} {name : String} {decl : FunctionDecl}
    (declares : stmt.declarationOf? name = some decl) : stmt.functionName? = some name := by
  cases stmt with
  | define other params body span =>
      rw [declarationOf?] at declares
      split at declares
      · rename_i same
        rw [functionName?, same]
      · cases declares
  | load | use | bind | assign | branch | loop | eval => cases declares

/-- Statements that declare no function twice. -/
theorem unambiguous_of_nodup {stmts : List Stmt}
    (distinct : ((Stmt.partsAll stmts).filterMap Stmt.functionName?).Nodup) :
    Unambiguous stmts := by
  intro name first isFirst second isSecond decl other declares declares'
  have named := Stmt.functionName?_of_declarationOf? declares
  have named' := Stmt.functionName?_of_declarationOf? declares'
  have same : first = second := by
    by_contra differ
    have apart := List.pairwise_filterMap.mp distinct
    have : Std.Symm fun a b : Stmt => ∀ x, a.functionName? = some x →
        ∀ y, b.functionName? = some y → x ≠ y :=
      ⟨fun _ _ apart x isX y isY => (apart y isY x isX).symm⟩
    exact apart.forall isFirst isSecond differ name named name named' rfl
  rw [same, declares'] at declares
  cases declares
  rfl

namespace ByDeclaration

/-! ## Which declaration is carried -/

/-- Which declaration a function carries, given the statements of its fragment, its name, and what
the statement says that is run. -/
abbrev Carry := List Stmt → String → FunctionDecl → FunctionDecl

namespace Carry

/-- The declaration of the statement that is run. -/
def own : Carry := fun _ _ decl => decl

/-- The last declaration of that name in the text of the fragment. -/
def last : Carry := fun stmts name decl =>
  (lastDeclaration? (Stmt.partsAll stmts) name).getD decl

/-- What functions carry is what units keep, up to where it stands. -/
def Follows (carry : Carry) (stmts : List Stmt) : Prop :=
  ∀ name params body span, .define name params body span ∈ Stmt.partsAll stmts →
    ∃ kept, (declaredFunctions stmts).get? name = some kept ∧
      kept.bare = (carry stmts name ⟨params, body⟩).bare

/-- To carry the last declaration of a name follows the statements. -/
theorem follows_last (stmts : List Stmt) : last.Follows stmts := by
  intro name params body span member
  obtain ⟨kept, found⟩ := Option.isSome_iff_exists.mp (isSome_get?_declaredFunctions member)
  refine ⟨kept, found, ?_⟩
  rw [get?_declaredFunctions] at found
  rw [last, found]
  rfl

/-- To carry the own declaration follows statements that say one thing of every name. -/
theorem follows_own {stmts : List Stmt} (unambiguous : Unambiguous stmts) :
    own.Follows stmts := by
  intro name params body span member
  obtain ⟨kept, found⟩ := Option.isSome_iff_exists.mp (isSome_get?_declaredFunctions member)
  refine ⟨kept, found, ?_⟩
  obtain ⟨span', member'⟩ := define_mem_of_declaredFunctions found
  exact unambiguous name _ member' _ member kept ⟨params, body⟩ (if_pos rfl) (if_pos rfl)

end Carry

/-! ## Sessions -/

/-- A session whose names hold functions with declarations. -/
structure DeclSession where
  session : Session := {}
  env : DeclEnvironment := {}

/-- Runs a compiled fragment by declaration and commits it if the run ends. -/
def runAndCommit (carry : Carry) (h : Host) (s : DeclSession) (incoming : References)
    (unit : ScriptUnit) (text : String) (args : List String) (world : World) :
    Outcome × DeclSession × World :=
  match run ⟨h.catalog, unit, args⟩ (carry unit.program.statements) h.rounds s.env world with
  | .error stop world => (stop.outcome, s, world)
  | .ok (env, value) world =>
    let value := if capturesValue h.catalog unit text then some value.forget else none
    let (session, loaded) := s.session.commit incoming unit env.forget value
    (.success value loaded, ⟨session, env⟩, world)

/-- Compiles a resolved fragment and runs it unless it was cancelled meanwhile. -/
def compileAndRun (carry : Carry) (h : Host) (s : DeclSession) (text : String) (args : List String)
    (resolved : List Reference) (world : World) : Outcome × DeclSession × World :=
  let incoming := Session.incoming text resolved
  match compile h.catalog (s.session.references.merge incoming) s.session.newestUnit?
      s.session.nextUnit text with
  | .error problems => (.fault (.compile problems), s, world)
  | .ok unit =>
    let (fired, token) := world.token.look
    let world := { world with token }
    if fired then (.cancelled, s, world) else runAndCommit carry h s incoming unit text args world

/-- Evaluates a fragment by declaration: what `Session.evaluate` answers, and the values of names
with declarations. -/
def evaluate (carry : Carry) (h : Host) (s : DeclSession) (text : String) (args : List String)
    (world : World) : Evaluation × DeclEnvironment :=
  let (fired, token) := world.token.look
  let world := { world with token }
  if fired then ({ outcome := .cancelled, session := s.session, world }, s.env)
  else
    let resolution := h.resolvers.resolveText s.session.references text
    match resolution.result with
    | .error e =>
      ({ outcome := .fault (.resolve e), session := s.session, world, trail := resolution.trail },
        s.env)
    | .ok resolved =>
      let (outcome, after, world) := compileAndRun carry h s text args resolved world
      ({ outcome, session := after.session, world, trail := resolution.trail }, after.env)

/-- The answer to one call. -/
def answer (carry : Carry) (h : Host) (s : DeclSession) (fired : Nat → Bool) (call : Call) :
    Evaluation × DeclEnvironment :=
  evaluate carry h s call.text call.args (call.world fired)

/-- Which tokens are fired after a call. -/
def firedAfter (carry : Carry) (h : Host) (s : DeclSession) (fired : Nat → Bool) (call : Call)
    (token : Nat) : Bool :=
  if token = call.token then (answer carry h s fired call).1.world.token.fired else fired token

/-- The answers to calls made one after the other, and the session after them. -/
def answerAll (carry : Carry) (h : Host) :
    DeclSession → (fired : Nat → Bool) → List Call → List Evaluation × Session
  | s, _, [] => ([], s.session)
  | s, fired, call :: rest =>
    let first := answer carry h s fired call
    let others :=
      answerAll carry h ⟨first.1.session, first.2⟩ (firedAfter carry h s fired call) rest
    (first.1 :: others.1, others.2)

/-! ## Both sessions side by side -/

section Sessions

variable {carry : Carry} {h : Host} {s : DeclSession} {text : String} {resolved : List Reference}
  {unit : ScriptUnit}

/-- What the names hold without declarations is what the session's names hold, and the declarations
are those that its newest unit knows. -/
structure DeclSession.Mirrors (s : DeclSession) : Prop where
  chained : s.session.Chained
  env : s.session.env = s.env.forget
  faithful : s.env.Faithful fun ref decl =>
    ∃ newest, s.session.newestUnit? = some newest ∧ Kept newest ref decl

/-- A new session mirrors a new one. -/
theorem DeclSession.Mirrors.new : DeclSession.Mirrors {} where
  chained := .new
  env := rfl
  faithful := .empty

/-- A compiled fragment knows every declaration under the same reference as the unit before it, for
no number is given twice. -/
theorem kept_of_compiles (chained : s.session.Chained)
    (compiles : s.session.Compiles h text resolved unit) {newest : ScriptUnit}
    (isNewest : s.session.newestUnit? = some newest) {ref : FunctionId} {decl : FunctionDecl}
    (known : Kept newest ref decl) : Kept unit ref decl := by
  obtain ⟨kept, found, same⟩ := known
  refine ⟨kept, ?_, same⟩
  have ancestors := compiles.ancestors isNewest
  have distinct := (chained.compiled compiles).2
  rw [ancestors, List.map_cons, List.nodup_cons] at distinct
  rw [ScriptUnit.function?] at found ⊢
  obtain ⟨fragment, isFragment, declares⟩ := Option.bind_eq_some_iff.mp found
  have other : (unit.toFragment.id == ref.unit) = false := by
    have number : fragment.id = ref.unit := by simpa using List.find?_some isFragment
    have inside : fragment.id ∈ newest.ancestors.map (·.id) :=
      List.mem_map_of_mem (List.mem_of_find?_eq_some isFragment)
    refine beq_eq_false_iff_ne.mpr fun same => distinct.1 ?_
    rw [same, ← number]
    exact inside
  rw [ancestors, List.find?_cons, other]
  exact found

/-- A compiled fragment knows what its functions carry. -/
theorem kept_of_define (compiles : s.session.Compiles h text resolved unit)
    (follows : ∀ stmts, parse text = .ok stmts → carry.Follows stmts) {name : String}
    {params : List String} {body : Expr} {span : Span}
    (member : .define name params body span ∈ Stmt.partsAll unit.program.statements) :
    Kept unit ⟨name, unit.id⟩ (carry unit.program.statements name ⟨params, body⟩) := by
  obtain ⟨stmts, parsed, -, isUnit⟩ := compile_ok compiles.compiles
  have statements : unit.program.statements = stmts := by rw [isUnit]
  have functions : unit.program.functions = declaredFunctions stmts := by rw [isUnit]
  rw [statements] at member ⊢
  obtain ⟨kept, found, same⟩ := follows stmts parsed name params body span member
  refine ⟨kept, ?_, same⟩
  rw [ScriptUnit.function?, ScriptUnit.ancestors, List.find?_cons, beq_self_eq_true,
    Option.bind_some, functions, found]

/-- Running and committing agrees. -/
theorem runAndCommit_agrees (mirrors : s.Mirrors)
    (compiles : s.session.Compiles h text resolved unit)
    (follows : ∀ stmts, parse text = .ok stmts → carry.Follows stmts) (args : List String)
    (world : World) :
    let after := runAndCommit carry h s (Session.incoming text resolved) unit text args world
    s.session.runAndCommit h (Session.incoming text resolved) unit text args world =
        (after.1, after.2.1.session, after.2.2) ∧
      after.2.1.Mirrors := by
  have known : s.env.Faithful (Kept unit) := by
    refine mirrors.faithful.mono ?_
    rintro ref decl ⟨newest, isNewest, kept⟩
    exact kept_of_compiles mirrors.chained compiles isNewest kept
  have agrees := @run_agrees ⟨h.catalog, unit, args⟩ (carry unit.program.statements) s.env h.rounds
    known (fun _ _ _ _ => kept_of_define compiles follows) world
  rw [← mirrors.env] at agrees
  intro after
  unfold Session.runAndCommit
  dsimp only
  -- Both runs end or both stop; when they end, what is committed is the same.
  cases ran : (⟨h.catalog, unit, args⟩ : Execution).run h.rounds s.session.env world with
  | error stop ended =>
      cases ran' : run ⟨h.catalog, unit, args⟩ (carry unit.program.statements) h.rounds s.env
        world with
      | ok => simp only [ran, ran'] at agrees
      | error stop' ended' =>
          simp only [ran, ran'] at agrees
          obtain ⟨rfl, rfl⟩ := agrees
          have isAfter : after = (stop.outcome, s, ended) := by
            simp only [after, runAndCommit, ran']
          rw [isAfter]
          exact ⟨rfl, mirrors⟩
  | ok result ended =>
      cases ran' : run ⟨h.catalog, unit, args⟩ (carry unit.program.statements) h.rounds s.env
        world with
      | error => simp only [ran, ran'] at agrees
      | ok result' ended' =>
          obtain ⟨env, value⟩ := result
          obtain ⟨env', value'⟩ := result'
          simp only [ran, ran'] at agrees
          obtain ⟨⟨⟨rfl, faithful⟩, rfl, -⟩, rfl⟩ := agrees
          let captured := if capturesValue h.catalog unit text then some value'.forget else none
          let committed :=
            s.session.commit (Session.incoming text resolved) unit env'.forget captured
          have isAfter : after =
              (.success captured committed.2, ⟨committed.1, env'⟩, ended) := by
            simp only [after, runAndCommit, ran', captured, committed]
          rw [isAfter]
          refine ⟨rfl, mirrors.chained.commit compiles ran _, rfl, ?_⟩
          exact faithful.mono fun ref decl kept => ⟨unit, rfl, kept⟩

/-- Evaluating agrees. -/
theorem evaluate_agrees (mirrors : s.Mirrors)
    (follows : ∀ stmts, parse text = .ok stmts → carry.Follows stmts) (args : List String)
    (world : World) :
    let after := evaluate carry h s text args world
    s.session.evaluate h text args world = after.1 ∧
      DeclSession.Mirrors ⟨after.1.session, after.2⟩ := by
  unfold evaluate Session.evaluate
  dsimp only
  by_cases fired : world.token.look.1 = true
  · rw [if_pos fired, if_pos fired]
    exact ⟨rfl, mirrors⟩
  · rw [if_neg fired, if_neg fired]
    cases resolves : (h.resolvers.resolveText s.session.references text).result with
    | error e => exact ⟨rfl, mirrors⟩
    | ok resolved =>
        dsimp only
        unfold compileAndRun Session.compileAndRun
        dsimp only
        cases compiled : compile h.catalog
          (s.session.references.merge (Session.incoming text resolved)) s.session.newestUnit?
          s.session.nextUnit text with
        | error problems => exact ⟨rfl, mirrors⟩
        | ok unit =>
            dsimp only
            split
            · exact ⟨rfl, mirrors⟩
            · obtain ⟨same, mirrors'⟩ := runAndCommit_agrees mirrors ⟨resolves, compiled⟩ follows
                args { world with token := world.token.look.2.look.2 }
              rw [same]
              exact ⟨rfl, mirrors'⟩

/-- Calls one after the other agree, if every fragment's functions carry what units keep. -/
theorem answerAll_agrees (mirrors : s.Mirrors) (fired : Nat → Bool) (calls : List Call)
    (follows : ∀ call ∈ calls, ∀ stmts, parse call.text = .ok stmts → carry.Follows stmts) :
    answerAll carry h s fired calls = s.session.answerAll h fired calls := by
  induction calls generalizing s fired with
  | nil => rfl
  | cons call rest ih =>
      obtain ⟨same, mirrors'⟩ := @evaluate_agrees carry h s call.text mirrors
        (follows call List.mem_cons_self) call.args (call.world fired)
      have first : s.session.answer h fired call = (answer carry h s fired call).1 := same
      have tokens : s.session.firedAfter h fired call = firedAfter carry h s fired call := by
        funext token
        rw [Session.firedAfter, firedAfter, first]
      have others := @ih ⟨(answer carry h s fired call).1.session, (answer carry h s fired call).2⟩
        mirrors' (firedAfter carry h s fired call)
        fun call member => follows call (List.mem_cons_of_mem _ member)
      rw [answerAll, Session.answerAll, first, tokens, others]

end Sessions

end ByDeclaration

/-! ## The law -/

namespace Session

/-- **A function runs the last declaration of its name in the fragment that made it.** After any
calls of a new session, evaluating by reference gives the same answers, and the same session, as
evaluating by functions that carry that declaration with them. If in every fragment the declarations
of one name say the same, these are the answers of functions that carry the very declaration whose
execution made them. Native functions keep nothing between their calls (`NativeFunction.body`), so
none can hold back a function value and give it out later without its declaration. -/
theorem answerAll_byDeclaration (h : Host) (fired : Nat → Bool) (calls : List Call) :
    ByDeclaration.answerAll .last h {} fired calls = ({} : Session).answerAll h fired calls ∧
    ((∀ call ∈ calls, ∀ stmts, parse call.text = .ok stmts → Unambiguous stmts) →
      ByDeclaration.answerAll .own h {} fired calls = ({} : Session).answerAll h fired calls) := by
  constructor
  · exact ByDeclaration.answerAll_agrees .new fired calls
      fun _ _ stmts _ => ByDeclaration.Carry.follows_last stmts
  · intro unambiguous
    exact ByDeclaration.answerAll_agrees .new fired calls fun call member stmts parsed =>
      ByDeclaration.Carry.follows_own (unambiguous call member stmts parsed)

/-- The texts in the list that the last of some answers has for its value. -/
def lastTexts (answers : List Evaluation) : List String :=
  match answers.getLast?.bind (·.outcome.value?) with
  | some (.list items) => items.filterMap fun
    | .str text => some text
    | _ => none
  | some (.str text) => [text]
  | _ => []

/-- A function is declared again in a later fragment, while the first one waits in a pending call:
each runs its own declaration, by reference as by declaration. -/
theorem answerAll_byDeclaration_pending :
    let h : Host := ⟨Catalog.standard, ⟨.ofCatalog Catalog.standard, []⟩, 0⟩
    let calls : List Call :=
      [{ text := "#load time\nfn f() = \"old\"\nlet p = time.delay(1, f)", token := 0 },
        { text := "fn f() = \"new\"", token := 0 },
        { text := "[(await p)(), f()]", token := 0 }]
    (∀ call ∈ calls, ∀ stmts, parse call.text = .ok stmts → Unambiguous stmts) ∧
      ByDeclaration.answerAll .own h {} (fun _ => false) calls =
        ({} : Session).answerAll h (fun _ => false) calls ∧
      lastTexts (({} : Session).answerAll h (fun _ => false) calls).1 = ["old", "new"] := by
  intro h calls
  have distinct : (calls.all fun call => (parse call.text).toOption.all fun stmts =>
      decide ((Stmt.partsAll stmts).filterMap Stmt.functionName?).Nodup) = true := by
    decide +kernel
  have unambiguous : ∀ call ∈ calls, ∀ stmts, parse call.text = .ok stmts → Unambiguous stmts := by
    intro call member stmts parsed
    have holds := List.all_eq_true.mp distinct call member
    rw [parsed] at holds
    exact unambiguous_of_nodup (of_decide_eq_true holds)
  refine ⟨unambiguous, (answerAll_byDeclaration h _ calls).2 unambiguous, ?_⟩
  decide +kernel

/-- A function is declared in both branches of a condition. The declaration that is run is the first
one, and a function that carried it would answer so; by reference the other one is called, whose
branch is not taken. -/
theorem answer_own_branches :
    let h : Host := ⟨Catalog.standard, ⟨.ofCatalog Catalog.standard, []⟩, 0⟩
    let text := "if true \x7b fn f() = \"then\" \x7d else \x7b fn f() = \"else\" \x7d\nf()"
    let calls : List Call := [{ text, token := 0 }]
    lastTexts (ByDeclaration.answerAll .own h {} (fun _ => false) calls).1 = ["then"] ∧
      lastTexts (({} : Session).answerAll h (fun _ => false) calls).1 = ["else"] := by
  constructor
  · decide +kernel
  · decide +kernel

end Session

end ScriptShell
