import ScriptShell.Module.Standard
import ScriptShell.Proofs.Evaluation.Alike
import ScriptShell.Proofs.Evaluation.Functions
import ScriptShell.Proofs.Evaluation.Steady
import ScriptShell.Proofs.Reference.Entries
import ScriptShell.Proofs.Session.BoundModules
import ScriptShell.Proofs.Session.Chain
import ScriptShell.Proofs.Syntax.Levels
import ScriptShell.Proofs.Typing.Places

/-! # Splitting a fragment

A fragment of ordinary statements can be given in two pieces, one after the other: it succeeds if
and only if both pieces do, and leaves the same names, types and value (**`evaluate_split`**).

The checker and the evaluator go through statements in order, so what is left to show is that the
second piece finds what the rest of the whole fragment finds: `nextScope_commit` for names and
modules, and `CompilesPlain.alike` for functions, which are looked up through one more unit. -/

namespace ScriptShell

/-! ## The same checks -/

/-- Statements in two pieces are checked alike, wherever they stand. -/
theorem Scope.checkAll_split (s : Scope) {stmts first second : List Stmt}
    (isSplit : Stmt.bareAll stmts = Stmt.bareAll (first ++ second)) :
    (s.checkAll stmts).bindings =
        ((s.withBindings (s.checkAll first).bindings).checkAll second).bindings ∧
      ((s.checkAll stmts).problems = [] ↔ (s.checkAll first).problems = [] ∧
        ((s.withBindings (s.checkAll first).bindings).checkAll second).problems = []) := by
  have same := s.checkAll_of_bareAll_eq isSplit
  rwa [s.bindings_checkAll_append, s.checkAll_append, List.append_eq_nil_iff] at same

/-- The tail of statements that are the same up to places. -/
theorem tailOf_bareAll (stmts : List Stmt) :
    tailOf (Stmt.bareAll stmts) = (tailOf stmts).map Expr.bare := by
  have last : (Stmt.bareAll stmts).getLast? =
      stmts.getLast?.map (·.mapSpan fun _ => default) := by
    have isMap : Stmt.bareAll stmts = stmts.map (·.mapSpan fun _ => default) := by
      induction stmts with
      | nil => rfl
      | cons stmt rest ih => exact congrArg (_ :: ·) ih
    rw [isMap, List.getLast?_map]
  rw [tailOf, tailOf, last]
  match stmts.getLast? with
  | none | some (.load ..) | some (.use ..) | some (.define ..) | some (.bind ..)
  | some (.assign ..) | some (.loop ..) | some (.branch _ _ none _)
  | some (.branch _ _ (some _) _) | some (.eval _ true _) => rfl
  | some (.eval e false _) => exact congrArg some (Expr.mapSpan_default e)

/-- The tail of two rows of statements is that of the second, unless it is empty. -/
theorem tailOf_append (first : List Stmt) {second : List Stmt} (nonempty : second ≠ []) :
    tailOf (first ++ second) = tailOf second := by
  rw [tailOf, tailOf, List.getLast?_append_of_ne_nil first nonempty]

/-- Whether a text has a value depends on its tail only, and not on where that stands. -/
theorem capturesValue_of_parse (c : Catalog) (unit : ScriptUnit) {text : String}
    {stmts : List Stmt} (parsed : parse text = .ok stmts) :
    capturesValue c unit text = ((tailOf stmts).map Expr.bare).any fun e =>
      !((unit.program.scope c).infer e).type.isVoid := by
  have final : finalExpression text = tailOf stmts := by
    unfold finalExpression
    rw [parsed]
    rfl
  unfold capturesValue
  cases tail : tailOf stmts with
  | none => simp only [final, tail, Option.map_none, Option.any_none]
  | some e =>
      simp only [final, tail, Option.map_some, Option.any_some]
      rw [← Expr.mapSpan_default, (Scope.infer_mapSpan _ _ e).type]

/-- The run of statements in a unit. -/
def Host.runStmts (h : Host) (unit : ScriptUnit) (args : List String) (env : Environment)
    (stmts : List Stmt) : Run (Environment × Value) :=
  (⟨h.catalog, unit, args⟩ : Execution).runBlock h.rounds maxOpenLevels env stmts

/-- Running statements is steady, whatever the host. -/
theorem Host.runStmts_steady (h : Host) (unit : ScriptUnit) (args : List String)
    (env : Environment) (stmts : List Stmt) : (h.runStmts unit args env stmts).Steady :=
  Run.Steady.compositional.runBlock ..

namespace Session

/-! ## Plain fragments -/

/-- A text that reads as ordinary statements: none of them is a directive or declares a function,
none asks for the running unit, and no directive is found in the text otherwise. -/
structure Plain (text : String) (stmts : List Stmt) : Prop where
  parsed : parse text = .ok stmts
  loads : loadTargets text = []
  imports : importNames text = []
  ordinary : ∀ part ∈ Stmt.partsAll stmts, part.isOrdinary = true
  unasked : ∀ part ∈ Stmt.partsAll stmts, ∀ e, part.expression? = some e →
    ¬e.Mentions runtimeName

variable {h : Host} {s : Session} {text : String} {stmts : List Stmt} {unit : ScriptUnit}

/-- A plain fragment resolves to nothing. -/
theorem Plain.resolves (plain : Plain text stmts) (h : Host) (bound : References) :
    (h.resolvers.resolveText bound text).result = .ok [] := by
  rw [Resolvers.resolveText, plain.loads]
  rfl

/-- A plain fragment brings nothing in. -/
theorem Plain.incoming (plain : Plain text stmts) : incoming text [] = {} := by
  rw [Session.incoming, plain.loads, plain.imports]
  rfl

/-- A plain fragment declares no functions. -/
theorem Plain.functions (plain : Plain text stmts) (name : String) :
    (declaredFunctions stmts).get? name = none := by
  refine Option.eq_none_iff_forall_not_mem.mpr fun decl declared => ?_
  obtain ⟨span, member⟩ := define_mem_of_declaredFunctions declared
  cases plain.ordinary _ member

/-- The scope of the next fragment, if it is plain. -/
def nextScope (h : Host) (s : Session) : Scope :=
  h.catalog.scope s.references (bindingsAfter s.newestUnit?)

/-- What a plain fragment is compiled into. -/
structure CompilesPlain (h : Host) (s : Session) (text : String) (stmts : List Stmt)
    (unit : ScriptUnit) : Prop where
  compiles : s.Compiles h text [] unit
  clean : ((s.nextScope h).checkAll stmts).problems = []
  statements : unit.program.statements = stmts
  bindings : unit.program.bindings = ((s.nextScope h).checkAll stmts).bindings
  modules : unit.program.modules = h.catalog.usable s.references
  imports : unit.program.imports = importedModules s.references
  functions : ∀ name, unit.program.functions.get? name = none
  references : unit.references = h.catalog.unitReferences s.references s.newestUnit?

/-- A plain fragment has problems and is refused, or it compiles. -/
theorem Plain.refused_or_compiles (plain : Plain text stmts) (h : Host) (s : Session) :
    (((s.nextScope h).checkAll stmts).problems ≠ [] ∧
      ∃ problems, compile h.catalog (s.references.merge (Session.incoming text [])) s.newestUnit?
        s.nextUnit text = .error problems) ∨
    ∃ unit, s.CompilesPlain h text stmts unit := by
  rw [plain.incoming]
  show _ ∧ (∃ problems, compile h.catalog s.references s.newestUnit? s.nextUnit text =
    .error problems) ∨ _
  cases compiled : compile h.catalog s.references s.newestUnit? s.nextUnit text with
  | error problems =>
      refine .inl ⟨fun clean => ?_, problems, rfl⟩
      unfold compile at compiled
      simp only [plain.parsed] at compiled
      split at compiled
      · cases compiled
      · rename_i unclean
        exact unclean (List.isEmpty_iff.mpr clean)
  | ok unit =>
      obtain ⟨others, parsed, clean, isUnit⟩ := compile_ok compiled
      cases plain.parsed.symm.trans parsed
      refine .inr ⟨unit, ⟨plain.resolves h s.references, ?_⟩, clean, ?_, ?_, ?_, ?_, ?_, ?_⟩
      · rw [plain.incoming]
        exact compiled
      · rw [isUnit]
      · rw [isUnit, nextScope]
      · rw [isUnit]
      · rw [isUnit]
      · intro name
        rw [isUnit]
        exact plain.functions name
      · rw [isUnit]

/-! ## How plain fragments end -/

/-- The ways in which the evaluation of a plain fragment ends, if nobody cancels it: the checker
refuses it, its run stops, or it is committed. -/
inductive Ends (h : Host) (s : Session) (text : String) (stmts : List Stmt) (args : List String)
    (e : Evaluation) : Prop where
  | refused (problems : ((s.nextScope h).checkAll stmts).problems ≠ [])
      (failed : e.outcome.isSuccess = false)
  | stopped (unit : ScriptUnit) (compiles : s.CompilesPlain h text stmts unit) (started : World)
      (stop : Stop)
      (calm : (h.runStmts unit args s.env stmts).endsFired started = false)
      (ran : (h.runStmts unit args s.env stmts).result started = .error stop)
      (failed : e.outcome.isSuccess = false)
  | committed (unit : ScriptUnit) (compiles : s.CompilesPlain h text stmts unit) (started : World)
      (env : Environment) (result : Value)
      (calm : (h.runStmts unit args s.env stmts).endsFired started = false)
      (ran : (h.runStmts unit args s.env stmts).result started = .ok (env, result))
      (succeeded : e.outcome.isSuccess = true)
      (session : e.session = (s.commit {} unit env
        (if capturesValue h.catalog unit text then some result else none)).1)

/-- What stopped is no success. -/
theorem isSuccess_outcome (stop : Stop) : stop.outcome.isSuccess = false := by
  cases stop with
  | failed error =>
      rw [Stop.outcome]
      split <;> rfl
  | cancelled | broken | unfinished => rfl

/-- What has problems does not succeed. -/
theorem Ends.failed {args : List String} {e : Evaluation} (ends : s.Ends h text stmts args e)
    (problems : ((s.nextScope h).checkAll stmts).problems ≠ []) : e.outcome.isSuccess = false := by
  cases ends with
  | refused _ failed => exact failed
  | stopped _ _ _ _ _ _ failed => exact failed
  | committed _ compiles => exact absurd compiles.clean problems

/-- A plain fragment that compiles ends as its statements do, if nobody cancels it. -/
theorem CompilesPlain.ends (compiles : s.CompilesPlain h text stmts unit) (args : List String)
    {e : Evaluation} {started : World}
    (ran : s.runAndCommit h {} unit text args started = (e.outcome, e.session, e.world))
    (calm : e.world.token.fired = false) : s.Ends h text stmts args e := by
  unfold runAndCommit at ran
  have isRun : (⟨h.catalog, unit, args⟩ : Execution).run h.rounds s.env =
      h.runStmts unit args s.env stmts := by
    rw [← compiles.statements]
    rfl
  dsimp only at ran
  rw [isRun] at ran
  split at ran
  · rename_i stop ended stopped
    simp only [Prod.mk.injEq] at ran
    obtain ⟨outcome, -, world⟩ := ran
    refine .stopped unit compiles started stop ?_ ?_ (outcome ▸ isSuccess_outcome stop)
    · rw [Run.endsFired, stopped, world]
      exact calm
    · rw [Run.result, stopped]
  · rename_i env result ended finished
    simp only [Prod.mk.injEq] at ran
    obtain ⟨outcome, session, world⟩ := ran
    refine .committed unit compiles started env result ?_ ?_ (outcome ▸ rfl) session.symm
    · rw [Run.endsFired, finished, world]
      exact calm
    · rw [Run.result, finished]

/-- **How a plain fragment ends** that nobody cancels. -/
theorem Plain.ends (plain : Plain text stmts) (args : List String) {world : World}
    (calm : (s.evaluate h text args world).world.token.fired = false) :
    s.Ends h text stmts args (s.evaluate h text args world) := by
  -- Of the phases before the run, only the compiler can end it: there is nothing to resolve, and a
  -- look that found the token fired would have left it so.
  unfold evaluate at calm ⊢
  dsimp only at calm ⊢
  split at calm
  · rename_i fired
    exact absurd (Token.look_eq_false calm) (by rw [fired]; decide)
  · rename_i unfired
    simp only [unfired, plain.resolves h s.references] at calm ⊢
    unfold compileAndRun at calm ⊢
    dsimp only at calm ⊢
    rcases plain.refused_or_compiles h s with ⟨problems, _, refused⟩ | ⟨unit, compiles⟩
    · simp only [refused]
      exact .refused problems rfl
    · simp only [compiles.compiles.compiles] at calm ⊢
      split at calm
      · rename_i fired
        exact absurd (Token.look_eq_false calm) (by rw [fired]; decide)
      · rename_i unfired
        simp only [unfired, plain.incoming] at calm ⊢
        exact compiles.ends args rfl calm

/-! ## What the next fragment finds -/

/-- The declaration of a function, in the unit of a session that the reference names. -/
def function? (s : Session) (name : String) (id : Nat) : Option FunctionDecl :=
  ((s.history.map (·.unit.toFragment)).find? (·.id == id)).bind (·.program.functions.get? name)

/-- No function that a session finds asks for the object of the running unit, if none in its history
does. -/
theorem function?_unasked
    (bodies : ∀ commit ∈ s.history, ∀ name decl,
      commit.unit.program.functions.get? name = some decl → ¬decl.body.Mentions runtimeName)
    (name : String) (id : Nat) (decl : FunctionDecl) (found : s.function? name id = some decl) :
    ¬decl.body.Mentions runtimeName := by
  obtain ⟨f, isUnit, declares⟩ := Option.bind_eq_some_iff.mp found
  obtain ⟨commit, member, rfl⟩ := List.mem_map.mp (List.mem_of_find?_eq_some isUnit)
  exact bodies commit member name decl declares

/-- A plain fragment has the functions of the session, since it declares none. -/
theorem CompilesPlain.function?_eq (compiles : s.CompilesPlain h text stmts unit)
    (chained : s.Chained) (name : String) (id : Nat) :
    unit.function? name id = s.function? name id := by
  obtain ⟨ancestors, distinct⟩ := chained.compiled compiles.compiles
  rw [ScriptUnit.function?, Session.function?, ancestors, List.find?_cons]
  split
  · rename_i own
    -- Under its own number there is no other unit.
    have none : (s.history.map (·.unit.toFragment)).find? (·.id == id) = none := by
      refine List.find?_eq_none.mpr fun f member same => ?_
      rw [ancestors, List.map_cons, List.nodup_cons] at distinct
      refine distinct.1 (List.mem_map.mpr ⟨f, member, ?_⟩)
      exact (beq_iff_eq.mp same).trans (beq_iff_eq.mp own).symm
    rw [none]
    exact compiles.functions name
  · rfl

/-- The functions of a session after a plain fragment are those before it. -/
theorem CompilesPlain.function?_commit (compiles : s.CompilesPlain h text stmts unit)
    (chained : s.Chained) (env : Environment) (value : Option Value) (name : String) (id : Nat) :
    (s.commit {} unit env value).1.function? name id = s.function? name id := by
  rw [← compiles.function?_eq chained, ScriptUnit.function?,
    (chained.compiled compiles.compiles).1]
  rfl

/-- A plain fragment makes no other modules visible. -/
theorem CompilesPlain.visible_commit (compiles : s.CompilesPlain h text stmts unit)
    (env : Environment) (value : Option Value) :
    h.catalog.visible (s.commit {} unit env value).1.references =
      h.catalog.visible s.references := by
  refine h.catalog.visible_merge fun m member unmarked => ?_
  rcases References.mem_addModules member with none | member
  · cases none
  · rw [compiles.references, Catalog.unitReferences, List.mem_append] at member
    rcases member with seen | isUnit
    · exact seen
    · -- The unit before is among the references of a unit, but is never bound.
      obtain ⟨newest, -, rfl⟩ := Option.map_eq_some_iff.mp (Option.mem_toList.mp isUnit)
      cases unmarked.symm.trans (isGenerated_unit newest)

/-- A commit of a plain fragment keeps the imports. -/
theorem imports_commit_empty (s : Session) (unit : ScriptUnit) (env : Environment)
    (value : Option Value) :
    (s.commit {} unit env value).1.references.imports = s.references.imports := by
  show (s.references.merge _).imports = _
  rw [References.imports_merge, References.imports_addModules]
  rfl

/-- **After a plain fragment** the next one is checked as what follows it would be. -/
theorem CompilesPlain.nextScope_commit (compiles : s.CompilesPlain h text stmts unit)
    (env : Environment) (value : Option Value) :
    (s.commit {} unit env value).1.nextScope h =
      (s.nextScope h).withBindings ((s.nextScope h).checkAll stmts).bindings := by
  rw [← compiles.bindings]
  simp only [nextScope, Catalog.scope, Catalog.usable, importedModules, compiles.visible_commit,
    imports_commit_empty]
  rfl

/-- **Plain fragments run alike** in sessions with the same modules, imports and functions. -/
theorem CompilesPlain.alike {s' : Session} {text' : String} {stmts' : List Stmt}
    {unit' : ScriptUnit} (compiles : s.CompilesPlain h text stmts unit)
    (compiles' : s'.CompilesPlain h text' stmts' unit') (chained : s.Chained)
    (chained' : s'.Chained)
    (visible : h.catalog.visible s.references = h.catalog.visible s'.references)
    (imports : s.references.imports = s'.references.imports)
    (functions : ∀ name id, s.function? name id = s'.function? name id)
    (bodies : ∀ name id decl, s.function? name id = some decl → ¬decl.body.Mentions runtimeName)
    (args : List String) :
    Execution.Alike ⟨h.catalog, unit, args⟩ ⟨h.catalog, unit', args⟩ where
  catalog := rfl
  args := rfl
  modules := by
    show unit.program.modules = unit'.program.modules
    rw [compiles.modules, compiles'.modules, Catalog.usable, Catalog.usable, visible]
  imports := by
    show unit.program.imports = unit'.program.imports
    rw [compiles.imports, compiles'.imports, importedModules, importedModules, imports]
  function? name id := by
    show unit.function? name id = unit'.function? name id
    rw [compiles.function?_eq chained, compiles'.function?_eq chained', functions]
  bodies name id decl found := bodies name id decl (compiles.function?_eq chained name id ▸ found)

/-- The value of the newest fragment, if it has one. -/
def value? (s : Session) : Option Value :=
  s.history.head?.bind (·.value)

/-! ## A fragment in two pieces -/

/-- Evaluations that fail on both sides agree. -/
theorem same_of_failed {outcome : Outcome} {other same : Prop} (failed : outcome.isSuccess = false)
    (failed' : ¬other) :
    (outcome.isSuccess = true ↔ other) ∧ (outcome.isSuccess = true → same) := by
  have no : ¬outcome.isSuccess = true := Bool.eq_false_iff.mp failed
  exact ⟨iff_of_false no failed', fun yes => absurd yes no⟩

section

variable {whole first second : String} {stmts₁ stmts₂ : List Stmt} {unit₁ unit₂ : ScriptUnit}
  {e e₂ : Evaluation} {env₁ : Environment} {v₁ : Value} {value₁ : Option Value}
  {args : List String} {started started₁ started₂ : World}
  (isSplit : Stmt.bareAll stmts = Stmt.bareAll (stmts₁ ++ stmts₂)) (nonempty : stmts₂ ≠ [])
  (plain₁ : Plain first stmts₁) (chained : s.Chained)
  (bodies : ∀ name id decl, s.function? name id = some decl → ¬decl.body.Mentions runtimeName)

include isSplit nonempty plain₁ chained bodies

/-- The run of a fragment is that of its first piece, and then that of the second with what the
first leaves. -/
theorem CompilesPlain.runStmts_split (compiles : s.CompilesPlain h whole stmts unit)
    (compiles₁ : s.CompilesPlain h first stmts₁ unit₁) :
    h.runStmts unit args s.env stmts = (do
      let after ← h.runStmts unit₁ args s.env stmts₁
      h.runStmts unit args after.1 stmts₂) := by
  have alike := compiles.alike compiles₁ chained chained rfl rfl (fun _ _ => rfl) bodies args
  unfold Host.runStmts
  rw [← Execution.runBlock_bareAll, isSplit, Execution.runBlock_bareAll,
    ← alike.runBlock h.rounds maxOpenLevels s.env plain₁.ordinary plain₁.unasked]
  exact Execution.runBlock_append _ h.rounds 999 s.env stmts₁ nonempty

/-- A fragment fails if the run of its first piece stops. -/
theorem Ends.failed_of_stopped {stop : Stop} (ends : s.Ends h whole stmts args e)
    (compiles₁ : s.CompilesPlain h first stmts₁ unit₁)
    (calm₁ : (h.runStmts unit₁ args s.env stmts₁).endsFired started₁ = false)
    (ran₁ : (h.runStmts unit₁ args s.env stmts₁).result started₁ = .error stop) :
    e.outcome.isSuccess = false := by
  cases ends with
  | refused _ failed => exact failed
  | stopped _ _ _ _ _ _ failed => exact failed
  | committed unit compiles started env result calm ran =>
      rw [compiles.runStmts_split isSplit nonempty plain₁ chained bodies compiles₁] at calm ran
      have stopped := Run.Steady.result_bind (Host.runStmts_steady ..)
        (fun _ => Host.runStmts_steady ..) calm calm₁
      rw [ran₁] at stopped
      cases ran.symm.trans stopped

/-- A fragment comes to what its second piece comes to once the first is committed. -/
theorem CompilesPlain.result_split (compiles : s.CompilesPlain h whole stmts unit)
    (compiles₁ : s.CompilesPlain h first stmts₁ unit₁)
    (compiles₂ : (s.commit {} unit₁ env₁ value₁).1.CompilesPlain h second stmts₂ unit₂)
    (plain₂ : Plain second stmts₂) (chained₁ : (s.commit {} unit₁ env₁ value₁).1.Chained)
    (calm : (h.runStmts unit args s.env stmts).endsFired started = false)
    (calm₁ : (h.runStmts unit₁ args s.env stmts₁).endsFired started₁ = false)
    (ran₁ : (h.runStmts unit₁ args s.env stmts₁).result started₁ = .ok (env₁, v₁))
    (calm₂ : (h.runStmts unit₂ args env₁ stmts₂).endsFired started₂ = false) :
    (h.runStmts unit args s.env stmts).result started =
      (h.runStmts unit₂ args env₁ stmts₂).result started₂ := by
  have alike := compiles.alike compiles₂ chained chained₁ (compiles₁.visible_commit ..).symm
    (imports_commit_empty ..).symm
    (fun name id => (compiles₁.function?_commit chained _ _ name id).symm) bodies args
  have second : h.runStmts unit args env₁ stmts₂ = h.runStmts unit₂ args env₁ stmts₂ :=
    alike.runBlock h.rounds maxOpenLevels env₁ plain₂.ordinary plain₂.unasked
  rw [compiles.runStmts_split isSplit nonempty plain₁ chained bodies compiles₁] at calm ⊢
  have finished := Run.Steady.result_bind (Host.runStmts_steady ..)
    (fun _ => Host.runStmts_steady ..) calm calm₁
  rw [ran₁] at finished
  rw [← second] at calm₂ ⊢
  exact finished started₂ calm₂

omit plain₁ chained bodies in
/-- A fragment and its second piece have the same types after them, and both have a value or
neither. -/
theorem CompilesPlain.scope_split (compiles : s.CompilesPlain h whole stmts unit)
    (compiles₁ : s.CompilesPlain h first stmts₁ unit₁)
    (compiles₂ : (s.commit {} unit₁ env₁ value₁).1.CompilesPlain h second stmts₂ unit₂)
    (parsed : parse whole = .ok stmts) (parsed₂ : parse second = .ok stmts₂) :
    unit.program.bindings = unit₂.program.bindings ∧
      capturesValue h.catalog unit whole = capturesValue h.catalog unit₂ second := by
  have bindings : unit.program.bindings = unit₂.program.bindings := by
    rw [compiles.bindings, compiles₂.bindings, compiles₁.nextScope_commit,
      ((s.nextScope h).checkAll_split isSplit).1]
  refine ⟨bindings, ?_⟩
  have scopes : unit.program.scope h.catalog = unit₂.program.scope h.catalog := by
    simp only [Program.scope, bindings, compiles.modules, compiles₂.modules, compiles.imports,
      compiles₂.imports, Catalog.usable, importedModules, compiles₁.visible_commit,
      imports_commit_empty]
  have tails : (tailOf stmts).map Expr.bare = (tailOf stmts₂).map Expr.bare := by
    rw [← tailOf_bareAll, isSplit, tailOf_bareAll, tailOf_append stmts₁ nonempty]
  rw [capturesValue_of_parse _ _ parsed, capturesValue_of_parse _ _ parsed₂, tails, scopes]

/-- Once the first piece is committed, a fragment ends as its second piece does. -/
theorem Ends.split (plain : Plain whole stmts) (plain₂ : Plain second stmts₂)
    (ends : s.Ends h whole stmts args e) (compiles₁ : s.CompilesPlain h first stmts₁ unit₁)
    (calm₁ : (h.runStmts unit₁ args s.env stmts₁).endsFired started₁ = false)
    (ran₁ : (h.runStmts unit₁ args s.env stmts₁).result started₁ = .ok (env₁, v₁))
    (chained₁ : (s.commit {} unit₁ env₁ value₁).1.Chained)
    (ends₂ : (s.commit {} unit₁ env₁ value₁).1.Ends h second stmts₂ args e₂) :
    (e.outcome.isSuccess = true ↔ e₂.outcome.isSuccess = true) ∧
      (e.outcome.isSuccess = true → e.session.env = e₂.session.env ∧
        bindingsAfter e.session.newestUnit? = bindingsAfter e₂.session.newestUnit? ∧
        e.session.value? = e₂.session.value?) := by
  have checks := ((s.nextScope h).checkAll_split isSplit).2
  rw [← compiles₁.nextScope_commit env₁ value₁] at checks
  -- Where both run, they come to the same, so that it is enough to compare how they end.
  have same : ∀ {unit unit₂ started started₂} (compiles : s.CompilesPlain h whole stmts unit)
      (compiles₂ : (s.commit {} unit₁ env₁ value₁).1.CompilesPlain h second stmts₂ unit₂),
      (h.runStmts unit args s.env stmts).endsFired started = false →
      (h.runStmts unit₂ args env₁ stmts₂).endsFired started₂ = false →
      (h.runStmts unit args s.env stmts).result started =
        (h.runStmts unit₂ args env₁ stmts₂).result started₂ :=
    fun compiles compiles₂ calm calm₂ => compiles.result_split isSplit nonempty plain₁ chained
      bodies compiles₁ compiles₂ plain₂ chained₁ calm calm₁ ran₁ calm₂
  cases ends₂ with
  | refused problems failed₂ =>
      have failed := ends.failed fun clean => problems (checks.mp clean).2
      exact same_of_failed failed (by simp [failed₂])
  | stopped unit₂ compiles₂ started₂ stop calm₂ ran₂ failed₂ =>
      cases ends with
      | refused _ failed => exact same_of_failed failed (by simp [failed₂])
      | stopped _ _ _ _ _ _ failed => exact same_of_failed failed (by simp [failed₂])
      | committed unit compiles started env result calm ran =>
          cases (ran.symm.trans (same compiles compiles₂ calm calm₂)).trans ran₂
  | committed unit₂ compiles₂ started₂ env result calm₂ ran₂ succeeded₂ session₂ =>
      cases ends with
      | refused problems =>
          exact absurd (checks.mpr ⟨compiles₁.clean, compiles₂.clean⟩) problems
      | stopped unit compiles started stop calm ran =>
          cases (ran.symm.trans (same compiles compiles₂ calm calm₂)).trans ran₂
      | committed unit compiles started env result calm ran succeeded session =>
          cases (ran.symm.trans (same compiles compiles₂ calm calm₂)).trans ran₂
          obtain ⟨bindings, captures⟩ := compiles.scope_split isSplit nonempty compiles₁ compiles₂
            plain.parsed plain₂.parsed
          refine ⟨by rw [succeeded, succeeded₂], fun _ => ?_⟩
          rw [session, session₂, captures]
          exact ⟨rfl, bindings, rfl⟩

end

/-- **Splitting a fragment does not change its meaning.** Let three plain texts be such that the
first reads as what the second and the third read as, up to places, and let neither them nor the
functions of a session ask for the running unit. As long as nobody cancels, the first succeeds if
and only if the second does and then the third; and then the values and the types of all names and
the value of the newest fragment are the same afterwards. -/
theorem evaluate_split {allowed : Host → Prop} (reachable : ReachableBy allowed s) (h : Host)
    {whole first second : String} {stmts stmts₁ stmts₂ : List Stmt} (plain : Plain whole stmts)
    (plain₁ : Plain first stmts₁) (plain₂ : Plain second stmts₂)
    (isSplit : Stmt.bareAll stmts = Stmt.bareAll (stmts₁ ++ stmts₂)) (nonempty : stmts₂ ≠ [])
    (bodies : ∀ commit ∈ s.history, ∀ name decl,
      commit.unit.program.functions.get? name = some decl → ¬decl.body.Mentions runtimeName)
    (args : List String) (world world₁ world₂ : World) :
    let e := s.evaluate h whole args world
    let e₁ := s.evaluate h first args world₁
    let e₂ := e₁.session.evaluate h second args world₂
    e.world.token.fired = false → e₁.world.token.fired = false → e₂.world.token.fired = false →
    (e.outcome.isSuccess = true ↔ e₁.outcome.isSuccess = true ∧ e₂.outcome.isSuccess = true) ∧
      (e.outcome.isSuccess = true → e.session.env = e₂.session.env ∧
        bindingsAfter e.session.newestUnit? = bindingsAfter e₂.session.newestUnit? ∧
        e.session.value? = e₂.session.value?) := by
  intro e e₁ e₂ calm calm₁ calm₂
  have chained := reachable.chained
  have chained₁ : e₁.session.Chained := (chained.evaluate h first args world₁).chained
  have unasked := function?_unasked bodies
  have ends : s.Ends h whole stmts args e := plain.ends args calm
  have ends₁ : s.Ends h first stmts₁ args e₁ := plain₁.ends args calm₁
  have ends₂ : e₁.session.Ends h second stmts₂ args e₂ := plain₂.ends args calm₂
  cases ends₁ with
  | refused problems failed₁ =>
      have checks := ((s.nextScope h).checkAll_split isSplit).2
      have failed := ends.failed fun clean => problems (checks.mp clean).1
      exact same_of_failed failed (by simp [failed₁])
  | stopped unit₁ compiles₁ started₁ stop calm₁ ran₁ failed₁ =>
      have failed :=
        ends.failed_of_stopped isSplit nonempty plain₁ chained unasked compiles₁ calm₁ ran₁
      exact same_of_failed failed (by simp [failed₁])
  | committed unit₁ compiles₁ started₁ env₁ v₁ calm₁ ran₁ succeeded₁ session₁ =>
      rw [session₁] at chained₁ ends₂
      rw [succeeded₁, eq_self, true_and]
      exact ends.split isSplit nonempty plain₁ chained unasked plain plain₂ compiles₁ calm₁ ran₁
        chained₁ ends₂

/-- Whether statements are ordinary and do not ask for the running unit. -/
def isPlain (stmts : List Stmt) : Bool :=
  (Stmt.partsAll stmts).all fun part =>
    part.isOrdinary && part.expression?.all fun e => !decide (e.Mentions runtimeName)

/-- Fragments that the tests find plain are so. -/
theorem Plain.of_isPlain (parsed : parse text = .ok stmts) (loads : loadTargets text = [])
    (imports : importNames text = []) (isPlain : isPlain stmts = true) : Plain text stmts := by
  have parts := fun part member => Bool.and_eq_true_iff.mp (List.all_eq_true.mp isPlain part member)
  refine ⟨parsed, loads, imports, fun part member => (parts part member).1, ?_⟩
  intro part member e isExpression
  have unasked := (parts part member).2
  rw [isExpression] at unasked
  simpa using unasked

/-- Whether a statement binds `b` to what `f` makes of `a`. -/
def isCall : Stmt → Bool
  | .bind "b" (.call (.ident "f" _) [.ident "a" _] _) _ => true
  | _ => false

/-- Whether statements change `a` in a block and then show it. -/
def isChange : List Stmt → Bool
  | [.branch (.ident "b" _) [.assign "a" (.list [.ident "b" _] _) _] none _,
      .eval (.ident "a" _) false _] => true
  | _ => false

/-- Two calls that look the same are the same but for their places. -/
theorem mapSpan_eq_of_isCall {stmt stmt' : Stmt} (call : isCall stmt = true)
    (call' : isCall stmt' = true) :
    stmt.mapSpan (fun _ => default) = stmt'.mapSpan (fun _ => default) := by
  unfold isCall at call call'
  split at call
  · split at call'
    · rfl
    · cases call'
  · cases call

/-- Two changes that look the same are the same but for their places. -/
theorem bareAll_eq_of_isChange {stmts stmts' : List Stmt} (change : isChange stmts = true)
    (change' : isChange stmts' = true) : Stmt.bareAll stmts = Stmt.bareAll stmts' := by
  unfold isChange at change change'
  split at change
  · split at change'
    · rfl
    · cases change'
  · cases change

/-- A piece that calls a function of the session, and one that changes a name in a block. -/
theorem evaluate_split_branch :
    let c := Catalog.standard
    let h : Host := ⟨c, ⟨.ofCatalog c, []⟩, 0⟩
    let s := (({} : Session).evaluate h "fn f(x) = x\nlet a = true" [] {}).session
    let first := "let b = f(a)"
    let second := "if b \x7b a = [b] \x7d\na"
    let whole := "let b = f(a)\nif b \x7b a = [b] \x7d\na"
    let e := s.evaluate h whole [] {}
    let e₁ := s.evaluate h first [] {}
    let e₂ := e₁.session.evaluate h second [] {}
    (∃ stmts stmts₁ stmts₂, Plain whole stmts ∧ Plain first stmts₁ ∧ Plain second stmts₂ ∧
      Stmt.bareAll stmts = Stmt.bareAll (stmts₁ ++ stmts₂) ∧ stmts₂ ≠ []) ∧
    e.outcome.isSuccess = true ∧ e₁.outcome.isSuccess = true ∧ e₂.outcome.isSuccess = true ∧
    e.session.env = e₂.session.env ∧
    bindingsAfter e.session.newestUnit? = bindingsAfter e₂.session.newestUnit? ∧
    e.session.value? = e₂.session.value? ∧ e.session.value?.isSome = true := by
  intro c h s first second whole
  -- With the evaluations in their places the kernel compares them as they stand; names for them
  -- would make the kernel run them.
  dsimp only
  have parses : (parse whole).toOption.any (fun stmts => isPlain stmts &&
      (stmts.head?.any isCall && isChange stmts.tail)) = true := by decide +kernel
  have parses₁ : (parse first).toOption.any (fun stmts => isPlain stmts &&
      (stmts.head?.any isCall && stmts.tail.isEmpty)) = true := by decide +kernel
  have parses₂ : (parse second).toOption.any (fun stmts => isPlain stmts && isChange stmts) =
      true := by decide +kernel
  have unscanned : ∀ text ∈ [whole, first, second],
      loadTargets text = [] ∧ importNames text = [] := by decide +kernel
  obtain ⟨stmts, parsed, isPlain⟩ := exists_parse_of_any parses
  obtain ⟨stmts₁, parsed₁, isPlain₁⟩ := exists_parse_of_any parses₁
  obtain ⟨stmts₂, parsed₂, isPlain₂⟩ := exists_parse_of_any parses₂
  obtain ⟨isPlain, shape⟩ := Bool.and_eq_true_iff.mp isPlain
  obtain ⟨isPlain₁, shape₁⟩ := Bool.and_eq_true_iff.mp isPlain₁
  obtain ⟨isPlain₂, shape₂⟩ := Bool.and_eq_true_iff.mp isPlain₂
  obtain ⟨scanned, scanned₁, scanned₂⟩ : _ ∧ _ ∧ _ := by simpa using unscanned
  have plain := Plain.of_isPlain parsed scanned.1 scanned.2 isPlain
  have plain₁ := Plain.of_isPlain parsed₁ scanned₁.1 scanned₁.2 isPlain₁
  have plain₂ := Plain.of_isPlain parsed₂ scanned₂.1 scanned₂.2 isPlain₂
  have isSplit : Stmt.bareAll stmts = Stmt.bareAll (stmts₁ ++ stmts₂) ∧ stmts₂ ≠ [] := by
    obtain ⟨starts, changes⟩ := Bool.and_eq_true_iff.mp shape
    obtain ⟨starts₁, ended₁⟩ := Bool.and_eq_true_iff.mp shape₁
    obtain ⟨stmt, isFirst, call⟩ := (Option.any_eq_true _ _).mp starts
    obtain ⟨stmt₁, isFirst₁, call₁⟩ := (Option.any_eq_true _ _).mp starts₁
    obtain ⟨rest, rfl⟩ := List.head?_eq_some_iff.mp isFirst
    obtain ⟨rest₁, rfl⟩ := List.head?_eq_some_iff.mp isFirst₁
    obtain rfl : rest₁ = [] := List.isEmpty_iff.mp ended₁
    refine ⟨?_, by rintro rfl; cases shape₂⟩
    exact congrArg₂ List.cons (mapSpan_eq_of_isCall call call₁)
      (bareAll_eq_of_isChange changes shape₂)
  have bodies : (s.history.all fun commit => commit.unit.program.functions.entries.all fun entry =>
      !decide (entry.2.body.Mentions runtimeName)) = true := by decide +kernel
  have unasked : ∀ commit ∈ s.history, ∀ name decl,
      commit.unit.program.functions.get? name = some decl → ¬decl.body.Mentions runtimeName := by
    intro commit member name decl declared
    obtain ⟨before, after, entries, -⟩ := List.lookup_eq_some_iff.mp declared
    have inside : (name, decl) ∈ commit.unit.program.functions.entries := by simp [entries]
    simpa using List.all_eq_true.mp (List.all_eq_true.mp bodies commit member) _ inside
  have reachable : ReachableBy (fun _ => True) s := .evaluate .new trivial _ _ _
  have calm : (s.evaluate h whole [] {}).world.token.fired = false ∧
      (s.evaluate h first [] {}).world.token.fired = false ∧
      ((s.evaluate h first [] {}).session.evaluate h second [] {}).world.token.fired = false := by
    decide +kernel
  have succeeds : (s.evaluate h whole [] {}).outcome.isSuccess = true ∧
      (s.evaluate h whole [] {}).session.value?.isSome = true := by decide +kernel
  obtain ⟨both, same⟩ := evaluate_split reachable h plain plain₁ plain₂ isSplit.1 isSplit.2 unasked
    [] {} {} {} calm.1 calm.2.1 calm.2.2
  obtain ⟨succeeds₁, succeeds₂⟩ := both.mp succeeds.1
  obtain ⟨env, bindings, value⟩ := same succeeds.1
  exact ⟨⟨stmts, stmts₁, stmts₂, plain, plain₁, plain₂, isSplit⟩, succeeds.1, succeeds₁, succeeds₂,
    env, bindings, value, succeeds.2⟩

end Session

end ScriptShell
