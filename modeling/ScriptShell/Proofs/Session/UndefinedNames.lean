import ScriptShell.Proofs.Evaluation.Functions
import ScriptShell.Proofs.Evaluation.Unbound
import ScriptShell.Proofs.Module.Standard
import ScriptShell.Proofs.Reference.Growth
import ScriptShell.Proofs.Typing.Names

/-! # Which names can be undefined at run time

The checker lets a name pass if something declares it before, and does not ask whether the
declaration will run. So a run can still stop for an undefined name: one that a branch or a loop
declares. `Session.Settled` is what a session keeps along its commits about names, functions and
references; with it, an undefined name is followed back to its declaration.

There is one other way. A unit keeps one function for each name, the one declared last. A function
that is declared again further down is called with the later body from the start, and that body may
use names which only come to be declared in between (`CalledEarly`). -/

namespace ScriptShell

/-- A name that has a type, but no value whatever it stands for, is a declared one. -/
theorem Execution.isSome_of_lookup?_eq_none {s : Execution} {bindings : Dict Ty}
    {env : Environment} {name : String} (unresolved : s.lookup? env {} name = none)
    (typed : ((s.scope bindings).typeOf? name).isSome) : (bindings.get? name).isSome := by
  unfold lookup? at unresolved
  simp only [Option.or_eq_none_iff] at unresolved
  obtain ⟨-, -, noBuiltin, noModule, noImport⟩ := unresolved
  unfold Scope.typeOf? at typed
  simp only [Option.isSome_or, Bool.or_eq_true] at typed
  -- The checker and the evaluator look names up in the same order; everything but a declared name
  -- has a value wherever it has a type.
  rcases typed with parameter | bound | builtin | isModule | imported
  · cases parameter
  · exact bound
  · obtain ⟨type, builtin⟩ := Option.isSome_iff_exists.mp builtin
    obtain ⟨v, value, -⟩ := s.builtin_inhabits builtin
    rw [noBuiltin] at value
    cases value
  · unfold Scope.module? at isModule
    split at isModule
    · rename_i usable
      have value : s.module? name = some (.module name) := if_pos usable
      rw [noModule] at value
      cases value
    · cases isModule
  · obtain ⟨m, isImport, found⟩ := List.findSome?_isSome_iff.mp imported
    split at found
    · have value : (s.imported? name).isSome := by
        refine List.findSome?_isSome_iff.mpr ⟨m, isImport, ?_⟩
        obtain ⟨type, found⟩ := Option.isSome_iff_exists.mp found
        obtain ⟨known, isKnown, typed⟩ := Option.bind_eq_some_iff.mp found
        have isKnown : s.catalog.get? m = some known := isKnown
        simp [isKnown, known.isSome_member?, typed]
      simp [noImport] at value
    · cases found

/-- The functions of an honest catalog never claim that a name is undefined. -/
theorem Catalog.Honest.neverUndefined {c : Catalog} (honest : c.Honest) : c.NeverUndefined := by
  intro ref f args e native failed code
  have noScope := ((honest.functions native).fails failed).1
  rw [code] at noScope
  cases noScope

namespace Session

/-! ## What sessions keep -/

/-- A committed fragment declares a name, itself or inside a branch or a loop. -/
def Declared (s : Session) (name : String) : Prop :=
  ∃ commit ∈ s.history, Stmt.Declares (Stmt.partsAll commit.unit.program.statements) name

/-- What a session keeps about names: the newest unit knows all committed fragments and these have
different numbers; every name with a type is declared, and has a value if it is declared at the top
of a fragment; the bodies of functions mention only what is declared or what references give; and
the functions that names hold are of committed units, unless a module supplied them. -/
structure Settled (h : Host) (s : Session) : Prop where
  chain : (s.newestUnit?.map (·.ancestors)).getD [] = s.history.map (·.unit.toFragment)
  ids : ∀ commit ∈ s.history, commit.unit.id < s.nextUnit
  functions : ∀ commit ∈ s.history,
    commit.unit.program.functions = declaredFunctions commit.unit.program.statements
  bindings : ∀ {name}, ((bindingsAfter s.newestUnit?).get? name).isSome → s.Declared name
  values : ∀ {commit name}, commit ∈ s.history →
    Stmt.Declares commit.unit.program.statements name → (Dict.get? s.env name).isSome
  bodies : ∀ {commit g params body span name}, commit ∈ s.history →
    .define g params body span ∈ Stmt.partsAll commit.unit.program.statements →
    body.Mentions name →
    name ∈ params ∨ ((h.catalog.scope s.references {}).typeOf? name).isSome ∨ s.Declared name
  calls : s.env.All (Value.Calls fun ref => ref.unit < s.nextUnit ∨ h.catalog.Supplies ref)

variable {h : Host} {s : Session} {text : String} {resolved : List Reference} {unit : ScriptUnit}

/-- What the next fragment mentions: a parameter, what references give, or what is declared in a
committed fragment or in this one. -/
theorem Settled.mentions (settled : s.Settled h) {stmts : List Stmt}
    (clean : ((h.catalog.scope (s.references.merge (incoming text resolved))
      (bindingsAfter s.newestUnit?)).checkAll stmts).problems = [])
    {part : Stmt} (member : part ∈ Stmt.partsAll stmts) {e : Expr} (own : part.expression? = some e)
    {name : String} (mentions : e.Mentions name) :
    name ∈ part.params ∨
      ((h.catalog.scope (s.references.merge (incoming text resolved)) {}).typeOf? name).isSome ∨
      s.Declared name ∨ Stmt.Declares (Stmt.partsAll stmts) name := by
  rcases Scope.accounts_of_checkAll _ stmts clean part member e own mentions with
    parameter | typed | declared
  · exact .inl parameter
  -- What has a type has it through references, or through the names of the newest unit.
  · have names : ((bindingsAfter s.newestUnit?).get? name).isSome ↔
        (Dict.get? ({} : Dict Ty) name).isSome ∨
          ((bindingsAfter s.newestUnit?).get? name).isSome := by
      simp [show Dict.get? ({} : Dict Ty) name = none from rfl]
    rcases Scope.typeOf?_after (s := h.catalog.scope _ {}) names typed with given | bound
    · exact .inr (.inl given)
    · exact .inr (.inr (.inl (settled.bindings bound)))
  · exact .inr (.inr (.inr declared))

/-- A new session. -/
theorem Settled.new (h : Host) : Settled h {} where
  chain := rfl
  ids _ member := by cases member
  functions _ member := by cases member
  bindings bound := by cases bound
  values member := by cases member
  bodies member := by cases member
  calls := Environment.all_empty

/-- **What sessions keep is kept by every commit.** -/
theorem Settled.commit (settled : s.Settled h) (compiles : s.Compiles h text resolved unit)
    {args : List String} {started ended : World} {env : Environment} {result : Value}
    (ran : (⟨h.catalog, unit, args⟩ : Execution).run h.rounds s.env started =
      .ok (env, result) ended) (value : Option Value) :
    Settled h (s.commit (incoming text resolved) unit env value).1 := by
  obtain ⟨stmts, parsed, clean, isUnit⟩ := compile_ok compiles.compiles
  have own : unit.program.statements = stmts := by rw [isUnit]
  have declared : ∀ {name}, s.Declared name →
      (s.commit (incoming text resolved) unit env value).1.Declared name :=
    fun ⟨commit, member, declares⟩ => ⟨commit, List.mem_cons_of_mem _ member, declares⟩
  have ownDeclared : ∀ {name}, Stmt.Declares (Stmt.partsAll stmts) name →
      (s.commit (incoming text resolved) unit env value).1.Declared name :=
    fun declares => ⟨⟨unit, env, value⟩, List.mem_cons_self, own ▸ declares⟩
  have within : (s.references.merge (incoming text resolved)).Within
      (s.commit (incoming text resolved) unit env value).1.references :=
    References.merge_within_merge_addModules _ _ _
  rw [Execution.run_eq] at ran
  have after :=
    (Execution.execAll_declares h.rounds _ s.env unit.program.statements .null).of_ok ran
  refine ⟨?chain, ?ids, ?functions, ?bindings, ?values, ?bodies, ?calls⟩
  case chain =>
    -- The newest unit's ancestors are it and those of the unit before it.
    rw [newestUnit?_commit, history_commit, List.map_cons, ← settled.chain, isUnit]
    rfl
  case ids =>
    intro commit member
    rcases List.mem_cons.mp member with rfl | member
    · rw [isUnit]
      exact Nat.lt_succ_self _
    · exact Nat.lt_succ_of_lt (settled.ids commit member)
  case functions =>
    intro commit member
    rcases List.mem_cons.mp member with rfl | member
    · rw [isUnit]
    · exact settled.functions commit member
  case bindings =>
    intro name bound
    rw [newestUnit?_commit] at bound
    have bound : ((unit.program.bindings).get? name).isSome := bound
    -- The checker gives types to what had one and to what the fragment declares anywhere.
    rw [isUnit, Scope.isSome_checkAll] at bound
    rcases bound with before | declares
    · exact declared (settled.bindings before)
    · exact ownDeclared declares
  case values =>
    intro commit name member declares
    rw [env_commit]
    -- Top statements that ran leave a value, and no run takes values away.
    rcases List.mem_cons.mp member with rfl | member
    · exact after.2 name declares
    · exact after.1 name (settled.values member declares)
  case bodies =>
    intro commit g params body span name member isDefine mentions
    -- A body of this fragment was checked just now; one of an older fragment keeps what it had.
    rcases List.mem_cons.mp member with rfl | member
    · rw [own] at isDefine
      rcases settled.mentions clean isDefine rfl mentions with
        parameter | given | before | declares
      · exact .inl parameter
      · exact .inr (.inl (Catalog.typeOf?_of_within within given))
      · exact .inr (.inr (declared before))
      · exact .inr (.inr (ownDeclared declares))
    · rcases settled.bodies member isDefine mentions with parameter | given | before
      · exact .inl parameter
      · have more := (References.within_merge s.references (incoming text resolved)).trans within
        exact .inr (.inl (Catalog.typeOf?_of_within more given))
      · exact .inr (.inr (declared before))
  case calls =>
    -- Functions of this unit have its number; all others are older or supplied.
    have id : unit.id = s.nextUnit := by rw [isUnit]
    have before : s.env.All
        (Value.Calls fun ref => ref.unit < s.nextUnit + 1 ∨ h.catalog.Supplies ref) :=
      settled.calls.mono fun part calls ref same => (calls ref same).imp_left Nat.lt_succ_of_lt
    have closed : (⟨h.catalog, unit, args⟩ : Execution).Closed
        (Value.Calls fun ref => ref.unit < s.nextUnit + 1 ∨ h.catalog.Supplies ref) :=
      Execution.closed_calls fun ref supplies => .inr supplies
    have runs := Execution.runBlock_all closed h.rounds maxOpenLevels before unit.program.statements
      fun name params body span _ ref same => by
        cases same
        exact .inl (id ▸ Nat.lt_succ_self _)
    exact (runs.of_ok ran).1

/-- Every reachable session is settled. -/
theorem settled_of_reachable (reachable : Reachable h s) : s.Settled h := by
  refine @Reachable.induction h (Settled h) (.new h) ?_ s reachable
  intro s text args resolved unit env result started ended _ settled compiles ran value
  exact settled.commit compiles ran value

/-! ## Following an undefined name back -/

/-- A committed fragment declares a name inside a branch or a loop. -/
def DeclaredInside (s : Session) (name : String) : Prop :=
  ∃ commit ∈ s.history, Stmt.DeclaresInside commit.unit.program.statements name

section

variable {args : List String} {env : Environment} {name : String} {done rest : List Stmt}
  {stmt : Stmt}

/-- What a unit that the next fragment compiles to sees in addition to declared names. -/
theorem scope_eq (compiles : s.Compiles h text resolved unit) (args : List String)
    (bindings : Dict Ty) : (⟨h.catalog, unit, args⟩ : Execution).scope bindings =
      h.catalog.scope (s.references.merge (incoming text resolved)) bindings := by
  obtain ⟨stmts, -, -, isUnit⟩ := compile_ok compiles.compiles
  rw [isUnit]
  rfl

/-- A declared name without a value is declared inside a branch or a loop. -/
theorem Settled.declaredInside_of_declared (settled : s.Settled h) (declared : s.Declared name)
    (grows : s.env.Grows env) {e : Execution} (unresolved : e.lookup? env {} name = none) :
    s.DeclaredInside name := by
  obtain ⟨commit, member, declares⟩ := declared
  rcases Stmt.declares_partsAll.mp declares with top | inside
  · have there := grows name (settled.values member top)
    rw [e.get?_eq_none_of_lookup? unresolved] at there
    cases there
  · exact ⟨commit, member, inside⟩

/-- A name without a value that statements of the next fragment mention is declared inside a branch
or a loop of a committed fragment, or in these statements. -/
theorem Settled.declares_of_mentions (settled : s.Settled h)
    (compiles : s.Compiles h text resolved unit) (grows : s.env.Grows env)
    (unresolved : (⟨h.catalog, unit, args⟩ : Execution).lookup? env {} name = none)
    {first second : List Stmt} (statements : unit.program.statements = first ++ second)
    {part : Stmt} (member : part ∈ Stmt.partsAll first) {e : Expr} (own : part.expression? = some e)
    (mentions : e.Mentions name) (notParameter : name ∉ part.params) :
    s.DeclaredInside name ∨ Stmt.Declares first name ∨ Stmt.DeclaresInside first name := by
  have clean := compiles.clean
  rw [statements, Scope.checkAll_append, List.append_eq_nil_iff] at clean
  rcases settled.mentions clean.1 member own mentions with parameter | given | declared | declares
  · exact absurd parameter notParameter
  · rw [← scope_eq compiles args] at given
    cases Execution.isSome_of_lookup?_eq_none unresolved given
  · exact .inl (settled.declaredInside_of_declared declared grows unresolved)
  · exact .inr (Stmt.declares_partsAll.mp declares)

/-- A name without a value that the next top statement evaluates, itself or in its blocks, is
declared inside a branch or a loop. -/
theorem Settled.declaresInside_of_evaluated (settled : s.Settled h)
    (compiles : s.Compiles h text resolved unit) (grows : s.env.Grows env)
    (unresolved : (⟨h.catalog, unit, args⟩ : Execution).lookup? env {} name = none)
    (statements : unit.program.statements = done ++ stmt :: rest)
    (notDone : ¬Stmt.Declares done name) {part : Stmt} (member : part ∈ stmt.parts) {e : Expr}
    (own : part.evaluated? = some e) (mentions : e.Mentions name) :
    s.DeclaredInside name ∨ Stmt.DeclaresInside unit.program.statements name := by
  rcases List.mem_cons.mp member with rfl | inner
  · -- Its own expression is checked with what the statements before it declare.
    have clean := compiles.clean
    rw [statements, Scope.checkAll_append, List.append_eq_nil_iff] at clean
    simp only [Scope.checkAll, List.append_eq_nil_iff] at clean
    have typed := Scope.typeOf?_of_check clean.2.1 own mentions
    have bound := Execution.isSome_of_lookup?_eq_none unresolved (scope_eq compiles args _ ▸ typed)
    rcases (Scope.isSome_checkAll _ done).mp bound with before | declares
    · exact .inl (settled.declaredInside_of_declared (settled.bindings before) grows unresolved)
    · rcases Stmt.declares_partsAll.mp declares with top | inside
      · exact absurd top notDone
      · exact .inr (statements ▸ inside.append_right _)
  -- A part inside its blocks may use what the statement itself declares, but only inside.
  · have own' : part.expression? = some e ∧ part.params = [] := by
      cases part <;> first | exact ⟨own, rfl⟩ | cases own
    have grouped : unit.program.statements = (done ++ [stmt]) ++ rest := by simp [statements]
    have inAll : part ∈ Stmt.partsAll (done ++ [stmt]) :=
      Stmt.mem_partsAll.mpr ⟨stmt, by simp, member⟩
    have declared := settled.declares_of_mentions compiles grows unresolved grouped inAll own'.1
      mentions (by simp [own'.2])
    rcases declared with committed | top | inside
    · exact .inl committed
    · simp [Stmt.declared?_eq_none_of_mem_inner inner, notDone] at top
    · exact .inr (grouped ▸ inside.append_right _)

/-- The next fragment calls a function before the declaration whose body it runs: the declaration
comes later, its body mentions a name that is declared from here on only, and an earlier declaration
of the same name made the function's value, unless a module supplied it. -/
def CalledEarly (c : Catalog) (unit : ScriptUnit) (done : List Stmt) (stmt : Stmt)
    (rest : List Stmt) (name : String) : Prop :=
  ∃ g decl, (declaredFunctions rest).get? g = some decl ∧
    decl.body.Mentions name ∧ name ∉ decl.params ∧ Stmt.Declares (stmt :: rest) name ∧
    ((∃ params body span, .define g params body span ∈ Stmt.partsAll (done ++ [stmt])) ∨
      c.Supplies ⟨g, unit.id⟩)

/-- The functions at hand while a top statement of a fragment runs: those of earlier fragments,
those that the fragment has declared so far, and those that modules supply. -/
def AtHand (c : Catalog) (unit : ScriptUnit) (started : List Stmt) : Value → Prop :=
  Value.Calls fun ref => ref.unit = unit.id →
    (∃ params body span, .define ref.name params body span ∈ Stmt.partsAll started) ∨ c.Supplies ref

/-- A function that was declared by what has started is at hand. -/
theorem atHand_of_mem (c : Catalog) {started : List Stmt} {g : String} {params : List String}
    {body : Expr} {span : Span} (member : .define g params body span ∈ Stmt.partsAll started) :
    AtHand c unit started (.func ⟨g, unit.id⟩) := by
  intro ref same _
  cases same
  exact .inl ⟨params, body, span, member⟩

/-- Evaluation finds no other functions than those at hand. -/
theorem closed_atHand (c : Catalog) (unit : ScriptUnit) (args : List String) (started : List Stmt) :
    (⟨c, unit, args⟩ : Execution).Closed (AtHand c unit started) :=
  Execution.closed_calls fun _ supplies _ => .inr supplies

/-- The functions that a session holds are at hand for the next fragment. -/
theorem Settled.atHand (settled : s.Settled h) (compiles : s.Compiles h text resolved unit)
    (started : List Stmt) : s.env.All (AtHand h.catalog unit started) := by
  obtain ⟨stmts, -, -, isUnit⟩ := compile_ok compiles.compiles
  have id : unit.id = s.nextUnit := by rw [isUnit]
  refine settled.calls.mono fun v calls ref same isOwn => ?_
  rcases calls ref same with older | supplies
  · omega
  · exact .inr supplies

/-- A name without a value in the body of a function of a committed fragment. -/
theorem Settled.declaredInside_of_committed (settled : s.Settled h)
    (compiles : s.Compiles h text resolved unit) (grows : s.env.Grows env)
    (unresolved : (⟨h.catalog, unit, args⟩ : Execution).lookup? env {} name = none)
    {commit : Commit} (member : commit ∈ s.history) {g : String} {decl : FunctionDecl}
    (found : commit.unit.program.functions.get? g = some decl) (mentions : decl.body.Mentions name)
    (notParameter : name ∉ decl.params) : s.DeclaredInside name := by
  rw [settled.functions commit member] at found
  obtain ⟨span, isDefine⟩ := define_mem_of_declaredFunctions found
  rcases settled.bodies member isDefine mentions with parameter | given | declared
  · exact absurd parameter notParameter
  · -- References only grow, so what they gave to the body they still give.
    have given := Catalog.typeOf?_of_within
      (References.within_merge s.references (incoming text resolved)) given
    rw [← scope_eq compiles args] at given
    cases Execution.isSome_of_lookup?_eq_none unresolved given
  · exact settled.declaredInside_of_declared declared grows unresolved

/-- A name without a value in the body of a function of the next fragment itself. -/
theorem Settled.declaresInside_of_own (settled : s.Settled h)
    (compiles : s.Compiles h text resolved unit) (grows : s.env.Grows env)
    (unresolved : (⟨h.catalog, unit, args⟩ : Execution).lookup? env {} name = none)
    (statements : unit.program.statements = done ++ stmt :: rest)
    (notDone : ¬Stmt.Declares done name)
    (notDefine : ∀ g params body span, stmt ≠ .define g params body span)
    {g : String} {decl : FunctionDecl}
    (atHand : AtHand h.catalog unit (done ++ [stmt]) (.func ⟨g, unit.id⟩))
    (found : (declaredFunctions unit.program.statements).get? g = some decl)
    (mentions : decl.body.Mentions name) (notParameter : name ∉ decl.params) :
    s.DeclaredInside name ∨ Stmt.DeclaresInside unit.program.statements name ∨
      CalledEarly h.catalog unit done stmt rest name := by
  have grouped : unit.program.statements = (done ++ [stmt]) ++ rest := by simp [statements]
  rw [grouped, declaredFunctions_append] at found
  -- The last declaration wins, so the body is a later one's if there is a later one.
  rcases Option.or_eq_some_iff.mp found with later | ⟨-, earlier⟩
  · obtain ⟨span, isDefine⟩ := define_mem_of_declaredFunctions later
    have inAll : .define g decl.params decl.body span ∈ Stmt.partsAll unit.program.statements := by
      rw [grouped, Stmt.partsAll_append]
      exact List.mem_append_right _ isDefine
    have declared := settled.declares_of_mentions compiles grows unresolved
      (List.append_nil _).symm inAll rfl mentions notParameter
    rcases declared with committed | top | inside
    · exact .inl committed
    · rw [statements, Stmt.declares_append] at top
      have fromHere := top.resolve_left notDone
      exact .inr (.inr ⟨g, decl, later, mentions, notParameter, fromHere, atHand _ rfl rfl⟩)
    · exact .inr (.inl inside)
  · -- The body is of a declaration that has run or stands inside this statement.
    obtain ⟨span, isDefine⟩ := define_mem_of_declaredFunctions earlier
    rw [Stmt.partsAll_append] at isDefine
    rcases List.mem_append.mp isDefine with inDone | inStmt
    · have declared := settled.declares_of_mentions compiles grows unresolved statements inDone rfl
        mentions notParameter
      rcases declared with committed | top | inside
      · exact .inl committed
      · exact absurd top notDone
      · exact .inr (.inl (statements ▸ inside.append_right _))
    · obtain ⟨_, same, inParts⟩ := Stmt.mem_partsAll.mp inStmt
      rw [List.mem_singleton.mp same] at inParts
      have inner := (List.mem_cons.mp inParts).resolve_left fun same => notDefine _ _ _ _ same.symm
      have inAll : .define g decl.params decl.body span ∈ Stmt.partsAll (done ++ [stmt]) := by
        rw [Stmt.partsAll_append]
        exact List.mem_append_right _ inStmt
      have declared := settled.declares_of_mentions compiles grows unresolved grouped inAll rfl
        mentions notParameter
      rcases declared with committed | top | inside
      · exact .inl committed
      · simp [Stmt.declared?_eq_none_of_mem_inner inner, notDone] at top
      · exact .inr (.inl (grouped ▸ inside.append_right _))

/-- A name without a value in the body of a function at hand. -/
theorem Settled.declaresInside_of_body (settled : s.Settled h)
    (compiles : s.Compiles h text resolved unit) (grows : s.env.Grows env)
    (unresolved : (⟨h.catalog, unit, args⟩ : Execution).lookup? env {} name = none)
    (statements : unit.program.statements = done ++ stmt :: rest)
    (notDone : ¬Stmt.Declares done name)
    (notDefine : ∀ g params body span, stmt ≠ .define g params body span)
    (inBody : (⟨h.catalog, unit, args⟩ : Execution).InBody
      (AtHand h.catalog unit (done ++ [stmt])) name) :
    s.DeclaredInside name ∨ Stmt.DeclaresInside unit.program.statements name ∨
      CalledEarly h.catalog unit done stmt rest name := by
  obtain ⟨⟨g, id⟩, decl, atHand, found, mentions, notParameter⟩ := inBody
  obtain ⟨fragment, isFragment, found⟩ := Option.bind_eq_some_iff.mp found
  have sameId : fragment.id = id := by simpa using List.find?_some isFragment
  have member := List.mem_of_find?_eq_some isFragment
  obtain ⟨stmts, -, -, isUnit⟩ := compile_ok compiles.compiles
  -- The function is of this fragment, or of a committed one.
  rcases List.mem_cons.mp member with rfl | earlier
  · have functions : unit.program.functions = declaredFunctions unit.program.statements := by
      rw [isUnit]
    subst sameId
    exact settled.declaresInside_of_own compiles grows unresolved statements notDone notDefine
      atHand (functions ▸ found) mentions notParameter
  · have chain : unit.earlier = s.history.map (·.unit.toFragment) := by
      rw [isUnit]
      exact settled.chain
    obtain ⟨commit, committed, rfl⟩ := List.mem_map.mp (chain ▸ earlier)
    exact .inl (settled.declaredInside_of_committed compiles grows unresolved committed found
      mentions notParameter)

/-- Where the run of a fragment stopped: its first statements ran to their end, and the next one
failed. -/
structure StopsAt (h : Host) (s : Session) (text : String) (args : List String) (world : World)
    (error : RunError) (unit : ScriptUnit) (done : List Stmt) (stmt : Stmt) (rest : List Stmt) :
    Prop where
  compiles : ∃ resolved, s.Compiles h text resolved unit
  statements : unit.program.statements = done ++ stmt :: rest
  completed : ∃ env value middle, (⟨h.catalog, unit, args⟩ : Execution).runBlock h.rounds
    maxOpenLevels s.env done world.looked.looked = .ok (env, value) middle
  failed : ∃ ended, (⟨h.catalog, unit, args⟩ : Execution).runBlock h.rounds
    maxOpenLevels s.env (done ++ [stmt]) world.looked.looked = .error (.failed error) ended

/-- **Undefined names are declared where it may not run, or called for too early.** Let no native
function claim that a name is undefined. If a fragment of a reachable session stops for an undefined
name, no fragment committed before declares that name by a statement at its top, nor does a top
statement of this fragment that has run to its end; and the name is declared inside a branch or a
loop, of this fragment or a committed one, or else a function is called for which the fragment has
another declaration further down. -/
theorem evaluate_undefined (quiet : h.catalog.NeverUndefined) (reachable : Reachable h s)
    {text : String} {args : List String} {world : World} {error : RunError}
    (fault : (s.evaluate h text args world).outcome = .fault (.runtime error))
    (code : error.code = .undefinedVariable) :
    ∃ name unit done stmt rest, StopsAt h s text args world error unit done stmt rest ∧
      error.message = "undefined variable '" ++ name ++ "'" ∧
      (∀ commit ∈ s.history, ¬Stmt.Declares commit.unit.program.statements name) ∧
      ¬Stmt.Declares done name ∧
      (s.DeclaredInside name ∨ Stmt.DeclaresInside unit.program.statements name ∨
        CalledEarly h.catalog unit done stmt rest name) := by
  have settled := settled_of_reachable reachable
  obtain ⟨resolved, unit, ended, compiles, stopped | rfl⟩ := evaluate_runtimeFault fault
  -- Running out of rounds has another code.
  case inr => cases code
  rw [Execution.run_eq] at stopped
  obtain ⟨done, stmt, rest, env, value, middle, started, statements, completed, failed, last⟩ :=
    Execution.execAll_error stopped (by simp)
  -- What the statements before this one have left: more names, and only functions at hand.
  have ⟨grows, declared⟩ := (Execution.execAll_declares h.rounds _ s.env done .null).of_ok completed
  have closed := closed_atHand h.catalog unit args (done ++ [stmt])
  have inDone : ∀ part ∈ Stmt.partsAll done, part ∈ Stmt.partsAll (done ++ [stmt]) := by
    intro part member
    rw [Stmt.partsAll_append]
    exact List.mem_append_left _ member
  have after := (Execution.runBlock_all closed h.rounds maxOpenLevels
    (settled.atHand compiles (done ++ [stmt])) done fun g params body span member =>
      atHand_of_mem h.catalog (inDone _ member)).of_ok completed
  have unbound := (Execution.stepAt_unbound quiet closed after.1
    (fun g params body span member => atHand_of_mem h.catalog
      (Stmt.mem_partsAll.mpr ⟨stmt, by simp, member⟩)) h.rounds _).of_error last
  obtain ⟨name, message, unresolved, origin⟩ := unbound error rfl code
  have noValue := Execution.get?_eq_none_of_lookup? _ unresolved
  have notThere : ¬(Dict.get? env name).isSome := by simp [noValue]
  have notDone : ¬Stmt.Declares done name := fun declares => notThere (declared name declares)
  refine ⟨name, unit, done, stmt, rest,
    ⟨⟨resolved, compiles⟩, statements, ⟨env, value, middle, completed⟩, ⟨ended, failed⟩⟩, message,
    fun commit member declares => ?_, notDone, ?_⟩
  -- A top statement that ran would have left a value.
  · exact notThere (grows name (settled.values member declares))
  -- The name stands in an expression of the statement, or in the body of a function it called; a
  -- declaration itself calls nothing.
  · rcases origin with ⟨part, member, e, own, mentions⟩ | inBody
    · have declared := settled.declaresInside_of_evaluated compiles grows unresolved statements
        notDone member own mentions
      exact declared.imp_right .inl
    · refine settled.declaresInside_of_body compiles grows unresolved statements notDone ?_ inBody
      intro g params body span same
      subst same
      cases last

/-- The second declaration of a function is called before the name in its body has a value: the run
stops for that name, which no branch or loop declares. -/
theorem evaluate_undefined_redeclared :
    let h : Host := ⟨Catalog.standard, ⟨Resolver.ofCatalog Catalog.standard, []⟩, 0⟩
    let text := "fn f() = 1\nlet r = f()\nlet y = 2\nfn f() = y"
    ∃ error name unit done stmt rest,
      (({} : Session).evaluate h text [] {}).outcome = .fault (.runtime error) ∧
      error.code = .undefinedVariable ∧ error.message = "undefined variable '" ++ name ++ "'" ∧
      StopsAt h {} text [] {} error unit done stmt rest ∧ ¬Stmt.Declares done name ∧
      ¬Stmt.DeclaresInside unit.program.statements name ∧
      CalledEarly h.catalog unit done stmt rest name := by
  intro h text
  have stops : (({} : Session).evaluate h text [] {}).outcome.fault? =
      some (.runtime ⟨.undefinedVariable, "undefined variable 'y'", []⟩) := by decide +kernel
  have flat : (parse text).toOption.any (·.all (·.inner.isEmpty)) = true := by decide +kernel
  have fault := Outcome.eq_fault_of_fault? stops
  obtain ⟨name, unit, done, stmt, rest, stopsAt, message, -, notDone, origin⟩ :=
    evaluate_undefined Catalog.standard_honest.neverUndefined .new fault rfl
  have notInside : ¬Stmt.DeclaresInside unit.program.statements name := by
    rintro ⟨other, member, declares⟩
    obtain ⟨resolved, compiles⟩ := stopsAt.compiles
    obtain ⟨stmts, parsed, -, isUnit⟩ := compile_ok compiles.compiles
    rw [isUnit] at member
    rw [parsed] at flat
    have noBlock := List.isEmpty_iff.mp (List.all_eq_true.mp flat other member)
    simp [noBlock] at declares
  refine ⟨_, name, unit, done, stmt, rest, fault, rfl, message, stopsAt, notDone, notInside, ?_⟩
  rcases origin with ⟨commit, member, -⟩ | inside | early
  · cases member
  · exact absurd inside notInside
  · exact early

end

end Session

end ScriptShell
