import Mathlib.Data.List.Nodup
import ScriptShell.Proofs.Evaluation.Unbound
import ScriptShell.Proofs.Session.Step
import ScriptShell.Proofs.Typing.Names
import ScriptShell.Session.Preload

/-! # The chain of committed fragments

A session holds its commits, the newest first; each commit holds a unit, and each unit the fragments
before it. These two chains, the numbers of units, the values of names and their types are kept in
step by different parts of an evaluation. `Commit.Follows` says what holds between a commit and the
commits before it, and `Session.Chained` that it holds everywhere along a session.

**`Chained.commit`** is the step: a commit of what compiled and ran follows the commits before it.
**`serveAll_chained`** is the law for whole sequences of requests, whatever they come to. -/

namespace ScriptShell

/-! ## Types without void -/

/-- No name has the type of what has no value. -/
def NoVoid (bindings : Dict Ty) : Prop :=
  ∀ name, bindings.get? name ≠ some .void

/-- Without names, none is of the type without values. -/
theorem NoVoid.empty : NoVoid {} := by
  intro name held
  cases held

/-- A name that is given another type than the one without values. -/
theorem NoVoid.insert {bindings : Dict Ty} (noVoid : NoVoid bindings) {type : Ty}
    (ne : type ≠ .void) (name : String) : NoVoid (bindings.insert name type) := by
  intro other held
  rw [Dict.get?_insert] at held
  split at held
  · exact ne (Option.some.inj held)
  · exact noVoid other held

namespace Scope

/-- A value that is bound to a name has a type with values, or is given the type `any`. -/
theorem typeToBind_ne_void (s : Scope) (name : String) (value : Expr) (span : Span) :
    (s.typeToBind name value span).type ≠ .void := by
  unfold typeToBind
  dsimp only
  by_cases isVoid : (s.infer value).type.isVoid = true
  · rw [if_pos isVoid]
    exact Ty.noConfusion
  · rw [if_neg isVoid]
    intro same
    rw [same] at isVoid
    exact isVoid rfl

/-- An assignment joins two types, and only equal ones do not join to `any`. -/
theorem assignedType_ne_void {bindings : Dict Ty} (noVoid : NoVoid bindings) (name : String)
    {type : Ty} (ne : type ≠ .void) : assignedType bindings name type ≠ .void := by
  unfold assignedType
  split
  · rename_i held isHeld
    unfold Ty.join
    split
    · intro same
      exact noVoid name (same ▸ isHeld)
    · exact Ty.noConfusion
  · exact ne

mutual

/-- Checking a statement gives no name the type of what has no value. -/
theorem noVoid_check (s : Scope) (noVoid : NoVoid s.bindings) (stmt : Stmt) :
    NoVoid (s.check stmt).bindings := by
  cases stmt with
  | load | eval => exact noVoid
  | use module span =>
      simp only [check]
      split
      · exact noVoid
      · exact noVoid
  | define name params body span =>
      exact (noVoid.insert Ty.noConfusion name).insert Ty.noConfusion name
  | bind name value span => exact noVoid.insert (s.typeToBind_ne_void name value span) name
  | assign name value span =>
      have ne := assignedType_ne_void noVoid name (s.typeToBind_ne_void name value span)
      exact noVoid.insert ne name
  | branch test onTrue onFalse span =>
      have first := noVoid_checkAll s noVoid onTrue
      cases onFalse with
      | none => exact first
      | some onFalse => exact noVoid_checkAll (s.withBindings _) first onFalse
  | loop test body span => exact noVoid_checkAll s noVoid body

/-- Checking statements gives no name the type of what has no value. -/
theorem noVoid_checkAll (s : Scope) (noVoid : NoVoid s.bindings) (stmts : List Stmt) :
    NoVoid (s.checkAll stmts).bindings := by
  cases stmts with
  | nil => exact noVoid
  | cons stmt rest =>
      exact noVoid_checkAll (s.withBindings _) (noVoid_check s noVoid stmt) rest

end

end Scope

/-! ## Names that a run leaves -/

/-- A run gives values to no other names than those that the statements declare somewhere. -/
theorem Execution.runBlock_names (s : Execution) (rounds room : Nat) (env : Environment)
    (stmts : List Stmt) :
    (s.runBlock rounds room env stmts).Ensures
      (fun r => ∀ name, (Dict.get? r.1 name).isSome →
        (Dict.get? env name).isSome ∨ Stmt.Declares (Stmt.partsAll stmts) name)
      fun _ => True := by
  have rule : s.Keeps
      (fun later => ∀ name, (Dict.get? later name).isSome →
        (Dict.get? env name).isSome ∨ Stmt.Declares (Stmt.partsAll stmts) name)
      (fun _ => True) (fun _ => True) (Stmt.partsAll stmts) := by
    refine .of_insert fun {later v name} declares holds other there => ?_
    rcases (Dict.isSome_get?_insert later name other v).mp there with same | there
    · exact .inr (same ▸ declares)
    · exact holds other there
  exact (rule.runBlock rounds room fun name there => .inl there).value_mono fun r holds => holds.1

/-! ## Commits one after the other -/

/-- What holds of a commit and the commits before it, the newest of these first: its number counts
them, its unit chains onto theirs, its names are among those of its unit, which have types with
values, and it has all names that they have, both with values and with types. -/
structure Commit.Follows (commit : Commit) (older : List Commit) : Prop where
  id : commit.unit.id = older.length + 1
  previous : commit.unit.earlier = (older.head?.map (·.unit.ancestors)).getD []
  ancestors : commit.unit.ancestors = (commit :: older).map (·.unit.toFragment)
  names : ∀ name, (Dict.get? commit.env name).isSome →
    (commit.unit.program.bindings.get? name).isSome
  noVoid : NoVoid commit.unit.program.bindings
  env : ∀ before ∈ older, before.env.Grows commit.env
  bindings : ∀ before ∈ older, ∀ name, (before.unit.program.bindings.get? name).isSome →
    (commit.unit.program.bindings.get? name).isSome

namespace Session

/-- Every commit of a session follows those before it, and the next number is the next one. -/
structure Chained (s : Session) : Prop where
  next : s.nextUnit = s.history.length + 1
  follows : ∀ commit older, commit :: older <:+ s.history → commit.Follows older

variable {h : Host} {s : Session} {text : String} {resolved : List Reference} {unit : ScriptUnit}

/-- A new session. -/
theorem Chained.new : Chained {} where
  next := rfl
  follows commit older suffix := by
    cases List.suffix_nil.mp suffix

/-- What the newest unit knows of the fragments before the next one. -/
theorem Chained.ancestors (chained : s.Chained) :
    (s.newestUnit?.map (·.ancestors)).getD [] = s.history.map (·.unit.toFragment) := by
  cases history : s.history with
  | nil => simp [newestUnit?, history]
  | cons commit older =>
      have follows := chained.follows commit older (history ▸ List.suffix_refl _)
      simpa [newestUnit?, history] using follows.ancestors

/-- The names with types before the next fragment are no fewer than those of any commit, and none
has the type of what has no value. -/
theorem Chained.bindingsAfter (chained : s.Chained) :
    NoVoid (bindingsAfter s.newestUnit?) ∧
      (∀ name, (Dict.get? s.env name).isSome →
        ((bindingsAfter s.newestUnit?).get? name).isSome) ∧
      ∀ commit ∈ s.history, commit.env.Grows s.env ∧
        ∀ name, (commit.unit.program.bindings.get? name).isSome →
          ((bindingsAfter s.newestUnit?).get? name).isSome := by
  unfold ScriptShell.bindingsAfter newestUnit? Session.env
  cases history : s.history with
  | nil =>
      refine ⟨.empty, ?_, ?_⟩
      · intro name there
        cases there
      · intro commit member
        cases member
  | cons newest older =>
      have follows := chained.follows newest older (history ▸ List.suffix_refl _)
      refine ⟨follows.noVoid, follows.names, fun commit member => ?_⟩
      rcases List.mem_cons.mp member with rfl | member
      · exact ⟨.refl _, fun _ there => there⟩
      · exact ⟨follows.env commit member, follows.bindings commit member⟩

/-- **A commit follows those before it.** -/
theorem Chained.commit (chained : s.Chained) (compiles : s.Compiles h text resolved unit)
    {args : List String} {started ended : World} {env : Environment} {result : Value}
    (ran : (⟨h.catalog, unit, args⟩ : Execution).run h.rounds s.env started =
      .ok (env, result) ended) (value : Option Value) :
    Chained (s.commit (incoming text resolved) unit env value).1 := by
  obtain ⟨stmts, -, -, isUnit⟩ := compile_ok compiles.compiles
  obtain ⟨noVoid, names, before⟩ := chained.bindingsAfter
  have earlier : unit.earlier = s.history.map (·.unit.toFragment) := by
    rw [isUnit, ← chained.ancestors]
  -- The checker keeps all names it had and adds those declared; the run gives values to no others.
  have typed : ∀ name, (unit.program.bindings.get? name).isSome ↔
      ((ScriptShell.bindingsAfter s.newestUnit?).get? name).isSome ∨
        Stmt.Declares (Stmt.partsAll unit.program.statements) name := by
    intro name
    rw [isUnit]
    exact Scope.isSome_checkAll _ stmts
  have left := (Execution.runBlock_names _ h.rounds maxOpenLevels s.env _).of_ok ran
  rw [Execution.run_eq] at ran
  have grows := ((Execution.execAll_declares h.rounds _ s.env _ .null).of_ok ran).1
  constructor
  case next =>
    show s.nextUnit + 1 = s.history.length + 1 + 1
    rw [chained.next]
  case follows =>
    intro commit older suffix
    rw [history_commit] at suffix
    rcases List.suffix_cons_iff.mp suffix with same | suffix
    · obtain ⟨rfl, rfl⟩ := List.cons.inj same
      constructor
      case id =>
        have id : unit.id = s.nextUnit := by rw [isUnit]
        exact id.trans chained.next
      case previous =>
        show unit.earlier = _
        rw [isUnit, newestUnit?, Option.map_map]
        rfl
      case ancestors =>
        show unit.toFragment :: unit.earlier = _
        rw [earlier]
        rfl
      case names =>
        intro name there
        rw [typed]
        rcases left name there with there | declares
        · exact .inl (names name there)
        · exact .inr declares
      case noVoid =>
        show NoVoid unit.program.bindings
        rw [isUnit]
        exact Scope.noVoid_checkAll _ noVoid stmts
      case env =>
        intro other member
        exact (before other member).1.trans grows
      case bindings =>
        intro other member name there
        exact (typed name).mpr (.inl ((before other member).2 name there))
    · exact chained.follows commit older suffix

/-- Every session that evaluations lead to is chained. -/
theorem ReachableBy.chained {allowed : Host → Prop} (reachable : ReachableBy allowed s) :
    s.Chained := by
  refine reachable.induction .new ?_
  intro h s text args resolved unit env result started ended _ chained compiles ran value _
  exact chained.commit compiles ran value

/-- The numbers of a chained session's units count down to one. -/
theorem Chained.ids (chained : s.Chained) :
    s.history.map (·.unit.id) = (List.range' 1 s.history.length).reverse := by
  have counted : ∀ history : List Commit,
      (∀ commit older, commit :: older <:+ history → commit.unit.id = older.length + 1) →
      history.map (·.unit.id) = (List.range' 1 history.length).reverse := by
    intro history
    induction history with
    | nil => intro _; rfl
    | cons newest older ih =>
        intro ids
        have first := ids newest older (List.suffix_refl _)
        have rest := ih fun commit others suffix =>
          ids commit others (suffix.trans (List.suffix_cons newest older))
        rw [List.map_cons, first, rest, List.length_cons, List.range'_concat, List.reverse_append]
        simp [Nat.add_comm]
  exact counted s.history fun commit older suffix => (chained.follows commit older suffix).id

/-- A compiled fragment comes before those of the session, under a number that none of them has. -/
theorem Chained.compiled (chained : s.Chained) (compiles : s.Compiles h text resolved unit) :
    unit.ancestors = unit.toFragment :: s.history.map (·.unit.toFragment) ∧
      (unit.ancestors.map (·.id)).Nodup := by
  obtain ⟨stmts, -, -, isUnit⟩ := compile_ok compiles.compiles
  have ancestors : unit.ancestors = unit.toFragment :: s.history.map (·.unit.toFragment) := by
    rw [ScriptUnit.ancestors, ← chained.ancestors, isUnit]
  have id : unit.id = s.history.length + 1 := by rw [isUnit, chained.next]
  refine ⟨ancestors, ?_⟩
  have ids : unit.ancestors.map (·.id) =
      (s.history.length + 1) :: (List.range' 1 s.history.length).reverse := by
    rw [ancestors, List.map_cons, id, List.map_map, ← chained.ids]
    rfl
  rw [ids, List.nodup_cons, List.nodup_reverse]
  refine ⟨?_, List.nodup_range'⟩
  rw [List.mem_reverse, List.mem_range'_1]
  omega

/-! ## Requests -/

/-- What a session is asked for. -/
inductive Request where
  | evaluate (text : String) (args : List String) (world : World)
  | preload (references imports : List String) (script : Option String) (world : World)
  /-- To compile a fragment without evaluating it. -/
  | compile (text : String)

/-- What a session answers. -/
inductive Response where
  /-- The fragments that were evaluated, in order, each with its outcome. -/
  | evaluated (fragments : List (String × Outcome))
  | compiled (result : Except (List Diagnostic) ScriptUnit)

/-- The texts of the fragments that succeeded, in order. -/
def Response.committed : Response → List String
  | .evaluated fragments => (fragments.filter (·.2.isSuccess)).map (·.1)
  | .compiled _ => []

/-- What is committed of some fragments is what is of the first and of the others. -/
theorem Response.committed_cons (first : String × Outcome) (rest : List (String × Outcome)) :
    (evaluated (first :: rest)).committed =
      (evaluated [first]).committed ++ (evaluated rest).committed := by
  simp only [committed]
  rw [← List.map_append, ← List.filter_append, List.singleton_append]

/-- The answer to a request, and the session after it. -/
def serve (h : Host) (s : Session) : Request → Response × Session
  | .evaluate text args world =>
    let evaluation := s.evaluate h text args world
    (.evaluated [(text, evaluation.outcome)], evaluation.session)
  | .preload references imports script world =>
    let preloaded := s.preload h references imports script world
    (.evaluated ((preloadFragments references imports script).zip preloaded.outcomes),
      preloaded.session)
  | .compile text => (.compiled (s.compileNext h text), s)

/-- The answers to requests made one after the other, and the session after them. Each request has a
host of its own: between two of them files, modules and settings may change. -/
def serveAll : Session → List (Host × Request) → List Response × Session
  | s, [] => ([], s)
  | s, (h, request) :: rest =>
    let first := s.serve h request
    let others := serveAll first.2 rest
    (first.1 :: others.1, others.2)

/-- The texts of a session's committed fragments, the newest first. -/
def sources (s : Session) : List String :=
  s.history.map (·.unit.source)

/-- The session `later` is chained, and has the fragments of certain texts more than `s`. -/
structure Extends (s later : Session) (texts : List String) : Prop where
  chained : later.Chained
  sources : later.sources = texts.reverse ++ s.sources

/-- Sessions are extended step by step. -/
theorem Extends.trans {middle later : Session} {first second : List String}
    (before : s.Extends middle first) (after : middle.Extends later second) :
    s.Extends later (first ++ second) where
  chained := after.chained
  sources := by
    rw [after.sources, before.sources, List.reverse_append, List.append_assoc]

/-- An evaluation extends a session by its fragment if it succeeds, and by nothing if not. -/
theorem Chained.evaluate (chained : s.Chained) (h : Host) (text : String) (args : List String)
    (world : World) :
    s.Extends (s.evaluate h text args world).session
      (Response.evaluated [(text, (s.evaluate h text args world).outcome)]).committed := by
  rcases evaluate_advances h s text args world with ⟨failed, same⟩ | advances
  · rw [same]
    have nothing : s.Extends s [] := ⟨chained, rfl⟩
    simpa [Response.committed, failed] using nothing
  · obtain ⟨value, loaded, resolved, unit, env, result, ended, success, compiles, ran, committed⟩ :=
      advances
    have session : (s.evaluate h text args world).session =
        (s.commit (incoming text resolved) unit env value).1 := by rw [committed]
    rw [session, success]
    refine ⟨chained.commit compiles ran value, ?_⟩
    obtain ⟨stmts, -, -, isUnit⟩ := compile_ok compiles.compiles
    have source : unit.source = text := by rw [isUnit]
    simp [Session.sources, Response.committed, Outcome.isSuccess, source]

/-- Fragments evaluated one after the other extend a session by those that succeed. -/
theorem Chained.evaluateAll (chained : s.Chained) (h : Host) (world : World) (texts : List String) :
    s.Extends (s.evaluateAll h world texts).session
      (Response.evaluated (texts.zip (s.evaluateAll h world texts).outcomes)).committed := by
  induction texts generalizing s world with
  | nil => exact ⟨chained, rfl⟩
  | cons text rest ih =>
      have first := chained.evaluate h text [] world
      have others := ih first.chained (s.evaluate h text [] world).world
      rw [Session.evaluateAll, List.zip_cons_cons, Response.committed_cons]
      exact first.trans others

/-- A request extends a session by the fragments that it evaluates with success. -/
theorem Chained.serve (chained : s.Chained) (h : Host) (request : Request) :
    s.Extends (s.serve h request).2 (s.serve h request).1.committed := by
  cases request with
  | evaluate text args world => exact chained.evaluate h text args world
  | preload references imports script world => exact chained.evaluateAll h world _
  | compile text => exact ⟨chained, rfl⟩

/-- Requests extend a session by all fragments that they evaluate with success. -/
theorem Chained.serveAll (chained : s.Chained) (requests : List (Host × Request)) :
    s.Extends (s.serveAll requests).2 ((s.serveAll requests).1.flatMap Response.committed) := by
  induction requests generalizing s with
  | nil => exact ⟨chained, rfl⟩
  | cons request rest ih =>
      have first := chained.serve request.1 request.2
      exact first.trans (ih first.chained)

/-- **Sessions are chains.** After any sequence of requests to a new session, on whatever hosts and
whatever they came to: the history has the texts of the successful fragments, the last one first;
its units are numbered from how many there are down to one, and the next number is one more; and
every commit follows those before it. -/
theorem serveAll_chained (requests : List (Host × Request)) :
    let responses := (({} : Session).serveAll requests).1
    let s := (({} : Session).serveAll requests).2
    s.history.map (·.unit.source) = (responses.flatMap Response.committed).reverse ∧
      s.history.map (·.unit.id) = (List.range' 1 s.history.length).reverse ∧
      s.nextUnit = s.history.length + 1 ∧
      ∀ commit older, commit :: older <:+ s.history → commit.Follows older := by
  intro responses s
  have extended := Chained.new.serveAll requests
  refine ⟨?_, extended.chained.ids, extended.chained.next, extended.chained.follows⟩
  simpa [Session.sources] using extended.sources

end Session

end ScriptShell
