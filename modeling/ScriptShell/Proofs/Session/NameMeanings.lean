import ScriptShell.Module.Standard
import ScriptShell.Proofs.Reference.Entries
import ScriptShell.Proofs.Session.Chain
import ScriptShell.Proofs.Syntax.Levels
import ScriptShell.Proofs.Typing.Meanings

/-! # What names stand for along a session

A name is checked once, in the fragment where it stands, and looked up whenever it is evaluated: in
that fragment, or in a later one that calls a function of it. What a session has loaded and imported
by then includes all that was there when the name was checked (`Fragment.Continues`). So the name
keeps its meaning unless it is overtaken (**`denotes_unless_overtaken`**): by an import that was not
loaded, which the checker passed over and the evaluator does not, or by a module of its name that
was loaded since. -/

namespace ScriptShell

/-- The scope in which the statements of a fragment are checked, after older fragments, the newest
first. -/
def Fragment.scope (f : Fragment) (c : Catalog) (older : List Fragment) : Scope where
  catalog := c
  modules := f.program.modules
  imports := f.program.imports
  bindings := (older.head?.map (·.program.bindings)).getD {}

/-- What holds of a fragment and the older ones, the newest first: it has no problems, and it has
all modules and imports that they have, their imports first. -/
structure Fragment.Continues (c : Catalog) (f : Fragment) (older : List Fragment) : Prop where
  clean : ((f.scope c older).checkAll f.program.statements).problems = []
  modules : ∀ before ∈ older, ∀ m ∈ before.program.modules, m ∈ f.program.modules
  imports : ∀ before ∈ older, before.program.imports <+: f.program.imports

/-- New imports come after those that are there. -/
theorem References.prefix_imports_merge (s other : References) :
    s.imports <+: (s.merge other).imports := by
  rw [imports_merge, addImports]
  generalize other.imports = names
  induction names generalizing s with
  | nil => exact List.prefix_rfl
  | cons name rest ih =>
      have first : s.imports <+: (s.addImport name).imports := by
        rw [addImport]
        split
        · exact List.prefix_rfl
        · exact List.prefix_append _ _
      exact first.trans (ih (s.addImport name))

namespace Session

variable {c : Catalog} {h : Host} {s : Session} {text : String} {resolved : List Reference}
  {unit : ScriptUnit}

/-- What a compiled fragment has loaded and imported. -/
theorem Compiles.modules_imports (compiles : s.Compiles h text resolved unit) :
    unit.program.modules = h.catalog.usable (s.references.merge (incoming text resolved)) ∧
      unit.program.imports = importedModules (s.references.merge (incoming text resolved)) := by
  obtain ⟨stmts, -, -, isUnit⟩ := compile_ok compiles.compiles
  rw [isUnit]
  exact ⟨rfl, rfl⟩

/-- Every fragment of a session continues the older ones, and what it had loaded and imported is
still bound. -/
structure Continued (c : Catalog) (s : Session) : Prop where
  fragments : ∀ f older, f :: older <:+ s.history.map (·.unit.toFragment) → f.Continues c older
  modules : ∀ commit ∈ s.history, ∀ m ∈ commit.unit.program.modules, m ∈ c.usable s.references
  imports : ∀ commit ∈ s.history,
    commit.unit.program.imports <+: importedModules s.references

/-- A new session has nothing to continue. -/
theorem Continued.new (c : Catalog) : Continued c {} where
  fragments f older suffix := by cases List.suffix_nil.mp suffix
  modules := nofun
  imports := nofun

/-- The imported modules of a session stay in front of those that come in. -/
theorem prefix_importedModules (s : Session) (incoming : References) :
    importedModules s.references <+: importedModules (s.references.merge incoming) :=
  List.cons_prefix_cons.mpr ⟨rfl, s.references.prefix_imports_merge incoming⟩

/-- A fragment that compiles continues those of the session. -/
theorem Continued.compiled (continued : s.Continued h.catalog) (chained : s.Chained)
    (compiles : s.Compiles h text resolved unit) :
    ∀ f older, f :: older <:+ unit.ancestors → f.Continues h.catalog older := by
  obtain ⟨isModules, isImports⟩ := compiles.modules_imports
  intro f older suffix
  rw [(chained.compiled compiles).1] at suffix
  rcases List.suffix_cons_iff.mp suffix with same | suffix
  · obtain ⟨rfl, rfl⟩ := List.cons.inj same
    have isScope : unit.toFragment.scope h.catalog (s.history.map (·.unit.toFragment)) =
        h.catalog.scope (s.references.merge (incoming text resolved))
          (bindingsAfter s.newestUnit?) := by
      simp only [Fragment.scope, Catalog.scope, isModules, isImports, bindingsAfter, newestUnit?,
        List.head?_map, Option.map_map]
      rfl
    constructor
    case clean =>
      rw [isScope]
      exact compiles.clean
    case modules =>
      intro before member m isModule
      obtain ⟨commit, isCommit, rfl⟩ := List.mem_map.mp member
      rw [isModules]
      exact Catalog.mem_usable_of_within (References.within_merge _ _)
        (continued.modules commit isCommit m isModule)
    case imports =>
      intro before member
      obtain ⟨commit, isCommit, rfl⟩ := List.mem_map.mp member
      rw [isImports]
      exact (continued.imports commit isCommit).trans (prefix_importedModules s _)
  · exact continued.fragments f older suffix

/-- A commit keeps the fragments continued. -/
theorem Continued.commit (continued : s.Continued h.catalog) (chained : s.Chained)
    (compiles : s.Compiles h text resolved unit) (env : Environment) (value : Option Value) :
    Continued h.catalog (s.commit (incoming text resolved) unit env value).1 := by
  obtain ⟨isModules, isImports⟩ := compiles.modules_imports
  have ancestors := (chained.compiled compiles).1
  constructor
  case fragments =>
    intro f older suffix
    rw [history_commit, List.map_cons, ← ancestors] at suffix
    exact continued.compiled chained compiles f older suffix
  case modules =>
    intro commit member m isModule
    rcases List.mem_cons.mp member with rfl | member
    · have isUsable : m ∈ h.catalog.usable (s.references.merge (incoming text resolved)) :=
        isModules ▸ isModule
      exact Catalog.mem_usable_of_within (References.merge_within_merge_addModules _ _ _) isUsable
    · exact Catalog.mem_usable_of_within (References.within_merge _ _)
        (continued.modules commit member m isModule)
  case imports =>
    intro commit member
    rcases List.mem_cons.mp member with rfl | member
    · have same :
          (s.references.merge ((incoming text resolved).addModules unit.references)).imports =
            (s.references.merge (incoming text resolved)).imports := by
        simp only [References.imports_merge, References.imports_addModules]
      show unit.program.imports <+: preludeName :: _
      rw [isImports, importedModules, ← same]
      exact List.prefix_rfl
    · exact (continued.imports commit member).trans (prefix_importedModules s _)

/-- Every session that evaluations over a catalog lead to has continued fragments. -/
theorem ReachableBy.continued (reachable : ReachableBy (·.catalog = c) s) :
    s.Chained ∧ s.Continued c := by
  refine @ReachableBy.induction _ (fun s => s.Chained ∧ s.Continued c) ⟨.new, .new c⟩ ?_ _ reachable
  rintro h s text args resolved unit env result started ended rfl ⟨chained, continued⟩ compiles ran
    value -
  exact ⟨chained.commit compiles ran value, continued.commit chained compiles env value⟩

/-- **The evaluator takes every name for what the checker took it for, unless it is overtaken.**
Take a fragment that compiles in a session over a catalog, and any fragment `f` that its run can
evaluate code of: itself or one before it. All expressions of `f` were checked. Whenever a name in
one of them is evaluated while the declared names and the parameters are those that the checker had
there, the checker has typed the name as something, the evaluator gives it the value of something,
and the two are the same thing exactly if the name is not overtaken. -/
theorem denotes_unless_overtaken (reachable : ReachableBy (·.catalog = c) s)
    (isCatalog : h.catalog = c) (compiles : s.Compiles h text resolved unit) (args : List String)
    {f : Fragment} {older : List Fragment} (among : f :: older <:+ unit.ancestors) :
    let x : Execution := ⟨c, unit, args⟩
    let sites := (f.scope c older).sitesAll f.program.statements
    sites.map (·.2) = (Stmt.partsAll f.program.statements).filterMap Stmt.expression? ∧
    ∀ site e name, (site, e) ∈ sites → e.Mentions name →
      ∀ env locals : Environment, Dict.SameNames env site.bindings →
        Dict.SameNames locals site.locals →
      ∃ meaning type denoted value,
        (site.meaning? name = some meaning ∧ site.typeAs? name meaning = some type ∧
          site.typeOf? name = some type) ∧
        (x.meaning? env locals name = some denoted ∧
          x.valueAs? env locals name denoted = some value ∧
          x.lookup? env locals name = some value) ∧
        (denoted = meaning ↔ ¬site.Overtaken unit.program.modules name) := by
  intro x sites
  obtain ⟨chained, continued⟩ := reachable.continued
  subst isCatalog
  have continues := continued.compiled chained compiles f older among
  have newest := continued.compiled chained compiles unit.toFragment unit.earlier List.suffix_rfl
  refine ⟨Scope.map_snd_sitesAll _ _, ?_⟩
  intro site e name checked mentions env locals declared parameters
  have passes := Scope.passes_of_mem_sitesAll _ _ continues.clean _ checked
  -- The running unit has all that the fragment had, whether it is that fragment or a later one.
  have precedes : site.Precedes x := by
    have isModules : site.modules = f.program.modules := passes.modules
    have isImports : site.imports = f.program.imports := passes.imports
    rcases List.mem_cons.mp (among.subset List.mem_cons_self) with same | isEarlier
    · subst same
      exact ⟨passes.catalog.symm, fun m member => isModules ▸ member,
        isImports ▸ List.prefix_rfl⟩
    · refine ⟨passes.catalog.symm, fun m member => ?_, ?_⟩
      · exact newest.modules f isEarlier m (isModules ▸ member)
      · rw [isImports]
        exact newest.imports f isEarlier
  obtain ⟨type, typed⟩ := Option.isSome_iff_exists.mp
    (Scope.typeOf?_of_mentions passes.clean mentions)
  obtain ⟨meaning, taken, isType⟩ := Option.bind_eq_some_iff.mp (site.typeOf?_eq name ▸ typed)
  obtain ⟨denoted, isDenoted, same⟩ :=
    Scope.meaning?_eq_iff precedes declared parameters taken
  obtain ⟨value, isValue⟩ := Option.isSome_iff_exists.mp (Execution.isSome_valueAs? isDenoted)
  have found : x.lookup? env locals name = some value := by
    rw [x.lookup?_eq, isDenoted, Option.bind_some, isValue]
  exact ⟨meaning, type, denoted, value, ⟨taken, isType, typed⟩, ⟨isDenoted, isValue, found⟩, same⟩

/-- Whether an expression calls a function by a name. -/
def callsName (name : String) : Expr → Bool
  | .call (.ident other _) _ _ => other == name
  | _ => false

/-- A call of a name mentions it. -/
theorem mentions_of_callsName {name : String} {e : Expr} (calls : callsName name e = true) :
    e.Mentions name := by
  unfold callsName at calls
  split at calls
  · rename_i other span args whole
    obtain rfl := beq_iff_eq.mp calls
    exact ⟨span, by simp [Expr.parts]⟩
  · cases calls

/-- Without entries, types have the names of an empty environment. -/
theorem sameNames_of_isEmpty {d : Dict Ty} (isEmpty : d.entries.isEmpty = true) :
    Dict.SameNames ({} : Environment) d := by
  intro name
  rw [Dict.contains, Dict.contains, Dict.get?, Dict.get?, List.isEmpty_iff.mp isEmpty]
  rfl

/-- Both modules have a member `f` and only `b` is loaded, but the import of `a`, which stands in a
comment, comes first: the checker takes `f` from `b`, and the evaluator from `a`. -/
theorem denotes_overtaken_import :
    let offering : String → ScriptModule := fun name =>
      { name, functions :=
        [{ name := "f", answers := .str, body := fun _ => .ofExcept (.ok (.str name)) }] }
    let c := Catalog.empty.registerAll [offering "a", offering "b"]
    let h : Host := ⟨c, ⟨Resolver.ofCatalog c, []⟩, 0⟩
    let text := "#load b\n// ; use a\nuse b\nf()"
    ∃ resolved unit site e, ({} : Session).Compiles h text resolved unit ∧
      (site, e) ∈ (unit.toFragment.scope c unit.earlier).sitesAll unit.program.statements ∧
      e.Mentions "f" ∧ site.meaning? "f" = some (.member "b") ∧
      (⟨c, unit, []⟩ : Execution).meaning? {} {} "f" = some (.member "a") ∧
      site.Overtaken unit.program.modules "f" := by
  intro offering c h text
  have resolves : (h.resolvers.resolveText {} text).result.toOption.any
      (fun resolved => decide (resolved = [⟨"b", "1.0", []⟩])) = true := by decide +kernel
  obtain ⟨resolved, resolves, isResolved⟩ := exists_ok_of_any resolves
  obtain rfl := of_decide_eq_true isResolved
  have compiles : (compile c (({} : References).merge (incoming text [⟨"b", "1.0", []⟩])) none 1
      text).toOption.any (fun unit =>
        ((unit.toFragment.scope c unit.earlier).sitesAll unit.program.statements).any fun site =>
          callsName "f" site.2 &&
          decide (site.1.bindings.entries.isEmpty = true ∧ site.1.locals.entries.isEmpty = true ∧
            site.1.meaning? "f" = some (.member "b") ∧
            (⟨c, unit, []⟩ : Execution).meaning? {} {} "f" = some (.member "a"))) = true := by
    decide +kernel
  obtain ⟨unit, compiles, isSite⟩ := exists_ok_of_any compiles
  obtain ⟨⟨site, e⟩, checked, holds⟩ := List.any_eq_true.mp isSite
  obtain ⟨calls, holds⟩ := Bool.and_eq_true_iff.mp holds
  obtain ⟨noNames, noParameters, fromB, fromA⟩ := of_decide_eq_true holds
  have compiled : ({} : Session).Compiles h text _ unit := ⟨resolves, compiles⟩
  have mentions := mentions_of_callsName calls
  obtain ⟨meaning, type, denoted, value, checker, evaluator, same⟩ :=
    (denotes_unless_overtaken .new rfl compiled [] List.suffix_rfl).2 site e "f" checked mentions
      {} {} (sameNames_of_isEmpty noNames) (sameNames_of_isEmpty noParameters)
  obtain rfl := Option.some.inj (checker.1.symm.trans fromB)
  obtain rfl := Option.some.inj (evaluator.1.symm.trans fromA)
  have overtaken : site.Overtaken unit.program.modules "f" :=
    Classical.byContradiction fun notOvertaken => absurd (same.mpr notOvertaken) (by decide)
  exact ⟨_, unit, site, e, compiled, checked, mentions, fromB, fromA, overtaken⟩

end Session

end ScriptShell
