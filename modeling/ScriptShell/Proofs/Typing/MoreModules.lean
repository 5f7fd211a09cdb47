import Mathlib.Data.List.Forall2
import ScriptShell.Module.Standard
import ScriptShell.Proofs.Syntax.Levels
import ScriptShell.Proofs.Typing.Meanings

/-! # More modules and imports

Where no two modules of a catalog share the name of a member and no member has the name of a module
(`Catalog.NamesApart`), loading and importing more does not change what a name stands for if it
stands for something already (`Scope.Within.meaning?`). So a fragment without problems has none with
more modules and imports, and all types in it stay what they are: **`checkAll_more_modules`**. -/

namespace ScriptShell

/-! ## Catalogs that keep names apart -/

namespace Catalog

/-- No two modules share the name of a member, and no member has the name of a module. -/
structure NamesApart (c : Catalog) : Prop where
  members : ∀ m ∈ c.modules, ∀ m' ∈ c.modules, ∀ name ∈ m.names, name ∈ m'.names → m.name = m'.name
  modules : ∀ m ∈ c.modules, ∀ name ∈ m.names, c.contains name = false

/-- The standard modules keep their names apart. -/
theorem namesApart_standard : Catalog.standard.NamesApart :=
  ⟨by decide +kernel, by decide +kernel⟩

variable {c : Catalog} {module name : String}

/-- A name that a module of the catalog offers is one of that module's names. -/
theorem exists_of_offers (offers : c.offers module name = true) :
    ∃ m ∈ c.modules, m.name = module ∧ name ∈ m.names := by
  rw [Catalog.offers] at offers
  cases known : c.get? module with
  | none => rw [known] at offers; cases offers
  | some m =>
      rw [known] at offers
      exact ⟨m, mem_of_get? known, name_of_get? known, ScriptModule.mem_names_of_typeOf? offers⟩

/-- One module at most has a member of a name. -/
theorem NamesApart.eq_of_offers (apart : c.NamesApart) {other : String}
    (offers : c.offers module name = true) (offers' : c.offers other name = true) :
    module = other := by
  obtain ⟨m, member, rfl, named⟩ := exists_of_offers offers
  obtain ⟨m', member', rfl, named'⟩ := exists_of_offers offers'
  exact apart.members m member m' member' name named named'

/-- Where names are kept apart, no module is called as a member is. -/
theorem NamesApart.contains_eq_false (apart : c.NamesApart) (offers : c.offers module name = true) :
    c.contains name = false := by
  obtain ⟨m, member, -, named⟩ := exists_of_offers offers
  exact apart.modules m member name named

end Catalog

namespace Scope

/-- The second scope has all that the first one has, and maybe more modules and imports; its modules
are those of a catalog. -/
structure Within (s s' : Scope) : Prop where
  catalog : s'.catalog = s.catalog
  bindings : s'.bindings = s.bindings
  locals : s'.locals = s.locals
  modules : s.modules ⊆ s'.modules
  imports : s.imports ⊆ s'.imports
  known : ∀ m ∈ s'.modules, s.catalog.contains m = true

namespace Within

variable {s s' : Scope} {name : String} {meaning : Meaning}

/-- Declared names do not matter to which modules there are. -/
theorem withBindings (within : s.Within s') (bindings : Dict Ty) :
    (s.withBindings bindings).Within (s'.withBindings bindings) :=
  ⟨within.catalog, rfl, within.locals, within.modules, within.imports, within.known⟩

/-- The import that a name is taken from is the same: there is no other one that has it. -/
theorem find?_imports (within : s.Within s') (apart : s.catalog.NamesApart) {m : String}
    (first : (s.imports.find? fun m => m ∈ s.modules && s.catalog.offers m name) = some m) :
    (s'.imports.find? fun m => m ∈ s'.modules && s'.catalog.offers m name) = some m := by
  have holds := List.find?_some first
  simp only [Bool.and_eq_true, decide_eq_true_eq] at holds
  obtain ⟨loaded, offers⟩ := holds
  have imported := within.imports (List.mem_of_find?_eq_some first)
  rw [within.catalog]
  have isSome : (s'.imports.find? fun m => m ∈ s'.modules && s.catalog.offers m name).isSome := by
    rw [List.find?_isSome]
    exact ⟨m, imported, by simp [within.modules loaded, offers]⟩
  obtain ⟨m', found⟩ := Option.isSome_iff_exists.mp isSome
  have holds' := List.find?_some found
  simp only [Bool.and_eq_true, decide_eq_true_eq] at holds'
  rw [found, apart.eq_of_offers offers holds'.2]

/-- **What stands for something goes on to stand for it.** A member is not taken for a module, since
no module has its name, nor from another import, since no other module has it. -/
theorem meaning? (within : s.Within s') (apart : s.catalog.NamesApart)
    (taken : s.meaning? name = some meaning) : s'.meaning? name = some meaning := by
  rw [Scope.meaning?] at taken ⊢
  rw [within.locals, within.bindings]
  rcases Meaning.of?_cases (s.locals.contains name) (s.bindings.contains name) name with
    ⟨other, -, isOther⟩ | isImported
  · rw [isOther] at taken ⊢
    exact taken
  · rw [isImported] at taken ⊢
    by_cases isModule : name ∈ s.modules
    · rw [if_pos isModule] at taken
      rw [if_pos (within.modules isModule)]
      exact taken
    · rw [if_neg isModule] at taken
      obtain ⟨m, first, rfl⟩ := Option.map_eq_some_iff.mp taken
      have holds := List.find?_some first
      simp only [Bool.and_eq_true, decide_eq_true_eq] at holds
      have notModule : name ∉ s'.modules := by
        intro loaded
        have contains := within.known name loaded
        rw [apart.contains_eq_false holds.2] at contains
        cases contains
      rw [if_neg notModule, within.find?_imports apart first]
      rfl

/-- With more modules a name keeps its type. -/
theorem typeOf? (within : s.Within s') (apart : s.catalog.NamesApart) {type : Ty}
    (typed : s.typeOf? name = some type) : s'.typeOf? name = some type := by
  rw [Scope.typeOf?_eq] at typed ⊢
  obtain ⟨meaning, taken, isType⟩ := Option.bind_eq_some_iff.mp typed
  have same : s'.typeAs? name meaning = s.typeAs? name meaning := by
    cases meaning <;> simp only [typeAs?, within.catalog, within.bindings, within.locals]
  rw [within.meaning? apart taken, Option.bind_some, same]
  exact isType

/-! ## Expressions -/

/-- With more modules a member keeps its type. -/
theorem typeOfMember (within : s.Within s') (object : Ty) (property : String) (span : Span) :
    s'.typeOfMember object property span = s.typeOfMember object property span := by
  unfold Scope.typeOfMember
  rw [within.catalog]

mutual

/-- An expression without problems has the same type, and no problems. -/
theorem infer {s s' : Scope} (within : s.Within s') (apart : s.catalog.NamesApart) (e : Expr)
    (clean : (s.infer e).problems = []) : s'.infer e = s.infer e := by
  cases e with
  | num | str | bool | null => rfl
  | list items span =>
      rw [Scope.infer, Scope.infer, inferAll within apart items clean]
  | ident name span =>
      simp only [Scope.infer, typeOfName] at clean ⊢
      cases typed : s.typeOf? name with
      | none => rw [typed] at clean; cases clean
      | some type => rw [within.typeOf? apart typed]
  | member object property span =>
      simp only [Scope.infer, List.append_eq_nil_iff] at clean
      rw [Typed.asValue_clean clean.1] at clean
      simp only [Scope.infer, infer within apart object clean.1, within.typeOfMember]
  | call callee args span =>
      simp only [Scope.infer, List.append_eq_nil_iff] at clean
      rw [Typed.asValue_clean clean.1.1] at clean
      simp only [Scope.infer, infer within apart callee clean.1.1,
        inferAll within apart args clean.1.2]
  | unary op operand span =>
      simp only [Scope.infer, List.append_eq_nil_iff] at clean
      rw [Typed.asValue_clean clean.1] at clean
      simp only [Scope.infer, infer within apart operand clean.1]
  | binary op left right span =>
      simp only [Scope.infer, List.append_eq_nil_iff] at clean
      rw [Typed.asValue_clean clean.1.1, Typed.asValue_clean clean.1.2] at clean
      simp only [Scope.infer, infer within apart left clean.1.1,
        infer within apart right clean.1.2]

/-- Expressions without problems have the same types, and no problems. -/
theorem inferAll {s s' : Scope} (within : s.Within s') (apart : s.catalog.NamesApart)
    (items : List Expr) (clean : (s.inferAll items).2 = []) :
    s'.inferAll items = s.inferAll items := by
  cases items with
  | nil => rfl
  | cons e rest =>
      simp only [Scope.inferAll, List.append_eq_nil_iff] at clean
      rw [Typed.asValue_clean clean.1] at clean
      simp only [Scope.inferAll, infer within apart e clean.1,
        inferAll within apart rest clean.2]

end

/-- With more modules a value that is bound keeps its type. -/
theorem typeToBind (within : s.Within s') (apart : s.catalog.NamesApart) (other : String)
    (value : Expr) (span : Span) (clean : (s.typeToBind other value span).problems = []) :
    s'.typeToBind other value span = s.typeToBind other value span := by
  have valueClean : (s.infer value).problems = [] := typeToBind_clean clean ▸ clean
  simp only [Scope.typeToBind, within.infer apart value valueClean]

/-! ## Statements -/

mutual

/-- A statement without problems declares the same, and has no problems. -/
theorem check {s s' : Scope} (within : s.Within s') (apart : s.catalog.NamesApart) (stmt : Stmt)
    (clean : (s.check stmt).problems = []) : s'.check stmt = s.check stmt := by
  cases stmt with
  | load => simp only [Scope.check, within.bindings]
  | use module span =>
      simp only [Scope.check, within.bindings] at clean ⊢
      by_cases loaded : module ∈ s.modules
      · rw [if_pos loaded, if_pos (within.modules loaded)]
      · rw [if_neg loaded] at clean
        cases clean
  | define name params body span =>
      simp only [Scope.check, checkFunction, within.bindings] at clean ⊢
      have inside : Within
          { s with
            bindings := s.bindings.insert name (functionType params .any)
            locals := Dict.ofList (params.map (·, .any)) }
          { s' with
            bindings := s.bindings.insert name (functionType params .any)
            locals := Dict.ofList (params.map (·, .any)) } :=
        ⟨within.catalog, rfl, rfl, within.modules, within.imports, within.known⟩
      rw [inside.infer apart body clean]
  | bind name value span | assign name value span =>
      simp only [Scope.check] at clean ⊢
      rw [within.typeToBind apart name value span clean, within.bindings]
  | branch test onTrue onFalse span =>
      cases onFalse with
      | none =>
          simp only [Scope.check, List.append_eq_nil_iff] at clean ⊢
          rw [Typed.asValue_clean clean.1] at clean
          rw [within.infer apart test clean.1, checkAll within apart onTrue clean.2]
      | some onFalse =>
          simp only [Scope.check, List.append_eq_nil_iff] at clean ⊢
          rw [Typed.asValue_clean clean.1.1] at clean
          rw [within.infer apart test clean.1.1, checkAll within apart onTrue clean.1.2,
            checkAll (within.withBindings (s.checkAll onTrue).bindings) apart onFalse clean.2]
  | loop test body span =>
      simp only [Scope.check, List.append_eq_nil_iff] at clean ⊢
      rw [Typed.asValue_clean clean.1] at clean
      rw [within.infer apart test clean.1, checkAll within apart body clean.2]
  | eval e terminated span =>
      simp only [Scope.check] at clean ⊢
      rw [within.infer apart e clean, within.bindings]

/-- Statements without problems declare the same, and have no problems. -/
theorem checkAll {s s' : Scope} (within : s.Within s') (apart : s.catalog.NamesApart)
    (stmts : List Stmt) (clean : (s.checkAll stmts).problems = []) :
    s'.checkAll stmts = s.checkAll stmts := by
  cases stmts with
  | nil => simp only [Scope.checkAll, within.bindings]
  | cons stmt rest =>
      simp only [Scope.checkAll, List.append_eq_nil_iff] at clean ⊢
      rw [check within apart stmt clean.1,
        checkAll (within.withBindings (s.check stmt).bindings) apart rest clean.2]

end

/-! ## Every expression -/

mutual

/-- Where the expressions of a statement without problems are checked, in both scopes. -/
theorem sites {s s' : Scope} (within : s.Within s') (apart : s.catalog.NamesApart) (stmt : Stmt)
    (clean : (s.check stmt).problems = []) :
    List.Forall₂ (fun a b => a.1.Within b.1 ∧ a.2 = b.2) (s.sites stmt) (s'.sites stmt) := by
  cases stmt with
  | load | use => exact .nil
  | define name params body span =>
      refine .cons ⟨?_, rfl⟩ .nil
      exact ⟨within.catalog, by rw [within.bindings], rfl, within.modules, within.imports,
        within.known⟩
  | bind | assign | eval => exact .cons ⟨within, rfl⟩ .nil
  | branch test onTrue onFalse span =>
      cases onFalse with
      | none =>
          simp only [Scope.check, List.append_eq_nil_iff] at clean
          exact .cons ⟨within, rfl⟩ (sitesAll within apart onTrue clean.2)
      | some onFalse =>
          simp only [Scope.check, List.append_eq_nil_iff] at clean
          have first := sitesAll within apart onTrue clean.1.2
          have second := sitesAll (within.withBindings (s.checkAll onTrue).bindings) apart onFalse
            clean.2
          simp only [Scope.sites, within.checkAll apart onTrue clean.1.2]
          exact .cons ⟨within, rfl⟩ (List.rel_append first second)
  | loop test body span =>
      simp only [Scope.check, List.append_eq_nil_iff] at clean
      exact .cons ⟨within, rfl⟩ (sitesAll within apart body clean.2)

/-- With more modules the same expressions are checked, one after the other. -/
theorem sitesAll {s s' : Scope} (within : s.Within s') (apart : s.catalog.NamesApart)
    (stmts : List Stmt) (clean : (s.checkAll stmts).problems = []) :
    List.Forall₂ (fun a b => a.1.Within b.1 ∧ a.2 = b.2) (s.sitesAll stmts)
      (s'.sitesAll stmts) := by
  cases stmts with
  | nil => exact .nil
  | cons stmt rest =>
      simp only [Scope.checkAll, List.append_eq_nil_iff] at clean
      have first := sites within apart stmt clean.1
      have others := sitesAll (within.withBindings (s.check stmt).bindings) apart rest clean.2
      simp only [Scope.sitesAll, within.check apart stmt clean.1]
      exact List.rel_append first others

end

end Within

/-- The expressions of some statements and all parts of these, each with its type where it stands,
in the order of the source. -/
def typings (s : Scope) (stmts : List Stmt) : List (Expr × Ty) :=
  (s.sitesAll stmts).flatMap fun site => site.2.parts.map fun e => (e, (site.1.infer e).type)

/-- Every expression of some statements is typed. -/
theorem map_fst_typings (s : Scope) (stmts : List Stmt) :
    (s.typings stmts).map (·.1) =
      ((Stmt.partsAll stmts).filterMap Stmt.expression?).flatMap Expr.parts := by
  rw [← map_snd_sitesAll s stmts, typings, List.map_flatMap, List.flatMap_map]
  simp [Function.comp_def]

/-- The types of all expressions stay what they are. -/
theorem Within.typings {s s' : Scope} (within : s.Within s') (apart : s.catalog.NamesApart)
    {stmts : List Stmt} (clean : (s.checkAll stmts).problems = []) :
    s'.typings stmts = s.typings stmts := by
  have passes := passes_of_mem_sitesAll s stmts clean
  have related := within.sitesAll apart stmts clean
  unfold Scope.typings
  generalize s.sitesAll stmts = sites, s'.sitesAll stmts = sites' at passes related
  induction related with
  | nil => rfl
  | @cons a b sites sites' both _ ih =>
      rw [List.forall_mem_cons] at passes
      obtain ⟨inside, same⟩ := both
      have apart' : a.1.catalog.NamesApart := by rw [passes.1.catalog]; exact apart
      have parts := infer_parts_clean a.2 passes.1.clean
      rw [List.flatMap_cons, List.flatMap_cons, ih passes.2, ← same]
      congr 1
      refine List.map_congr_left fun e member => ?_
      rw [inside.infer apart' e (parts e member)]

end Scope

/-- **More modules never break a fragment.** Take a catalog in which no two modules share the name
of a member and no member has the name of a module. Statements that have no problems with some
modules and imports have none with more of them; they declare the same names with the same types,
and every expression in them, at any depth, has the same type. -/
theorem checkAll_more_modules {c : Catalog} (apart : c.NamesApart)
    {modules modules' imports imports' : List String} (moreModules : modules ⊆ modules')
    (known : ∀ m ∈ modules', c.contains m = true) (moreImports : imports ⊆ imports')
    (bindings : Dict Ty) (stmts : List Stmt) :
    let s : Scope := { catalog := c, modules, imports, bindings }
    let s' : Scope := { catalog := c, modules := modules', imports := imports', bindings }
    (s.checkAll stmts).problems = [] →
      (s'.checkAll stmts).problems = [] ∧
      (s'.checkAll stmts).bindings = (s.checkAll stmts).bindings ∧
      s'.typings stmts = s.typings stmts ∧
      (s.typings stmts).map (·.1) =
        ((Stmt.partsAll stmts).filterMap Stmt.expression?).flatMap Expr.parts := by
  intro s s' clean
  have within : s.Within s' := ⟨rfl, rfl, rfl, moreModules, moreImports, known⟩
  have same := within.checkAll apart stmts clean
  exact ⟨same ▸ clean, congrArg _ same, within.typings apart clean, s.map_fst_typings stmts⟩

/-- The standard modules keep their names apart. A fragment that needs two of them is not disturbed
by two more, which are even imported before those. -/
theorem checkAll_more_modules_standard :
    Catalog.standard.NamesApart ∧ ∃ stmts,
      parse "use math\nfn near(x) = min(x, floor(pi))\nif len([1]) < 2 \x7b let r = near(4) \x7d"
        = .ok stmts ∧
      let few : Scope :=
        { catalog := .standard, modules := ["core", "math"], imports := ["core", "math"] }
      let more : Scope :=
        { catalog := .standard
          modules := ["stats", "math", "text", "core"]
          imports := ["stats", "text", "core", "math"] }
      (few.checkAll stmts).problems = [] ∧ (more.checkAll stmts).problems = [] ∧
        (few.typings stmts).length = 15 ∧ more.typings stmts = few.typings stmts := by
  have checked : (parse
      "use math\nfn near(x) = min(x, floor(pi))\nif len([1]) < 2 \x7b let r = near(4) \x7d"
      ).toOption.any (fun stmts =>
        let few : Scope :=
          { catalog := .standard, modules := ["core", "math"], imports := ["core", "math"] }
        (few.checkAll stmts).problems.isEmpty && (few.typings stmts).length == 15) := by
    decide +kernel
  have moreModules : ["core", "math"] ⊆ ["stats", "math", "text", "core"] := by simp
  have moreImports : ["core", "math"] ⊆ ["stats", "text", "core", "math"] := by simp
  have known : ∀ m ∈ ["stats", "math", "text", "core"], Catalog.standard.contains m = true := by
    decide +kernel
  obtain ⟨stmts, parsed, passes⟩ := exists_parse_of_any checked
  rw [Bool.and_eq_true, List.isEmpty_iff, beq_iff_eq] at passes
  obtain ⟨accepted, -, same, -⟩ := checkAll_more_modules Catalog.namesApart_standard moreModules
    known moreImports {} stmts passes.1
  exact ⟨Catalog.namesApart_standard, stmts, parsed, passes.1, accepted, passes.2, same⟩

end ScriptShell
