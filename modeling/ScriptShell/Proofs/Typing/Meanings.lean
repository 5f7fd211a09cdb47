import Mathlib.Tactic.SplitIfs
import ScriptShell.Evaluation.Eval
import ScriptShell.Proofs.Typing.Names

/-! # What names stand for

The checker and the evaluator each look a name up, one for its type and one for its value. Both take
a name for the first of these: a parameter, a declared name, a name that is always there, a module,
a member of an imported module. `Meaning` is what they take it for; `Scope.typeOf?_eq` and
`Execution.lookup?_eq` say that types and values are those of the meanings.

They differ in one point. The checker passes over imports that are not loaded and the evaluator does
not. **`meaning?_eq_iff`** says which names that makes different, also when more modules and imports
have come since a name was checked: exactly those that are `Overtaken`. `Scope.sitesAll` lists the
expressions of a fragment with the scopes in which they are checked. -/

namespace ScriptShell

/-- What a name can stand for. -/
inductive Meaning where
  /-- The parameter of that name. -/
  | parameter
  /-- The declared name. -/
  | declared
  /-- The arguments of the evaluation. -/
  | arguments
  /-- The object that describes the running unit. -/
  | runtime
  | module (name : String)
  /-- The member of that name of an imported module. -/
  | member (module : String)
  deriving DecidableEq, Repr

/-- What a name stands for, given whether it is a parameter and whether it is declared, the loaded
modules, and the import that it is taken from if it is nothing else. -/
def Meaning.of? (isParameter isDeclared : Bool) (modules : List String) (importing : Option String)
    (name : String) : Option Meaning :=
  if isParameter then some .parameter
  else if isDeclared then some .declared
  else if name = argsName then some .arguments
  else if name = runtimeName then some .runtime
  else if name ∈ modules then some (.module name)
  else importing.map .member

/-- What is read for the meaning of a name is the first thing that can be read for it. -/
theorem Meaning.of?_bind {α : Type} (read : Meaning → Option α) (modules : List String)
    (importing : Option String) (name : String) (arguments : (read .arguments).isSome)
    (runtime : (read .runtime).isSome) (module : (read (.module name)).isSome) :
    (of? (read .parameter).isSome (read .declared).isSome modules importing name).bind read =
      ((read .parameter).or <| (read .declared).or <|
        (if name = argsName then read .arguments
          else if name = runtimeName then read .runtime else none).or <|
        (if name ∈ modules then read (.module name) else none).or
          (importing.bind fun m => read (.member m))) := by
  rw [of?]
  cases isParameter : read .parameter with
  | some a => exact isParameter
  | none =>
      cases isDeclared : read .declared with
      | some a => exact isDeclared
      | none =>
          show Option.bind (if name = argsName then _ else _) read =
            Option.or (if _ then _ else _) _
          by_cases isArgs : name = argsName
          · rw [if_pos isArgs, if_pos isArgs]
            exact (Option.or_of_isSome arguments).symm
          · rw [if_neg isArgs, if_neg isArgs]
            by_cases isRuntime : name = runtimeName
            · rw [if_pos isRuntime, if_pos isRuntime]
              exact (Option.or_of_isSome runtime).symm
            · rw [if_neg isRuntime, if_neg isRuntime, Option.none_or]
              by_cases loaded : name ∈ modules
              · rw [if_pos loaded, if_pos loaded]
                exact (Option.or_of_isSome module).symm
              · rw [if_neg loaded, if_neg loaded, Option.none_or, Option.bind_map]
                rfl

/-- Either modules and imports do not matter to a name, or nothing else does. -/
theorem Meaning.of?_cases (isParameter isDeclared : Bool) (name : String) :
    (∃ meaning, (∀ m, meaning ≠ .member m) ∧ ∀ modules importing,
      of? isParameter isDeclared modules importing name = some meaning) ∨
    ∀ modules importing, of? isParameter isDeclared modules importing name =
      if name ∈ modules then some (.module name) else importing.map .member := by
  unfold of?
  cases isParameter with
  | true => exact .inl ⟨.parameter, nofun, fun _ _ => rfl⟩
  | false =>
      cases isDeclared with
      | true => exact .inl ⟨.declared, nofun, fun _ _ => rfl⟩
      | false =>
          by_cases isArgs : name = argsName
          · exact .inl ⟨.arguments, nofun, fun _ _ => if_pos isArgs⟩
          · by_cases isRuntime : name = runtimeName
            · exact .inl ⟨.runtime, nofun, fun _ _ => (if_neg isArgs).trans (if_pos isRuntime)⟩
            · exact .inr fun _ _ => (if_neg isArgs).trans (if_neg isRuntime)

/-- Whether a module has a member of a name. -/
def Catalog.offers (c : Catalog) (module name : String) : Bool :=
  ((c.get? module).bind (·.typeOf? name)).isSome

/-- Modules that have a member with a type are those that have it with a value. -/
theorem Catalog.offers_eq (c : Catalog) (module name : String) :
    c.offers module name = ((c.get? module).bind (·.member? name)).isSome := by
  rw [offers]
  cases c.get? module with
  | none => rfl
  | some m => exact (m.isSome_member? name).symm

/-- The first result is that of the first element that has one. -/
theorem findSome?_eq_find?_bind {α β : Type} {f : α → Option β} {p : α → Bool}
    (isSome : ∀ x, p x = (f x).isSome) (l : List α) : l.findSome? f = (l.find? p).bind f := by
  induction l with
  | nil => rfl
  | cons x l ih =>
      rw [List.findSome?_cons, List.find?_cons, isSome, ih]
      cases isResult : f x with
      | none => rfl
      | some y => exact isResult.symm

/-! ## Meanings of the checker -/

namespace Scope

/-- What the checker takes a name for. Of the imports only those count that are loaded. -/
def meaning? (s : Scope) (name : String) : Option Meaning :=
  Meaning.of? (s.locals.contains name) (s.bindings.contains name) s.modules
    (s.imports.find? fun m => m ∈ s.modules && s.catalog.offers m name) name

/-- The type of a name that is taken for something. -/
def typeAs? (s : Scope) (name : String) : Meaning → Option Ty
  | .parameter => s.locals.get? name
  | .declared => s.bindings.get? name
  | .arguments => some (.list .str)
  | .runtime => some .any
  | .module m => some (.module m)
  | .member m => (s.catalog.get? m).bind (·.typeOf? name)

/-- The type of an imported name is that of the first loaded import that offers it. -/
theorem imported?_eq (s : Scope) (name : String) : s.imported? name =
    (s.imports.find? fun m => m ∈ s.modules && s.catalog.offers m name).bind fun m =>
      s.typeAs? name (.member m) := by
  have isSome : ∀ m, (m ∈ s.modules && s.catalog.offers m name) =
      (if m ∈ s.modules then s.typeAs? name (.member m) else none).isSome := by
    intro m
    by_cases loaded : m ∈ s.modules
    · simp [loaded, Catalog.offers, typeAs?]
    · simp [loaded]
  have found := findSome?_eq_find?_bind isSome s.imports
  rw [imported?]
  refine found.trans ?_
  cases first : s.imports.find? fun m => m ∈ s.modules && s.catalog.offers m name with
  | none => rfl
  | some m =>
      have holds := List.find?_some first
      simp only [Bool.and_eq_true, decide_eq_true_eq] at holds
      exact if_pos holds.1

/-- **The type of a name is that of its meaning.** -/
theorem typeOf?_eq (s : Scope) (name : String) :
    s.typeOf? name = (s.meaning? name).bind (s.typeAs? name) := by
  have read := Meaning.of?_bind (s.typeAs? name) s.modules
    (s.imports.find? fun m => m ∈ s.modules && s.catalog.offers m name) name rfl rfl rfl
  rw [← imported?_eq] at read
  exact read.symm

end Scope

/-! ## Meanings of the evaluator -/

namespace Execution

/-- What the evaluator takes a name for. -/
def meaning? (x : Execution) (env locals : Environment) (name : String) : Option Meaning :=
  Meaning.of? (locals.contains name) (env.contains name) x.unit.program.modules
    (x.unit.program.imports.find? (x.catalog.offers · name)) name

/-- The value of a name that is taken for something. -/
def valueAs? (x : Execution) (env locals : Environment) (name : String) : Meaning → Option Value
  | .parameter => locals.get? name
  | .declared => env.get? name
  | .arguments => some (.list (x.args.map .str))
  | .runtime => some x.runtimeObject
  | .module m => some (.module m)
  | .member m => (x.catalog.get? m).bind (·.member? name)

/-- **The value of a name is that of its meaning.** -/
theorem lookup?_eq (x : Execution) (env locals : Environment) (name : String) :
    x.lookup? env locals name =
      (x.meaning? env locals name).bind (x.valueAs? env locals name) := by
  have isImported : x.imported? name = (x.unit.program.imports.find? (x.catalog.offers · name)).bind
      fun m => (x.catalog.get? m).bind (·.member? name) :=
    findSome?_eq_find?_bind (fun m => x.catalog.offers_eq m name) x.unit.program.imports
  have read := Meaning.of?_bind (x.valueAs? env locals name) x.unit.program.modules
    (x.unit.program.imports.find? (x.catalog.offers · name)) name rfl rfl rfl
  rw [lookup?, isImported]
  exact read.symm

/-- What a name is taken for has a value. -/
theorem isSome_valueAs? {x : Execution} {env locals : Environment} {name : String}
    {meaning : Meaning} (taken : x.meaning? env locals name = some meaning) :
    (x.valueAs? env locals name meaning).isSome := by
  rw [meaning?, Meaning.of?] at taken
  split at taken
  · rename_i isParameter
    cases taken
    exact isParameter
  · split at taken
    · rename_i isDeclared
      cases taken
      exact isDeclared
    -- The others have a value by themselves, but for members, which the import has.
    · split_ifs at taken
      case pos | pos | pos =>
        cases taken
        rfl
      case neg =>
        obtain ⟨m, isFirst, rfl⟩ := Option.map_eq_some_iff.mp taken
        have isOffered := List.find?_some isFirst
        rw [Catalog.offers_eq] at isOffered
        exact isOffered

end Execution

/-! ## Meanings that change -/

/-- Whether two dictionaries have the same names. -/
def Dict.SameNames {α β : Type} (d : Dict α) (e : Dict β) : Prop :=
  ∀ name, d.contains name = e.contains name

namespace Scope

variable {s : Scope} {x : Execution} {name : String} {meaning : Meaning}

/-- A unit runs with all that a scope has: its modules are loaded, and its imports come first. -/
structure Precedes (s : Scope) (x : Execution) : Prop where
  catalog : x.catalog = s.catalog
  modules : ∀ m ∈ s.modules, m ∈ x.unit.program.modules
  imports : s.imports <+: x.unit.program.imports

/-- A member of an imported module is overtaken when some modules are loaded: one of them has its
name, or an import that is not loaded in the scope has a member of that name, too, and comes first.
-/
def Overtaken (s : Scope) (modules : List String) (name : String) : Prop :=
  ∃ m, s.meaning? name = some (.member m) ∧
    (name ∈ modules ∨ s.imports.find? (s.catalog.offers · name) ≠ some m)

/-- Only members of imported modules are overtaken. -/
theorem not_overtaken (taken : s.meaning? name = some meaning)
    (notMember : ∀ m, meaning ≠ .member m) (modules : List String) :
    ¬s.Overtaken modules name := by
  rintro ⟨m, isMember, -⟩
  exact notMember m (Option.some.inj (taken.symm.trans isMember))

/-- If a loaded import has a member, there is a first import that has it. -/
theorem exists_first_offering {m : String}
    (isFirst : (s.imports.find? fun m => m ∈ s.modules && s.catalog.offers m name) = some m) :
    ∃ first, s.imports.find? (s.catalog.offers · name) = some first := by
  have holds := List.find?_some isFirst
  simp only [Bool.and_eq_true, decide_eq_true_eq] at holds
  exact Option.isSome_iff_exists.mp
    (List.find?_isSome.mpr ⟨m, List.mem_of_find?_eq_some isFirst, holds.2⟩)

/-- An imported name is overtaken by a module of that name, or by an earlier import. -/
theorem overtaken_iff {m first : String} (taken : s.meaning? name = some (.member m))
    (isOffered : s.imports.find? (s.catalog.offers · name) = some first) {modules : List String} :
    s.Overtaken modules name ↔ name ∈ modules ∨ first ≠ m := by
  rw [Overtaken, isOffered, taken]
  constructor
  · rintro ⟨m', same, isModule | isOther⟩
    · exact .inl isModule
    · cases same
      exact .inr fun same => isOther (congrArg some same)
  · rintro (isModule | isOther)
    · exact ⟨m, rfl, .inl isModule⟩
    · exact ⟨m, rfl, .inr fun same => isOther (Option.some.inj same)⟩

/-- **The evaluator takes a name for what the checker took it for unless it is overtaken.** That is
so whenever the declared names and the parameters have the same names on both sides. -/
theorem meaning?_eq_iff (precedes : s.Precedes x) {env locals : Environment}
    (declared : Dict.SameNames env s.bindings) (parameters : Dict.SameNames locals s.locals)
    (taken : s.meaning? name = some meaning) :
    ∃ denoted, x.meaning? env locals name = some denoted ∧
      (denoted = meaning ↔ ¬s.Overtaken x.unit.program.modules name) := by
  have checked := taken
  rw [meaning?] at checked
  rw [Execution.meaning?, declared, parameters]
  rcases Meaning.of?_cases (s.locals.contains name) (s.bindings.contains name) name with
    ⟨other, notMember, isOther⟩ | isImported
  -- Neither modules nor imports matter.
  · rw [isOther] at checked ⊢
    cases checked
    exact ⟨meaning, rfl, fun _ => not_overtaken taken notMember _, fun _ => rfl⟩
  · rw [isImported] at checked ⊢
    by_cases isModule : name ∈ s.modules
    · rw [if_pos isModule] at checked
      rw [if_pos (precedes.modules name isModule)]
      cases checked
      exact ⟨_, rfl, fun _ => not_overtaken taken nofun _, fun _ => rfl⟩
    · rw [if_neg isModule] at checked
      obtain ⟨m, isFirst, rfl⟩ := Option.map_eq_some_iff.mp checked
      by_cases isLoaded : name ∈ x.unit.program.modules
      · have overtaken : s.Overtaken x.unit.program.modules name := ⟨m, taken, .inl isLoaded⟩
        rw [if_pos isLoaded]
        exact ⟨_, rfl, nofun, fun notOvertaken => absurd overtaken notOvertaken⟩
      -- The imports of the scope come first, and one of them has a member of the name.
      · obtain ⟨first, isOffered⟩ := exists_first_offering isFirst
        have inUnit : x.unit.program.imports.find? (x.catalog.offers · name) = some first := by
          obtain ⟨more, isImports⟩ := precedes.imports
          rw [← isImports, precedes.catalog, List.find?_append, isOffered, Option.some_or]
        rw [if_neg isLoaded, inUnit]
        refine ⟨.member first, rfl, ?_⟩
        rw [overtaken_iff taken isOffered]
        simp [isLoaded]

/-! ## Where expressions are checked -/

mutual

/-- The expressions of a statement and of those in its blocks, each with the scope in which it is
checked, in the order of the source. -/
def sites (s : Scope) : Stmt → List (Scope × Expr)
  | .load .. | .use .. => []
  | .define name params body _ =>
    [({ s with
        bindings := s.bindings.insert name (functionType params .any)
        locals := Dict.ofList (params.map (·, .any)) }, body)]
  | .bind _ e _ | .assign _ e _ | .eval e _ _ => [(s, e)]
  | .branch test onTrue none _ => (s, test) :: sitesAll s onTrue
  | .branch test onTrue (some onFalse) _ =>
    (s, test) :: (sitesAll s onTrue ++
      sitesAll (s.withBindings (s.checkAll onTrue).bindings) onFalse)
  | .loop test body _ => (s, test) :: sitesAll s body

/-- The expressions of statements, each with the scope in which it is checked. -/
def sitesAll (s : Scope) : List Stmt → List (Scope × Expr)
  | [] => []
  | stmt :: rest => sites s stmt ++ sitesAll (s.withBindings (s.check stmt).bindings) rest

end

mutual

/-- Every expression of a statement and of those in it is checked, once for each place. -/
theorem map_snd_sites (s : Scope) (stmt : Stmt) :
    (s.sites stmt).map (·.2) = stmt.parts.filterMap Stmt.expression? := by
  cases stmt with
  | load | use | define | bind | assign | eval => rfl
  | branch test onTrue onFalse span =>
      cases onFalse with
      | none =>
          simp only [sites, List.map_cons, map_snd_sitesAll s onTrue]
          rfl
      | some onFalse =>
          simp only [sites, List.map_cons, List.map_append, map_snd_sitesAll]
          rw [← List.filterMap_append]
          rfl
  | loop test body span =>
      simp only [sites, List.map_cons, map_snd_sitesAll s body]
      rfl

/-- **Every expression of some statements is checked**, once for each place. -/
theorem map_snd_sitesAll (s : Scope) (stmts : List Stmt) :
    (s.sitesAll stmts).map (·.2) = (Stmt.partsAll stmts).filterMap Stmt.expression? := by
  cases stmts with
  | nil => rfl
  | cons stmt rest =>
      simp only [sitesAll, List.map_append, map_snd_sites s stmt, map_snd_sitesAll _ rest]
      rw [← List.filterMap_append]
      rfl

end

/-- An expression is checked without problems in a scope that differs from another one only in its
declared names and parameters. -/
structure Passes (s site : Scope) (e : Expr) : Prop where
  catalog : site.catalog = s.catalog
  modules : site.modules = s.modules
  imports : site.imports = s.imports
  clean : (site.infer e).problems = []

/-- The declared names do not matter to where an expression is checked. -/
theorem Passes.of_withBindings {bindings : Dict Ty} {site : Scope} {e : Expr}
    (passes : (s.withBindings bindings).Passes site e) : s.Passes site e :=
  ⟨passes.catalog, passes.modules, passes.imports, passes.clean⟩

mutual

/-- The expressions of a statement without problems have none where they are checked. -/
theorem passes_of_mem_sites (s : Scope) (stmt : Stmt) (clean : (s.check stmt).problems = []) :
    ∀ site ∈ s.sites stmt, s.Passes site.1 site.2 := by
  intro site member
  cases stmt with
  | load | use => cases member
  | define other params body span =>
      cases List.mem_singleton.mp member
      exact ⟨rfl, rfl, rfl, clean⟩
  | bind other value span | assign other value span =>
      cases List.mem_singleton.mp member
      exact ⟨rfl, rfl, rfl, typeToBind_clean clean ▸ clean⟩
  | eval e terminated span =>
      cases List.mem_singleton.mp member
      exact ⟨rfl, rfl, rfl, clean⟩
  | branch test onTrue onFalse span =>
      cases onFalse with
      | none =>
          simp only [check, List.append_eq_nil_iff] at clean
          rcases List.mem_cons.mp member with rfl | member
          · rw [Typed.asValue_clean clean.1] at clean
            exact ⟨rfl, rfl, rfl, clean.1⟩
          · exact passes_of_mem_sitesAll s onTrue clean.2 site member
      | some onFalse =>
          simp only [check, List.append_eq_nil_iff] at clean
          rcases List.mem_cons.mp member with rfl | member
          · rw [Typed.asValue_clean clean.1.1] at clean
            exact ⟨rfl, rfl, rfl, clean.1.1⟩
          · rcases List.mem_append.mp member with member | member
            · exact passes_of_mem_sitesAll s onTrue clean.1.2 site member
            · exact (passes_of_mem_sitesAll _ onFalse clean.2 site member).of_withBindings
  | loop test body span =>
      simp only [check, List.append_eq_nil_iff] at clean
      rcases List.mem_cons.mp member with rfl | member
      · rw [Typed.asValue_clean clean.1] at clean
        exact ⟨rfl, rfl, rfl, clean.1⟩
      · exact passes_of_mem_sitesAll s body clean.2 site member

/-- The expressions of statements without problems have none where they are checked. -/
theorem passes_of_mem_sitesAll (s : Scope) (stmts : List Stmt)
    (clean : (s.checkAll stmts).problems = []) :
    ∀ site ∈ s.sitesAll stmts, s.Passes site.1 site.2 := by
  intro site member
  cases stmts with
  | nil => cases member
  | cons stmt rest =>
      simp only [checkAll, List.append_eq_nil_iff] at clean
      rcases List.mem_append.mp member with member | member
      · exact passes_of_mem_sites s stmt clean.1 site member
      · exact (passes_of_mem_sitesAll _ rest clean.2 site member).of_withBindings

end

end Scope

end ScriptShell
