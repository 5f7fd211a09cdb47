import Mathlib.Data.List.Nodup
import ScriptShell.Module.Standard
import ScriptShell.Proofs.Reference.Entries

/-! # The modules that a session binds

A fragment that is committed brings in the modules that its load directives resolve to and whatever
these need. The session learns of them in a roundabout way: the unit lists what the fragment sees,
together with the unit before it, and all of this is added to what is bound, told apart by written
forms. Over a catalog whose modules have distinct written forms this comes to what one would expect:

* **`mem_references_commit`**: after a commit exactly those modules are bound that the fragment saw.
* **`bound_commit`**: what is bound stays a list of the catalog's own modules, without repetition,
  with all that they need.
* **`evaluate_references`**: one evaluation, from any session that evaluations lead to, appends the
  modules it says it loaded, or leaves the references alone. -/

namespace ScriptShell

namespace Catalog

/-- The modules have distinct written forms, none of which could be that of a generated unit. -/
structure Distinct (c : Catalog) : Prop where
  displays : (c.modules.map (·.ref.display)).Nodup
  unmarked : ∀ m ∈ c.modules, m.ref.isGenerated = false

variable {c : Catalog} {ref other : Reference}

/-- What a catalog owns is the reference to one of its modules. -/
theorem Owns.exists_module (owned : c.Owns ref) : ∃ m ∈ c.modules, m.ref = ref := by
  obtain ⟨m, known, same⟩ := Option.map_eq_some_iff.mp owned
  exact ⟨m, mem_of_get? known, same⟩

/-- What a catalog with distinct modules owns is no generated unit. -/
theorem Owns.unmarked (owned : c.Owns ref) (distinct : c.Distinct) : ref.isGenerated = false := by
  obtain ⟨m, member, rfl⟩ := owned.exists_module
  exact distinct.unmarked m member

/-- Of the catalog's own references, the written form leaves only one. -/
theorem Owns.eq_of_display (owned : c.Owns ref) (owned' : c.Owns other) (distinct : c.Distinct)
    (same : ref.display = other.display) : ref = other := by
  obtain ⟨m, member, rfl⟩ := owned.exists_module
  obtain ⟨m', member', rfl⟩ := owned'.exists_module
  rw [List.inj_on_of_nodup_map distinct.displays member member' same]

end Catalog

/-- The unit before a fragment is known by a reference that no set admits. -/
theorem isGenerated_unit (u : ScriptUnit) : (⟨u.name, "0", []⟩ : Reference).isGenerated = true := by
  have marked : '<' ∈ ("<submission#" ++ toString u.id ++ ">" ++ ", version=" ++ "0").toList := by
    simp only [String.toList_append, List.mem_append]
    exact .inl (.inl (.inl (.inl (by decide))))
  exact List.any_eq_true.mpr ⟨'<', marked, rfl⟩

/-- What a session has bound: the catalog's own references, no two with the same written form, with
everything that they need and the catalog has; and the imports, no name twice. -/
structure References.Bound (c : Catalog) (r : References) : Prop extends r.Distinct where
  own : ∀ m ∈ r.modules, c.Owns m
  closed : ∀ m ∈ r.modules, ∀ name, Relation.TransGen c.Needs m.name name →
    c.contains name = true → ∃ needed ∈ r.modules, needed.name = name
  imports : r.imports.Nodup

/-- A host over a catalog whose resolvers take their modules from that catalog. -/
structure Host.Over (c : Catalog) (h : Host) : Prop where
  catalog : h.catalog = c
  resolvers : h.resolvers.OverCatalog c

namespace Session

/-! ## The modules after a commit -/

section Commit

variable {c : Catalog} {h : Host} {s : Session} {text : String} {resolved : List Reference}
  {unit : ScriptUnit}

/-- The references that a fragment is compiled with. -/
def context (s : Session) (text : String) (resolved : List Reference) : References :=
  s.references.merge (incoming text resolved)

/-- The modules that come in are among those resolved. -/
theorem mem_incoming {m : Reference} (member : m ∈ (incoming text resolved).modules) :
    m ∈ resolved := by
  rw [incoming, References.modules_addImports] at member
  rcases References.mem_addModules member with none | member
  · rw [References.modules_addTargets] at none
    cases none
  · exact member

/-- The imports that come in are those of the text. -/
theorem mem_imports_incoming {name : String} :
    name ∈ (incoming text resolved).imports ↔ name ∈ importNames text := by
  rw [incoming, References.mem_imports_addImports, References.imports_addModules,
    References.imports_addTargets]
  constructor
  · rintro (none | member)
    · cases none
    · exact member
  · exact .inr

/-- What a fragment is compiled with is the catalog's own. -/
theorem owns_of_mem_context (own : ∀ m ∈ s.references.modules, c.Owns m)
    (resolved_own : ∀ m ∈ resolved, c.Owns m) :
    ∀ m ∈ (s.context text resolved).modules, c.Owns m := by
  intro m member
  rw [context, References.modules_merge, ← References.modules_addModules] at member
  rcases References.mem_addModules member with before | added
  · exact own m before
  · exact resolved_own m (mem_incoming added)

/-- What the directives resolve to is among the references that a fragment is compiled with. -/
theorem mem_context_of_mem_incoming (distinct : c.Distinct)
    (own : ∀ m ∈ s.references.modules, c.Owns m) (resolved_own : ∀ m ∈ resolved, c.Owns m)
    {m : Reference} (member : m ∈ (incoming text resolved).modules) :
    m ∈ (s.context text resolved).modules := by
  have owned := resolved_own m (mem_incoming member)
  obtain ⟨entry, there, same⟩ :=
    References.exists_display_addModules (s := s.references) member (owned.unmarked distinct)
  have there : entry ∈ (s.context text resolved).modules := by
    rwa [context, References.modules_merge, ← References.modules_addModules]
  have entry_owned := owns_of_mem_context own resolved_own entry there
  rwa [← entry_owned.eq_of_display owned distinct same]

/-- Where the modules after a commit come from: the fragment was compiled with them, or it sees
them, or it is the reference to the unit before. -/
theorem mem_references_commit_cases {env : Environment} {value : Option Value}
    (distinct : c.Distinct) (own : ∀ m ∈ s.references.modules, c.Owns m)
    (resolved_own : ∀ m ∈ resolved, c.Owns m)
    (compiles : compile c (s.context text resolved) s.newestUnit? s.nextUnit text = .ok unit)
    {m : Reference}
    (member : m ∈ (s.commit (incoming text resolved) unit env value).1.references.modules) :
    m ∈ (s.context text resolved).modules ∨ m ∈ c.visible (s.context text resolved) ∨
      m.isGenerated = true := by
  obtain ⟨stmts, -, -, isUnit⟩ := compile_ok compiles
  have member : m ∈ (s.references.merge
    ((incoming text resolved).addModules unit.references)).modules := member
  rw [References.modules_merge, ← References.modules_addModules] at member
  rcases References.mem_addModules member with before | added
  · left
    rw [context, References.modules_merge]
    exact List.mem_append_left _ before
  · rcases References.mem_addModules added with loaded | listed
    · exact .inl (mem_context_of_mem_incoming distinct own resolved_own loaded)
    · rw [isUnit] at listed
      rcases List.mem_append.mp listed with seen | previous
      · exact .inr (.inl seen)
      · right
        right
        rw [Option.mem_toList, Option.map_eq_some_iff] at previous
        obtain ⟨u, -, rfl⟩ := previous
        exact isGenerated_unit u

/-- **After a commit exactly those modules are bound that the fragment saw.** -/
theorem mem_references_commit {env : Environment} {value : Option Value} (distinct : c.Distinct)
    (separate : s.references.Distinct) (own : ∀ m ∈ s.references.modules, c.Owns m)
    (resolved_own : ∀ m ∈ resolved, c.Owns m)
    (compiles : compile c (s.context text resolved) s.newestUnit? s.nextUnit text = .ok unit)
    {m : Reference} :
    m ∈ (s.commit (incoming text resolved) unit env value).1.references.modules ↔
      m ∈ c.visible (s.context text resolved) := by
  have context_own : ∀ m ∈ (s.context text resolved).modules, c.Owns m :=
    owns_of_mem_context own resolved_own
  have forward : ∀ {m},
      m ∈ (s.commit (incoming text resolved) unit env value).1.references.modules →
        m ∈ c.visible (s.context text resolved) := by
    intro m member
    rcases mem_references_commit_cases distinct own resolved_own compiles member with
      bound | seen | generated
    · -- A module is the first that its own closure finds.
      have owned := context_own m bound
      have seen : m.name ∈ (c.visible (s.context text resolved)).map (·.name) :=
        Catalog.mem_visible.mpr
          ⟨m, bound, Catalog.mem_closure.mpr ⟨.refl, Catalog.contains_of_owns owned⟩⟩
      obtain ⟨found, there, same⟩ := List.mem_map.mp seen
      have found_owned := Catalog.owns_of_mem_visible there
      unfold Catalog.Owns at owned found_owned
      rw [same, owned] at found_owned
      cases found_owned
      exact there
    · exact seen
    · have merged := separate.merge ((incoming text resolved).addModules unit.references)
      have unmarked := merged.unmarked m member
      rw [unmarked] at generated
      cases generated
  refine ⟨forward, fun seen => ?_⟩
  -- Nothing of its written form other than the module itself can keep a module out.
  have owned := Catalog.owns_of_mem_visible seen
  obtain ⟨stmts, -, -, isUnit⟩ := compile_ok compiles
  have listed : m ∈ unit.references := by
    rw [isUnit]
    exact List.mem_append_left _ seen
  obtain ⟨entry, there, same⟩ := References.exists_display_addModules
    (s := incoming text resolved) listed (owned.unmarked distinct)
  have entry_unmarked : entry.isGenerated = false := by
    have unmarked := owned.unmarked distinct
    rwa [Reference.isGenerated, ← same] at unmarked
  obtain ⟨final, bound, same'⟩ := References.exists_display_addModules
    (s := s.references) there entry_unmarked
  have bound : final ∈ (s.commit (incoming text resolved) unit env value).1.references.modules := by
    rw [commit, References.modules_merge, ← References.modules_addModules]
    exact bound
  have final_owned := Catalog.owns_of_mem_visible (forward bound)
  rwa [← final_owned.eq_of_display owned distinct (same'.trans same)]

/-- **What is bound stays the catalog's own, without repetition and closed under what modules
need.** -/
theorem bound_commit {env : Environment} {value : Option Value} (distinct : c.Distinct)
    (bound : s.references.Bound c) (resolved_own : ∀ m ∈ resolved, c.Owns m)
    (compiles : compile c (s.context text resolved) s.newestUnit? s.nextUnit text = .ok unit) :
    (s.commit (incoming text resolved) unit env value).1.references.Bound c := by
  have seen : ∀ {m}, m ∈ (s.commit (incoming text resolved) unit env value).1.references.modules ↔
      m ∈ c.visible (s.context text resolved) :=
    mem_references_commit distinct bound.toDistinct bound.own resolved_own compiles
  refine { bound.toDistinct.merge ((incoming text resolved).addModules unit.references) with
    own := ?_, closed := ?_, imports := ?_ }
  · intro m member
    exact Catalog.owns_of_mem_visible (seen.mp member)
  · intro m member name needed has
    -- What the module needs is found from wherever the module was found.
    have named : m.name ∈ (c.visible (s.context text resolved)).map (·.name) :=
      List.mem_map.mpr ⟨m, seen.mp member, rfl⟩
    obtain ⟨start, isBound, found⟩ := Catalog.mem_visible.mp named
    have leads := (Catalog.mem_closure.mp found).1.trans needed.to_reflTransGen
    obtain ⟨ref, there, same⟩ := List.mem_map.mp
      (Catalog.mem_visible.mpr ⟨start, isBound, Catalog.mem_closure.mpr ⟨leads, has⟩⟩)
    exact ⟨ref, seen.mpr there, same⟩
  · rw [commit, References.imports_merge]
    exact (References.imports_addImports _ bound.imports).2

end Commit

/-! ## Whole sessions -/

/-- What a session over a catalog has bound. -/
theorem ReachableBy.bound {c : Catalog} (distinct : c.Distinct) {s : Session}
    (reachable : ReachableBy (Host.Over c) s) : s.references.Bound c := by
  refine @ReachableBy.induction _ (·.references.Bound c) ?_ ?_ s reachable
  · exact
      { displays := List.nodup_nil
        unmarked := fun _ none => by cases none
        own := fun _ none => by cases none
        closed := fun _ none => by cases none
        imports := List.nodup_nil }
  · intro h s text args resolved unit env result started ended overCatalog bound compiles _ value _
    have own := Resolvers.owns_of_resolveText overCatalog.resolvers compiles.resolves
    have compiled := compiles.compiles
    rw [overCatalog.catalog] at compiled
    exact bound_commit distinct bound own compiled

/-- **The references of a session over a catalog grow by appending.** A fragment that is committed
appends the modules that it says it loaded and the names that it imports; any other one leaves the
references as they were. What is bound afterwards is the catalog's own, without repetition and with
everything that it needs. -/
theorem evaluate_references {c : Catalog} (distinct : c.Distinct) {h : Host}
    (overCatalog : h.Over c) {s : Session} (reachable : ReachableBy (Host.Over c) s) (text : String)
    (args : List String) (world : World) :
    let after := s.evaluate h text args world
    s.references.modules <+: after.session.references.modules ∧
    s.references.imports <+: after.session.references.imports ∧
    (∀ value loaded, after.outcome = .success value loaded →
      after.session.references.modules = s.references.modules ++ loaded ∧
      ∀ name, name ∈ after.session.references.imports ↔
        name ∈ s.references.imports ∨ name ∈ importNames text) ∧
    (after.outcome.isSuccess = false → after.session.references = s.references) ∧
    after.session.references.Bound c := by
  intro after
  have bound := reachable.bound distinct
  have bound_after : after.session.references.Bound c :=
    (ReachableBy.evaluate reachable overCatalog text args world).bound distinct
  rcases evaluate_advances h s text args world with ⟨failed, same⟩ | advances
  · have same : after.session = s := same
    rw [same] at bound_after ⊢
    refine ⟨List.prefix_rfl, List.prefix_rfl, ?_, fun _ => rfl, bound_after⟩
    intro value loaded success
    rw [success] at failed
    cases failed
  · obtain ⟨value, loaded, resolved, unit, env, result, ended, success, -, -, committed⟩ := advances
    have references : after.session.references =
        s.references.merge ((incoming text resolved).addModules unit.references) := by
      have isCommit : after.session = (s.commit (incoming text resolved) unit env value).1 :=
        (congrArg Prod.fst committed).symm
      rw [isCommit]
      rfl
    have isLoaded : s.references.newModules ((incoming text resolved).addModules
        unit.references).modules = loaded := congrArg Prod.snd committed
    rw [references] at bound_after ⊢
    refine ⟨?_, ?_, ?_, ?_, bound_after⟩
    · rw [References.modules_merge]
      exact List.prefix_append _ _
    · rw [References.imports_merge]
      exact (References.imports_addImports _ bound.imports).1
    · intro value' loaded' success'
      have same := success.symm.trans success'
      cases same
      refine ⟨?_, fun name => ?_⟩
      · rw [References.modules_merge, isLoaded]
      · rw [References.imports_merge, References.mem_imports_addImports,
          References.imports_addModules, mem_imports_incoming]
    · intro failed
      have failed : (s.evaluate h text args world).outcome.isSuccess = false := failed
      rw [success] at failed
      cases failed

/-- A manifest lists one module, which needs another, and loading it binds both. To load the other
one after that binds nothing more. -/
theorem evaluate_references_manifest :
    let c := Catalog.standard
    let manifest := ("app.toml", "[project]\nreferences = [\"stats\"]")
    let h : Host := ⟨c, ⟨.ofCatalog c, [.ofManifests (.ofList [manifest]) [] (.ofCatalog c)]⟩, 0⟩
    let s := (({} : Session).evaluate h "#load app.toml" [] {}).session
    let after := s.evaluate h "#load math\nuse math" [] {}
    c.Distinct ∧ h.Over c ∧ ReachableBy (Host.Over c) s ∧
      s.references.modules.map (·.name) = ["stats", "math"] ∧
      after.session.references.modules.map (·.name) = ["stats", "math"] ∧
      after.session.references.imports = ["math"] ∧
      s.references.modules <+: after.session.references.modules ∧
      after.session.references.Bound c := by
  intro c manifest h s
  -- The evaluation stays in its place: a name for it would make the kernel run it.
  dsimp only
  have distinct : c.Distinct := ⟨by decide +kernel, by decide +kernel⟩
  have overCatalog : h.Over c := by
    refine ⟨rfl, .catalog, ?_⟩
    intro other member
    rw [List.mem_singleton.mp member]
    exact .manifests _ _
  have reachable : ReachableBy (Host.Over c) s := .evaluate .new overCatalog _ _ _
  have lists : s.references.modules.map (·.name) = ["stats", "math"] ∧
      (s.evaluate h "#load math\nuse math" [] {}).session.references.modules.map (·.name) =
        ["stats", "math"] ∧
      (s.evaluate h "#load math\nuse math" [] {}).session.references.imports = ["math"] := by
    decide +kernel
  obtain ⟨modules, modulesAfter, importsAfter⟩ := lists
  obtain ⟨grows, -, -, -, bound⟩ :=
    evaluate_references distinct overCatalog reachable "#load math\nuse math" [] {}
  exact ⟨distinct, overCatalog, reachable, modules, modulesAfter, importsAfter, grows, bound⟩

end Session

end ScriptShell
