import ScriptShell.Proofs.Reference.Growth
import ScriptShell.Reference.Manifest

/-! # What comes into a reference set

Modules come into a reference set one after the other, told apart by their written forms, and a
module that is not admitted leaves a trace all the same: an entry of its written form is there
already. The first section says this of one module and of many (**`exists_display_addModules`**,
**`Distinct.addModules`**), the second of imports.

The last section follows modules into the set from where they are found. Whatever the resolvers
over a catalog answer is the catalog's own (**`owns_of_resolveText`**). -/

namespace ScriptShell

namespace References

/-! ## Modules -/

/-- No two entries have the same written form, and none is a generated unit. -/
structure Distinct (s : References) : Prop where
  displays : (s.modules.map (·.display)).Nodup
  unmarked : ∀ m ∈ s.modules, m.isGenerated = false

/-- Modules are distinct exactly if nothing is there twice and no generated unit at all. -/
theorem distinct_iff_tidy {s : References} :
    s.Distinct ↔ Tidy Reference.display Reference.isKept s.modules := by
  constructor
  · intro distinct
    exact ⟨fun m member => by simp [Reference.isKept, distinct.unmarked m member],
      distinct.displays⟩
  · intro tidy
    exact ⟨tidy.keys, fun m member => by simpa [Reference.isKept] using tidy.allowed m member⟩

/-- A module comes in only if no entry has its written form. -/
theorem Distinct.addModules {s : References} (distinct : s.Distinct) (ms : List Reference) :
    (s.addModules ms).Distinct := by
  rw [distinct_iff_tidy, modules_addModules_eq]
  exact (distinct_iff_tidy.mp distinct).pushAll ms

/-- Entries were there before or are among the modules added. -/
theorem mem_addModules {s : References} {ms : List Reference} {m : Reference}
    (member : m ∈ (s.addModules ms).modules) : m ∈ s.modules ∨ m ∈ ms := by
  induction ms generalizing s with
  | nil => exact .inl member
  | cons first rest ih =>
      rcases ih member with before | later
      · unfold addModule at before
        split at before
        · rcases List.mem_append.mp before with before | added
          · exact .inl before
          · exact .inr (List.mem_cons.mpr (.inl (List.mem_singleton.mp added)))
        · exact .inl before
      · exact .inr (List.mem_cons_of_mem _ later)

/-- A module that is added has an entry of its written form, unless it is a generated unit: it comes
in, or it is not admitted because of that entry. -/
theorem exists_display_addModules {s : References} {ms : List Reference} {m : Reference}
    (member : m ∈ ms) (unmarked : m.isGenerated = false) :
    ∃ entry ∈ (s.addModules ms).modules, entry.display = m.display := by
  rw [modules_addModules_eq]
  exact List.mem_map.mp
    (mem_keys_pushAll.mpr (.inr ⟨m, member, by simp [Reference.isKept, unmarked], rfl⟩))

/-- What adding appends is among what is added, and is no generated unit. -/
theorem mem_newModules {s : References} {ms : List Reference} {m : Reference}
    (member : m ∈ s.newModules ms) : m ∈ ms ∧ m.isGenerated = false := by
  induction ms generalizing s with
  | nil => cases member
  | cons first rest ih =>
      rw [newModules] at member
      split at member
      · rename_i admitted
        rcases List.mem_cons.mp member with rfl | member
        · rw [admits, Bool.and_eq_true, Bool.not_eq_true'] at admitted
          exact ⟨List.mem_cons_self, admitted.1⟩
        · exact ⟨List.mem_cons_of_mem _ (ih member).1, (ih member).2⟩
      · exact ⟨List.mem_cons_of_mem _ (ih member).1, (ih member).2⟩

/-! ## Imports -/

/-- Adding imports appends names, and no name twice. -/
theorem imports_addImports {s : References} (names : List String) (distinct : s.imports.Nodup) :
    s.imports <+: (s.addImports names).imports ∧ (s.addImports names).imports.Nodup := by
  have tidy : Tidy id (fun _ => true) s.imports := ⟨fun _ _ => rfl, by simpa using distinct⟩
  rw [imports_addImports_eq]
  exact ⟨prefix_pushAll _ _, by simpa using (tidy.pushAll names).keys⟩

/-! ## Merging -/

@[simp] theorem modules_merge (s other : References) :
    (s.merge other).modules = s.modules ++ s.newModules other.modules := by
  simp only [merge, modules_addTargets, modules_addImports, modules_addModules]

@[simp] theorem imports_merge (s other : References) :
    (s.merge other).imports = (s.addImports other.imports).imports := by
  rw [merge, imports_addTargets, imports_addImports_eq, imports_addModules, imports_addImports_eq]

/-- Merging keeps modules distinct. -/
theorem Distinct.merge {s : References} (distinct : s.Distinct) (other : References) :
    (s.merge other).Distinct := by
  have added := distinct.addModules other.modules
  constructor
  · rw [modules_merge, ← modules_addModules]
    exact added.displays
  · intro m member
    rw [modules_merge, ← modules_addModules] at member
    exact added.unmarked m member

end References

/-! ## Modules that are visible anyway -/

/-- Modules whose names are there already are not added. -/
theorem addByName_of_names {found more : List Reference}
    (there : ∀ m ∈ more, m.name ∈ found.map (·.name)) : addByName found more = found := by
  unfold addByName
  induction more with
  | nil => rfl
  | cons m rest ih =>
      have isThere : found.any (·.name == m.name) = true := by
        obtain ⟨other, member, same⟩ := List.mem_map.mp (there m List.mem_cons_self)
        exact List.any_eq_true.mpr ⟨other, member, beq_iff_eq.mpr same⟩
      rw [List.foldl_cons, if_pos isThere]
      exact ih fun m member => there m (List.mem_cons_of_mem _ member)

/-- Binding modules that are visible anyway makes no others visible. -/
theorem Catalog.visible_merge (c : Catalog) {s other : References}
    (seen : ∀ m ∈ other.modules, m.isGenerated = false → m ∈ c.visible s) :
    c.visible (s.merge other) = c.visible s := by
  rw [visible, References.modules_merge, List.foldl_append]
  show (s.newModules other.modules).foldl _ (c.visible s) = _
  have new : ∀ m ∈ s.newModules other.modules, m ∈ c.visible s := fun m member =>
    seen m (References.mem_newModules member).1 (References.mem_newModules member).2
  generalize s.newModules other.modules = more at new
  induction more with
  | nil => rfl
  | cons m rest ih =>
      -- What a visible module needs is visible, since it is needed by a bound one, too.
      have needed : ∀ n ∈ c.closure m.name, n.name ∈ (c.visible s).map (·.name) := by
        intro n member
        obtain ⟨bound, isBound, leads⟩ := mem_visible.mp
          (List.mem_map.mpr ⟨m, new m List.mem_cons_self, rfl⟩)
        obtain ⟨further, has⟩ := mem_closure.mp (List.mem_map.mpr ⟨n, member, rfl⟩)
        exact mem_visible.mpr
          ⟨bound, isBound, mem_closure.mpr ⟨(mem_closure.mp leads).1.trans further, has⟩⟩
      rw [List.foldl_cons, addByName_of_names needed]
      exact ih fun m member => new m (List.mem_cons_of_mem _ member)

/-! ## Modules that resolvers find -/

namespace Resolver

/-- The resolvers that take their modules from a catalog: by name, or by the names in a manifest. -/
inductive OverCatalog (c : Catalog) : Resolver → Prop where
  | catalog : OverCatalog c (ofCatalog c)
  | manifests (files : FileTree) (directories : List String) :
      OverCatalog c (ofManifests files directories (ofCatalog c))

/-- Every module that a resolver answers with, for whatever target, has a property. -/
def Finds (r : Resolver) (good : Reference → Prop) : Prop :=
  ∀ target modules, (r target).result = .ok modules → ∀ m ∈ modules, good m

/-- A catalog finds its own modules only. -/
theorem ofCatalog_finds (c : Catalog) : (ofCatalog c).Finds c.Owns := by
  intro target modules found m member
  cases found
  rw [Option.mem_toList, Option.map_eq_some_iff] at member
  obtain ⟨known, there, rfl⟩ := member
  exact Catalog.owns_of_get? there

/-- Names one after the other find only what the resolver finds for each. -/
theorem resolveNames_finds {r : Resolver} {good : Reference → Prop} (finds : r.Finds good)
    {names : List String} {modules : List Reference}
    (found : (resolveNames r names).result = .ok modules) : ∀ m ∈ modules, good m := by
  induction names generalizing modules with
  | nil =>
      cases found
      intro m none
      cases none
  | cons name rest ih =>
      rw [resolveNames] at found
      dsimp only at found
      split at found
      · cases found
      · cases found
      · rename_i first _ answered
        -- The answer is what this name gives, followed by what the others give.
        cases others : (resolveNames r rest).result with
        | error e =>
            rw [others] at found
            cases found
        | ok later =>
            rw [others] at found
            cases found
            intro m member
            rcases List.mem_append.mp member with member | member
            · exact finds name first answered m member
            · exact ih others m member

/-- A resolver over a catalog finds the catalog's own modules only. -/
theorem OverCatalog.finds {c : Catalog} {r : Resolver} (overCatalog : OverCatalog c r) :
    r.Finds c.Owns := by
  cases overCatalog with
  | catalog => exact ofCatalog_finds c
  | manifests files directories =>
      intro target modules found
      unfold ofManifests at found
      split at found
      · dsimp only at found
        split at found
        · cases found
        · split at found
          · cases found
          · exact resolveNames_finds (ofCatalog_finds c) found
      · cases found
        intro m none
        cases none

end Resolver

namespace Resolvers

/-- All resolvers take their modules from a catalog. -/
structure OverCatalog (c : Catalog) (r : Resolvers) : Prop where
  primary : Resolver.OverCatalog c r.primary
  alternatives : ∀ other ∈ r.alternatives, Resolver.OverCatalog c other

variable {c : Catalog} {r : Resolvers}

/-- Alternatives over a catalog find its own modules only. -/
theorem owns_of_askAlternatives {alternatives : List Resolver} {target : String}
    (overCatalog : ∀ other ∈ alternatives, Resolver.OverCatalog c other) :
    ∀ m ∈ (askAlternatives target alternatives).1, c.Owns m := by
  induction alternatives with
  | nil =>
      intro m none
      cases none
  | cons first rest ih =>
      intro m member
      rw [askAlternatives] at member
      rcases List.mem_append.mp member with member | member
      · cases answered : (first target).result with
        | error e =>
            rw [answered] at member
            cases member
        | ok modules =>
            rw [answered] at member
            exact (overCatalog first List.mem_cons_self).finds target modules answered m member
      · exact ih (fun other later => overCatalog other (List.mem_cons_of_mem _ later)) m member

/-- Resolvers over a catalog find its own modules only. -/
theorem owns_of_resolve (overCatalog : r.OverCatalog c) {target : String} {modules : List Reference}
    (found : (r.resolve target).result = .ok modules) : ∀ m ∈ modules, c.Owns m := by
  unfold resolve at found
  dsimp only at found
  split at found
  · cases found
  · rename_i first answered
    dsimp only at found
    split at found
    · cases found
    · cases found
      intro m member
      rcases List.mem_append.mp member with member | member
      · exact overCatalog.primary.finds target first answered m member
      · exact owns_of_askAlternatives overCatalog.alternatives m member

/-- **Whatever the load directives of a text resolve to is the catalog's own.** -/
theorem owns_of_resolveText (overCatalog : r.OverCatalog c) {bound : References} {text : String}
    {modules : List Reference} (found : (r.resolveText bound text).result = .ok modules) :
    ∀ m ∈ modules, c.Owns m := by
  unfold resolveText at found
  generalize loadTargets text = targets at found
  induction targets generalizing modules with
  | nil =>
      cases found
      intro m none
      cases none
  | cons target rest ih =>
      rw [resolveEach] at found
      split at found
      · exact ih found
      · dsimp only at found
        split at found
        · cases found
        · rename_i first answered
          cases others : (r.resolveEach bound rest).result with
          | error e =>
              rw [others] at found
              cases found
          | ok later =>
              rw [others] at found
              cases found
              intro m member
              rcases List.mem_append.mp member with member | member
              · exact owns_of_resolve overCatalog answered m member
              · exact ih others m member

end Resolvers

end ScriptShell
