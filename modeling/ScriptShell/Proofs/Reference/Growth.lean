import ScriptShell.Proofs.Module.Closure
import ScriptShell.Proofs.Reference.FirstWins
import ScriptShell.Proofs.Session.Step

/-! # References only come

What a session has bound and imported it never loses: `References.Within` compares two reference
sets by what is in them, and merging goes up in this order (**`within_merge`**). Names that stand
for modules, or for members of imported modules, therefore keep a meaning along a session
(**`typeOf?_of_within`**). -/

namespace ScriptShell

namespace References

/-! ## What adding does -/

@[simp] theorem modules_addImports (s : References) (names : List String) :
    (s.addImports names).modules = s.modules := by
  unfold addImports
  induction names generalizing s with
  | nil => rfl
  | cons name rest ih =>
      rw [List.foldl_cons, ih]
      unfold addImport
      split <;> rfl

@[simp] theorem modules_addTargets (s : References) (targets : List String) :
    (s.addTargets targets).modules = s.modules := by
  unfold addTargets
  induction targets generalizing s with
  | nil => rfl
  | cons target rest ih =>
      rw [List.foldl_cons, ih]
      unfold addTarget
      split <;> rfl

@[simp] theorem imports_addTargets (s : References) (targets : List String) :
    (s.addTargets targets).imports = s.imports := by
  unfold addTargets
  induction targets generalizing s with
  | nil => rfl
  | cons target rest ih =>
      rw [List.foldl_cons, ih]
      unfold addTarget
      split <;> rfl

@[simp] theorem imports_addModules (s : References) (ms : List Reference) :
    (s.addModules ms).imports = s.imports := by
  induction ms generalizing s with
  | nil => rfl
  | cons m ms ih =>
      rw [addModules_cons, ih]
      unfold addModule
      split <;> rfl

/-- Adding imports gives all names of both. -/
theorem mem_imports_addImports {s : References} {names : List String} {name : String} :
    name ∈ (s.addImports names).imports ↔ name ∈ s.imports ∨ name ∈ names := by
  rw [imports_addImports_eq, mem_pushAll_id]

/-- Marking targets gives all targets of both. -/
theorem mem_targets_addTargets {s : References} {targets : List String} {target : String} :
    target ∈ (s.addTargets targets).targets ↔ target ∈ s.targets ∨ target ∈ targets := by
  rw [targets_addTargets_eq, mem_pushAll_id]

@[simp] theorem targets_addImports (s : References) (names : List String) :
    (s.addImports names).targets = s.targets := by
  unfold addImports
  induction names generalizing s with
  | nil => rfl
  | cons name rest ih =>
      rw [List.foldl_cons, ih, addImport]
      split <;> rfl

@[simp] theorem targets_addModules (s : References) (ms : List Reference) :
    (s.addModules ms).targets = s.targets := by
  induction ms generalizing s with
  | nil => rfl
  | cons m ms ih =>
      rw [addModules_cons, ih, addModule]
      split <;> rfl

/-- The targets after a merge are those of both. -/
theorem mem_targets_merge {s other : References} {target : String} :
    target ∈ (s.merge other).targets ↔ target ∈ s.targets ∨ target ∈ other.targets := by
  rw [merge, mem_targets_addTargets, targets_addImports, targets_addModules]

/-- Modules after others. -/
theorem addModules_append (s : References) (first second : List Reference) :
    s.addModules (first ++ second) = (s.addModules first).addModules second := by
  induction first generalizing s with
  | nil => rfl
  | cons m rest ih => simp only [List.cons_append, addModules_cons, ih]

/-! ## More references -/

/-- Everything bound and imported in the one set is so in the other. -/
structure Within (fewer more : References) : Prop where
  modules : ∀ m ∈ fewer.modules, m ∈ more.modules
  imports : ∀ name ∈ fewer.imports, name ∈ more.imports

/-- Being within is transitive. -/
theorem Within.trans {a b c : References} (first : a.Within b) (second : b.Within c) : a.Within c :=
  ⟨fun m member => second.modules m (first.modules m member),
    fun name member => second.imports name (first.imports name member)⟩

/-- Merging keeps what was there. -/
theorem within_merge (s other : References) : s.Within (s.merge other) := by
  constructor
  · intro m member
    simp only [merge, modules_addTargets, modules_addImports, modules_addModules]
    exact List.mem_append_left _ member
  · intro name member
    simp only [merge, imports_addTargets, mem_imports_addImports, imports_addModules]
    exact .inl member

/-- Merging a set with further modules keeps what merging the set alone gives. -/
theorem merge_within_merge_addModules (s other : References) (ms : List Reference) :
    (s.merge other).Within (s.merge (other.addModules ms)) := by
  constructor
  · intro m member
    simp only [merge, modules_addTargets, modules_addImports, modules_addModules] at member ⊢
    -- The further modules come after all that the set alone adds.
    rw [← modules_addModules, addModules_append, modules_addModules]
    rw [← modules_addModules] at member
    exact List.mem_append_left _ member
  · intro name member
    simp only [merge, imports_addTargets, mem_imports_addImports, imports_addModules] at member ⊢
    exact member

end References

/-! ## Names that references give -/

namespace Catalog

variable {c : Catalog} {fewer more : References} {name : String}

/-- Within more references more names are usable. -/
theorem mem_usable_of_within (within : fewer.Within more) (usable : name ∈ c.usable fewer) :
    name ∈ c.usable more := by
  rcases List.mem_cons.mp usable with same | visible
  · exact List.mem_cons.mpr (.inl same)
  · obtain ⟨m, bound, needed⟩ := mem_visible.mp visible
    exact List.mem_cons_of_mem _ (mem_visible.mpr ⟨m, within.modules m bound, needed⟩)

/-- The name of a module, of a member of an imported one, or one that is always there keeps a type
when there are more references. -/
theorem typeOf?_of_within (within : fewer.Within more)
    (typed : ((c.scope fewer {}).typeOf? name).isSome) :
    ((c.scope more {}).typeOf? name).isSome := by
  unfold Scope.typeOf? at typed ⊢
  simp only [Option.isSome_or, Bool.or_eq_true] at typed ⊢
  -- Only the last two ways of having a type depend on the references.
  rcases typed with parameter | bound | builtin | isModule | imported
  · exact .inl parameter
  · exact .inr (.inl bound)
  · exact .inr (.inr (.inl builtin))
  · refine .inr (.inr (.inr (.inl ?_)))
    unfold Scope.module? at isModule ⊢
    split at isModule
    · rename_i usable
      have usable : name ∈ (c.scope more {}).modules := mem_usable_of_within within usable
      rw [if_pos usable]
      rfl
    · cases isModule
  · refine .inr (.inr (.inr (.inr ?_)))
    obtain ⟨m, isImport, found⟩ := List.findSome?_isSome_iff.mp imported
    refine List.findSome?_isSome_iff.mpr ⟨m, ?_, ?_⟩
    · rcases List.mem_cons.mp isImport with same | isImport
      · exact List.mem_cons.mpr (.inl same)
      · exact List.mem_cons_of_mem _ (within.imports m isImport)
    · split at found
      · rename_i usable
        have usable : m ∈ (c.scope more {}).modules := mem_usable_of_within within usable
        rw [if_pos usable]
        exact found
      · cases found

end Catalog

end ScriptShell
