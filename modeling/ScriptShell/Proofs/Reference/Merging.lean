import Mathlib.Data.Finset.Dedup
import Mathlib.Data.Finset.Lattice.Lemmas
import ScriptShell.Proofs.Reference.Entries

/-! # Merging reference sets

Merging puts the three lists of one reference set after those of another, so it is associative, the
empty set is neutral on either side, and merging a second time changes nothing.

A reference set may also keep the keys of its entries beside them, and ask those whether something
is new (`KeyedReferences`). However such a set is put together (`Recipe`), its keys are exactly
those of its entries, and it has the same entries as the set without keys:
**`Recipe.merge_laws`**. -/

namespace ScriptShell

/-! ## Laws of merging -/

namespace References

variable (s other : References)

/-- Merging adds the targets of the other set. -/
theorem targets_merge :
    (s.merge other).targets = pushAll id (fun _ => true) s.targets other.targets := by
  rw [merge, targets_addTargets_eq, targets_addImports, targets_addModules]

/-- Merging puts each list of the one set after that of the other. -/
theorem merge_eq : s.merge other =
    ⟨pushAll Reference.display Reference.isKept s.modules other.modules,
      pushAll id (fun _ => true) s.imports other.imports,
      pushAll id (fun _ => true) s.targets other.targets⟩ := by
  rw [← modules_addModules_eq, modules_addModules, ← modules_merge, ← imports_addImports_eq,
    ← imports_merge, ← targets_merge]

/-- Nothing is there twice, and no generated unit at all. -/
structure Tidy (s : References) : Prop where
  modules : ScriptShell.Tidy Reference.display Reference.isKept s.modules
  imports : ScriptShell.Tidy id (fun _ => true) s.imports
  targets : ScriptShell.Tidy id (fun _ => true) s.targets

variable {s other}

/-- Adding modules keeps a set tidy. -/
theorem Tidy.addModules (tidy : s.Tidy) (ms : List Reference) : (s.addModules ms).Tidy where
  modules := by
    rw [modules_addModules_eq]
    exact tidy.modules.pushAll ms
  imports := by
    rw [imports_addModules]
    exact tidy.imports
  targets := by
    rw [targets_addModules]
    exact tidy.targets

/-- Adding imports keeps a set tidy. -/
theorem Tidy.addImports (tidy : s.Tidy) (names : List String) : (s.addImports names).Tidy where
  modules := by
    rw [modules_addImports]
    exact tidy.modules
  imports := by
    rw [imports_addImports_eq]
    exact tidy.imports.pushAll names
  targets := by
    rw [targets_addImports]
    exact tidy.targets

/-- Adding targets keeps a set tidy. -/
theorem Tidy.addTargets (tidy : s.Tidy) (targets : List String) : (s.addTargets targets).Tidy where
  modules := by
    rw [modules_addTargets]
    exact tidy.modules
  imports := by
    rw [imports_addTargets]
    exact tidy.imports
  targets := by
    rw [targets_addTargets_eq]
    exact tidy.targets.pushAll targets

/-- Merging keeps a set tidy. -/
theorem Tidy.merge (tidy : s.Tidy) (other : References) : (s.merge other).Tidy :=
  ((tidy.addModules other.modules).addImports other.imports).addTargets other.targets

/-- **Merging is associative.** -/
theorem merge_assoc (tidy : other.Tidy) (s last : References) :
    (s.merge other).merge last = s.merge (other.merge last) := by
  -- The middle set has to be tidy: a generated unit in it would keep out a later entry of its key,
  -- and would not come into `s` itself.
  simp only [merge_eq, pushAll_assoc tidy.modules, pushAll_assoc tidy.imports,
    pushAll_assoc tidy.targets]

/-- Merging with nothing changes nothing. -/
theorem merge_empty (s : References) : s.merge {} = s :=
  rfl

/-- Merging into nothing gives the set itself, if it is tidy. -/
theorem Tidy.empty_merge (tidy : s.Tidy) : ({} : References).merge s = s := by
  rw [merge_eq, nil_pushAll tidy.modules, nil_pushAll tidy.imports, nil_pushAll tidy.targets]

/-- Merging a second time changes nothing. -/
theorem merge_merge_self (s other : References) :
    (s.merge other).merge other = s.merge other := by
  simp only [merge_eq, pushAll_pushAll_self]

/-- Merging a second time brings in no module. -/
theorem newModules_merge_self (s other : References) :
    (s.merge other).newModules other.modules = [] := by
  have same := congrArg References.modules (merge_merge_self s other)
  rw [modules_merge] at same
  exact List.append_right_eq_self.mp same

end References

/-! ## Reference sets with keys -/

/-- A reference set that keeps the keys of its entries beside them. -/
@[ext] structure KeyedReferences where
  modules : List Reference := []
  /-- The written forms of the modules. -/
  moduleKeys : Finset String := ∅
  imports : List String := []
  /-- The imported names. -/
  importKeys : Finset String := ∅
  /-- Targets that were resolved. -/
  targets : Finset String := ∅

namespace KeyedReferences

/-- Adds a module that is no generated unit and whose written form is no key, and says whether it
came in. -/
def insertModule (s : KeyedReferences) (m : Reference) : Bool × KeyedReferences :=
  if m.isGenerated then (false, s)
  else if m.display ∈ s.moduleKeys then (false, s)
  else (true, { s with
    modules := s.modules ++ [m]
    moduleKeys := insert m.display s.moduleKeys })

/-- Adds modules one after the other. -/
def extendModules (s : KeyedReferences) (ms : List Reference) : KeyedReferences :=
  ms.foldl (fun s m => (s.insertModule m).2) s

/-- Adds an import that is no key, and says whether it came in. -/
def insertImport (s : KeyedReferences) (name : String) : Bool × KeyedReferences :=
  if name ∈ s.importKeys then (false, s)
  else (true, { s with
    imports := s.imports ++ [name]
    importKeys := insert name s.importKeys })

/-- Adds imports one after the other. -/
def extendImports (s : KeyedReferences) (names : List String) : KeyedReferences :=
  names.foldl (fun s name => (s.insertImport name).2) s

/-- Marks a target as resolved. -/
def markTarget (s : KeyedReferences) (target : String) : KeyedReferences :=
  { s with targets := insert target s.targets }

/-- Adds modules one after the other and collects those that came in. -/
def collectModules (s : KeyedReferences) : List Reference → List Reference × KeyedReferences
  | [] => ([], s)
  | m :: ms =>
    let first := s.insertModule m
    let others := first.2.collectModules ms
    (if first.1 then m :: others.1 else others.1, others.2)

/-- Adds all of another set, and gives the modules that came in. -/
def merge (s other : KeyedReferences) : List Reference × KeyedReferences :=
  let collected := s.collectModules other.modules
  let imported := collected.2.extendImports other.imports
  (collected.1, { imported with targets := imported.targets ∪ other.targets })

end KeyedReferences

namespace References

/-- A reference set with exactly the keys of its entries. -/
def keyed (s : References) : KeyedReferences where
  modules := s.modules
  moduleKeys := (s.modules.map (·.display)).toFinset
  imports := s.imports
  importKeys := s.imports.toFinset
  targets := s.targets.toFinset

variable (s other : References)

/-- Adding a module by the keys is adding it. -/
theorem insertModule_keyed (m : Reference) :
    s.keyed.insertModule m = (s.admits m, (s.addModule m).keyed) := by
  have isKey : m.display ∈ s.keyed.moduleKeys ↔ s.modules.any (·.display == m.display) = true := by
    simp [keyed]
  unfold KeyedReferences.insertModule
  by_cases generated : m.isGenerated = true
  · have refused : s.admits m = false := by simp [admits, generated]
    rw [if_pos generated, addModule, refused]
    rfl
  · rw [if_neg generated]
    by_cases there : m.display ∈ s.keyed.moduleKeys
    · have refused : s.admits m = false := by simp [admits, isKey.mp there]
      rw [if_pos there, addModule, refused]
      rfl
    · have admitted : s.admits m = true := by
        simpa [admits, generated] using mt isKey.mpr there
      rw [if_neg there, addModule, admitted]
      refine Prod.ext rfl (KeyedReferences.ext rfl ?_ rfl rfl rfl)
      ext key
      simp [keyed]

/-- Adding modules by the keys is adding them. -/
theorem extendModules_keyed (ms : List Reference) :
    s.keyed.extendModules ms = (s.addModules ms).keyed := by
  unfold KeyedReferences.extendModules
  induction ms generalizing s with
  | nil => rfl
  | cons m ms ih => rw [List.foldl_cons, insertModule_keyed, ih, addModules_cons]

/-- Adding an import by the keys is adding it. -/
theorem insertImport_keyed (name : String) :
    s.keyed.insertImport name = (!s.hasImport name, (s.addImport name).keyed) := by
  have isKey : name ∈ s.keyed.importKeys ↔ name ∈ s.imports := List.mem_toFinset
  unfold KeyedReferences.insertImport
  by_cases there : name ∈ s.imports
  · rw [if_pos (isKey.mpr there), addImport, if_pos there]
    simp [hasImport, there]
  · rw [if_neg (mt isKey.mp there), addImport, if_neg there]
    refine Prod.ext (by simp [hasImport, there]) (KeyedReferences.ext rfl rfl rfl ?_ rfl)
    ext key
    simp [keyed]

/-- Adding imports by the keys is adding them. -/
theorem extendImports_keyed (names : List String) :
    s.keyed.extendImports names = (s.addImports names).keyed := by
  unfold KeyedReferences.extendImports addImports
  induction names generalizing s with
  | nil => rfl
  | cons name names ih => rw [List.foldl_cons, List.foldl_cons, insertImport_keyed, ih]

/-- Marking a target by the keys is adding it. -/
theorem markTarget_keyed (target : String) :
    s.keyed.markTarget target = (s.addTarget target).keyed := by
  unfold addTarget
  split
  · rename_i there
    refine KeyedReferences.ext rfl rfl rfl rfl ?_
    exact Finset.insert_eq_of_mem (List.mem_toFinset.mpr there)
  · refine KeyedReferences.ext rfl rfl rfl rfl ?_
    ext key
    simp [keyed, KeyedReferences.markTarget]

/-- Collecting what is new by the keys collects what is new. -/
theorem collectModules_keyed (ms : List Reference) :
    s.keyed.collectModules ms = (s.newModules ms, (s.addModules ms).keyed) := by
  induction ms generalizing s with
  | nil => rfl
  | cons m ms ih =>
      rw [KeyedReferences.collectModules, insertModule_keyed]
      simp only [ih, addModules_cons, newModules]
      by_cases admitted : s.admits m = true
      · rw [if_pos admitted, if_pos admitted]
      · rw [if_neg admitted, if_neg admitted, addModule, if_neg admitted]

/-- Joining targets by the keys is adding them. -/
theorem addTargets_keyed (targets : List String) :
    { s.keyed with targets := s.keyed.targets ∪ targets.toFinset } =
      (s.addTargets targets).keyed := by
  refine KeyedReferences.ext ?_ ?_ ?_ ?_ ?_
  · exact (modules_addTargets s targets).symm
  · simp only [keyed, modules_addTargets]
  · exact (imports_addTargets s targets).symm
  · simp only [keyed, imports_addTargets]
  · ext target
    simp only [keyed, Finset.mem_union, List.mem_toFinset, mem_targets_addTargets]

/-- **Merging by keys is merging**: the same modules come in, and the keys stay those of the
entries. -/
theorem merge_keyed :
    s.keyed.merge other.keyed = (s.newModules other.modules, (s.merge other).keyed) := by
  have modules : s.keyed.collectModules other.keyed.modules =
      (s.newModules other.modules, (s.addModules other.modules).keyed) :=
    s.collectModules_keyed other.modules
  have imports : (s.addModules other.modules).keyed.extendImports other.keyed.imports =
      ((s.addModules other.modules).addImports other.imports).keyed :=
    extendImports_keyed _ other.imports
  simp only [KeyedReferences.merge, modules, imports]
  exact Prod.ext rfl (addTargets_keyed _ other.targets)

end References

/-! ## Sets put together from nothing -/

/-- How a reference set is put together from the empty one. -/
inductive Recipe where
  | empty
  | addModule (r : Recipe) (m : Reference)
  | addModules (r : Recipe) (ms : List Reference)
  | addImport (r : Recipe) (name : String)
  | addTarget (r : Recipe) (target : String)
  | merge (r other : Recipe)

namespace Recipe

/-- The reference set that is put together. -/
def references : Recipe → References
  | .empty => {}
  | .addModule r m => r.references.addModule m
  | .addModules r ms => r.references.addModules ms
  | .addImport r name => r.references.addImport name
  | .addTarget r target => r.references.addTarget target
  | .merge r other => r.references.merge other.references

/-- The set that is put together with keys. -/
def keyed : Recipe → KeyedReferences
  | .empty => {}
  | .addModule r m => (r.keyed.insertModule m).2
  | .addModules r ms => r.keyed.extendModules ms
  | .addImport r name => (r.keyed.insertImport name).2
  | .addTarget r target => r.keyed.markTarget target
  | .merge r other => (r.keyed.merge other.keyed).2

/-- The keys are exactly those of the entries, whichever way a set is put together. -/
theorem keyed_eq (r : Recipe) : r.keyed = r.references.keyed := by
  induction r with
  | empty => rfl
  | addModule r m ih => rw [keyed, ih, References.insertModule_keyed, references]
  | addModules r ms ih => rw [keyed, ih, References.extendModules_keyed, references]
  | addImport r name ih => rw [keyed, ih, References.insertImport_keyed, references]
  | addTarget r target ih => rw [keyed, ih, References.markTarget_keyed, references]
  | merge r other ih ih' => rw [keyed, ih, ih', References.merge_keyed, references]

/-- What a recipe makes is tidy. -/
theorem tidy (r : Recipe) : r.references.Tidy := by
  induction r with
  | empty => exact ⟨.nil, .nil, .nil⟩
  | addModule r m ih => exact ih.addModules [m]
  | addModules r ms ih => exact ih.addModules ms
  | addImport r name ih => exact ih.addImports [name]
  | addTarget r target ih => exact ih.addTargets [target]
  | merge r other ih _ => exact ih.merge other.references

/-- **Reference sets are an ordered-set monoid.** Kept keys are those of the entries, no key occurs
twice and no generated module is kept. Merging is associative, the empty set is neutral on either
side, a second merge adds nothing, and the modules that merging gives back are those that it puts
after the ones before, in their order. -/
theorem merge_laws (a b c : Recipe) :
    a.keyed = a.references.keyed ∧
      (a.references.modules.map (·.display)).Nodup ∧ a.references.imports.Nodup ∧
      (∀ m ∈ a.references.modules, m.isGenerated = false) ∧
      (a.references.merge b.references).merge c.references =
        a.references.merge (b.references.merge c.references) ∧
      a.references.merge {} = a.references ∧ ({} : References).merge a.references = a.references ∧
      (a.references.merge b.references).merge b.references = a.references.merge b.references ∧
      (a.references.merge b.references).newModules b.references.modules = [] ∧
      (a.references.merge b.references).modules =
        a.references.modules ++ a.references.newModules b.references.modules ∧
      a.keyed.merge b.keyed = (a.references.newModules b.references.modules,
        (a.references.merge b.references).keyed) := by
  refine ⟨a.keyed_eq, a.tidy.modules.keys, ?_, ?_, References.merge_assoc b.tidy _ _,
    References.merge_empty _, a.tidy.empty_merge, References.merge_merge_self _ _,
    References.newModules_merge_self _ _, References.modules_merge _ _, ?_⟩
  · simpa using a.tidy.imports.keys
  · intro m member
    simpa [Reference.isKept] using a.tidy.modules.allowed m member
  · rw [a.keyed_eq, b.keyed_eq, References.merge_keyed]

end Recipe

end ScriptShell
