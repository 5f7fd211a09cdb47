import ScriptShell.Module.Reference

/-! # Reference sets

What a session has bound so far: modules, imported names and the targets that need no further
resolution, each in the order in which they came and without repetition. Modules are told apart by
their written form, and generated units are never kept. -/

namespace ScriptShell

/-- Modules, imports and targets, in the order in which they came. -/
structure References where
  modules : List Reference := []
  imports : List String := []
  /-- Targets that were resolved. -/
  targets : List String := []
  deriving DecidableEq, Repr, Inhabited

namespace References

/-! ## Adding -/

/-- Whether a module is new to the set and not a generated unit. -/
def admits (s : References) (m : Reference) : Bool :=
  !m.isGenerated && !s.modules.any (·.display == m.display)

/-- Adds a module that the set admits. -/
def addModule (s : References) (m : Reference) : References :=
  if s.admits m then { s with modules := s.modules ++ [m] } else s

/-- Adds modules one after the other. -/
def addModules (s : References) (ms : List Reference) : References :=
  ms.foldl addModule s

/-- Those of some modules that adding them one after the other appends. -/
def newModules (s : References) : List Reference → List Reference
  | [] => []
  | m :: ms =>
    if s.admits m then m :: (s.addModule m).newModules ms else s.newModules ms

/-- Adds an import that is new. -/
def addImport (s : References) (name : String) : References :=
  if name ∈ s.imports then s else { s with imports := s.imports ++ [name] }

/-- Adds imports one after the other. -/
def addImports (s : References) (names : List String) : References :=
  names.foldl addImport s

/-- Marks a target as resolved. -/
def addTarget (s : References) (target : String) : References :=
  if target ∈ s.targets then s else { s with targets := s.targets ++ [target] }

/-- Marks targets as resolved. -/
def addTargets (s : References) (targets : List String) : References :=
  targets.foldl addTarget s

/-- Adds all of another set. -/
def merge (s other : References) : References :=
  ((s.addModules other.modules).addImports other.imports).addTargets other.targets

/-! ## Asking -/

/-- The first module of a name. -/
def module? (s : References) (name : String) : Option Reference :=
  s.modules.find? (·.name == name)

/-- Whether a module of a name is bound. -/
def hasModule (s : References) (name : String) : Bool :=
  s.modules.any (·.name == name)

/-- Whether a target needs no resolution: it was resolved before, or a module of that name is bound.
-/
def isBound (s : References) (target : String) : Bool :=
  s.targets.contains target || s.hasModule target

/-- Whether a name is imported. -/
def hasImport (s : References) (name : String) : Bool :=
  s.imports.contains name

/-- Whether nothing is bound or imported. -/
def isEmpty (s : References) : Bool :=
  s.modules.isEmpty && s.imports.isEmpty

/-! ## What adding modules does -/

@[simp] theorem addModules_nil (s : References) : s.addModules [] = s := rfl

@[simp] theorem addModules_cons (s : References) (m : Reference) (ms : List Reference) :
    s.addModules (m :: ms) = (s.addModule m).addModules ms := rfl

/-- Adding modules appends those that are new, in order. -/
theorem modules_addModules (s : References) (ms : List Reference) :
    (s.addModules ms).modules = s.modules ++ s.newModules ms := by
  induction ms generalizing s with
  | nil => simp [newModules]
  | cons m ms ih =>
    rw [addModules_cons, ih]
    by_cases h : s.admits m <;> simp [newModules, addModule, h]

end References

end ScriptShell
