import ScriptShell.Module.Basic

/-! # Catalogs

A catalog is the collection of modules that scripts can load. `Catalog.closure` lists a module and
all it needs, depth first. -/

namespace ScriptShell

/-- The name of the module that every fragment has without loading it. -/
def preludeName : String := "core"

/-- Modules in increasing order of name. -/
structure Catalog where
  modules : List ScriptModule := []

namespace Catalog

/-- The catalog without modules. -/
def empty : Catalog := {}

instance : Inhabited Catalog := ⟨empty⟩

/-- The module of a name. -/
def get? (c : Catalog) (name : String) : Option ScriptModule :=
  c.modules.find? (·.name == name)

/-- Whether there is a module of a name. -/
def contains (c : Catalog) (name : String) : Bool :=
  (c.get? name).isSome

/-- Puts a module at its place in an ordered list, in the place of one of the same name. -/
def placeModule (m : ScriptModule) : List ScriptModule → List ScriptModule
  | [] => [m]
  | other :: rest =>
    if m.name < other.name then m :: other :: rest
    else if m.name = other.name then m :: rest
    else other :: placeModule m rest

/-- Adds a module, or replaces the one of its name. -/
def register (c : Catalog) (m : ScriptModule) : Catalog :=
  ⟨placeModule m c.modules⟩

/-- Adds modules one after the other. -/
def registerAll (c : Catalog) (modules : List ScriptModule) : Catalog :=
  modules.foldl register c

/-- The names of the modules. -/
def names (c : Catalog) : List String :=
  c.modules.map (·.name)

/-! ## Dependencies -/

/-- Visits pending modules, the first one first, putting what a module needs before what was
pending; modules that were found already or that the catalog lacks are passed over. -/
def visit (c : Catalog) : (steps : Nat) → (pending : List String) → (found : List Reference) →
    List Reference
  | 0, _, found => found
  | _ + 1, [], found => found
  | steps + 1, next :: pending, found =>
    if found.any (·.name == next) then c.visit steps pending found
    else
      match c.get? next with
      | none => c.visit steps pending found
      | some m => c.visit steps (m.dependencies ++ pending) (found ++ [m.ref])

/-- The steps that visiting takes at most: one for the start and one for each dependency of each
module, since a module is found once. -/
def visitSteps (c : Catalog) : Nat :=
  c.modules.foldl (fun steps m => steps + m.dependencies.length) 1

/-- A module and, depth first, everything it needs. -/
def closure (c : Catalog) (name : String) : List Reference :=
  c.visit c.visitSteps [name] []

/-! ## Reading -/

/-- A module is found under its own name. -/
theorem name_of_get? {c : Catalog} {name : String} {m : ScriptModule} (h : c.get? name = some m) :
    m.name = name := by
  simpa using List.find?_some h

/-- A module that is found is one of the catalog's. -/
theorem mem_of_get? {c : Catalog} {name : String} {m : ScriptModule} (h : c.get? name = some m) :
    m ∈ c.modules :=
  List.mem_of_find?_eq_some h

end Catalog

end ScriptShell
