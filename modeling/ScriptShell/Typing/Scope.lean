import ScriptShell.Module.Catalog
import ScriptShell.Dict

/-! # Scopes

What the names of a fragment stand for, as far as their types go. -/

namespace ScriptShell

/-- The name of the arguments of an evaluation. -/
def argsName : String := "args"

/-- The name of the object that describes the running unit. -/
def runtimeName : String := "__stanza_runtime"

/-- What is in scope: modules by name, imported modules whose members need no qualification,
declared names with their types, and the parameters of the function being checked. -/
structure Scope where
  catalog : Catalog
  modules : List String
  imports : List String
  bindings : Dict Ty := {}
  locals : Dict Ty := {}

namespace Scope

/-- The types of the names that are always there. -/
def builtin? (name : String) : Option Ty :=
  if name = argsName then some (.list .str)
  else if name = runtimeName then some .any
  else none

/-- The type of a loaded module's name. -/
def module? (s : Scope) (name : String) : Option Ty :=
  if name ∈ s.modules then some (.module name) else none

/-- The type of a name as a member of the first import that is loaded and has it. -/
def imported? (s : Scope) (name : String) : Option Ty :=
  s.imports.findSome? fun m =>
    if m ∈ s.modules then (s.catalog.get? m).bind (·.typeOf? name) else none

/-- The type of a name: parameters first, then declared names, the names that are always there,
modules, and members of imported modules. -/
def typeOf? (s : Scope) (name : String) : Option Ty :=
  (s.locals.get? name).or <| (s.bindings.get? name).or <| (builtin? name).or <|
    (s.module? name).or (s.imported? name)

end Scope

end ScriptShell
