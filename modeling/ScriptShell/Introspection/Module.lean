import ScriptShell.Introspection.Member
import ScriptShell.Module.Catalog
import ScriptShell.Text.CharClass

/-! # Modules as types

Every module of a catalog is a type whose methods are its functions and whose properties are its
constants. -/

namespace ScriptShell

/-- The namespace of modules. -/
def modulesSpace : String := "script.modules"

/-- The full type name of a module. -/
def typeNameOfModule (module : String) : String :=
  modulesSpace ++ "." ++ module

/-- The name of a static type. -/
def Ty.typeName : Ty → TypeName
  | .num => .mk "script" "Number" []
  | .str => .mk "script" "String" []
  | .bool => .mk "script" "Boolean" []
  | .null => .mk "script" "Null" []
  | .void => .mk "script" "Void" []
  | .any => .mk "script" "Any" []
  | .list item => .mk "script" "List`1" [item.typeName]
  | .future item => .mk "script" "Future`1" [item.typeName]
  | .fn .. => .mk "script" "Function" []
  | .module name => .mk modulesSpace name []

/-- A function as a method; further arguments go to a last parameter of their own. -/
def NativeFunction.shape (f : NativeFunction) : MethodDecl where
  name := f.name
  returns := f.returns.typeName
  params := f.params.map (fun (name, type) => (type.typeName, name))
    ++ if f.variadic then [(Ty.any.typeName, "values")] else []
  isVariadic := f.variadic

/-- A module as a type. -/
def ScriptModule.shape (m : ScriptModule) : TypeDecl where
  space := modulesSpace
  name := m.name
  methods := m.functions.map (·.shape)
  properties := m.constants.map fun k => { name := k.name, type := k.type.typeName }

/-- The name of a module without the namespace of modules. -/
def moduleOfType (name : String) : String :=
  match Text.dropLead? (modulesSpace ++ ".").toList name.toList with
  | some rest => String.ofList rest
  | none => name

/-- The type of a name, which may be qualified. -/
def Catalog.typeNamed? (c : Catalog) (name : String) : Option TypeDecl :=
  (c.get? (moduleOfType name)).map (·.shape)

end ScriptShell
