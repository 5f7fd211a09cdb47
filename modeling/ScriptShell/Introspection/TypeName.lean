import ScriptShell.Json.Basic

/-! # Names of types

How the types in a listing of members are written: built-in types by a short name, generic ones with
their arguments. -/

namespace ScriptShell

/-- A type by its namespace and name, with arguments if it is generic. -/
inductive TypeName where
  | mk (space name : String) (args : List TypeName)
  deriving Inhabited

/-- The short names of built-in types. -/
def typeAliases : List (String × String) :=
  [("script.Number", "num"), ("script.String", "str"), ("script.Boolean", "bool"),
   ("script.Void", "void"), ("script.Any", "any"), ("script.Null", "null"),
   ("System.String", "string"), ("System.Int32", "int"), ("System.Boolean", "bool"),
   ("System.Double", "double"), ("System.Single", "float"), ("System.Decimal", "decimal"),
   ("System.Object", "object"), ("System.Void", "void"), ("System.Char", "char"),
   ("System.Byte", "byte"), ("System.SByte", "sbyte"), ("System.Int16", "short"),
   ("System.UInt16", "ushort"), ("System.UInt32", "uint"), ("System.Int64", "long"),
   ("System.UInt64", "ulong")]

/-- The names of types whose values are awaited. -/
def futureNames : List String :=
  ["Future", "Task", "ValueTask"]

/-- A name qualified by its namespace, if that is not empty. -/
def qualifiedName (space name : String) : String :=
  if space.isEmpty then name else space ++ "." ++ name

/-- The mark between a name and its number of parameters. -/
def arityMark : Char := Char.ofNat 0x60

/-- A name without its number of parameters. -/
def withoutArity (name : String) : String :=
  String.ofList (name.toList.takeWhile (· != arityMark))

namespace TypeName

/-- The namespace of a type. -/
def space : TypeName → String
  | .mk space _ _ => space

/-- The name of a type, with its number of parameters. -/
def name : TypeName → String
  | .mk _ name _ => name

/-- The arguments of a type. -/
def args : TypeName → List TypeName
  | .mk _ _ args => args

mutual

/-- The written form of a type. -/
def render : TypeName → String
  | .mk space name [] =>
    let full := qualifiedName space (withoutArity name)
    (typeAliases.lookup full).getD full
  | .mk space name (arg :: args) =>
    qualifiedName space (withoutArity name) ++ "<"
      ++ ", ".intercalate (render arg :: renderAll args) ++ ">"

/-- The written forms of types. -/
def renderAll : List TypeName → List String
  | [] => []
  | t :: rest => render t :: renderAll rest

end

/-- Whether values of a type are awaited. -/
def isAwaited (t : TypeName) : Bool :=
  futureNames.contains (withoutArity t.name) && t.args.length ≤ 1

mutual

/-- A type's name as data. -/
def toJson : TypeName → Json
  | .mk space name [] => .obj [("namespace", .str space), ("name", .str name)]
  | .mk space name (arg :: args) =>
    .obj [("namespace", .str space), ("name", .str name),
          ("args", .arr (toJson arg :: listToJson args))]

/-- Types' names as data. -/
def listToJson : List TypeName → List Json
  | [] => []
  | t :: rest => toJson t :: listToJson rest

end

end TypeName

end ScriptShell
