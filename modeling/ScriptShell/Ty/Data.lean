import ScriptShell.Ty
import ScriptShell.Json.Basic

/-! # Static types as data

A type becomes an object with a field `t` for its form and, for the forms that have parts, a field
`of` for those. -/

namespace ScriptShell

mutual

/-- A type as data. -/
def Ty.toJson : Ty → Json
  | .num => .obj [("t", .str "Num")]
  | .str => .obj [("t", .str "Str")]
  | .bool => .obj [("t", .str "Bool")]
  | .null => .obj [("t", .str "Null")]
  | .void => .obj [("t", .str "Void")]
  | .any => .obj [("t", .str "Any")]
  | .list item => .obj [("t", .str "List"), ("of", item.toJson)]
  | .future item => .obj [("t", .str "Future"), ("of", item.toJson)]
  | .fn params returns variadic =>
    .obj [("t", .str "Fn"), ("of", .obj
      [("params", .arr (Ty.listToJson params)), ("returns", returns.toJson),
       ("variadic", .bool variadic)])]
  | .module name => .obj [("t", .str "Module"), ("of", .str name)]

/-- Types as data. -/
def Ty.listToJson : List Ty → List Json
  | [] => []
  | t :: rest => t.toJson :: Ty.listToJson rest

end

end ScriptShell
