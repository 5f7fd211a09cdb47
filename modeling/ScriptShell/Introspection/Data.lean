import ScriptShell.Introspection.Member

/-! # Types and members as data -/

namespace ScriptShell

/-- A method as data. -/
def MethodDecl.toJson (m : MethodDecl) : Json :=
  .obj [("name", .str m.name), ("return_type", m.returns.toJson),
        ("params", .arr (m.params.map fun (type, name) => .arr [type.toJson, .str name])),
        ("is_static", .bool m.isStatic), ("is_public", .bool m.isPublic),
        ("is_special", .bool m.isSpecial), ("is_variadic", .bool m.isVariadic)]

/-- A property as data. -/
def PropertyDecl.toJson (p : PropertyDecl) : Json :=
  .obj [("name", .str p.name), ("property_type", p.type.toJson), ("is_static", .bool p.isStatic),
        ("is_public", .bool p.isPublic)]

/-- A type as data. -/
def TypeDecl.toJson (s : TypeDecl) : Json :=
  .obj [("namespace", .str s.space), ("name", .str s.name),
        ("generic_args", .arr (TypeName.listToJson s.genericArgs)),
        ("methods", .arr (s.methods.map (·.toJson))),
        ("properties", .arr (s.properties.map (·.toJson)))]

/-- A member as data. -/
def Member.toJson (m : Member) : Json :=
  .obj [("declared_type_name", .str m.type), ("member_name", .str m.name),
        ("parameters", .arr (m.params.map fun (type, name) => Json.strings [type, name])),
        ("is_async", .bool m.isAsync), ("is_property_like", .bool m.isPropertyLike),
        ("is_variadic", .bool m.isVariadic)]

end ScriptShell
