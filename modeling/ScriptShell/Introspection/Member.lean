import ScriptShell.Introspection.TypeName

/-! # Members of types

The shape of a type is what it declares; `TypeDecl.members` are the members that can be used from
outside without an instance, and `Member.signature` writes one. -/

namespace ScriptShell

/-- A method of a type. -/
structure MethodDecl where
  name : String
  returns : TypeName
  params : List (TypeName × String) := []
  isStatic : Bool := true
  isPublic : Bool := true
  /-- Whether it is generated and not listed. -/
  isSpecial : Bool := false
  /-- Whether the last parameter takes any number of arguments. -/
  isVariadic : Bool := false
  deriving Inhabited

/-- A property of a type. -/
structure PropertyDecl where
  name : String
  type : TypeName
  isStatic : Bool := true
  isPublic : Bool := true
  deriving Inhabited

/-- What a type declares, in order. -/
structure TypeDecl where
  space : String
  name : String
  genericArgs : List TypeName := []
  methods : List MethodDecl := []
  properties : List PropertyDecl := []
  deriving Inhabited

/-- The full name of a type. -/
def TypeDecl.path (s : TypeDecl) : String :=
  qualifiedName s.space s.name

/-- A member as it is listed. -/
structure Member where
  /-- What the member is or returns. -/
  type : String
  name : String
  params : List (String × String) := []
  isAsync : Bool := false
  /-- Whether it is written without parameters. -/
  isPropertyLike : Bool := false
  isVariadic : Bool := false
  deriving DecidableEq, Repr, Inhabited

namespace Member

/-- A parameter; one that takes any number of arguments is marked. -/
def renderParam (repeated : Bool) (param : String × String) : String :=
  param.1 ++ (if repeated then ".. " else " ") ++ param.2

/-- The parameters, of which the last may take any number of arguments. -/
def renderParams (variadic : Bool) : List (String × String) → List String
  | [] => []
  | [last] => [renderParam variadic last]
  | param :: next :: rest => renderParam false param :: renderParams variadic (next :: rest)

/-- The written form of a member. -/
def signature (m : Member) : String :=
  if m.isPropertyLike then m.type ++ " " ++ m.name
  else
    (if m.isAsync then "async " else "") ++ m.type ++ " " ++ m.name ++ "("
      ++ ", ".intercalate (renderParams m.isVariadic m.params) ++ ")"

end Member

namespace MethodDecl

/-- Whether a method is listed. -/
def isListed (m : MethodDecl) : Bool :=
  m.isPublic && m.isStatic && !m.isSpecial

/-- A method as a member; an accessor without parameters is written like a property. -/
def toMember (m : MethodDecl) : Member where
  type := m.returns.render
  name := m.name
  params := m.params.map fun (type, name) => (type.render, name)
  isAsync := m.returns.isAwaited
  isPropertyLike := "get_".toList.isPrefixOf m.name.toList && m.params.isEmpty
  isVariadic := m.isVariadic && !m.params.isEmpty

end MethodDecl

namespace PropertyDecl

/-- Whether a property is listed. -/
def isListed (p : PropertyDecl) : Bool :=
  p.isPublic && p.isStatic

/-- A property as a member. -/
def toMember (p : PropertyDecl) : Member where
  type := p.type.render
  name := p.name
  isPropertyLike := true

end PropertyDecl

namespace TypeDecl

/-- The listed members: methods, then properties. -/
def members (s : TypeDecl) : List Member :=
  (s.methods.filter (·.isListed)).map (·.toMember)
    ++ (s.properties.filter (·.isListed)).map (·.toMember)

/-- The written forms of the listed members. -/
def signatures (s : TypeDecl) : List String :=
  s.members.map (·.signature)

end TypeDecl

end ScriptShell
