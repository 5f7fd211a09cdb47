import ScriptShell.Typing.Infer

/-! # Checking statements

`Scope.checkAll` follows the statements of a fragment, gives every declared name a type and reports
all problems. -/

namespace ScriptShell

/-- The declared names after some statements, and the problems of those. -/
structure Checked where
  bindings : Dict Ty
  problems : List Diagnostic := []

namespace Scope

/-- The scope with other declared names. -/
def withBindings (s : Scope) (bindings : Dict Ty) : Scope :=
  { s with bindings }

/-- The type of a value to give a name; a value that is none is a problem. -/
def typeToBind (s : Scope) (name : String) (value : Expr) (span : Span) : Typed :=
  let typed := s.infer value
  if typed.type.isVoid then
    ⟨.any, typed.problems ++ [problemAt span ("cannot bind a void value to '" ++ name ++ "'")]⟩
  else typed

/-- The type of a function whose parameters may be anything. -/
def functionType (params : List String) (returns : Ty) : Ty :=
  .fn (params.map fun _ => .any) returns false

/-- Checks a function: its name is bound while its body is checked, so that it may call itself. -/
def checkFunction (s : Scope) (name : String) (params : List String) (body : Expr) : Checked :=
  let recursive := s.bindings.insert name (functionType params .any)
  let inside := { s with bindings := recursive, locals := Dict.ofList (params.map (·, .any)) }
  let typed := inside.infer body
  ⟨recursive.insert name (functionType params typed.type), typed.problems⟩

/-- The type a name has after a value of a type was assigned to it. -/
def assignedType (bindings : Dict Ty) (name : String) (type : Ty) : Ty :=
  match bindings.get? name with
  | some held => held.join type
  | none => type

mutual

/-- Checks a statement. -/
def check (s : Scope) : Stmt → Checked
  | .load .. => ⟨s.bindings, []⟩
  | .use module span =>
    if module ∈ s.modules then ⟨s.bindings, []⟩
    else ⟨s.bindings, [problemAt span (s.unavailable module)]⟩
  | .define name params body _ => s.checkFunction name params body
  | .bind name value span =>
    let typed := s.typeToBind name value span
    ⟨s.bindings.insert name typed.type, typed.problems⟩
  | .assign name value span =>
    let typed := s.typeToBind name value span
    ⟨s.bindings.insert name (assignedType s.bindings name typed.type), typed.problems⟩
  | .branch test onTrue onFalse _ =>
    let tested := (s.infer test).asValue test.span
    let first := checkAll s onTrue
    match onFalse with
    | none => ⟨first.bindings, tested.problems ++ first.problems⟩
    | some onFalse =>
      let second := checkAll (s.withBindings first.bindings) onFalse
      ⟨second.bindings, tested.problems ++ first.problems ++ second.problems⟩
  | .loop test body _ =>
    let tested := (s.infer test).asValue test.span
    let inner := checkAll s body
    ⟨inner.bindings, tested.problems ++ inner.problems⟩
  | .eval expr _ _ => ⟨s.bindings, (s.infer expr).problems⟩

/-- Checks statements one after the other. -/
def checkAll (s : Scope) : List Stmt → Checked
  | [] => ⟨s.bindings, []⟩
  | stmt :: rest =>
    let first := check s stmt
    let others := checkAll (s.withBindings first.bindings) rest
    ⟨others.bindings, first.problems ++ others.problems⟩

end

end Scope

end ScriptShell
