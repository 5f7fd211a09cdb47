import ScriptShell.Module.Reference
import ScriptShell.Syntax.Ast
import ScriptShell.Ty
import ScriptShell.Dict

/-! # Compiled fragments

A compiled fragment is a unit: its program, the modules it refers to, and the units before it, of
which it may call functions. -/

namespace ScriptShell

/-- A function that a fragment declares. -/
structure FunctionDecl where
  params : List String
  body : Expr
  deriving Inhabited

/-- The compiled form of a fragment. -/
structure Program where
  statements : List Stmt
  /-- Every name visible after the fragment ran, with its type. -/
  bindings : Dict Ty
  /-- Modules that may be used by name. -/
  modules : List String
  /-- Modules whose members need no qualification, in the order in which they are tried. -/
  imports : List String
  /-- The functions declared by the fragment. -/
  functions : Dict FunctionDecl
  deriving Inhabited

/-- A numbered fragment with its program. -/
structure Fragment where
  id : Nat
  source : String
  program : Program
  references : List Reference
  deriving Inhabited

/-- The name of the unit of a number; no module has such a name. -/
def unitName (id : Nat) : String :=
  "<submission#" ++ toString id ++ ">"

/-- The name of a fragment. -/
def Fragment.name (f : Fragment) : String :=
  unitName f.id

/-- A fragment after the fragments before it, the newest first. -/
structure ScriptUnit extends Fragment where
  earlier : List Fragment := []
  deriving Inhabited

namespace ScriptUnit

/-- The fragment itself and those before it, the newest first. -/
def ancestors (u : ScriptUnit) : List Fragment :=
  u.toFragment :: u.earlier

/-- The declaration of a function, in the unit that the reference names. -/
def function? (u : ScriptUnit) (name : String) (unit : Nat) : Option FunctionDecl :=
  (u.ancestors.find? (·.id == unit)).bind (·.program.functions.get? name)

end ScriptUnit

/-! ## Collecting functions -/

mutual

/-- Adds the functions that a statement declares, those in its blocks included; a later declaration
replaces an earlier one of its name. -/
def Stmt.addFunctions (found : Dict FunctionDecl) : Stmt → Dict FunctionDecl
  | .define name params body _ => found.insert name ⟨params, body⟩
  | .branch _ onTrue none _ => Stmt.collectAll found onTrue
  | .branch _ onTrue (some onFalse) _ => Stmt.collectAll (Stmt.collectAll found onTrue) onFalse
  | .loop _ body _ => Stmt.collectAll found body
  | _ => found

/-- Adds the functions that statements declare. -/
def Stmt.collectAll (found : Dict FunctionDecl) : List Stmt → Dict FunctionDecl
  | [] => found
  | s :: rest => Stmt.collectAll (Stmt.addFunctions found s) rest

end

/-- The functions that statements declare. -/
def declaredFunctions (statements : List Stmt) : Dict FunctionDecl :=
  Stmt.collectAll {} statements

end ScriptShell
