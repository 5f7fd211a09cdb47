import ScriptShell.Evaluation.Unit
import ScriptShell.Reference.Set
import ScriptShell.Syntax.Parser
import ScriptShell.Typing.Check

/-! # Compiling fragments

`compile` parses and checks a fragment against the references of a session and the unit before it.
-/

namespace ScriptShell

/-- Appends modules whose names are new. -/
def addByName (found : List Reference) (more : List Reference) : List Reference :=
  more.foldl (fun found m => if found.any (·.name == m.name) then found else found ++ [m]) found

/-- The modules that a fragment sees: those bound, and everything these need. -/
def Catalog.visible (c : Catalog) (references : References) : List Reference :=
  references.modules.foldl (fun found m => addByName found (c.closure m.name)) []

/-- The names of the modules that a fragment may use. -/
def Catalog.usable (c : Catalog) (references : References) : List String :=
  preludeName :: (c.visible references).map (·.name)

/-- The modules whose members a fragment may use without qualification. -/
def importedModules (references : References) : List String :=
  preludeName :: references.imports

/-- The scope of a fragment over some references and declared names. -/
def Catalog.scope (c : Catalog) (references : References) (bindings : Dict Ty) : Scope where
  catalog := c
  modules := c.usable references
  imports := importedModules references
  bindings := bindings

/-- The scope after a program. -/
def Program.scope (p : Program) (c : Catalog) : Scope where
  catalog := c
  modules := p.modules
  imports := p.imports
  bindings := p.bindings

/-- The declared names after a unit, if there is one. -/
def bindingsAfter (previous : Option ScriptUnit) : Dict Ty :=
  (previous.map (·.program.bindings)).getD {}

/-- The references of a unit: the modules it sees, and the unit before it. -/
def Catalog.unitReferences (c : Catalog) (references : References)
    (previous : Option ScriptUnit) : List Reference :=
  c.visible references ++ (previous.map fun u => (⟨u.name, "0", []⟩ : Reference)).toList

/-- Compiles a fragment into the unit of a number. -/
def compile (c : Catalog) (references : References) (previous : Option ScriptUnit) (id : Nat)
    (text : String) : Except (List Diagnostic) ScriptUnit := do
  match parse text with
  | .error e => throw [e.diagnostic]
  | .ok statements =>
    let scope := c.scope references (bindingsAfter previous)
    let checked := scope.checkAll statements
    if checked.problems.isEmpty then
      return {
        id
        source := text
        program := {
          statements
          bindings := checked.bindings
          modules := scope.modules
          imports := scope.imports
          functions := declaredFunctions statements }
        references := c.unitReferences references previous
        earlier := (previous.map (·.ancestors)).getD [] }
    else throw checked.problems

/-! ## The value of a fragment -/

/-- The last statement of a fragment, when it is an expression without a semicolon. -/
def tailOf (statements : List Stmt) : Option Expr :=
  match statements.getLast? with
  | some (.eval expr false _) => some expr
  | _ => none

/-- The expression that a text ends with, when it is one without a semicolon. -/
def finalExpression (text : String) : Option Expr :=
  (parse text).toOption.bind tailOf

/-- Whether the tail of a text has a value after a unit of it. -/
def capturesValue (c : Catalog) (unit : ScriptUnit) (text : String) : Bool :=
  match finalExpression text with
  | none => false
  | some tail => !((unit.program.scope c).infer tail).type.isVoid

end ScriptShell
