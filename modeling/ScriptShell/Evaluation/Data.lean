import ScriptShell.Evaluation.Unit
import ScriptShell.Syntax.Data
import ScriptShell.Ty.Data

/-! # Compiled fragments as data -/

namespace ScriptShell

/-- A reference to a module as data. -/
def Reference.toJson (ref : Reference) : Json :=
  .obj ([("name", .str ref.name), ("version", .str ref.version), ("display", .str ref.display)]
    ++ if ref.dependencies.isEmpty then []
       else [("dependencies", .strings ref.dependencies)])

/-- A declared function as data. -/
def FunctionDecl.toJson (f : FunctionDecl) : Json :=
  .obj [("params", .strings f.params), ("body", f.body.toJson)]

/-- A program as data. -/
def Program.toJson (p : Program) : Json :=
  .obj [("statements", .arr (Stmt.listToJson p.statements)),
        ("bindings", .sorted (p.bindings.map Ty.toJson)), ("modules", .strings p.modules),
        ("imports", .strings p.imports), ("functions", .sorted (p.functions.map (·.toJson)))]

end ScriptShell
