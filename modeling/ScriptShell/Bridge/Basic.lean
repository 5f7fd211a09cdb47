import ScriptShell.Introspection.Module
import ScriptShell.Session.Basic

/-! # The tool bridge

Two tools for callers outside: `list` writes the members of a type and `invoke` evaluates a command
with the members of a globals module in scope. The bridge has a session of its own. -/

namespace ScriptShell

/-- A bridge: the name it presents itself by, its globals module, and its session. -/
structure Bridge where
  serverName : String := "stanza"
  globals : String := preludeName
  session : Session := {}
  deriving Inhabited

/-- What a tool answers: texts, and whether they tell of an error. -/
structure ToolAnswer where
  texts : List String
  isError : Bool := false
  deriving DecidableEq, Repr, Inhabited

/-- Why a tool does not answer. -/
inductive ToolError where
  | missingArgument (name : String)
  | invalidArgument (name : String)
  | unknownTool (name : String)
  | typeNotFound (name : String)
  | cancelled
  /-- The evaluation was not followed to its end. -/
  | unfinished
  deriving DecidableEq, Repr, Inhabited

/-- The written form of a bridge error. -/
def ToolError.message : ToolError → String
  | .missingArgument name => "Missing required argument '" ++ name ++ "'"
  | .invalidArgument name => "Argument '" ++ name ++ "' must be a string"
  | .unknownTool name => "Unknown tool: '" ++ name ++ "'"
  | .typeNotFound name => "Type not found: '" ++ name ++ "'"
  | .cancelled => "Evaluation cancelled"
  | .unfinished => "Evaluation unfinished"

/-! ## Faults as data -/

/-- A fault in one line. -/
def Fault.headline : Fault → String
  | .compile [] => "compilation failed"
  | .compile [d] => d.message
  | .compile (d :: rest) => d.message ++ " (and " ++ toString rest.length ++ " more)"
  | .runtime error => error.message
  | .resolve error => error.message

/-- A diagnostic as data, its place counted from one. -/
def Diagnostic.toJson (d : Diagnostic) : Json :=
  .obj [("column", .nat (d.col + 1)), ("line", .nat (d.line + 1)), ("message", .str d.message)]

/-- All about a fault, as data. -/
def Fault.details : Fault → Json
  | .compile diagnostics =>
    .obj [("diagnostics", .arr (diagnostics.map Diagnostic.toJson)), ("kind", .str "compile")]
  | .runtime error =>
    .obj [("causes", .strings (error.causes.map Cause.display)), ("code", .str error.code.name),
          ("kind", .str "runtime")]
  | .resolve _ => .obj [("causes", .arr []), ("kind", .str "resolve")]

/-- What a value or a fault is reported as. -/
def reportValue (value : Option Value) : Json :=
  .obj [("hasValue", .bool value.isSome), ("result", (value.map Value.toJson).getD .null)]

/-- What a fault is reported as. -/
def reportFault (fault : Fault) : Json :=
  .obj [("error", .obj [("details", fault.details), ("message", .str fault.headline)])]

/-! ## Tools -/

namespace Bridge

/-- The full type name of the globals module. -/
def globalsTypeName (b : Bridge) : String :=
  typeNameOfModule b.globals

/-- The members of a type. -/
def list (c : Catalog) (typeName : String) : Except ToolError ToolAnswer :=
  match c.typeNamed? typeName with
  | none => .error (.typeNotFound typeName)
  | some shape => .ok { texts := shape.signatures }

/-- The fragment that evaluates a command: the globals module is loaded unless it is bound, and
imported. -/
def expression (b : Bridge) (command : String) : String :=
  let bare := String.ofList (Text.dropEndWhile (· == ';') command.toList)
  let used := "use " ++ b.globals ++ "; " ++ bare
  if b.globals == preludeName || b.session.references.hasModule b.globals then used
  else "#load \"" ++ b.globals ++ "\"\n" ++ used

/-- What a call of a tool leaves: its answer, the bridge and the world. -/
structure Called where
  result : Except ToolError ToolAnswer
  bridge : Bridge
  world : World

/-- Evaluates a command. -/
def invoke (h : Host) (b : Bridge) (command : String) (world : World) : Called :=
  let e := b.session.evaluate h (b.expression command) [] world
  let result := match e.outcome with
    | .success value _ => .ok { texts := [(reportValue value).compact] }
    | .fault fault => .ok { texts := [(reportFault fault).compact], isError := true }
    | .cancelled => .error .cancelled
    | .unfinished => .error .unfinished
  ⟨result, { b with session := e.session }, e.world⟩

/-- The type that arguments ask to list. -/
def listArgument (b : Bridge) (arguments : Json) : Except ToolError String :=
  match arguments.field? "type" with
  | none | some .null => .ok b.globalsTypeName
  | some (.str name) => .ok name
  | some _ => .error (.invalidArgument "type")

/-- The command that arguments give. -/
def invokeArgument (arguments : Json) : Except ToolError String :=
  match arguments.field? "command" with
  | none => .error (.missingArgument "command")
  | some (.str command) => .ok command
  | some _ => .error (.invalidArgument "command")

/-- Calls a tool by its name. -/
def call (h : Host) (b : Bridge) (tool : String) (arguments : Json) (world : World) : Called :=
  match tool with
  | "list" => ⟨b.listArgument arguments >>= Bridge.list h.catalog, b, world⟩
  | "invoke" =>
    match invokeArgument arguments with
    | .ok command => b.invoke h command world
    | .error e => ⟨.error e, b, world⟩
  | other => ⟨.error (.unknownTool other), b, world⟩

/-- Who the bridge is, as data. -/
def identity (b : Bridge) : Json :=
  .obj [("name", .str b.serverName), ("version", .str runtimeVersion)]

/-- The tools there are, as data. -/
def tools (b : Bridge) : Json :=
  .arr
    [.obj
      [("name", .str "list"),
       ("description", .str
        "Lists all public members of a type i.e. properties and functions that can be invoked."),
       ("inputSchema", .obj
        [("properties", .obj [("type", .obj
          [("default", .str b.globalsTypeName),
           ("description", .str
            "The type to list members for. Defaults to the type of the globals module."),
           ("nullable", .bool true), ("type", .str "string")])]),
         ("required", .arr []), ("type", .str "object")])],
     .obj
      [("name", .str "invoke"), ("description", .str "Invokes a stanza command."),
       ("inputSchema", .obj
        [("properties", .obj [("command", .obj
          [("description", .str
            ("A stanza expression to evaluate. Can be multiple statements separated by semicolons. "
              ++ "The last statement's result is returned.")),
           ("type", .str "string")])]),
         ("required", .strings ["command"]), ("type", .str "object")])]]

end Bridge

/-- A tool's answer as data. -/
def ToolAnswer.toJson (r : ToolAnswer) : Json :=
  .obj [("content", .arr (r.texts.map fun text =>
          .obj [("type", .str "text"), ("text", .str text)])),
        ("isError", .bool r.isError)]

end ScriptShell
