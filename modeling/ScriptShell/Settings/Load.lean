import ScriptShell.Settings.Key
import ScriptShell.Settings.Variable
import ScriptShell.File.Tree
import ScriptShell.Toml.Document

/-! # Loading settings

Settings come from a file and from environment variables, which win. The file is the one that is
asked for, or the one that a variable names, or `stanza.toml` if there is one. -/

namespace ScriptShell

/-- Why settings cannot be loaded. -/
inductive SettingsError where
  | notFound (path : String)
  | invalid
  deriving DecidableEq, Repr, Inhabited

/-- The written form of a settings error. -/
def SettingsError.message : SettingsError → String
  | .notFound path => "config file not found: " ++ path
  | .invalid => "invalid configuration"

namespace Settings

/-- The ending of a file name, after its last period; a period at the start does not count. -/
def extension? (path : String) : Option String :=
  let name := ((pathParts path).getLastD "").toList
  match (name.drop 1).reverse.dropWhile (· != '.') with
  | [] => none
  | _ => some (String.ofList (name.reverse.takeWhile (· != '.')).reverse)

/-- The fields of a settings text. -/
def fieldsOf? (text : String) : Option (List (String × Toml)) :=
  match Toml.parse? text with
  | some (.table fields) => some fields
  | _ => none

/-- The path of the settings file beside a directory: its name with the ending of settings files. A
path that ends in no name has none. -/
def besidePath? (path : String) : Option String :=
  match (pathParts path).reverse.dropWhile (fun part => part == "" || part == ".") with
  | [] | ".." :: _ => none
  | name :: parents => some (joinParts (parents.reverse ++ [name ++ ".toml"]))

/-- The fields of the file at a path, or of the one beside the directory at that path. -/
def readFile? (files : FileTree) (path : String) : Option (List (String × Toml)) :=
  match files.read? path with
  | some text => if extension? path = some "toml" then fieldsOf? text else none
  | none => ((besidePath? path).bind files.read?).bind fieldsOf?

/-- The fields of the default settings file. It may be missing, and a file of its name without an
ending hides it. -/
def readDefault? (files : FileTree) : Option (List (String × Toml)) :=
  if (files.read? "stanza").isSome then some []
  else
    match files.read? "stanza.toml" with
    | some text => fieldsOf? text
    | none => some []

/-- The fields of the settings file. -/
def fileFields (files : FileTree) (path : Option String) :
    Except SettingsError (List (String × Toml)) :=
  match path with
  | none =>
    match readDefault? files with
    | some fields => .ok fields
    | none => .error .invalid
  | some path =>
    if files.hasPath path then
      match readFile? files path with
      | some fields => .ok fields
      | none => .error .invalid
    else .error (.notFound path)

/-- Loads settings. The variables are left out unless `useVariables`. -/
def load (files : FileTree) (vars : Variables) (path : Option String) (useVariables : Bool) :
    Except SettingsError Settings := do
  let named := if useVariables then vars.get? Variables.pathVariable else none
  let fields ← fileFields files (path.or named)
  let given := if useVariables then vars.settings.entries else []
  match ofTable? ((Toml.nothing.giveAll fields).giveAll given) with
  | some settings => return settings
  | none => throw .invalid

end Settings

end ScriptShell
