import ScriptShell.Reference.Resolver
import ScriptShell.File.Tree
import ScriptShell.Toml.Document

/-! # Project manifests

A manifest is a settings file that lists the modules of a project. Loading one loads all of them. -/

namespace ScriptShell

/-- What a manifest says of its project. -/
structure Manifest where
  name : Option String := none
  references : List String := []
  deriving DecidableEq, Repr, Inhabited

namespace Manifest

/-- A text among settings. -/
def text? : Toml → Option String
  | .str text => some text
  | _ => none

/-- A list of texts among settings. -/
def texts? : Toml → Option (List String)
  | .arr items => items.mapM text?
  | _ => none

/-- An optional part, absent unless it is given. -/
def optionalPart {α : Type} (read : Toml → Option α) : Option Toml → Option (Option α)
  | none => some none
  | some value => (read value).map some

/-- A project, given as a table, or as an array of its name and references. A date or time stands
for a project that says nothing. -/
def ofProject? (project : Toml) : Option Manifest := do
  let (name, references) ← match project with
    | .table fields => some (fields.lookup "name", fields.lookup "references")
    | .arr items => some (items[0]?, items[1]?)
    | .dateTime _ => some (none, none)
    | _ => none
  let name ← optionalPart text? name
  let references ← optionalPart texts? references
  return ⟨name, references.getD []⟩

/-- Reads a manifest. -/
def parse? (text : String) : Option Manifest := do
  let settings ← Toml.parse? text
  ofProject? (← settings.field? "project")

end Manifest

namespace Resolver

/-- The path of a manifest: as given if something is there, else in the first directory that has it.
-/
def locateManifest (files : FileTree) (directories : List String) (target : String) : String :=
  if isAbsolute target || files.hasPath target then target
  else
    ((directories.map (joinPath · target)).find? files.hasPath).getD target

/-- Resolves names one after the other; one that nothing knows is an error. -/
def resolveNames (modules : Resolver) : List String → Resolution
  | [] => ⟨.ok [], []⟩
  | name :: rest =>
    let first := modules name
    match first.result with
    | .error e => ⟨.error e, first.trail⟩
    | .ok [] => ⟨.error (.unknownModule name), first.trail⟩
    | .ok found =>
      let others := resolveNames modules rest
      ⟨others.result.map (found ++ ·), first.trail ++ others.trail⟩

/-- Whether a target names a manifest. -/
def isManifest (target : String) : Bool :=
  (Text.dropTail? ".toml".toList target.toList).isSome

/-- Resolves manifests to the modules they list, which another resolver knows. -/
def ofManifests (files : FileTree) (directories : List String) (modules : Resolver) : Resolver :=
  fun target =>
    if isManifest target then
      let path := locateManifest files directories target
      match files.read? path with
      | none => ⟨.error (.unreadable path), []⟩
      | some text =>
        match Manifest.parse? text with
        | none => ⟨.error (.malformed path), []⟩
        | some manifest => resolveNames modules manifest.references
    else ⟨.ok [], []⟩

end Resolver

end ScriptShell
