import ScriptShell.Bridge.Basic
import ScriptShell.Completion.Cache
import ScriptShell.Completion.Source
import ScriptShell.Module.Standard
import ScriptShell.Reference.Manifest
import ScriptShell.Session.Preload
import ScriptShell.Settings.Load
import ScriptShell.Settings.VariableFile

/-! # The shell

All that a front end works with: a session, completions over the same modules, and a tool bridge
with a session of its own. -/

namespace ScriptShell

/-- What a shell is started on: the files it can read and the environment variables. -/
structure Surroundings where
  files : FileTree := {}
  vars : Variables := {}
  deriving Inhabited

/-- The file of environment variables. -/
def variableFile : String := ".env"

/-- The surroundings with the variables of the variable file, if there is one. -/
def Surroundings.withVariableFile (s : Surroundings) : Surroundings :=
  match s.files.read? variableFile with
  | some text => { s with vars := VariableFile.addTo s.vars text }
  | none => s

/-- How a shell is to be started. -/
structure StartOptions where
  /-- The settings file to use. -/
  path : Option String := none
  /-- The settings, if they are not to be loaded. -/
  settings : Option Settings := none
  /-- Modules beside the standard ones. -/
  modules : List ScriptModule := []
  skipPreload : Bool := false
  /-- How many rounds loops are followed for. -/
  rounds : Nat

/-- Why a shell does not start. -/
inductive StartError where
  | settings (error : SettingsError)
  | unreadableScript (path : String)
  deriving DecidableEq, Repr, Inhabited

/-- The written form of a start error. -/
def StartError.message : StartError → String
  | .settings _ => "Failed to load configuration"
  | .unreadableScript path => "Failed to read load script " ++ path

/-- A started shell. -/
structure Shell where
  settings : Settings
  host : Host
  session : Session
  bridge : Bridge
  completions : CompletionCache := {}
  /-- How the fragments of the preload ended. -/
  preload : List Outcome := []

/-- The resolvers over a catalog: its modules first, then manifests that list them. -/
def Catalog.resolvers (c : Catalog) (files : FileTree) (directories : List String) : Resolvers where
  primary := .ofCatalog c
  alternatives := [.ofManifests files directories (.ofCatalog c)]

namespace Shell

/-- The settings to start with. -/
def settingsFor (surroundings : Surroundings) (options : StartOptions) :
    Except StartError Settings :=
  match options.settings with
  | some settings => .ok settings
  | none =>
    match Settings.load surroundings.files surroundings.vars options.path true with
    | .ok settings => .ok settings
    | .error e => .error (.settings e)

/-- The script to start with, if there is one. -/
def startScript (files : FileTree) (settings : Settings) : Except StartError (Option String) :=
  match settings.loadScript with
  | none => .ok none
  | some path =>
    match files.read? path with
    | some text => .ok (some text)
    | none => .error (.unreadableScript path)

/-- The host that settings ask for. -/
def hostFor (files : FileTree) (settings : Settings) (options : StartOptions) : Host :=
  let catalog := Catalog.standard.registerAll options.modules
  { catalog, resolvers := catalog.resolvers files settings.modulePaths, rounds := options.rounds }

/-- A shell before its preload. -/
def fresh (files : FileTree) (settings : Settings) (options : StartOptions) : Shell where
  settings := settings
  host := hostFor files settings options
  session := {}
  bridge := { serverName := settings.serverName, globals := settings.globalsModule }

/-- Preloads the session and the session of the bridge, which runs no script. -/
def runPreload (shell : Shell) (script : Option String) (world : World) : Shell × World :=
  let references := shell.settings.references
  let imports := shell.settings.imports
  let first := shell.session.preload shell.host references imports script world
  let second := shell.bridge.session.preload shell.host references imports none first.world
  ({ shell with
     session := first.session
     bridge := { shell.bridge with session := second.session }
     preload := first.outcomes },
   second.world)

/-- Starts a shell. -/
def start (surroundings : Surroundings) (options : StartOptions) :
    Except StartError (Shell × World) := do
  let surroundings := surroundings.withVariableFile
  let settings ← settingsFor surroundings options
  let shell := fresh surroundings.files settings options
  if options.skipPreload then return (shell, {})
  else
    let script ← startScript surroundings.files settings
    return shell.runPreload script {}

/-! ## Completions -/

/-- How the shell keeps and shows completions. -/
def cacheSettings (shell : Shell) : CacheSettings :=
  { ttl := shell.settings.completionLifetime, rich := shell.settings.richDisplay }

/-- What is being edited under a name. -/
def document (shell : Shell) (name : String) : Document :=
  { name, unit := shell.session.newestUnit?, references := shell.session.references }

/-- Completes the word before a caret. -/
def complete (shell : Shell) (now : Nat) (document : Document) (text : String) (caret : Nat) :
    Except CompletionError Listing × Shell :=
  let completed := shell.completions.complete shell.cacheSettings shell.host.catalog.candidates now
    document text caret
  (completed.result, { shell with completions := completed.cache })

end Shell

end ScriptShell
