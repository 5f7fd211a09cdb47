import ScriptShell.Session.Basic

/-! # Preloading

What a session starts with: modules to load, modules to import and a script. -/

namespace ScriptShell

/-- A load directive for a module. -/
def loadLine (reference : String) : String :=
  "#load \"" ++ reference ++ "\"\n"

/-- An import of a module. -/
def useLine (name : String) : String :=
  "use " ++ name ++ "\n"

/-- The fragment that loads and imports modules. -/
def preloadText (references imports : List String) : String :=
  String.join (references.map loadLine) ++ String.join (imports.map useLine)

/-- Whether a text has nothing but blanks. -/
def isBlankText (text : String) : Bool :=
  text.toList.all Text.isBlank

/-- The fragments of a preload: the one that loads and imports unless there is nothing to, and the
script unless it is blank. -/
def preloadFragments (references imports : List String) (script : Option String) : List String :=
  [preloadText references imports].filter (!·.isEmpty)
    ++ script.toList.filter (!isBlankText ·)

/-- The outcomes of fragments evaluated one after the other, and the session and world after them.
-/
structure Preloaded where
  outcomes : List Outcome
  session : Session
  world : World

namespace Session

/-- Evaluates fragments one after the other, in the same world and without arguments. -/
def evaluateAll (h : Host) (s : Session) (world : World) : List String → Preloaded
  | [] => ⟨[], s, world⟩
  | text :: rest =>
    let first := s.evaluate h text [] world
    let others := evaluateAll h first.session first.world rest
    ⟨first.outcome :: others.outcomes, others.session, others.world⟩

/-- Loads, imports and runs what a session starts with. -/
def preload (h : Host) (s : Session) (references imports : List String) (script : Option String)
    (world : World) : Preloaded :=
  s.evaluateAll h world (preloadFragments references imports script)

end Session

end ScriptShell
