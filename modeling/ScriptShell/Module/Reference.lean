/-! # Module references

A reference to a module: its name, its version, the modules it needs, and its written form. Two
references with the same written form are the same reference for whoever collects them. The written
form is the name and the version, unless whoever makes the reference chooses another one. -/

namespace ScriptShell

/-- The written form of a reference to a module of a name and version. It is a part of references
that is filled in where nothing is said about it. -/
class Reference.Key (name version : String) where
  text : String
  deriving DecidableEq, Repr

/-- The usual written form. -/
instance (name version : String) : Reference.Key name version :=
  ⟨name ++ ", version=" ++ version⟩

/-- A reference to a module. -/
structure Reference where
  name : String
  version : String
  /-- The names of the modules it needs. -/
  dependencies : List String := []
  [key : Reference.Key name version]
  deriving DecidableEq, Repr

namespace Reference

instance : Inhabited Reference :=
  ⟨⟨"", "", []⟩⟩

/-- The written form, by which references are told apart. -/
def display (ref : Reference) : String :=
  ref.key.text

/-- Characters of the names of generated units, which no module has. -/
def isMarker (c : Char) : Bool :=
  c == '<' || c == '>' || c == '*'

/-- Whether a reference is to a generated unit and not to a module. -/
def isGenerated (ref : Reference) : Bool :=
  ref.display.toList.any isMarker

end Reference

end ScriptShell
