import ScriptShell.Evaluation.Unit
import ScriptShell.Reference.Set
import ScriptShell.Text.CharClass

/-! # Completion candidates

What can be offered to complete a word, and what is offered of it. -/

namespace ScriptShell

/-- What a candidate names. -/
inductive CandidateKind where
  | keyword | function | asyncFunction | property | constant | variable | module | snippet | other
  deriving DecidableEq, Repr, Inhabited

namespace CandidateKind

/-- Every classification. -/
def all : List CandidateKind :=
  [.keyword, .function, .asyncFunction, .property, .constant, .variable, .module, .snippet, .other]

/-- The name of a classification. -/
def name : CandidateKind → String
  | .keyword => "Keyword"
  | .function => "Function"
  | .asyncFunction => "AsyncFunction"
  | .property => "Property"
  | .constant => "Constant"
  | .variable => "Variable"
  | .module => "Module"
  | .snippet => "Snippet"
  | .other => "Other"

/-- The classification of a name; unknown names are something else. -/
def ofName (text : String) : CandidateKind :=
  (all.find? (·.name == text)).getD .other

/-- The sign of a classification. -/
def symbol : CandidateKind → String
  | .keyword => "🔑"
  | .function => "🟣"
  | .asyncFunction => "⚡"
  | .property | .variable => "🟡"
  | .constant => "🔵"
  | .module => "⬜"
  | .snippet => "💼"
  | .other => "⚫"

/-- The place of a classification in a listing. -/
def rank : CandidateKind → Nat
  | .variable | .property | .constant => 0
  | .function | .asyncFunction => 1
  | .module => 2
  | .keyword => 3
  | .snippet => 4
  | .other => 5

end CandidateKind

/-- Something that could complete a word. -/
structure Candidate where
  label : String
  kind : CandidateKind
  /-- A short text to show beside the label. -/
  inline : String := ""
  /-- Whether accepting it changes more than the word. -/
  isComplex : Bool := false
  description : String := ""
  deriving DecidableEq, Repr, Inhabited

/-- Whether a candidate is offered: its label is no internal name, and it is no complex edit with a
text to show beside it. -/
def Candidate.isShown (c : Candidate) : Bool :=
  !(['_', '_'].isPrefixOf c.label.toList) && !(c.isComplex && !c.inline.isEmpty)

/-- A candidate as it is offered. -/
structure Suggestion where
  label : String
  /-- What is shown for it. -/
  display : String
  kind : CandidateKind
  description : String
  deriving DecidableEq, Repr, Inhabited

/-- A candidate as an item, shown with its sign if `rich`. -/
def Candidate.toItem (rich : Bool) (c : Candidate) : Suggestion where
  label := c.label
  display := if rich then c.kind.symbol ++ " " ++ c.label else c.label
  kind := c.kind
  description := c.description

/-- The items offered of some candidates. -/
def offeredItems (rich : Bool) (candidates : List Candidate) : List Suggestion :=
  (candidates.filter (·.isShown)).map (·.toItem rich)

/-- Why there are no candidates at a place. -/
inductive CompletionError where
  /-- The source cannot answer just now. -/
  | inconsistent (reason : String)
  | caretOutOfRange (caret size : Nat)
  | caretInsideCharacter (caret : Nat)
  deriving DecidableEq, Repr, Inhabited

/-- The written form of a completion error. -/
def CompletionError.message : CompletionError → String
  | .inconsistent reason => "completion source is in an inconsistent state: " ++ reason
  | .caretOutOfRange caret size =>
    "caret " ++ toString caret ++ " is past the end of the text (" ++ toString size ++ " bytes)"
  | .caretInsideCharacter caret =>
    "caret " ++ toString caret ++ " is inside a multi-byte character"

/-- What is being edited: a name for it, the unit that the text continues and the references bound
so far. -/
structure Document where
  name : String
  unit : Option ScriptUnit := none
  references : References := {}
  deriving Inhabited

/-- What gives candidates for a place in a text, counted in bytes. Places without anything to
complete have none. -/
abbrev CompletionSource :=
  Document → (text : String) → (caret : Nat) → Except CompletionError (Option (List Candidate))

end ScriptShell
