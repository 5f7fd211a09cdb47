import ScriptShell.Bridge.Basic
import ScriptShell.CommandLine.Arguments
import ScriptShell.CommandLine.Clock
import ScriptShell.CommandLine.Output
import ScriptShell.CommandLine.Prompt
import ScriptShell.CommandLine.Run
import ScriptShell.Completion.Cache
import ScriptShell.Completion.Candidate
import ScriptShell.Completion.Source
import ScriptShell.Dict
import ScriptShell.Evaluation.Data
import ScriptShell.Evaluation.Eval
import ScriptShell.Evaluation.Exec
import ScriptShell.Evaluation.Operator
import ScriptShell.Evaluation.Run
import ScriptShell.Evaluation.Unit
import ScriptShell.Fault
import ScriptShell.File.Tree
import ScriptShell.Grammar.Attempts
import ScriptShell.Grammar.Cursor
import ScriptShell.Grammar.Match
import ScriptShell.Grammar.ParseTree
import ScriptShell.Grammar.Pattern
import ScriptShell.Introspection.Data
import ScriptShell.Introspection.Member
import ScriptShell.Introspection.Module
import ScriptShell.Introspection.TypeName
import ScriptShell.Json.Basic
import ScriptShell.Json.Parser
import ScriptShell.Main
import ScriptShell.Module.Arguments
import ScriptShell.Module.Basic
import ScriptShell.Module.Catalog
import ScriptShell.Module.Reference
import ScriptShell.Module.Standard
import ScriptShell.Number.Arithmetic
import ScriptShell.Number.Binary
import ScriptShell.Number.Decimal
import ScriptShell.Number.Format
import ScriptShell.Proofs.Dict
import ScriptShell.Proofs.Evaluation.Blocks
import ScriptShell.Proofs.Evaluation.Ensures
import ScriptShell.Proofs.Evaluation.Functions
import ScriptShell.Proofs.Evaluation.Unbound
import ScriptShell.Proofs.Evaluation.Values
import ScriptShell.Proofs.Grammar.Bound
import ScriptShell.Proofs.Grammar.Matches
import ScriptShell.Proofs.Module.Closure
import ScriptShell.Proofs.Module.Standard
import ScriptShell.Proofs.Reference.Growth
import ScriptShell.Proofs.Reference.Layout
import ScriptShell.Proofs.Reference.Scan
import ScriptShell.Proofs.Session.FailedCalls
import ScriptShell.Proofs.Session.Step
import ScriptShell.Proofs.Session.StraightLine
import ScriptShell.Proofs.Session.UndefinedNames
import ScriptShell.Proofs.Syntax.Built
import ScriptShell.Proofs.Syntax.Directives
import ScriptShell.Proofs.Syntax.Levels
import ScriptShell.Proofs.Syntax.Lexeme
import ScriptShell.Proofs.Syntax.Lexing
import ScriptShell.Proofs.Syntax.Parts
import ScriptShell.Proofs.Syntax.Tokens
import ScriptShell.Proofs.Text.Pieces
import ScriptShell.Proofs.Typing.Inhabits
import ScriptShell.Proofs.Typing.Names
import ScriptShell.Proofs.Typing.Operators
import ScriptShell.Proofs.Typing.Soundness
import ScriptShell.Reference.Directive
import ScriptShell.Reference.Manifest
import ScriptShell.Reference.Resolver
import ScriptShell.Reference.Set
import ScriptShell.Session.Basic
import ScriptShell.Session.Compile
import ScriptShell.Session.Preload
import ScriptShell.Settings.Basic
import ScriptShell.Settings.Key
import ScriptShell.Settings.Load
import ScriptShell.Settings.Variable
import ScriptShell.Settings.VariableFile
import ScriptShell.Shell.Basic
import ScriptShell.Syntax.Ast
import ScriptShell.Syntax.Builder
import ScriptShell.Syntax.Data
import ScriptShell.Syntax.Grammar
import ScriptShell.Syntax.Parser
import ScriptShell.Syntax.Span
import ScriptShell.Text.Alphanumeric
import ScriptShell.Text.CaseTable
import ScriptShell.Text.Casing
import ScriptShell.Text.CharClass
import ScriptShell.Text.Hidden
import ScriptShell.Text.Lines
import ScriptShell.Text.Quoted
import ScriptShell.Toml.Basic
import ScriptShell.Toml.Document
import ScriptShell.Toml.Scalar
import ScriptShell.Toml.Text
import ScriptShell.Ty
import ScriptShell.Ty.Data
import ScriptShell.Typing.Check
import ScriptShell.Typing.Infer
import ScriptShell.Typing.Scope
import ScriptShell.Value.Basic
import ScriptShell.Value.Data
import ScriptShell.Proofs.Session.Chain
import ScriptShell.Proofs.Reference.Entries
import ScriptShell.Proofs.Session.BoundModules
import ScriptShell.Proofs.Evaluation.Agreement
import ScriptShell.Proofs.Evaluation.Watch
import ScriptShell.Proofs.Session.FunctionReferences
import ScriptShell.Proofs.Evaluation.DeclaredValues
import ScriptShell.Proofs.Evaluation.ByDeclaration
import ScriptShell.Proofs.Session.ByDeclaration
import ScriptShell.Proofs.Completion.Turns
import ScriptShell.Proofs.Grammar.Moved
import ScriptShell.Proofs.Syntax.Spans
import ScriptShell.Proofs.Syntax.Statements
import ScriptShell.Proofs.Syntax.Written
import ScriptShell.Proofs.Bridge.Wrapping
import ScriptShell.Proofs.Typing.Meanings
import ScriptShell.Proofs.Session.NameMeanings
import ScriptShell.Proofs.Evaluation.Steady
import ScriptShell.Proofs.Evaluation.Alike
import ScriptShell.Proofs.Typing.Places
import ScriptShell.Proofs.Session.Splitting
import ScriptShell.Proofs.Session.OwnNames
import ScriptShell.Proofs.Grammar.Shapes
import ScriptShell.Proofs.Syntax.BlockLevels
import ScriptShell.Proofs.Evaluation.Primitives
import ScriptShell.Proofs.Evaluation.Rules
import ScriptShell.Proofs.Evaluation.Adequacy
import ScriptShell.Proofs.Evaluation.Stops
import ScriptShell.Proofs.Evaluation.Nesting
import ScriptShell.Proofs.Session.Finishing
import ScriptShell.Proofs.Syntax.Precedence
import ScriptShell.Proofs.Syntax.Atoms
import ScriptShell.Proofs.Syntax.Chains
import ScriptShell.Proofs.Syntax.Rows
import ScriptShell.Proofs.Syntax.Coverage
import ScriptShell.Proofs.Grammar.Stretches
import ScriptShell.Proofs.Syntax.Stretches
import ScriptShell.Proofs.Session.CapturedValue
import ScriptShell.Proofs.Evaluation.Cancellation
import ScriptShell.Proofs.Module.DepthFirst
import ScriptShell.Proofs.Session.BoundTargets
import ScriptShell.Proofs.Reference.DirectiveLines
import ScriptShell.Proofs.Grammar.Extended
import ScriptShell.Proofs.Syntax.Terminated
import ScriptShell.Proofs.Typing.MoreModules
import ScriptShell.Proofs.Completion.CaretPlaces
import ScriptShell.Proofs.Completion.Offered
import ScriptShell.Proofs.Completion.Misoffered
import ScriptShell.Proofs.Syntax.BlankEnds
import ScriptShell.Proofs.Syntax.StretchedTrees
import ScriptShell.Proofs.Syntax.Surrounded
import ScriptShell.Proofs.Reference.FirstWins
import ScriptShell.Proofs.Reference.Merging
import ScriptShell.Proofs.Typing.Reordering
import ScriptShell.Proofs.Syntax.Literals
