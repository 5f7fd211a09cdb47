import ScriptShell.Settings.Basic

/-! # Arguments of the command line

`CommandLine.parse` reads the arguments: options that hold for every command, the command, and its
own options and values. -/

namespace ScriptShell.CommandLine

/-! ## Commands -/

/-- What the shell is asked to do. -/
inductive Command where
  /-- Evaluate fragments, with the values of `args` for each. -/
  | eval (fragments args : List String)
  /-- Read fragments from the input. -/
  | repl
  | complete (text : String) (caret : Option Nat)
  | members (type : Option String)
  | inspect (text : String)
  /-- Call a tool. -/
  | bridge (tool arguments : String)
  deriving DecidableEq, Repr, Inhabited

/-- A command, with the options that hold for every command. -/
structure Invocation where
  command : Command
  settingsPath : Option String := none
  trace : Bool := false
  deriving DecidableEq, Repr, Inhabited

/-- Why arguments are not accepted. -/
inductive UsageError where
  /-- Help is asked for. -/
  | help
  /-- There is nothing at all. -/
  | nothing
  | missingCommand
  | unknownCommand
  | unknownArgument
  | missingArgument
  /-- An option lacks its value. -/
  | missingValue
  /-- A value is not one that its option takes. -/
  | badValue
  /-- An option is given more than once. -/
  | repeated
  /-- An option that takes no value has one. -/
  | needlessValue
  deriving DecidableEq, Repr, Inhabited

/-- The written form of a usage error. -/
def UsageError.message : UsageError → String
  | .help | .nothing => "help is asked for"
  | .missingCommand => "a command is missing"
  | .unknownCommand => "unknown command"
  | .unknownArgument => "unexpected argument"
  | .missingArgument => "a required argument is missing"
  | .missingValue => "an option lacks its value"
  | .badValue => "an option has a value that it does not take"
  | .repeated => "an option is given more than once"
  | .needlessValue => "an option has a value but takes none"

/-- How the program is called. -/
def usageText : String :=
  "Usage: stanza [--config <path>] [--trace] <command>\n\n"
    ++ "  eval <fragments>.. [-a <arg>]..   evaluate fragments in order against one session\n"
    ++ "  repl                              read fragments from the input, one per line\n"
    ++ "  complete <text> [--caret <n>]     show completions for a position in a fragment\n"
    ++ "  members [<type>]                  list the members of a type\n"
    ++ "  inspect <text>                    compile a fragment and print the compiled program\n"
    ++ "  bridge <tool> [<arguments>]       call a bridge tool"

/-! ## What there is -/

/-- An option: its long name, its letter, and whether it takes a value, may be repeated, and must be
a count. -/
structure OptionForm where
  long : String
  letter : Option Char := none
  takesValue : Bool := true
  repeatable : Bool := false
  isCount : Bool := false
  deriving DecidableEq, Repr, Inhabited

/-- How many values a command takes. -/
structure CommandForm where
  options : List OptionForm := []
  least : Nat := 0
  /-- The most values, unless there is no limit. -/
  most : Option Nat := some 0
  deriving DecidableEq, Repr, Inhabited

/-- The options that hold for every command. -/
def commonOptions : List OptionForm :=
  [{ long := "config" }, { long := "trace", takesValue := false }]

/-- The names of the commands. -/
def commandNames : List String :=
  ["eval", "repl", "complete", "members", "inspect", "bridge"]

/-- The command that shows help. -/
def helpName : String := "help"

/-- The form of a command. -/
def formOf (command : String) : CommandForm :=
  match command with
  | "eval" =>
    { options := [{ long := "arg", letter := some 'a', repeatable := true }]
      least := 1
      most := none }
  | "complete" => { options := [{ long := "caret", isCount := true }], least := 1, most := some 1 }
  | "members" => { most := some 1 }
  | "inspect" => { least := 1, most := some 1 }
  | "bridge" => { least := 1, most := some 2 }
  | _ => {}

/-! ## Reading -/

/-- An option that is not taken up yet: its value may still follow. -/
structure PendingOption where
  option : OptionForm
  value : Option String := none
  deriving DecidableEq, Repr, Inhabited

/-- What was read so far. -/
structure Progress where
  values : List String := []
  /-- Options with their values, in order. -/
  options : List (String × String) := []
  /-- The option that was read last, if it is not taken up yet. -/
  pending : Option PendingOption := none
  /-- Whether only values follow. -/
  trailing : Bool := false
  deriving DecidableEq, Repr, Inhabited

namespace Progress

/-- The option that waits for its value. -/
def waiting? (p : Progress) : Option OptionForm :=
  match p.pending with
  | some ⟨option, none⟩ => some option
  | _ => none

/-- Takes up an option with its value. -/
def give (p : Progress) (option : OptionForm) (value : String) : Except UsageError Progress :=
  if !option.repeatable && p.options.any (·.1 == option.long) then .error .repeated
  else if option.isCount && (Setting.digits? value).isNone then .error .badValue
  else .ok { p with options := p.options ++ [(option.long, value)], pending := none }

/-- Takes up the pending option, which must have its value by now. -/
def settle (p : Progress) : Except UsageError Progress :=
  match p.pending with
  | none => .ok p
  | some ⟨_, none⟩ => .error .missingValue
  | some ⟨option, some value⟩ => p.give option value

/-- Reads an option, with the value attached to it if there is one. The option before it is taken up
first, and one whose value is to follow becomes the pending one. -/
def take (p : Progress) (option : OptionForm) (attached : Option String) :
    Except UsageError Progress :=
  match attached with
  | some value =>
    if option.takesValue then p.settle >>= (·.give option value) else .error .needlessValue
  | none => do
    let p ← p.settle
    if option.takesValue then return { p with pending := some ⟨option, none⟩ }
    else p.give option ""

/-- The values of an option. -/
def valuesOf (p : Progress) (long : String) : List String :=
  (p.options.filter (·.1 == long)).map (·.2)

/-- The value of an option that is given at most once. -/
def value? (p : Progress) (long : String) : Option String :=
  (p.valuesOf long).head?

end Progress

/-- A long option without its dashes: its name, and the value after an equals sign. -/
def splitLong (text : List Char) : String × Option String :=
  let name := String.ofList (text.takeWhile (· != '='))
  match text.dropWhile (· != '=') with
  | [] => (name, none)
  | _ :: value => (name, some (String.ofList value))

/-- Reads a long option. -/
def readLong (form : CommandForm) (p : Progress) (text : List Char) : Except UsageError Progress :=
  let (name, attached) := splitLong text
  if name = "help" then
    match attached with
    | some _ => .error .needlessValue
    | none => p.settle >>= fun _ => .error .help
  else
    match (form.options ++ commonOptions).find? (·.long == name) with
    | some option => p.take option attached
    | none => .error .unknownArgument

/-- Reads option letters, of which one that takes a value takes the rest of them. -/
def readLetters (form : CommandForm) (p : Progress) : List Char → Except UsageError Progress
  | [] => .ok p
  | letter :: rest =>
    if letter = 'h' then p.settle >>= fun _ => .error .help
    else
      match form.options.find? (·.letter == some letter) with
      | none => .error .unknownArgument
      | some option =>
        match rest with
        | [] => p.take option none
        | '=' :: value => p.take option (some (String.ofList value))
        | value => p.take option (some (String.ofList value))

/-- Whether a command takes a further value. -/
def CommandForm.hasRoom (form : CommandForm) (p : Progress) : Bool :=
  match form.most with
  | none => true
  | some most => p.values.length < most

/-- Reads a value: of the option that waits for one, or of the command. A value too many is what is
reported, whatever the pending option. -/
def readValue (form : CommandForm) (p : Progress) (value : String) (surplus : UsageError) :
    Except UsageError Progress :=
  match p.waiting?, p.trailing with
  | some option, false => .ok { p with pending := some ⟨option, some value⟩ }
  | _, _ =>
    if form.hasRoom p then do
      let p ← p.settle
      return { p with values := p.values ++ [value] }
    else .error surplus

/-- Reads one argument. -/
def readArgument (form : CommandForm) (p : Progress) (argument : String) (surplus : UsageError) :
    Except UsageError Progress :=
  if p.trailing then readValue form p argument surplus
  else
    match argument.toList with
    | ['-', '-'] => .ok { p with trailing := true }
    | '-' :: '-' :: text => readLong form p text
    | '-' :: letter :: rest => readLetters form p (letter :: rest)
    | _ => readValue form p argument surplus

/-- Reads the arguments of a command. -/
def readCommand (form : CommandForm) : Progress → List String → Except UsageError Progress
  | p, [] => do
    let p ← p.settle
    if p.values.length < form.least then throw .missingArgument else return p
  | p, argument :: rest => do
    let p ← readArgument form p argument .unknownArgument
    readCommand form p rest

/-- The command of a name with its values and options. -/
def commandOf (name : String) (p : Progress) : Command :=
  match name with
  | "eval" => .eval p.values (p.valuesOf "arg")
  | "complete" => .complete (p.values.headD "") ((p.value? "caret").bind Setting.digits?)
  | "members" => .members p.values.head?
  | "inspect" => .inspect (p.values.headD "")
  | "bridge" => .bridge (p.values.headD "") (p.values[1]?.getD "\x7b\x7d")
  | _ => .repl

/-- Help on a command; the rest of the arguments names it. -/
def helpOn : List String → UsageError
  | [] => .help
  | [name] => if name = helpName || commandNames.contains name then .help else .unknownCommand
  | _ => .unknownCommand

/-- The command that follows the common options, and all its arguments. The last of the common
options is taken up after them. -/
def readInvocation (name : String) (before : Progress) (rest : List String) :
    Except UsageError Invocation := do
  let p ← readCommand (formOf name) {} rest
  let before ← before.settle
  return {
    command := commandOf name p
    settingsPath := (p.value? "config").or (before.value? "config")
    trace := (p.value? "trace").isSome || (before.value? "trace").isSome }

/-- What arguments without a command lack. -/
def withoutCommand (p : Progress) : UsageError :=
  if p.options.isEmpty then .nothing else .missingCommand

/-- Reads the common options up to the command, and then the command. -/
def readCommon : Progress → List String → Except UsageError Invocation
  | p, [] => do
    let p ← p.settle
    throw (withoutCommand p)
  | p, argument :: rest =>
    if !p.trailing && p.waiting?.isNone && argument = helpName then .error (helpOn rest)
    else if !p.trailing && p.waiting?.isNone && commandNames.contains argument then
      readInvocation argument p rest
    else do
      let surplus :=
        if p.trailing && (argument = helpName || commandNames.contains argument) then
          UsageError.unknownArgument
        else .unknownCommand
      let p ← readArgument {} p argument surplus
      readCommon p rest

/-- Reads the arguments of the command line. -/
def parse (arguments : List String) : Except UsageError Invocation :=
  readCommon {} arguments

end ScriptShell.CommandLine
