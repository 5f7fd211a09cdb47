import ScriptShell.Module.Catalog
import ScriptShell.Module.Arguments
import ScriptShell.Number.Arithmetic
import ScriptShell.Text.Casing
import ScriptShell.Text.Lines

/-! # The standard modules

The modules `core`, `math`, `text`, `time` and `stats`, and the catalog of them. -/

namespace ScriptShell.Standard

open Arguments

/-- A native function from a reader of its arguments. -/
def native (body : List Value → Read Value) (args : List Value) : NativeReply :=
  .ofExcept (body args)

/-! ## core -/

/-- Prints the values on a line. -/
def print : NativeFunction where
  name := "print"
  answers := .void
  variadic := true
  doc := "Writes the values to stdout"
  body := fun args =>
    { result := .value .null, printed := Text.asLine (" ".intercalate (args.map Value.plain)) }

/-- The number of parts of a value. -/
def lengthOf : Value → Read Nat
  | .str text => .ok text.length
  | .list items => .ok items.length
  | .obj fields => .ok fields.length
  | other => .error ⟨.wrongArgType, "len() is not defined for " ++ other.kind, []⟩

/-- Length of a string, list or object. -/
def len : NativeFunction where
  name := "len"
  params := [("value", .any)]
  answers := .num
  doc := "Length of a string, list or object"
  body := native fun args => do
    expect "len" 1 args
    return .num (Float.ofNat (← lengthOf (args.headD .null)))

/-- The text form of a value. -/
def str : NativeFunction where
  name := "str"
  params := [("value", .any)]
  answers := .str
  doc := "Converts a value to its text form"
  body := native fun args => do
    expect "str" 1 args
    return .str (args.headD .null).plain

/-- Raises an error. -/
def fail : NativeFunction where
  name := "fail"
  params := [("message", .str)]
  answers := .void
  doc := "Raises an error with the given message"
  body := native fun args => do
    expect "fail" 1 args
    throw ⟨.userError, ← text "fail" args 0, []⟩

/-- Printing, lengths and errors. -/
def core : ScriptModule where
  name := preludeName
  description := "Printing, lengths and errors"
  functions := [print, len, str, fail]

/-! ## math -/

/-- A function of one number. -/
def unary (name : String) (op : Float → Float) : NativeFunction where
  name := name
  params := [("x", .num)]
  answers := .num
  doc := s!"Returns {name}(x)"
  body := native fun args => do
    expect name 1 args
    return .num (op (← number name args 0))

/-- Square root; negative numbers have none. -/
def sqrt : NativeFunction where
  name := "sqrt"
  params := [("x", .num)]
  answers := .num
  doc := "Square root of a non-negative number"
  body := native fun args => do
    expect "sqrt" 1 args
    let x ← number "sqrt" args 0
    if x < 0 then throw ⟨.wrongArgType, "sqrt() of a negative number", []⟩
    return .num x.sqrt

/-- A function of two numbers. -/
def binary (name doc : String) (op : Float → Float → Float) : NativeFunction where
  name := name
  params := [("a", .num), ("b", .num)]
  answers := .num
  doc := doc
  body := native fun args => do
    expect name 2 args
    return .num (op (← number name args 0) (← number name args 1))

/-- Numeric functions. -/
def math : ScriptModule where
  name := "math"
  description := "Numeric functions"
  functions :=
    [unary "floor" Number.floor, unary "ceil" Number.ceil, unary "abs" Number.abs,
     unary "round" Number.round, sqrt, binary "min" "The smaller of two numbers" Number.least,
     binary "max" "The larger of two numbers" Number.greatest]
  constants :=
    [⟨"pi", .num, .num 3.141592653589793, "Ratio of a circle's circumference to its diameter"⟩]

/-! ## text -/

/-- A function of one text. -/
def mapText (name doc : String) (op : String → String) : NativeFunction where
  name := name
  params := [("s", .str)]
  answers := .str
  doc := doc
  body := native fun args => do
    expect name 1 args
    return .str (op (← text name args 0))

/-- Whether one text is part of another. -/
def contains : NativeFunction where
  name := "contains"
  params := [("s", .str), ("needle", .str)]
  answers := .bool
  doc := "Whether s contains needle"
  body := native fun args => do
    expect "contains" 2 args
    let whole ← text "contains" args 0
    let needle ← text "contains" args 1
    return .bool (Text.hasPart needle.toList whole.toList)

/-- String functions. -/
def texts : ScriptModule where
  name := "text"
  description := "String functions"
  functions :=
    [mapText "upper" "Uppercase copy of s" Text.upper,
     mapText "lower" "Lowercase copy of s" Text.lower,
     mapText "trim" "s without surrounding whitespace"
       fun s => String.ofList (Text.trim s.toList),
     contains]

/-! ## time

Time passes outside the program: waiting is one poll that finds the time not yet over. -/

/-- Requires the first argument to be a duration. -/
def expectDuration (name : String) (args : List Value) : Read Unit := do
  let ms ← number name args 0
  if ms < 0 || !ms.isFinite then
    throw ⟨.wrongArgType,
      name ++ "() duration must be a non-negative number of milliseconds", []⟩

/-- Requires the arguments of a timer: their number, and a duration as the first. -/
def expectTimer (name : String) (count : Nat) (args : List Value) : Read Unit := do
  expect name count args
  expectDuration name args

/-- A timer whose arguments are right is polled before its time is over. -/
def waits (name : String) (count : Nat) (args : List Value) : List NativeEffect :=
  match expectTimer name count args with
  | .ok _ => [{}]
  | .error _ => []

/-- Waits. -/
def sleep : NativeFunction where
  name := "sleep"
  params := [("ms", .num)]
  answers := .void
  isAsync := true
  doc := "Completes after ms milliseconds"
  body := native fun args => do
    expectTimer "sleep" 1 args
    return .null
  pauses := waits "sleep" 1

/-- Waits, and answers a value. -/
def delay : NativeFunction where
  name := "delay"
  params := [("ms", .num), ("value", .any)]
  answers := .any
  isAsync := true
  doc := "Resolves to value after ms milliseconds"
  body := native fun args => do
    expectTimer "delay" 2 args
    return args.getLastD .null
  pauses := waits "delay" 2

/-- Timers. -/
def time : ScriptModule where
  name := "time"
  description := "Timers"
  functions := [sleep, delay]

/-! ## stats -/

/-- Sum of a list of numbers. -/
def sum : NativeFunction where
  name := "sum"
  params := [("values", .list .num)]
  answers := .num
  doc := "Sum of the values"
  body := native fun args => do
    expect "sum" 1 args
    return .num (Number.sum (← numbers "sum" args 0))

/-- Mean of a list of numbers; an empty list has none. -/
def mean : NativeFunction where
  name := "mean"
  params := [("values", .list .num)]
  answers := .num
  doc := "Arithmetic mean of the values"
  body := native fun args => do
    expect "mean" 1 args
    let values ← numbers "mean" args 0
    if values.isEmpty then throw ⟨.divisionByZero, "mean() of an empty list", []⟩
    return .num (Number.sum values / Float.ofNat values.length)

/-- Aggregates over lists of numbers. -/
def stats : ScriptModule where
  name := "stats"
  description := "Aggregates over lists of numbers"
  dependencies := ["math"]
  functions := [sum, mean]

end ScriptShell.Standard

namespace ScriptShell

/-- The catalog of the standard modules. -/
def Catalog.standard : Catalog :=
  Catalog.empty.registerAll
    [Standard.core, Standard.math, Standard.texts, Standard.time, Standard.stats]

end ScriptShell
