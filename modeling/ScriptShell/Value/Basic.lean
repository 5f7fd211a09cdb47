import ScriptShell.Number.Format
import ScriptShell.Text.Quoted
import ScriptShell.Json.Basic

/-! # Values

What a script computes with. Functions and pending calls are values by reference: a function is
known by its name and the unit that declared it, a native function by its module and name.
`Value.display` is the written form of a value, `Value.plain` the form that printing uses and
`Value.toJson` its form as data. -/

namespace ScriptShell

/-- A function declared by a script: its name and the number of the unit that declares it. -/
structure FunctionId where
  name : String
  unit : Nat
  deriving DecidableEq, Repr, Inhabited

/-- A function of a module. -/
structure NativeId where
  module : String
  name : String
  deriving DecidableEq, Repr, Inhabited

/-- The values of scripts. The fields of an object are in increasing order of name. -/
inductive Value where
  | null
  | bool (value : Bool)
  | num (value : Float)
  | str (value : String)
  | list (items : List Value)
  | obj (fields : List (String × Value))
  | func (ref : FunctionId)
  | native (ref : NativeId)
  | module (name : String)
  /-- A call of an asynchronous function that was not awaited yet. -/
  | pending (target : NativeId) (args : List Value)
  deriving Inhabited

namespace Value

/-- Whether a condition takes a value for true. -/
def isTruthy : Value → Bool
  | .bool value => value
  | .null => false
  | .num x => x != 0
  | .str text => !text.isEmpty
  | _ => true

/-- The name of a value's kind, as error messages give it. -/
def kind : Value → String
  | .null => "null"
  | .bool _ => "bool"
  | .num _ => "num"
  | .str _ => "str"
  | .list _ => "list"
  | .obj _ => "object"
  | .func _ | .native _ => "fn"
  | .module _ => "module"
  | .pending .. => "future"

/-! ## Equality -/

mutual

/-- Equality of scripts: numbers compare as numbers, lists and objects part by part. -/
def same : Value → Value → Bool
  | .null, .null => true
  | .bool a, .bool b => a == b
  | .num a, .num b => a == b
  | .str a, .str b => a == b
  | .list a, .list b => sameItems a b
  | .obj a, .obj b => sameFields a b
  | .func a, .func b => a == b
  | .native a, .native b => a == b
  | .module a, .module b => a == b
  | .pending target args, .pending target' args' => target == target' && sameItems args args'
  | _, _ => false

/-- Equality of lists of values. -/
def sameItems : List Value → List Value → Bool
  | [], [] => true
  | a :: as, b :: bs => same a b && sameItems as bs
  | _, _ => false

/-- Equality of fields: same names, equal values. -/
def sameFields : List (String × Value) → List (String × Value) → Bool
  | [], [] => true
  | (k, a) :: as, (l, b) :: bs => k == l && same a b && sameFields as bs
  | _, _ => false

end

/-! ## Text -/

/-- A function of a module as `module.name`. -/
def nativeName (ref : NativeId) : String :=
  ref.module ++ "." ++ ref.name

mutual

/-- The written form: strings quoted, lists and objects in brackets, functions, modules and pending
calls by name. -/
def display : Value → String
  | .null => "null"
  | .bool value => if value then "true" else "false"
  | .num x => displayNumber x
  | .str text => Text.quoted text
  | .list items => "[" ++ ", ".intercalate (displayItems items) ++ "]"
  | .obj fields => "\x7b" ++ ", ".intercalate (displayFields fields) ++ "\x7d"
  | .func ref => "<fn " ++ ref.name ++ ">"
  | .native ref => "<fn " ++ nativeName ref ++ ">"
  | .module name => "<module " ++ name ++ ">"
  | .pending target _ => "<future " ++ nativeName target ++ ">"

/-- The written forms of list items. -/
def displayItems : List Value → List String
  | [] => []
  | item :: rest => display item :: displayItems rest

/-- The written forms of object fields. -/
def displayFields : List (String × Value) → List String
  | [] => []
  | (name, value) :: rest => (name ++ ": " ++ display value) :: displayFields rest

end

/-- The form that printing uses: a string stands for itself. -/
def plain : Value → String
  | .str text => text
  | value => value.display

/-! ## Data -/

mutual

/-- The value as data. Functions, modules and pending calls become their written form; numbers
without a data form become null. -/
def toJson : Value → Json
  | .null => .null
  | .bool value => .bool value
  | .num x => if x.isFinite then .float x else .null
  | .str text => .str text
  | .list items => .arr (itemsToJson items)
  | .obj fields => .obj (fieldsToJson fields)
  | value => .str value.display

/-- List items as data. -/
def itemsToJson : List Value → List Json
  | [] => []
  | item :: rest => toJson item :: itemsToJson rest

/-- Object fields as data. -/
def fieldsToJson : List (String × Value) → List (String × Json)
  | [] => []
  | (name, value) :: rest => (name, toJson value) :: fieldsToJson rest

end

end Value

end ScriptShell
