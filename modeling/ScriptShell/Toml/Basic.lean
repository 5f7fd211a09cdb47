/-! # Settings text: values

The values that a settings file can hold. Settings files are read by a library: this reader follows
the published format and what that library documents about it, and that the library does the same is
taken on trust. -/

namespace ScriptShell

/-- Values of settings. A date or time is kept as it is written. -/
inductive Toml where
  | str (value : String)
  | int (value : Int)
  | float (value : Float)
  | bool (value : Bool)
  | dateTime (text : String)
  | arr (items : List Toml)
  | table (fields : List (String × Toml))
  deriving Inhabited

namespace Toml

/-- The field of a table. -/
def field? (name : String) : Toml → Option Toml
  | .table fields => fields.lookup name
  | _ => none

end Toml

end ScriptShell
