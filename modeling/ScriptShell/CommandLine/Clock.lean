/-! # Times of day -/

namespace ScriptShell.CommandLine

/-- A number below one hundred in two digits. -/
def twoDigits (n : Nat) : String :=
  String.ofList [Nat.digitChar (n / 10 % 10), Nat.digitChar (n % 10)]

/-- The time of day, in UTC, of a number of seconds since the start of 1970. -/
def clockTime (seconds : Nat) : String :=
  ":".intercalate
    [twoDigits (seconds / 3600 % 24), twoDigits (seconds / 60 % 60), twoDigits (seconds % 60)]

end ScriptShell.CommandLine
