import ScriptShell.Toml.Scalar

/-! # Settings text: documents

A document is a list of lines that give keys values or open tables. `Node` is a value under
construction: tables remember how they came about, because a table may be opened only once and a
value may not be extended. Which documents are refused is what the settings reader, a library, is
documented to refuse. -/

namespace ScriptShell.Toml

/-! ## Building -/

/-- A value under construction. -/
inductive Node where
  /-- A finished value. -/
  | value (value : Toml)
  /-- A table: `implied` when it was only named on the way to another, `dotted` when a key named it.
  -/
  | table (implied dotted : Bool) (fields : List (String × Node))
  /-- An array of tables, of which the last one is open. -/
  | tables (closed : List (List (String × Node))) (last : List (String × Node))
  deriving Inhabited

/-- Fields under construction. -/
abbrev Fields := List (String × Node)

/-- Gives a field another node, or adds it. -/
def setField (name : String) (node : Node) : Fields → Fields
  | [] => [(name, node)]
  | (other, held) :: rest =>
    if other = name then (other, node) :: rest else (other, held) :: setField name node rest

/-- Changes the table that a path leads to. Tables on the way are made if they are missing; `byKey`
says that the path is part of a key. The change is told whether the table was named by a key. -/
def changeAt (byKey : Bool) (change : (dotted : Bool) → Fields → Option Fields) (dotted : Bool) :
    (path : List String) → Fields → Option Fields
  | [], fields => change dotted fields
  | name :: path, fields =>
    match fields.lookup name with
    | none =>
      (changeAt byKey change byKey path []).map fun inner =>
        setField name (.table true byKey inner) fields
    | some (.table implied dotted inner) =>
      if byKey && !implied then none
      else
        (changeAt byKey change dotted path inner).map fun inner =>
          setField name (.table implied dotted inner) fields
    | some (.tables closed last) =>
      (changeAt byKey change false path last).map fun last =>
        setField name (.tables closed last) fields
    | some (.value _) => none

/-- Adds a field that is not there yet. -/
def addField (name : String) (node : Node) (fields : Fields) : Option Fields :=
  match fields.lookup name with
  | none => some (fields ++ [(name, node)])
  | some _ => none

/-- Gives a key a value. The tables that a key names are its own. -/
def addKey (key : List String) (value : Toml) (fields : Fields) : Option Fields :=
  let path := key.dropLast
  changeAt true
    (fun dotted fields =>
      if dotted == path.isEmpty then none
      else addField (key.getLastD "") (.value value) fields)
    false path fields

/-- Opens a table: it is new, or was only named on the way to another. -/
def openTable (path : List String) (fields : Fields) : Option Fields :=
  let name := path.getLastD ""
  changeAt false
    (fun _ fields =>
      match fields.lookup name with
      | none => some (setField name (.table false false []) fields)
      | some (.table true false inner) => some (setField name (.table false false inner) fields)
      | some _ => none)
    false path.dropLast fields

/-- Opens the next table of an array of tables. -/
def openNext (path : List String) (fields : Fields) : Option Fields :=
  let name := path.getLastD ""
  changeAt false
    (fun _ fields =>
      match fields.lookup name with
      | none => some (setField name (.tables [] []) fields)
      | some (.tables closed last) => some (setField name (.tables (closed ++ [last]) []) fields)
      | some _ => none)
    false path.dropLast fields

mutual

/-- The value of a node. -/
def Node.finish : Node → Toml
  | .value value => value
  | .table _ _ fields => .table (finishFields fields)
  | .tables closed last => .arr (finishTables closed ++ [.table (finishFields last)])

/-- The values of fields. -/
def finishFields : List (String × Node) → List (String × Toml)
  | [] => []
  | (name, node) :: rest => (name, node.finish) :: finishFields rest

/-- The values of tables. -/
def finishTables : List (List (String × Node)) → List Toml
  | [] => []
  | fields :: rest => .table (finishFields fields) :: finishTables rest

end

/-! ## Keys -/

/-- Characters of keys without quotes. -/
def isKeyChar (c : Char) : Bool :=
  c.isAlphanum || c == '-' || c == '_'

/-- A part of a key. -/
def keyPart? : Reader String := fun text =>
  match text with
  | '"' :: _ | '\x27' :: _ =>
    (shortString? text).map fun (chars, rest) => (String.ofList chars, rest)
  | _ =>
    let chars := text.takeWhile isKeyChar
    if chars.isEmpty then none else some (String.ofList chars, text.dropWhile isKeyChar)

/-- Nested arrays and inline tables have fewer levels than this, and keys have fewer parts. -/
def nestingLimit : Nat := 80

/-- The parts of a key, divided by periods, with blanks around them. -/
def keyParts? : (fuel : Nat) → Reader (List String)
  | 0, _ => none
  | fuel + 1, text => do
    let (part, rest) ← keyPart? (skipSpaces text)
    match skipSpaces rest with
    | '.' :: rest => do
      let (parts, rest) ← keyParts? fuel rest
      return (part :: parts, rest)
    | rest => return ([part], rest)

/-- A key, with fewer parts than the limit. -/
def key? : Reader (List String) :=
  keyParts? (nestingLimit - 1)

/-! ## Values -/

mutual

/-- A value, with `room` levels of nesting left. -/
def value? : (fuel : Nat) → (room : Nat) → Reader Toml
  | 0, _, _ => none
  | fuel + 1, room, text =>
    match text with
    | '"' :: _ | '\x27' :: _ =>
      (string? text).map fun (chars, rest) => (.str (String.ofList chars), rest)
    | '[' :: rest =>
      if room ≤ 1 then none
      else (items? fuel (room - 1) [] (skipAll rest)).map fun (items, rest) => (.arr items, rest)
    | '\x7b' :: rest =>
      if room ≤ 1 then none
      else
        match skipSpaces rest with
        | '\x7d' :: rest => some (.table [], rest)
        | rest =>
          (inlineFields? fuel (room - 1) [] rest).map fun (fields, rest) =>
            (.table (finishFields fields), rest)
    | text => scalar? text

/-- The rest of an array, given the items before in reverse. -/
def items? : (fuel : Nat) → (room : Nat) → List Toml → Reader (List Toml)
  | 0, _, _, _ => none
  | fuel + 1, room, done, text =>
    match text with
    | ']' :: rest => some (done.reverse, rest)
    | text => do
      let (item, rest) ← value? fuel room text
      match skipAll rest with
      | ',' :: rest => items? fuel room (item :: done) (skipAll rest)
      | ']' :: rest => return ((item :: done).reverse, rest)
      | _ => none

/-- The rest of an inline table from a key on, given the fields before. -/
def inlineFields? : (fuel : Nat) → (room : Nat) → Fields → Reader Fields
  | 0, _, _, _ => none
  | fuel + 1, room, fields, text => do
    let (key, rest) ← key? text
    let '=' :: rest := rest | none
    let (value, rest) ← value? fuel room (skipSpaces rest)
    let fields ← addKey key value fields
    match skipSpaces rest with
    | ',' :: rest => inlineFields? fuel room fields rest
    | '\x7d' :: rest => return (fields, rest)
    | _ => none

end

/-! ## Lines -/

/-- A document under construction: its fields, and the path of the open table. -/
structure Draft where
  fields : Fields := []
  path : List String := []

/-- Gives a key of the open table a value. -/
def Draft.add (d : Draft) (key : List String) (value : Toml) : Option Draft :=
  (changeAt false (fun _ => addKey key value) false d.path d.fields).map fun fields =>
    { d with fields }

/-- A line that gives a key a value. -/
def assignment? (d : Draft) : Reader Draft := fun text => do
  let (key, rest) ← key? text
  let '=' :: rest := rest | none
  let (value, rest) ← value? (2 * rest.length + 2) nestingLimit (skipSpaces rest)
  let rest ← lineEnd? rest
  let d ← d.add key value
  return (d, rest)

/-- A line that opens a table, after its first bracket. -/
def header? (d : Draft) : Reader Draft := fun text => do
  let (path, rest) ← key? text
  let ']' :: rest := rest | none
  let rest ← lineEnd? rest
  let fields ← openTable path d.fields
  return (⟨fields, path⟩, rest)

/-- A line that opens the next table of an array, after its first two brackets. -/
def nextHeader? (d : Draft) : Reader Draft := fun text => do
  let (path, rest) ← key? text
  let ']' :: ']' :: rest := rest | none
  let rest ← lineEnd? rest
  let fields ← openNext path d.fields
  return (⟨fields, path⟩, rest)

/-- Reads lines up to the end of the text. -/
def lines? : (fuel : Nat) → Draft → List Char → Option Draft
  | 0, _, _ => none
  | fuel + 1, d, text =>
    match skipAll text with
    | [] => some d
    | '[' :: '[' :: rest => (nextHeader? d rest).bind fun (d, rest) => lines? fuel d rest
    | '[' :: rest => (header? d rest).bind fun (d, rest) => lines? fuel d rest
    | rest => (assignment? d rest).bind fun (d, rest) => lines? fuel d rest

/-- Drops the mark that a text may start with. -/
def dropMark (text : List Char) : List Char :=
  match text with
  | c :: rest => if c.toNat = 0xfeff then rest else text
  | [] => []

/-- Reads a document. -/
def parse? (text : String) : Option Toml :=
  let chars := dropMark text.toList
  (lines? (chars.length + 1) {} chars).map fun d => .table (finishFields d.fields)

end ScriptShell.Toml
