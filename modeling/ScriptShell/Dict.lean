/-! # Dictionaries

A `Dict` maps names to values and lists its entries in increasing order of name. The reading lemmas
`get?_empty`, `get?_insert_self` and `get?_insert_of_ne` say all that users of a dictionary need. -/

namespace ScriptShell

/-- A finite map from names, as entries in increasing order of name. -/
structure Dict (α : Type) where
  entries : List (String × α)
  deriving Repr

namespace Dict

variable {α β : Type}

/-- The dictionary without entries. -/
def empty : Dict α := ⟨[]⟩

instance : Inhabited (Dict α) := ⟨empty⟩

instance : EmptyCollection (Dict α) := ⟨empty⟩

/-- The value of a name. -/
def get? (d : Dict α) (name : String) : Option α :=
  d.entries.lookup name

/-- Whether a name has a value. -/
def contains (d : Dict α) (name : String) : Bool :=
  (d.get? name).isSome

/-- Puts an entry at its place in an ordered list, in the place of an entry of the same name. -/
def insertEntry (name : String) (value : α) : List (String × α) → List (String × α)
  | [] => [(name, value)]
  | (other, held) :: rest =>
    if name < other then (name, value) :: (other, held) :: rest
    else if name = other then (name, value) :: rest
    else (other, held) :: insertEntry name value rest

/-- Gives a name a value, replacing the one it has. -/
def insert (d : Dict α) (name : String) (value : α) : Dict α :=
  ⟨insertEntry name value d.entries⟩

/-- The dictionary of a list of entries; of two entries of one name the later one counts. -/
def ofList (entries : List (String × α)) : Dict α :=
  entries.foldl (fun d entry => d.insert entry.1 entry.2) empty

/-- The names, in increasing order. -/
def keys (d : Dict α) : List String :=
  d.entries.map (·.1)

/-- The values, in increasing order of their names. -/
def values (d : Dict α) : List α :=
  d.entries.map (·.2)

/-- The number of entries. -/
def size (d : Dict α) : Nat :=
  d.entries.length

/-- Applies a function to every value. -/
def map (f : α → β) (d : Dict α) : Dict β :=
  ⟨d.entries.map fun entry => (entry.1, f entry.2)⟩

/-! ## What a name holds -/

@[simp] theorem get?_empty (name : String) : (empty : Dict α).get? name = none := rfl

/-- The entry that was put in is found. -/
theorem lookup_insertEntry_self (name : String) (value : α) (entries : List (String × α)) :
    (insertEntry name value entries).lookup name = some value := by
  induction entries with
  | nil => simp [insertEntry]
  | cons entry rest ih =>
    obtain ⟨other, held⟩ := entry
    by_cases before : name < other
    · simp [insertEntry, before]
    · by_cases same : name = other
      · simp [insertEntry, same]
      · have different : (name == other) = false := by simpa using same
        simp [insertEntry, before, same, List.lookup_cons, different, ih]

/-- Putting in an entry changes nothing about other names. -/
theorem lookup_insertEntry_of_ne {name other : String} (ne : other ≠ name) (value : α)
    (entries : List (String × α)) :
    (insertEntry name value entries).lookup other = entries.lookup other := by
  have different : (other == name) = false := by simpa using ne
  induction entries with
  | nil => simp [insertEntry, List.lookup_cons, different]
  | cons entry rest ih =>
    obtain ⟨key, held⟩ := entry
    by_cases before : name < key
    · simp [insertEntry, before, List.lookup_cons, different]
    · by_cases same : name = key
      · subst same
        simp [insertEntry, List.lookup_cons, different]
      · simp [insertEntry, before, same, List.lookup_cons, ih]

/-- A name holds what was last put there. -/
@[simp] theorem get?_insert_self (d : Dict α) (name : String) (value : α) :
    (d.insert name value).get? name = some value :=
  lookup_insertEntry_self name value d.entries

/-- Putting a value under one name leaves every other name alone. -/
theorem get?_insert_of_ne (d : Dict α) {name other : String} (ne : other ≠ name) (value : α) :
    (d.insert name value).get? other = d.get? other :=
  lookup_insertEntry_of_ne ne value d.entries

/-- What a name has after an entry was put in: the new value, or what it had before. -/
theorem get?_insert (d : Dict α) (name other : String) (value : α) :
    (d.insert name value).get? other = if other = name then some value else d.get? other := by
  by_cases h : other = name
  · simp [h]
  · simp [h, get?_insert_of_ne]

end Dict

end ScriptShell
