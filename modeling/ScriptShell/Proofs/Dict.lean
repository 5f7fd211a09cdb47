import ScriptShell.Dict

/-! # Dictionaries and their names

Which names a dictionary has after entries were put into it. A name is in `keys` exactly when it
holds a value, and the keys after `insert` depend only on the keys before it. Putting values under
names commutes with mapping all values. -/

namespace ScriptShell.Dict

variable {α β : Type}

/-- A name has a value exactly when it is among the names. -/
theorem isSome_get?_iff_mem_keys {d : Dict α} {name : String} :
    (d.get? name).isSome ↔ name ∈ d.keys := by
  unfold get? keys
  induction d.entries with
  | nil => simp
  | cons entry rest ih =>
      obtain ⟨other, held⟩ := entry
      by_cases same : name = other
      · simp [same]
      · have different : (name == other) = false := by simpa using same
        simp only [List.lookup_cons, different, List.map_cons, List.mem_cons, same, false_or]
        exact ih

/-- The names after an entry was put into an ordered list depend only on the names before. -/
theorem map_fst_insertEntry (name : String) (a : α) (b : β) (first : List (String × α))
    (second : List (String × β)) (same : first.map (·.1) = second.map (·.1)) :
    (insertEntry name a first).map (·.1) = (insertEntry name b second).map (·.1) := by
  induction first generalizing second with
  | nil =>
      cases second with
      | nil => rfl
      | cons => simp at same
  | cons entry rest ih =>
      cases second with
      | nil => simp at same
      | cons entry' rest' =>
          obtain ⟨other, held⟩ := entry
          obtain ⟨other', held'⟩ := entry'
          simp only [List.map_cons, List.cons.injEq] at same
          obtain ⟨rfl, same⟩ := same
          -- The two lists have the same name here, so both entries go to the same place.
          unfold insertEntry
          split
          · simp [same]
          · split
            · simp [same]
            · simp [ih rest' same]

/-- Putting values under one name into two dictionaries with the same names gives two with the same
names. -/
theorem keys_insert_congr {d : Dict α} {e : Dict β} (same : d.keys = e.keys) (name : String) (a : α)
    (b : β) : (d.insert name a).keys = (e.insert name b).keys :=
  map_fst_insertEntry name a b d.entries e.entries same

/-- Putting a value under a name adds that name and no other. -/
theorem isSome_get?_insert (d : Dict α) (name other : String) (value : α) :
    ((d.insert name value).get? other).isSome ↔ other = name ∨ (d.get? other).isSome := by
  rw [get?_insert]
  by_cases same : other = name <;> simp [same]

/-- A dictionary of entries holds only values of the entries, or of the dictionary to begin with. -/
theorem get?_foldl_insert {entries : List (String × α)} {d : Dict α} {name : String} {value : α}
    (held : (entries.foldl (fun d entry => d.insert entry.1 entry.2) d).get? name = some value) :
    (name, value) ∈ entries ∨ d.get? name = some value := by
  induction entries generalizing d with
  | nil => exact .inr held
  | cons entry rest ih =>
      rcases ih held with member | before
      · exact .inl (List.mem_cons_of_mem _ member)
      · rw [get?_insert] at before
        split at before
        · rename_i same
          cases before
          exact .inl (by simp [same])
        · exact .inr before

/-- A dictionary of entries holds only values of the entries. -/
theorem mem_of_get?_ofList {entries : List (String × α)} {name : String} {value : α}
    (held : (ofList entries).get? name = some value) : (name, value) ∈ entries := by
  rcases get?_foldl_insert held with member | before
  · exact member
  · cases before

/-- The names of a dictionary of entries are those of the entries, and those to begin with. -/
theorem isSome_get?_foldl_insert (entries : List (String × α)) (d : Dict α) (name : String) :
    ((entries.foldl (fun d entry => d.insert entry.1 entry.2) d).get? name).isSome ↔
      name ∈ entries.map (·.1) ∨ (d.get? name).isSome := by
  induction entries generalizing d with
  | nil => simp
  | cons entry rest ih =>
      rw [List.foldl_cons, ih, isSome_get?_insert]
      simp only [List.map_cons, List.mem_cons]
      constructor
      · rintro (member | same | before)
        · exact .inl (.inr member)
        · exact .inl (.inl same)
        · exact .inr before
      · rintro ((same | member) | before)
        · exact .inr (.inl same)
        · exact .inl member
        · exact .inr (.inr before)

/-- The names of a dictionary of entries are those of the entries. -/
theorem isSome_get?_ofList (entries : List (String × α)) (name : String) :
    ((ofList entries).get? name).isSome ↔ name ∈ entries.map (·.1) := by
  unfold ofList
  rw [isSome_get?_foldl_insert]
  simp

/-! ## Mapped values -/

/-- A name holds the image of what it held. -/
theorem get?_map (f : α → β) (d : Dict α) (name : String) :
    (d.map f).get? name = (d.get? name).map f := by
  unfold get? map
  induction d.entries with
  | nil => rfl
  | cons entry rest ih =>
      rw [List.map_cons, List.lookup_cons, List.lookup_cons]
      cases name == entry.1 with
      | true => rfl
      | false => exact ih

/-- Putting a value under a name, before or after all values are mapped. -/
theorem map_insert (f : α → β) (d : Dict α) (name : String) (value : α) :
    (d.insert name value).map f = (d.map f).insert name (f value) := by
  unfold insert map
  congr 1
  induction d.entries with
  | nil => rfl
  | cons entry rest ih =>
      obtain ⟨other, held⟩ := entry
      -- Where the entry goes depends on names only.
      simp only [insertEntry, List.map_cons]
      by_cases before : name < other
      · rw [if_pos before, if_pos before]
        rfl
      · rw [if_neg before, if_neg before]
        by_cases same : name = other
        · rw [if_pos same, if_pos same]
          rfl
        · rw [if_neg same, if_neg same, List.map_cons, ih]

/-- The dictionary of mapped entries. -/
theorem map_ofList (f : α → β) (entries : List (String × α)) :
    (ofList entries).map f = ofList (entries.map fun entry => (entry.1, f entry.2)) := by
  have inserted : ∀ (entries : List (String × α)) (d : Dict α),
      (entries.foldl (fun d entry => d.insert entry.1 entry.2) d).map f =
        (entries.map fun entry => (entry.1, f entry.2)).foldl
          (fun d entry => d.insert entry.1 entry.2) (d.map f) := by
    intro entries
    induction entries with
    | nil => exact fun _ => rfl
    | cons entry rest ih =>
        intro d
        rw [List.foldl_cons, ih, map_insert]
        rfl
  exact inserted entries empty

end ScriptShell.Dict
