import ScriptShell.Evaluation.Eval
import ScriptShell.Proofs.Dict

/-! # Values with declarations

A `Value` knows a function by reference only. A `DeclValue` is the same except that a function has
its declaration with it. Leaving the declarations out gives a value back (`DeclValue.forget`); the
other way round, a value that a module answers takes over the declarations of the functions that
were among the arguments (`DeclValue.restore`), and **`forget_restore`** says that nothing else
changes. `DeclValue.Faithful` compares the declarations that a value has with those that a table
knows. -/

namespace ScriptShell

/-- A value, with declarations for functions. -/
inductive DeclValue where
  | null
  | bool (value : Bool)
  | num (value : Float)
  | str (value : String)
  | list (items : List DeclValue)
  | obj (fields : List (String × DeclValue))
  /-- A function and its declaration; a function that a module made up has none. -/
  | func (ref : FunctionId) (decl : Option FunctionDecl)
  | native (ref : NativeId)
  | module (name : String)
  | pending (target : NativeId) (args : List DeclValue)
  deriving Inhabited

namespace DeclValue

mutual

/-- The value without declarations. -/
def forget : DeclValue → Value
  | .null => .null
  | .bool value => .bool value
  | .num value => .num value
  | .str value => .str value
  | .list items => .list (forgetAll items)
  | .obj fields => .obj (forgetFields fields)
  | .func ref _ => .func ref
  | .native ref => .native ref
  | .module name => .module name
  | .pending target args => .pending target (forgetAll args)

/-- Values without declarations. -/
def forgetAll : List DeclValue → List Value
  | [] => []
  | d :: rest => d.forget :: forgetAll rest

/-- Fields without declarations. -/
def forgetFields : List (String × DeclValue) → List (String × Value)
  | [] => []
  | (name, d) :: rest => (name, d.forget) :: forgetFields rest

end

mutual

/-- All functions in a value, with their declarations. -/
def functions : DeclValue → List (FunctionId × Option FunctionDecl)
  | .null | .bool _ | .num _ | .str _ | .native _ | .module _ => []
  | .list items => functionsOfAll items
  | .obj fields => functionsOfFields fields
  | .func ref decl => [(ref, decl)]
  | .pending _ args => functionsOfAll args

/-- All functions in some values. -/
def functionsOfAll : List DeclValue → List (FunctionId × Option FunctionDecl)
  | [] => []
  | d :: rest => d.functions ++ functionsOfAll rest

/-- All functions in some fields. -/
def functionsOfFields : List (String × DeclValue) → List (FunctionId × Option FunctionDecl)
  | [] => []
  | (_, d) :: rest => d.functions ++ functionsOfFields rest

end

mutual

/-- A value, with the declarations that a table has for its functions. -/
def restore (known : FunctionId → Option FunctionDecl) : Value → DeclValue
  | .null => .null
  | .bool value => .bool value
  | .num value => .num value
  | .str value => .str value
  | .list items => .list (restoreAll known items)
  | .obj fields => .obj (restoreFields known fields)
  | .func ref => .func ref (known ref)
  | .native ref => .native ref
  | .module name => .module name
  | .pending target args => .pending target (restoreAll known args)

/-- Values with the declarations of a table. -/
def restoreAll (known : FunctionId → Option FunctionDecl) : List Value → List DeclValue
  | [] => []
  | v :: rest => restore known v :: restoreAll known rest

/-- Fields with the declarations of a table. -/
def restoreFields (known : FunctionId → Option FunctionDecl) :
    List (String × Value) → List (String × DeclValue)
  | [] => []
  | (name, v) :: rest => (name, restore known v) :: restoreFields known rest

end

/-- A value whose functions have no declarations. -/
def plain (v : Value) : DeclValue :=
  restore (fun _ => none) v

/-- The declaration of a function among some values, of the first one that has one. -/
def declarationIn (values : List DeclValue) (ref : FunctionId) : Option FunctionDecl :=
  (functionsOfAll values).findSome? fun entry => if entry.1 = ref then entry.2 else none

/-! ## Forgetting what was restored -/

/-- To forget the declarations in a list is to forget those of each item. -/
theorem forgetAll_eq (items : List DeclValue) : forgetAll items = items.map forget := by
  induction items with
  | nil => rfl
  | cons d rest ih => rw [forgetAll, ih, List.map_cons]

/-- Forgetting declarations goes through two lists one after the other. -/
theorem forgetAll_append (first second : List DeclValue) :
    forgetAll (first ++ second) = forgetAll first ++ forgetAll second := by
  rw [forgetAll_eq, forgetAll_eq, forgetAll_eq, List.map_append]

/-- Forgetting declarations keeps the number of items. -/
theorem length_forgetAll (items : List DeclValue) : (forgetAll items).length = items.length := by
  rw [forgetAll_eq, List.length_map]

/-- A field of an object, with or without declarations. -/
theorem lookup_forgetFields (fields : List (String × DeclValue)) (name : String) :
    (forgetFields fields).lookup name = (fields.lookup name).map forget := by
  induction fields with
  | nil => rfl
  | cons field rest ih =>
      obtain ⟨other, d⟩ := field
      rw [forgetFields, List.lookup_cons, List.lookup_cons]
      cases name == other with
      | true => rfl
      | false => exact ih

mutual

/-- **Only declarations are added.** -/
@[simp] theorem forget_restore (known : FunctionId → Option FunctionDecl) (v : Value) :
    (restore known v).forget = v := by
  cases v with
  | null | bool | num | str | func | native | module => rfl
  | list items => rw [restore, forget, forgetAll_restoreAll]
  | obj fields => rw [restore, forget, forgetFields_restoreFields]
  | pending target args => rw [restore, forget, forgetAll_restoreAll]

/-- Declarations that are put into a list and forgotten again leave the list. -/
theorem forgetAll_restoreAll (known : FunctionId → Option FunctionDecl) (items : List Value) :
    forgetAll (restoreAll known items) = items := by
  cases items with
  | nil => rfl
  | cons v rest =>
      rw [restoreAll, forgetAll, forget_restore known v, forgetAll_restoreAll known rest]

/-- Declarations that are put into fields and forgotten again leave the fields. -/
theorem forgetFields_restoreFields (known : FunctionId → Option FunctionDecl)
    (fields : List (String × Value)) : forgetFields (restoreFields known fields) = fields := by
  cases fields with
  | nil => rfl
  | cons field rest =>
      obtain ⟨name, v⟩ := field
      rw [restoreFields, forgetFields, forget_restore known v,
        forgetFields_restoreFields known rest]

end

@[simp] theorem forget_plain (v : Value) : (plain v).forget = v :=
  forget_restore _ v

/-! ## Declarations that a table knows -/

/-- The functions in a list are those in its items. -/
theorem mem_functionsOfAll {entry : FunctionId × Option FunctionDecl} {items : List DeclValue} :
    entry ∈ functionsOfAll items ↔ ∃ d ∈ items, entry ∈ d.functions := by
  induction items with
  | nil => simp [functionsOfAll]
  | cons d rest ih => simp [functionsOfAll, ih]

/-- The functions in fields are those in their values. -/
theorem mem_functionsOfFields {entry : FunctionId × Option FunctionDecl}
    {fields : List (String × DeclValue)} :
    entry ∈ functionsOfFields fields ↔ ∃ field ∈ fields, entry ∈ field.2.functions := by
  induction fields with
  | nil => simp [functionsOfFields]
  | cons field rest ih => simp [functionsOfFields, ih]

mutual

/-- The declarations of a value are those of the table. -/
theorem eq_of_mem_functions_restore {known : FunctionId → Option FunctionDecl} {v : Value}
    {entry : FunctionId × Option FunctionDecl} (member : entry ∈ (restore known v).functions) :
    entry.2 = known entry.1 := by
  cases v with
  | null | bool | num | str | native | module => cases member
  | list items =>
      rw [restore, functions] at member
      exact eq_of_mem_functionsOfAll_restoreAll member
  | obj fields =>
      rw [restore, functions] at member
      exact eq_of_mem_functionsOfFields_restoreFields member
  | func ref =>
      rw [restore, functions, List.mem_singleton] at member
      rw [member]
  | pending target args =>
      rw [restore, functions] at member
      exact eq_of_mem_functionsOfAll_restoreAll member

/-- A function in a list carries the declaration that was put in for it. -/
theorem eq_of_mem_functionsOfAll_restoreAll {known : FunctionId → Option FunctionDecl}
    {items : List Value} {entry : FunctionId × Option FunctionDecl}
    (member : entry ∈ functionsOfAll (restoreAll known items)) : entry.2 = known entry.1 := by
  cases items with
  | nil => cases member
  | cons v rest =>
      rcases List.mem_append.mp member with member | member
      · exact eq_of_mem_functions_restore member
      · exact eq_of_mem_functionsOfAll_restoreAll member

/-- A function in fields carries the declaration that was put in for it. -/
theorem eq_of_mem_functionsOfFields_restoreFields {known : FunctionId → Option FunctionDecl}
    {fields : List (String × Value)} {entry : FunctionId × Option FunctionDecl}
    (member : entry ∈ functionsOfFields (restoreFields known fields)) :
    entry.2 = known entry.1 := by
  cases fields with
  | nil => cases member
  | cons field rest =>
      obtain ⟨name, v⟩ := field
      rcases List.mem_append.mp member with member | member
      · exact eq_of_mem_functions_restore member
      · exact eq_of_mem_functionsOfFields_restoreFields member

end

/-- Every declaration in a value is of a kind. -/
def Faithful (good : FunctionId → FunctionDecl → Prop) (d : DeclValue) : Prop :=
  ∀ ref decl, (ref, some decl) ∈ d.functions → good ref decl

namespace Faithful

variable {good : FunctionId → FunctionDecl → Prop}

/-- A value without functions. -/
theorem of_nil {d : DeclValue} (nothing : d.functions = []) : d.Faithful good := by
  intro ref decl member
  rw [nothing] at member
  cases member

/-- A list is faithful if its items are. -/
theorem list {items : List DeclValue} :
    (DeclValue.list items).Faithful good ↔ ∀ d ∈ items, d.Faithful good := by
  simp only [Faithful, functions, mem_functionsOfAll]
  constructor
  · intro all d member ref decl inside
    exact all ref decl ⟨d, member, inside⟩
  · rintro all ref decl ⟨d, member, inside⟩
    exact all d member ref decl inside

/-- An object is faithful if the values of its fields are. -/
theorem obj {fields : List (String × DeclValue)} :
    (DeclValue.obj fields).Faithful good ↔ ∀ field ∈ fields, field.2.Faithful good := by
  simp only [Faithful, functions, mem_functionsOfFields]
  constructor
  · intro all field member ref decl inside
    exact all ref decl ⟨field, member, inside⟩
  · rintro all ref decl ⟨field, member, inside⟩
    exact all field member ref decl inside

/-- A pending call is faithful if its arguments are. -/
theorem pending {target : NativeId} {args : List DeclValue} :
    (DeclValue.pending target args).Faithful good ↔ ∀ d ∈ args, d.Faithful good :=
  list

/-- A value whose functions have no declarations. -/
theorem plain (v : Value) : (DeclValue.plain v).Faithful good := by
  intro ref decl member
  cases eq_of_mem_functions_restore member

/-- A value with the declarations of others. -/
theorem restore {values : List DeclValue} (all : ∀ d ∈ values, d.Faithful good) (v : Value) :
    (DeclValue.restore (declarationIn values) v).Faithful good := by
  intro ref decl member
  have known : declarationIn values ref = some decl := (eq_of_mem_functions_restore member).symm
  obtain ⟨entry, inside, isDecl⟩ := List.exists_of_findSome?_eq_some known
  split at isDecl
  · rename_i same
    obtain ⟨d, isValue, held⟩ := mem_functionsOfAll.mp inside
    refine all d isValue ref decl ?_
    rwa [← same, ← isDecl]
  · cases isDecl

end Faithful

end DeclValue

/-! ## Names -/

/-- Values of names, with declarations for functions. -/
abbrev DeclEnvironment := Dict DeclValue

namespace DeclEnvironment

variable {good : FunctionId → FunctionDecl → Prop} {env : DeclEnvironment}

/-- The values of names without declarations. -/
def forget (env : DeclEnvironment) : Environment :=
  Dict.map DeclValue.forget env

/-- Every declaration in the value of a name is of a kind. -/
def Faithful (good : FunctionId → FunctionDecl → Prop) (env : DeclEnvironment) : Prop :=
  ∀ name d, Dict.get? env name = some d → d.Faithful good

/-- The value of a name without its declarations. -/
theorem get?_forget (env : DeclEnvironment) (name : String) :
    Dict.get? env.forget name = (Dict.get? env name).map DeclValue.forget :=
  Dict.get?_map _ env name

/-- Giving a name a value and forgetting declarations can be done in either order. -/
theorem forget_insert (env : DeclEnvironment) (name : String) (d : DeclValue) :
    DeclEnvironment.forget (Dict.insert env name d) = Dict.insert env.forget name d.forget :=
  Dict.map_insert _ env name d

/-- Parameters bound to arguments, with or without declarations. -/
theorem forget_ofList (params : List String) (args : List DeclValue) :
    DeclEnvironment.forget (Dict.ofList (params.zip args)) =
      Dict.ofList (params.zip (DeclValue.forgetAll args)) := by
  rw [forget, Dict.map_ofList, DeclValue.forgetAll_eq, List.zip_map_right]
  rfl

/-- Without names, all values are faithful. -/
theorem Faithful.empty : DeclEnvironment.Faithful good {} := by
  intro name d held
  cases held

/-- Giving a name a faithful value keeps the names faithful. -/
theorem Faithful.insert (faithful : env.Faithful good) {d : DeclValue} (holds : d.Faithful good)
    (name : String) : DeclEnvironment.Faithful good (Dict.insert env name d) := by
  intro other d' held
  rw [Dict.get?_insert] at held
  split at held
  · cases held
    exact holds
  · exact faithful other d' held

/-- Parameters with faithful values. -/
theorem Faithful.ofList {params : List String} {args : List DeclValue}
    (all : ∀ d ∈ args, d.Faithful good) :
    DeclEnvironment.Faithful good (Dict.ofList (params.zip args)) := by
  intro name d held
  exact all d (List.of_mem_zip (Dict.mem_of_get?_ofList held)).2

/-- Faithful to something stronger. -/
theorem Faithful.mono {better : FunctionId → FunctionDecl → Prop} (faithful : env.Faithful better)
    (imp : ∀ ref decl, better ref decl → good ref decl) : env.Faithful good :=
  fun name d held ref decl member => imp ref decl (faithful name d held ref decl member)

end DeclEnvironment

end ScriptShell
