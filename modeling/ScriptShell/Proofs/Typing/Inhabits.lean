import ScriptShell.Proofs.Evaluation.Values
import ScriptShell.Typing.Infer

/-! # Values of a type

`Value.Inhabits` says which values a static type has, and `Environment.Fits` that names hold values
of the types that the checker gave them. `Value.Known` says that a value refers only to what a
catalog has, and to no function of a script. What a catalog must promise for the checker to be right
about it is `Catalog.Honest`: functions answer what their signatures say, and complain about the
number of arguments only if it is wrong. -/

namespace ScriptShell

/-! ## Inhabited types -/

/-- Whether a function may be called with this number of arguments. -/
def NativeFunction.Takes (f : NativeFunction) (count : Nat) : Prop :=
  if f.variadic then f.params.length ≤ count else count = f.params.length

namespace Value

/-- Which values a type has. Data has a type by its kind, and lists by their items. A function type
has the native functions of exactly that signature, the type of a future the pending calls, with a
right number of arguments, of asynchronous functions that return it. What has no value leaves null
behind. -/
def Inhabits (c : Catalog) : Value → Ty → Prop
  | v, .num => ∃ x, v = .num x
  | v, .str => ∃ text, v = .str text
  | v, .bool => ∃ b, v = .bool b
  | v, .null => v = .null
  | v, .void => v = .null
  | v, .list item => ∃ items, v = .list items ∧ ∀ x ∈ items, Inhabits c x item
  | v, .future item => ∃ target args f, v = .pending target args ∧ c.native? target = some f ∧
      f.isAsync = true ∧ f.returns = .future item ∧ f.Takes args.length
  | v, .fn params returns variadic => ∃ ref f, v = .native ref ∧ c.native? ref = some f ∧
      f.signature = .fn params returns variadic
  | v, .module name => v = .module name
  | _, .any => True

variable {c : Catalog} {v : Value} {a b : Ty}

/-- What has the first of two types has their common type. -/
theorem Inhabits.join_left (inhabits : v.Inhabits c a) (b : Ty) : v.Inhabits c (a.join b) := by
  unfold Ty.join
  split
  · exact inhabits
  · trivial

/-- What has the second of two types has their common type. -/
theorem Inhabits.join_right (inhabits : v.Inhabits c b) (a : Ty) : v.Inhabits c (a.join b) := by
  unfold Ty.join
  split
  · rename_i same
    rwa [same]
  · trivial

/-- Joining more types on to one keeps the values of it. -/
theorem Inhabits.foldl_join (inhabits : v.Inhabits c a) (types : List Ty) :
    v.Inhabits c (types.foldl Ty.join a) := by
  induction types generalizing a with
  | nil => exact inhabits
  | cons t rest ih => exact ih (inhabits.join_left t)

/-- What has one of the types of some items has their common type. -/
theorem Inhabits.joinAll {types : List Ty} (member : a ∈ types) (inhabits : v.Inhabits c a) :
    v.Inhabits c (joinAll types) := by
  cases types with
  | nil => cases member
  | cons first rest =>
      show v.Inhabits c (rest.foldl Ty.join first)
      -- The join of the types so far is the first type of the fold, so the induction is on the
      -- others.
      induction rest generalizing first with
      | nil =>
          rw [List.mem_singleton] at member
          exact member ▸ inhabits
      | cons second others ih =>
          rw [List.foldl_cons]
          simp only [List.mem_cons] at member
          rcases member with rfl | rfl | member
          · exact (inhabits.join_left second).foldl_join others
          · exact (inhabits.join_right first).foldl_join others
          · exact ih (first.join second) (List.mem_cons_of_mem _ member)

/-- A value that refers only to what the catalog has, and not to a function of a script. -/
def Known (c : Catalog) : Value → Prop
  | .func _ => False
  | .native ref => ∃ f, c.native? ref = some f
  | .pending target _ => ∃ f, c.native? target = some f ∧ f.isAsync = true
  | .module name => ∃ m, c.get? name = some m
  | .null | .bool _ | .num _ | .str _ | .list _ | .obj _ => True

end Value

/-- The names that an environment binds are exactly those that have a static type, and their values
have these types. -/
structure Environment.Fits (c : Catalog) (bindings : Dict Ty) (env : Environment) : Prop where
  names : Dict.keys env = bindings.keys
  values : ∀ {name type v}, bindings.get? name = some type → Dict.get? env name = some v →
    v.Inhabits c type

namespace Environment.Fits

variable {c : Catalog} {bindings : Dict Ty} {env : Environment}

/-- No names fit no types. -/
theorem empty : Environment.Fits c {} {} :=
  ⟨rfl, fun held => by cases held⟩

/-- A name has a value exactly when it has a type. -/
theorem isSome_iff (fits : env.Fits c bindings) (name : String) :
    (Dict.get? env name).isSome ↔ (bindings.get? name).isSome := by
  rw [Dict.isSome_get?_iff_mem_keys, Dict.isSome_get?_iff_mem_keys, fits.names]

/-- A value of a type under a name. -/
theorem insert (fits : env.Fits c bindings) {type : Ty} {v : Value} (inhabits : v.Inhabits c type)
    (name : String) : Environment.Fits c (bindings.insert name type) (Dict.insert env name v) := by
  refine ⟨Dict.keys_insert_congr fits.names name v type, fun {other type' v'} typed held => ?_⟩
  rw [Dict.get?_insert] at typed held
  -- The name itself has the new value and the new type, every other one what it had.
  split at typed
  · rename_i same
    rw [if_pos same] at held
    cases typed
    cases held
    exact inhabits
  · rename_i different
    rw [if_neg different] at held
    exact fits.values typed held

end Environment.Fits

/-! ## Errors that the checker does not rule out -/

/-- Errors of names, functions and levels that are not there: a checked fragment never raises
them. -/
def ErrorCode.isScopeError : ErrorCode → Bool
  | .undefinedVariable | .unknownFunction | .recursionLimit => true
  | _ => false

/-- Errors of values that are not what an operation takes: a checked fragment raises them only where
the checker knew nothing of a value. -/
def ErrorCode.isShapeError : ErrorCode → Bool
  | .typeError | .propertyNotFound | .wrongArgCount => true
  | _ => false

/-- An error that the checker does not rule out, where `loose` excuses it for a value's shape. -/
def RunError.Excused (loose : Prop) (e : RunError) : Prop :=
  e.code.isScopeError = false ∧ (e.code.isShapeError = true → loose)

/-- A reason to stop that is no error, or one that the checker does not rule out. -/
def Stop.Excused (loose : Prop) : Stop → Prop
  | .failed e => e.Excused loose
  | .cancelled | .broken | .unfinished => True

/-- A weaker excuse. -/
theorem RunError.Excused.mono {loose looser : Prop} {e : RunError} (excused : e.Excused loose)
    (imp : loose → looser) : e.Excused looser :=
  ⟨excused.1, fun shape => imp (excused.2 shape)⟩

/-- A weaker excuse. -/
theorem Stop.Excused.mono {loose looser : Prop} {stop : Stop} (excused : stop.Excused loose)
    (imp : loose → looser) : stop.Excused looser := by
  cases stop with
  | failed e => exact RunError.Excused.mono excused imp
  | cancelled | broken | unfinished => trivial

/-! ## Honest catalogs -/

/-- A native function keeps to its signature: whatever it is called with, its answer has the type it
promises and refers to nothing new, and it fails for the number of arguments only if that is
wrong. -/
structure NativeFunction.Honest (c : Catalog) (f : NativeFunction) : Prop where
  answers : ∀ {args v}, (f.body args).result = .value v → v.Inhabits c f.answers
  known : ∀ {args v}, (∀ a ∈ args, a.All (Value.Known c)) → (f.body args).result = .value v →
    v.All (Value.Known c)
  fails : ∀ {args e}, (f.body args).result = .failure e → e.Excused (¬f.Takes args.length)

/-- A catalog that has the module of every fragment, whose functions keep to their signatures, whose
constants have their types, and in which no two modules have members of one name. -/
structure Catalog.Honest (c : Catalog) : Prop where
  prelude : ∃ m, c.get? preludeName = some m
  functions : ∀ {ref f}, c.native? ref = some f → f.Honest c
  constants : ∀ {name m constant}, c.get? name = some m → constant ∈ m.constants →
    constant.value.Inhabits c constant.type ∧ constant.value.All (Value.Known c)
  distinct : ∀ {a b m m' name}, c.get? a = some m → c.get? b = some m' → name ∈ m.names →
    name ∈ m'.names → a = b

namespace ScriptModule

variable {m : ScriptModule} {name : String}

/-- A function that is found is one of the module's, and has the name. -/
theorem function?_mem {f : NativeFunction} (found : m.function? name = some f) :
    f ∈ m.functions ∧ f.name = name :=
  ⟨List.mem_of_find?_eq_some found, by simpa using List.find?_some found⟩

/-- A constant that is found is one of the module's, and has the name. -/
theorem constant?_mem {constant : Constant} (found : m.constant? name = some constant) :
    constant ∈ m.constants ∧ constant.name = name :=
  ⟨List.mem_of_find?_eq_some found, by simpa using List.find?_some found⟩

/-- A member with a type is among the names of the module. -/
theorem mem_names_of_typeOf? (typed : (m.typeOf? name).isSome) : name ∈ m.names := by
  unfold typeOf? at typed
  unfold names
  rw [List.mem_append, List.mem_map, List.mem_map]
  cases function : m.function? name with
  | some f => exact .inl ⟨f, function?_mem function⟩
  | none =>
      rw [function] at typed
      simp only [Option.isSome_map] at typed
      obtain ⟨constant, found⟩ := Option.isSome_iff_exists.mp typed
      exact .inr ⟨constant, constant?_mem found⟩

end ScriptModule

namespace Catalog.Honest

variable {c : Catalog} (honest : c.Honest) {module name : String} {m : ScriptModule}

include honest

/-- The value of a member has the type of the member and is known. -/
theorem member {v : Value} (found : c.get? module = some m) (held : m.member? name = some v) :
    v.All (Value.Known c) ∧ ∀ type, m.typeOf? name = some type → v.Inhabits c type := by
  unfold ScriptModule.member? at held
  unfold ScriptModule.typeOf?
  -- Functions hide constants of the same name, for the checker and for evaluation alike.
  cases function : m.function? name with
  | some f =>
      rw [function] at held
      cases held
      have native : c.native? ⟨m.name, name⟩ = some f := by
        simp [native?, name_of_get? found, found, function]
      refine ⟨Value.all_of_parts_eq rfl ⟨f, native⟩, fun type typed => ?_⟩
      cases typed
      exact ⟨_, f, rfl, native, rfl⟩
  | none =>
      rw [function] at held
      obtain ⟨constant, known, rfl⟩ := Option.map_eq_some_iff.mp held
      have promised := honest.constants found (ScriptModule.constant?_mem known).1
      refine ⟨promised.2, fun type typed => ?_⟩
      simp only [known, Option.map_some, Option.some.injEq] at typed
      exact typed ▸ promised.1

end Catalog.Honest

end ScriptShell
