import ScriptShell.Proofs.Dict
import ScriptShell.Proofs.Evaluation.Blocks

/-! # Which values a run can come by

Values hold values: lists their items, objects their fields, pending calls their arguments.
`Value.parts` lists a value with everything inside it, and `Value.All good` says that all of it is
good. The main results say that evaluation invents nothing: if what modules supply is good
(`Execution.Closed`) and the names hold only good values, then **`eval_all`** every expression has
only good values, functions called on the way included, and **`runBlock_all`** a block leaves only
good values behind. -/

namespace ScriptShell

/-! ## Parts of values -/

mutual

/-- A value and all values inside it. -/
def Value.parts : Value → List Value
  | .null => [.null]
  | .bool value => [.bool value]
  | .num value => [.num value]
  | .str value => [.str value]
  | .list items => .list items :: Value.partsAll items
  | .obj fields => .obj fields :: Value.partsOfFields fields
  | .func ref => [.func ref]
  | .native ref => [.native ref]
  | .module name => [.module name]
  | .pending target args => .pending target args :: Value.partsAll args

/-- All values inside some values, these included. -/
def Value.partsAll : List Value → List Value
  | [] => []
  | v :: rest => v.parts ++ Value.partsAll rest

/-- All values inside some fields. -/
def Value.partsOfFields : List (String × Value) → List Value
  | [] => []
  | (_, v) :: rest => v.parts ++ Value.partsOfFields rest

end

namespace Value

/-- Every part of a value is good. -/
def All (good : Value → Prop) (v : Value) : Prop :=
  ∀ part ∈ v.parts, good part

/-- The parts of a list are those of its items. -/
theorem mem_partsAll {part : Value} {items : List Value} :
    part ∈ partsAll items ↔ ∃ v ∈ items, part ∈ v.parts := by
  induction items with
  | nil => simp [partsAll]
  | cons v rest ih => simp [partsAll, ih]

/-- The parts of fields are those of their values. -/
theorem mem_partsOfFields {part : Value} {fields : List (String × Value)} :
    part ∈ partsOfFields fields ↔ ∃ field ∈ fields, part ∈ field.2.parts := by
  induction fields with
  | nil => simp [partsOfFields]
  | cons field rest ih => simp [partsOfFields, ih]

/-- A value is a part of itself. -/
theorem self_mem_parts (v : Value) : v ∈ v.parts := by
  cases v <;> simp [parts]

variable {good : Value → Prop}

/-- What is good throughout is good. -/
theorem All.self {v : Value} (all : v.All good) : good v :=
  all v v.self_mem_parts

/-- What is good throughout is also good in a weaker sense. -/
theorem All.mono {v : Value} {better : Value → Prop} (all : v.All better)
    (imp : ∀ part, better part → good part) : v.All good :=
  fun part member => imp part (all part member)

/-- What holds of all parts inside some items holds of all parts of each. -/
theorem forall_inside_iff {α : Type} {inner : α → List Value} {items : List α} :
    (∀ part, (∃ v ∈ items, part ∈ inner v) → good part) ↔
      ∀ v ∈ items, ∀ part ∈ inner v, good part := by
  constructor
  · intro all v member part inside
    exact all part ⟨v, member, inside⟩
  · rintro all part ⟨v, member, inside⟩
    exact all v member part inside

/-- All parts of a list are good: the list itself and those of its items. -/
theorem all_list {items : List Value} :
    (Value.list items).All good ↔ good (.list items) ∧ ∀ v ∈ items, v.All good := by
  simp only [All, parts, List.mem_cons, mem_partsAll, forall_eq_or_imp, forall_inside_iff]

/-- All parts of an object are good: the object itself and those of its fields. -/
theorem all_obj {fields : List (String × Value)} :
    (Value.obj fields).All good ↔ good (.obj fields) ∧ ∀ field ∈ fields, field.2.All good := by
  simp only [All, parts, List.mem_cons, mem_partsOfFields, forall_eq_or_imp, forall_inside_iff]

/-- All parts of a pending call are good: the call itself and those of its arguments. -/
theorem all_pending {target : NativeId} {args : List Value} :
    (Value.pending target args).All good ↔
      good (.pending target args) ∧ ∀ v ∈ args, v.All good := by
  simp only [All, parts, List.mem_cons, mem_partsAll, forall_eq_or_imp, forall_inside_iff]

/-- Data: what is not a reference to something declared elsewhere. -/
def isData : Value → Bool
  | .null | .bool _ | .num _ | .str _ | .list _ | .obj _ => true
  | .func _ | .native _ | .module _ | .pending .. => false

/-- A value without parts is good throughout as soon as it is good. -/
theorem all_of_parts_eq {v : Value} (alone : v.parts = [v]) (holds : good v) : v.All good := by
  intro part member
  rw [alone, List.mem_singleton] at member
  rwa [member]

end Value

/-- All values that names hold are good throughout. -/
def Environment.All (good : Value → Prop) (env : Environment) : Prop :=
  ∀ name v, env.get? name = some v → v.All good

namespace Environment

variable {good : Value → Prop}

/-- Without names there is nothing that is not good. -/
theorem all_empty : Environment.All good {} := by
  intro name v held
  cases held

/-- Weaker properties of values. -/
theorem All.mono {env : Environment} {better : Value → Prop} (all : env.All better)
    (imp : ∀ part, better part → good part) : env.All good :=
  fun name v held => (all name v held).mono imp

/-- Putting a good value under a name. -/
theorem All.insert {env : Environment} (all : env.All good) {v : Value} (holds : v.All good)
    (name : String) : Environment.All good (Dict.insert env name v) := by
  intro other v' held
  rw [Dict.get?_insert] at held
  split at held
  · cases held
    exact holds
  · exact all other v' held

/-- Parameters bound to good values. -/
theorem all_ofList {params : List String} {args : List Value} (all : ∀ v ∈ args, v.All good) :
    Environment.All good (Dict.ofList (params.zip args)) := by
  intro name v held
  have member : (name, v) ∈ params.zip args := Dict.mem_of_get?_ofList held
  exact all v (List.of_mem_zip member).2

end Environment

/-! ## Executions that supply only good values -/

/-- The native function of a reference. -/
def Catalog.native? (c : Catalog) (ref : NativeId) : Option NativeFunction :=
  (c.get? ref.module).bind (·.function? ref.name)

/-- What an execution supplies is good: data, the modules it may use, members of modules, and what
native functions make of good arguments. -/
structure Execution.Closed (s : Execution) (good : Value → Prop) : Prop where
  data : ∀ v, v.isData = true → good v
  modules : ∀ name ∈ s.unit.program.modules, good (.module name)
  members : ∀ {module name m v}, s.catalog.get? module = some m → m.member? name = some v →
    v.All good
  replies : ∀ {ref f args v}, s.catalog.native? ref = some f → (∀ a ∈ args, a.All good) →
    (f.body args).result = .value v → v.All good
  pending : ∀ {ref f} args, s.catalog.native? ref = some f → f.isAsync = true →
    good (.pending ref args)

namespace Execution

variable {s : Execution} {good : Value → Prop}

namespace Closed

variable (closed : s.Closed good)

include closed

/-- Data without parts is good throughout. -/
theorem all_data {v : Value} (isData : v.isData = true) (alone : v.parts = [v]) : v.All good :=
  Value.all_of_parts_eq alone (closed.data v isData)

/-- A list of good values. -/
theorem all_items {items : List Value} (all : ∀ v ∈ items, v.All good) :
    (Value.list items).All good :=
  Value.all_list.mpr ⟨closed.data _ rfl, all⟩

/-- The names that are always there hold only data. -/
theorem builtin_all {name : String} {v : Value} (found : s.builtin? name = some v) :
    v.All good := by
  unfold builtin? at found
  -- The arguments are a list of texts, and what describes the run is an object of two fields.
  split at found
  · cases found
    refine closed.all_items fun v member => ?_
    obtain ⟨text, -, rfl⟩ := List.mem_map.mp member
    exact closed.all_data rfl rfl
  · split at found
    · cases found
      refine Value.all_obj.mpr ⟨closed.data _ rfl, fun field member => ?_⟩
      simp only [List.mem_cons, List.not_mem_nil, or_false] at member
      rcases member with rfl | rfl
      · exact closed.all_data rfl rfl
      · exact closed.all_data rfl rfl
    · cases found

/-- Every name stands for a good value. -/
theorem lookup_all {env locals : Environment} (env_all : env.All good)
    (locals_all : locals.All good) {name : String} {v : Value}
    (found : s.lookup? env locals name = some v) : v.All good := by
  unfold lookup? at found
  simp only [Option.or_eq_some_iff] at found
  -- In the order of looking up: parameters, names, what is always there, modules, imports.
  rcases found with found | ⟨-, found | ⟨-, found | ⟨-, found | ⟨-, found⟩⟩⟩⟩
  · exact locals_all name v found
  · exact env_all name v found
  · exact closed.builtin_all found
  · unfold module? at found
    split at found
    · rename_i member
      cases found
      exact Value.all_of_parts_eq rfl (closed.modules name member)
    · cases found
  · unfold imported? at found
    obtain ⟨module, -, found⟩ := List.exists_of_findSome?_eq_some found
    obtain ⟨m, known, member⟩ := Option.bind_eq_some_iff.mp found
    exact closed.members known member

/-! ## Steps of evaluation -/

/-- Members of good values are good. -/
theorem memberOf_all {object : Value} (all : object.All good) (property : String) :
    (s.memberOf object property).Ensures (·.All good) fun _ => True := by
  unfold memberOf
  split
  · unfold memberValue
    split
    · exact .fail trivial
    · rename_i m known
      split
      · rename_i v member
        exact .pure (closed.members known member)
      · exact .fail trivial
  · rename_i fields
    split
    · rename_i v found
      obtain ⟨before, after, split, -⟩ := List.lookup_eq_some_iff.mp found
      exact .pure ((Value.all_obj.mp all).2 (property, v) (by simp [split]))
    · exact .fail trivial
  · exact .fail trivial

/-- Native functions answer good values to good arguments. -/
theorem callNative_all {ref : NativeId} {args : List Value} (all : ∀ a ∈ args, a.All good) :
    (s.callNative ref args).Ensures (·.All good) fun _ => True := by
  unfold callNative
  split
  · exact .fail trivial
  · rename_i f known
    split
    · rename_i isAsync
      exact .pure (Value.all_pending.mpr ⟨closed.pending args known isAsync, all⟩)
    · exact .perform (fun v result => closed.replies known all result) (fun _ _ => trivial) trivial

/-- Calls with good arguments have good results, if bodies have. -/
theorem call_all {evalBody : Environment → Expr → Run Value}
    (bodies : ∀ locals body, locals.All good →
      (evalBody locals body).Ensures (·.All good) fun _ => True)
    (callee : Value) {args : List Value} (all : ∀ a ∈ args, a.All good) :
    (s.call evalBody callee args).Ensures (·.All good) fun _ => True := by
  unfold call
  -- A function of a script, a native one, or nothing that can be called.
  split
  · split
    · exact .fail trivial
    · split
      · exact bodies _ _ (Environment.all_ofList all)
      · exact .fail trivial
  · exact closed.callNative_all all
  · exact .fail trivial

/-- Awaiting a good value has a good result. -/
theorem await_all {v : Value} (all : v.All good) :
    (s.await v).Ensures (·.All good) fun _ => True := by
  unfold await
  split
  · rename_i target args
    split
    · exact .fail trivial
    · rename_i f known
      have found : s.catalog.native? target = some f := (Option.filter_eq_some_iff.mp known).1
      refine .bind (.note _ trivial) fun _ _ => .poll ?_ trivial trivial _
      exact .perform (fun v result => closed.replies found (Value.all_pending.mp all).2 result)
        (fun _ _ => trivial) trivial
  · exact .pure all

/-- Prefix operators have good results on good operands. -/
theorem applyUnary_all (op : UnaryOp) {v : Value} (all : v.All good) :
    (s.applyUnary op v).Ensures (·.All good) fun _ => True := by
  unfold applyUnary
  split
  · exact .pure (closed.all_data rfl rfl)
  · exact .fail trivial
  · exact .pure (closed.all_data rfl rfl)
  · exact closed.await_all all

/-- An operator between good values has good results: it joins lists and otherwise makes numbers,
strings and truth values. -/
theorem apply_all (op : BinaryOp) {left right : Value} (left_all : left.All good)
    (right_all : right.All good) :
    (ofResult (op.apply left right)).Ensures (·.All good) fun _ => True := by
  have numbers : ∀ x y, (ofResult (op.onNumbers x y)).Ensures (·.All good) fun _ => True := by
    intro x y
    unfold BinaryOp.onNumbers
    split
    case h_4 | h_5 =>
      split
      · exact .throw trivial
      · exact .pure (closed.all_data rfl rfl)
    case h_10 => exact .throw trivial
    all_goals exact .pure (closed.all_data rfl rfl)
  have strings : ∀ x y, (ofResult (op.onStrings x y)).Ensures (·.All good) fun _ => True := by
    intro x y
    unfold BinaryOp.onStrings
    split
    case h_6 => exact .throw trivial
    all_goals exact .pure (closed.all_data rfl rfl)
  unfold BinaryOp.apply
  split
  · exact .pure (closed.all_data rfl rfl)
  · exact .pure (closed.all_data rfl rfl)
  · exact numbers _ _
  -- Two lists joined: every item comes from one of them.
  · refine .pure (closed.all_items fun v member => ?_)
    rcases List.mem_append.mp member with member | member
    · exact (Value.all_list.mp left_all).2 v member
    · exact (Value.all_list.mp right_all).2 v member
  · exact strings _ _
  · exact .pure (closed.all_data rfl rfl)
  · exact .pure (closed.all_data rfl rfl)
  · exact .throw trivial

end Closed

/-! ## Whole expressions and blocks -/

/-- An operator between two operands. It applies to their values, unless it is a connective: then
the second operand is evaluated only if the first one does not decide, and the result is a truth
value. -/
theorem evalStep_binary_ensures {env : Environment} {eval : Environment → Expr → Run Value}
    {locals : Environment} {op : BinaryOp} {left right : Expr} {span : Span}
    {first second value : Value → Prop} {stop : Stop → Prop}
    (evalLeft : (eval locals left).Ensures first stop)
    (evalRight : (eval locals right).Ensures second stop)
    (truths : op = .and ∨ op = .or → ∀ b, value (.bool b))
    (applied : op ≠ .and → op ≠ .or → ∀ l r, first l → second r →
      (ofResult (op.apply l r)).Ensures value stop) :
    (s.evalStep env eval locals (.binary op left right span)).Ensures value stop := by
  cases op with
  | and =>
      refine .bind evalLeft fun l _ => ?_
      split
      · exact .bind evalRight fun r _ => .pure (truths (.inl rfl) _)
      · exact .pure (truths (.inl rfl) _)
  | or =>
      refine .bind evalLeft fun l _ => ?_
      split
      · exact .pure (truths (.inr rfl) _)
      · exact .bind evalRight fun r _ => .pure (truths (.inr rfl) _)
  | add | sub | mul | div | mod | eq | ne | lt | lte | gt | gte =>
      refine .bind evalLeft fun l holds => .bind evalRight fun r holds' => ?_
      exact applied (by decide) (by decide) l r holds holds'

/-- **Evaluation invents no values.** Where names and modules supply only good values, every
expression has only good values. -/
theorem eval_all (closed : s.Closed good) {env : Environment} (env_all : env.All good) (room : Nat)
    {locals : Environment} (locals_all : locals.All good) (e : Expr) :
    (s.eval env room locals e).Ensures (·.All good) fun _ => True := by
  -- The levels still to be opened carry the induction: a call may evaluate any body, but one level
  -- below.
  induction room generalizing locals e with
  | zero => exact .fail trivial
  | succ room ih =>
      have items : ∀ es : List Expr,
          (evalItems (s.eval env room locals) es).Ensures (fun vs => ∀ v ∈ vs, v.All good)
            fun _ => True :=
        fun es => (evalItems_ensures es fun e _ => ih locals_all e).value_mono fun _ all => all.2
      show (s.evalStep env (s.eval env room) locals e).Ensures _ _
      cases e with
      | num | str | bool | null => exact .pure (closed.all_data rfl rfl)
      | list es => exact .bind (items es) fun _ all => .pure (closed.all_items all)
      | ident name =>
          simp only [evalStep]
          split
          · rename_i v found
            exact .pure (closed.lookup_all env_all locals_all found)
          · exact .fail trivial
      | member object property =>
          exact .bind (ih locals_all object) fun v all => closed.memberOf_all all property
      | call callee args =>
          refine .bind (ih locals_all callee) fun f _ => ?_
          refine .bind (items args) fun vs all => ?_
          exact closed.call_all (fun locals body all => ih all body) f all
      | unary op operand =>
          exact .bind (ih locals_all operand) fun v all => closed.applyUnary_all op all
      | binary op left right span =>
          refine evalStep_binary_ensures (ih locals_all left) (ih locals_all right)
            (fun _ _ => closed.all_data rfl rfl) fun _ _ l r left_all right_all => ?_
          exact closed.apply_all op left_all right_all

/-- **Running invents no values.** A block leaves only good values behind, provided that the
functions it declares are good. -/
theorem runBlock_all (closed : s.Closed good) (rounds room : Nat) {env : Environment}
    (env_all : env.All good) (stmts : List Stmt)
    (functions : ∀ name params body span, .define name params body span ∈ Stmt.partsAll stmts →
      good (.func ⟨name, s.unit.id⟩)) :
    (s.runBlock rounds room env stmts).Ensures (fun r => r.1.All good ∧ r.2.All good)
      fun _ => True := by
  have rule : s.Keeps (Environment.All good) (·.All good) (fun _ => True) (Stmt.partsAll stmts) :=
    { null := closed.all_data rfl rfl
      functions := fun member => Value.all_of_parts_eq rfl (functions _ _ _ _ member)
      insert := fun _ all holds => all.insert holds _
      evals := fun room _ _ all _ _ => eval_all closed all room Environment.all_empty _
      levels := .fail trivial
      cancelled := trivial
      unfinished := trivial }
  exact rule.runBlock rounds room env_all

end Execution

end ScriptShell
