import Mathlib.Data.List.Perm.Basic
import ScriptShell.Module.Standard
import ScriptShell.Proofs.Syntax.Parts
import ScriptShell.Proofs.Typing.Places

/-! # Types do not depend on order

Accepting is reflexive and symmetric, and joining is commutative, associative and idempotent, with
`any` on top. So what many types join to does not depend on their order (**`joined?_perm`**): the
type of a list is that of the list with its items in another order, and the type of a name after
assignments that know nothing of one another is that after the same assignments in another order
(**`types_reordered`**). -/

namespace ScriptShell

/-! ## Laws of types -/

namespace Ty

/-- Every type accepts values of any type. -/
theorem accepts_any (a : Ty) : a.accepts .any = true := by
  cases a <;> rfl

/-- The type of anything accepts every type. -/
theorem any_accepts (a : Ty) : Ty.any.accepts a = true := by
  cases a <;> rfl

/-- A type accepts itself. -/
theorem accepts_self (a : Ty) : a.accepts a = true := by
  match a with
  | .list item => exact accepts_self item
  | .future item => exact accepts_self item
  | .num | .str | .bool | .null | .void | .any | .fn .. => rfl
  | .module name => exact decide_eq_true rfl

/-- Accepting goes both ways. -/
theorem accepts_comm (a b : Ty) : a.accepts b = b.accepts a := by
  fun_induction accepts a b with
  | case1 b => exact (accepts_any b).symm
  | case2 a => exact (any_accepts a).symm
  | case3 a b ih => exact ih
  | case4 a b ih => exact ih
  | case5 => rfl
  -- Two types that are neither `any` nor of one form: they have to be the same.
  | case6 a b notAny notAny' notLists notFutures notFns =>
      rw [accepts]
      · exact decide_eq_decide.mpr eq_comm
      · exact notAny'
      · exact notAny
      · exact fun item item' isList isList' => notLists item' item isList' isList
      · exact fun item item' isFuture isFuture' => notFutures item' item isFuture' isFuture
      · exact fun _ _ _ _ _ _ isFn isFn' => notFns _ _ _ _ _ _ isFn' isFn

@[simp] theorem join_self (a : Ty) : a.join a = a :=
  if_pos rfl

@[simp] theorem join_any (a : Ty) : a.join .any = .any := by
  unfold join
  split
  · assumption
  · rfl

/-- The order of two types does not matter to their join. -/
theorem join_comm (a b : Ty) : a.join b = b.join a := by
  by_cases same : a = b
  · rw [same]
  · rw [join, if_neg same, join, if_neg (Ne.symm same)]

@[simp] theorem any_join (a : Ty) : Ty.any.join a = .any := by
  rw [join_comm, join_any]

/-- The grouping of three types does not matter to their join. -/
theorem join_assoc (a b c : Ty) : (a.join b).join c = a.join (b.join c) := by
  by_cases first : a = b
  · subst first
    by_cases second : a = c
    · subst second
      simp
    · have top : a.join c = .any := if_neg second
      rw [join_self, top, join_any]
  · have top : a.join b = .any := if_neg first
    rw [top, any_join]
    by_cases second : b = c
    · rw [second, join_self, ← second, top]
    · have top' : b.join c = .any := if_neg second
      rw [top', join_any]

/-- A join is one of the types or `any`. -/
theorem join_cases (a b : Ty) : a.join b = a ∨ a.join b = .any := by
  unfold join
  split
  · exact .inl rfl
  · exact .inr rfl

/-- A join accepts what one of the types does. -/
theorem join_accepts_of_accepts {a c : Ty} (accepts : a.accepts c = true) (b : Ty) :
    (a.join b).accepts c = true := by
  rcases a.join_cases b with same | top
  · rwa [same]
  · rw [top]
    exact any_accepts c

/-- A join accepts its first type. -/
theorem join_accepts_left (a b : Ty) : (a.join b).accepts a = true :=
  join_accepts_of_accepts a.accepts_self b

/-- A join accepts its second type. -/
theorem join_accepts_right (a b : Ty) : (a.join b).accepts b = true := by
  rw [join_comm]
  exact b.join_accepts_left a

instance : Std.Commutative join :=
  ⟨join_comm⟩

instance : Std.Associative join :=
  ⟨join_assoc⟩

/-! ## Joining many types -/

/-- What types join to, if there are any. -/
def joined? : List Ty → Option Ty
  | [] => none
  | t :: ts => some (ts.foldl join t)

/-- The join of several types, if there are any. -/
theorem joinAll_eq (ts : List Ty) : joinAll ts = (joined? ts).getD .any := by
  cases ts <;> rfl

/-- **What types join to does not depend on their order.** -/
theorem joined?_perm {ts us : List Ty} (reordered : ts.Perm us) : joined? ts = joined? us := by
  induction reordered with
  | nil => rfl
  | cons t others => exact congrArg some others.foldl_op_eq
  | swap t u ts => rw [joined?, joined?, List.foldl_cons, List.foldl_cons, join_comm]
  | trans _ _ first second => exact first.trans second

end Ty

/-! ## Expressions without places -/

namespace Expr

/-- Without places, several expressions are each without places. -/
theorem bareAll_eq_map (items : List Expr) : bareAll items = items.map bare := by
  induction items with
  | nil => rfl
  | cons e rest ih => rw [bareAll, ih, List.map_cons]

mutual

/-- The parts of an expression without places are its parts without places. -/
theorem parts_bare (e : Expr) : e.bare.parts = e.parts.map bare := by
  cases e with
  | num | str | bool | null | ident => rfl
  | list items => simp only [bare, parts, List.map_cons, partsAll_bareAll items]
  | member object => simp only [bare, parts, List.map_cons, parts_bare object]
  | call callee args =>
      simp only [bare, parts, List.map_cons, List.map_append, parts_bare callee,
        partsAll_bareAll args]
  | unary op operand => simp only [bare, parts, List.map_cons, parts_bare operand]
  | binary op left right =>
      simp only [bare, parts, List.map_cons, List.map_append, parts_bare left, parts_bare right]

/-- The parts of several expressions without places are their parts without places. -/
theorem partsAll_bareAll (items : List Expr) :
    partsAll (bareAll items) = (partsAll items).map bare := by
  cases items with
  | nil => rfl
  | cons e rest =>
      simp only [bareAll, partsAll, List.map_append, parts_bare e, partsAll_bareAll rest]

end

/-- The names in an expression are those in it without places. -/
theorem mentions_bare {e : Expr} {name : String} : e.bare.Mentions name ↔ e.Mentions name := by
  unfold Mentions
  rw [parts_bare]
  constructor
  · rintro ⟨span, member⟩
    obtain ⟨part, inside, isIdent⟩ := List.mem_map.mp member
    cases part with
    | ident other span' =>
        cases isIdent
        exact ⟨span', inside⟩
    | _ => cases isIdent
  · rintro ⟨span, member⟩
    exact ⟨default, List.mem_map.mpr ⟨_, member, rfl⟩⟩

/-- What an operand mentions is mentioned by the whole. -/
theorem mentions_of_mem_operands {e operand : Expr} {name : String} (member : operand ∈ e.operands)
    (mentions : operand.Mentions name) : e.Mentions name :=
  mentions.imp fun _ inside => parts_of_mem_operands member _ inside

end Expr

/-! ## Types of values -/

namespace Scope

/-- The type of an expression where a value is wanted. -/
def valueType (s : Scope) (e : Expr) : Ty :=
  if (s.infer e).type.isVoid then .any else (s.infer e).type

variable (s : Scope)

/-- The type of an expression that is used as a value. -/
theorem type_asValue (e : Expr) (span : Span) :
    ((s.infer e).asValue span).type = s.valueType e := by
  unfold Typed.asValue valueType
  split <;> rfl

/-- The type of a name that is bound to a value. -/
theorem type_typeToBind (name : String) (value : Expr) (span : Span) :
    (s.typeToBind name value span).type = s.valueType value := by
  simp only [typeToBind, valueType]
  split <;> rfl

/-- The types of several expressions are those of each. -/
theorem types_inferAll (items : List Expr) : (s.inferAll items).1 = items.map s.valueType := by
  induction items with
  | nil => rfl
  | cons e rest ih => rw [inferAll, ih, type_asValue, List.map_cons]

/-- The type of an expression does not depend on its places. -/
theorem valueType_bare (e : Expr) : s.valueType e.bare = s.valueType e := by
  rw [← Expr.mapSpan_default, valueType, valueType, (s.infer_mapSpan _ e).type]

/-- The types of several expressions do not depend on their places. -/
theorem map_valueType_bareAll (items : List Expr) :
    (Expr.bareAll items).map s.valueType = items.map s.valueType := by
  rw [Expr.bareAll_eq_map, List.map_map]
  exact List.map_congr_left fun e _ => s.valueType_bare e

/-- The type of a list does not depend on the order of its items. -/
theorem type_list_perm {items items' : List Expr}
    (reordered : (Expr.bareAll items).Perm (Expr.bareAll items')) (span span' : Span) :
    (s.infer (.list items span)).type = (s.infer (.list items' span')).type := by
  have types : (items.map s.valueType).Perm (items'.map s.valueType) := by
    rw [← s.map_valueType_bareAll items, ← s.map_valueType_bareAll items']
    exact reordered.map s.valueType
  simp only [infer, types_inferAll, Ty.joinAll_eq, Ty.joined?_perm types]

/-! ## Scopes that agree on names -/

variable {s} {s' : Scope}

mutual

/-- The type of an expression depends only on the catalog and on the names in the expression. -/
theorem infer_of_agree (catalog : s'.catalog = s.catalog) (e : Expr)
    (agree : ∀ name, e.Mentions name → s'.typeOf? name = s.typeOf? name) :
    s'.infer e = s.infer e := by
  have inside : ∀ operand ∈ e.operands, ∀ name, operand.Mentions name →
      s'.typeOf? name = s.typeOf? name :=
    fun operand member name mentions =>
      agree name (Expr.mentions_of_mem_operands member mentions)
  cases e with
  | num | str | bool | null => rfl
  | list items => rw [infer, infer, inferAll_of_agree catalog items inside]
  | ident name span =>
      have typed := agree name ⟨span, List.mem_singleton_self _⟩
      simp only [infer, typeOfName, unavailable, typed, catalog]
  | member object property span =>
      simp only [infer, infer_of_agree catalog object (inside object (List.mem_singleton_self _)),
        typeOfMember, catalog]
  | call callee args span =>
      simp only [infer, infer_of_agree catalog callee (inside callee List.mem_cons_self),
        inferAll_of_agree catalog args fun e member => inside e (List.mem_cons_of_mem _ member)]
  | unary op operand span =>
      simp only [infer, infer_of_agree catalog operand (inside operand (List.mem_singleton_self _))]
  | binary op left right span =>
      simp only [infer, infer_of_agree catalog left (inside left List.mem_cons_self),
        infer_of_agree catalog right (inside right (by simp [Expr.operands]))]

/-- Scopes that agree on the names that are mentioned give the same types and problems. -/
theorem inferAll_of_agree (catalog : s'.catalog = s.catalog) (items : List Expr)
    (agree : ∀ e ∈ items, ∀ name, e.Mentions name → s'.typeOf? name = s.typeOf? name) :
    s'.inferAll items = s.inferAll items := by
  cases items with
  | nil => rfl
  | cons e rest =>
      simp only [inferAll, infer_of_agree catalog e (agree e List.mem_cons_self),
        inferAll_of_agree catalog rest fun e member => agree e (List.mem_cons_of_mem _ member)]

end

/-- Scopes that agree on the names that are mentioned give the same type. -/
theorem valueType_of_agree (catalog : s'.catalog = s.catalog) {e : Expr}
    (agree : ∀ name, e.Mentions name → s'.typeOf? name = s.typeOf? name) :
    s'.valueType e = s.valueType e := by
  rw [valueType, valueType, infer_of_agree catalog e agree]

/-- Names other than one that is given a type keep theirs. -/
theorem typeOf?_insert {name other : String} (ne : other ≠ name) (type : Ty) :
    (s.withBindings (s.bindings.insert name type)).typeOf? other = s.typeOf? other := by
  unfold typeOf?
  rw [show (s.withBindings (s.bindings.insert name type)).bindings.get? other =
    s.bindings.get? other from s.bindings.get?_insert_of_ne ne type]
  rfl

end Scope

/-! ## Assignments -/

/-- A plain assignment. -/
structure Assignment where
  name : String
  value : Expr
  span : Span

namespace Assignment

/-- The statement of an assignment. -/
def stmt (a : Assignment) : Stmt :=
  .assign a.name a.value a.span

/-- The name and the value of an assignment, without places. -/
def bare (a : Assignment) : String × Expr :=
  (a.name, a.value.bare)

/-- No value mentions a name that is assigned. -/
def Independent (series : List Assignment) : Prop :=
  ∀ a ∈ series, ∀ b ∈ series, ¬ a.value.Mentions b.name

instance : DecidablePred Independent := fun series =>
  inferInstanceAs (Decidable (∀ a ∈ series, ∀ b ∈ series, ¬ a.value.Mentions b.name))

variable {series series' : List Assignment}

/-- Independent assignments stay so in every order. -/
theorem Independent.of_perm (independent : Independent series)
    (reordered : (series.map bare).Perm (series'.map bare)) : Independent series' := by
  have found : ∀ a ∈ series', ∃ a' ∈ series, a'.bare = a.bare := fun a member =>
    List.mem_map.mp (reordered.mem_iff.mpr (List.mem_map_of_mem member))
  intro a isFirst b isSecond mentions
  obtain ⟨a', isFirst', sameFirst⟩ := found a isFirst
  obtain ⟨b', isSecond', sameSecond⟩ := found b isSecond
  obtain ⟨-, sameValue⟩ := Prod.ext_iff.mp sameFirst
  obtain ⟨sameName, -⟩ := Prod.ext_iff.mp sameSecond
  refine independent a' isFirst' b' isSecond' (Expr.mentions_bare.mp ?_)
  rw [show b'.name = b.name from sameName, show a'.value.bare = a.value.bare from sameValue]
  exact Expr.mentions_bare.mpr mentions

end Assignment

namespace Scope

/-- The types of the values that a series of assignments gives to a name. -/
def typesGiven (s : Scope) (name : String) (series : List Assignment) : List Ty :=
  series.filterMap fun a => if a.name = name then some (s.valueType a.value) else none

variable {s s' : Scope} {name : String} {series series' : List Assignment}

/-- The types that a name is given are the same in every order. -/
theorem typesGiven_perm (reordered : (series.map (·.bare)).Perm (series'.map (·.bare))) :
    (s.typesGiven name series).Perm (s.typesGiven name series') := by
  have ofBare : ∀ series, s.typesGiven name series = (series.map (·.bare)).filterMap
      fun given => if given.1 = name then some (s.valueType given.2) else none := by
    intro series
    rw [typesGiven, List.filterMap_map]
    congr 1
    funext a
    simp only [Function.comp, Assignment.bare, valueType_bare]
  rw [ofBare, ofBare]
  exact reordered.filterMap _

/-- Assigning to a name that no value mentions leaves the types of the values alone. -/
theorem typesGiven_insert {other : String} {type : Ty}
    (unmentioned : ∀ a ∈ series, ¬ a.value.Mentions other) :
    (s.withBindings (s.bindings.insert other type)).typesGiven name series =
      s.typesGiven name series := by
  refine List.filterMap_congr fun a member => ?_
  have same : (s.withBindings (s.bindings.insert other type)).valueType a.value =
      s.valueType a.value := by
    refine valueType_of_agree ?_ fun mentioned mentions => typeOf?_insert ?_ type
    · rfl
    · rintro rfl
      exact unmentioned a member mentions
  rw [same]

/-- After independent assignments a name has what its type and the types it was given join to. -/
theorem get?_checkAll_assignments (independent : Assignment.Independent series) :
    (s.checkAll (series.map (·.stmt))).bindings.get? name =
      Ty.joined? ((s.bindings.get? name).toList ++ s.typesGiven name series) := by
  induction series generalizing s with
  | nil =>
      rw [typesGiven, List.filterMap_nil, List.append_nil]
      cases held : s.bindings.get? name <;> exact held
  | cons a rest ih =>
      have later : Assignment.Independent rest := fun b isFirst b' isSecond =>
        independent b (List.mem_cons_of_mem a isFirst) b' (List.mem_cons_of_mem a isSecond)
      -- The first assignment gives a type to a name that no later value reads.
      have unmentioned : ∀ b ∈ rest, ¬ b.value.Mentions a.name := fun b member =>
        independent b (List.mem_cons_of_mem a member) a List.mem_cons_self
      rw [List.map_cons, Assignment.stmt, checkAll]
      simp only [check, type_typeToBind]
      rw [ih later, typesGiven_insert unmentioned]
      by_cases same : a.name = name
      · subst same
        have given : s.typesGiven a.name (a :: rest) =
            s.valueType a.value :: s.typesGiven a.name rest := by simp [typesGiven]
        rw [given, withBindings, Dict.get?_insert_self, assignedType]
        cases s.bindings.get? a.name <;> rfl
      · have given : s.typesGiven name (a :: rest) = s.typesGiven name rest := by
          simp [typesGiven, same]
        rw [given, withBindings, Dict.get?_insert_of_ne _ (Ne.symm same)]

/-- The types of names after independent assignments do not depend on the order of these. -/
theorem get?_checkAll_perm (independent : Assignment.Independent series)
    (reordered : (series.map (·.bare)).Perm (series'.map (·.bare))) :
    (s.checkAll (series.map (·.stmt))).bindings.get? name =
      (s.checkAll (series'.map (·.stmt))).bindings.get? name := by
  rw [get?_checkAll_assignments independent,
    get?_checkAll_assignments (independent.of_perm reordered)]
  exact Ty.joined?_perm ((typesGiven_perm reordered).append_left _)

/-- **Types do not depend on order.** Accepting is reflexive and symmetric; joining is commutative,
associative and idempotent, `any` is on top, and a join accepts all that its parts do. So a list has
the type of every list with the same items, up to places, in another order; and after assignments
whose values mention no assigned name every name has the type that it has after the same assignments
in another order. -/
theorem types_reordered :
    (∀ a : Ty, a.accepts a = true) ∧ (∀ a b : Ty, a.accepts b = b.accepts a) ∧
      (∀ a b : Ty, a.join b = b.join a) ∧
      (∀ a b c : Ty, (a.join b).join c = a.join (b.join c)) ∧ (∀ a : Ty, a.join a = a) ∧
      (∀ a : Ty, a.join .any = .any ∧ Ty.any.join a = .any ∧ Ty.any.accepts a = true) ∧
      (∀ a b : Ty, (a.join b).accepts a = true ∧ (a.join b).accepts b = true ∧
        ∀ c : Ty, a.accepts c = true → (a.join b).accepts c = true) ∧
      (∀ (s : Scope) (items items' : List Expr) (span span' : Span),
        (Expr.bareAll items).Perm (Expr.bareAll items') →
          (s.infer (.list items span)).type = (s.infer (.list items' span')).type) ∧
      ∀ (s : Scope) (series series' : List Assignment), Assignment.Independent series →
        (series.map (·.bare)).Perm (series'.map (·.bare)) → ∀ name,
          (s.checkAll (series.map (·.stmt))).bindings.get? name =
            (s.checkAll (series'.map (·.stmt))).bindings.get? name :=
  ⟨Ty.accepts_self, Ty.accepts_comm, Ty.join_comm, Ty.join_assoc, Ty.join_self,
    fun a => ⟨a.join_any, a.any_join, a.any_accepts⟩,
    fun a b => ⟨a.join_accepts_left b, a.join_accepts_right b,
      fun _ accepts => Ty.join_accepts_of_accepts accepts b⟩,
    fun s _ _ span span' reordered => s.type_list_perm reordered span span',
    fun _ _ _ independent reordered _ => get?_checkAll_perm independent reordered⟩

/-- A scope in which `x` is a number and `z` a text. -/
def twoNames : Scope where
  catalog := .standard
  modules := []
  imports := []
  bindings := .ofList [("x", .num), ("z", .str)]

/-- The list `[1, "a"]` has the type of `["a", 1]`; and a number that gets a text and then a truth
value, with another name in between, has the type it has when it gets them the other way round. -/
theorem types_reordered_mixed :
    (Expr.bareAll [.num 1 ⟨1, 2, 0, 1⟩, .str "a" ⟨4, 7, 0, 4⟩]).Perm
        (Expr.bareAll [.str "a" ⟨1, 4, 0, 1⟩, .num 1 ⟨6, 7, 0, 6⟩]) ∧
      (twoNames.infer (.list [.num 1 ⟨1, 2, 0, 1⟩, .str "a" ⟨4, 7, 0, 4⟩] ⟨0, 8, 0, 0⟩)).type =
        (twoNames.infer (.list [.str "a" ⟨1, 4, 0, 1⟩, .num 1 ⟨6, 7, 0, 6⟩] ⟨0, 8, 0, 0⟩)).type ∧
      Assignment.Independent [⟨"x", .ident "z" ⟨4, 5, 0, 4⟩, ⟨0, 5, 0, 0⟩⟩,
        ⟨"y", .null ⟨10, 14, 1, 4⟩, ⟨6, 14, 1, 0⟩⟩,
        ⟨"x", .bool true ⟨19, 23, 2, 4⟩, ⟨15, 23, 2, 0⟩⟩] ∧
      (twoNames.checkAll [.assign "x" (.ident "z" ⟨4, 5, 0, 4⟩) ⟨0, 5, 0, 0⟩,
          .assign "y" (.null ⟨10, 14, 1, 4⟩) ⟨6, 14, 1, 0⟩,
          .assign "x" (.bool true ⟨19, 23, 2, 4⟩) ⟨15, 23, 2, 0⟩]).bindings.get? "x" =
        (twoNames.checkAll [.assign "x" (.bool true ⟨4, 8, 0, 4⟩) ⟨0, 8, 0, 0⟩,
          .assign "y" (.null ⟨13, 17, 1, 4⟩) ⟨9, 17, 1, 0⟩,
          .assign "x" (.ident "z" ⟨22, 23, 2, 4⟩) ⟨18, 23, 2, 0⟩]).bindings.get? "x" := by
  have swapped : (Expr.bareAll [.num 1 ⟨1, 2, 0, 1⟩, .str "a" ⟨4, 7, 0, 4⟩]).Perm
      (Expr.bareAll [.str "a" ⟨1, 4, 0, 1⟩, .num 1 ⟨6, 7, 0, 6⟩]) := .swap _ _ []
  have independent : Assignment.Independent [⟨"x", .ident "z" ⟨4, 5, 0, 4⟩, ⟨0, 5, 0, 0⟩⟩,
      ⟨"y", .null ⟨10, 14, 1, 4⟩, ⟨6, 14, 1, 0⟩⟩,
      ⟨"x", .bool true ⟨19, 23, 2, 4⟩, ⟨15, 23, 2, 0⟩⟩] := by decide
  obtain ⟨-, -, -, -, -, -, -, lists, assignments⟩ := types_reordered
  exact ⟨swapped, lists _ _ _ _ _ swapped, independent,
    assignments _ _ [⟨"x", .bool true ⟨4, 8, 0, 4⟩, ⟨0, 8, 0, 0⟩⟩,
      ⟨"y", .null ⟨13, 17, 1, 4⟩, ⟨9, 17, 1, 0⟩⟩,
      ⟨"x", .ident "z" ⟨22, 23, 2, 4⟩, ⟨18, 23, 2, 0⟩⟩] independent
      (List.reverse_perm _).symm "x"⟩

end Scope

end ScriptShell
