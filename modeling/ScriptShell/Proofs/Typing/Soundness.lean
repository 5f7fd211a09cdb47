import ScriptShell.Proofs.Typing.Operators
import ScriptShell.Session.Compile

/-! # The checker is right about expressions

`Scope.infer` and `Execution.eval` are two separate readings of an expression. Over an honest
catalog they agree: **`eval_inhabits`** says that an expression without problems has, if it has a
value at all, a value of the type that was inferred, and that it stops with an error of a shape only
if the type of one of its parts is `any`. There is one lemma for each step of evaluation, about the
types and values of the operands only; the induction puts them together. -/

namespace ScriptShell

/-! ## What an expression without problems is made of -/

namespace Typed

/-- What must be a value and has no problem is what it was. -/
theorem asValue_clean {t : Typed} {span : Span} (clean : (t.asValue span).problems = []) :
    t.asValue span = t := by
  unfold asValue at clean ⊢
  split
  · rename_i isVoid
    rw [if_pos isVoid] at clean
    simp at clean
  · rfl

end Typed

namespace Scope

variable (s : Scope)

/-- Some part of an expression has the type `any`. -/
def Loose (e : Expr) : Prop :=
  ∃ part ∈ e.parts, (s.infer part).type = .any

variable {s}

/-- An expression of any type is loose. -/
theorem Loose.of_any {e : Expr} (any : (s.infer e).type = .any) : s.Loose e :=
  ⟨e, e.self_mem_parts, any⟩

/-- An expression with a loose part is loose. -/
theorem Loose.mono {e whole : Expr} (inside : ∀ part ∈ e.parts, part ∈ whole.parts)
    (loose : s.Loose e) : s.Loose whole := by
  obtain ⟨part, member, any⟩ := loose
  exact ⟨part, inside part member, any⟩

/-- Expressions that must be values and have no problems: each of them has none, and its type is
among the types. -/
theorem inferAll_clean {items : List Expr} (clean : (s.inferAll items).2 = []) :
    ∀ e ∈ items, (s.infer e).problems = [] ∧ (s.infer e).type ∈ (s.inferAll items).1 := by
  induction items with
  | nil =>
      intro e member
      cases member
  | cons first rest ih =>
      simp only [inferAll, List.append_eq_nil_iff] at clean ⊢
      have same := Typed.asValue_clean clean.1
      rw [same] at clean ⊢
      intro e member
      rcases List.mem_cons.mp member with rfl | member
      · exact ⟨clean.1, by simp⟩
      · obtain ⟨none, typed⟩ := ih clean.2 e member
        exact ⟨none, List.mem_cons_of_mem _ typed⟩

/-- A value that was given a name without problems has the type it was inferred to have. -/
theorem typeToBind_clean {s : Scope} {name : String} {value : Expr} {span : Span}
    (clean : (s.typeToBind name value span).problems = []) :
    s.typeToBind name value span = s.infer value := by
  unfold typeToBind at clean ⊢
  dsimp only at clean ⊢
  split
  · rename_i isVoid
    rw [if_pos isVoid] at clean
    simp at clean
  · rfl

/-- There is one type for each expression. -/
theorem length_inferAll (items : List Expr) : (s.inferAll items).1.length = items.length := by
  induction items with
  | nil => rfl
  | cons first rest ih => simp [inferAll, ih]

end Scope

/-! ## Steps of evaluation -/

namespace Execution

/-- What a run checks its expressions in: the modules and imports of its unit, and some names. -/
def scope (s : Execution) (bindings : Dict Ty) : Scope :=
  (s.unit.program.scope s.catalog).withBindings bindings

variable {s : Execution}

/-- What modules supply is known, as long as the modules that a unit uses are there. -/
theorem closed_known (honest : s.catalog.Honest)
    (modules : ∀ name ∈ s.unit.program.modules, ∃ m, s.catalog.get? name = some m) :
    s.Closed (Value.Known s.catalog) where
  data v isData := by
    cases v with
    | null | bool | num | str | list | obj => trivial
    | func | native | module | pending => cases isData
  modules := modules
  members found held := (honest.member found held).1
  replies native known result := (honest.functions native).known known result
  pending _ native isAsync := ⟨_, native, isAsync⟩

/-- The names that are always there have values of their types. -/
theorem builtin_inhabits (s : Execution) {name : String} {type : Ty}
    (typed : Scope.builtin? name = some type) :
    ∃ v, s.builtin? name = some v ∧ v.Inhabits s.catalog type := by
  unfold Scope.builtin? at typed
  unfold builtin?
  split at typed
  · rename_i isArgs
    cases typed
    refine ⟨_, if_pos isArgs, _, rfl, fun v member => ?_⟩
    obtain ⟨text, -, rfl⟩ := List.mem_map.mp member
    exact ⟨text, rfl⟩
  · rename_i notArgs
    rw [if_neg notArgs]
    split at typed
    · rename_i isRuntime
      cases typed
      exact ⟨_, if_pos isRuntime, trivial⟩
    · cases typed

/-- A name that has no type from the start has no value from the start. -/
theorem builtin?_eq_none {name : String} (untyped : Scope.builtin? name = none) :
    s.builtin? name = none := by
  unfold Scope.builtin? at untyped
  unfold builtin?
  split at untyped
  · cases untyped
  · rename_i notArgs
    rw [if_neg notArgs]
    split at untyped
    · cases untyped
    · rename_i notRuntime
      exact if_neg notRuntime

/-- An imported name that has a type has a value of that type. Imports that are not loaded make no
difference, although the checker passes them over and evaluation does not, since no two modules have
members of one name. -/
theorem imported_inhabits (honest : s.catalog.Honest) {bindings : Dict Ty} {name : String}
    {type : Ty} (typed : (s.scope bindings).imported? name = some type) :
    ∃ v, s.imported? name = some v ∧ v.Inhabits s.catalog type := by
  obtain ⟨loaded, isImport, found⟩ := List.exists_of_findSome?_eq_some typed
  split at found
  · obtain ⟨m, known, typed⟩ := Option.bind_eq_some_iff.mp found
    have named : name ∈ m.names := ScriptModule.mem_names_of_typeOf? (by simp [typed])
    have isMember : (m.member? name).isSome := by simp [m.isSome_member?, typed]
    have isImported : (s.imported? name).isSome := by
      refine List.findSome?_isSome_iff.mpr ⟨loaded, isImport, ?_⟩
      have known : s.catalog.get? loaded = some m := known
      simpa [known] using isMember
    obtain ⟨v, value⟩ := Option.isSome_iff_exists.mp isImported
    -- Evaluation may find the name in another module than the checker, but no two modules share a
    -- name.
    obtain ⟨other, -, held⟩ := List.exists_of_findSome?_eq_some value
    obtain ⟨m', known', held⟩ := Option.bind_eq_some_iff.mp held
    have named' : name ∈ m'.names :=
      ScriptModule.mem_names_of_typeOf? (by simp [← m'.isSome_member?, held])
    obtain rfl := honest.distinct known known' named named'
    cases known.symm.trans known'
    exact ⟨v, value, (honest.member known held).2 type typed⟩
  · cases found

/-- A name that has a type has a value of that type. -/
theorem lookup_inhabits (honest : s.catalog.Honest) {bindings : Dict Ty} {env : Environment}
    (fits : env.Fits s.catalog bindings) {name : String} {type : Ty}
    (typed : (s.scope bindings).typeOf? name = some type) :
    ∃ v, s.lookup? env {} name = some v ∧ v.Inhabits s.catalog type := by
  unfold Scope.typeOf? at typed
  unfold lookup?
  have noLocals : Dict.get? ({} : Environment) name = none := rfl
  rw [noLocals, Option.none_or]
  simp only [Option.or_eq_some_iff] at typed
  -- Both sides look names up in the same order, without parameters here.
  rcases typed with typed | ⟨-, typed | ⟨unbound, typed⟩⟩
  · cases typed
  · obtain ⟨v, held⟩ := Option.isSome_iff_exists.mp
      ((fits.isSome_iff name).mpr (Option.isSome_of_mem typed))
    exact ⟨v, by simp [held], fits.values typed held⟩
  · -- What is not declared has no value of its own, so the same table answers on both sides.
    have noValue : Dict.get? env name = none := by
      rw [← Option.not_isSome_iff_eq_none, fits.isSome_iff name, Option.not_isSome_iff_eq_none]
      exact unbound
    rw [noValue, Option.none_or]
    rcases typed with typed | ⟨noBuiltin, typed | ⟨noModule, typed⟩⟩
    · obtain ⟨v, value, inhabits⟩ := s.builtin_inhabits typed
      exact ⟨v, by simp [value], inhabits⟩
    · have noBuiltin : s.builtin? name = none := builtin?_eq_none noBuiltin
      unfold Scope.module? at typed
      split at typed
      · rename_i isModule
        cases typed
        have value : s.module? name = some (.module name) := if_pos isModule
        exact ⟨.module name, by simp [noBuiltin, value], rfl⟩
      · cases typed
    · have noBuiltin : s.builtin? name = none := builtin?_eq_none noBuiltin
      have noModule : s.module? name = none := by
        unfold Scope.module? at noModule
        split at noModule
        · cases noModule
        · rename_i isNone
          exact if_neg isNone
      obtain ⟨v, value, inhabits⟩ := imported_inhabits honest typed
      exact ⟨v, by simp [noBuiltin, noModule, value], inhabits⟩

/-- A member of a value of a type. -/
theorem memberOf_inhabits (honest : s.catalog.Honest) {object : Value} {type : Ty}
    {bindings : Dict Ty} {property : String} {span : Span}
    (known : object.Known s.catalog) (inhabits : object.Inhabits s.catalog type)
    (clean : ((s.scope bindings).typeOfMember type property span).problems = []) :
    (s.memberOf object property).Ensures
      (·.Inhabits s.catalog ((s.scope bindings).typeOfMember type property span).type)
      (Stop.Excused (type = .any)) := by
  unfold Scope.typeOfMember at clean ⊢
  split at clean
  -- A module of known name: the member is there, with the type that the module promises.
  · rename_i name
    cases inhabits
    split at clean
    · rename_i promised found
      obtain ⟨m, found, typed⟩ := Option.bind_eq_some_iff.mp found
      have found : s.catalog.get? name = some m := found
      obtain ⟨v, held⟩ : ∃ v, m.member? property = some v :=
        Option.isSome_iff_exists.mp (by simp [m.isSome_member?, typed])
      simp only [memberOf, memberValue, found, held]
      exact .pure ((honest.member found held).2 promised typed)
    · cases clean
  -- A value that nothing is known of may have any shape, and lack the member.
  · have missing : ∀ message, (Run.fail .propertyNotFound message : Run Value).Ensures
        (·.Inhabits s.catalog .any) (Stop.Excused (Ty.any = .any)) :=
      fun _ => .fail ⟨rfl, fun _ => rfl⟩
    unfold memberOf memberValue
    split
    · obtain ⟨m, found⟩ := known
      rw [found]
      dsimp only
      split
      · exact .pure trivial
      · exact missing _
    · split
      · exact .pure trivial
      · exact missing _
    · exact missing _
  · cases clean

/-! ## Calls -/

/-- Calling a native function: with a right number of arguments the result has the type of the call,
and with any number the function fails for the shape only if the number is wrong. -/
theorem callNative_inhabits (honest : s.catalog.Honest) {ref : NativeId} {f : NativeFunction}
    (native : s.catalog.native? ref = some f) (args : List Value) :
    (s.callNative ref args).Ensures
      (fun v => f.Takes args.length → v.Inhabits s.catalog f.returns)
      (Stop.Excused (¬f.Takes args.length)) := by
  have found : s.native? ref = some f := native
  have promises := honest.functions native
  unfold callNative NativeFunction.returns
  simp only [found]
  split
  · rename_i isAsync
    refine .pure fun takes => ⟨ref, args, f, rfl, native, isAsync, ?_, takes⟩
    exact if_pos isAsync
  · exact .perform (fun v result _ => promises.answers result)
      (fun e result => promises.fails result) trivial

/-- A call without problems has as many arguments as the function takes. -/
theorem takes_of_countProblems {f : NativeFunction} {params args : List Ty} {returns : Ty}
    {variadic : Bool} {name : String} {span : Span}
    (signature : f.signature = .fn params returns variadic)
    (clean : countProblems name span params args variadic = []) : f.Takes args.length := by
  simp only [NativeFunction.signature, Ty.fn.injEq] at signature
  obtain ⟨rfl, -, rfl⟩ := signature
  unfold countProblems at clean
  unfold NativeFunction.Takes
  cases variadic : f.variadic <;> simpa [variadic] using clean

/-- A call of a value of a type. -/
theorem call_inhabits (honest : s.catalog.Honest) {evalBody : Environment → Expr → Run Value}
    {callee : Value} {type : Ty} {args : List Value} {types : List Ty} {name : String} {span : Span}
    (known : callee.Known s.catalog) (inhabits : callee.Inhabits s.catalog type)
    (length : args.length = types.length)
    (clean : (typeOfCall name type types span).problems = []) :
    (s.call evalBody callee args).Ensures
      (·.Inhabits s.catalog (typeOfCall name type types span).type)
      (Stop.Excused (type = .any)) := by
  unfold typeOfCall at clean ⊢
  split at clean
  -- A function type has native functions of that signature only, and the count was checked.
  · obtain ⟨ref, f, rfl, native, signature⟩ := inhabits
    rw [List.append_eq_nil_iff] at clean
    have takes : f.Takes args.length := length ▸ takes_of_countProblems signature clean.1
    have returns : f.returns = _ := (Ty.fn.inj signature).2.1
    exact (callNative_inhabits honest native args).mono (fun v holds => returns ▸ holds takes)
      fun stop excused => excused.mono fun wrong => absurd takes wrong
  · unfold call
    split
    -- A function of a script is not a known value.
    · cases known
    · obtain ⟨f, native⟩ := known
      exact (callNative_inhabits honest native args).mono (fun _ _ => trivial)
        fun stop excused => excused.mono fun _ => rfl
    · exact .fail ⟨rfl, fun _ => rfl⟩
  · cases clean

/-! ## Prefix operators -/

/-- Awaiting a pending call: its result has the type that the function answers. -/
theorem await_pending_inhabits (honest : s.catalog.Honest) {target : NativeId} {f : NativeFunction}
    (native : s.catalog.native? target = some f) (isAsync : f.isAsync = true) (args : List Value) :
    (s.await (.pending target args)).Ensures (·.Inhabits s.catalog f.answers)
      (Stop.Excused (¬f.Takes args.length)) := by
  have found : (s.native? target).filter (·.isAsync) = some f :=
    Option.filter_eq_some_iff.mpr ⟨native, isAsync⟩
  have promises := honest.functions native
  simp only [await, found]
  refine .bind (.note _ trivial) fun _ _ => .poll ?_ trivial trivial _
  exact .perform (fun v result => promises.answers result)
    (fun e result => promises.fails result) trivial

/-- Awaiting a value of a type. -/
theorem await_inhabits (honest : s.catalog.Honest) {v : Value} {type : Ty} {span : Span}
    (known : v.Known s.catalog) (inhabits : v.Inhabits s.catalog type)
    (clean : (typeOfUnary .await type span).problems = []) :
    (s.await v).Ensures (·.Inhabits s.catalog (typeOfUnary .await type span).type)
      (Stop.Excused (type = .any)) := by
  cases type with
  | future item =>
      obtain ⟨target, args, f, rfl, native, isAsync, returns, takes⟩ := inhabits
      have answers : f.answers = item := by simpa [NativeFunction.returns, isAsync] using returns
      exact (await_pending_inhabits honest native isAsync args).mono
        (fun v holds => answers ▸ holds)
        fun stop excused => excused.mono fun wrong => absurd takes wrong
  | any =>
      -- A pending call may be one with a wrong number of arguments; anything else is its own
      -- result.
      by_cases pending : ∃ target args, v = .pending target args
      · obtain ⟨target, args, rfl⟩ := pending
        obtain ⟨f, native, isAsync⟩ := known
        exact (await_pending_inhabits honest native isAsync args).mono (fun _ _ => trivial)
          fun stop excused => excused.mono fun _ => rfl
      · unfold await
        split
        · exact absurd ⟨_, _, rfl⟩ pending
        · exact .pure trivial
  | num | str | bool | null | void | list | fn | module => cases clean

/-- A prefix operator before a value of a type. -/
theorem applyUnary_inhabits (honest : s.catalog.Honest) {op : UnaryOp} {v : Value} {type : Ty}
    {span : Span} (known : v.Known s.catalog) (inhabits : v.Inhabits s.catalog type)
    (clean : (typeOfUnary op type span).problems = []) :
    (s.applyUnary op v).Ensures (·.Inhabits s.catalog (typeOfUnary op type span).type)
      (Stop.Excused (type = .any)) := by
  cases op with
  | neg =>
      simp only [typeOfUnary] at clean ⊢
      split at clean
      · rename_i accepts
        rw [if_pos accepts]
        rcases number_of_accepts accepts inhabits with ⟨x, rfl⟩ | any
        · exact .pure ⟨_, rfl⟩
        · unfold applyUnary
          split
          · exact .pure ⟨_, rfl⟩
          · exact .fail ⟨rfl, fun _ => any⟩
          · contradiction
          · contradiction
      · cases clean
  | not => exact .pure ⟨_, rfl⟩
  | await => exact await_inhabits honest known inhabits clean

/-! ## Whole expressions -/

/-- **The checker is right about expressions.** Where names hold values of their types and levels
suffice, an expression without problems has a value of its type, and stops for the shape of a value
only if the type of one of its parts is `any`. -/
theorem eval_inhabits (honest : s.catalog.Honest) (closed : s.Closed (Value.Known s.catalog))
    {bindings : Dict Ty} {env : Environment} (fits : env.Fits s.catalog bindings)
    (known : env.All (Value.Known s.catalog)) {e : Expr} {room : Nat} (levels : e.levels ≤ room)
    (clean : ((s.scope bindings).infer e).problems = []) :
    (s.eval env room {} e).Ensures (·.Inhabits s.catalog ((s.scope bindings).infer e).type)
      (Stop.Excused ((s.scope bindings).Loose e)) := by
  -- No calls into bodies here: the expression itself gives the levels.
  induction room generalizing e with
  | zero => cases e <;> simp [Expr.levels] at levels
  | succ room ih =>
      -- An operand is excused where the whole is, and its value is known besides.
      have operand : ∀ {part : Expr}, part ∈ e.operands →
          ((s.scope bindings).infer part).problems = [] → (s.eval env room {} part).Ensures
            (fun v => v.Inhabits s.catalog ((s.scope bindings).infer part).type ∧
              v.All (Value.Known s.catalog))
            (Stop.Excused ((s.scope bindings).Loose e)) := by
        intro part member clean
        have below := Expr.levels_lt_of_mem_operands member
        have typed := (ih (by omega) clean).stop_mono fun stop excused =>
          excused.mono (Scope.Loose.mono (Expr.parts_of_mem_operands member))
        exact typed.and (eval_all closed known room Environment.all_empty part)
      have loosened : ∀ {part : Expr}, part ∈ e.operands →
          ((s.scope bindings).infer part).type = .any → (s.scope bindings).Loose e :=
        fun member any => .mono (Expr.parts_of_mem_operands member) (.of_any any)
      show (s.evalStep env (s.eval env room) {} e).Ensures _ _
      cases e with
      | num | str | bool => exact .pure ⟨_, rfl⟩
      | null => exact .pure rfl
      | list items span =>
          simp only [Scope.infer] at clean ⊢
          have each := Scope.inferAll_clean clean
          refine .bind (evalItems_ensures items fun item member => ?_) fun values all =>
            .pure ⟨values, rfl, all.2⟩
          exact (operand member (each item member).1).value_mono fun v holds =>
            holds.1.joinAll (each item member).2
      | ident name span =>
          simp only [Scope.infer, Scope.typeOfName] at clean ⊢
          simp only [evalStep]
          split at clean
          · rename_i type typed
            obtain ⟨v, value, inhabits⟩ := lookup_inhabits honest fits typed
            rw [value]
            exact .pure inhabits
          · cases clean
      | member object property span =>
          simp only [Scope.infer, List.append_eq_nil_iff] at clean ⊢
          have same := Typed.asValue_clean clean.1
          rw [same] at clean ⊢
          refine .bind (operand List.mem_cons_self clean.1) fun v holds => ?_
          exact (memberOf_inhabits honest holds.2.self holds.1 clean.2).stop_mono
            fun stop excused => excused.mono (loosened List.mem_cons_self)
      | call callee args span =>
          simp only [Scope.infer, List.append_eq_nil_iff] at clean ⊢
          have same := Typed.asValue_clean clean.1.1
          rw [same] at clean ⊢
          have each := Scope.inferAll_clean clean.1.2
          have arguments : ∀ arg ∈ args, (s.eval env room {} arg).Ensures (fun _ => True)
              (Stop.Excused ((s.scope bindings).Loose (.call callee args span))) :=
            fun arg member =>
              (operand (List.mem_cons_of_mem _ member) (each arg member).1).value_mono
                fun v _ => trivial
          refine .bind (operand List.mem_cons_self clean.1.1) fun f holds => ?_
          refine .bind (evalItems_ensures args arguments) fun values all => ?_
          have length : values.length = ((s.scope bindings).inferAll args).1.length := by
            rw [all.1, Scope.length_inferAll]
          exact (call_inhabits honest holds.2.self holds.1 length clean.2).stop_mono
            fun stop excused => excused.mono (loosened List.mem_cons_self)
      | unary op part span =>
          simp only [Scope.infer, List.append_eq_nil_iff] at clean ⊢
          have same := Typed.asValue_clean clean.1
          rw [same] at clean ⊢
          refine .bind (operand List.mem_cons_self clean.1) fun v holds => ?_
          exact (applyUnary_inhabits honest holds.2.self holds.1 clean.2).stop_mono
            fun stop excused => excused.mono (loosened List.mem_cons_self)
      | binary op left right span =>
          simp only [Scope.infer, List.append_eq_nil_iff] at clean ⊢
          have same := Typed.asValue_clean clean.1.1
          have same' := Typed.asValue_clean clean.1.2
          rw [same, same'] at clean ⊢
          have second : right ∈ (Expr.binary op left right span).operands :=
            List.mem_cons_of_mem _ List.mem_cons_self
          refine evalStep_binary_ensures (operand List.mem_cons_self clean.1.1)
            (operand second clean.1.2) ?_ ?_
          · rintro (rfl | rfl) b
            · exact ⟨b, rfl⟩
            · exact ⟨b, rfl⟩
          · intro notAnd notOr l r left_holds right_holds
            refine (apply_inhabits notAnd notOr left_holds.1 right_holds.1 clean.2).stop_mono
              fun stop excused => excused.mono fun loose => ?_
            rcases loose with any | any
            · exact loosened List.mem_cons_self any
            · exact loosened second any

end Execution

end ScriptShell
