import ScriptShell.Proofs.Evaluation.Functions
import ScriptShell.Proofs.Evaluation.Watch
import ScriptShell.Proofs.Module.Standard
import ScriptShell.Proofs.Session.Chain

/-! # References to functions lead somewhere

A function is a value by reference: its name and the number of the unit that declares it. Such a
reference can sit anywhere, in lists, objects and the arguments of pending calls, and outlive the
fragment that made it. It leads somewhere as long as one of the fragments up to the running one has
that number and declares that name (`ScriptUnit.knows`).

* **`Linked.commit`**: what a session holds leads to its newest unit's fragments, commit by commit.
* **`run_raises`**: no call in a run finds its function missing.
* **`functions_known`**: both for all sessions, with the watch of `Execution.watchedRun` for what
  happens between the beginning and the end of a run.

All of this needs that modules make up no functions, for they could make up any reference
(`Catalog.Supplies`). The standard modules do not (**`standard_supplies_not`**). -/

namespace ScriptShell

namespace ScriptUnit

variable {u : ScriptUnit} {ref : FunctionId}

/-- One of the fragments up to this unit has the number of a reference and declares a function of
its name. -/
def knows (u : ScriptUnit) (ref : FunctionId) : Bool :=
  u.ancestors.any fun f => f.id == ref.unit && f.program.functions.contains ref.name

/-- Whether a value is not a function, or one that the unit knows. -/
def knowsValue (u : ScriptUnit) : Value → Bool
  | .func ref => u.knows ref
  | _ => true

/-- A value is known to a unit exactly if all functions in it are. -/
theorem knowsValue_iff {v : Value} :
    u.knowsValue v = true ↔ v.Calls fun ref => u.knows ref = true := by
  cases v with
  | func ref => simp [knowsValue, Value.Calls]
  | null | bool | num | str | list | obj | native | module | pending =>
      simp [knowsValue, Value.Calls]

/-- Where no two fragments have one number, a function that is known is found. -/
theorem function?_of_knows (distinct : (u.ancestors.map (·.id)).Nodup)
    (known : u.knows ref = true) : ∃ decl, u.function? ref.name ref.unit = some decl := by
  obtain ⟨f, member, holds⟩ := List.any_eq_true.mp known
  obtain ⟨number, declares⟩ : f.id = ref.unit ∧ f.program.functions.contains ref.name = true := by
    simpa using holds
  have found : u.ancestors.find? (·.id == ref.unit) = some f := by
    -- The first fragment of that number is the only one.
    cases first : u.ancestors.find? (·.id == ref.unit) with
    | none =>
        have none := List.find?_eq_none.mp first f member
        simp [number] at none
    | some g =>
        have same : g.id = f.id := by
          rw [number]
          simpa using List.find?_some first
        rw [List.inj_on_of_nodup_map distinct (List.mem_of_find?_eq_some first) member same]
  rw [function?, found, Option.bind_some]
  exact Option.isSome_iff_exists.mp declares

end ScriptUnit

/-! ## Functions that are not there -/

/-- The error of a call whose function is not there. -/
def danglingError (name : String) : RunError :=
  ⟨.unknownFunction, "function '" ++ name ++ "' is no longer defined", []⟩

/-- A native function fails with an error. -/
def Catalog.Raises (c : Catalog) (e : RunError) : Prop :=
  ∃ target f args, c.native? target = some f ∧ (f.body args).result = .failure e

/-- If the reason is a function that is not there, then a native function says so. -/
def Stop.Raised (c : Catalog) (stop : Stop) : Prop :=
  ∀ name, stop = .failed (danglingError name) → c.Raises (danglingError name)

namespace Stop.Raised

variable {c : Catalog}

/-- A cancellation is no dangling reference. -/
theorem cancelled : Stop.cancelled.Raised c :=
  fun _ same => by cases same

/-- A breakdown is no dangling reference. -/
theorem broken : Stop.broken.Raised c :=
  fun _ same => by cases same

/-- To give up on a loop is no dangling reference. -/
theorem unfinished : Stop.unfinished.Raised c :=
  fun _ same => by cases same

/-- An error of another code is no dangling reference. -/
theorem of_code {e : RunError} (ne : e.code ≠ .unknownFunction) : (Stop.failed e).Raised c := by
  intro name same
  cases same
  exact absurd rfl ne

/-- An error of another text is no dangling reference. -/
theorem of_message {message : String}
    (ne : ∀ name, message ≠ "function '" ++ name ++ "' is no longer defined") :
    (Stop.failed ⟨.unknownFunction, message, []⟩).Raised c := by
  intro name same
  cases same
  exact absurd rfl (ne name)

/-- An error that a native function raises may be any. -/
theorem of_raises {e : RunError} (raises : c.Raises e) : (Stop.failed e).Raised c := by
  intro name same
  cases same
  exact raises

end Stop.Raised

/-- Messages that start with another letter are about something else. -/
theorem unknown_ne (text name : String) (first : text.toList.head? = some 'u') :
    text ≠ "function '" ++ name ++ "' is no longer defined" := by
  intro same
  rw [same, String.toList_append, String.toList_append] at first
  simp at first

/-- Messages that end with another letter are about something else. -/
theorem asynchronous_ne (text name : String) :
    text ++ " is not asynchronous" ≠ "function '" ++ name ++ "' is no longer defined" := by
  intro same
  have ends : (" is not asynchronous").toList.getLast? = some 's' := by decide
  have ends' : ("' is no longer defined").toList.getLast? = some 'd' := by decide
  have last := congrArg (·.toList.getLast?) same
  simp only [String.toList_append, List.getLast?_append, ends, ends'] at last
  simp at last

namespace Execution

variable {s : Execution} {env locals : Environment}

/-- Failing for another reason. -/
theorem fail_raised {c : Catalog} {α : Type} {value : α → Prop} {code : ErrorCode}
    {message : String} (ne : code ≠ .unknownFunction) :
    (Run.fail code message : Run α).Ensures value (Stop.Raised c) :=
  .fail (.of_code ne)

/-- Members of values raise no dangling reference. -/
theorem memberOf_raised (object : Value) (property : String) :
    (s.memberOf object property).Ensures (fun _ => True) (Stop.Raised s.catalog) := by
  unfold memberOf memberValue
  split
  · split
    · refine .fail (.of_message fun name => unknown_ne _ name ?_)
      simp
    · split
      · exact .pure trivial
      · exact fail_raised (by decide)
  · split
    · exact .pure trivial
    · exact fail_raised (by decide)
  · exact fail_raised (by decide)

/-- Native functions raise none but their own. -/
theorem callNative_raised (target : NativeId) (args : List Value) :
    (s.callNative target args).Ensures (fun _ => True) (Stop.Raised s.catalog) := by
  unfold callNative
  split
  · refine .fail (.of_message fun name => unknown_ne _ name ?_)
    simp
  · rename_i f known
    split
    · exact .pure trivial
    · exact .perform (fun _ _ => trivial)
        (fun e failed => .of_raises ⟨target, f, args, known, failed⟩) .broken

/-- Prefix operators raise none, and awaiting none but those of native functions. -/
theorem applyUnary_raised (op : UnaryOp) (v : Value) :
    (s.applyUnary op v).Ensures (fun _ => True) (Stop.Raised s.catalog) := by
  unfold applyUnary
  split
  · exact .pure trivial
  · exact fail_raised (by decide)
  · exact .pure trivial
  · unfold await
    split
    · rename_i target args
      split
      · exact .fail (.of_message fun name => asynchronous_ne _ name)
      · rename_i f known
        have found := (Option.filter_eq_some_iff.mp known).1
        refine .bind (.note _ .broken) fun _ _ => .poll ?_ .cancelled .broken _
        exact .perform (fun _ _ => trivial)
          (fun e failed => .of_raises ⟨target, f, args, found, failed⟩) .broken
    · exact .pure trivial

/-- Operators raise no dangling reference. -/
theorem apply_raised (op : BinaryOp) (left right : Value) :
    (ofResult (op.apply left right)).Ensures (fun _ => True) (Stop.Raised s.catalog) := by
  refine ofResult_ensures (fun _ _ => trivial) fun e failed => .of_code ?_
  rcases BinaryOp.code_of_apply failed with code | code
  · simp [code]
  · simp [code]

/-- A call of a known function finds it. -/
theorem call_raised (distinct : (s.unit.ancestors.map (·.id)).Nodup)
    {evalBody : Environment → Expr → Run Value} {callee : Value}
    (known : s.unit.knowsValue callee = true) {args : List Value}
    (bodies : ∀ (params : List String) body, (evalBody (Dict.ofList (params.zip args)) body).Ensures
      (fun _ => True) (Stop.Raised s.catalog)) :
    (s.call evalBody callee args).Ensures (fun _ => True) (Stop.Raised s.catalog) := by
  unfold call
  split
  · rename_i ref
    split
    · rename_i missing
      obtain ⟨decl, found⟩ := ScriptUnit.function?_of_knows distinct known
      rw [missing] at found
      cases found
    · split
      · exact bodies _ _
      · exact fail_raised (by decide)
  · exact callNative_raised _ args
  · exact fail_raised (by decide)

/-- Evaluating an expression over known functions finds every function that it calls. -/
theorem eval_raised (distinct : (s.unit.ancestors.map (·.id)).Nodup)
    (closed : s.Closed (s.unit.knowsValue · = true))
    (env_all : env.All (s.unit.knowsValue · = true)) (room : Nat)
    (locals_all : locals.All (s.unit.knowsValue · = true)) (e : Expr) :
    (s.eval env room locals e).Ensures (·.All (s.unit.knowsValue · = true))
      (Stop.Raised s.catalog) := by
  -- As for `eval_all`, the levels carry the induction, through calls into bodies.
  induction room generalizing locals e with
  | zero => exact fail_raised (by decide)
  | succ room ih =>
      have follow : (s.evalStep env (s.eval env room) locals e).Ensures (fun _ => True)
          (Stop.Raised s.catalog) := by
        cases e with
        | num | str | bool | null => exact .pure trivial
        | list items =>
            exact .bind (evalItems_ensures items fun item _ => ih locals_all item) fun _ _ =>
              .pure trivial
        | ident name =>
            simp only [evalStep]
            split
            · exact .pure trivial
            · exact fail_raised (by decide)
        | member object property =>
            exact .bind (ih locals_all object) fun v _ => memberOf_raised v property
        | call callee args =>
            refine .bind (ih locals_all callee) fun f known => ?_
            have items := evalItems_ensures args fun arg _ => ih locals_all arg
            refine .bind items fun values all => ?_
            refine call_raised distinct known.self fun params body => ?_
            exact (ih (Environment.all_ofList all.2) body).value_mono fun _ _ => trivial
        | unary op operand =>
            exact .bind (ih locals_all operand) fun v _ => applyUnary_raised op v
        | binary op left right =>
            exact evalStep_binary_ensures (ih locals_all left) (ih locals_all right)
              (fun _ _ => trivial) fun _ _ l r _ _ => apply_raised op l r
      exact (follow.and (eval_all closed env_all (room + 1) locals_all e)).value_mono
        fun _ holds => holds.2

/-- **No call in a run finds its function missing.** -/
theorem run_raises (distinct : (s.unit.ancestors.map (·.id)).Nodup)
    (closed : s.Closed (s.unit.knowsValue · = true))
    (env_all : env.All (s.unit.knowsValue · = true))
    (functions : ∀ name params body span,
      .define name params body span ∈ Stmt.partsAll s.unit.program.statements →
        s.unit.knows ⟨name, s.unit.id⟩ = true) (rounds : Nat) :
    (s.run rounds env).Ensures (fun r => r.1.All (s.unit.knowsValue · = true) ∧
      r.2.All (s.unit.knowsValue · = true)) (Stop.Raised s.catalog) := by
  have rule : s.Keeps (Environment.All (s.unit.knowsValue · = true))
      (·.All (s.unit.knowsValue · = true)) (Stop.Raised s.catalog)
      (Stmt.partsAll s.unit.program.statements) :=
    { null := closed.all_data rfl rfl
      functions := fun member => Value.all_of_parts_eq rfl (functions _ _ _ _ member)
      insert := fun _ all holds => all.insert holds _
      evals := fun room _ _ all _ _ =>
        eval_raised distinct closed all room Environment.all_empty _
      levels := fail_raised (by decide)
      cancelled := .cancelled
      unfinished := .unfinished }
  exact rule.runBlock rounds maxOpenLevels env_all

end Execution

/-! ## The standard modules -/

namespace Standard

open Arguments

/-- What a delayed call answers is one of its arguments. -/
theorem mem_of_delay {args : List Value} {v : Value}
    (result : (delay.body args).result = .value v) : v ∈ args := by
  have reads : Read.Ensures (do
      expectTimer "delay" 2 args
      return args.getLastD .null) (· ∈ args) (RunError.Excused (args.length ≠ 2)) := by
    refine .bind (expectTimer_ensures "delay" Nat.two_pos args) fun _ length => .pure ?_
    have some : args ≠ [] := by
      rintro rfl
      cases length
    rw [List.getLastD_eq_getLast?, List.getLast?_eq_some_getLast some]
    exact List.getLast_mem some
  rw [read_of_value result] at reads
  exact reads

/-- All other functions of the standard modules answer plain data, or nothing. -/
theorem answers_data :
    ∀ m ∈ [core, math, texts, time, stats], ∀ f ∈ m.functions,
      f = delay ∨ f.answers ∈ [Ty.num, .str, .bool, .void] := by
  simp only [List.mem_cons, List.not_mem_nil, or_false, forall_eq_or_imp, forall_eq, core, math,
    texts, time, stats]
  simp [print, len, str, fail, unary, sqrt, binary, mapText, contains, sleep, sum, mean]

end Standard

/-- **The standard modules make up no functions.** -/
theorem Catalog.standard_supplies_not (ref : FunctionId) : ¬Catalog.standard.Supplies ref := by
  rintro (⟨module, m, name, v, found, held, inside⟩ | ⟨target, f, args, v, native, result, inside,
    notGiven⟩)
  · unfold ScriptModule.member? at held
    split at held
    · cases held
      cases List.mem_singleton.mp inside
    · obtain ⟨constant, isConstant, rfl⟩ := Option.map_eq_some_iff.mp held
      have member := (ScriptModule.constant?_mem isConstant).1
      exact (standard_honest.constants found member).2 _ inside
  · have inhabits := (standard_honest.functions native).answers result
    obtain ⟨m, isModule, isFunction⟩ := Option.bind_eq_some_iff.mp native
    rcases Standard.answers_data m (mem_of_get?_standard isModule) f
      (ScriptModule.function?_mem isFunction).1 with rfl | data
    · exact notGiven v (Standard.mem_of_delay result) inside
    · -- A number, a text, a truth value or null has no function for a part.
      have alone : ∀ v' : Value, v'.parts = [v'] → v = v' → v' = .func ref := by
        rintro v' alone rfl
        rw [alone] at inside
        exact (List.mem_singleton.mp inside).symm
      simp only [List.mem_cons, List.not_mem_nil, or_false] at data
      rcases data with type | type | type | type
      · rw [type] at inhabits
        obtain ⟨x, isNum⟩ := inhabits
        cases alone _ rfl isNum
      · rw [type] at inhabits
        obtain ⟨text, isText⟩ := inhabits
        cases alone _ rfl isText
      · rw [type] at inhabits
        obtain ⟨b, isBool⟩ := inhabits
        cases alone _ rfl isBool
      · rw [type] at inhabits
        cases alone _ rfl inhabits

/-! ## Sessions -/

namespace Session

variable {h : Host} {s : Session} {text : String} {resolved : List Reference} {unit : ScriptUnit}

/-- Everything that a session's commits hold is known to its newest unit. -/
def Linked (s : Session) : Prop :=
  ∀ unit, s.newestUnit? = some unit → ∀ commit ∈ s.history,
    commit.env.All (unit.knowsValue · = true) ∧
      ∀ v, commit.value = some v → v.All (unit.knowsValue · = true)

/-- A compiled fragment knows what the newest unit knows. -/
theorem knows_of_compiles (compiles : s.Compiles h text resolved unit) {newest : ScriptUnit}
    (isNewest : s.newestUnit? = some newest) {v : Value} (known : newest.knowsValue v = true) :
    unit.knowsValue v = true := by
  rw [ScriptUnit.knowsValue_iff] at known ⊢
  intro ref same
  have known := known ref same
  rw [ScriptUnit.knows, compiles.ancestors isNewest, List.any_cons, Bool.or_eq_true]
  exact .inr known

/-- A compiled fragment knows the functions that it declares anywhere. -/
theorem knows_of_define (compiles : s.Compiles h text resolved unit) {name : String}
    {params : List String} {body : Expr} {span : Span}
    (member : .define name params body span ∈ Stmt.partsAll unit.program.statements) :
    unit.knows ⟨name, unit.id⟩ = true := by
  obtain ⟨stmts, -, -, isUnit⟩ := compile_ok compiles.compiles
  have functions : unit.program.functions = declaredFunctions unit.program.statements := by
    rw [isUnit]
  have declared : unit.program.functions.contains name = true := by
    rw [functions]
    exact isSome_get?_declaredFunctions member
  rw [ScriptUnit.knows, ScriptUnit.ancestors, List.any_cons, declared]
  simp

/-- What a session holds is known to a compiled fragment. -/
theorem Linked.env (linked : s.Linked) (compiles : s.Compiles h text resolved unit) :
    s.env.All (unit.knowsValue · = true) := by
  unfold Session.env
  cases history : s.history with
  | nil => exact Environment.all_empty
  | cons newest older =>
      have isNewest := newestUnit?_of_head? (congrArg List.head? history)
      have isCommit : newest ∈ s.history := by
        rw [history]
        exact List.mem_cons_self
      have held := (linked newest.unit isNewest newest isCommit).1
      exact held.mono fun v known => knows_of_compiles compiles isNewest known

/-- What modules supply is known, if they make up no functions. -/
theorem closed_knows {c : Catalog} (nothing : ∀ ref, ¬c.Supplies ref) (unit : ScriptUnit)
    (args : List String) :
    (⟨c, unit, args⟩ : Execution).Closed (unit.knowsValue · = true) := by
  have known : (fun v => unit.knowsValue v = true) =
      Value.Calls fun ref => unit.knows ref = true := by
    funext v
    rw [ScriptUnit.knowsValue_iff]
  rw [known]
  exact Execution.closed_calls fun ref supplies => absurd supplies (nothing ref)

/-- **A commit leaves a session linked.** -/
theorem Linked.commit (nothing : ∀ ref, ¬h.catalog.Supplies ref) (linked : s.Linked)
    (chained : s.Chained) (compiles : s.Compiles h text resolved unit) {args : List String}
    {started ended : World} {env : Environment} {result : Value}
    (ran : (⟨h.catalog, unit, args⟩ : Execution).run h.rounds s.env started =
      .ok (env, result) ended) {value : Option Value} (own : ∀ v, value = some v → v = result) :
    Linked (s.commit (incoming text resolved) unit env value).1 := by
  have left := (Execution.run_raises (chained.compiled compiles).2 (closed_knows nothing unit args)
    (linked.env compiles) (fun _ _ _ _ => knows_of_define compiles) h.rounds).of_ok ran
  intro newest isNewest commit member
  rw [newestUnit?_commit] at isNewest
  cases isNewest
  rw [history_commit] at member
  rcases List.mem_cons.mp member with rfl | member
  · refine ⟨left.1, fun v isValue => ?_⟩
    rw [own v isValue]
    exact left.2
  -- What was known to the newest unit before is known to the new one.
  · cases history : s.history with
    | nil =>
        rw [history] at member
        cases member
    | cons before older =>
        have wasNewest := newestUnit?_of_head? (congrArg List.head? history)
        obtain ⟨held, values⟩ := linked before.unit wasNewest commit member
        have later : ∀ v, before.unit.knowsValue v = true → unit.knowsValue v = true :=
          fun v known => knows_of_compiles compiles wasNewest known
        exact ⟨held.mono later, fun v isValue => (values v isValue).mono later⟩

/-- Every session that evaluations lead to is linked. -/
theorem ReachableBy.linked {c : Catalog} (nothing : ∀ ref, ¬c.Supplies ref)
    (reachable : ReachableBy (·.catalog = c) s) : s.Linked := by
  refine (@ReachableBy.induction _ (fun s => s.Chained ∧ s.Linked) ?_ ?_ s reachable).2
  · refine ⟨.new, fun unit isNewest => ?_⟩
    cases isNewest
  · rintro h s text args resolved unit env result started ended rfl ⟨chained, linked⟩ compiles ran
      value own
    exact ⟨chained.commit compiles ran value, linked.commit nothing chained compiles ran own⟩

/-- **No dangling references.** Where modules make up no functions, after any evaluations: every
function in what a session holds, in the values of names and in the values of fragments, is known to
its newest unit; every function that comes up at any moment of a run is known to the running unit,
for a watch that would give the alarm does not change the run; and no evaluation ends with the error
of a function that is not there, unless a native function raises that very error. What a native
function answers is taken to depend on its arguments alone (`NativeFunction.body`), so the function
values that it answers with are among those it is given. -/
theorem functions_known {c : Catalog} (nothing : ∀ ref, ¬c.Supplies ref)
    (reachable : ReachableBy (·.catalog = c) s) :
    (∀ unit, s.newestUnit? = some unit → ∀ commit ∈ s.history,
      (∀ name v, commit.env.get? name = some v → ∀ ref, .func ref ∈ v.parts →
        unit.knows ref = true) ∧
      ∀ v, commit.value = some v → ∀ ref, .func ref ∈ v.parts → unit.knows ref = true) ∧
    ∀ h : Host, h.catalog = c →
      (∀ text resolved unit args, s.Compiles h text resolved unit → ∀ alarm rounds,
        (⟨c, unit, args⟩ : Execution).watchedRun unit.knowsValue alarm rounds s.env =
          (⟨c, unit, args⟩ : Execution).run rounds s.env) ∧
      ∀ text args world name,
        (s.evaluate h text args world).outcome = .fault (.runtime (danglingError name)) →
          c.Raises (danglingError name) := by
  have linked := reachable.linked nothing
  have chained := reachable.chained
  refine ⟨fun unit isNewest commit member => ?_, ?_⟩
  · obtain ⟨held, values⟩ := linked unit isNewest commit member
    exact ⟨fun name v isHeld ref inside => held name v isHeld (.func ref) inside,
      fun v isValue ref inside => values v isValue (.func ref) inside⟩
  · rintro h rfl
    refine ⟨?_, ?_⟩
    · intro text resolved unit args compiles alarm rounds
      exact Execution.watchedRun_eq (closed_knows nothing unit args) alarm rounds
        (linked.env compiles) fun _ _ _ _ => knows_of_define compiles
    · intro text args world name fault
      obtain ⟨resolved, unit, ended, compiles, stopped⟩ := evaluate_runtimeFault fault
      rcases stopped with stopped | broken
      · exact (Execution.run_raises (chained.compiled compiles).2 (closed_knows nothing unit args)
          (linked.env compiles) (fun _ _ _ _ => knows_of_define compiles) h.rounds).of_error stopped
          name rfl
      · cases broken

/-- A function waits in a list among the arguments of a pending call, and is declared again in the
next fragment: the unit of that fragment knows the first declaration still, and no evaluation after
it misses a function. -/
theorem functions_known_pending :
    let c := Catalog.standard
    let h : Host := ⟨c, ⟨.ofCatalog c, []⟩, 0⟩
    let text := "#load time\nfn f() = 1\nlet p = time.delay(1, [f])"
    let s := ((({} : Session).evaluate h text [] {}).session.evaluate h "fn f() = 2" [] {}).session
    (∀ ref, ¬c.Supplies ref) ∧ ReachableBy (·.catalog = c) s ∧
      (∃ commit v, s.history.head? = some commit ∧ commit.env.get? "p" = some v ∧
        .func ⟨"f", 1⟩ ∈ v.parts ∧ commit.unit.id = 2 ∧ commit.unit.knows ⟨"f", 1⟩ = true) ∧
      ∀ text args world name,
        (s.evaluate h text args world).outcome = .fault (.runtime (danglingError name)) →
          c.Raises (danglingError name) := by
  intro c h text s
  have own : h.catalog = c := rfl
  have reachable : ReachableBy (·.catalog = c) s := .evaluate (.evaluate .new own _ _ _) own _ _ _
  have waits : (s.history.head?.any fun commit => commit.unit.id == 2 &&
      (commit.env.get? "p").any fun v => v.parts.any fun part =>
        match part with
        | .func ref => ref == ⟨"f", 1⟩
        | _ => false) = true := by decide +kernel
  obtain ⟨known, runs⟩ := functions_known Catalog.standard_supplies_not reachable
  obtain ⟨commit, newest, holds⟩ := (Option.any_eq_true _ _).mp waits
  obtain ⟨number, held⟩ := Bool.and_eq_true_iff.mp holds
  obtain ⟨v, isHeld, inside⟩ := (Option.any_eq_true _ _).mp held
  obtain ⟨part, member, isFunction⟩ := List.any_eq_true.mp inside
  have member : .func ⟨"f", 1⟩ ∈ v.parts := by
    split at isFunction
    · rwa [← eq_of_beq isFunction]
    · cases isFunction
  refine ⟨Catalog.standard_supplies_not, reachable, ?_, (runs h rfl).2⟩
  refine ⟨commit, v, newest, isHeld, member, by simpa using number, ?_⟩
  have inHistory := known commit.unit (newestUnit?_of_head? newest) commit
    (List.mem_of_mem_head? newest)
  exact inHistory.1 "p" v isHeld _ member

end Session

end ScriptShell
