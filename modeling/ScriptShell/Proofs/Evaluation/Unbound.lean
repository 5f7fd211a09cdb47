import ScriptShell.Proofs.Evaluation.Primitives
import ScriptShell.Proofs.Evaluation.Values

/-! # Where undefined names come from

A run stops for an undefined name only where an identifier is evaluated. **`eval_unbound`** follows
such a stop back to the text: the name stands in the evaluated expression or in the body of a
function whose value was at hand, it is not one of the parameters there, and nothing supplies a
value for it. Which functions can be at hand is a question of `Execution.Closed`: those that the
fragment has declared so far, and those that modules supply (`Catalog.Supplies`). -/

namespace ScriptShell

/-- If the reason is an undefined name, then one with a property. -/
def Stop.Unbound (missing : String → Prop) (stop : Stop) : Prop :=
  ∀ error, stop = .failed error → error.code = .undefinedVariable →
    ∃ name, error.message = "undefined variable '" ++ name ++ "'" ∧ missing name

namespace Stop.Unbound

variable {missing other : String → Prop}

/-- More names may be without a value. -/
theorem mono {stop : Stop} (unbound : stop.Unbound missing)
    (imp : ∀ name, missing name → other name) : stop.Unbound other := by
  intro error failed code
  obtain ⟨name, message, holds⟩ := unbound error failed code
  exact ⟨name, message, imp name holds⟩

/-- Errors of other kinds are about no name. -/
theorem of_ne {error : RunError} (ne : error.code ≠ .undefinedVariable) :
    (Stop.failed error).Unbound missing := by
  intro error' failed code
  cases failed
  exact absurd code ne

/-- A cancellation is no missing value. -/
theorem cancelled : Stop.cancelled.Unbound missing :=
  fun _ failed => by cases failed

/-- A breakdown is no missing value. -/
theorem broken : Stop.broken.Unbound missing :=
  fun _ failed => by cases failed

/-- To give up on a loop is no missing value. -/
theorem unfinished : Stop.unfinished.Unbound missing :=
  fun _ failed => by cases failed

end Stop.Unbound

/-- No native function claims that a name is undefined. -/
def Catalog.NeverUndefined (c : Catalog) : Prop :=
  ∀ {ref f args e}, c.native? ref = some f → (f.body args).result = .failure e →
    e.code ≠ .undefinedVariable

namespace Execution

variable {s : Execution} {good : Value → Prop} {env locals : Environment}

/-- A name stands in the body of a function of a good value, and is not one of its parameters. -/
def InBody (s : Execution) (good : Value → Prop) (name : String) : Prop :=
  ∃ ref decl, good (.func ref) ∧ s.unit.function? ref.name ref.unit = some decl ∧
    decl.body.Mentions name ∧ name ∉ decl.params

/-- A name without a value, which stands in an expression or in the body of a function of a good
value. -/
def Missing (s : Execution) (good : Value → Prop) (env locals : Environment) (e : Expr)
    (name : String) : Prop :=
  s.lookup? env {} name = none ∧
    ((e.Mentions name ∧ Dict.get? locals name = none) ∨ s.InBody good name)

/-- What is missing in a part is missing in the whole. -/
theorem Missing.mono {part whole : Expr} {name : String}
    (missing : s.Missing good env locals part name)
    (inside : ∀ p ∈ part.parts, p ∈ whole.parts) : s.Missing good env locals whole name := by
  refine ⟨missing.1, missing.2.imp_left fun ⟨mentions, unbound⟩ => ⟨?_, unbound⟩⟩
  obtain ⟨span, member⟩ := mentions
  exact ⟨span, inside _ member⟩

/-- A name without a value has none among the declared ones. -/
theorem get?_eq_none_of_lookup? (s : Execution) {name : String}
    (unresolved : s.lookup? env locals name = none) : Dict.get? env name = none := by
  unfold lookup? at unresolved
  simp only [Option.or_eq_none_iff] at unresolved
  exact unresolved.2.1

/-- Without parameters of its own, an expression sees fewer names. -/
theorem lookup?_eq_none {name : String} (unresolved : s.lookup? env locals name = none) :
    s.lookup? env {} name = none ∧ Dict.get? locals name = none := by
  unfold lookup? at unresolved ⊢
  rw [Option.or_eq_none_iff] at unresolved
  have noLocals : Dict.get? ({} : Environment) name = none := rfl
  rw [noLocals, Option.none_or]
  exact ⟨unresolved.2, unresolved.1⟩

/-- Nothing but a name that is evaluated is undefined. -/
theorem tolerates_unbound (quiet : s.catalog.NeverUndefined) (missing : String → Prop) :
    s.Tolerates (Stop.Unbound missing) where
  cancelled := .cancelled
  broken := .broken
  failed named _ := .of_ne named
  natives known result := .of_ne (quiet known result)

/-! ## Whole expressions -/

/-- Parameters bound to as many arguments are all bound. -/
theorem not_mem_params {params : List String} {args : List Value} {name : String}
    (length : params.length = args.length)
    (unbound : Dict.get? (Dict.ofList (params.zip args)) name = none) : name ∉ params := by
  intro member
  have bound : (Dict.get? (Dict.ofList (params.zip args)) name).isSome := by
    rw [Dict.isSome_get?_ofList, List.map_fst_zip (Nat.le_of_eq length)]
    exact member
  simp [unbound] at bound

/-- A call of a good value: a name that is missing in the body of a function is missing for the
caller as a name in a body. -/
theorem call_unbound (quiet : s.catalog.NeverUndefined) {evalBody : Environment → Expr → Run Value}
    {e : Expr}
    (bodies : ∀ locals body, locals.All good → (evalBody locals body).Ensures (fun _ => True)
      (Stop.Unbound (s.Missing good env locals body)))
    {callee : Value} (isGood : good callee) {args : List Value} (all : ∀ a ∈ args, a.All good) :
    (s.call evalBody callee args).Ensures (fun _ => True)
      (Stop.Unbound (s.Missing good env locals e)) := by
  refine (tolerates_unbound quiet _).call fun {ref decl} isRef found length => ?_
  -- Inside the body the parameters are bound, so what is missing there is none of them.
  refine (bodies _ decl.body (Environment.all_ofList all)).stop_mono fun stop unbound =>
    unbound.mono fun name missing => ⟨missing.1, .inr ?_⟩
  rcases missing.2 with ⟨mentions, unbound⟩ | inBody
  · exact ⟨ref, decl, isRef ▸ isGood, found, mentions, not_mem_params length unbound⟩
  · exact inBody

/-- **Where an undefined name comes from.** -/
theorem eval_unbound (quiet : s.catalog.NeverUndefined) (closed : s.Closed good)
    (env_all : env.All good) (room : Nat) (locals_all : locals.All good) (e : Expr) :
    (s.eval env room locals e).Ensures (fun _ => True)
      (Stop.Unbound (s.Missing good env locals e)) := by
  have tolerates := fun {missing} => tolerates_unbound quiet missing
  -- As for `eval_all`, the levels carry the induction, through calls into bodies.
  induction room generalizing locals e with
  | zero => exact .fail (.of_ne (by decide))
  | succ room ih =>
      -- An operand has a good value, and what is missing in it is missing in the whole.
      have part : ∀ {operand : Expr}, operand ∈ e.operands →
          (s.eval env room locals operand).Ensures (·.All good)
            (Stop.Unbound (s.Missing good env locals e)) := by
        intro operand member
        have followed := (ih locals_all operand).stop_mono fun stop unbound =>
          unbound.mono fun name missing => missing.mono (Expr.parts_of_mem_operands member)
        exact (followed.and (eval_all closed env_all room locals_all operand)).value_mono
          fun _ holds => holds.2
      show (s.evalStep env (s.eval env room) locals e).Ensures _ _
      cases e with
      | num | str | bool | null => exact .pure trivial
      | list items span =>
          exact .bind (evalItems_ensures items fun item member => part member) fun _ _ =>
            .pure trivial
      | ident name span =>
          simp only [evalStep]
          split
          · exact .pure trivial
          -- The only place where the error is raised.
          · rename_i unresolved
            refine .fail fun error failed _ => ⟨name, ?_, ?_⟩
            · cases failed
              rfl
            · obtain ⟨noValue, noLocal⟩ := lookup?_eq_none unresolved
              exact ⟨noValue, .inl ⟨⟨span, Expr.self_mem_parts _⟩, noLocal⟩⟩
      | member object property span =>
          exact .bind (part List.mem_cons_self) fun v _ => tolerates.memberOf v property
      | call callee args span =>
          refine .bind (part List.mem_cons_self) fun f isGood => ?_
          refine .bind (evalItems_ensures args fun arg member =>
            part (List.mem_cons_of_mem _ member)) fun values all => ?_
          exact call_unbound quiet (fun locals body all => ih all body) isGood.self all.2
      | unary op operand span =>
          exact .bind (part List.mem_cons_self) fun v _ => tolerates.applyUnary op v
      | binary op left right span =>
          have second : right ∈ (Expr.binary op left right span).operands :=
            List.mem_cons_of_mem _ List.mem_cons_self
          exact evalStep_binary_ensures (part List.mem_cons_self) (part second)
            (fun _ _ => trivial) fun _ _ l r _ _ => tolerates.apply op l r

end Execution

/-! ## Names only come -/

/-- Every name that has a value in the one environment has one in the other. -/
def Environment.Grows (env later : Environment) : Prop :=
  ∀ name, (Dict.get? env name).isSome → (Dict.get? later name).isSome

namespace Environment.Grows

variable {env middle later : Environment}

/-- Names grow into themselves. -/
theorem refl (env : Environment) : env.Grows env :=
  fun _ there => there

/-- Names grow step by step. -/
theorem trans (first : env.Grows middle) (second : middle.Grows later) : env.Grows later :=
  fun name there => second name (first name there)

/-- Giving a name a value lets the names grow. -/
theorem insert (grows : env.Grows later) (name : String) (v : Value) :
    env.Grows (Dict.insert later name v) :=
  fun other there => (Dict.isSome_get?_insert later name other v).mpr (.inr (grows other there))

end Environment.Grows

namespace Execution

variable {s : Execution} {good : Value → Prop} {env later : Environment}

/-- A name that has no value later has none now. -/
theorem lookup?_eq_none_of_grows (grows : env.Grows later) {name : String}
    (unresolved : s.lookup? later {} name = none) : s.lookup? env {} name = none := by
  have noLocals : Dict.get? ({} : Environment) name = none := rfl
  unfold lookup? at unresolved ⊢
  rw [noLocals, Option.none_or, Option.or_eq_none_iff] at unresolved ⊢
  refine ⟨?_, unresolved.2⟩
  rw [← Option.not_isSome_iff_eq_none]
  intro there
  have there := grows name there
  simp [unresolved.1] at there

/-- Nothing is taken away from the names while statements run. -/
theorem keeps_grows (env : Environment) (parts : List Stmt) :
    s.Keeps env.Grows (fun _ => True) (fun _ => True) parts :=
  .of_insert fun _ grows => grows.insert _ _

/-! ## Statements of a level -/

/-- A block below the statements of a level. -/
def blockAt (s : Execution) (rounds room : Nat) (env : Environment) (body : List Stmt) :
    Run Environment := do
  return (← s.runBlock rounds room env body).1

/-- A statement of a block below which `room` levels may be opened. -/
def stepAt (s : Execution) (rounds room : Nat) : Environment → Stmt → Run (Environment × Value) :=
  s.execStep rounds (fun env => s.eval env room {}) (s.blockAt rounds room)

/-- The statements of a unit run with all levels below them but one. -/
theorem run_eq (s : Execution) (rounds : Nat) (env : Environment) :
    s.run rounds env =
      execAll (s.stepAt rounds (maxOpenLevels - 1)) .null env s.unit.program.statements := rfl

/-- What the statements in a statement keep is kept by it. -/
theorem Keeps.stepAt {keeps : Environment → Prop} {fine : Value → Prop} {stop : Stop → Prop}
    {stmt : Stmt} (rule : s.Keeps keeps fine stop stmt.parts) (rounds room : Nat)
    (holds : keeps env) :
    (s.stepAt rounds room env stmt).Ensures (fun r => keeps r.1 ∧ fine r.2) stop :=
  rule.execStep rounds room
    (fun _ _ holds inside =>
      .bind ((rule.mono inside).runBlock rounds room holds) fun _ holds => .pure holds.1)
    holds

/-- A statement that ran to its end has bound the name that it declares. -/
theorem stepAt_declares (rounds room : Nat) (env : Environment) (stmt : Stmt) :
    (s.stepAt rounds room env stmt).Ensures
      (fun r => ∀ name, stmt.declared? = some name → (Dict.get? r.1 name).isSome)
      fun _ => True := by
  -- Only declarations and assignments promise a name, and what they evaluate does not matter.
  have anything : (s.stepAt rounds room env stmt).Ensures (fun _ => True) fun _ => True :=
    fun world => by split <;> trivial
  have evals : ∀ e, (s.eval env room {} e).Ensures (fun _ => True) fun _ => True :=
    fun e world => by split <;> trivial
  have inserted : ∀ name v other, some name = some other →
      (Dict.get? (Dict.insert env name v) other).isSome := by
    intro name v other same
    cases same
    simp
  cases stmt with
  | define name => exact .pure (inserted name _)
  | bind name value | assign name value =>
      exact .bind (evals value) fun v _ => .pure (inserted name v)
  | load | use | branch | loop | eval =>
      exact anything.value_mono fun _ _ name declares => by cases declares

/-- Statements that ran to their end took no name away and have bound the names that they
declare. -/
theorem execAll_declares (rounds room : Nat) (env : Environment) (stmts : List Stmt)
    (last : Value) :
    (execAll (s.stepAt rounds room) last env stmts).Ensures
      (fun r => env.Grows r.1 ∧ ∀ name, Stmt.Declares stmts name → (Dict.get? r.1 name).isSome)
      fun _ => True := by
  -- A name that a statement has bound is still bound after all later ones.
  induction stmts generalizing env last with
  | nil => exact .pure ⟨.refl env, fun name ⟨stmt, member, _⟩ => by cases member⟩
  | cons stmt rest ih =>
      refine .bind (.checkpoint trivial) fun _ _ => ?_
      have step := ((keeps_grows env stmt.parts).stepAt (s := s) rounds room (.refl env)).and
        (stepAt_declares rounds room env stmt)
      refine .bind step fun r holds => ?_
      refine (ih r.1 r.2).value_mono fun r' later => ⟨holds.1.1.trans later.1, ?_⟩
      rintro name ⟨other, member, declares⟩
      rcases List.mem_cons.mp member with rfl | member
      · exact later.1 name (holds.2 name declares)
      · exact later.2 name ⟨other, member, declares⟩

/-- Looking at the token only stops by cancelling. -/
theorem checkpoint_error {world ended : World} {e : Stop}
    (stopped : Run.checkpoint world = .error e ended) : e = .cancelled :=
  (Run.Ensures.of_error (Run.Ensures.checkpoint rfl) stopped).symm

/-- Where statements stopped: some ran to their end, and the next one stopped. -/
theorem execAll_error {step : Environment → Stmt → Run (Environment × Value)} {last : Value}
    {stmts : List Stmt} {world ended : World} {e : Stop}
    (stopped : execAll step last env stmts world = .error e ended) (notCancelled : e ≠ .cancelled) :
    ∃ done stmt rest env' value middle started, stmts = done ++ stmt :: rest ∧
      execAll step last env done world = .ok (env', value) middle ∧
      execAll step last env (done ++ [stmt]) world = .error e ended ∧
      step env' stmt started = .error e ended := by
  -- The statement at which the run stopped is the first one that did not end.
  induction stmts generalizing env last world with
  | nil => cases stopped
  | cons stmt rest ih =>
      simp only [execAll, bind, EStateM.bind] at stopped
      cases looked : Run.checkpoint world with
      | error e' ended' =>
          rw [looked] at stopped
          cases stopped
          exact absurd (checkpoint_error looked) notCancelled
      | ok _ world' =>
          rw [looked] at stopped
          cases ran : step env stmt world' with
          | error e' ended' =>
              simp only [ran] at stopped
              cases stopped
              refine ⟨[], stmt, rest, env, last, world, world', rfl, rfl, ?_, ran⟩
              simp [execAll, bind, EStateM.bind, looked, ran]
          | ok r world'' =>
              simp only [ran] at stopped
              obtain ⟨done, next, others, env', value, middle, started, rfl, completed, stopped,
                last⟩ := ih stopped
              refine ⟨stmt :: done, next, others, env', value, middle, started, rfl, ?_, ?_, last⟩
              · simpa [execAll, bind, EStateM.bind, looked, ran] using completed
              · simpa [execAll, bind, EStateM.bind, looked, ran] using stopped

/-- Where an undefined name comes from that stops a statement: it stands in what the statement
evaluates, in its blocks included, or in the body of a function of a good value. -/
theorem stepAt_unbound (quiet : s.catalog.NeverUndefined) (closed : s.Closed good)
    (env_all : env.All good) {stmt : Stmt}
    (functions : ∀ name params body span, .define name params body span ∈ stmt.parts →
      good (.func ⟨name, s.unit.id⟩)) (rounds room : Nat) :
    (s.stepAt rounds room env stmt).Ensures (fun _ => True) (Stop.Unbound fun name =>
      s.lookup? env {} name = none ∧
        ((∃ part ∈ stmt.parts, ∃ e, part.evaluated? = some e ∧ e.Mentions name) ∨
          s.InBody good name)) := by
  have rule : s.Keeps (fun later => later.All good ∧ env.Grows later) (·.All good)
      (Stop.Unbound fun name => s.lookup? env {} name = none ∧
        ((∃ part ∈ stmt.parts, ∃ e, part.evaluated? = some e ∧ e.Mentions name) ∨
          s.InBody good name)) stmt.parts :=
    { null := closed.all_data rfl rfl
      functions := fun member => Value.all_of_parts_eq rfl (functions _ _ _ _ member)
      insert := fun _ holds all => ⟨holds.1.insert all _, holds.2.insert _ _⟩
      evals := by
        -- What has no value later had none when the statement started.
        intro later room part e holds member own
        have followed := (eval_unbound quiet closed holds.1 room Environment.all_empty e).and
          (eval_all closed holds.1 room Environment.all_empty e)
        refine followed.mono (fun v all => all.2) fun stop unbound => unbound.mono ?_
        rintro name ⟨unresolved, mentions⟩
        refine ⟨lookup?_eq_none_of_grows holds.2 unresolved, mentions.imp_left ?_⟩
        rintro ⟨mentions, -⟩
        exact ⟨part, member, e, own, mentions⟩
      levels := .fail (.of_ne (by decide))
      cancelled := .cancelled
      unfinished := .unfinished }
  exact (rule.stepAt rounds room ⟨env_all, .refl env⟩).value_mono fun _ _ => trivial

end Execution

/-! ## Functions that modules supply -/

/-- A module has a function of a script for a constant, or makes one up: a native function answers
it without having got it as an argument. -/
def Catalog.Supplies (c : Catalog) (ref : FunctionId) : Prop :=
  (∃ module m name v, c.get? module = some m ∧ m.member? name = some v ∧ .func ref ∈ v.parts) ∨
    ∃ target f args v, c.native? target = some f ∧ (f.body args).result = .value v ∧
      .func ref ∈ v.parts ∧ ∀ a ∈ args, .func ref ∉ a.parts

/-- A value is not a function of a script, or one that is allowed. -/
def Value.Calls (allowed : FunctionId → Prop) (v : Value) : Prop :=
  ∀ ref, v = .func ref → allowed ref

/-- Functions that modules do not supply come only from declarations. -/
theorem Execution.closed_calls {s : Execution} {allowed : FunctionId → Prop}
    (supplied : ∀ ref, s.catalog.Supplies ref → allowed ref) : s.Closed (Value.Calls allowed) where
  data v isData ref same := by
    subst same
    cases isData
  modules name _ ref same := by cases same
  members {module name m v} found held part member ref same := by
    subst same
    exact supplied ref (.inl ⟨module, m, name, v, found, held, member⟩)
  replies {target f args v} native known result part member ref same := by
    subst same
    -- A function in an answer was among the arguments, or the native function made it up.
    by_cases given : ∃ a ∈ args, .func ref ∈ a.parts
    · obtain ⟨a, isArg, inside⟩ := given
      exact known a isArg _ inside ref rfl
    · refine supplied ref (.inr ⟨target, f, args, v, native, result, member, ?_⟩)
      exact fun a isArg inside => given ⟨a, isArg, inside⟩
  pending _ _ _ ref same := by cases same

end ScriptShell
