import ScriptShell.Proofs.Syntax.Spans
import ScriptShell.Typing.Check

/-! # Places make no difference to the checker

Where an expression or a statement stands decides where a problem is reported, and nothing else:
statements that are the same up to places declare the same names with the same types, and have
problems of the same texts in the same order (**`checkAll_mapSpanAll`**). -/

namespace ScriptShell

/-! ## The same up to places -/

/-- The texts of problems. -/
def messages (problems : List Diagnostic) : List String :=
  problems.map (·.message)

@[simp] theorem messages_append (first second : List Diagnostic) :
    messages (first ++ second) = messages first ++ messages second :=
  List.map_append

/-- There are no messages exactly if there are no problems. -/
theorem messages_eq_nil_iff {problems : List Diagnostic} : messages problems = [] ↔ problems = [] :=
  List.map_eq_nil_iff

/-- The same type, and problems of the same texts. -/
structure Typed.Same (t u : Typed) : Prop where
  type : t.type = u.type
  texts : messages t.problems = messages u.problems

/-- What is put together from the same parts is the same. -/
theorem Typed.Same.after {t u : Typed} (same : t.Same u) {before before' : List Diagnostic}
    (texts : messages before = messages before') :
    Typed.Same ⟨t.type, before ++ t.problems⟩ ⟨u.type, before' ++ u.problems⟩ :=
  ⟨same.type, by rw [messages_append, messages_append, texts, same.texts]⟩

/-- What is used as a value has the same type and messages, wherever it stands. -/
theorem Typed.Same.asValue {t u : Typed} (same : t.Same u) (span span' : Span) :
    (t.asValue span).Same (u.asValue span') := by
  rw [Typed.asValue, Typed.asValue, same.type]
  split
  · refine ⟨rfl, ?_⟩
    rw [messages_append, messages_append, same.texts]
    rfl
  · exact same

/-! ## Types of one step -/

section

variable (s : Scope) (span span' : Span)

/-- A name has the same type and messages, wherever it stands. -/
theorem Scope.typeOfName_same (name : String) :
    (s.typeOfName name span).Same (s.typeOfName name span') := by
  unfold typeOfName
  split <;> exact ⟨rfl, rfl⟩

/-- A member has the same type and messages, wherever it stands. -/
theorem Scope.typeOfMember_same (object : Ty) (property : String) :
    (s.typeOfMember object property span).Same (s.typeOfMember object property span') := by
  unfold typeOfMember
  split
  · split <;> exact ⟨rfl, rfl⟩
  · exact ⟨rfl, rfl⟩
  · exact ⟨rfl, rfl⟩

/-- Arguments give the same messages, wherever the call stands. -/
theorem messages_argumentProblems (name : String) (index : Nat) (params args : List Ty) :
    messages (argumentProblems name span index params args) =
      messages (argumentProblems name span' index params args) := by
  induction params generalizing index args with
  | nil => rfl
  | cons expected params ih =>
      cases args with
      | nil => rfl
      | cons actual args =>
          rw [argumentProblems, argumentProblems]
          split
          · exact ih (index + 1) args
          · exact congrArg (_ :: ·) (ih (index + 1) args)

/-- A call has the same type and messages, wherever it stands. -/
theorem typeOfCall_same (name : String) (callee : Ty) (args : List Ty) :
    (typeOfCall name callee args span).Same (typeOfCall name callee args span') := by
  unfold typeOfCall
  split
  · refine ⟨rfl, ?_⟩
    rw [messages_append, messages_append, messages_argumentProblems span span']
    congr 1
    simp only [countProblems]
    split <;> split <;> rfl
  · exact ⟨rfl, rfl⟩
  · exact ⟨rfl, rfl⟩

/-- A prefix operator has the same type and messages, wherever it stands. -/
theorem typeOfUnary_same (op : UnaryOp) (operand : Ty) :
    (typeOfUnary op operand span).Same (typeOfUnary op operand span') := by
  unfold typeOfUnary
  split
  · split <;> exact ⟨rfl, rfl⟩
  all_goals exact ⟨rfl, rfl⟩

/-- An operator has the same type and messages, wherever it stands. -/
theorem typeOfBinary_same (op : BinaryOp) (left right : Ty) :
    (typeOfBinary op left right span).Same (typeOfBinary op left right span') := by
  unfold typeOfBinary
  split
  case h_5 => split <;> exact ⟨rfl, rfl⟩
  case h_6 | h_7 | h_8 | h_9 | h_10 | h_11 | h_12 | h_13 => split <;> exact ⟨rfl, rfl⟩
  all_goals exact ⟨rfl, rfl⟩

end

@[simp] theorem Expr.calledAs_mapSpan (f : Span → Span) (e : Expr) :
    (e.mapSpan f).calledAs = e.calledAs := by
  induction e using Expr.calledAs.induct with
  | case1 name span => rfl
  | case2 object property span ih => rw [mapSpan, calledAs, calledAs, ih]
  | case3 e notIdent notMember => cases e <;> first | rfl | simp at notIdent notMember

/-! ## Expressions and statements -/

namespace Scope

variable (s : Scope) (f : Span → Span)

mutual

/-- Where an expression stands makes no difference to its type. -/
theorem infer_mapSpan (e : Expr) : (s.infer (e.mapSpan f)).Same (s.infer e) := by
  cases e with
  | num | str | bool | null => exact ⟨rfl, rfl⟩
  | list items span =>
      have same := inferAll_mapSpanAll items
      rw [Expr.mapSpan, infer, infer, same.1]
      exact ⟨rfl, same.2⟩
  | ident name span => exact s.typeOfName_same _ _ name
  | member object property span =>
      have inner := (infer_mapSpan object).asValue (object.mapSpan f).span object.span
      rw [Expr.mapSpan, infer, infer, inner.type]
      exact (s.typeOfMember_same _ _ _ property).after inner.texts
  | call callee args span =>
      have function := (infer_mapSpan callee).asValue (callee.mapSpan f).span callee.span
      have same := inferAll_mapSpanAll args
      rw [Expr.mapSpan, infer, infer, function.type, same.1, Expr.calledAs_mapSpan]
      refine (typeOfCall_same _ _ _ _ _).after ?_
      rw [messages_append, messages_append, function.texts, same.2]
  | unary op operand span =>
      have inner := (infer_mapSpan operand).asValue (operand.mapSpan f).span operand.span
      rw [Expr.mapSpan, infer, infer, inner.type]
      exact (typeOfUnary_same _ _ op _).after inner.texts
  | binary op left right span =>
      have l := (infer_mapSpan left).asValue (left.mapSpan f).span left.span
      have r := (infer_mapSpan right).asValue (right.mapSpan f).span right.span
      rw [Expr.mapSpan, infer, infer, l.type, r.type]
      refine (typeOfBinary_same _ _ op _ _).after ?_
      rw [messages_append, messages_append, l.texts, r.texts]

/-- Several expressions have the same types and messages, wherever they stand. -/
theorem inferAll_mapSpanAll (items : List Expr) :
    (s.inferAll (Expr.mapSpanAll f items)).1 = (s.inferAll items).1 ∧
      messages (s.inferAll (Expr.mapSpanAll f items)).2 = messages (s.inferAll items).2 := by
  cases items with
  | nil => exact ⟨rfl, rfl⟩
  | cons e rest =>
      have first := (infer_mapSpan e).asValue (e.mapSpan f).span e.span
      have others := inferAll_mapSpanAll rest
      rw [Expr.mapSpanAll, inferAll, inferAll, first.type, others.1]
      exact ⟨rfl, by rw [messages_append, messages_append, first.texts, others.2]⟩

end

/-- A value that is bound has the same type and messages, wherever it stands. -/
theorem typeToBind_mapSpan (name : String) (value : Expr) (span span' : Span) :
    (s.typeToBind name (value.mapSpan f) span).Same (s.typeToBind name value span') := by
  have same := s.infer_mapSpan f value
  rw [typeToBind, typeToBind, same.type]
  split
  · refine ⟨rfl, ?_⟩
    rw [messages_append, messages_append, same.texts]
    rfl
  · exact same

end Scope

/-- The same declared names, and problems of the same texts. -/
structure Checked.Same (c d : Checked) : Prop where
  bindings : c.bindings = d.bindings
  texts : messages c.problems = messages d.problems

namespace Scope

variable (f : Span → Span)

mutual

/-- Where a statement stands makes no difference to what it declares. -/
theorem check_mapSpan (s : Scope) (stmt : Stmt) :
    (s.check (stmt.mapSpan f)).Same (s.check stmt) := by
  match stmt with
  | .load .. => exact ⟨rfl, rfl⟩
  | .use module span =>
      rw [Stmt.mapSpan, check, check]
      split <;> exact ⟨rfl, rfl⟩
  | .define name params body span =>
      have same := infer_mapSpan { s with
        bindings := s.bindings.insert name (functionType params .any)
        locals := Dict.ofList (params.map (·, .any)) } f body
      rw [Stmt.mapSpan, check, check, checkFunction, checkFunction, same.type]
      exact ⟨rfl, same.texts⟩
  | .bind name value span | .assign name value span =>
      have same := s.typeToBind_mapSpan f name value (f span) span
      rw [Stmt.mapSpan, check, check, same.type]
      exact ⟨rfl, same.texts⟩
  | .branch test onTrue none span =>
      have tested := (s.infer_mapSpan f test).asValue (test.mapSpan f).span test.span
      have first := checkAll_mapSpanAll s onTrue
      simp only [Stmt.mapSpan, check]
      exact ⟨first.bindings, by rw [messages_append, messages_append, tested.texts, first.texts]⟩
  | .branch test onTrue (some onFalse) span =>
      have tested := (s.infer_mapSpan f test).asValue (test.mapSpan f).span test.span
      have first := checkAll_mapSpanAll s onTrue
      simp only [Stmt.mapSpan, check, first.bindings]
      have second := checkAll_mapSpanAll (s.withBindings (s.checkAll onTrue).bindings) onFalse
      exact ⟨second.bindings, by simp only [messages_append, tested.texts, first.texts,
        second.texts]⟩
  | .loop test body span =>
      have tested := (s.infer_mapSpan f test).asValue (test.mapSpan f).span test.span
      have inner := checkAll_mapSpanAll s body
      simp only [Stmt.mapSpan, check]
      exact ⟨inner.bindings, by rw [messages_append, messages_append, tested.texts, inner.texts]⟩
  | .eval e terminated span => exact ⟨rfl, (s.infer_mapSpan f e).texts⟩

/-- **Where statements stand makes no difference to what they declare.** -/
theorem checkAll_mapSpanAll (s : Scope) (stmts : List Stmt) :
    (s.checkAll (Stmt.mapSpanAll f stmts)).Same (s.checkAll stmts) := by
  match stmts with
  | [] => exact ⟨rfl, rfl⟩
  | stmt :: rest =>
      have first := check_mapSpan s stmt
      have others := checkAll_mapSpanAll (s.withBindings (s.check stmt).bindings) rest
      simp only [Stmt.mapSpanAll, checkAll, first.bindings]
      exact ⟨others.bindings, by rw [messages_append, messages_append, first.texts, others.texts]⟩

end

/-- Statements that are the same up to places are checked alike. -/
theorem checkAll_of_bareAll_eq (s : Scope) {stmts stmts' : List Stmt}
    (same : Stmt.bareAll stmts = Stmt.bareAll stmts') :
    (s.checkAll stmts).bindings = (s.checkAll stmts').bindings ∧
      ((s.checkAll stmts).problems = [] ↔ (s.checkAll stmts').problems = []) := by
  have left := checkAll_mapSpanAll (fun _ => default) s stmts
  have right := checkAll_mapSpanAll (fun _ => default) s stmts'
  rw [← Stmt.bareAll] at left right
  rw [same] at left
  refine ⟨left.bindings.symm.trans right.bindings, ?_⟩
  rw [← messages_eq_nil_iff, ← left.texts, right.texts, messages_eq_nil_iff]

end Scope

end ScriptShell
