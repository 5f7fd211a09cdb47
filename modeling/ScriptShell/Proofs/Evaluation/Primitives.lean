import ScriptShell.Proofs.Evaluation.Ensures

/-! # What primitive steps stop for

Access to members, calls of native functions and operators evaluate nothing further, and they stop
for few reasons: an error of their own, an error of a native function, a cancellation, or a native
function that breaks off. `Execution.Tolerates s stop` says that `stop` holds of all of these, and
the lemmas below say that nothing else comes out of a primitive step. -/

namespace ScriptShell

namespace Execution

/-- `stop` holds of every reason to stop that is neither an undefined name, nor too many levels, nor
an unfinished loop, and of every error of a native function. -/
structure Tolerates (s : Execution) (stop : Stop → Prop) : Prop where
  cancelled : stop .cancelled
  broken : stop .broken
  failed : ∀ {e : RunError}, e.code ≠ .undefinedVariable → e.code ≠ .recursionLimit →
    stop (.failed e)
  natives : ∀ {ref f args e}, s.native? ref = some f → (f.body args).result = .failure e →
    stop (.failed e)

namespace Tolerates

variable {s : Execution} {stop : Stop → Prop}

/-- Failing for a reason that is tolerated. -/
theorem fail (tolerates : s.Tolerates stop) {α : Type} {value : α → Prop} {code : ErrorCode}
    {message : String} (named : code ≠ .undefinedVariable) (shallow : code ≠ .recursionLimit) :
    (Run.fail code message : Run α).Ensures value stop :=
  .fail (tolerates.failed named shallow)

/-- Members of values. -/
theorem memberOf (tolerates : s.Tolerates stop) (object : Value) (property : String) :
    (s.memberOf object property).Ensures (fun _ => True) stop := by
  unfold Execution.memberOf memberValue
  split
  · split
    · exact tolerates.fail (by decide) (by decide)
    · split
      · exact .pure trivial
      · exact tolerates.fail (by decide) (by decide)
  · split
    · exact .pure trivial
    · exact tolerates.fail (by decide) (by decide)
  · exact tolerates.fail (by decide) (by decide)

/-- Calls of native functions. -/
theorem callNative (tolerates : s.Tolerates stop) (ref : NativeId) (args : List Value) :
    (s.callNative ref args).Ensures (fun _ => True) stop := by
  unfold Execution.callNative
  split
  · exact tolerates.fail (by decide) (by decide)
  · rename_i f known
    split
    · exact .pure trivial
    · exact .perform (fun _ _ => trivial) (fun e result => tolerates.natives known result)
        tolerates.broken

/-- A call, given what the bodies of declared functions stop for. -/
theorem call (tolerates : s.Tolerates stop) {evalBody : Environment → Expr → Run Value}
    {callee : Value} {args : List Value}
    (bodies : ∀ {ref decl}, callee = .func ref → s.unit.function? ref.name ref.unit = some decl →
      decl.params.length = args.length →
      (evalBody (Dict.ofList (decl.params.zip args)) decl.body).Ensures (fun _ => True) stop) :
    (s.call evalBody callee args).Ensures (fun _ => True) stop := by
  unfold Execution.call
  split
  · split
    · exact tolerates.fail (by decide) (by decide)
    · rename_i decl found
      split
      · rename_i length
        exact bodies rfl found length
      · exact tolerates.fail (by decide) (by decide)
  · exact tolerates.callNative _ args
  · exact tolerates.fail (by decide) (by decide)

/-- Prefix operators, awaiting among them. -/
theorem applyUnary (tolerates : s.Tolerates stop) (op : UnaryOp) (v : Value) :
    (s.applyUnary op v).Ensures (fun _ => True) stop := by
  unfold Execution.applyUnary
  split
  · exact .pure trivial
  · exact tolerates.fail (by decide) (by decide)
  · exact .pure trivial
  · unfold await
    split
    · split
      · exact tolerates.fail (by decide) (by decide)
      · rename_i f known
        have found := (Option.filter_eq_some_iff.mp known).1
        refine .bind (.note _ tolerates.broken) fun _ _ => .poll ?_ tolerates.cancelled
          tolerates.broken _
        exact .perform (fun _ _ => trivial) (fun e result => tolerates.natives found result)
          tolerates.broken
    · exact .pure trivial

/-- Operators between two operands. -/
theorem apply (tolerates : s.Tolerates stop) (op : BinaryOp) (left right : Value) :
    (ofResult (op.apply left right)).Ensures (fun _ => True) stop := by
  refine ofResult_ensures (fun _ _ => trivial) fun e failed => tolerates.failed ?_ ?_
  all_goals rcases BinaryOp.code_of_apply failed with code | code <;> simp [code]

end Tolerates

end Execution

end ScriptShell
