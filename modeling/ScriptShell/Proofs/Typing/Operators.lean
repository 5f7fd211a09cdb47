import ScriptShell.Proofs.Typing.Inhabits

/-! # The checker is right about operators

An operator is typed by `typeOfBinary` and applied by `BinaryOp.apply`, two separate case analyses.
**`apply_inhabits`** says that they agree: between values of types that an operator takes, the
result has the type of the operator, and the operands can be of a wrong shape only if the type of
one of them is `any`. -/

namespace ScriptShell

variable {c : Catalog} {left right : Value} {l r : Ty}

/-- An operator stops only for the shape of its operands, or because of a division by zero. -/
theorem apply_stops {loose : Prop} (excuse : loose) (op : BinaryOp) (left right : Value) :
    (Execution.ofResult (op.apply left right)).Ensures (fun _ => True) (Stop.Excused loose) := by
  refine Execution.ofResult_ensures (fun _ _ => trivial) fun e failed => ?_
  rcases BinaryOp.code_of_apply failed with code | code
  · exact ⟨by rw [code]; rfl, fun _ => excuse⟩
  · exact ⟨by rw [code]; rfl, fun shape => by simp [code, ErrorCode.isShapeError] at shape⟩

/-- What takes a number takes a number, or what it knows nothing of. -/
theorem number_of_accepts (accepts : Ty.num.accepts l = true) (inhabits : left.Inhabits c l) :
    (∃ x, left = .num x) ∨ l = .any := by
  cases l with
  | num => exact .inl inhabits
  | any => exact .inr rfl
  | str | bool | null | void | list | future | fn | module => simp [Ty.accepts] at accepts

/-- Two numbers, or two strings, or what is not known to be any. -/
theorem ordered_of_areOrdered (ordered : areOrdered l r = true) (left_inhabits : left.Inhabits c l)
    (right_inhabits : right.Inhabits c r) :
    (∃ x y, left = .num x ∧ right = .num y) ∨ (∃ x y, left = .str x ∧ right = .str y) ∨
      (l = .any ∨ r = .any) := by
  unfold areOrdered at ordered
  split at ordered
  · obtain ⟨x, rfl⟩ := left_inhabits
    obtain ⟨y, rfl⟩ := right_inhabits
    exact .inl ⟨x, y, rfl, rfl⟩
  · obtain ⟨x, rfl⟩ := left_inhabits
    obtain ⟨y, rfl⟩ := right_inhabits
    exact .inr (.inl ⟨x, y, rfl, rfl⟩)
  · exact .inr (.inr (.inl rfl))
  · exact .inr (.inr (.inr rfl))
  · cases ordered

/-- Whatever arithmetic makes is a number. -/
theorem arithmetic_value {op : BinaryOp}
    (arithmetic : op = .sub ∨ op = .mul ∨ op = .div ∨ op = .mod) (left right : Value) :
    (Execution.ofResult (op.apply left right)).Ensures (·.Inhabits c .num) fun _ => True := by
  have numbers : ∀ x y,
      (Execution.ofResult (op.onNumbers x y)).Ensures (·.Inhabits c .num) fun _ => True := by
    intro x y
    rcases arithmetic with rfl | rfl | rfl | rfl
    · exact .pure ⟨_, rfl⟩
    · exact .pure ⟨_, rfl⟩
    all_goals
      unfold BinaryOp.onNumbers
      dsimp only
      split
      · exact .throw trivial
      · exact .pure ⟨_, rfl⟩
  have strings : ∀ x y,
      (Execution.ofResult (op.onStrings x y)).Ensures (·.Inhabits c .num) fun _ => True := by
    intro x y
    rcases arithmetic with rfl | rfl | rfl | rfl <;> exact .throw trivial
  unfold BinaryOp.apply
  split
  case h_3 => exact numbers _ _
  case h_5 => exact strings _ _
  case h_8 => exact .throw trivial
  all_goals simp at arithmetic

/-- Whatever a comparison of order makes is a truth value. -/
theorem order_value {op : BinaryOp} (order : op = .lt ∨ op = .lte ∨ op = .gt ∨ op = .gte)
    (left right : Value) :
    (Execution.ofResult (op.apply left right)).Ensures (·.Inhabits c .bool) fun _ => True := by
  unfold BinaryOp.apply
  split
  case h_3 => rcases order with rfl | rfl | rfl | rfl <;> exact .pure ⟨_, rfl⟩
  case h_5 => rcases order with rfl | rfl | rfl | rfl <;> exact .pure ⟨_, rfl⟩
  case h_8 => exact .throw trivial
  all_goals simp at order

/-- Arithmetic makes numbers, and stops for the shape only of what is not known to be a number. -/
theorem arithmetic_inhabits {op : BinaryOp}
    (arithmetic : op = .sub ∨ op = .mul ∨ op = .div ∨ op = .mod)
    (left_accepts : Ty.num.accepts l = true) (right_accepts : Ty.num.accepts r = true)
    (left_inhabits : left.Inhabits c l) (right_inhabits : right.Inhabits c r) :
    (Execution.ofResult (op.apply left right)).Ensures (·.Inhabits c .num)
      (Stop.Excused (l = .any ∨ r = .any)) := by
  -- Where a type is `any`, the operator may stop for the shape, but still makes numbers.
  have unknown : l = .any ∨ r = .any → (Execution.ofResult (op.apply left right)).Ensures
      (·.Inhabits c .num) (Stop.Excused (l = .any ∨ r = .any)) := fun loose =>
    ((apply_stops loose op left right).and (arithmetic_value arithmetic left right)).value_mono
      fun _ holds => holds.2
  rcases number_of_accepts left_accepts left_inhabits with ⟨x, rfl⟩ | any
  · rcases number_of_accepts right_accepts right_inhabits with ⟨y, rfl⟩ | any
    · rcases arithmetic with rfl | rfl | rfl | rfl
      · exact .pure ⟨_, rfl⟩
      · exact .pure ⟨_, rfl⟩
      all_goals
        unfold BinaryOp.apply BinaryOp.onNumbers
        dsimp only
        split
        · exact .throw ⟨rfl, fun shape => by cases shape⟩
        · exact .pure ⟨_, rfl⟩
    · exact unknown (.inr any)
  · exact unknown (.inl any)

/-- A comparison of order makes a truth value, and stops for the shape only of what is not known to
be ordered. -/
theorem order_inhabits {op : BinaryOp} (order : op = .lt ∨ op = .lte ∨ op = .gt ∨ op = .gte)
    (ordered : areOrdered l r = true) (left_inhabits : left.Inhabits c l)
    (right_inhabits : right.Inhabits c r) :
    (Execution.ofResult (op.apply left right)).Ensures (·.Inhabits c .bool)
      (Stop.Excused (l = .any ∨ r = .any)) := by
  rcases ordered_of_areOrdered ordered left_inhabits right_inhabits with
    ⟨x, y, rfl, rfl⟩ | ⟨x, y, rfl, rfl⟩ | loose
  · rcases order with rfl | rfl | rfl | rfl <;> exact .pure ⟨_, rfl⟩
  · rcases order with rfl | rfl | rfl | rfl <;> exact .pure ⟨_, rfl⟩
  · exact ((apply_stops loose op left right).and (order_value order left right)).value_mono
      fun _ holds => holds.2

/-- A sum has the type of the sum: it is of numbers, of lists, or a text as soon as one side is. -/
theorem sum_inhabits {type : Ty} (typed : typeOfSum? l r = some type)
    (left_inhabits : left.Inhabits c l) (right_inhabits : right.Inhabits c r) :
    (Execution.ofResult (BinaryOp.apply .add left right)).Ensures (·.Inhabits c type)
      (Stop.Excused (l = .any ∨ r = .any)) := by
  unfold typeOfSum? at typed
  split at typed
  · cases typed
    obtain ⟨x, rfl⟩ := left_inhabits
    obtain ⟨y, rfl⟩ := right_inhabits
    exact .pure ⟨_, rfl⟩
  · cases typed
    obtain ⟨x, rfl⟩ := left_inhabits
    cases right <;> exact .pure ⟨_, rfl⟩
  · cases typed
    obtain ⟨y, rfl⟩ := right_inhabits
    cases left <;> exact .pure ⟨_, rfl⟩
  -- Two lists: an item of either has the join of the two item types.
  · rename_i a b
    cases typed
    obtain ⟨xs, rfl, left_items⟩ := left_inhabits
    obtain ⟨ys, rfl, right_items⟩ := right_inhabits
    refine .pure ⟨_, rfl, fun v member => ?_⟩
    rcases List.mem_append.mp member with member | member
    · exact (left_items v member).join_left b
    · exact (right_items v member).join_right a
  -- One side is `any`, so nothing is promised about the sum.
  · cases typed
    exact (apply_stops (.inl rfl) .add left right).value_mono fun _ _ => trivial
  · cases typed
    exact (apply_stops (.inr rfl) .add left right).value_mono fun _ _ => trivial
  · cases typed

/-- What the type of an operator between two values promises. -/
theorem apply_inhabits {op : BinaryOp} {span : Span} (notAnd : op ≠ .and) (notOr : op ≠ .or)
    (left_inhabits : left.Inhabits c l) (right_inhabits : right.Inhabits c r)
    (clean : (typeOfBinary op l r span).problems = []) :
    (Execution.ofResult (op.apply left right)).Ensures
      (·.Inhabits c (typeOfBinary op l r span).type) (Stop.Excused (l = .any ∨ r = .any)) := by
  cases op with
  | and => contradiction
  | or => contradiction
  | eq | ne => exact .pure ⟨_, rfl⟩
  | add =>
      simp only [typeOfBinary] at clean ⊢
      split at clean
      · rename_i type typed
        exact sum_inhabits typed left_inhabits right_inhabits
      · cases clean
  | sub | mul | div | mod =>
      simp only [typeOfBinary] at clean ⊢
      split at clean
      · rename_i accepts
        rw [if_pos accepts]
        rw [Bool.and_eq_true] at accepts
        exact arithmetic_inhabits (by simp) accepts.1 accepts.2 left_inhabits right_inhabits
      · cases clean
  | lt | lte | gt | gte =>
      simp only [typeOfBinary] at clean ⊢
      split at clean
      · rename_i ordered
        rw [if_pos ordered]
        exact order_inhabits (by simp) ordered left_inhabits right_inhabits
      · cases clean

end ScriptShell
