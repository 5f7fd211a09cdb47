import ScriptShell.Proofs.Syntax.Spans

/-! # Which operators bind tighter

A row of operands with operators between them can be put into a tree in many ways. `Expr.Ordered`
says which of them is meant: an operator is applied before those that bind less tightly, and of
operators that bind as tightly the first one is applied first. `Expr.inOrder` reads the row off a
tree, and **`bare_eq_of_inOrder`** says that a row has one ordered tree, up to places. -/

namespace ScriptShell

/-- How tightly an operator binds. -/
def BinaryOp.level : BinaryOp → Nat
  | .or => 0
  | .and => 1
  | .lte | .gte | .eq | .ne | .lt | .gt => 2
  | .add | .sub => 3
  | .mul | .div | .mod => 4

namespace Expr

/-- The operator at the root of a tree. -/
def rootOp? : Expr → Option BinaryOp
  | .binary op .. => some op
  | _ => none

/-- The operands and operators of a tree from left to right, up to places. -/
def inOrder : Expr → List (Expr ⊕ BinaryOp)
  | .binary op left right _ => left.inOrder ++ .inr op :: right.inOrder
  | e => [.inl e.bare]

/-- At every operator, what is applied before it binds at least as tightly on its left and more
tightly on its right. -/
def Ordered : Expr → Prop
  | .binary op left right _ =>
    (∀ o ∈ left.rootOp?, op.level ≤ o.level) ∧ (∀ o ∈ right.rootOp?, op.level < o.level) ∧
      left.Ordered ∧ right.Ordered
  | _ => True

/-- Whether a tree is ordered can be computed. -/
def decideOrdered : (e : Expr) → Decidable e.Ordered
  | .binary op left right _ =>
    have := left.decideOrdered
    have := right.decideOrdered
    inferInstanceAs (Decidable ((∀ o ∈ left.rootOp?, op.level ≤ o.level) ∧
      (∀ o ∈ right.rootOp?, op.level < o.level) ∧ left.Ordered ∧ right.Ordered))
  | .num .. | .str .. | .bool .. | .null _ | .list .. | .ident .. | .member .. | .call ..
  | .unary .. => isTrue trivial

instance : DecidablePred Ordered :=
  decideOrdered

/-- An expression without an operator at its root is in order as it is. -/
theorem inOrder_of_rootOp? {e : Expr} (leaf : e.rootOp? = none) : e.inOrder = [.inl e.bare] := by
  cases e with
  | binary => cases leaf
  | _ => rfl

/-- An expression without an operator at its root has its operands in order. -/
theorem ordered_of_rootOp? {e : Expr} (leaf : e.rootOp? = none) : e.Ordered := by
  cases e with
  | binary => cases leaf
  | _ => trivial

/-- Below the root of an ordered tree nothing binds less tightly. -/
theorem level_le_of_mem_inOrder {e : Expr} (ordered : e.Ordered) {n : Nat}
    (root : ∀ op ∈ e.rootOp?, n ≤ op.level) {o : BinaryOp} (member : .inr o ∈ e.inOrder) :
    n ≤ o.level := by
  match e with
  | .binary op left right _ =>
      obtain ⟨onLeft, onRight, leftOrdered, rightOrdered⟩ := ordered
      have atRoot : n ≤ op.level := root op rfl
      rw [inOrder, List.mem_append, List.mem_cons] at member
      rcases member with inLeft | isRoot | inRight
      · exact level_le_of_mem_inOrder leftOrdered
          (fun o isRoot => Nat.le_trans atRoot (onLeft o isRoot)) inLeft
      · cases isRoot
        exact atRoot
      · exact level_le_of_mem_inOrder rightOrdered
          (fun o isRoot => Nat.le_of_lt (Nat.lt_of_le_of_lt atRoot (onRight o isRoot))) inRight
  | .num .. | .str .. | .bool .. | .null _ | .list .. | .ident .. | .member .. | .call ..
  | .unary .. =>
      rw [inOrder_of_rootOp? rfl, List.mem_singleton] at member
      cases member

/-- An operator of the right half of an ordered tree binds more tightly than the root, and one of
the left half at least as tightly. So two ordered trees with one row are cut at the same place. -/
theorem cut_unique {op op' : BinaryOp} {left right left' right' : Expr} {span span' : Span}
    (ordered : (Expr.binary op left right span).Ordered)
    (ordered' : (Expr.binary op' left' right' span').Ordered)
    {between : List (Expr ⊕ BinaryOp)} (isLeft : left'.inOrder = left.inOrder ++ between)
    (isRight : .inr op :: right.inOrder = between ++ .inr op' :: right'.inOrder) :
    between = [] := by
  cases between with
  | nil => rfl
  | cons x between =>
      exfalso
      simp only [List.cons_append, List.cons.injEq] at isRight
      obtain ⟨rfl, isRight⟩ := isRight
      have onLeft : op'.level ≤ op.level :=
        level_le_of_mem_inOrder ordered'.2.2.1 ordered'.1 (by simp [isLeft])
      have onRight : op.level < op'.level :=
        level_le_of_mem_inOrder ordered.2.2.2 ordered.2.1 (by simp [isRight])
      omega

/-- A single operand is a row of its own. -/
theorem bare_eq_of_leaf {e e' : Expr} (leaf : e.rootOp? = none) (same : e.inOrder = e'.inOrder) :
    e.bare = e'.bare := by
  rw [inOrder_of_rootOp? leaf] at same
  cases root : e'.rootOp? with
  | none =>
      rw [inOrder_of_rootOp? root] at same
      exact Sum.inl.inj (List.singleton_inj.mp same)
  | some op =>
      have member : .inr op ∈ e'.inOrder := by
        cases e' with
        | binary =>
            cases root
            simp [inOrder]
        | _ => cases root
      rw [← same, List.mem_singleton] at member
      cases member

/-- **A row of operands and operators has one ordered tree**, up to places. -/
theorem bare_eq_of_inOrder {e e' : Expr} (ordered : e.Ordered) (ordered' : e'.Ordered)
    (same : e.inOrder = e'.inOrder) : e.bare = e'.bare := by
  match e with
  | .binary op left right span =>
      cases e' with
      | binary op' left' right' span' =>
          rw [inOrder, inOrder] at same
          -- One left half starts with the other, and nothing lies between their ends.
          have cut : left.inOrder = left'.inOrder ∧
              Sum.inr op :: right.inOrder = .inr op' :: right'.inOrder := by
            rcases List.append_eq_append_iff.mp same with
              ⟨between, isLeft, isRight⟩ | ⟨between, isLeft, isRight⟩
            · obtain rfl := cut_unique ordered ordered' isLeft isRight
              exact ⟨by simpa using isLeft.symm, isRight⟩
            · obtain rfl := cut_unique ordered' ordered isLeft isRight
              exact ⟨by simpa using isLeft, isRight.symm⟩
          obtain ⟨sameLeft, sameRight⟩ := cut
          simp only [List.cons.injEq, Sum.inr.injEq] at sameRight
          obtain ⟨rfl, sameRight⟩ := sameRight
          rw [bare, bare, bare_eq_of_inOrder ordered.2.2.1 ordered'.2.2.1 sameLeft,
            bare_eq_of_inOrder ordered.2.2.2 ordered'.2.2.2 sameRight]
      | _ => exact (bare_eq_of_leaf rfl same.symm).symm
  | .num .. | .str .. | .bool .. | .null _ | .list .. | .ident .. | .member .. | .call ..
  | .unary .. => exact bare_eq_of_leaf rfl same

end Expr

end ScriptShell
