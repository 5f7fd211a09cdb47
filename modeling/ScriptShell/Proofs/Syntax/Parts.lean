import ScriptShell.Syntax.Ast

/-! # Parts of syntax trees

`Expr.parts` lists an expression with all expressions inside it, and `Stmt.parts` a statement with
all statements in its blocks, both in the order of the source. What a fragment declares is read off
them: a statement declares a name at the top of a fragment, or only inside the block of a branch or
a loop, which may never run. -/

namespace ScriptShell

/-! ## Expressions -/

mutual

/-- An expression and all expressions inside it. -/
def Expr.parts : Expr → List Expr
  | .num value span => [.num value span]
  | .str value span => [.str value span]
  | .bool value span => [.bool value span]
  | .null span => [.null span]
  | .list items span => .list items span :: Expr.partsAll items
  | .ident name span => [.ident name span]
  | .member object property span => .member object property span :: object.parts
  | .call callee args span => .call callee args span :: (callee.parts ++ Expr.partsAll args)
  | .unary op operand span => .unary op operand span :: operand.parts
  | .binary op left right span => .binary op left right span :: (left.parts ++ right.parts)

/-- All expressions inside some expressions, these included. -/
def Expr.partsAll : List Expr → List Expr
  | [] => []
  | e :: rest => e.parts ++ Expr.partsAll rest

end

namespace Expr

/-- The parts of several expressions are those of each. -/
theorem mem_partsAll {part : Expr} {items : List Expr} :
    part ∈ partsAll items ↔ ∃ e ∈ items, part ∈ e.parts := by
  induction items with
  | nil => simp [partsAll]
  | cons e rest ih => simp [partsAll, ih]

/-- An expression is a part of itself. -/
theorem self_mem_parts (e : Expr) : e ∈ e.parts := by
  cases e <;> simp [parts]

/-- Whether a name stands somewhere in an expression. -/
def Mentions (e : Expr) (name : String) : Prop :=
  ∃ span, .ident name span ∈ e.parts

instance (e : Expr) (name : String) : Decidable (e.Mentions name) :=
  decidable_of_iff
    (e.parts.any (fun part =>
      match part with
      | .ident other _ => other == name
      | _ => false) = true) <| by
    rw [List.any_eq_true]
    constructor
    · rintro ⟨part, member, isName⟩
      split at isName
      · obtain rfl := beq_iff_eq.mp isName
        exact ⟨_, member⟩
      · cases isName
    · rintro ⟨span, member⟩
      exact ⟨_, member, beq_self_eq_true name⟩

/-! ## Levels -/

mutual

/-- How many levels of expressions lie on the longest way into an expression. -/
def levels : Expr → Nat
  | .num .. | .str .. | .bool .. | .null _ | .ident .. => 1
  | .list items _ => levelsAll items + 1
  | .member object _ _ => object.levels + 1
  | .call callee args _ => max callee.levels (levelsAll args) + 1
  | .unary _ operand _ => operand.levels + 1
  | .binary _ left right _ => max left.levels right.levels + 1

/-- The levels of the deepest of some expressions. -/
def levelsAll : List Expr → Nat
  | [] => 0
  | e :: rest => max e.levels (levelsAll rest)

end

/-- An expression has no more levels than all of them together. -/
theorem levels_le_levelsAll {e : Expr} {items : List Expr} (member : e ∈ items) :
    e.levels ≤ levelsAll items := by
  induction items with
  | nil => cases member
  | cons first rest ih =>
      unfold levelsAll
      rcases List.mem_cons.mp member with rfl | member
      · omega
      · have := ih member
        omega

/-! ## Operands -/

/-- The expressions right below an expression. -/
def operands : Expr → List Expr
  | .list items _ => items
  | .member object _ _ => [object]
  | .call callee args _ => callee :: args
  | .unary _ operand _ => [operand]
  | .binary _ left right _ => [left, right]
  | .num .. | .str .. | .bool .. | .null _ | .ident .. => []

variable {e operand : Expr}

/-- The parts of an operand are parts of the whole. -/
theorem parts_of_mem_operands (member : operand ∈ e.operands) :
    ∀ part ∈ operand.parts, part ∈ e.parts := by
  intro part inside
  cases e with
  | list items => exact List.mem_cons_of_mem _ (mem_partsAll.mpr ⟨operand, member, inside⟩)
  | member | unary =>
      rw [List.mem_singleton.mp member] at inside
      exact List.mem_cons_of_mem _ inside
  | call callee args =>
      refine List.mem_cons_of_mem _ (List.mem_append.mpr ?_)
      rcases List.mem_cons.mp member with rfl | member
      · exact .inl inside
      · exact .inr (mem_partsAll.mpr ⟨operand, member, inside⟩)
  | binary op left right =>
      refine List.mem_cons_of_mem _ (List.mem_append.mpr ?_)
      rcases List.mem_cons.mp member with rfl | member
      · exact .inl inside
      · exact .inr (List.mem_singleton.mp member ▸ inside)
  | num | str | bool | null | ident => cases member

/-- The parts of an expression are itself and the parts of its operands. -/
theorem mem_parts_iff {part : Expr} :
    part ∈ e.parts ↔ part = e ∨ ∃ operand ∈ e.operands, part ∈ operand.parts := by
  cases e with
  | list => simp [parts, operands, mem_partsAll]
  | call => simp [parts, operands, mem_partsAll]
  | member | unary | binary => simp [parts, operands]
  | num | str | bool | null | ident => simp [parts, operands]

/-- An operand has fewer levels than the whole. -/
theorem levels_lt_of_mem_operands (member : operand ∈ e.operands) : operand.levels < e.levels := by
  cases e with
  | list items => exact Nat.lt_succ_of_le (levels_le_levelsAll member)
  | member | unary =>
      rw [List.mem_singleton.mp member]
      exact Nat.lt_succ_self _
  | call callee args =>
      rw [levels]
      rcases List.mem_cons.mp member with rfl | member
      · omega
      · have below := levels_le_levelsAll member
        omega
  | binary op left right =>
      rw [levels]
      rcases List.mem_cons.mp member with rfl | member
      · omega
      · rw [List.mem_singleton.mp member]
        omega
  | num | str | bool | null | ident => cases member

end Expr

/-! ## Statements -/

mutual

/-- The statements in the blocks of a statement. -/
def Stmt.inner : Stmt → List Stmt
  | .branch _ onTrue none _ => Stmt.partsAll onTrue
  | .branch _ onTrue (some onFalse) _ => Stmt.partsAll onTrue ++ Stmt.partsAll onFalse
  | .loop _ body _ => Stmt.partsAll body
  | .load .. | .use .. | .define .. | .bind .. | .assign .. | .eval .. => []

/-- All statements inside some statements, these included. -/
def Stmt.partsAll : List Stmt → List Stmt
  | [] => []
  | stmt :: rest => stmt :: Stmt.inner stmt ++ Stmt.partsAll rest

end

namespace Stmt

/-- A statement and all statements in its blocks. -/
def parts (stmt : Stmt) : List Stmt :=
  stmt :: stmt.inner

/-- The parts of several statements are those of each. -/
theorem mem_partsAll {part : Stmt} {stmts : List Stmt} :
    part ∈ partsAll stmts ↔ ∃ stmt ∈ stmts, part ∈ stmt.parts := by
  induction stmts with
  | nil => simp [partsAll]
  | cons stmt rest ih => simp [partsAll, parts, ih, or_assoc]

@[simp] theorem partsAll_append (first second : List Stmt) :
    partsAll (first ++ second) = partsAll first ++ partsAll second := by
  induction first with
  | nil => rfl
  | cons stmt rest ih => simp [partsAll, ih]

/-- The expression of a statement itself, if it has one: its value, its test, or the body of the
function it declares. -/
def expression? : Stmt → Option Expr
  | .define _ _ e _ | .bind _ e _ | .assign _ e _ | .branch e _ _ _ | .loop e _ _ | .eval e _ _ =>
    some e
  | .load .. | .use .. => none

/-- The expression that running a statement evaluates: its own, unless that is the body of a
function. -/
def evaluated? : Stmt → Option Expr
  | .bind _ e _ | .assign _ e _ | .branch e _ _ _ | .loop e _ _ | .eval e _ _ => some e
  | .load .. | .use .. | .define .. => none

/-- The parameters of the function that a statement declares. -/
def params : Stmt → List String
  | .define _ params _ _ => params
  | .load .. | .use .. | .bind .. | .assign .. | .branch .. | .loop .. | .eval .. => []

/-- The name that a statement declares by itself. -/
def declared? : Stmt → Option String
  | .define name _ _ _ | .bind name _ _ | .assign name _ _ => some name
  | .load .. | .use .. | .branch .. | .loop .. | .eval .. => none

/-- A name is declared by one of the statements themselves. -/
def Declares (stmts : List Stmt) (name : String) : Prop :=
  ∃ stmt ∈ stmts, stmt.declared? = some name

@[simp] theorem declares_nil (name : String) : ¬Declares [] name := by
  simp [Declares]

@[simp] theorem declares_cons {stmt : Stmt} {rest : List Stmt} {name : String} :
    Declares (stmt :: rest) name ↔ stmt.declared? = some name ∨ Declares rest name := by
  simp [Declares]

@[simp] theorem declares_append {first second : List Stmt} {name : String} :
    Declares (first ++ second) name ↔ Declares first name ∨ Declares second name := by
  simp [Declares, or_and_right, exists_or]

/-- A name is declared inside a branch or a loop of the statements. -/
def DeclaresInside (stmts : List Stmt) (name : String) : Prop :=
  ∃ stmt ∈ stmts, Declares stmt.inner name

/-- What statements declare inside them, they declare inside also before others. -/
theorem DeclaresInside.append_right {stmts : List Stmt} {name : String}
    (inside : DeclaresInside stmts name) (more : List Stmt) :
    DeclaresInside (stmts ++ more) name := by
  obtain ⟨stmt, member, declares⟩ := inside
  exact ⟨stmt, List.mem_append_left more member, declares⟩

/-- A statement with blocks declares no name itself. -/
theorem declared?_eq_none_of_mem_inner {stmt part : Stmt} (member : part ∈ stmt.inner) :
    stmt.declared? = none := by
  cases stmt with
  | branch | loop => rfl
  | load | use | define | bind | assign | eval => cases member

/-- What statements declare anywhere, one of them declares itself or inside. -/
theorem declares_partsAll {stmts : List Stmt} {name : String} :
    Declares (partsAll stmts) name ↔ Declares stmts name ∨ DeclaresInside stmts name := by
  induction stmts with
  | nil => simp [partsAll, DeclaresInside]
  | cons stmt rest ih =>
      have inside : DeclaresInside (stmt :: rest) name ↔
          Declares stmt.inner name ∨ DeclaresInside rest name := by
        simp [DeclaresInside]
      rw [partsAll, List.cons_append, declares_cons, declares_append, declares_cons, ih, inside]
      -- The same four cases on both sides, in different order.
      constructor
      · rintro (own | inner | own | inner)
        · exact .inl (.inl own)
        · exact .inr (.inl inner)
        · exact .inl (.inr own)
        · exact .inr (.inr inner)
      · rintro ((own | own) | inner | inner)
        · exact .inl own
        · exact .inr (.inr (.inl own))
        · exact .inr (.inl inner)
        · exact .inr (.inr (.inr inner))

end Stmt

end ScriptShell
