import ScriptShell.Evaluation.Unit
import ScriptShell.Proofs.Syntax.Parts

/-! # Which function a name stands for

A unit keeps one function for each name. `declaredFunctions` goes through all statements, those in
blocks included, and a later declaration replaces an earlier one: what is kept is the last
declaration in the text (**`get?_declaredFunctions`**), whether it has run or not, or ever will. So
of statements one after the other the later ones count first (**`declaredFunctions_append`**). -/

namespace ScriptShell

/-- The function that a statement itself declares under a name. -/
def Stmt.declarationOf? (name : String) : Stmt → Option FunctionDecl
  | .define other params body _ => if other = name then some ⟨params, body⟩ else none
  | .load .. | .use .. | .bind .. | .assign .. | .branch .. | .loop .. | .eval .. => none

/-- The last of some statements, in the order of the text, that declares a function of a name. -/
def lastDeclaration? (parts : List Stmt) (name : String) : Option FunctionDecl :=
  parts.reverse.findSome? (Stmt.declarationOf? name)

/-- The last declaration of a name in two rows of statements: in the second, or else in the
first. -/
theorem lastDeclaration?_append (first second : List Stmt) (name : String) :
    lastDeclaration? (first ++ second) name =
      (lastDeclaration? second name).or (lastDeclaration? first name) := by
  unfold lastDeclaration?
  rw [List.reverse_append, List.findSome?_append]

/-- The last declaration of a name: among the later statements, or else the first one's. -/
theorem lastDeclaration?_cons (stmt : Stmt) (rest : List Stmt) (name : String) :
    lastDeclaration? (stmt :: rest) name =
      (lastDeclaration? rest name).or (stmt.declarationOf? name) := by
  unfold lastDeclaration?
  rw [List.reverse_cons, List.findSome?_append, List.findSome?_singleton]

mutual

/-- A statement's last declaration comes before what was found already. -/
theorem get?_addFunctions (found : Dict FunctionDecl) (stmt : Stmt) (name : String) :
    (Stmt.addFunctions found stmt).get? name =
      (lastDeclaration? stmt.parts name).or (found.get? name) := by
  rw [Stmt.parts, lastDeclaration?_cons]
  cases stmt with
  | load | use | bind | assign | eval => rfl
  | define other params body span =>
      rw [Stmt.addFunctions, Dict.get?_insert]
      by_cases same : other = name
      · rw [if_pos same.symm, Stmt.declarationOf?, if_pos same]
        rfl
      · rw [if_neg (Ne.symm same), Stmt.declarationOf?, if_neg same]
        rfl
  | branch test onTrue onFalse span =>
      cases onFalse with
      | none =>
          rw [Stmt.addFunctions, get?_collectAll, Stmt.inner]
          simp [Stmt.declarationOf?]
      -- The second block is gone through last, so it is looked at first.
      | some onFalse =>
          rw [Stmt.addFunctions, get?_collectAll, get?_collectAll, Stmt.inner,
            lastDeclaration?_append]
          simp [Stmt.declarationOf?, Option.or_assoc]
  | loop test body span =>
      rw [Stmt.addFunctions, get?_collectAll, Stmt.inner]
      simp [Stmt.declarationOf?]

/-- The last declaration in statements comes before what was found already. -/
theorem get?_collectAll (found : Dict FunctionDecl) (stmts : List Stmt) (name : String) :
    (Stmt.collectAll found stmts).get? name =
      (lastDeclaration? (Stmt.partsAll stmts) name).or (found.get? name) := by
  cases stmts with
  | nil => rfl
  | cons stmt rest =>
      rw [Stmt.collectAll, get?_collectAll (Stmt.addFunctions found stmt) rest,
        get?_addFunctions found stmt]
      show _ = (lastDeclaration? (stmt.parts ++ Stmt.partsAll rest) name).or _
      rw [lastDeclaration?_append, Option.or_assoc]

end

/-- **A unit keeps the last declaration in the text.** -/
theorem get?_declaredFunctions (stmts : List Stmt) (name : String) :
    (declaredFunctions stmts).get? name = lastDeclaration? (Stmt.partsAll stmts) name := by
  have nothing : Dict.get? ({} : Dict FunctionDecl) name = none := rfl
  rw [declaredFunctions, get?_collectAll, nothing, Option.or_none]

/-- **Of statements one after the other, the later ones count first.** -/
theorem declaredFunctions_append (first second : List Stmt) (name : String) :
    (declaredFunctions (first ++ second)).get? name =
      ((declaredFunctions second).get? name).or ((declaredFunctions first).get? name) := by
  simp only [get?_declaredFunctions, Stmt.partsAll_append, lastDeclaration?_append]

/-- A declared function is declared somewhere in the statements. -/
theorem define_mem_of_declaredFunctions {stmts : List Stmt} {name : String} {decl : FunctionDecl}
    (declared : (declaredFunctions stmts).get? name = some decl) :
    ∃ span, .define name decl.params decl.body span ∈ Stmt.partsAll stmts := by
  rw [get?_declaredFunctions] at declared
  obtain ⟨stmt, member, isDeclaration⟩ := List.exists_of_findSome?_eq_some declared
  rw [List.mem_reverse] at member
  cases stmt with
  | define other params body span =>
      simp only [Stmt.declarationOf?] at isDeclaration
      split at isDeclaration
      · rename_i same
        cases isDeclaration
        exact ⟨span, same ▸ member⟩
      · cases isDeclaration
  | load | use | bind | assign | branch | loop | eval => cases isDeclaration

/-- Every function that statements declare anywhere is kept, in one declaration or another. -/
theorem isSome_get?_declaredFunctions {stmts : List Stmt} {name : String} {params : List String}
    {body : Expr} {span : Span} (member : .define name params body span ∈ Stmt.partsAll stmts) :
    ((declaredFunctions stmts).get? name).isSome := by
  rw [get?_declaredFunctions]
  refine List.findSome?_isSome_iff.mpr ⟨_, List.mem_reverse.mpr member, ?_⟩
  rw [Stmt.declarationOf?, if_pos rfl]
  rfl

end ScriptShell
