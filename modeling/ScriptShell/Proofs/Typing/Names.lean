import ScriptShell.Proofs.Dict
import ScriptShell.Proofs.Syntax.Parts
import ScriptShell.Proofs.Typing.Soundness

/-! # Names that the checker lets pass

A fragment without problems mentions only names that have a type where they stand. The names that
have one after some statements are those from before and those that the statements declare, in their
blocks too, whether these will run or not (**`isSome_checkAll`**). So every name that a fragment
mentions is a parameter there, had a type before the fragment, or is declared somewhere in it
(**`accounts_of_checkAll`**). -/

namespace ScriptShell

namespace Scope

variable {s : Scope} {name : String}

/-! ## Expressions -/

mutual

/-- An expression without problems has no part with problems. -/
theorem infer_parts_clean (e : Expr) (clean : (s.infer e).problems = []) :
    ∀ part ∈ e.parts, (s.infer part).problems = [] := by
  intro part member
  -- Problems of the parts are collected into those of the whole, so none are left over.
  cases e with
  | num | str | bool | null | ident =>
      rw [List.mem_singleton.mp member]
      exact clean
  | list items span =>
      rcases List.mem_cons.mp member with rfl | member
      · exact clean
      · exact inferAll_parts_clean items clean part member
  | member object property span =>
      rcases List.mem_cons.mp member with rfl | member
      · exact clean
      · simp only [infer, List.append_eq_nil_iff] at clean
        rw [Typed.asValue_clean clean.1] at clean
        exact infer_parts_clean object clean.1 part member
  | call callee args span =>
      rcases List.mem_cons.mp member with rfl | member
      · exact clean
      · simp only [infer, List.append_eq_nil_iff] at clean
        rw [Typed.asValue_clean clean.1.1] at clean
        rcases List.mem_append.mp member with member | member
        · exact infer_parts_clean callee clean.1.1 part member
        · exact inferAll_parts_clean args clean.1.2 part member
  | unary op operand span =>
      rcases List.mem_cons.mp member with rfl | member
      · exact clean
      · simp only [infer, List.append_eq_nil_iff] at clean
        rw [Typed.asValue_clean clean.1] at clean
        exact infer_parts_clean operand clean.1 part member
  | binary op left right span =>
      rcases List.mem_cons.mp member with rfl | member
      · exact clean
      · simp only [infer, List.append_eq_nil_iff] at clean
        rw [Typed.asValue_clean clean.1.1, Typed.asValue_clean clean.1.2] at clean
        rcases List.mem_append.mp member with member | member
        · exact infer_parts_clean left clean.1.1 part member
        · exact infer_parts_clean right clean.1.2 part member

/-- Expressions without problems have no part with problems. -/
theorem inferAll_parts_clean (items : List Expr) (clean : (s.inferAll items).2 = []) :
    ∀ part ∈ Expr.partsAll items, (s.infer part).problems = [] := by
  intro part member
  cases items with
  | nil => cases member
  | cons e rest =>
      simp only [inferAll, List.append_eq_nil_iff] at clean
      rw [Typed.asValue_clean clean.1] at clean
      rcases List.mem_append.mp member with member | member
      · exact infer_parts_clean e clean.1 part member
      · exact inferAll_parts_clean rest clean.2 part member

end

/-- A name in an expression without problems has a type. -/
theorem typeOf?_of_mentions {e : Expr} (clean : (s.infer e).problems = [])
    (mentions : e.Mentions name) : (s.typeOf? name).isSome := by
  obtain ⟨span, member⟩ := mentions
  have alone := infer_parts_clean e clean _ member
  simp only [infer, typeOfName] at alone
  split at alone
  · rename_i type typed
    simp [typed]
  · cases alone

/-! ## Statements -/

/-- The names that have a type after one more was given one. -/
theorem isSome_insert (bindings : Dict Ty) (other : String) (type : Ty) :
    ((bindings.insert other type).get? name).isSome ↔
      (bindings.get? name).isSome ∨ some other = some name := by
  rw [Dict.isSome_get?_insert, Option.some.injEq, or_comm, @eq_comm _ name]

mutual

/-- The names that have a type after a statement: those from before, and those that it or a
statement in it declares. -/
theorem isSome_check (s : Scope) (stmt : Stmt) :
    ((s.check stmt).bindings.get? name).isSome ↔
      (s.bindings.get? name).isSome ∨ Stmt.Declares stmt.parts name := by
  cases stmt with
  | load => simp [check, Stmt.parts, Stmt.inner, Stmt.declared?]
  | use module span =>
      simp only [check]
      split <;> simp [Stmt.parts, Stmt.inner, Stmt.declared?]
  | define other params body span =>
      simp only [check, checkFunction, isSome_insert, Stmt.parts, Stmt.inner, Stmt.declares_cons,
        Stmt.declared?, Stmt.declares_nil, or_false, or_assoc, or_self]
  | bind other value span | assign other value span =>
      simp only [check, isSome_insert, Stmt.parts, Stmt.inner, Stmt.declares_cons, Stmt.declared?,
        Stmt.declares_nil, or_false]
  | branch test onTrue onFalse span =>
      cases onFalse with
      | none =>
          simp only [check, Stmt.parts, Stmt.inner, Stmt.declares_cons, Stmt.declared?]
          rw [isSome_checkAll s onTrue]
          simp
      -- The second block is checked with the names that the first one declares.
      | some onFalse =>
          simp only [check, Stmt.parts, Stmt.inner, Stmt.declares_cons, Stmt.declares_append,
            Stmt.declared?]
          rw [isSome_checkAll _ onFalse, withBindings, isSome_checkAll s onTrue]
          simp [or_assoc]
  | loop test body span =>
      simp only [check, Stmt.parts, Stmt.inner, Stmt.declares_cons, Stmt.declared?]
      rw [isSome_checkAll s body]
      simp
  | eval e terminated span => simp [check, Stmt.parts, Stmt.inner, Stmt.declared?]

/-- The names that have a type after statements: those from before, and those that are declared
anywhere in the statements. -/
theorem isSome_checkAll (s : Scope) (stmts : List Stmt) :
    ((s.checkAll stmts).bindings.get? name).isSome ↔
      (s.bindings.get? name).isSome ∨ Stmt.Declares (Stmt.partsAll stmts) name := by
  cases stmts with
  | nil => simp [checkAll, Stmt.partsAll]
  | cons stmt rest =>
      simp only [checkAll, Stmt.partsAll]
      rw [isSome_checkAll _ rest, withBindings, isSome_check s stmt, Stmt.declares_append,
        Stmt.parts, or_assoc]

end

/-- What a statement itself evaluates is checked before the statement declares anything. -/
theorem typeOf?_of_check {stmt : Stmt} (clean : (s.check stmt).problems = []) {e : Expr}
    (own : stmt.evaluated? = some e) (mentions : e.Mentions name) : (s.typeOf? name).isSome := by
  refine typeOf?_of_mentions ?_ mentions
  cases stmt with
  | load | use | define => cases own
  | bind other value | assign other value =>
      cases own
      exact typeToBind_clean clean ▸ clean
  | branch test onTrue onFalse =>
      cases own
      cases onFalse with
      | none =>
          simp only [check, List.append_eq_nil_iff] at clean
          rw [Typed.asValue_clean clean.1] at clean
          exact clean.1
      | some onFalse =>
          simp only [check, List.append_eq_nil_iff] at clean
          rw [Typed.asValue_clean clean.1.1] at clean
          exact clean.1.1
  | loop test body =>
      cases own
      simp only [check, List.append_eq_nil_iff] at clean
      rw [Typed.asValue_clean clean.1] at clean
      exact clean.1
  | eval =>
      cases own
      exact clean

/-- A declared name has a type. -/
theorem typeOf?_of_bindings (bound : (s.bindings.get? name).isSome) : (s.typeOf? name).isSome := by
  unfold typeOf?
  simp [Option.isSome_or, bound]

/-- Whatever has a type after statements had one before, or is declared in them. -/
theorem typeOf?_after {bindings : Dict Ty} {declares : Prop}
    (names : (bindings.get? name).isSome ↔ (s.bindings.get? name).isSome ∨ declares)
    (typed : ((s.withBindings bindings).typeOf? name).isSome) :
    (s.typeOf? name).isSome ∨ declares := by
  have split : (bindings.get? name).isSome ∨ (s.typeOf? name).isSome := by
    unfold typeOf? withBindings at *
    simp only [Option.isSome_or, Bool.or_eq_true] at typed ⊢
    rcases typed with parameter | bound | rest
    · exact .inr (.inl parameter)
    · exact .inl bound
    · exact .inr (.inr (.inr rest))
  rcases split with bound | before
  · exact (names.mp bound).imp_left typeOf?_of_bindings
  · exact .inl before

/-- Whatever has a type in a function is a parameter, the function itself, or had a type before. -/
theorem typeOf?_inside {params : List String} {own : String} {type : Ty}
    (typed : (typeOf? { s with
      bindings := s.bindings.insert own type
      locals := Dict.ofList (params.map (·, .any)) } name).isSome) :
    name ∈ params ∨ some own = some name ∨ (s.typeOf? name).isSome := by
  unfold typeOf? at *
  simp only [Option.isSome_or, Bool.or_eq_true] at typed ⊢
  rcases typed with parameter | bound | rest
  · rw [Dict.isSome_get?_ofList] at parameter
    exact .inl (by simpa using parameter)
  · rcases (isSome_insert _ _ _).mp bound with before | same
    · exact .inr (.inr (.inr (.inl before)))
    · exact .inr (.inl same)
  · exact .inr (.inr (.inr (.inr rest)))

/-- A name is accounted for at a statement: it is a parameter there, had a type before, or is
declared by one of some statements. -/
def Accounts (s : Scope) (declaring : List Stmt) (part : Stmt) (name : String) : Prop :=
  name ∈ part.params ∨ (s.typeOf? name).isSome ∨ Stmt.Declares declaring name

/-- Names that are declared in more places. -/
theorem Accounts.mono {declaring more : List Stmt} {part : Stmt}
    (accounts : s.Accounts declaring part name)
    (le : Stmt.Declares declaring name → Stmt.Declares more name) : s.Accounts more part name :=
  accounts.imp_right fun rest => rest.imp_right le

/-- Accounting with later statements in a scope after earlier ones. -/
theorem Accounts.after {bindings : Dict Ty} {first second both : List Stmt} {part : Stmt}
    (names : (bindings.get? name).isSome ↔
      (s.bindings.get? name).isSome ∨ Stmt.Declares first name)
    (le : ∀ name, Stmt.Declares first name ∨ Stmt.Declares second name → Stmt.Declares both name)
    (accounts : (s.withBindings bindings).Accounts second part name) :
    s.Accounts both part name := by
  rcases accounts with parameter | typed | declared
  · exact .inl parameter
  · rcases typeOf?_after names typed with before | declared
    · exact .inr (.inl before)
    · exact .inr (.inr (le name (.inl declared)))
  · exact .inr (.inr (le name (.inr declared)))

mutual

/-- A statement without problems mentions only names that are accounted for. -/
theorem accounts_of_check (s : Scope) (stmt : Stmt) (clean : (s.check stmt).problems = []) :
    ∀ part ∈ stmt.parts, ∀ e, part.expression? = some e → e.Mentions name →
      s.Accounts stmt.parts part name := by
  intro part member e own mentions
  cases stmt with
  | load | use =>
      rw [List.mem_singleton.mp member] at own
      cases own
  -- The body of a function sees its parameters, the function itself and what was there before.
  | define other params body span =>
      rw [List.mem_singleton.mp member] at own ⊢
      cases own
      rcases typeOf?_inside (typeOf?_of_mentions clean mentions) with parameter | same | before
      · exact .inl parameter
      · exact .inr (.inr (Stmt.declares_cons.mpr (.inl same)))
      · exact .inr (.inl before)
  | bind other value span | assign other value span =>
      rw [List.mem_singleton.mp member] at own ⊢
      exact .inr (.inl (typeOf?_of_check clean own mentions))
  | branch test onTrue onFalse span =>
      rcases List.mem_cons.mp member with rfl | member
      · exact .inr (.inl (typeOf?_of_check clean own mentions))
      · cases onFalse with
        | none =>
            simp only [check, List.append_eq_nil_iff] at clean
            have accounts := accounts_of_checkAll s onTrue clean.2 part member e own mentions
            exact accounts.mono fun declared => Stmt.declares_cons.mpr (.inr declared)
        | some onFalse =>
            simp only [check, List.append_eq_nil_iff] at clean
            rcases List.mem_append.mp member with member | member
            · have accounts := accounts_of_checkAll s onTrue clean.1.2 part member e own mentions
              exact accounts.mono fun declared =>
                Stmt.declares_cons.mpr (.inr (Stmt.declares_append.mpr (.inl declared)))
            -- What the first block declares counts for the second one, though only one of them will
            -- run.
            · have accounts := accounts_of_checkAll _ onFalse clean.2 part member e own mentions
              refine accounts.after (isSome_checkAll s onTrue) fun name declared => ?_
              exact Stmt.declares_cons.mpr (.inr (Stmt.declares_append.mpr declared))
  | loop test body span =>
      rcases List.mem_cons.mp member with rfl | member
      · exact .inr (.inl (typeOf?_of_check clean own mentions))
      · simp only [check, List.append_eq_nil_iff] at clean
        have accounts := accounts_of_checkAll s body clean.2 part member e own mentions
        exact accounts.mono fun declared => Stmt.declares_cons.mpr (.inr declared)
  | eval e' terminated span =>
      rw [List.mem_singleton.mp member] at own ⊢
      exact .inr (.inl (typeOf?_of_check clean own mentions))

/-- Statements without problems mention only names that are accounted for. -/
theorem accounts_of_checkAll (s : Scope) (stmts : List Stmt)
    (clean : (s.checkAll stmts).problems = []) :
    ∀ part ∈ Stmt.partsAll stmts, ∀ e, part.expression? = some e → e.Mentions name →
      s.Accounts (Stmt.partsAll stmts) part name := by
  intro part member e own mentions
  cases stmts with
  | nil => cases member
  | cons stmt rest =>
      simp only [checkAll, List.append_eq_nil_iff] at clean
      rcases List.mem_append.mp member with member | member
      · have accounts := accounts_of_check s stmt clean.1 part member e own mentions
        exact accounts.mono fun declared => Stmt.declares_append.mpr (.inl declared)
      · have accounts := accounts_of_checkAll _ rest clean.2 part member e own mentions
        refine accounts.after (isSome_check s stmt) fun name declared => ?_
        exact Stmt.declares_append.mpr declared

end

/-- Statements after others are checked with the names that those declare. -/
theorem checkAll_append (s : Scope) (first second : List Stmt) :
    (s.checkAll (first ++ second)).problems = (s.checkAll first).problems ++
      ((s.withBindings (s.checkAll first).bindings).checkAll second).problems := by
  induction first generalizing s with
  | nil => rfl
  | cons stmt rest ih =>
      simp only [List.cons_append, checkAll, ih, List.append_assoc]
      rfl

/-- The names after statements in a row. -/
theorem bindings_checkAll_append (s : Scope) (first second : List Stmt) :
    (s.checkAll (first ++ second)).bindings =
      ((s.withBindings (s.checkAll first).bindings).checkAll second).bindings := by
  induction first generalizing s with
  | nil => rfl
  | cons stmt rest ih =>
      simp only [List.cons_append, checkAll, ih]
      rfl

end Scope

end ScriptShell
