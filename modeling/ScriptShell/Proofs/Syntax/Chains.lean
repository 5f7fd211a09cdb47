import ScriptShell.Proofs.Syntax.Atoms
import Mathlib.Data.List.TakeWhile

/-! # Chains of operators

Five rules of the grammar read chains of operators, one for each level of binding; each one takes
the next for its operands. **`readsLevel_of_operand`** is a step from one to the next: where the
operands are the longest rows of operators above a level, a chain is the longest row of operators
at that level or above, and it is built as the ordered tree of its row. From all five steps follows
how a whole row is read (**`parseExpression_row`**). -/

namespace ScriptShell

open Grammar

/-! ## Levels of the grammar -/

/-- The rule for rows of operators that bind at least so tightly. Above all operators it is the one
for operands. -/
def Rule.ofLevel : Nat → Rule
  | 0 => .orExpr
  | 1 => .andExpr
  | 2 => .cmpExpr
  | 3 => .addExpr
  | 4 => .mulExpr
  | _ => .unary

namespace BinaryOp

/-- The rule of an operator. -/
def rule : BinaryOp → Rule
  | .or => .opOr
  | .and => .opAnd
  | .lte => .opLte
  | .gte => .opGte
  | .eq => .opEq
  | .ne => .opNe
  | .lt => .opLt
  | .gt => .opGt
  | .add => .opAdd
  | .sub => .opSub
  | .mul => .opMul
  | .div => .opDiv
  | .mod => .opMod

/-- The rule of an operator is read as that operator. -/
theorem binaryOp?_rule (op : BinaryOp) : op.rule.binaryOp? = some op := by
  cases op <;> rfl

/-- The operators of a level, in the order in which they are tried. -/
def tried : Nat → BinaryOp × List BinaryOp
  | 0 => (.or, [])
  | 1 => (.and, [])
  | 2 => (.lte, [.gte, .eq, .ne, .lt, .gt])
  | 3 => (.add, [.sub])
  | _ => (.mul, [.div, .mod])

/-- An operator of a level. -/
def ofLevel (level : Nat) : Pattern Rule :=
  .oneOf (.rule (tried level).1.rule) ((tried level).2.map fun op => .rule op.rule)

/-- There are five levels of operators. -/
theorem level_lt (op : BinaryOp) : op.level < 5 := by
  cases op <;> decide

end BinaryOp

/-- The rule of a level is a chain of its operators over the next level. -/
theorem Rule.pattern_ofLevel {level : Nat} (isLevel : level < 5) :
    (Rule.ofLevel level).pattern = chain (.ofLevel (level + 1)) (BinaryOp.ofLevel level) := by
  match level with
  | 0 | 1 | 2 | 3 | 4 => rfl

/-- The rule of a level leaves a phrase. -/
theorem Rule.kind_ofLevel (level : Nat) : (Rule.ofLevel level).kind = .phrase := by
  unfold Rule.ofLevel
  split <;> rfl

/-- A phrase of a level is built as a chain. -/
theorem Expr.ofTree_ofLevel {level depth : Nat} (isLevel : level < 5) (below : depth ≤ nestingLimit)
    (span : Span) (parts : List (ParseTree Rule)) :
    Expr.ofTree (.phrase (.ofLevel level) span parts) depth = Expr.ofChain span parts depth := by
  have isChain : Rule.ofLevel level ∈ Rule.chains := by
    match level with
    | 0 | 1 | 2 | 3 | 4 => decide
  exact Expr.ofTree_chain isChain below span parts

/-! ## Operators in a text -/

namespace BinaryOp

/-- Whether an operator comes next. -/
def leads (text : List Char) (op : BinaryOp) : Bool :=
  op.symbol.toList.isPrefixOf text

variable {p : Position} {rest : List Char}

/-- Of several operators the first one that comes next is matched. -/
theorem matches_oneOf (first : BinaryOp) (more : List BinaryOp) (p : Position) (text : List Char) :
    Matches scriptGrammar (.oneOf (.rule first.rule) (more.map fun op => .rule op.rule)) {}
      ⟨p, text⟩
      (((first :: more).find? (leads text)).map fun op =>
        (⟨p.advanceAll op.symbol.toList, text.drop op.symbol.toList.length⟩,
          [.phrase op.rule (.between p (p.advanceAll op.symbol.toList)) []])) := by
  have isPhrase : ∀ op : BinaryOp, op.rule.kind = .phrase := by
    intro op
    cases op <;> rfl
  have isPattern : ∀ op : BinaryOp, op.rule.pattern = .lit op.symbol := by
    intro op
    cases op <;> rfl
  have isNext : ∀ op : BinaryOp, leads text op = true →
      Matches scriptGrammar (.rule op.rule) {} ⟨p, text⟩
        (some (⟨p.advanceAll op.symbol.toList, text.drop op.symbol.toList.length⟩,
          [.phrase op.rule (.between p (p.advanceAll op.symbol.toList)) []])) := by
    intro op next
    obtain ⟨rest, rfl⟩ := List.isPrefixOf_iff_prefix.mp next
    rw [List.drop_left]
    refine matches_phrase (isPhrase op) ?_
    show Matches scriptGrammar op.rule.pattern _ _ _
    rw [isPattern]
    exact matches_lit op.symbol rest
  have notNext : ∀ op : BinaryOp, ¬ leads text op = true →
      Matches scriptGrammar (.rule op.rule) {} ⟨p, text⟩ none := by
    intro op other
    refine .noRule (by simp [scriptGrammar, isPhrase]) ?_
    show Matches scriptGrammar op.rule.pattern _ _ _
    rw [isPattern]
    exact not_matches_lit fun next => other (List.isPrefixOf_iff_prefix.mpr next)
  induction more generalizing first with
  | nil =>
      by_cases next : leads text first = true
      · rw [List.find?_cons_of_pos next]
        exact isNext first next
      · rw [List.find?_cons_of_neg next]
        exact notNext first next
  | cons second more ih =>
      by_cases next : leads text first = true
      · rw [List.find?_cons_of_pos next]
        exact .altFirst (isNext first next)
      · rw [List.find?_cons_of_neg next]
        exact .altSecond (notNext first next) (ih second)

/-- The first operator that a level finds before a space is the one that stands there. -/
theorem find_tried (op : BinaryOp) {level : Nat} (isLevel : level < 5) (rest : List Char) :
    ((tried level).1 :: (tried level).2).find? (leads (op.symbol.toList ++ ' ' :: rest)) =
      if op.level = level then some op else none := by
  match level with
  | 0 | 1 | 2 | 3 | 4 => cases op <;> rfl

/-- An operator is matched at its level. -/
theorem matches_ofLevel (op : BinaryOp) (p : Position) (rest : List Char) :
    ∃ p' span, Matches scriptGrammar (ofLevel op.level) {} ⟨p, op.symbol.toList ++ ' ' :: rest⟩
      (some (⟨p', ' ' :: rest⟩, [.phrase op.rule span []])) := by
  have isMatch := matches_oneOf (tried op.level).1 (tried op.level).2 p
    (op.symbol.toList ++ ' ' :: rest)
  rw [find_tried op op.level_lt, if_pos rfl, Option.map_some, List.drop_left] at isMatch
  exact ⟨_, _, isMatch⟩

/-- An operator is matched at no other level. -/
theorem not_matches_ofLevel {op : BinaryOp} {level : Nat} (isLevel : level < 5)
    (other : op.level ≠ level) :
    Matches scriptGrammar (ofLevel level) {} ⟨p, op.symbol.toList ++ ' ' :: rest⟩ none := by
  have isMatch := matches_oneOf (tried level).1 (tried level).2 p (op.symbol.toList ++ ' ' :: rest)
  rwa [find_tried op isLevel, if_neg other] at isMatch

/-- No operator is matched at the end. -/
theorem not_matches_ofLevel_nil {level : Nat} (isLevel : level < 5) :
    Matches scriptGrammar (ofLevel level) {} ⟨p, []⟩ none := by
  have isMatch := matches_oneOf (tried level).1 (tried level).2 p []
  have nothing : ((tried level).1 :: (tried level).2).find? (leads []) = none := by
    match level with
    | 0 | 1 | 2 | 3 | 4 => rfl
  rwa [nothing] at isMatch

end BinaryOp

/-! ## Rows -/

/-- Operators with operands, as they follow an operand. -/
abbrev Links := List (BinaryOp × Atom)

namespace Links

/-- How links are written: spaces stand before and after operators. -/
def text : Links → List Char
  | [] => []
  | (op, a) :: rest => ' ' :: (op.symbol.toList ++ ' ' :: (a.text ++ text rest))

/-- Operators and operands from left to right. -/
def row (links : Links) : List (Expr ⊕ BinaryOp) :=
  links.flatMap fun link => [.inr link.1, .inl link.2.expr]

/-- Whether a link binds at least so tightly. -/
def binds (level : Nat) (link : BinaryOp × Atom) : Bool :=
  level ≤ link.1.level

variable (links : Links)

/-- A text of links starts with a space, unless it is empty. -/
theorem head_text : ∀ x ∈ (text links).head?, x = ' ' := by
  cases links with
  | nil => simp [text]
  | cons link rest => simp [text]

/-- An operator is not taken for a gap; a slash before a space starts no comment. -/
theorem skip_next (p : Position) :
    skip scriptGrammar {} ⟨p, (text links).tail⟩ = ⟨p, (text links).tail⟩ := by
  cases links with
  | nil => rfl
  | cons link rest =>
      obtain ⟨op, a⟩ := link
      cases op <;> rfl

/-- A gap before links is their first space. -/
theorem skip_text (p : Position) :
    ∃ p', skip scriptGrammar {} ⟨p, text links⟩ = ⟨p', (text links).tail⟩ := by
  cases links with
  | nil => exact ⟨p, rfl⟩
  | cons link rest =>
      refine ⟨p.advance ' ', ?_⟩
      rw [← skip_next, text, skip_blank (by decide), ← skip_moved, Cursor.moved_start]
      rfl

/-- Operators start with neither a point nor a bracket. -/
theorem ne_of_head_next : ∀ x ∈ (text links).tail.head?, x ≠ '.' ∧ x ≠ '(' := by
  cases links with
  | nil => simp [text]
  | cons link rest =>
      obtain ⟨op, a⟩ := link
      rintro x isFirst
      cases op <;> cases isFirst <;> decide

/-- What binds at a level binds at the level below. -/
theorem binds_of_binds_succ {level : Nat} {link : BinaryOp × Atom}
    (tight : binds (level + 1) link = true) : binds level link = true := by
  simp only [binds, decide_eq_true_eq] at tight ⊢
  omega

/-- Links that bind tightly are those that bind more tightly and then others. -/
theorem takeWhile_binds (level : Nat) :
    links.takeWhile (binds level) = links.takeWhile (binds (level + 1)) ++
      (links.dropWhile (binds (level + 1))).takeWhile (binds level) := by
  induction links with
  | nil => rfl
  | cons link rest ih =>
      by_cases tight : binds (level + 1) link = true
      · simp [tight, binds_of_binds_succ tight, ih]
      · simp [tight]

/-- What binds at a level and further on: first what binds more tightly. -/
theorem dropWhile_binds (level : Nat) :
    links.dropWhile (binds level) =
      (links.dropWhile (binds (level + 1))).dropWhile (binds level) := by
  induction links with
  | nil => rfl
  | cons link rest ih =>
      by_cases tight : binds (level + 1) link = true
      · simp [tight, binds_of_binds_succ tight, ih]
      · simp [tight]

/-- Links of which the first one does not bind tightly enough. -/
theorem takeWhile_of_loose {links : Links} {level : Nat}
    (loose : ∀ link ∈ links.head?, link.1.level < level) :
    links.takeWhile (binds level) = [] ∧ links.dropWhile (binds level) = links := by
  cases links with
  | nil => exact ⟨rfl, rfl⟩
  | cons link rest =>
      have notTight : binds level link = false := by simpa [binds] using loose link rfl
      simp [notTight]

/-- After links that bind tightly enough comes one that does not. -/
theorem level_le_of_head_dropWhile (level : Nat) :
    ∀ link ∈ (links.dropWhile (binds (level + 1))).head?, link.1.level ≤ level := by
  intro link isFirst
  have notTight := List.head?_dropWhile_not (binds (level + 1)) links
  rw [Option.mem_def.mp isFirst] at notTight
  simpa [binds, Nat.lt_succ_iff] using notTight

end Links

namespace Expr

/-- A tree is the ordered one of a row, with a root that binds at least so tightly. -/
structure Reads (e : Expr) (level : Nat) (row : List (Expr ⊕ BinaryOp)) : Prop where
  inOrder : e.inOrder = row
  ordered : e.Ordered
  root : ∀ op ∈ e.rootOp?, level ≤ op.level

namespace Reads

variable {e left right : Expr} {level : Nat} {row row' : List (Expr ⊕ BinaryOp)}

/-- An expression without an operator at its root is read as it is. -/
theorem of_leaf (leaf : e.rootOp? = none) : e.Reads level [.inl e.bare] where
  inOrder := inOrder_of_rootOp? leaf
  ordered := ordered_of_rootOp? leaf
  root := by simp [leaf]

/-- What is read at a level is read at the level below. -/
theorem mono (reads : e.Reads (level + 1) row) : e.Reads level row where
  inOrder := reads.inOrder
  ordered := reads.ordered
  root op isRoot := Nat.le_of_succ_le (reads.root op isRoot)

/-- An operator between a row of its level and one above it. -/
theorem binary {op : BinaryOp} (onLeft : left.Reads op.level row)
    (onRight : right.Reads (op.level + 1) row') (span : Span) :
    (Expr.binary op left right span).Reads op.level (row ++ .inr op :: row') where
  inOrder := by rw [Expr.inOrder, onLeft.inOrder, onRight.inOrder]
  ordered := ⟨onLeft.root, onRight.root, onLeft.ordered, onRight.ordered⟩
  root := by
    rintro _ ⟨⟩
    exact Nat.le_refl _

end Reads

end Expr

/-! ## Building rows -/

/-- A parse tree is built as the ordered tree of an operand and the links after it, where there is a
level of nesting left for each of them. -/
def BuildsRow (t : ParseTree Rule) (level : Nat) (a : Atom) (links : Links) : Prop :=
  ∀ depth, depth + links.length ≤ nestingLimit →
    ∃ e, Expr.ofTree t depth = .ok e ∧ e.Reads level (.inl a.expr :: links.row)

/-- Parse trees are `count` operators of a level with their operands, and putting them after a row
adds links to it. Each operator counts a level of nesting before the first operand is built; the
links inside operands count theirs on top. -/
structure BuildsLinks (ts : List (ParseTree Rule)) (level : Nat) (links : Links) (count : Nat) :
    Prop where
  length : ts.length = 2 * count
  count_le : count ≤ links.length
  built : ∀ depth left row, depth + links.length ≤ nestingLimit → Expr.Reads left level row →
    ∃ e, Expr.ofOperators left ts (depth + count) = .ok e ∧ e.Reads level (row ++ links.row)

namespace BuildsLinks

variable {t : ParseTree Rule} {ts : List (ParseTree Rule)} {level count : Nat} {a : Atom}
  {inner links : Links}

/-- No links build nothing. -/
theorem nil : BuildsLinks [] level [] 0 where
  length := rfl
  count_le := Nat.le_refl 0
  built _ left row _ reads := ⟨left, rfl, by simpa [Links.row] using reads⟩

/-- An operator with its operand before others of its level. -/
theorem cons {op : BinaryOp} (operand : BuildsRow t (op.level + 1) a inner)
    (others : BuildsLinks ts op.level links count) (span : Span) :
    BuildsLinks (.phrase op.rule span [] :: t :: ts) op.level ((op, a) :: (inner ++ links))
      (count + 1) where
  length := by
    simp only [List.length_cons, others.length]
    omega
  count_le := by
    have := others.count_le
    simp only [List.length_cons, List.length_append]
    omega
  built depth left row below reads := by
    have := others.count_le
    simp only [List.length_cons, List.length_append] at below
    obtain ⟨right, isRight, onRight⟩ := operand (depth + (count + 1)) (by omega)
    obtain ⟨e, isExpr, whole⟩ := others.built (depth + 1) _ _ (by omega)
      (reads.binary onRight (left.span.merge right.span))
    refine ⟨e, ?_, by simpa [Links.row] using whole⟩
    have isDepth : depth + (count + 1) = depth + 1 + count := by omega
    rw [Expr.ofOperators, ParseTree.rule, op.binaryOp?_rule]
    simp only [isRight]
    rw [isDepth]
    exact isExpr

/-- A chain is an operand that binds more tightly and the operators after it. -/
theorem chain (others : BuildsLinks ts level links count) (isLevel : level < 5)
    (operand : BuildsRow t (level + 1) a inner) (span : Span) :
    BuildsRow (.phrase (.ofLevel level) span (t :: ts)) level a (inner ++ links) := by
  intro depth below
  have isLength := others.length
  have le := others.count_le
  rw [List.length_append] at below
  obtain ⟨left, isLeft, onLeft⟩ := operand (depth + count) (by omega)
  obtain ⟨e, isExpr, whole⟩ := others.built depth left _ (by omega) onLeft.mono
  have isCount : (ts.length + 1) / 2 = count := by omega
  refine ⟨e, ?_, by simpa [Links.row] using whole⟩
  rw [Expr.ofTree_ofLevel isLevel (by omega), Expr.ofChain, isCount, if_neg (by omega)]
  simp only [isLeft]
  exact isExpr

end BuildsLinks

/-! ## Reading rows -/

/-- A level reads rows: from an operand on it takes all links that bind tightly enough, and builds
the ordered tree of their row. -/
def ReadsLevel (level : Nat) : Prop :=
  ∀ (a : Atom) (links : Links) (p : Position), ∃ p' t,
    Matches scriptGrammar (.rule (.ofLevel level)) {} ⟨p, a.text ++ links.text⟩
        (some (⟨p', (Links.text (links.dropWhile (Links.binds level))).tail⟩, [t])) ∧
      BuildsRow t level a (links.takeWhile (Links.binds level))

/-- Above all operators there are operands only. -/
theorem readsLevel_operand : ReadsLevel 5 := by
  intro a links p
  obtain ⟨noneTaken, allLeft⟩ :=
    @Links.takeWhile_of_loose links 5 fun link _ => link.1.level_lt
  rw [noneTaken, allLeft]
  obtain ⟨p', t, isMatch, built⟩ :=
    a.matches_unary links.head_text links.skip_text links.ne_of_head_next p
  refine ⟨p', t, isMatch, ?_⟩
  intro depth below
  obtain ⟨e, isExpr, isLeaf, isAtom⟩ := built depth below
  refine ⟨e, isExpr, ?_⟩
  rw [← isAtom]
  exact .of_leaf isLeaf

/-- A chain stops where no operator of its level comes next. -/
theorem not_matches_next {level : Nat} (isLevel : level < 5) {links : Links}
    (loose : ∀ link ∈ links.head?, link.1.level < level) (p : Position) :
    Matches scriptGrammar (BinaryOp.ofLevel level) {} ⟨p, links.text.tail⟩ none := by
  cases links with
  | nil => exact BinaryOp.not_matches_ofLevel_nil isLevel
  | cons link rest =>
      exact BinaryOp.not_matches_ofLevel isLevel (Nat.ne_of_lt (loose link rfl))

/-- A chain goes on with the operators of its level and their operands. -/
theorem matches_links {level : Nat} (isLevel : level < 5) (operand : ReadsLevel (level + 1))
    (links : Links) (loose : ∀ link ∈ links.head?, link.1.level ≤ level) (p : Position) :
    ∃ p' ts count,
      Matches scriptGrammar (.star (.seq (BinaryOp.ofLevel level) (.rule (.ofLevel (level + 1)))))
          {} ⟨p, links.text.tail⟩
          (some (⟨p', (Links.text (links.dropWhile (Links.binds level))).tail⟩, ts)) ∧
        BuildsLinks ts level (links.takeWhile (Links.binds level)) count := by
  by_cases stops : ∀ link ∈ links.head?, link.1.level < level
  · obtain ⟨noneTaken, allLeft⟩ := Links.takeWhile_of_loose stops
    rw [noneTaken, allLeft]
    exact ⟨p, [], 0, .starNone (.seqFirst (not_matches_next isLevel stops p)), .nil⟩
  · -- The next operator is of this level. Its operand takes the links above, and what is left is
    -- shorter.
    match links with
    | [] => exact absurd (by simp) stops
    | (op, a) :: rest =>
        obtain rfl : op.level = level := by
          have le : op.level ≤ level := loose (op, a) rfl
          have ge : ¬ op.level < level := by simpa using stops
          omega
        obtain ⟨p₁, span, isOperator⟩ := op.matches_ofLevel p (a.text ++ Links.text rest)
        obtain ⟨p₂, t, isOperand, builtOperand⟩ := operand a rest (p₁.advance ' ')
        obtain ⟨p₃, ts, count, isMatch, built⟩ := matches_links isLevel operand
          (rest.dropWhile (Links.binds (op.level + 1))) (Links.level_le_of_head_dropWhile _ _) p₂
        have afterSpace : skip scriptGrammar {} ⟨p₁, ' ' :: (a.text ++ Links.text rest)⟩ =
            ⟨p₁.advance ' ', a.text ++ Links.text rest⟩ := by
          rw [skip_blank (by decide), ← skip_moved, Cursor.moved_start, a.skip_atom]
        have turn : Matches scriptGrammar (.seq (BinaryOp.ofLevel op.level) _) {}
            ⟨p, (Links.text ((op, a) :: rest)).tail⟩ _ :=
          .seq isOperator (by rw [afterSpace]; exact isOperand)
        have tight : Links.binds op.level (op, a) = true := by simp [Links.binds]
        rw [List.takeWhile_cons_of_pos tight, List.dropWhile_cons_of_pos tight,
          Links.takeWhile_binds, Links.dropWhile_binds]
        exact ⟨p₃, _, count + 1, turn.star_cons (Links.skip_next _ p₂) isMatch,
          .cons builtOperand built span⟩
termination_by links.length
decreasing_by
  exact Nat.lt_succ_of_le (List.dropWhile_suffix _).length_le

/-- **A level of operators.** Where the operands are the longest rows above a level, a chain is the
longest row from that level on. -/
theorem readsLevel_of_operand {level : Nat} (isLevel : level < 5)
    (operand : ReadsLevel (level + 1)) : ReadsLevel level := by
  intro a links p
  obtain ⟨p₁, first, isFirst, builtFirst⟩ := operand a links p
  obtain ⟨p₂, ts, count, isChain, built⟩ := matches_links isLevel operand
    (links.dropWhile (Links.binds (level + 1))) (Links.level_le_of_head_dropWhile _ _) p₁
  rw [Links.takeWhile_binds, Links.dropWhile_binds]
  have inner : Matches scriptGrammar (Rule.ofLevel level).pattern {} ⟨p, a.text ++ links.text⟩
      (some (⟨p₂, (Links.text ((links.dropWhile (Links.binds (level + 1))).dropWhile
        (Links.binds level))).tail⟩, [first] ++ ts)) := by
    rw [Rule.pattern_ofLevel isLevel]
    exact .seq isFirst (by rw [Links.skip_next]; exact isChain)
  exact ⟨p₂, _, matches_phrase (Rule.kind_ofLevel level) inner,
    built.chain isLevel builtFirst (.between p p₂)⟩

/-- Rows of every level are read as they are written. -/
theorem readsLevel {level : Nat} (isLevel : level ≤ 5) : ReadsLevel level := by
  rcases Nat.lt_or_eq_of_le isLevel with below | rfl
  · exact readsLevel_of_operand below (readsLevel below)
  · exact readsLevel_operand
termination_by 5 - level

/-! ## Rows as fragments -/

/-- A row of atoms with operators between them, one space apart. -/
def rowText (a : Atom) (links : Links) : String :=
  " ".intercalate
    (String.ofList a.text :: links.flatMap fun link => [link.1.symbol, String.ofList link.2.text])

/-- The text of a row is that of its first atom and of its links. -/
theorem toList_rowText (a : Atom) (links : Links) :
    (rowText a links).toList = a.text ++ links.text := by
  induction links generalizing a with
  | nil => simp [rowText, Links.text, String.intercalate_singleton]
  | cons link rest ih =>
      obtain ⟨op, b⟩ := link
      have step : rowText a ((op, b) :: rest) =
          String.ofList a.text ++ " " ++ (op.symbol ++ " " ++ rowText b rest) := by
        simp [rowText, String.intercalate_cons_cons]
      simp [step, ih, Links.text]

variable (a : Atom) (links : Links)

/-- A row is no assignment: what stands after a name is no single `=`. -/
theorem not_matches_assign (p : Position) :
    Matches scriptGrammar (.rule .assignStmt) {} ⟨p, a.text ++ links.text⟩ none := by
  refine .noRule (by decide) ?_
  cases a with
  | number text numeral => exact .seqFirst (Atom.not_matches_identifier links.head_text numeral)
  | name word named =>
      have wordEnds : ∀ x ∈ (Links.text links).head?, isNameChar x = false := by
        intro x isFirst
        rw [links.head_text x isFirst]
        rfl
      refine .seqSecond (matches_identifier named wordEnds {} p) ?_
      obtain ⟨p', settled⟩ := links.skip_text (p.advanceAll word)
      show Matches scriptGrammar _ {} (skip scriptGrammar {} _) none
      rw [settled]
      cases links with
      | nil => exact .seqFirst (.noText rfl)
      | cons link rest =>
          obtain ⟨op, b⟩ := link
          cases op with
          | eq =>
              exact .seqSecond (matches_lit "=" ('=' :: ' ' :: (b.text ++ Links.text rest)))
                (.seqFirst (.notAheadNone (matches_lit "=" (' ' :: (b.text ++ Links.text rest)))))
          | _ => exact .seqFirst (.noText rfl)

/-- A row is one statement. -/
theorem matches_rowStatement (p : Position) :
    ∃ p' t, Matches scriptGrammar (.rule .statement) {} ⟨p, a.text ++ links.text⟩
        (some (⟨p', []⟩, [t])) ∧
      (links.length < nestingLimit → ∃ e span, Stmt.ofTree t 0 = .ok (.eval e false span) ∧
        e.Reads 0 (.inl a.expr :: links.row)) := by
  obtain ⟨p', t, isRow, built⟩ := readsLevel (Nat.zero_le 5) a links p
  have all : ∀ link ∈ links, Links.binds 0 link = true := fun _ _ => rfl
  rw [List.dropWhile_eq_nil_iff.mpr all] at isRow
  rw [List.takeWhile_eq_self_iff.mpr all] at built
  obtain ⟨t', isStatement, isStmt⟩ := matches_exprStatement
    (fun _ => a.not_matches_opening links.head_text) (not_matches_assign a links p) isRow
  refine ⟨p', t', isStatement, ?_⟩
  intro short
  obtain ⟨e, isExpr, reads⟩ := built 1 (by omega)
  exact ⟨e, .between p p', isStmt e isExpr, reads⟩

/-- Nothing is a statement. -/
theorem not_matches_statement_nil (p : Position) :
    Matches scriptGrammar (.rule .statement) {} ⟨p, []⟩ none := by
  have isMatch := call_matches scriptRanked (scriptRanked.bound + 1) .statement {} ⟨p, []⟩ {}
    (Nat.lt_succ_of_lt (by simpa using scriptRanked.rank_lt .statement))
  generalize (scriptGrammar.call _ Rule.statement {} ⟨p, []⟩ {}).result = found at isMatch
  cases found with
  | none => exact isMatch
  | some found => exact absurd (isMatch.length_lt scriptRanked (by decide)) (Nat.not_lt_zero _)

/-- **Operators bind as their levels say.** A row of up to 127 operators between atoms is read as
the one ordered tree of the row. -/
theorem parseExpression_row (a : Atom) (links : Links) (short : links.length ≤ 127) :
    ∃ e, parseExpression (rowText a links) = .ok e ∧ e.inOrder = .inl a.expr :: links.row ∧
      e.Ordered ∧ ∀ other : Expr, other.inOrder = .inl a.expr :: links.row → other.Ordered →
        other.bare = e.bare := by
  obtain ⟨p', t, isStatement, built⟩ := matches_rowStatement a links {}
  obtain ⟨e, span, isStmt, reads⟩ := built (Nat.lt_succ_of_le short)
  have starts : skip scriptGrammar {} (Cursor.start (a.text ++ links.text)) =
      Cursor.start (a.text ++ links.text) := a.skip_atom {} _
  have statements : Matches scriptGrammar (.star (.rule .statement)) {}
      (skip scriptGrammar {} (Cursor.start (a.text ++ links.text))) (some (⟨p', []⟩, [t])) := by
    rw [starts]
    exact .starOnce isStatement (not_matches_statement_nil p')
  have isParsed : parse (rowText a links) = .ok [.eval e false span] := by
    rw [parse, toList_rowText, parseChars_of_end statements rfl, Stmt.ofTrees, isStmt]
    rfl
  refine ⟨e, ?_, reads.inOrder, reads.ordered, ?_⟩
  · rw [parseExpression, isParsed]
    rfl
  · intro other isRow ordered
    exact Expr.bare_eq_of_inOrder ordered reads.ordered (isRow.trans reads.inOrder.symm)

/-- Differences are taken from left to right, a product before them and a comparison after. -/
theorem parseExpression_row_mixed :
    [BinaryOp.sub, .sub, .mul, .eq].length ≤ 127 ∧
      ∃ e, parseExpression "a - b - 1.5 * c == d" = .ok e ∧ e.bare =
        Expr.bare (.binary .eq
          (.binary .sub (.binary .sub (.ident "a" default) (.ident "b" default) default)
            (.binary .mul (.num (numberOf ['1', '.', '5']) default) (.ident "c" default) default)
            default)
          (.ident "d" default) default) := by
  obtain ⟨e, isExpr, -, -, only⟩ := parseExpression_row (.name ['a'] rfl)
    [(.sub, .name ['b'] rfl), (.sub, .number ['1', '.', '5'] rfl), (.mul, .name ['c'] rfl),
      (.eq, .name ['d'] rfl)] (by decide)
  exact ⟨by decide, e, isExpr, (only _ rfl (by decide)).symm⟩

end ScriptShell
