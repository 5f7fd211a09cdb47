import ScriptShell.Proofs.Syntax.Built
import ScriptShell.Proofs.Syntax.StretchedTrees
import ScriptShell.Proofs.Syntax.Terminated

/-! # Blanks and comments around a text

Blanks and whole comments before a text move what is read, and blanks behind it leave what is read
as it is, but for the end of the last statement: where a statement ends with a gap, it goes up to
the end of the text. -/

namespace ScriptShell

open Grammar

variable {first last depth : Nat} {t t' : ParseTree Rule} {ts ts' : List (ParseTree Rule)}

/-! ## Expressions

Where an expression ends is not read off the phrases that may end with a gap: it is that of a token,
of a list or of a suffix. -/

/-- **Expressions do not end with gaps.** A tree that is stretched is read as the same expression.
-/
theorem Expr.Built.stretched {e : Expr} (built : Built t depth e)
    (stretched : Stretched first last [t] [t']) : Built t' depth e := by
  induction built using @Built.rec _ (fun _ _ _ _ => True)
    (fun left ts depth e _ => ∀ ts', Stretched first last ts ts' → Operated left ts' depth e)
    (fun ops ts depth e _ => ∀ ts', Stretched first last ts ts' → Prefixed ops ts' depth e)
    (fun object ts depth e _ => ∀ ts', Stretched first last ts ts' → Suffixed object ts' depth e)
    generalizing t' with
  | num | bool | null | ident =>
      cases stretched.eq_of_not_trails rfl
      constructor <;> assumption
  | str within =>
      cases stretched.eq_of_not_trails rfl
      exact .str within
  | list within items =>
      cases stretched.eq_of_not_trails rfl
      exact .list within items
  | expression within _ ofInner =>
      obtain ⟨span', parts', rfl, inside⟩ := stretched.parts
      obtain ⟨inner', rfl, inner⟩ := Stretched.concat [] inside
      exact .expression within (ofInner inner)
  | chain isChain within _ _ ofFirst ofRest =>
      obtain ⟨span', parts', rfl, inside⟩ := stretched.parts
      obtain ⟨first', rest', rfl, inFirst, inRest, -⟩ := inside.uncons
      rw [← inRest.length_eq] at within ofFirst ofRest
      exact .chain isChain within (ofFirst inFirst) (ofRest _ inRest)
  | unary within _ ofParts =>
      obtain ⟨span', parts', rfl, inside⟩ := stretched.parts
      exact .unary within (ofParts _ inside)
  | suffixed within _ _ ofFirst ofRest =>
      obtain ⟨span', parts', rfl, inside⟩ := stretched.parts
      obtain ⟨first', rest', rfl, inFirst, inRest, -⟩ := inside.uncons
      rw [← inRest.length_eq] at ofFirst ofRest
      exact .suffixed within (ofFirst inFirst) (ofRest _ inRest)
  | nil | cons => trivial
  | noOperator ts' stretched =>
      cases stretched.eq_nil
      exact .noOperator
  | operator isOperator _ _ ofRight ofRest ts' stretched =>
      obtain ⟨_, rest', rfl, -, inRest, same⟩ := stretched.uncons
      cases same (by simp)
      obtain ⟨right', rest', rfl, inRight, inRest, -⟩ := inRest.uncons
      exact .operator isOperator (ofRight inRight) (ofRest _ inRest)
  | before isOperator others ofRest ts' stretched =>
      obtain ⟨_, rest', rfl, -, inRest, same⟩ := stretched.uncons
      cases same (by rintro rfl; cases others)
      exact .before isOperator (ofRest _ inRest)
  | operand _ ofOperand ts' stretched =>
      obtain ⟨operand', rfl, inner⟩ := Stretched.concat [] stretched
      exact .operand (ofOperand inner)
  | noSuffix ts' stretched =>
      cases stretched.eq_nil
      exact .noSuffix
  | member _ ofRest ts' stretched =>
      obtain ⟨_, rest', rfl, inFirst, inRest, -⟩ := stretched.uncons
      cases inFirst.eq_of_not_trails rfl
      exact .member (ofRest _ inRest)
  | call args _ _ ofRest ts' stretched =>
      obtain ⟨_, rest', rfl, inFirst, inRest, -⟩ := stretched.uncons
      cases inFirst.eq_of_not_trails rfl
      exact .call args (ofRest _ inRest)

/-! ## Statements -/

namespace Stmt

/-- A statement that ends at another place. It ends with an expression that nothing follows, or with
a block that an else clause might follow, or with an else clause that ends with such a branch. -/
inductive Grown (first last : Nat) : Stmt → Stmt → Prop where
  | define (name : String) (params : List String) (body : Expr) {span : Span}
      (ends : span.stop = first) : Grown first last (.define name params body span)
        (.define name params body { span with stop := last })
  | bind (name : String) (value : Expr) {span : Span} (ends : span.stop = first) :
      Grown first last (.bind name value span) (.bind name value { span with stop := last })
  | assign (name : String) (value : Expr) {span : Span} (ends : span.stop = first) :
      Grown first last (.assign name value span) (.assign name value { span with stop := last })
  | eval (expr : Expr) {span : Span} (ends : span.stop = first) :
      Grown first last (.eval expr false span) (.eval expr false { span with stop := last })
  | branch (test : Expr) (onTrue : List Stmt) {span : Span} (ends : span.stop = first) :
      Grown first last (.branch test onTrue none span)
        (.branch test onTrue none { span with stop := last })
  | otherwise (test : Expr) (onTrue : List Stmt) {next next' : Stmt} {span : Span}
      (ends : span.stop = first) (inside : Grown first last next next') :
      Grown first last (.branch test onTrue (some [next]) span)
        (.branch test onTrue (some [next']) { span with stop := last })

/-- Statements of which the last one may end at another place. -/
inductive GrownAll (first last : Nat) : List Stmt → List Stmt → Prop where
  | same (stmts : List Stmt) : GrownAll first last stmts stmts
  | last (before : List Stmt) {stmt stmt' : Stmt} (grown : Grown first last stmt stmt') :
      GrownAll first last (before ++ [stmt]) (before ++ [stmt'])

/-- What a statement without terminator is built as from its tree, if that is stretched. -/
theorem Built.grown {terminated : Bool} {stmt : Stmt} (built : Built t terminated depth stmt)
    (unended : terminated = false) (stretched : Stretched first last [t] [t']) (differs : t' ≠ t) :
    ∃ stmt', Built t' terminated depth stmt' ∧ Grown first last stmt stmt' := by
  induction built using @Built.rec _ (fun _ _ _ _ => True) generalizing t' with
  | nil | cons => trivial
  | loadQuoted | loadBare | use | loop => exact absurd (stretched.eq_of_not_trails rfl) differs
  | define isExpr =>
      obtain ⟨_, rfl, ends, -, inside⟩ := stretched.phrase_of_ne differs
      obtain ⟨body', rfl, inner⟩ := Stretched.concat [_, _] inside
      exact ⟨_, .define (isExpr.stretched inner), .define _ _ _ ends⟩
  | bind isExpr =>
      obtain ⟨_, rfl, ends, -, inside⟩ := stretched.phrase_of_ne differs
      obtain ⟨value', rfl, inner⟩ := Stretched.concat [_] inside
      exact ⟨_, .bind (isExpr.stretched inner), .bind _ _ ends⟩
  | assign isExpr =>
      obtain ⟨_, rfl, ends, -, inside⟩ := stretched.phrase_of_ne differs
      obtain ⟨value', rfl, inner⟩ := Stretched.concat [_] inside
      exact ⟨_, .assign (isExpr.stretched inner), .assign _ _ ends⟩
  | eval isExpr =>
      subst unended
      obtain ⟨_, rfl, ends, -, inside⟩ := stretched.phrase_of_ne differs
      obtain ⟨expr', rfl, inner⟩ := Stretched.concat [] inside
      exact ⟨_, .eval (isExpr.stretched inner), .eval _ ends⟩
  | branch within isTest isTrue =>
      obtain ⟨_, rfl, ends, -, inside⟩ := stretched.phrase_of_ne differs
      obtain ⟨block, rfl, inner⟩ := Stretched.concat [_] inside
      cases inner.eq_of_not_trails rfl
      exact ⟨_, .branch within isTest isTrue, .branch _ _ ends⟩
  | branchElse =>
      -- A block does not end elsewhere, so the clause and the branch around it do not either.
      obtain ⟨_, rfl, -, moves, inside⟩ := stretched.phrase_of_ne differs
      obtain ⟨block, -, inner, differs'⟩ := inside.elseClause (moves rfl)
      exact absurd (inner.eq_of_not_trails rfl) differs'
  | branchElseIf within isTest isTrue _ _ ofNext =>
      obtain ⟨_, rfl, ends, moves, inside⟩ := stretched.phrase_of_ne differs
      obtain ⟨next', rfl, inner, differs'⟩ := inside.elseClause (moves rfl)
      obtain ⟨other', isNext, grown⟩ := ofNext rfl inner differs'
      exact ⟨_, .branchElseIf within isTest isTrue isNext, .otherwise _ _ ends grown⟩

/-- Other statements before the grown ones. -/
theorem GrownAll.append_left {stmts stmts' : List Stmt} (grown : GrownAll first last stmts stmts')
    (before : List Stmt) : GrownAll first last (before ++ stmts) (before ++ stmts') := by
  cases grown with
  | same => exact .same _
  | last others grown =>
      rw [← List.append_assoc, ← List.append_assoc]
      exact .last _ grown

/-- **Statements from stretched trees** are the same, but for the end of the last one. -/
theorem BuiltAll.grown {stmts : List Stmt} (built : BuiltAll ts depth stmts)
    (stretched : Stretched first last ts ts') :
    ∃ stmts', BuiltAll ts' depth stmts' ∧ GrownAll first last stmts stmts' := by
  induction built using @BuiltAll.rec (fun _ _ _ _ _ => True) _ generalizing ts' with
  | nil =>
      cases stretched.eq_nil
      exact ⟨[], .nil, .same []⟩
  | @cons span body ending rest _ stmt _ within isFirst isRest _ ofRest =>
      obtain ⟨_, rest', rfl, inFirst, inRest, isLast⟩ := stretched.uncons
      obtain ⟨span', _, rfl, inside⟩ := inFirst.parts
      obtain ⟨body', ending', rfl, inBody, inEnding, isOnly⟩ := inside.uncons
      by_cases isSame : body' = body
      · -- With a terminator or without, the statement is read off what stands before that.
        subst isSame
        obtain ⟨stmts', isRest', grown⟩ := ofRest inRest
        rw [← inEnding.isEmpty_eq] at isFirst
        exact ⟨stmt :: stmts', .cons within isFirst isRest', grown.append_left [stmt]⟩
      · have noEnding : ending = [] := by_contra fun others => isSame (isOnly others)
        have noRest : rest = [] := by
          by_contra others
          cases isLast others
          exact isSame rfl
        subst noEnding noRest
        cases isRest
        cases inEnding.eq_nil
        cases inRest.eq_nil
        obtain ⟨stmt', isFirst', grown⟩ := isFirst.grown rfl inBody isSame
        exact ⟨[stmt'], .cons within isFirst' .nil, .last [] grown⟩
  | _ => trivial

/-- What the builder makes of stretched trees. -/
theorem grown_ofTrees (stretched : Stretched first last ts ts') {stmts : List Stmt}
    (built : ofTrees ts depth = .ok stmts) :
    ∃ stmts', ofTrees ts' depth = .ok stmts' ∧ GrownAll first last stmts stmts' := by
  obtain ⟨stmts', built', grown⟩ := (ofTrees_eq_ok_iff.mp built).grown stretched
  exact ⟨stmts', built'.ofTrees_eq, grown⟩

end Stmt

/-! ## Before a text -/

/-- Texts that are blanks and whole comments, each with the end of its line. -/
inductive Trivia : List Char → Prop where
  | nil : Trivia []
  | blank {x : Char} {rest : List Char} (isBlank : scriptGrammar.isBlank x = true)
      (others : Trivia rest) : Trivia (x :: rest)
  | comment {line rest : List Char} (inLine : '\n' ∉ line) (others : Trivia rest) :
      Trivia ('/' :: '/' :: line ++ '\n' :: rest)

/-- A comment is skipped up to the end of its line. -/
theorem skipFrom_comment {line : List Char} (inLine : '\n' ∉ line) (p : Position)
    (rest : List Char) : Cursor.skipFrom scriptGrammar true p (line ++ '\n' :: rest) =
      Cursor.skipFrom scriptGrammar false ((p.advanceAll line).advance '\n') rest := by
  induction line generalizing p with
  | nil => rfl
  | cons x line ih =>
      rw [List.mem_cons, not_or] at inLine
      have goesOn : (x != '\n') = true := bne_iff_ne.mpr (Ne.symm inLine.1)
      rw [List.cons_append, Cursor.skipFrom, goesOn]
      exact ih inLine.2 _

/-- Blanks and whole comments are a gap. -/
theorem Trivia.skipFrom {w : List Char} (trivia : Trivia w) (p : Position) (text : List Char) :
    Cursor.skipFrom scriptGrammar false p (w ++ text) =
      Cursor.skipFrom scriptGrammar false (p.advanceAll w) text := by
  induction trivia generalizing p with
  | nil => rfl
  | blank isBlank _ ih =>
      rw [List.cons_append, Cursor.skipFrom, if_pos isBlank]
      exact ih _
  | @comment line rest inLine _ ih =>
      have isComment := skipFrom_comment inLine ((p.advance '/').advance '/') (rest ++ text)
      have isPlace : p.advanceAll ('/' :: '/' :: line ++ '\n' :: rest) =
          ((((p.advance '/').advance '/').advanceAll line).advance '\n').advanceAll rest := by
        rw [Position.advanceAll_append]
        rfl
      rw [isPlace, ← ih, ← isComment, List.append_assoc]
      rfl

/-- **What stands before a text** moves what is read. -/
theorem parseChars_trivia {w : List Char} (trivia : Trivia w) (text : List Char) :
    (parseChars (w ++ text)).toOption = (parseChars text).toOption.map
      (Stmt.mapSpanAll (Span.moved (Position.advanceAll {} w))) := by
  have isGap : skip scriptGrammar {} (Cursor.start (w ++ text)) =
      (skip scriptGrammar {} (Cursor.start text)).moved (Position.advanceAll {} w) := by
    rw [← skip_moved, Cursor.moved_start]
    exact trivia.skipFrom {} text
  refine @parseChars_append _ _ [] _ [] (fun others => ?_) rfl
  rw [← isGap] at others
  exact ⟨_, others, rfl⟩

/-! ## Behind a text -/

/-- The trees of a text with blanks behind it are those of the text, stretched; or the text goes on
after its statements, with the blanks and without. -/
theorem exists_stretched {v : List Char} (blanks : AllBlank v) (someBlank : v ≠ [])
    (text : String) :
    (∃ ts ts', Stretched text.utf8ByteSize
        (text.utf8ByteSize + (String.ofList v).utf8ByteSize) ts ts' ∧
      parseChars text.toList = Stmt.ofTrees ts 0 ∧
      parseChars (text.toList ++ v) = Stmt.ofTrees ts' 0) ∨
    (∃ e, parseChars text.toList = .error e) ∧ ∃ e, parseChars (text.toList ++ v) = .error e := by
  obtain ⟨c, ts, isMatch⟩ := exists_statements text.toList
  have starts := Cursor.Reaches.skip scriptGrammar {} (Cursor.start text.toList)
  have unblank : (Pattern.star (.rule Rule.statement)).isUnblank (!·.isNullable) = true := rfl
  have stands := Stands.skip blanks
    (.inl rfl : Stands v (Cursor.start text.toList) (Cursor.start (text.toList ++ v))) {}
  obtain ⟨found, isMatch', grows⟩ := isMatch.at_stands unblank
    (isMatch.append_blanks blanks someBlank unblank starts) stands
  obtain ⟨d, ts', rfl⟩ := grows.exists_eq_some
  have sameEnd := grows.stands.afterGap_eq_nil_iff blanks
  by_cases isEnd : afterGap c.rest = []
  · exact .inl ⟨ts, ts', grows.stretched, parseChars_of_end isMatch isEnd,
      parseChars_of_end isMatch' (sameEnd.mpr isEnd)⟩
  · exact .inr ⟨parseChars_of_not_end isMatch isEnd,
      parseChars_of_not_end isMatch' (mt sameEnd.mp isEnd)⟩

/-- **What stands behind a text** changes at most where the last statement ends. -/
theorem parse_append_blanks {v : String} (blanks : AllBlank v.toList) (s : String) :
    ((∃ stmts, parse (s ++ v) = .ok stmts) ↔ ∃ own, parse s = .ok own) ∧
      ∀ own stmts, parse s = .ok own → parse (s ++ v) = .ok stmts →
        Stmt.GrownAll s.utf8ByteSize (s ++ v).utf8ByteSize own stmts := by
  rcases eq_or_ne v "" with rfl | someBlank
  · rw [String.append_empty]
    refine ⟨Iff.rfl, fun own stmts isOwn isWhole => ?_⟩
    cases isOwn.symm.trans isWhole
    exact .same own
  · have someBlank' : v.toList ≠ [] := by simpa using someBlank
    rw [parse, parse, String.toList_append, String.utf8ByteSize_append]
    rcases exists_stretched blanks someBlank' s with
      ⟨ts, ts', stretched, isOwn, isWhole⟩ | ⟨⟨_, refused⟩, _, refused'⟩
    · rw [String.ofList_toList] at stretched
      rw [isOwn, isWhole]
      refine ⟨⟨?_, ?_⟩, fun own stmts built built' => ?_⟩
      · rintro ⟨stmts, built⟩
        obtain ⟨own, built', -⟩ := Stmt.grown_ofTrees stretched.symm built
        exact ⟨own, built'⟩
      · rintro ⟨own, built⟩
        obtain ⟨stmts, built', -⟩ := Stmt.grown_ofTrees stretched built
        exact ⟨stmts, built'⟩
      · obtain ⟨stmts', built'', grown⟩ := Stmt.grown_ofTrees stretched built
        cases built'.symm.trans built''
        exact grown
    · rw [refused, refused']
      simp

/-! ## Around a text -/

/-- A blank behind a text may become part of its last statement. -/
theorem parse_blank_stretches :
    AllBlank " ".toList ∧
      (parse "1").toOption.map (·.map Stmt.span) = some [⟨0, 1, 0, 0⟩] ∧
      (parse ("1" ++ " ")).toOption.map (·.map Stmt.span) = some [⟨0, 2, 0, 0⟩] := by
  exact ⟨by decide +kernel, by decide +kernel, by decide +kernel⟩

/-- **What surrounds a text.** Take blanks and whole comments, any text, and blanks. With the first
before it the text is read exactly if it is read alone, and its statements are moved to where they
stand then. With the last behind it the text is read exactly if it is read alone, and its statements
are the same but for one place: if the last one went up to the end of the text, it may go up to the
end of the blanks. Only a declaration, an assignment, an expression without a semicolon and a branch
without an else clause do so, and with such a branch those whose else clause it is. -/
theorem parse_surrounded {w v : String} (trivia : Trivia w.toList) (blanks : AllBlank v.toList)
    (s : String) :
    let base : Position := ⟨w.utf8ByteSize, w.toList.count '\n',
      (w.toList.reverse.takeWhile (· ≠ '\n')).length⟩
    (∀ stmts, parse (w ++ s) = .ok stmts ↔
      ∃ own, parse s = .ok own ∧ stmts = Stmt.mapSpanAll (Span.moved base) own) ∧
    ((∃ stmts, parse (s ++ v) = .ok stmts) ↔ ∃ own, parse s = .ok own) ∧
    ∀ own stmts, parse s = .ok own → parse (s ++ v) = .ok stmts →
      Stmt.GrownAll s.utf8ByteSize (s ++ v).utf8ByteSize own stmts := by
  intro base
  have isBase : Position.advanceAll {} w.toList = base := by
    show Position.mk (Position.advanceAll {} w.toList).offset
      (Position.advanceAll {} w.toList).line (Position.advanceAll {} w.toList).col = base
    rw [Position.offset_advanceAll, Position.line_advanceAll, Position.col_advanceAll,
      String.ofList_toList]
    exact congrArg (Position.mk · _ _) (Nat.zero_add _)
  refine ⟨fun stmts => ?_, parse_append_blanks blanks s⟩
  have moved := parseChars_trivia trivia s.toList
  rw [isBase] at moved
  rw [parse, parse, String.toList_append]
  exact ok_iff_of_toOption_eq moved stmts

/-- A branch after a comment with a quote in it, and before the end of its line. -/
theorem parse_surrounded_branch :
    let w := " // é \"\n\t"
    let s := "if a \x7b x \x7d else if b \x7b y \x7d"
    let v := "\n "
    Trivia w.toList ∧ AllBlank v.toList ∧ ∃ own stmts, parse s = .ok own ∧
      parse (w ++ s) = .ok (Stmt.mapSpanAll (Span.moved ⟨10, 1, 1⟩) own) ∧
      parse (s ++ v) = .ok stmts ∧ Stmt.GrownAll 26 28 own stmts ∧
      own.map Stmt.span = [⟨0, 26, 0, 0⟩] ∧ stmts.map Stmt.span = [⟨0, 28, 0, 0⟩] := by
  intro w s v
  have isText : w.toList = ' ' :: ('/' :: '/' :: " é \"".toList ++ '\n' :: ['\t']) := by
    decide +kernel
  have trivia : Trivia w.toList := by
    rw [isText]
    exact .blank rfl (.comment (by decide) (.blank rfl .nil))
  have blanks : AllBlank v.toList := by decide +kernel
  have isBase : (⟨10, 1, 1⟩ : Position) = ⟨w.utf8ByteSize, w.toList.count '\n',
      (w.toList.reverse.takeWhile (· ≠ '\n')).length⟩ := by decide +kernel
  have isOwn : (parse s).toOption.any (fun own => own.map Stmt.span = [⟨0, 26, 0, 0⟩]) = true := by
    decide +kernel
  have isStretched : (parse (s ++ v)).toOption.any
      (fun stmts => stmts.map Stmt.span = [⟨0, 28, 0, 0⟩]) = true := by
    decide +kernel
  obtain ⟨own, accepted, ownSpan⟩ := exists_parse_of_any isOwn
  obtain ⟨stmts, accepted', span⟩ := exists_parse_of_any isStretched
  obtain ⟨moved, -, grown⟩ := parse_surrounded trivia blanks s
  refine ⟨trivia, blanks, own, stmts, accepted, (moved _).mpr ⟨own, accepted, by rw [isBase]⟩,
    accepted', grown own stmts accepted accepted', of_decide_eq_true ownSpan,
    of_decide_eq_true span⟩

end ScriptShell
