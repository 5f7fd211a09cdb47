import ScriptShell.Proofs.Grammar.Stretches
import ScriptShell.Proofs.Syntax.Chains

/-! # Texts as literals

Every text can be written between quotes, with a backslash before each quote and each backslash of
it. Two readers have to agree on that: the grammar, which looks for the closing quote, and the
reader of what stands between the quotes. Both are followed here through the written text, character
by character (**`readQuoted_escape`**, **`readEscapes_escape`**). No other operand and no statement
starts with a quote; so the literal of a text is read as that text (**`parseExpression_literal`**).
-/

namespace ScriptShell

open Grammar

/-! ## Writing -/

/-- A character as it is written between quotes. -/
def escapeChar (c : Char) : List Char :=
  if c = '"' ∨ c = '\\' then ['\\', c] else [c]

/-- Characters as they are written between quotes. -/
def escape (text : List Char) : List Char :=
  text.flatMap escapeChar

/-- The literal of a text. -/
def literal (text : String) : String :=
  "\"" ++ String.ofList (escape text.toList) ++ "\""

/-- A text is escaped character by character. -/
theorem escape_cons (c : Char) (text : List Char) :
    escape (c :: text) = escapeChar c ++ escape text :=
  List.flatMap_cons

/-! ## Reading back -/

/-- What was written between quotes is read back. -/
theorem readEscapes_escape (text : List Char) : readEscapes (escape text) = text := by
  induction text with
  | nil => rfl
  | cons c text ih =>
      rw [escape_cons, escapeChar]
      by_cases marked : c = '"' ∨ c = '\\'
      · rw [if_pos marked]
        rcases marked with rfl | rfl <;> exact congrArg _ ih
      · rw [not_or] at marked
        rw [if_neg (not_or.mpr marked), List.singleton_append, readEscapes, ih] <;>
          simp [marked.2]

/-- The closing quote is found after what was written, and not before. -/
theorem readQuoted_escape (text rest : List Char) :
    readQuoted (escape text ++ '"' :: rest) = some (escape text, rest) := by
  induction text with
  | nil => rfl
  | cons c text ih =>
      rw [escape_cons, escapeChar]
      by_cases marked : c = '"' ∨ c = '\\'
      · rw [if_pos marked]
        show readQuoted ('\\' :: c :: (escape text ++ '"' :: rest)) = _
        rw [readQuoted, ih]
        rfl
      · rw [not_or] at marked
        rw [if_neg (not_or.mpr marked)]
        show readQuoted (c :: (escape text ++ '"' :: rest)) = _
        rw [readQuoted, ih] <;> simp [marked]

/-! ## Operands that stand alone -/

/-- **An operand up to the end is an expression of every level**, and it is built as itself: a chain
without operators adds no level of nesting. -/
theorem matches_ofLevel_alone {text : List Char} {p p' : Position} {t : ParseTree Rule}
    (operand : Matches scriptGrammar (.rule .unary) {} ⟨p, text⟩ (some (⟨p', []⟩, [t])))
    {level : Nat} (isLevel : level ≤ 5) :
    ∃ t', Matches scriptGrammar (.rule (.ofLevel level)) {} ⟨p, text⟩ (some (⟨p', []⟩, [t'])) ∧
      ∀ depth ≤ nestingLimit, Expr.ofTree t' depth = Expr.ofTree t depth := by
  -- From the operands down: the level above gives the only operand of a chain.
  rcases Nat.lt_or_eq_of_le isLevel with below | rfl
  · obtain ⟨inner, isInner, same⟩ := matches_ofLevel_alone operand (Nat.succ_le_of_lt below)
    have noOperator : Matches scriptGrammar
        (.star (.seq (BinaryOp.ofLevel level) (.rule (.ofLevel (level + 1))))) {} ⟨p', []⟩
        (some (⟨p', []⟩, [])) :=
      .starNone (.seqFirst (BinaryOp.not_matches_ofLevel_nil below))
    have whole : Matches scriptGrammar (Rule.ofLevel level).pattern {} ⟨p, text⟩
        (some (⟨p', []⟩, [inner])) := by
      rw [Rule.pattern_ofLevel below]
      exact .seq isInner noOperator
    refine ⟨_, matches_phrase (Rule.kind_ofLevel level) whole, ?_⟩
    intro depth within
    show Expr.ofTree (.phrase (.ofLevel level) _ [inner]) depth = _
    rw [Expr.ofTree_ofLevel below within, ← same depth within, Expr.ofChain]
    show (if nestingLimit < depth then _ else Expr.ofTree inner depth >>= fun e => .ok e) = _
    rw [if_neg (Nat.not_lt.mpr within)]
    cases Expr.ofTree inner depth <;> rfl
  · exact ⟨t, operand, fun _ _ => rfl⟩
termination_by 5 - level

/-- An expression up to the end is what a text is read as, where no gap comes before it. -/
theorem parseExpression_of_statement {text : String} {chars : List Char} {p' : Position}
    {t : ParseTree Rule} {e : Expr} {span : Span} (isText : text.toList = chars)
    (starts : skip scriptGrammar {} (Cursor.start chars) = Cursor.start chars)
    (isStatement : Matches scriptGrammar (.rule .statement) {} (Cursor.start chars)
      (some (⟨p', []⟩, [t])))
    (isStmt : Stmt.ofTree t 0 = .ok (.eval e false span)) : parseExpression text = .ok e := by
  have statements : Matches scriptGrammar (.star (.rule .statement)) {}
      (skip scriptGrammar {} (Cursor.start chars)) (some (⟨p', []⟩, [t])) := by
    rw [starts]
    exact .starOnce isStatement (not_matches_statement_nil p')
  have isParsed : parse text = .ok [.eval e false span] := by
    rw [parse, isText, parseChars_of_end statements rfl, Stmt.ofTrees, isStmt]
    rfl
  rw [parseExpression, isParsed]
  rfl

/-! ## Literals as expressions -/

section

variable {m : Mode} {p : Position} {rest : List Char}

/-- No reserved word starts with a quote. -/
theorem not_matches_reserved_quote {r : Rule} (first : String) (more : List String)
    (isToken : r.kind = .token) (isPattern : r.pattern =
      .seq (.oneOf (.lit first) (more.map .lit)) (.notAhead (.rule .identChar)))
    (reserved : ∀ text ∈ first :: more, text ∈ reservedWords) :
    Matches scriptGrammar (.rule r) m ⟨p, '"' :: rest⟩ none := by
  have ends : ∀ x ∈ ('"' :: rest).head?, isNameChar x = false := by
    rintro _ ⟨⟩
    rfl
  -- The word before the quote is empty, and no reserved word is.
  exact @not_matches_reserved m p [] ('"' :: rest) r first more isToken isPattern reserved
    (by simp) (by decide) ends

/-- No name starts with a quote. -/
theorem not_matches_identifier_quote :
    Matches scriptGrammar (.rule .identifier) m ⟨p, '"' :: rest⟩ none := by
  have noKeyword : Matches scriptGrammar (.rule .keyword) ⟨m.look.enter false, .mute⟩
      ⟨p, '"' :: rest⟩ none :=
    not_matches_reserved_quote "let"
      ["fn", "use", "if", "else", "while", "await", "true", "false", "null"] rfl rfl (fun _ => id)
  have noLetter : Matches scriptGrammar (.alt (.char Char.isAlpha) (.lit "_")) ⟨m.look, .mute⟩
      ⟨p, '"' :: rest⟩ none := .altSecond (.noChar rfl) (.noText rfl)
  exact .noRule (by decide) (.seqSecond (.notAhead noKeyword) (.seqFirst noLetter))

/-- No statement that a keyword or a mark opens starts with a quote. -/
theorem not_matches_opening_quote {r : Rule}
    (opens : r ∈ [Rule.loadStmt, .useStmt, .fnDecl, .letStmt, .ifStmt, .whileStmt]) :
    Matches scriptGrammar (.rule r) {} ⟨p, '"' :: rest⟩ none := by
  refine not_matches_opening_of_word (.noText rfl) ?_ opens
  intro kw word m isToken isWord reserved
  exact not_matches_reserved_quote word [] isToken isWord (by simpa using reserved)

/-- No prefix operator starts with a quote. -/
theorem not_matches_prefix_quote :
    Matches scriptGrammar (.oneOf (.rule .opNeg) [.rule .opNot, .rule .opAwait]) {}
      ⟨p, '"' :: rest⟩ none := by
  have noAwait : Matches scriptGrammar (.rule .opAwait) {} ⟨p, '"' :: rest⟩ none :=
    .noRule (by decide) (.seqFirst (.aheadNone
      (not_matches_reserved_quote "await" [] rfl rfl (by decide))))
  exact .altSecond (.noRule (by decide) (.noText rfl))
    (.altSecond (.noRule (by decide) (.seqFirst (.noText rfl))) noAwait)

end

/-- A text between quotes is an operand of its own. -/
theorem matches_unary_quoted {text raw : List Char} (read : readQuoted text = some (raw, []))
    (p : Position) :
    ∃ t, Matches scriptGrammar (.rule .unary) {} ⟨p, '"' :: text⟩
        (some (⟨p.advanceAll ('"' :: raw ++ ['"']), []⟩, [t])) ∧
      ∀ depth ≤ nestingLimit, Expr.ofTree t depth =
        .ok (.str (String.ofList (readEscapes raw))
          (.between p (p.advanceAll ('"' :: raw ++ ['"'])))) := by
  have noNumber : Matches scriptGrammar (.rule .number) {} ⟨p, '"' :: text⟩ none :=
    .noRule (by decide) (.seqFirst (.seqFirst (.noChar rfl)))
  have quoted := matches_quoted read {} p
  rw [if_pos rfl] at quoted
  rw [Position.advanceAll_snoc]
  obtain ⟨t, isMatch, same⟩ := matches_operand (skip_other (by decide) (by decide) p)
    not_matches_prefix_quote (.silent rfl (.altSecond noNumber (.altFirst quoted))) rfl (by simp)
  refine ⟨t, isMatch, ?_⟩
  intro depth within
  rw [same depth within, Expr.ofTree, if_neg (Nat.not_lt.mpr within)]
  rfl

/-- **Every text has a literal.** Whatever a text holds, its literal is read as that text, and the
stretch of the expression is the whole of the literal. -/
theorem parseExpression_literal (text : String) :
    parseExpression (literal text) =
      .ok (.str text ⟨0, (literal text).utf8ByteSize, 0, 0⟩) := by
  have isLiteral : (literal text).toList = '"' :: escape text.toList ++ ['"'] := by
    simp [literal]
  obtain ⟨operand, isOperand, built⟩ :=
    matches_unary_quoted (readQuoted_escape text.toList []) {}
  obtain ⟨row, isRow, same⟩ := matches_ofLevel_alone isOperand (Nat.zero_le 5)
  have noAssign : Matches scriptGrammar (.rule .assignStmt) {}
      ⟨{}, '"' :: (escape text.toList ++ ['"'])⟩ none :=
    .noRule (by decide) (.seqFirst not_matches_identifier_quote)
  obtain ⟨t, isStatement, isStmt⟩ :=
    matches_exprStatement (fun _ => not_matches_opening_quote) noAssign isRow
  have isExpr := (same 1 (by decide)).trans (built 1 (by decide))
  have stretch : Span.between {} (Position.advanceAll {} ('"' :: escape text.toList ++ ['"'])) =
      ⟨0, (literal text).utf8ByteSize, 0, 0⟩ := by
    rw [← isLiteral, Span.between, Position.offset_advanceAll, String.ofList_toList]
    simp
  rw [readEscapes_escape, String.ofList_toList, stretch] at isExpr
  exact parseExpression_of_statement isLiteral (skip_other (by decide) (by decide) {}) isStatement
    (isStmt _ isExpr)

end ScriptShell
