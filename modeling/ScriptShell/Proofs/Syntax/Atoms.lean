import ScriptShell.Proofs.Syntax.Precedence
import ScriptShell.Proofs.Syntax.Written

/-! # Operands without parts

Names and numerals are the operands that are made of no others. Wherever one is written and a space
or the end follows, it is matched as a whole, and no other operand, no prefix operator and no
statement that a keyword opens is: **`Atom.matches_unary`** and **`Atom.not_matches_opening`**. -/

namespace ScriptShell

open Grammar

/-! ## Numerals -/

section

variable {m : Mode} {rest : List Char}

/-- Digits match up to the first character that is none. -/
theorem matches_digits (tight : m.texture ≠ .loose) {text : List Char}
    (digits : isDigits text = true) (ends : ∀ x ∈ rest.head?, x.isDigit = false) (p : Position) :
    Matches scriptGrammar (.plus (.char Char.isDigit)) m ⟨p, text ++ rest⟩
      (some (⟨p.advanceAll text, rest⟩, [])) := by
  obtain ⟨x, more, rfl, all⟩ := isDigits_iff.mp digits
  have one : ∀ p x rest, x.isDigit = true →
      Matches scriptGrammar (.char Char.isDigit) m ⟨p, x :: rest⟩
        (some (⟨p.advance x, rest⟩, [])) := by
    intro p x rest isDigit
    refine .char ?_
    simp [Cursor.char?, isDigit]
  have none : ∀ p, Matches scriptGrammar (.char Char.isDigit) m ⟨p, rest⟩ none := by
    intro p
    refine .noChar ?_
    cases rest with
    | nil => rfl
    | cons y rest => simp [Cursor.char?, ends y rfl]
  have others := matches_star_chars tight one none more
    (fun c member => all c (List.mem_cons_of_mem x member)) (p.advance x)
  refine .seq (one p x (more ++ rest) (all x List.mem_cons_self)) ?_
  rw [skip_eq_self tight]
  exact others

/-- A name is no numeral. -/
theorem not_matches_number {p : Position} {word : List Char} (named : isName word = true) :
    Matches scriptGrammar (.rule .number) m ⟨p, word ++ rest⟩ none := by
  obtain ⟨x, word, rfl, starts, -⟩ := isName_iff.mp named
  have noDigit : x.isDigit = false := by
    rw [Bool.eq_false_iff]
    intro isDigit
    rw [isNameStart_eq_false_of_isDigit isDigit] at starts
    cases starts
  refine .noRule (by decide) (.seqFirst (.seqFirst (.noChar ?_)))
  simp [Cursor.char?, noDigit]

/-- A numeral is matched as a whole. -/
theorem matches_number {text : List Char} (numeral : isNumeral text = true)
    (ends : ∀ x ∈ rest.head?, x = ' ') (p : Position) :
    ∃ p', Matches scriptGrammar (.rule .number) {} ⟨p, text ++ rest⟩
      (some (⟨p', rest⟩, [.token .number (.between p p') text])) := by
  have tight : Texture.mute ≠ .loose := by decide
  have noDigit : ∀ x ∈ rest.head?, x.isDigit = false := by
    intro x isFirst
    rw [ends x isFirst]
    rfl
  obtain ⟨whole, fraction, rfl, isWhole, isFraction⟩ := exists_of_isNumeral numeral
  -- The pattern, up to the end of the numeral.
  have inner : ∃ p', Matches scriptGrammar (Rule.pattern .number) ⟨.none, .mute⟩
      ⟨p, whole ++ (fraction ++ rest)⟩ (some (⟨p', rest⟩, [])) := by
    rcases isFraction with rfl | ⟨decimals, rfl, isDecimals⟩
    · have noPoint : Matches scriptGrammar (.lit ".") ⟨.none, .mute⟩
          ⟨p.advanceAll whole, rest⟩ none :=
        not_matches_lit_of_head '.' rfl fun y isFirst => by
          rw [ends y isFirst]
          decide
      exact ⟨_, .seq (matches_digits tight isWhole noDigit p) (.optNone (.seqFirst noPoint))⟩
    · exact ⟨_, .seq (matches_digits tight isWhole (by simp) p)
        (.opt (.seq (matches_lit "." _) (matches_digits tight isDecimals noDigit _)))⟩
  obtain ⟨p', inner⟩ := inner
  have isMatch := matches_token (m := {}) (r := Rule.number) rfl inner
  rw [← List.append_assoc, ruleTrees, if_pos ⟨rfl, by decide⟩, makeTree, if_pos rfl,
    Cursor.textTo_of_append rfl] at isMatch
  exact ⟨p', isMatch⟩

end

/-! ## Operands -/

/-- An operand without prefix operators and suffixes is built as what it consists of. -/
theorem Expr.ofTree_operand {t : ParseTree Rule} {span span' : Span} {depth : Nat}
    (below : depth ≤ nestingLimit) :
    Expr.ofTree (.phrase .unary span [.phrase .postfixExpr span' [t]]) depth =
      Expr.ofTree t depth := by
  have within : ¬ nestingLimit < depth := Nat.not_lt.mpr below
  rw [Expr.ofTree, if_neg within, Expr.ofPrefixed]
  show (Expr.ofTree (.phrase .postfixExpr span' [t]) depth >>= fun e => .ok (e.wrap [])) = _
  rw [Expr.ofTree, if_neg within]
  show ((Expr.ofTree t depth >>= fun e => .ok e) >>= fun e => .ok e) = _
  cases Expr.ofTree t depth <;> rfl

/-- What an operand consists of is an operand, together with the gap after it, where neither a point
nor a bracket follows. -/
theorem matches_operand {p p₁ p₂ : Position} {text rest next : List Char} {t : ParseTree Rule}
    (starts : skip scriptGrammar {} ⟨p, text⟩ = ⟨p, text⟩)
    (noPrefix : Matches scriptGrammar (.oneOf (.rule .opNeg) [.rule .opNot, .rule .opAwait]) {}
      ⟨p, text⟩ none)
    (primary : Matches scriptGrammar (.rule .primary) {} ⟨p, text⟩ (some (⟨p₁, rest⟩, [t])))
    (settled : skip scriptGrammar {} ⟨p₁, rest⟩ = ⟨p₂, next⟩)
    (noSuffix : ∀ x ∈ next.head?, x ≠ '.' ∧ x ≠ '(') :
    ∃ t', Matches scriptGrammar (.rule .unary) {} ⟨p, text⟩ (some (⟨p₂, next⟩, [t'])) ∧
      ∀ depth ≤ nestingLimit, Expr.ofTree t' depth = Expr.ofTree t depth := by
  have noMember : Matches scriptGrammar (.rule .member) {} ⟨p₂, next⟩ none :=
    .noRule (by decide) (.seqFirst
      (not_matches_lit_of_head '.' rfl fun x isFirst => (noSuffix x isFirst).1))
  have noCall : Matches scriptGrammar (.rule .call) {} ⟨p₂, next⟩ none :=
    .noRule (by decide) (.seqFirst
      (not_matches_lit_of_head '(' rfl fun x isFirst => (noSuffix x isFirst).2))
  have noMore : Matches scriptGrammar (.star (.alt (.rule .member) (.rule .call))) {}
      (skip scriptGrammar {} ⟨p₁, rest⟩) (some (⟨p₂, next⟩, [])) := by
    rw [settled]
    exact .starNone (.altSecond noMember noCall)
  have operand : Matches scriptGrammar (.rule .postfixExpr) {} ⟨p, text⟩ _ :=
    matches_phrase rfl (.seq primary noMore)
  exact ⟨_, matches_phrase rfl (.seq (.starNone noPrefix) (by rw [starts]; exact operand)),
    fun _ below => Expr.ofTree_operand below⟩

/-! ## Atoms -/

/-- Operands without parts: names and numerals. -/
inductive Atom where
  | name (word : List Char) (named : isName word = true)
  | number (text : List Char) (numeral : isNumeral text = true)

namespace Atom

/-- How an atom is written. -/
def text : Atom → List Char
  | .name word _ => word
  | .number text _ => text

/-- The expression that an atom stands for, without a place. -/
def expr : Atom → Expr
  | .name word _ => .ident (String.ofList word) default
  | .number text _ => .num (numberOf text) default

/-- An atom starts with a word that is not reserved, and a point follows it if anything does. -/
theorem exists_word (a : Atom) : ∃ x word more, a.text = x :: word ++ more ∧
    (∀ c ∈ x :: word, isNameChar c = true) ∧ (∀ text ∈ reservedWords, text.toList ≠ x :: word) ∧
      ∀ c ∈ more.head?, c = '.' := by
  cases a with
  | name word named =>
      have chars := isNameChar_of_isName named
      obtain ⟨x, word, rfl, -, -, free⟩ := isName_iff.mp named
      exact ⟨x, word, [], (List.append_nil _).symm, chars, free, by simp⟩
  | number text numeral =>
      obtain ⟨whole, fraction, rfl, isWhole, isFraction⟩ := exists_of_isNumeral numeral
      obtain ⟨x, word, rfl, digits⟩ := isDigits_iff.mp isWhole
      refine ⟨x, word, fraction, rfl, ?_, ?_, ?_⟩
      · intro c member
        simp [isNameChar, Char.isAlphanum, digits c member]
      · -- Reserved words start with letters.
        have checked : (reservedWords.all fun text => text.toList.head?.all fun c => !c.isDigit) =
            true := by decide
        intro text member isText
        have noDigit := List.all_eq_true.mp checked text member
        simp [isText, digits x List.mem_cons_self] at noDigit
      · rcases isFraction with rfl | ⟨decimals, rfl, -⟩ <;> simp

section

variable (a : Atom) {m : Mode} {p : Position} {rest : List Char}

/-- An atom starts with a name character. -/
theorem exists_head (rest : List Char) :
    ∃ x more, a.text ++ rest = x :: more ∧ isNameChar x = true := by
  obtain ⟨x, word, more, isText, chars, -⟩ := a.exists_word
  exact ⟨x, word ++ more ++ rest, by rw [isText]; rfl, chars x List.mem_cons_self⟩

/-- No sign comes next where an atom does. -/
theorem not_matches_sign {text : String} (x : Char) {more : List Char}
    (isText : text.toList = x :: more) (sign : isNameChar x = false) :
    Matches scriptGrammar (.lit text) m ⟨p, a.text ++ rest⟩ none := by
  obtain ⟨y, after, isFirst, isChar⟩ := a.exists_head rest
  rw [isFirst]
  refine not_matches_lit_of_head x isText ?_
  rintro _ ⟨⟩
  exact ne_of_isNameChar isChar sign

/-- There is no gap before an atom. -/
theorem skip_atom (p : Position) (rest : List Char) :
    skip scriptGrammar {} ⟨p, a.text ++ rest⟩ = ⟨p, a.text ++ rest⟩ := by
  obtain ⟨x, more, isFirst, isChar⟩ := a.exists_head rest
  have notBlank : scriptGrammar.isBlank x = false := by
    rw [Bool.eq_false_iff]
    intro isBlank
    simp only [scriptGrammar, Bool.or_eq_true, beq_iff_eq] at isBlank
    rcases isBlank with ((rfl | rfl) | rfl) | rfl <;> cases isChar
  rw [isFirst]
  exact skip_other notBlank (ne_of_isNameChar isChar rfl) p

variable (ends : ∀ x ∈ rest.head?, x = ' ')

include ends

/-- No reserved word comes next where an atom does. -/
theorem not_matches_word {r : Rule} (first : String) (more : List String)
    (isToken : r.kind = .token) (isPattern : r.pattern =
      .seq (.oneOf (.lit first) (more.map .lit)) (.notAhead (.rule .identChar)))
    (reserved : ∀ text ∈ first :: more, text ∈ reservedWords) :
    Matches scriptGrammar (.rule r) m ⟨p, a.text ++ rest⟩ none := by
  obtain ⟨x, word, after, isText, chars, free, isPoint⟩ := a.exists_word
  have wordEnds : ∀ y ∈ (after ++ rest).head?, isNameChar y = false := by
    intro y isFirst
    rw [List.head?_append, Option.mem_def, Option.or_eq_some_iff] at isFirst
    rcases isFirst with isFirst | ⟨-, isFirst⟩
    · rw [isPoint y isFirst]
      rfl
    · rw [ends y isFirst]
      rfl
  rw [isText, List.append_assoc]
  exact not_matches_reserved first more isToken isPattern reserved chars free wordEnds

/-- Where an atom comes next, no statement does that a keyword or a mark opens. -/
theorem not_matches_opening {r : Rule}
    (opens : r ∈ [Rule.loadStmt, .useStmt, .fnDecl, .letStmt, .ifStmt, .whileStmt]) :
    Matches scriptGrammar (.rule r) {} ⟨p, a.text ++ rest⟩ none := by
  refine not_matches_opening_of_word (a.not_matches_sign '#' rfl rfl) ?_ opens
  intro r word m isToken isWord reserved
  exact a.not_matches_word ends word [] isToken isWord (by simpa using reserved)

/-- A numeral is no name. -/
theorem not_matches_identifier {text : List Char} (numeral : isNumeral text = true) :
    Matches scriptGrammar (.rule .identifier) m ⟨p, text ++ rest⟩ none := by
  have noKeyword := (Atom.number text numeral).not_matches_word (r := .keyword)
    (m := ⟨m.look.enter false, .mute⟩) (p := p) ends "let"
    ["fn", "use", "if", "else", "while", "await", "true", "false", "null"] rfl rfl (fun _ => id)
  obtain ⟨whole, fraction, rfl, isWhole, -⟩ := exists_of_isNumeral numeral
  obtain ⟨x, more, rfl, digits⟩ := isDigits_iff.mp isWhole
  have noStart := isNameStart_eq_false_of_isDigit (digits x List.mem_cons_self)
  simp only [isNameStart, Bool.or_eq_false_iff, beq_eq_false_iff_ne] at noStart
  have noLetter : Matches scriptGrammar (.alt (.char Char.isAlpha) (.lit "_")) ⟨m.look, .mute⟩
      ⟨p, x :: more ++ fraction ++ rest⟩ none := by
    refine .altSecond (.noChar ?_) (not_matches_lit_of_head '_' rfl ?_)
    · simp [Cursor.char?, noStart.1]
    · rintro _ ⟨⟩
      exact noStart.2
  exact .noRule (by decide) (.seqSecond (.notAhead noKeyword) (.seqFirst noLetter))

/-- An atom is an operand of its own. -/
theorem matches_primary (p : Position) :
    ∃ p' t, Matches scriptGrammar (.rule .primary) {} ⟨p, a.text ++ rest⟩
        (some (⟨p', rest⟩, [t])) ∧
      ∀ depth ≤ nestingLimit, ∃ e, Expr.ofTree t depth = .ok e ∧ e.rootOp? = none ∧
        e.bare = a.expr := by
  have within : ∀ {depth : Nat}, depth ≤ nestingLimit → ¬ nestingLimit < depth :=
    fun below => Nat.not_lt.mpr below
  cases isAtom : a with
  | name word named =>
      have noString : Matches scriptGrammar (.rule .string) {} ⟨p, a.text ++ rest⟩ none :=
        .noRule (by decide) (.seqFirst (a.not_matches_sign '"' rfl rfl))
      have noBoolean : Matches scriptGrammar (.rule .boolean) {} ⟨p, a.text ++ rest⟩ none :=
        a.not_matches_word ends "true" ["false"] rfl rfl (by decide)
      have noNull : Matches scriptGrammar (.rule .nullLit) {} ⟨p, a.text ++ rest⟩ none :=
        a.not_matches_word ends "null" [] rfl rfl (by decide)
      have noList : Matches scriptGrammar (.rule .list) {} ⟨p, a.text ++ rest⟩ none :=
        .noRule (by decide) (.seqFirst (a.not_matches_sign '[' rfl rfl))
      have wordEnds : ∀ x ∈ rest.head?, isNameChar x = false := by
        intro x isFirst
        rw [ends x isFirst]
        rfl
      have identifier := matches_identifier named wordEnds {} p
      rw [ruleTrees_identifier] at identifier
      subst isAtom
      refine ⟨_, _, .silent rfl (.altSecond (not_matches_number named) (.altSecond noString
        (.altSecond noBoolean (.altSecond noNull (.altSecond noList (.altFirst identifier)))))), ?_⟩
      intro depth below
      exact ⟨_, by rw [Expr.ofTree, if_neg (within below)], rfl, rfl⟩
  | number text numeral =>
      obtain ⟨p', number⟩ := matches_number numeral ends p
      refine ⟨p', _, .silent rfl (.altFirst number), ?_⟩
      intro depth below
      have isNumber : numberOf? text = some (numberOf text) := if_pos numeral
      exact ⟨_, by rw [Expr.ofTree, if_neg (within below), isNumber], rfl, rfl⟩

/-- **An atom is an operand**, together with the gap after it, where neither a point nor a bracket
follows. -/
theorem matches_unary {next : List Char}
    (settled : ∀ p, ∃ p', skip scriptGrammar {} ⟨p, rest⟩ = ⟨p', next⟩)
    (noSuffix : ∀ x ∈ next.head?, x ≠ '.' ∧ x ≠ '(') (p : Position) :
    ∃ p' t, Matches scriptGrammar (.rule .unary) {} ⟨p, a.text ++ rest⟩
        (some (⟨p', next⟩, [t])) ∧
      ∀ depth ≤ nestingLimit, ∃ e, Expr.ofTree t depth = .ok e ∧ e.rootOp? = none ∧
        e.bare = a.expr := by
  obtain ⟨p₁, t, primary, built⟩ := a.matches_primary ends p
  obtain ⟨p₂, isSettled⟩ := settled p₁
  have noNeg : Matches scriptGrammar (.rule .opNeg) {} ⟨p, a.text ++ rest⟩ none :=
    .noRule (by decide) (a.not_matches_sign '-' rfl rfl)
  have noNot : Matches scriptGrammar (.rule .opNot) {} ⟨p, a.text ++ rest⟩ none :=
    .noRule (by decide) (.seqFirst (a.not_matches_sign '!' rfl rfl))
  have noAwait : Matches scriptGrammar (.rule .opAwait) {} ⟨p, a.text ++ rest⟩ none :=
    .noRule (by decide) (.seqFirst (.aheadNone
      (a.not_matches_word ends "await" [] rfl rfl (by decide))))
  obtain ⟨t', isMatch, same⟩ := matches_operand (a.skip_atom p rest)
    (.altSecond noNeg (.altSecond noNot noAwait)) primary isSettled noSuffix
  refine ⟨p₂, t', isMatch, ?_⟩
  intro depth below
  obtain ⟨e, isExpr, isLeaf, isAtom⟩ := built depth below
  exact ⟨e, (same depth below).trans isExpr, isLeaf, isAtom⟩

end

end Atom

end ScriptShell
