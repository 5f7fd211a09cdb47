import ScriptShell.Proofs.Grammar.Bound
import ScriptShell.Proofs.Syntax.Directives

/-! # What the tokens of scripts match

The rules of the grammar that skip no gaps, each with the lexemes that it reads: words, numbers,
quoted texts and load directives. Words are taken as a whole (`of_identifier`), and no name is a
keyword; both rest on what a rule did not match. -/

namespace ScriptShell

open Grammar

/-! ## The grammar is ranked -/

/-- The rules that may match nothing. -/
def Rule.isNullable : Rule → Bool
  | .endOfInput | .program | .stringInner => true
  | _ => false

/-- How many rules a rule may call one from the other before it has moved. -/
def Rule.rank : Rule → Nat
  | .program => 21
  | .statement => 20
  | .exprStmt => 19
  | .expression => 18
  | .orExpr => 17
  | .andExpr => 16
  | .cmpExpr => 15
  | .addExpr => 14
  | .mulExpr => 13
  | .unary => 12
  | .postfixExpr => 11
  | .primary => 10
  | .loadStmt | .useStmt | .fnDecl | .letStmt | .ifStmt | .elseClause | .whileStmt | .assignStmt
  | .opAwait => 4
  | .identifier => 3
  | .keyword | .kwLet | .kwFn | .kwUse | .kwIf | .kwElse | .kwWhile | .kwAwait | .boolean
  | .nullLit => 2
  | .string => 1
  | _ => 0

/-- No rule of the grammar of scripts reaches itself without moving. -/
def scriptRanked : Ranked scriptGrammar where
  nullable := Rule.isNullable
  rank := Rule.rank
  bound := 22
  rank_lt r := by cases r <;> decide
  empty r := by cases r <;> decide
  down r := by cases r <;> decide
  moves r := by cases r <;> decide

variable {m : Mode} {c c' : Cursor} {ts : List (ParseTree Rule)}

/-! ## Words -/

/-- One character of a name. -/
theorem of_identChar (isMatch : Matches scriptGrammar (.rule .identChar) m c (some (c', ts))) :
    ∃ x, isNameChar x = true ∧ c.rest = x :: c'.rest := by
  rcases (isMatch.of_silent rfl).of_alt with ⟨_, _, isAlphanum⟩ | ⟨_, isUnderscore⟩
  · obtain ⟨x, isAllowed, isRest⟩ := isAlphanum.of_char
    exact ⟨x, by simp [isNameChar, isAllowed], isRest⟩
  · exact ⟨'_', rfl, isUnderscore.of_text.1⟩

/-- Where none matches, no character of a name comes next. -/
theorem none_of_identChar (noMatch : Matches scriptGrammar (.rule .identChar) m c none) :
    ∀ x ∈ c.rest.head?, isNameChar x = false := by
  intro x isFirst
  rcases (noMatch.of_silent rfl).of_alt with ⟨_, isSome, _⟩ | ⟨notAlphanum, notUnderscore⟩
  · cases isSome
  · obtain ⟨rest, isRest⟩ := List.head?_eq_some_iff.mp isFirst
    have notUnderscore : x ≠ '_' := by
      rintro rfl
      exact notUnderscore.none_of_text rest isRest
    simp [isNameChar, notAlphanum.none_of_char x isFirst, notUnderscore]

/-- A text starts with a word, and not with a longer one. -/
def StartsWord (word text : List Char) : Prop :=
  ∃ rest, text = word ++ rest ∧ ∀ x ∈ rest.head?, isNameChar x = false

/-- A name that goes on as far as possible is a whole word. -/
theorem startsWord_takeWhile (x : Char) (rest : List Char) :
    StartsWord (x :: rest.takeWhile isNameChar) (x :: rest) := by
  refine ⟨rest.dropWhile isNameChar, ?_, fun y isFirst => ?_⟩
  · rw [List.cons_append, List.takeWhile_append_dropWhile]
  · exact Bool.eq_false_iff.mpr fun isName => by
      have := List.head?_dropWhile_not isNameChar rest
      simp [Option.mem_def.mp isFirst, isName] at this

/-- A word of the grammar is a whole word. -/
theorem of_word {text : String} (tight : m.texture ≠ .loose)
    (isMatch : Matches scriptGrammar (Rule.word text) m c (some (c', ts))) :
    c.rest = text.toList ++ c'.rest ∧ ∀ x ∈ c'.rest.head?, isNameChar x = false := by
  obtain ⟨c₁, _, _, letters, ends, -⟩ := isMatch.of_seq
  obtain ⟨isSame, -, noMore⟩ := ends.of_notAhead
  rw [skip_eq_self tight] at isSame noMore
  subst isSame
  exact ⟨letters.of_text.1, none_of_identChar noMore⟩

/-- Where no keyword is matched, the next word is not `use`. -/
theorem not_startsWord_of_keyword (noMatch : Matches scriptGrammar (.rule .keyword) m c none) :
    ¬StartsWord useWord c.rest := by
  rintro ⟨rest, isRest, ends⟩
  cases noMatch with
  | silent isSilent => cases isSilent
  | noRule _ inner =>
      cases inner with
      -- Either no keyword's letters come next, or the letters of one do and the word goes on.
      | seqFirst noLetters =>
          have noUse := noLetters.none_of_oneOf (.lit "use") (by simp)
          exact noUse.none_of_text rest isRest
      | @seqSecond _ _ _ _ c₁ _ letters noEnd =>
          obtain ⟨q, member, letters⟩ := letters.of_oneOf
          obtain ⟨word, isKeyword, rfl⟩ := List.mem_map.mp (show q ∈ List.map Pattern.lit
            ["let", "fn", "use", "if", "else", "while", "await", "true", "false",
              "null"] from member)
          have whole := letters.of_text.1
          rw [isRest] at whole
          -- Of the keywords, only `use` starts with its first letter.
          have only : ∀ word ∈ ["let", "fn", "use", "if", "else", "while", "await", "true", "false",
              "null"], word = "use" ∨
                word.toList.head?.isSome = true ∧ word.toList.head? ≠ some 'u' := by
            decide
          rcases only word isKeyword with rfl | ⟨isSome, other⟩
          · have isAfter : rest = c₁.rest := List.append_cancel_left whole
            cases noEnd with
            | notAheadNone more =>
                obtain ⟨x, isName, isFirst⟩ := of_identChar more
                have isFirst : c₁.rest = x :: _ := isFirst
                have noName := ends x (by simp [isAfter, isFirst])
                rw [isName] at noName
                cases noName
          · have first := congrArg List.head? whole
            rw [List.head?_append, List.head?_append, Option.or_of_isSome isSome] at first
            exact other first.symm

/-- A name is a whole word, and it is not `use`. -/
theorem of_identifier (isMatch : Matches scriptGrammar (.rule .identifier) m c (some (c', ts))) :
    ∃ x rest, c.rest = x :: rest ∧ isNameStart x = true ∧ c'.rest = rest.dropWhile isNameChar ∧
      c.textTo c' = x :: rest.takeWhile isNameChar ∧ x :: rest.takeWhile isNameChar ≠ useWord := by
  obtain ⟨_, -, inner⟩ := isMatch.of_token rfl
  obtain ⟨c₁, _, _, noKeyword, named, -⟩ := inner.of_seq
  obtain ⟨isSame, -, noKeyword⟩ := noKeyword.of_notAhead
  subst isSame
  obtain ⟨c₂, _, _, start, run, -⟩ := named.of_seq
  have isStart : ∃ x, isNameStart x = true ∧ c₁.rest = x :: c₂.rest := by
    rcases start.of_alt with ⟨_, _, isAlpha⟩ | ⟨_, isUnderscore⟩
    · obtain ⟨x, isAllowed, isRest⟩ := isAlpha.of_char
      exact ⟨x, by simp [isNameStart, isAllowed], isRest⟩
    · exact ⟨'_', rfl, isUnderscore.of_text.1⟩
  obtain ⟨x, isStart, isRest⟩ := isStart
  obtain ⟨whole, isAfter⟩ := run.of_star_char (by simp) of_identChar none_of_identChar
  rw [skip_eq_self (by simp)] at whole isAfter
  refine ⟨x, c₂.rest, isRest, isStart, isAfter, ?_, ?_⟩
  · apply Cursor.textTo_of_append
    rw [isRest, List.cons_append, ← whole]
  -- The look for keywords before the name failed, so the word is none of them.
  · intro isUse
    apply not_startsWord_of_keyword noKeyword
    rw [isRest, ← isUse]
    exact startsWord_takeWhile x c₂.rest

/-! ## Quoted texts -/

/-- One character of a quoted text, or one with a backslash before it. -/
theorem of_stringUnit (tight : m.texture ≠ .loose)
    (isMatch : Matches scriptGrammar (.alt
      (.seq (.notAhead (.alt (.lit "\"") (.lit "\\"))) (.char fun _ => true))
      (.seq (.lit "\\") (.char fun _ => true))) m c (some (c', ts))) :
    (∃ x, x ≠ '"' ∧ x ≠ '\\' ∧ c.rest = x :: c'.rest) ∨ ∃ x, c.rest = '\\' :: x :: c'.rest := by
  have noSkip : ∀ c, skip scriptGrammar m c = c := skip_eq_self tight
  rcases isMatch.of_alt with ⟨_, _, plain⟩ | ⟨_, escaped⟩
  · obtain ⟨c₁, _, _, notEnd, any, -⟩ := plain.of_seq
    obtain ⟨rfl, -, notEnd⟩ := notEnd.of_notAhead
    obtain ⟨x, -, isRest⟩ := any.of_char
    rw [noSkip] at isRest
    rcases notEnd.of_alt with ⟨_, isSome, _⟩ | ⟨notQuote, notBackslash⟩
    · cases isSome
    · refine .inl ⟨x, ?_, ?_, isRest⟩
      · rintro rfl
        exact notQuote.none_of_text c'.rest isRest
      · rintro rfl
        exact notBackslash.none_of_text c'.rest isRest
  · obtain ⟨c₁, _, _, backslash, any, -⟩ := escaped.of_seq
    obtain ⟨x, -, isRest⟩ := any.of_char
    rw [noSkip] at isRest
    exact .inr ⟨x, by rw [backslash.of_text.1, isRest]; rfl⟩

/-- Characters of a quoted text up to its closing quote. -/
theorem of_stringUnits {unit : Pattern Rule} (tight : m.texture ≠ .loose)
    (one : ∀ {c c' ts}, Matches scriptGrammar unit m c (some (c', ts)) →
      (∃ x, x ≠ '"' ∧ x ≠ '\\' ∧ c.rest = x :: c'.rest) ∨ ∃ x, c.rest = '\\' :: x :: c'.rest)
    (isMatch : Matches scriptGrammar (.star unit) m c (some (c', ts))) {after : List Char}
    (closed : c'.rest = '"' :: after) :
    ∃ raw, c.rest = raw ++ c'.rest ∧ readQuoted c.rest = some (raw, after) := by
  have noSkip : ∀ c, skip scriptGrammar m c = c := skip_eq_self tight
  -- One character more in front of a text that is read up to its closing quote.
  have longer : ∀ {c c₁ c' : Cursor} {ts raw}, Matches scriptGrammar unit m c (some (c₁, ts)) →
      c₁.rest = raw ++ c'.rest → readQuoted c₁.rest = some (raw, after) →
      ∃ raw, c.rest = raw ++ c'.rest ∧ readQuoted c.rest = some (raw, after) := by
    intro c c₁ c' ts raw first isRest read
    rcases one first with ⟨x, notQuote, notBackslash, isFirst⟩ | ⟨x, isFirst⟩
    · refine ⟨x :: raw, by rw [isFirst, isRest]; rfl, ?_⟩
      rw [isFirst]
      simp [readQuoted, notBackslash, read]
    · refine ⟨'\\' :: x :: raw, by rw [isFirst, isRest]; rfl, ?_⟩
      rw [isFirst]
      simp [readQuoted, read]
  have none : ∀ {c : Cursor}, c.rest = '"' :: after →
      c.rest = [] ++ c.rest ∧ readQuoted c.rest = some ([], after) :=
    fun {c} closed => ⟨rfl, by rw [closed, readQuoted]⟩
  generalize isPattern : Pattern.star unit = star at isMatch
  generalize isFound : some (c', ts) = found at isMatch
  -- Turn by turn; the text is put together from its end, where the quote closes it.
  induction isMatch generalizing c' ts with
  | starNone =>
      cases isPattern
      cases isFound
      exact ⟨[], none closed⟩
  | starOnce first =>
      cases isPattern
      cases isFound
      exact longer first (none closed).1 (none closed).2
  | starAgain first _ _ _ _ again =>
      cases isPattern
      cases isFound
      obtain ⟨raw, isRest, read⟩ := again tight one closed noSkip longer rfl rfl
      rw [noSkip] at isRest read
      exact longer first isRest read
  | _ => cases isPattern

/-- A quoted text, up to its closing quote. -/
theorem of_string (isMatch : Matches scriptGrammar (.rule .string) m c (some (c', ts))) :
    ∃ text raw parts, c.rest = '"' :: text ∧ readQuoted text = some (raw, c'.rest) ∧
      ts = ruleTrees .solid .string { m with texture := .solid } c c' parts ∧
      (m.look = .none → ∃ span, parts = [.token .stringInner span raw]) := by
  obtain ⟨parts, isTrees, inner⟩ := isMatch.of_solid rfl
  obtain ⟨c₁, _, _, opening, rest, isParts⟩ := inner.of_seq
  obtain ⟨c₂, _, _, content, closing, rfl⟩ := rest.of_seq
  obtain ⟨_, isToken, content⟩ := content.of_token rfl
  rw [skip_eq_self (by simp)] at closing content isToken
  have closed : c₂.rest = '"' :: c'.rest := closing.of_text.1
  obtain ⟨raw, isRaw, read⟩ := of_stringUnits (by simp) (of_stringUnit (by simp)) content closed
  refine ⟨c₁.rest, raw, parts, opening.of_text.1, read, isTrees, fun noLook => ?_⟩
  rw [isParts, isToken, opening.of_text.2, closing.of_text.2, ruleTrees, if_pos (by simp [noLook]),
    makeTree, Cursor.textTo_of_append isRaw]
  exact ⟨_, rfl⟩

/-! ## Numbers -/

/-- Digits are one or more. -/
theorem isDigits_iff {text : List Char} : isDigits text = true ↔
    ∃ x more, text = x :: more ∧ ∀ c ∈ x :: more, c.isDigit = true := by
  cases text with
  | nil => simp [isDigits]
  | cons x more =>
      simp only [isDigits, List.isEmpty_cons, Bool.not_false, Bool.true_and, List.all_eq_true]
      constructor
      · intro all
        exact ⟨x, more, rfl, all⟩
      · rintro ⟨_, _, same, all⟩
        rwa [same]

/-- The digits of a numeral, and what comes after them. -/
theorem exists_of_isNumeral {text : List Char} (numeral : isNumeral text = true) :
    ∃ whole fraction, text = whole ++ fraction ∧ isDigits whole = true ∧
      (fraction = [] ∨ ∃ decimals, fraction = '.' :: decimals ∧ isDigits decimals = true) := by
  obtain ⟨whole, others⟩ := Bool.and_eq_true_iff.mp numeral
  refine ⟨_, _, (List.takeWhile_append_dropWhile (p := Char.isDigit)).symm, whole, ?_⟩
  split at others
  · exact .inl ‹_›
  · rename_i x decimals isFraction
    obtain ⟨isPoint, isDecimals⟩ := Bool.and_eq_true_iff.mp others
    exact .inr ⟨decimals, by rw [isFraction, beq_iff_eq.mp isPoint], isDecimals⟩

/-- Digits, and maybe a point and more digits, are a numeral. -/
theorem isNumeral_append {whole fraction : List Char} (isWhole : isDigits whole = true)
    (isFraction : fraction = [] ∨ ∃ decimals, fraction = '.' :: decimals ∧
      isDigits decimals = true) : isNumeral (whole ++ fraction) = true := by
  obtain ⟨_, _, rfl, digits⟩ := isDigits_iff.mp isWhole
  have stops : fraction.takeWhile Char.isDigit = [] ∧
      fraction.dropWhile Char.isDigit = fraction := by
    rcases isFraction with rfl | ⟨decimals, rfl, -⟩ <;> exact ⟨rfl, rfl⟩
  rw [isNumeral, List.takeWhile_append_of_pos digits, List.dropWhile_append_of_pos digits, stops.1,
    stops.2, List.append_nil, isWhole, Bool.true_and]
  rcases isFraction with rfl | ⟨decimals, rfl, isDecimals⟩
  · rfl
  · simpa using isDecimals

/-- Digits that come next. -/
theorem of_digits (tight : m.texture ≠ .loose)
    (isMatch : Matches scriptGrammar (.plus (.char Char.isDigit)) m c (some (c', ts))) :
    ∃ digits, c.rest = digits ++ c'.rest ∧ isDigits digits = true := by
  obtain ⟨c₁, _, _, first, more, -⟩ := isMatch.of_seq
  obtain ⟨x, isDigit, isRest⟩ := first.of_char
  rw [skip_eq_self tight] at more
  obtain ⟨whole, -⟩ := more.of_star_char tight Matches.of_char Matches.none_of_char
  refine ⟨x :: c₁.rest.takeWhile Char.isDigit, ?_, isDigits_iff.mpr ⟨x, _, rfl, ?_⟩⟩
  · rw [isRest, List.cons_append, ← whole]
  · exact List.forall_mem_cons.mpr ⟨isDigit, List.all_eq_true.mp List.all_takeWhile⟩

/-- What the pattern of numbers reads is a numeral. -/
theorem of_numberPattern (tight : m.texture ≠ .loose)
    (isMatch : Matches scriptGrammar (Rule.pattern .number) m c (some (c', ts))) :
    ∃ text, c.rest = text ++ c'.rest ∧ isNumeral text = true := by
  obtain ⟨c₁, _, _, whole, fraction, -⟩ := isMatch.of_seq
  rw [skip_eq_self tight] at fraction
  obtain ⟨digits, isRest, isWhole⟩ := of_digits tight whole
  cases fraction with
  | optNone =>
      have numeral := isNumeral_append isWhole (.inl rfl)
      rw [List.append_nil] at numeral
      exact ⟨digits, isRest, numeral⟩
  | opt fraction =>
      obtain ⟨c₂, _, _, point, decimals, -⟩ := fraction.of_seq
      rw [skip_eq_self tight] at decimals
      obtain ⟨more, isMore, isDecimals⟩ := of_digits tight decimals
      have isPoint : c₁.rest = '.' :: c₂.rest := point.of_text.1
      refine ⟨digits ++ '.' :: more, ?_, isNumeral_append isWhole (.inr ⟨more, rfl, isDecimals⟩)⟩
      rw [isRest, isPoint, isMore, List.append_assoc]
      rfl

/-- A number is made of digits and a point. -/
theorem of_number (isMatch : Matches scriptGrammar (.rule .number) m c (some (c', ts))) :
    ∃ text, c.rest = text ++ c'.rest ∧ ∀ x ∈ text, isSign x = true ∧ x ≠ '/' := by
  obtain ⟨_, -, inner⟩ := isMatch.of_token rfl
  obtain ⟨_, isRest, numeral⟩ := of_numberPattern (by simp) inner
  obtain ⟨whole, fraction, rfl, isWhole, isFraction⟩ := exists_of_isNumeral numeral
  have sign : ∀ {digits : List Char}, isDigits digits = true →
      ∀ x ∈ digits, isSign x = true ∧ x ≠ '/' := by
    intro digits isDigits x member
    obtain ⟨_, _, rfl, all⟩ := isDigits_iff.mp isDigits
    refine ⟨by simp [isSign, all x member], ?_⟩
    rintro rfl
    cases all _ member
  refine ⟨_, isRest, List.forall_mem_append.mpr ⟨sign isWhole, ?_⟩⟩
  rcases isFraction with rfl | ⟨decimals, rfl, isDecimals⟩
  · simp
  · exact List.forall_mem_cons.mpr ⟨⟨by decide, by decide⟩, sign isDecimals⟩

/-! ## Load directives -/

/-- One character of a bare target. -/
theorem of_targetChar (isMatch : Matches scriptGrammar
      (.oneOf (.char Char.isAlphanum) [.lit "_", .lit ".", .lit "/", .lit "-"]) m c
      (some (c', ts))) : ∃ x, isTargetChar x = true ∧ c.rest = x :: c'.rest := by
  obtain ⟨q, member, isMatch⟩ := isMatch.of_oneOf
  simp only [List.mem_cons, List.not_mem_nil, or_false] at member
  rcases member with rfl | rfl | rfl | rfl | rfl
  · obtain ⟨x, isAlphanum, isRest⟩ := isMatch.of_char
    exact ⟨x, by simp [isTargetChar, isAlphanum], isRest⟩
  · exact ⟨'_', by decide, isMatch.of_text.1⟩
  · exact ⟨'.', by decide, isMatch.of_text.1⟩
  · exact ⟨'/', by decide, isMatch.of_text.1⟩
  · exact ⟨'-', by decide, isMatch.of_text.1⟩

/-- Where none matches, no character of a target comes next. -/
theorem none_of_targetChar (noMatch : Matches scriptGrammar
      (.oneOf (.char Char.isAlphanum) [.lit "_", .lit ".", .lit "/", .lit "-"]) m c none) :
    ∀ x ∈ c.rest.head?, isTargetChar x = false := by
  intro x isFirst
  obtain ⟨rest, isRest⟩ := List.head?_eq_some_iff.mp isFirst
  have none := noMatch.none_of_oneOf
  simp only [List.mem_cons, List.not_mem_nil, or_false, forall_eq_or_imp, forall_eq] at none
  obtain ⟨notAlphanum, notUnderscore, notPoint, notSlash, notDash⟩ := none
  have other : x ≠ '_' ∧ x ≠ '.' ∧ x ≠ '/' ∧ x ≠ '-' := by
    refine ⟨?_, ?_, ?_, ?_⟩ <;> rintro rfl
    · exact notUnderscore.none_of_text rest isRest
    · exact notPoint.none_of_text rest isRest
    · exact notSlash.none_of_text rest isRest
    · exact notDash.none_of_text rest isRest
  simp [isTargetChar, notAlphanum.none_of_char x isFirst, other]

/-- One space or tab. -/
theorem of_spaceOrTab (isMatch : Matches scriptGrammar (.alt (.lit " ") (.lit "\t")) m c
      (some (c', ts))) : ∃ x, isSpaceOrTab x = true ∧ c.rest = x :: c'.rest := by
  rcases isMatch.of_alt with ⟨_, _, isSpace⟩ | ⟨_, isTab⟩
  · exact ⟨' ', rfl, isSpace.of_text.1⟩
  · exact ⟨'\t', rfl, isTab.of_text.1⟩

/-- Where none matches, no space or tab comes next. -/
theorem none_of_spaceOrTab
    (noMatch : Matches scriptGrammar (.alt (.lit " ") (.lit "\t")) m c none) :
    ∀ x ∈ c.rest.head?, isSpaceOrTab x = false := by
  intro x isFirst
  obtain ⟨rest, isRest⟩ := List.head?_eq_some_iff.mp isFirst
  rcases noMatch.of_alt with ⟨_, isSome, _⟩ | ⟨notSpace, notTab⟩
  · cases isSome
  · have other : x ≠ ' ' ∧ x ≠ '\t' := by
      refine ⟨?_, ?_⟩ <;> rintro rfl
      · exact notSpace.none_of_text rest isRest
      · exact notTab.none_of_text rest isRest
    simp [isSpaceOrTab, other]

/-- Blanks before a target, all that come next. -/
theorem of_targetGap (tight : m.texture ≠ .loose)
    (isMatch : Matches scriptGrammar (.plus (.alt (.lit " ") (.lit "\t"))) m c (some (c', ts))) :
    ∃ gap, c.rest = gap ++ c'.rest ∧ gap ≠ [] ∧ ∀ x ∈ gap, isSpaceOrTab x = true := by
  obtain ⟨c₁, _, _, first, more, -⟩ := isMatch.of_seq
  obtain ⟨x, isBlank, isRest⟩ := of_spaceOrTab first
  rw [skip_eq_self tight] at more
  obtain ⟨whole, -⟩ := more.of_star_char tight of_spaceOrTab none_of_spaceOrTab
  refine ⟨x :: c₁.rest.takeWhile isSpaceOrTab, ?_, List.cons_ne_nil _ _, fun y member => ?_⟩
  · rw [isRest, List.cons_append, ← whole]
  · rcases List.mem_cons.mp member with rfl | member
    · exact isBlank
    · exact List.all_eq_true.mp List.all_takeWhile y member

/-- A target without quotes, all characters of one that come next. -/
theorem of_bareTarget (isMatch : Matches scriptGrammar (.rule .bareTarget) m c (some (c', ts))) :
    ∃ x rest parts, c.rest = x :: rest ∧ isTargetChar x = true ∧
      c'.rest = rest.dropWhile isTargetChar ∧ ts = ruleTrees .token .bareTarget m c c' parts ∧
      c.textTo c' = x :: rest.takeWhile isTargetChar := by
  obtain ⟨parts, isTrees, inner⟩ := isMatch.of_token rfl
  obtain ⟨c₁, _, _, first, more, -⟩ := inner.of_seq
  obtain ⟨x, isTarget, isRest⟩ := of_targetChar first
  rw [skip_eq_self (by simp)] at more
  obtain ⟨whole, isAfter⟩ := more.of_star_char (by simp) of_targetChar none_of_targetChar
  refine ⟨x, c₁.rest, parts, isRest, isTarget, isAfter, isTrees, ?_⟩
  apply Cursor.textTo_of_append
  rw [isRest, List.cons_append, ← whole]

/-- A load directive reads as one lexeme, with the target of its tree. -/
theorem of_loadStmt (isMatch : Matches scriptGrammar (.rule .loadStmt) {} c (some (c', ts))) :
    ∃ l, Reads c.rest [l] c'.rest ∧
      [l].filterMap Lexeme.directive? = treeDirectivesAll ts := by
  obtain ⟨parts, isTrees, inner⟩ := isMatch.of_solid rfl
  obtain ⟨c₁, _, _, mark, rest, isParts⟩ := inner.of_seq
  obtain ⟨c₂, _, trees, blanks, target, rfl⟩ := rest.of_seq
  rw [skip_eq_self (by simp)] at blanks target
  obtain ⟨gap, isGap, someGap, allBlank⟩ := of_targetGap (by simp) blanks
  have isMark : c.rest = loadMark ++ (gap ++ c₂.rest) := by
    rw [mark.of_text.1, isGap]
    rfl
  -- The mark and the blanks leave no trees.
  have onlyTarget : parts = trees := by
    rw [isParts, mark.of_text.2, blanks.trees_eq_nil (by decide)]
    rfl
  rw [isTrees, onlyTarget]
  rcases target.of_alt with ⟨_, _, quoted⟩ | ⟨_, bare⟩
  · obtain ⟨text, raw, inside, isText, read, isTree, isInner⟩ := of_string quoted
    obtain ⟨span, rfl⟩ := isInner rfl
    rw [isMark, isText, isTree]
    exact ⟨_, reads_loadQuoted someGap allBlank read, rfl⟩
  · obtain ⟨x, rest, inside, isRest, isTarget, isAfter, isTree, isText⟩ := of_bareTarget bare
    rw [isMark, isRest, isAfter, isTree, ruleTrees, ruleTrees, if_pos (by decide),
      if_pos (by decide), makeTree, makeTree, if_pos rfl, isText]
    exact ⟨_, reads_loadBare someGap allBlank isTarget, rfl⟩

end ScriptShell
