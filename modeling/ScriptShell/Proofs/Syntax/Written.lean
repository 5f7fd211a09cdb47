import ScriptShell.Proofs.Reference.Scan
import ScriptShell.Proofs.Syntax.Statements

/-! # Texts that rules match

What is written as a name, a quoted text, a load directive or an import is matched as one, whatever
follows it: **`matches_identifier`**, **`matches_quoted`**, **`matches_loadStatement`** and
**`matches_useStatement`**. A name is a word that is no keyword. -/

namespace ScriptShell

open Grammar

/-! ## Literal texts and runs of characters -/

section

variable {ρ : Type} {g : Grammar ρ} {m : Mode} {p : Position} {rest : List Char}

/-- A literal matches where it stands. -/
theorem matches_lit (text : String) (rest : List Char) :
    Matches g (.lit text) m ⟨p, text.toList ++ rest⟩
      (some (⟨p.advanceAll text.toList, rest⟩, [])) := by
  refine .text ?_
  rw [Cursor.text?, Text.dropLead?_eq_some_iff.mpr rfl]
  rfl

/-- A literal does not match where it does not stand. -/
theorem not_matches_lit {text : String} (other : ¬ text.toList <+: rest) :
    Matches g (.lit text) m ⟨p, rest⟩ none := by
  refine .noText ?_
  rw [Cursor.text?, Option.map_eq_none_iff, Option.eq_none_iff_forall_ne_some]
  intro after dropped
  rw [Text.dropLead?_eq_some_iff] at dropped
  exact other ⟨after, dropped.symm⟩

/-- A text that starts with another character does not come next. -/
theorem not_matches_lit_of_head {text : String} (x : Char) {more : List Char}
    (isText : text.toList = x :: more) (other : ∀ y ∈ rest.head?, y ≠ x) :
    Matches g (.lit text) m ⟨p, rest⟩ none := by
  refine not_matches_lit ?_
  rw [isText]
  rintro ⟨after, rfl⟩
  exact other x rfl rfl

section

variable {r : ρ} {c c' : Cursor} {parts : List (ParseTree ρ)}

/-- A phrase matches where its pattern does. -/
theorem matches_phrase (isPhrase : g.kind r = .phrase)
    (inner : Matches g (g.pattern r) m c (some (c', parts))) :
    Matches g (.rule r) m c (some (c', ruleTrees .phrase r m c c' parts)) := by
  have isMatch := @Matches.rule ρ g r m c c' parts (by simp [isPhrase])
  rw [isPhrase] at isMatch
  exact isMatch inner

/-- A token matches where its pattern does. -/
theorem matches_token (isToken : g.kind r = .token)
    (inner : Matches g (g.pattern r) { m with texture := .mute } c (some (c', parts))) :
    Matches g (.rule r) m c (some (c', ruleTrees .token r m c c' parts)) := by
  have isMatch := @Matches.rule ρ g r m c c' parts (by simp [isToken])
  rw [isToken] at isMatch
  exact isMatch inner

/-- A solid phrase matches where its pattern does. -/
theorem matches_solid (isSolid : g.kind r = .solid)
    (inner : Matches g (g.pattern r) { m with texture := .solid } c (some (c', parts))) :
    Matches g (.rule r) m c
      (some (c', ruleTrees .solid r { m with texture := .solid } c c' parts)) := by
  have isMatch := @Matches.rule ρ g r m c c' parts (by simp [isSolid])
  rw [isSolid] at isMatch
  exact isMatch inner

end

/-- Of several texts the first one that comes next is taken. -/
theorem matches_oneOf_lit (g : Grammar ρ) (m : Mode) (p : Position) (rest : List Char)
    (first : String) (more : List String) :
    Matches g (.oneOf (.lit first) (more.map .lit)) m ⟨p, rest⟩ none ∨
      ∃ text ∈ first :: more, ∃ after, rest = text.toList ++ after ∧
        Matches g (.oneOf (.lit first) (more.map .lit)) m ⟨p, rest⟩
          (some (⟨p.advanceAll text.toList, after⟩, [])) := by
  induction more generalizing first with
  | nil =>
      by_cases isNext : first.toList <+: rest
      · obtain ⟨after, rfl⟩ := isNext
        exact .inr ⟨first, List.mem_cons_self, after, rfl, matches_lit first after⟩
      · exact .inl (not_matches_lit isNext)
  | cons second more ih =>
      by_cases isNext : first.toList <+: rest
      · obtain ⟨after, rfl⟩ := isNext
        exact .inr ⟨first, List.mem_cons_self, after, rfl, .altFirst (matches_lit first after)⟩
      · rcases ih second with none | ⟨text, member, after, isRest, isMatch⟩
        · exact .inl (.altSecond (not_matches_lit isNext) none)
        · exact .inr ⟨text, List.mem_cons_of_mem _ member, after, isRest,
            .altSecond (not_matches_lit isNext) isMatch⟩

/-- Where gaps are not skipped, a repetition goes on as long as characters of a class come next. -/
theorem matches_star_chars {q : Pattern ρ} {allowed : Char → Prop} (tight : m.texture ≠ .loose)
    (one : ∀ p x rest, allowed x → Matches g q m ⟨p, x :: rest⟩ (some (⟨p.advance x, rest⟩, [])))
    (ends : ∀ p, Matches g q m ⟨p, rest⟩ none) (word : List Char) (all : ∀ x ∈ word, allowed x)
    (p : Position) :
    Matches g (.star q) m ⟨p, word ++ rest⟩ (some (⟨p.advanceAll word, rest⟩, [])) := by
  have noSkip : ∀ c, skip g m c = c := skip_eq_self tight
  induction word generalizing p with
  | nil => exact .starNone (ends p)
  | cons x word ih =>
      have first := one p x (word ++ rest) (all x List.mem_cons_self)
      have others := ih (fun y member => all y (List.mem_cons_of_mem x member)) (p.advance x)
      -- Another turn is taken exactly when the word goes on.
      cases word with
      | nil => exact .starOnce first (by rw [noSkip]; exact ends _)
      | cons y word =>
          have next := one (p.advance x) y (word ++ rest) (all y (by simp))
          exact .starAgain first (by rw [noSkip]; exact next) (by rw [noSkip]; exact others)

end

/-! ## Names -/

/-- The words that are no names. -/
def reservedWords : List String :=
  ["let", "fn", "use", "if", "else", "while", "await", "true", "false", "null"]

/-- Names: words that are no keywords. -/
def isName : List Char → Bool
  | [] => false
  | x :: rest =>
    isNameStart x && rest.all isNameChar && !(reservedWords.map String.toList).contains (x :: rest)

variable {m : Mode} {p : Position} {name rest : List Char}

/-- Names: a first character, further ones, and no reserved word. -/
theorem isName_iff : isName name = true ↔ ∃ x word, name = x :: word ∧ isNameStart x = true ∧
    (∀ c ∈ word, isNameChar c = true) ∧ ∀ text ∈ reservedWords, text.toList ≠ name := by
  cases name with
  | nil => simp [isName]
  | cons x word =>
      simp only [isName, Bool.and_eq_true, Bool.not_eq_true', List.all_eq_true,
        ← Bool.not_eq_true, List.contains_iff_mem, List.mem_map, not_exists, not_and]
      constructor
      · rintro ⟨⟨starts, all⟩, notKeyword⟩
        exact ⟨x, word, rfl, starts, all, notKeyword⟩
      · rintro ⟨_, _, same, starts, all, notKeyword⟩
        cases same
        exact ⟨⟨starts, all⟩, notKeyword⟩

/-- A character of a name matches as one. -/
theorem matches_identChar {x : Char} (isChar : isNameChar x = true) (rest : List Char) :
    Matches scriptGrammar (.rule .identChar) m ⟨p, x :: rest⟩
      (some (⟨p.advance x, rest⟩, [])) := by
  refine .silent rfl ?_
  by_cases isAlphanum : x.isAlphanum = true
  · refine .altFirst (.char ?_)
    simp [Cursor.char?, isAlphanum]
  · have isUnderscore : x = '_' := by simpa [isNameChar, isAlphanum] using isChar
    subst isUnderscore
    exact .altSecond (.noChar rfl) (matches_lit "_" rest)

/-- A name ends where no character of a name follows. -/
theorem not_matches_identChar (ends : ∀ x ∈ rest.head?, isNameChar x = false) :
    Matches scriptGrammar (.rule .identChar) m ⟨p, rest⟩ none := by
  refine .silent rfl ?_
  cases rest with
  | nil => exact .altSecond (.noChar rfl) (.noText rfl)
  | cons x rest =>
      have noChar := ends x rfl
      simp only [isNameChar, Bool.or_eq_false_iff, beq_eq_false_iff_ne] at noChar
      refine .altSecond (.noChar ?_) (not_matches_lit ?_)
      · simp [Cursor.char?, noChar.1]
      · rintro ⟨after, whole⟩
        exact noChar.2 (List.cons.inj whole).1.symm

/-- Names have characters of names only. -/
theorem isNameChar_of_isName (named : isName name = true) : ∀ c ∈ name, isNameChar c = true := by
  obtain ⟨x, word, rfl, starts, all, -⟩ := isName_iff.mp named
  intro c member
  rcases List.mem_cons.mp member with rfl | member
  · exact isNameChar_of_isNameStart starts
  · exact all c member

/-- Name characters are none of the signs between words. -/
theorem ne_of_isNameChar {c d : Char} (isChar : isNameChar c = true)
    (notChar : isNameChar d = false) : c ≠ d := by
  rintro rfl
  exact absurd (notChar.symm.trans isChar) (by decide)

/-- Where a word comes next that is not reserved, a rule for reserved words matches nothing: the
word is none of them, and it is taken whole. -/
theorem not_matches_reserved {r : Rule} (first : String) (more : List String)
    (isToken : r.kind = .token) (isPattern : r.pattern =
      .seq (.oneOf (.lit first) (more.map .lit)) (.notAhead (.rule .identChar)))
    (reserved : ∀ text ∈ first :: more, text ∈ reservedWords)
    (chars : ∀ c ∈ name, isNameChar c = true) (free : ∀ text ∈ reservedWords, text.toList ≠ name)
    (ends : ∀ x ∈ rest.head?, isNameChar x = false) :
    Matches scriptGrammar (.rule r) m ⟨p, name ++ rest⟩ none := by
  have checked : (reservedWords.all fun text => text.toList.all isNameChar) = true := by decide
  have reservedChars : ∀ text ∈ reservedWords, ∀ c ∈ text.toList, isNameChar c = true :=
    fun text member => List.all_eq_true.mp (List.all_eq_true.mp checked text member)
  refine .noRule (by simp [scriptGrammar, isToken]) ?_
  show Matches scriptGrammar r.pattern (r.kind.inner (r.kind.outer m)) _ _
  rw [isToken, isPattern]
  rcases matches_oneOf_lit scriptGrammar { m with texture := .mute } p (name ++ rest) first more
    with none | ⟨text, member, after, whole, isMatch⟩
  · exact .seqFirst none
  · -- The letters of a reserved word come next, and the word goes on after them.
    obtain ⟨y, after', rfl, isChar⟩ : ∃ y after', after = y :: after' ∧ isNameChar y = true := by
      have isReserved := reserved text member
      rcases List.append_eq_append_iff.mp whole with
        ⟨tail, isText, isRest⟩ | ⟨tail, isName, isAfter⟩
      · cases tail with
        | nil => exact absurd (isText.trans (List.append_nil name)) (free text isReserved)
        | cons y tail =>
            have isChar := reservedChars text isReserved y (by simp [isText])
            have noChar := ends y (by simp [isRest])
            exact absurd (noChar.symm.trans isChar) (by decide)
      · cases tail with
        | nil => exact absurd (isName.trans (List.append_nil _)).symm (free text isReserved)
        | cons y tail => exact ⟨y, tail ++ rest, isAfter, chars y (by simp [isName])⟩
    exact .seqSecond isMatch (.notAheadNone (matches_identChar isChar after'))

/-- No keyword comes next where a word does that is none. -/
theorem not_matches_keyword (chars : ∀ c ∈ name, isNameChar c = true)
    (free : ∀ text ∈ reservedWords, text.toList ≠ name)
    (ends : ∀ x ∈ rest.head?, isNameChar x = false) :
    Matches scriptGrammar (.rule .keyword) m ⟨p, name ++ rest⟩ none :=
  not_matches_reserved "let" ["fn", "use", "if", "else", "while", "await", "true", "false", "null"]
    rfl rfl (fun _ => id) chars free ends

/-- A name is matched as a whole. -/
theorem matches_identifier (named : isName name = true)
    (ends : ∀ x ∈ rest.head?, isNameChar x = false) (m : Mode) (p : Position) :
    Matches scriptGrammar (.rule .identifier) m ⟨p, name ++ rest⟩
      (some (⟨p.advanceAll name, rest⟩, ruleTrees .token .identifier m ⟨p, name ++ rest⟩
        ⟨p.advanceAll name, rest⟩ [])) := by
  have chars := isNameChar_of_isName named
  obtain ⟨x, word, rfl, starts, all, free⟩ := isName_iff.mp named
  have noKeyword := not_matches_keyword (m := ⟨m.look.enter false, .mute⟩) (p := p) chars free ends
  have tight : Texture.mute ≠ .loose := by decide
  have first : Matches scriptGrammar (.alt (.char Char.isAlpha) (.lit "_")) ⟨m.look, .mute⟩
      ⟨p, x :: (word ++ rest)⟩ (some (⟨p.advance x, word ++ rest⟩, [])) := by
    by_cases isAlpha : x.isAlpha = true
    · refine .altFirst (.char ?_)
      simp [Cursor.char?, isAlpha]
    · have isUnderscore : x = '_' := by simpa [isNameStart, isAlpha] using starts
      subst isUnderscore
      exact .altSecond (.noChar rfl) (matches_lit "_" _)
  have others := matches_star_chars (m := ⟨m.look, .mute⟩) tight
    (fun p x rest isChar => matches_identChar isChar rest)
    (fun p => not_matches_identChar ends) word all (p.advance x)
  exact .rule (by decide) (.seq (.notAhead noKeyword) (.seq first others))

/-- A name where gaps are skipped leaves a token with its letters. -/
theorem ruleTrees_identifier (p : Position) (name rest : List Char) :
    ruleTrees .token Rule.identifier {} ⟨p, name ++ rest⟩ ⟨p.advanceAll name, rest⟩ [] =
      [.token .identifier (.between p (p.advanceAll name)) name] := by
  show [ParseTree.token Rule.identifier _ _] = _
  rw [Cursor.textTo_of_append rfl]

/-! ## Quoted texts -/

/-- Characters that stand for themselves between quotes. -/
def isPlain (c : Char) : Prop :=
  c ≠ '"' ∧ c ≠ '\\'

/-- Plain characters stand for themselves between quotes. -/
theorem readEscapes_of_plain {raw : List Char} (plain : ∀ c ∈ raw, isPlain c) :
    readEscapes raw = raw := by
  induction raw with
  | nil => rfl
  | cons c raw ih =>
      have notBackslash := (plain c List.mem_cons_self).2
      rw [readEscapes, ih fun d member => plain d (List.mem_cons_of_mem c member)] <;>
        simp [notBackslash]

/-- Plain characters are read up to the closing quote. -/
theorem readQuoted_of_plain {raw : List Char} (plain : ∀ c ∈ raw, isPlain c) (rest : List Char) :
    readQuoted (raw ++ '"' :: rest) = some (raw, rest) := by
  induction raw with
  | nil => rfl
  | cons c raw ih =>
      obtain ⟨notQuote, notBackslash⟩ := plain c List.mem_cons_self
      have others := ih fun d member => plain d (List.mem_cons_of_mem c member)
      simp [readQuoted, notBackslash, others]

/-- The text between quotes, up to the closing one. -/
theorem matches_stringInner {text raw after : List Char}
    (read : readQuoted text = some (raw, after)) (m : Mode) (p : Position) :
    Matches scriptGrammar (.rule .stringInner) m ⟨p, text⟩
      (some (⟨p.advanceAll raw, '"' :: after⟩, ruleTrees .token .stringInner m ⟨p, text⟩
        ⟨p.advanceAll raw, '"' :: after⟩ [])) := by
  refine .rule (by decide) ?_
  have isEnd : ∀ (x : Char) {p : Position} {rest : List Char}, x = '"' ∨ x = '\\' →
      Matches scriptGrammar (.notAhead (.alt (.lit "\"") (.lit "\\"))) ⟨m.look, .mute⟩
        ⟨p, x :: rest⟩ none := by
    rintro x p rest (rfl | rfl)
    · exact .notAheadNone (.altFirst (matches_lit "\"" rest))
    · exact .notAheadNone (.altSecond (.noText rfl) (matches_lit "\\" rest))
  have tight : Texture.mute ≠ .loose := by decide
  have settled : ∀ c, skip scriptGrammar ⟨m.look, .mute⟩ c = c := skip_eq_self tight
  fun_induction readQuoted text generalizing p raw with
  | case1 => cases read
  | case2 rest =>
      cases read
      exact .starNone (.altSecond (.seqFirst (isEnd '"' (.inl rfl))) (.seqFirst (.noText rfl)))
  | case3 => cases read
  | case4 x rest ih =>
      obtain ⟨⟨raw', _⟩, isRead, same⟩ := Option.map_eq_some_iff.mp read
      cases same
      have escaped : Matches scriptGrammar (.seq (.lit "\\") (.char fun _ => true))
          ⟨m.look, .mute⟩ ⟨p, '\\' :: x :: rest⟩
          (some (⟨(p.advance '\\').advance x, rest⟩, [])) :=
        .seq (matches_lit "\\" _) (.char rfl)
      exact .star_cons (.altSecond (.seqFirst (isEnd '\\' (.inr rfl))) escaped) (settled _)
        (ih isRead _)
  | case5 x rest notQuote notLast notEscape ih =>
      obtain ⟨⟨raw', _⟩, isRead, same⟩ := Option.map_eq_some_iff.mp read
      cases same
      have notBackslash := ne_backslash notLast notEscape
      have notEnd : Matches scriptGrammar (.alt (.lit "\"") (.lit "\\"))
          ⟨m.look.enter false, .mute⟩ ⟨p, x :: rest⟩ none :=
        .altSecond (not_matches_lit_of_head '"' rfl (by simpa using notQuote))
          (not_matches_lit_of_head '\\' rfl (by simpa using notBackslash))
      exact .star_cons (.altFirst (.seq (.notAhead notEnd) (.char rfl))) (settled _) (ih isRead _)

/-- A text between quotes is matched up to the closing one. -/
theorem matches_quoted {text raw after : List Char} (read : readQuoted text = some (raw, after))
    (m : Mode) (p : Position) : Matches scriptGrammar (.rule .string) m ⟨p, '"' :: text⟩
      (some (⟨((p.advance '"').advanceAll raw).advance '"', after⟩, if m.look = .none then
          [.phrase .string (.between p (((p.advance '"').advanceAll raw).advance '"'))
            [.token .stringInner (.between (p.advance '"') ((p.advance '"').advanceAll raw)) raw]]
        else [])) := by
  have content := matches_stringInner read ⟨m.look, .solid⟩ (p.advance '"')
  have whole : Matches scriptGrammar (.rule .string) m ⟨p, '"' :: text⟩ _ :=
    .rule (by decide) (.seq (matches_lit "\"" _) (.seq content (matches_lit "\"" after)))
  have solid : Texture.solid ≠ .mute := by decide
  by_cases taken : m.look = .none
  · rw [ruleTrees, if_pos ⟨taken, solid⟩, ruleTrees, if_pos ⟨taken, solid⟩, makeTree, makeTree,
      if_neg (by decide), if_pos rfl, Cursor.textTo_of_append (chars_readQuoted read)] at whole
    rw [if_pos taken]
    exact whole
  · rw [ruleTrees, if_neg fun both => taken both.1] at whole
    rw [if_neg taken]
    exact whole

/-- Plain characters between quotes match as a string. -/
theorem matches_string {raw : List Char} (plain : ∀ c ∈ raw, isPlain c) {m : Mode}
    (taken : m.look = .none) (p : Position) (rest : List Char) :
    ∃ p' span inner, Matches scriptGrammar (.rule .string) m ⟨p, '"' :: (raw ++ '"' :: rest)⟩
      (some (⟨p', rest⟩, [.phrase .string span [.token .stringInner inner raw]])) := by
  have whole := matches_quoted (readQuoted_of_plain plain rest) m p
  rw [if_pos taken] at whole
  exact ⟨_, _, _, whole⟩

/-! ## Statements -/

/-- A semicolon matches as a terminator, behind whatever gap. -/
theorem matches_terminator (p : Position) (rest : List Char) :
    Matches scriptGrammar (.rule .terminator) {} (skip scriptGrammar {} ⟨p, ';' :: rest⟩)
      (some (⟨p.advance ';', rest⟩, [.phrase .terminator (.between p (p.advance ';')) []])) := by
  rw [skip_other (by decide) (by decide)]
  exact matches_phrase rfl (matches_lit ";" rest)

/-- Where no semicolon follows, no statement is ended by one. -/
theorem not_matches_terminator (unended : ∀ x ∈ (afterGap rest).head?, x ≠ ';') (p : Position) :
    Matches scriptGrammar (.rule .terminator) {} (skip scriptGrammar {} ⟨p, rest⟩) none := by
  have noSemicolon : ¬ ";".toList <+: (skip scriptGrammar {} ⟨p, rest⟩).rest := by
    rw [rest_skip]
    rintro ⟨after, whole⟩
    exact unended ';' (by rw [← whole]; rfl) rfl
  exact .noRule (by decide) (not_matches_lit noSemicolon)

/-- An import, up to the end of the name. -/
theorem matches_use {q : Pattern Rule} (named : isName name = true)
    (ends : ∀ x ∈ rest.head?, isNameChar x = false)
    (p : Position) :
    ∃ p' t span, Matches scriptGrammar (.alt (.rule .loadStmt) (.alt (.rule .useStmt) q)) {}
        ⟨p, useWord ++ ' ' :: (name ++ rest)⟩ (some (⟨p', rest⟩, [t])) ∧
      t = .phrase .useStmt (.between p p') [.token .identifier span name] := by
  have starts : skip scriptGrammar {} ⟨p, useWord ++ ' ' :: (name ++ rest)⟩ =
      ⟨p, useWord ++ ' ' :: (name ++ rest)⟩ := skip_other (by decide) (by decide) p
  have space : ∀ p, skip scriptGrammar {} ⟨p, ' ' :: (name ++ rest)⟩ =
      ⟨p.advance ' ', name ++ rest⟩ := by
    intro p
    rw [skip_blank (by decide), ← skip_moved, Cursor.moved_start]
    obtain ⟨x, word, rfl, isStart, -, -⟩ := isName_iff.mp named
    exact skip_other (isBlank_eq_false_of_isNameStart isStart) (by rintro rfl; cases isStart) _
  have noLoad : Matches scriptGrammar (.rule .loadStmt) {}
      ⟨p, useWord ++ ' ' :: (name ++ rest)⟩ none :=
    .noRule (by decide) (.seqFirst (.noText rfl))
  have letters : ∀ m, Matches scriptGrammar (.lit "use") m ⟨p, useWord ++ ' ' :: (name ++ rest)⟩
      (some (⟨p.advanceAll useWord, ' ' :: (name ++ rest)⟩, [])) :=
    fun m => matches_lit "use" _
  -- The keyword is looked for, then its letters are taken, and the name after a gap.
  have atSpace : ∀ y ∈ (' ' :: (name ++ rest)).head?, isNameChar y = false := by
    rintro _ ⟨⟩
    rfl
  have looked : Matches scriptGrammar (.rule .kwUse) ⟨.positive, .loose⟩
      ⟨p, useWord ++ ' ' :: (name ++ rest)⟩ _ :=
    matches_token rfl (.seq (letters _) (.notAhead (not_matches_identChar atSpace)))
  have identifier := matches_identifier named ends {} ((p.advanceAll useWord).advance ' ')
  rw [ruleTrees_identifier, ← space] at identifier
  have parts : Matches scriptGrammar (Rule.pattern .useStmt) {}
      ⟨p, useWord ++ ' ' :: (name ++ rest)⟩ _ :=
    .seq (.ahead looked) (by rw [starts]; exact .seq (letters _) identifier)
  have use := matches_phrase (g := scriptGrammar) (r := .useStmt) rfl parts
  exact ⟨_, _, _, .altSecond noLoad (.altFirst use), rfl⟩

/-- **An import is one statement**, with the semicolon after it. -/
theorem matches_useStatement (named : isName name = true) (p : Position) (rest : List Char) :
    ∃ p' t span, Matches scriptGrammar (.rule .statement) {}
        ⟨p, useWord ++ ' ' :: (name ++ ';' :: rest)⟩ (some (⟨p', rest⟩, [t])) ∧
      Stmt.ofTree t 0 = .ok (.use (String.ofList name) span) := by
  have isEnd : ∀ x ∈ (';' :: rest).head?, isNameChar x = false := by
    rintro _ ⟨⟩
    rfl
  obtain ⟨p', t, span, use, rfl⟩ := matches_use named isEnd p
  exact ⟨_, _, _, matches_phrase rfl (.seq use (.opt (matches_terminator p' rest))), rfl⟩

/-- **An import without a semicolon is one statement**, with the gap after it. -/
theorem matches_useStatement_unended (named : isName name = true)
    (ends : ∀ x ∈ rest.head?, isNameChar x = false)
    (unended : ∀ x ∈ (afterGap rest).head?, x ≠ ';') (p : Position) :
    ∃ p' t span, Matches scriptGrammar (.rule .statement) {}
        ⟨p, useWord ++ ' ' :: (name ++ rest)⟩ (some (skip scriptGrammar {} ⟨p', rest⟩, [t])) ∧
      Stmt.ofTree t 0 = .ok (.use (String.ofList name) span) := by
  obtain ⟨p', t, span, use, rfl⟩ := matches_use named ends p
  exact ⟨p', _, _,
    matches_phrase rfl (.seq use (.optNone (not_matches_terminator unended p'))), rfl⟩

/-- **A load directive is one statement**, with the gap after it, where no semicolon follows. -/
theorem matches_loadStatement {raw : List Char} (plain : ∀ c ∈ raw, isPlain c) (p : Position)
    {rest : List Char} (unended : ∀ x ∈ (afterGap rest).head?, x ≠ ';') :
    ∃ p' t span, Matches scriptGrammar (.rule .statement) {}
        ⟨p, loadMark ++ ' ' :: '"' :: (raw ++ '"' :: rest)⟩
        (some (skip scriptGrammar {} ⟨p', rest⟩, [t])) ∧
      Stmt.ofTree t 0 = .ok (.load (String.ofList raw) span) := by
  obtain ⟨p', inner, span, target⟩ := matches_string plain (m := ⟨.none, .solid⟩) rfl
    ((p.advanceAll loadMark).advance ' ') rest
  have noSpace : Matches scriptGrammar (.alt (.lit " ") (.lit "\t")) ⟨.none, .solid⟩
      ⟨(p.advanceAll loadMark).advance ' ', '"' :: (raw ++ '"' :: rest)⟩ none :=
    .altSecond (.noText rfl) (.noText rfl)
  have blanks : Matches scriptGrammar (.plus (.alt (.lit " ") (.lit "\t"))) ⟨.none, .solid⟩
      ⟨p.advanceAll loadMark, ' ' :: '"' :: (raw ++ '"' :: rest)⟩ _ :=
    .seq (.altFirst (matches_lit " " _)) (.starNone noSpace)
  have load : Matches scriptGrammar (.rule .loadStmt) {}
      ⟨p, loadMark ++ ' ' :: '"' :: (raw ++ '"' :: rest)⟩ _ :=
    matches_solid rfl (.seq (matches_lit "#load" _) (.seq blanks (.altFirst target)))
  refine ⟨p', _, .between p p',
    matches_phrase rfl (.seq (.altFirst load) (.optNone (not_matches_terminator unended p'))), ?_⟩
  show Except.ok (Stmt.load (String.ofList (readEscapes raw)) _) = _
  rw [readEscapes_of_plain plain]

/-- Where neither the mark of a load nor a reserved word comes next, no statement does that one of
them opens. -/
theorem not_matches_opening_of_word {text : List Char} {r : Rule}
    (noMark : Matches scriptGrammar (.lit "#load") ⟨.none, .solid⟩ ⟨p, text⟩ none)
    (noWord : ∀ {kw : Rule} (word : String) (m : Mode), kw.kind = .token →
      kw.pattern = Rule.word word → word ∈ reservedWords →
      Matches scriptGrammar (.rule kw) m ⟨p, text⟩ none)
    (opens : r ∈ [Rule.loadStmt, .useStmt, .fnDecl, .letStmt, .ifStmt, .whileStmt]) :
    Matches scriptGrammar (.rule r) {} ⟨p, text⟩ none := by
  -- A statement that a keyword opens looks for it first.
  have opening : ∀ {r kw : Rule} (word : String) (parts : List (Pattern Rule)), r.kind = .phrase →
      r.pattern = Rule.opening kw word parts → kw.kind = .token → kw.pattern = Rule.word word →
      word ∈ reservedWords → Matches scriptGrammar (.rule r) {} ⟨p, text⟩ none := by
    intro r kw word parts isPhrase isPattern isToken isWord reserved
    refine .noRule (by simp [scriptGrammar, isPhrase]) ?_
    show Matches scriptGrammar r.pattern _ _ _
    rw [isPattern]
    cases parts <;> exact .seqFirst (.aheadNone (noWord word _ isToken isWord reserved))
  simp only [List.mem_cons, List.not_mem_nil, or_false] at opens
  rcases opens with rfl | rfl | rfl | rfl | rfl | rfl
  · exact .noRule (by decide) (.seqFirst noMark)
  · exact opening "use" _ rfl rfl rfl rfl (by decide)
  · exact opening "fn" _ rfl rfl rfl rfl (by decide)
  · exact opening "let" _ rfl rfl rfl rfl (by decide)
  · exact opening "if" _ rfl rfl rfl rfl (by decide)
  · exact opening "while" _ rfl rfl rfl rfl (by decide)

/-- **An expression up to the end is one statement**, where no statement of another kind comes next.
-/
theorem matches_exprStatement {text : List Char} {p p' : Position} {t : ParseTree Rule}
    (noOpening : ∀ r ∈ [Rule.loadStmt, .useStmt, .fnDecl, .letStmt, .ifStmt, .whileStmt],
      Matches scriptGrammar (.rule r) {} ⟨p, text⟩ none)
    (noAssign : Matches scriptGrammar (.rule .assignStmt) {} ⟨p, text⟩ none)
    (isRow : Matches scriptGrammar (.rule .orExpr) {} ⟨p, text⟩ (some (⟨p', []⟩, [t]))) :
    ∃ t', Matches scriptGrammar (.rule .statement) {} ⟨p, text⟩ (some (⟨p', []⟩, [t'])) ∧
      ∀ e, Expr.ofTree t 1 = .ok e → Stmt.ofTree t' 0 = .ok (.eval e false (.between p p')) := by
  have expression : Matches scriptGrammar (.rule .exprStmt) {} ⟨p, text⟩ _ :=
    matches_phrase rfl (matches_phrase rfl isRow)
  have body : Matches scriptGrammar _ {} ⟨p, text⟩ _ :=
    .altSecond (noOpening .loadStmt (by decide)) (.altSecond (noOpening .useStmt (by decide))
      (.altSecond (noOpening .fnDecl (by decide)) (.altSecond (noOpening .letStmt (by decide))
        (.altSecond (noOpening .ifStmt (by decide)) (.altSecond (noOpening .whileStmt (by decide))
          (.altSecond noAssign expression))))))
  have noTerminator : Matches scriptGrammar (.rule .terminator) {} ⟨p', []⟩ none :=
    .noRule (by decide) (.noText rfl)
  refine ⟨_, matches_phrase rfl (.seq body (.optNone noTerminator)), ?_⟩
  intro e isExpr
  have isExpression : ∀ span, Expr.ofTree (.phrase .expression span [t]) 0 = .ok e := by
    intro span
    rw [Expr.ofTree, if_neg (by decide)]
    exact isExpr
  show Stmt.ofTree (.phrase .statement _ [.phrase .exprStmt _ [.phrase .expression _ [t]]]) 0 = _
  rw [Stmt.ofTree, if_neg (by decide), Stmt.ofBody, isExpression]
  rfl

end ScriptShell
