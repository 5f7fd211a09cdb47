import ScriptShell.Proofs.Syntax.Tokens
import ScriptShell.Syntax.Parser

/-! # Parsing follows the lexemes

A text that is parsed is read lexeme by lexeme: what a rule of the grammar matches is made of whole
lexemes, all of them proper, and the directives among them are those of its trees. So
**`lexemes_of_parse`**: the directives of a fragment are those that a look at its lexemes finds. -/

namespace ScriptShell

open Grammar

/-! ## Words that are looked for -/

/-- The letters of a keyword. -/
def Rule.letters? : Rule → Option (List Char)
  | .kwLet => some "let".toList
  | .kwFn => some "fn".toList
  | .kwUse => some useWord
  | .kwIf => some "if".toList
  | .kwElse => some "else".toList
  | .kwWhile => some "while".toList
  | .kwAwait => some "await".toList
  | _ => none

variable {m : Mode} {c c' : Cursor} {p : Pattern Rule} {ts : List (ParseTree Rule)}

/-- Where a keyword is matched, it is the next word. -/
theorem startsWord_of_letters {kw : Rule} {word : List Char} (letters : kw.letters? = some word)
    (isMatch : Matches scriptGrammar (.rule kw) m c (some (c', ts))) : StartsWord word c.rest := by
  have whole : ∀ {text : String}, scriptGrammar.kind kw = .token →
      scriptGrammar.pattern kw = Rule.word text → StartsWord text.toList c.rest := by
    intro text isToken isWord
    obtain ⟨_, -, inner⟩ := isMatch.of_token isToken
    rw [isWord] at inner
    exact ⟨_, of_word (by simp) inner⟩
  unfold Rule.letters? at letters
  split at letters <;> cases letters <;> exact whole rfl rfl

/-- The word that a pattern looks for without moving. -/
def lookedFor : Pattern Rule → Option (List Char)
  | .ahead (.rule kw) => kw.letters?
  | _ => none

/-- What looks for a word finds it there and moves nowhere. -/
theorem startsWord_of_lookedFor {word : List Char} (looks : lookedFor p = some word)
    (isMatch : Matches scriptGrammar p m c (some (c', ts))) : c' = c ∧ StartsWord word c.rest := by
  unfold lookedFor at looks
  split at looks
  · obtain ⟨rfl, -, _, inner⟩ := isMatch.of_ahead
    exact ⟨rfl, startsWord_of_letters looks inner⟩
  · cases looks

/-! ## Patterns that follow the lexemes -/

/-- Rules that are called only inside tokens, and the rule for whole texts. -/
def Rule.isInner : Rule → Bool
  | .program | .identChar | .kwLet | .kwFn | .kwUse | .kwIf | .kwElse | .kwWhile | .kwAwait
  | .keyword | .bareTarget | .stringInner => true
  | _ => false

/-- Rules whose trees have no directives. -/
def Rule.isFlat (rule : Rule) : Bool :=
  rule != .loadStmt && rule != .useStmt && rule != .statement && !rule.holdsStatements

/-- Whether a pattern outside tokens consists of rules and signs, and of keywords where these have
been looked for: where `guard` is given, that word comes next. -/
def isLoose (guard : Option (List Char)) : Pattern Rule → Bool
  | .text chars => chars.all (fun x => isSign x && x != '/') || chars == ['/'] ||
      (guard == some chars && chars != useWord && chars.all isNameChar &&
        chars.head?.any isNameStart)
  | .char _ => false
  | .seq p q => isLoose guard p && isLoose (lookedFor p) q
  | .alt p q => isLoose none p && isLoose none q
  | .opt p | .star p => isLoose none p
  | .ahead _ | .notAhead _ | .atEnd => true
  | .rule r => !r.isInner

/-- Whether the rules that a pattern calls are all flat. -/
def isFlat : Pattern Rule → Bool
  | .text _ | .char _ | .ahead _ | .notAhead _ | .atEnd => true
  | .seq p q | .alt p q => isFlat p && isFlat q
  | .opt p | .star p => isFlat p
  | .rule r => r.isFlat

/-- Patterns of loose rules are loose. -/
theorem isLoose_pattern {r : Rule} (notInner : r.isInner = false)
    (isPhrase : r.kind = .phrase ∨ r.kind = .silent) (notUse : r ≠ .useStmt) :
    isLoose none r.pattern = true := by
  cases r <;> first
    | decide
    | exact absurd notInner (by decide)
    | exact absurd isPhrase (by decide)
    | exact absurd rfl notUse

/-- Patterns of flat rules are flat. -/
theorem isFlat_pattern {r : Rule} (notInner : r.isInner = false) (flat : r.isFlat = true) :
    isFlat r.pattern = true := by
  cases r <;> first
    | decide
    | exact absurd notInner (by decide)
    | exact absurd flat (by decide)

/-! ## Reading rules -/

/-- Some lexemes are read, with the directives of some trees. -/
def ReadsTrees (text rest : List Char) (ts : List (ParseTree Rule)) : Prop :=
  ∃ ls, Reads text ls rest ∧ ls.filterMap Lexeme.directive? = treeDirectivesAll ts

/-- Outside tokens, what the matcher skips is the gap. -/
theorem rest_skip (c : Cursor) : (skip scriptGrammar {} c).rest = afterGap c.rest :=
  rest_skipFrom _ _ _ _ _

/-- Behind a gap no other gap follows. -/
theorem afterGap_skip (c : Cursor) :
    afterGap (skip scriptGrammar {} c).rest = (skip scriptGrammar {} c).rest := by
  rw [rest_skip, afterGap_afterGap]

namespace ReadsTrees

/-- No trees are read without a text. -/
theorem refl (text : List Char) : ReadsTrees text text [] :=
  ⟨[], .refl text, rfl⟩

/-- Trees are read one after the other. -/
theorem trans {text middle rest : List Char} {us : List (ParseTree Rule)}
    (first : ReadsTrees text middle ts) (second : ReadsTrees middle rest us) :
    ReadsTrees text rest (ts ++ us) := by
  obtain ⟨ls, reads, same⟩ := first
  obtain ⟨more, readsMore, sameMore⟩ := second
  refine ⟨ls ++ more, reads.trans readsMore, ?_⟩
  rw [List.filterMap_append, same, sameMore, treeDirectivesAll_append]

/-- A gap is read without a directive. -/
theorem skip (c : Cursor) : ReadsTrees c.rest (skip scriptGrammar {} c).rest [] := by
  rw [rest_skip]
  exact reads_gap c.rest

end ReadsTrees

/-- Signs that come next. -/
theorem reads_signs {text : List Char} (signs : ∀ x ∈ text, isSign x = true ∧ x ≠ '/')
    (rest : List Char) : ReadsTrees (text ++ rest) rest [] := by
  induction text with
  | nil => exact .refl rest
  | cons x text ih =>
      obtain ⟨sign, notSlash⟩ := signs x List.mem_cons_self
      have first : ReadsTrees (x :: (text ++ rest)) (text ++ rest) [] :=
        ⟨_, reads_sign sign fun isComment => notSlash isComment.1, rfl⟩
      exact first.trans (ih fun y member => signs y (List.mem_cons_of_mem x member))

/-- A whole word that is not `use`. -/
theorem reads_startsWord {word rest : List Char} (notUse : word ≠ useWord)
    (isName : word.all isNameChar = true) (isStart : word.head?.any isNameStart = true)
    (ends : ∀ x ∈ rest.head?, isNameChar x = false) : ReadsTrees (word ++ rest) rest [] := by
  cases word with
  | nil => cases isStart
  | cons x letters =>
      -- What follows the word is no part of it, so reading a word stops there.
      have stops : rest.takeWhile isNameChar = [] ∧ rest.dropWhile isNameChar = rest := by
        cases rest with
        | nil => exact ⟨rfl, rfl⟩
        | cons y rest => simp [ends y rfl]
      have isName : ∀ y ∈ letters, isNameChar y = true := fun y member =>
        List.all_eq_true.mp isName y (List.mem_cons_of_mem x member)
      have whole : (letters ++ rest).takeWhile isNameChar = letters ∧
          (letters ++ rest).dropWhile isNameChar = rest := by
        rw [List.takeWhile_append_of_pos isName, List.dropWhile_append_of_pos isName, stops.1,
          stops.2, List.append_nil]
        exact ⟨rfl, rfl⟩
      have notUse : x :: (letters ++ rest).takeWhile isNameChar ≠ useWord := by rwa [whole.1]
      have reads := reads_word isStart notUse
      rw [whole.1, whole.2] at reads
      exact ⟨_, reads, rfl⟩

/-- A token is read without a directive. -/
theorem reads_token {r : Rule} (notInner : r.isInner = false) (isToken : r.kind = .token)
    (isMatch : Matches scriptGrammar (.rule r) {} c (some (c', ts))) :
    ReadsTrees c.rest c'.rest ts := by
  obtain ⟨parts, isTrees, inner⟩ := isMatch.of_token isToken
  have noDirective : treeDirectivesAll ts = [] := by
    rw [isTrees]
    rfl
  have plain : ReadsTrees c.rest c'.rest [] → ReadsTrees c.rest c'.rest ts := by
    rintro ⟨ls, reads, none⟩
    exact ⟨ls, reads, by rw [none, noDirective]; rfl⟩
  -- Truth values and `null` are words of the grammar.
  have literal : ∀ {text : String}, text.toList ≠ useWord → text.toList.all isNameChar = true →
      text.toList.head?.any isNameStart = true →
      (c.rest = text.toList ++ c'.rest ∧ ∀ x ∈ c'.rest.head?, isNameChar x = false) →
      ReadsTrees c.rest c'.rest [] := by
    rintro text notUse isName isStart ⟨isRest, ends⟩
    rw [isRest]
    exact reads_startsWord notUse isName isStart ends
  apply plain
  cases r with
  | identifier =>
      obtain ⟨x, rest, isRest, isStart, isAfter, -, notUse⟩ := of_identifier isMatch
      rw [isRest, isAfter]
      exact ⟨_, reads_word isStart notUse, rfl⟩
  | number =>
      obtain ⟨text, isRest, signs⟩ := of_number isMatch
      rw [isRest]
      exact reads_signs signs c'.rest
  | boolean =>
      obtain ⟨c₁, _, _, letters, ends, -⟩ := inner.of_seq
      rw [skip_eq_self (by simp)] at ends
      obtain ⟨rfl, -, noMore⟩ := ends.of_notAhead
      have ends := none_of_identChar noMore
      rcases letters.of_alt with ⟨_, _, isTrue⟩ | ⟨_, isFalse⟩
      · exact literal (by decide) (by decide) (by decide) ⟨isTrue.of_text.1, ends⟩
      · exact literal (by decide) (by decide) (by decide) ⟨isFalse.of_text.1, ends⟩
  | nullLit => exact literal (by decide) (by decide) (by decide) (of_word (by simp) inner)
  | _ => first | exact absurd notInner (by decide) | exact absurd isToken (by decide)

/-- A quoted text is read without a directive. -/
theorem reads_string (isMatch : Matches scriptGrammar (.rule .string) {} c (some (c', ts))) :
    ReadsTrees c.rest c'.rest ts := by
  obtain ⟨text, raw, parts, isRest, read, isTrees, -⟩ := of_string isMatch
  have noDirective : treeDirectivesAll ts = [] := by
    rw [isTrees, ruleTrees, if_pos (by decide), makeTree, if_neg (by decide), treeDirectivesAll,
      treeDirectives_eq_nil (by decide) (by decide) (by decide) rfl]
    rfl
  refine ⟨_, isRest ▸ reads_quoted read, ?_⟩
  rw [noDirective]
  rfl

/-- The word `use` and its name. -/
theorem reads_useStmt (settled : afterGap c.rest = c.rest)
    (isMatch : Matches scriptGrammar (.rule .useStmt) {} c (some (c', ts))) :
    ReadsTrees c.rest c'.rest ts := by
  obtain ⟨parts, isTrees, inner⟩ := isMatch.of_phrase rfl
  obtain ⟨c₁, _, _, looks, rest, isParts⟩ := inner.of_seq
  obtain ⟨c₂, _, names, letters, named, rfl⟩ := rest.of_seq
  obtain ⟨rfl, after, isRest, ends⟩ := startsWord_of_lookedFor rfl looks
  have isAfter : after = c₂.rest := by
    have whole : (skip scriptGrammar {} c₁).rest = useWord ++ c₂.rest := letters.of_text.1
    rw [rest_skip, settled, isRest] at whole
    exact List.append_cancel_left whole
  obtain ⟨x, rest, isName, isStart, isEnd, isText, notUse⟩ := of_identifier named
  rw [rest_skip] at isName
  -- The lexeme `use` looks for the same name, and the name is read after the gap.
  have isNext : nextName? after = some (x :: rest.takeWhile isNameChar) := by
    rw [nextName?, isAfter, isName]
    simp [isStart]
  obtain ⟨gap, readsGap, noDirective⟩ := reads_gap after
  have reads := (reads_use ends isNext).trans
    (readsGap.trans (by rw [isAfter, isName]; exact reads_word isStart notUse))
  obtain ⟨_, isToken, -⟩ := named.of_token rfl
  refine ⟨_, by rw [isRest, isEnd]; exact reads, ?_⟩
  rw [isTrees, isParts, looks.of_ahead.2.1, letters.of_text.2, isToken, ruleTrees, ruleTrees,
    if_pos (by decide), if_pos (by decide), makeTree, makeTree, if_neg (by decide), if_pos rfl,
    isText]
  simp [noDirective, treeDirectivesAll, treeDirectives, Lexeme.directive?, ParseTree.text]

/-! ## Whole patterns -/

/-- The tree of a statement has the directives of its parts. -/
theorem treeDirectivesAll_statement
    (isMatch : Matches scriptGrammar Rule.statement.pattern {} c (some (c', ts))) (span : Span) :
    treeDirectives (.phrase .statement span ts) = treeDirectivesAll ts := by
  obtain ⟨c₁, us, vs, body, ending, rfl⟩ := isMatch.of_seq
  obtain ⟨q, member, body⟩ := body.of_oneOf
  -- The body of a statement is one of eight phrases, and leaves a single tree.
  have single : ∃ t, us = [t] := by
    simp only [List.mem_cons, List.not_mem_nil, or_false] at member
    rcases member with rfl | rfl | rfl | rfl | rfl | rfl | rfl | rfl
    all_goals
      obtain ⟨_, isTrees, -⟩ := body.of_rule (by decide)
      exact ⟨_, isTrees⟩
  obtain ⟨t, rfl⟩ := single
  -- The semicolon after it leaves nothing or a tree of its own.
  have noDirective : treeDirectivesAll vs = [] := by
    cases ending with
    | optNone => rfl
    | opt ending =>
        obtain ⟨_, isTrees, -⟩ := ending.of_phrase rfl
        rw [isTrees, ruleTrees, if_pos (by decide), makeTree, if_neg (by decide), treeDirectivesAll,
          treeDirectives_eq_nil (by decide) (by decide) (by decide) rfl]
        rfl
  rw [List.singleton_append, treeDirectives_statement, treeDirectivesAll, noDirective,
    List.append_nil]

/-- Characters of a pattern outside tokens. -/
theorem reads_text {chars : List Char} {guard : Option (List Char)}
    (loose : isLoose guard (.text chars) = true) (isWord : ∀ word ∈ guard, StartsWord word c.rest)
    (settled : afterGap c.rest = c.rest) (isRest : c.rest = chars ++ c'.rest) :
    ReadsTrees c.rest c'.rest [] := by
  simp only [isLoose, Bool.or_eq_true, Bool.and_eq_true, beq_iff_eq, bne_iff_ne] at loose
  rcases loose with (signs | isSlash) | ⟨⟨⟨isGuard, notUse⟩, isName⟩, isStart⟩
  · rw [isRest]
    apply reads_signs
    intro x member
    simpa using List.all_eq_true.mp signs x member
  · subst isSlash
    have notComment : ¬('/' = '/' ∧ c'.rest.head? = some '/') := by
      -- A second slash would have been skipped as a comment.
      rintro ⟨-, second⟩
      obtain ⟨more, isMore⟩ := List.head?_eq_some_iff.mp second
      have whole : c.rest = '/' :: '/' :: more := by rw [isRest, isMore]; rfl
      rw [whole, afterGap_comment] at settled
      have shorter := (Cursor.suffix_skipFrom scriptGrammar false {}
        (more.dropWhile (· != '\n'))).length_le
      have dropped := (List.dropWhile_suffix (l := more) (· != '\n')).length_le
      have same := congrArg List.length settled
      simp only [afterGap, List.length_cons] at same
      omega
    rw [isRest]
    exact ⟨_, reads_sign (by decide) notComment, rfl⟩
  · obtain ⟨rest, whole, ends⟩ := isWord chars isGuard
    have isAfter : rest = c'.rest := List.append_cancel_left (whole.symm.trans isRest)
    rw [isRest, ← isAfter]
    exact reads_startsWord notUse isName isStart ends

/-- The tree of a flat rule has no directives. -/
theorem treeDirectivesAll_ruleTrees {kind : RuleKind} {r : Rule} {parts : List (ParseTree Rule)}
    (flat : r.isFlat = true) : treeDirectivesAll (ruleTrees kind r m c c' parts) = [] := by
  unfold ruleTrees
  split
  · unfold makeTree
    simp only [Rule.isFlat, Bool.and_eq_true, bne_iff_ne, Bool.not_eq_true'] at flat
    split
    · rfl
    · rw [treeDirectivesAll, treeDirectives_eq_nil flat.1.1.1 flat.1.1.2 flat.1.2 flat.2]
      rfl
  · rfl

/-- The tree of a phrase has the directives of its parts, unless it is a directive. -/
theorem treeDirectivesAll_phrase {r : Rule} {parts : List (ParseTree Rule)}
    (isPhrase : r.kind = .phrase) (notUse : r ≠ .useStmt)
    (inner : Matches scriptGrammar r.pattern {} c (some (c', parts)))
    (flat : r.isFlat = true → treeDirectivesAll parts = []) :
    treeDirectivesAll (ruleTrees (scriptGrammar.kind r) r ((scriptGrammar.kind r).outer {}) c c'
      parts) = treeDirectivesAll parts := by
  cases isFlat : r.isFlat with
  | true => rw [treeDirectivesAll_ruleTrees isFlat, flat isFlat]
  | false =>
      have isTree :
          ruleTrees (scriptGrammar.kind r) r ((scriptGrammar.kind r).outer {}) c c' parts =
            [.phrase r (Span.between c.position c'.position) parts] := by
        rw [show scriptGrammar.kind r = .phrase from isPhrase]
        rfl
      rw [isTree, treeDirectivesAll, treeDirectivesAll, List.append_nil]
      cases holds : r.holdsStatements with
      | true => exact treeDirectives_of_holdsStatements holds _ parts
      | false =>
          -- A phrase that is not flat and holds no statements is a statement itself.
          have isStatement : r = .statement := by
            cases r <;> first
              | rfl
              | exact absurd rfl notUse
              | exact absurd isPhrase (by decide)
              | exact absurd isFlat (by decide)
              | exact absurd holds (by decide)
          subst isStatement
          exact treeDirectivesAll_statement inner _

/-- **A match follows the lexemes.** Outside tokens, what a pattern matches is read as lexemes, with
the directives of its trees. -/
theorem reads_of_matches {found : Found Rule} (isMatch : Matches scriptGrammar p m c found)
    (isFound : found = some (c', ts)) (isMode : m = {}) {guard : Option (List Char)}
    (loose : isLoose guard p = true) (isWord : ∀ word ∈ guard, StartsWord word c.rest)
    (settled : afterGap c.rest = c.rest) :
    ReadsTrees c.rest c'.rest ts ∧ (isFlat p = true → treeDirectivesAll ts = []) := by
  have noWord : ∀ {c : Cursor}, ∀ word ∈ (none : Option (List Char)), StartsWord word c.rest :=
    fun _ isNone => by cases isNone
  -- That the gap has been passed is carried along: every part starts after one.
  induction isMatch generalizing c' ts guard with
  | text moved =>
      cases isFound
      exact ⟨reads_text loose isWord settled (Cursor.rest_of_text? moved), fun _ => rfl⟩
  | char => cases loose
  | @seq p q m c c₁ us c₂ vs isFirst isSecond first second =>
      cases isFound
      subst isMode
      simp only [isLoose, Bool.and_eq_true] at loose
      obtain ⟨readsFirst, flatFirst⟩ := first rfl rfl loose.1 isWord settled
      -- A keyword that the first part looked for is what the second one starts with.
      have looked : ∀ word ∈ lookedFor p, StartsWord word (skip scriptGrammar {} c₁).rest := by
        intro word looks
        obtain ⟨rfl, starts⟩ := startsWord_of_lookedFor looks isFirst
        rwa [rest_skip, settled]
      obtain ⟨readsSecond, flatSecond⟩ := second rfl rfl loose.2 looked (afterGap_skip c₁)
      refine ⟨(readsFirst.trans ((ReadsTrees.skip c₁).trans readsSecond)), fun flat => ?_⟩
      simp only [isFlat, Bool.and_eq_true] at flat
      rw [treeDirectivesAll_append, flatFirst flat.1, flatSecond flat.2, List.append_nil]
  | altFirst _ first =>
      simp only [isLoose, Bool.and_eq_true] at loose
      obtain ⟨reads, flat⟩ := first isFound isMode loose.1 noWord settled
      refine ⟨reads, fun isFlat' => flat ?_⟩
      simp only [isFlat, Bool.and_eq_true] at isFlat'
      exact isFlat'.1
  | altSecond _ _ _ second =>
      simp only [isLoose, Bool.and_eq_true] at loose
      obtain ⟨reads, flat⟩ := second isFound isMode loose.2 noWord settled
      refine ⟨reads, fun isFlat' => flat ?_⟩
      simp only [isFlat, Bool.and_eq_true] at isFlat'
      exact isFlat'.2
  | opt _ once => exact once isFound isMode loose noWord settled
  | optNone | starNone | ahead | notAhead | atEnd =>
      cases isFound
      exact ⟨.refl _, fun _ => rfl⟩
  | starOnce _ _ first =>
      cases isFound
      exact first rfl isMode loose noWord settled
  | @starAgain p m c c₁ us r c₂ vs _ _ _ first _ again =>
      cases isFound
      subst isMode
      obtain ⟨readsFirst, flatFirst⟩ := first rfl rfl loose noWord settled
      have looseMore : isLoose none (.star p) = true := loose
      obtain ⟨readsMore, flatMore⟩ := again rfl rfl looseMore noWord (afterGap_skip c₁)
      refine ⟨readsFirst.trans ((ReadsTrees.skip c₁).trans readsMore), fun flat => ?_⟩
      rw [treeDirectivesAll_append, flatFirst flat, flatMore flat, List.append_nil]
  | @silent r m c _ isSilent inner body =>
      have notInner : r.isInner = false := by simpa [isLoose] using loose
      have notUse : r ≠ .useStmt := by
        rintro rfl
        cases isSilent
      obtain ⟨reads, flat⟩ := body isFound isMode (isLoose_pattern notInner (.inr isSilent) notUse)
        noWord settled
      exact ⟨reads, fun isFlat' => flat (isFlat_pattern notInner isFlat')⟩
  | @rule r m c _ parts notSilent inner body =>
      cases isFound
      subst isMode
      have notInner : r.isInner = false := by simpa [isLoose] using loose
      refine ⟨?_, treeDirectivesAll_ruleTrees⟩
      have isMatch := Matches.rule notSilent inner
      -- Tokens and the solid rules are read as a whole; the others part by part.
      cases isKind : r.kind with
      | silent => exact absurd isKind notSilent
      | token => exact reads_token notInner isKind isMatch
      | solid =>
          by_cases isLoad : r = .loadStmt
          · subst isLoad
            obtain ⟨l, reads, same⟩ := of_loadStmt isMatch
            exact ⟨[l], reads, same⟩
          · have isString : r = .string := by
              cases r <;> first | rfl | exact absurd rfl isLoad | cases isKind
            subst isString
            exact reads_string isMatch
      | phrase =>
          by_cases isUse : r = .useStmt
          · subst isUse
            exact reads_useStmt settled isMatch
          · have isMode : (scriptGrammar.kind r).inner ((scriptGrammar.kind r).outer {}) = {} := by
              rw [show scriptGrammar.kind r = .phrase from isKind]
              rfl
            obtain ⟨⟨ls, reads, same⟩, flat⟩ := body rfl isMode
              (isLoose_pattern notInner (.inl isKind) isUse) noWord settled
            refine ⟨ls, reads, same.trans ?_⟩
            rw [isMode] at inner
            exact (treeDirectivesAll_phrase isKind isUse inner fun isFlat' =>
              flat (isFlat_pattern notInner isFlat')).symm
  | noText | noChar | seqFirst | seqSecond | aheadNone | notAheadNone | notAtEnd | noRule =>
      cases isFound

/-- A whole text is read to its end, and its directives are those of its statements. -/
theorem reads_program {text : List Char} {parts : List (ParseTree Rule)}
    (isMatch : Matches scriptGrammar Rule.program.pattern {} (Cursor.start text)
      (some (c', parts))) :
    ReadsTrees text [] (statementsOf parts) := by
  obtain ⟨c₁, us, vs, start, rest, rfl⟩ := isMatch.of_seq
  have isStart : c₁.rest = text := start.of_text.1.symm
  have noTrees : us = [] := start.of_text.2
  have noWord : ∀ word ∈ (none : Option (List Char)),
      StartsWord word (skip scriptGrammar {} c₁).rest := fun _ isNone => by cases isNone
  have reads := (reads_of_matches rest rfl rfl (by decide) noWord (afterGap_skip c₁)).1
  obtain ⟨c₂, ws, es, isStatements, isEnd, rfl⟩ := rest.of_seq
  have allStatements := isStatements.rule_of_mem_star (by decide)
  obtain ⟨ended, isTree, atEnd⟩ := isEnd.of_phrase rfl
  have isNil : c'.rest = [] := by
    cases atEnd with
    | atEnd isNil => exact isNil
  -- The end of the input leaves a tree, which is no statement and has no directive.
  have noStatement : statementsOf es = [] ∧ treeDirectivesAll es = [] := by
    rw [isTree]
    exact ⟨rfl, by cases ended <;> rfl⟩
  have same : treeDirectivesAll (statementsOf (us ++ (ws ++ es))) =
      treeDirectivesAll (ws ++ es) := by
    have all : ws.filter (fun t => t.rule = .statement) = ws :=
      List.filter_eq_self.mpr fun t member => by simp [allStatements t member]
    rw [noTrees, List.nil_append, statementsOf, List.filter_append, all, ← statementsOf,
      noStatement.1, List.append_nil, treeDirectivesAll_append, noStatement.2, List.append_nil]
  obtain ⟨ls, reads, isDirectives⟩ := (ReadsTrees.skip c₁).trans reads
  rw [isStart, isNil] at reads
  exact ⟨ls, reads, isDirectives.trans same.symm⟩

/-- **The directives of a fragment are those of its lexemes**, and these are proper. -/
theorem lexemes_of_parse {text : String} {stmts : List Stmt} (parsed : parse text = .ok stmts) :
    (∀ l ∈ lexemes text.toList, l.Proper) ∧
      (lexemes text.toList).filterMap Lexeme.directive? = Stmt.directives stmts := by
  unfold parse parseChars at parsed
  split at parsed
  · cases parsed
  · rename_i span parts matched
    obtain ⟨last, isMatch⟩ := Grammar.matches_of_match? scriptRanked (by decide) matched
    obtain ⟨parts', isTrees, inner⟩ := isMatch.of_phrase rfl
    cases isTrees
    obtain ⟨ls, reads, same⟩ := reads_program inner
    have whole := reads.lexemes_eq
    rw [lexemes_nil, List.append_nil] at whole
    rw [whole, same, (Stmt.ofTrees_eq_ok_iff.mp parsed).directives_eq]
    exact ⟨reads.proper, rfl⟩
  · cases parsed

end ScriptShell
