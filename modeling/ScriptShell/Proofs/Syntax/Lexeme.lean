import ScriptShell.Proofs.Syntax.Parts
import ScriptShell.Syntax.Builder

/-! # Lexemes

A text of a script cut into its smallest parts, with neither grammar nor statements: blanks,
comments, quoted texts, words and single signs. Two lexemes are directives. A `load` directive is
one lexeme up to the end of its target; a `use` is the word alone, and knows the name that comes
next.

`lexemes` cuts any text, also one that is no script. Nothing is lost (`chars_lexemes`). -/

namespace ScriptShell

/-- Characters of words, after the first. -/
def isNameChar (c : Char) : Bool :=
  c.isAlphanum || c == '_'

/-- First characters of words. -/
def isNameStart (c : Char) : Bool :=
  c.isAlpha || c == '_'

/-- Characters of a load target without quotes. -/
def isTargetChar (c : Char) : Bool :=
  c.isAlphanum || c == '_' || c == '.' || c == '/' || c == '-'

/-- Blanks between `#load` and its target. -/
def isSpaceOrTab (c : Char) : Bool :=
  c == ' ' || c == '\t'

/-- What load directives start with. -/
def loadMark : List Char := ['#', 'l', 'o', 'a', 'd']

/-- The word before the name of an imported module. -/
def useWord : List Char := ['u', 's', 'e']

/-- A directive of a script. -/
inductive Directive where
  | load (target : List Char)
  | use (name : List Char)
  deriving DecidableEq, Repr

/-- The smallest parts of a script's text. -/
inductive Lexeme where
  | blank (c : Char)
  /-- A comment, from its mark to the end of the line. -/
  | comment (text : List Char)
  /-- A text in quotes, as it is written between them. -/
  | quoted (raw : List Char)
  /-- A load directive: the blanks before its target, and the target as it is written, with quotes
  around it or not. -/
  | load (gap : List Char) (inQuotes : Bool) (raw : List Char)
  /-- The word `use`, before a name. -/
  | use (name : List Char)
  | word (text : List Char)
  | other (c : Char)
  deriving DecidableEq, Repr

namespace Lexeme

/-- The text of a lexeme. -/
def chars : Lexeme → List Char
  | .blank c | .other c => [c]
  | .comment text | .word text => text
  | .quoted raw => '"' :: (raw ++ ['"'])
  | .load gap true raw => loadMark ++ (gap ++ '"' :: (raw ++ ['"']))
  | .load gap false raw => loadMark ++ (gap ++ raw)
  | .use _ => useWord

/-- The directive of a lexeme. -/
def directive? : Lexeme → Option Directive
  | .load _ true raw => some (.load (readEscapes raw))
  | .load _ false raw => some (.load raw)
  | .use name => some (.use name)
  | .blank _ | .comment _ | .quoted _ | .word _ | .other _ => none

end Lexeme

/-! ## Cutting a text -/

/-- The text up to the closing quote, and what follows that. -/
def readQuoted : List Char → Option (List Char × List Char)
  | [] => none
  | '"' :: rest => some ([], rest)
  | ['\\'] => none
  | '\\' :: c :: rest => (readQuoted rest).map fun (raw, after) => ('\\' :: c :: raw, after)
  | c :: rest => (readQuoted rest).map fun (raw, after) => (c :: raw, after)

/-- The load directive whose first sign was read, and what follows it. -/
def readLoad (text : List Char) : Option (Lexeme × List Char) :=
  (Text.dropLead? loadMark.tail text).bind fun text =>
    let gap := text.takeWhile isSpaceOrTab
    if gap = [] then none
    else
      match text.dropWhile isSpaceOrTab with
      | '"' :: body => (readQuoted body).map fun (raw, after) => (.load gap true raw, after)
      | body =>
        let target := body.takeWhile isTargetChar
        if target = [] then none else some (.load gap false target, body.dropWhile isTargetChar)

/-- The text after blanks and comments. -/
def afterGap (text : List Char) : List Char :=
  (Grammar.Cursor.skipFrom scriptGrammar false {} text).rest

/-- The name that comes next, after blanks and comments. -/
def nextName? (text : List Char) : Option (List Char) :=
  match afterGap text with
  | [] => none
  | x :: rest => if isNameStart x then some (x :: rest.takeWhile isNameChar) else none

/-- The first lexeme of a text, and what follows it. -/
def Lexeme.next (x : Char) (rest : List Char) : Lexeme × List Char :=
  if scriptGrammar.isBlank x then (.blank x, rest)
  else if x = '/' ∧ rest.head? = some '/' then
    (.comment (x :: rest.takeWhile (· != '\n')), rest.dropWhile (· != '\n'))
  else if x = '"' then
    ((readQuoted rest).map fun (raw, after) => (.quoted raw, after)).getD (.other x, rest)
  else if x = '#' then (readLoad rest).getD (.other x, rest)
  else if isNameStart x then
    let word := x :: rest.takeWhile isNameChar
    let after := rest.dropWhile isNameChar
    (if word = useWord then ((nextName? after).map .use).getD (.word word) else .word word, after)
  else (.other x, rest)

/-- What is read between quotes stands before the closing one. -/
theorem chars_readQuoted {text raw after : List Char} (read : readQuoted text = some (raw, after)) :
    text = raw ++ '"' :: after := by
  fun_induction readQuoted text generalizing raw with
  | case1 => cases read
  | case2 rest =>
      cases read
      rfl
  | case3 => cases read
  -- An escaped character is taken along with its backslash, a quote included.
  | case4 c rest ih =>
      obtain ⟨⟨raw', after'⟩, isRead, same⟩ := Option.map_eq_some_iff.mp read
      cases same
      rw [ih isRead]
      rfl
  | case5 c rest _ _ _ ih =>
      obtain ⟨⟨raw', after'⟩, isRead, same⟩ := Option.map_eq_some_iff.mp read
      cases same
      rw [ih isRead]
      rfl

/-- A character that starts no escape is no backslash. -/
theorem ne_backslash {x : Char} {rest : List Char} (notLast : x = '\\' → rest = [] → False)
    (notEscape : ∀ (c : Char) (more : List Char), x = '\\' → rest = c :: more → False) :
    x ≠ '\\' := by
  rintro rfl
  cases rest with
  | nil => exact notLast rfl rfl
  | cons c more => exact notEscape c more rfl rfl

/-- What follows the closing quote is not looked at. -/
theorem readQuoted_append {text raw after : List Char} (read : readQuoted text = some (raw, after))
    (more : List Char) : readQuoted (text ++ more) = some (raw, after ++ more) := by
  fun_induction readQuoted text generalizing raw with
  | case1 => cases read
  | case2 rest =>
      cases read
      rfl
  | case3 => cases read
  | case4 x rest ih =>
      obtain ⟨⟨raw', _⟩, isRead, same⟩ := Option.map_eq_some_iff.mp read
      cases same
      simp [readQuoted, ih isRead]
  | case5 x rest notQuote notLast notEscape ih =>
      obtain ⟨⟨raw', _⟩, isRead, same⟩ := Option.map_eq_some_iff.mp read
      cases same
      have notBackslash := ne_backslash notLast notEscape
      simp [readQuoted, notBackslash, ih isRead]

/-- A load that is read stands in the text as it is written. -/
theorem chars_readLoad {text after : List Char} {l : Lexeme}
    (read : readLoad text = some (l, after)) :
    ∃ gap inQuotes raw more, l = .load gap inQuotes raw ∧ l.chars = '#' :: more ∧
      more ++ after = text := by
  obtain ⟨rest, dropped, read⟩ := Option.bind_eq_some_iff.mp read
  have whole := Text.dropLead?_eq_some_iff.mp dropped
  have gap := List.takeWhile_append_dropWhile (p := isSpaceOrTab) (l := rest)
  simp only at read
  split at read
  · cases read
  · split at read
    -- A target in quotes ends at its closing quote.
    · rename_i body isBody
      obtain ⟨⟨raw, after'⟩, isRead, same⟩ := Option.map_eq_some_iff.mp read
      cases same
      rw [isBody, chars_readQuoted isRead] at gap
      refine ⟨_, _, _, loadMark.tail ++ (rest.takeWhile isSpaceOrTab ++ '"' :: (raw ++ ['"'])), rfl,
        rfl, ?_⟩
      simp only [whole, List.append_assoc, List.cons_append, List.nil_append, gap]
    · split at read
      · cases read
      · cases read
        -- A bare target ends before the first character that is none of a target.
        have target := List.takeWhile_append_dropWhile (p := isTargetChar)
          (l := rest.dropWhile isSpaceOrTab)
        refine ⟨_, _, _, loadMark.tail ++ (rest.takeWhile isSpaceOrTab ++
          (rest.dropWhile isSpaceOrTab).takeWhile isTargetChar), rfl, rfl, ?_⟩
        rw [whole, List.append_assoc, List.append_assoc, target, gap]

namespace Lexeme

/-- What the first lexeme can be, and what follows it. -/
theorem next_cases {motive : Lexeme → List Char → Prop} (x : Char) (rest : List Char)
    (blank : scriptGrammar.isBlank x = true → motive (.blank x) rest)
    (comment : x = '/' → rest.head? = some '/' →
      motive (.comment (x :: rest.takeWhile (· != '\n'))) (rest.dropWhile (· != '\n')))
    (quoted : ∀ raw after, x = '"' → rest = raw ++ '"' :: after → motive (.quoted raw) after)
    (load : ∀ gap inQuotes raw after more, x = '#' →
      (Lexeme.load gap inQuotes raw).chars = '#' :: more → more ++ after = rest →
      motive (.load gap inQuotes raw) after)
    (use : ∀ name, x :: rest.takeWhile isNameChar = useWord →
      motive (.use name) (rest.dropWhile isNameChar))
    (word : isNameStart x = true →
      motive (.word (x :: rest.takeWhile isNameChar)) (rest.dropWhile isNameChar))
    (other : motive (.other x) rest) : motive (next x rest).1 (next x rest).2 := by
  unfold next
  split
  · exact blank ‹_›
  · split
    · rename_i isComment
      exact comment isComment.1 isComment.2
    · split
      · rename_i isQuote
        cases read : readQuoted rest with
        | none => exact other
        | some found => exact quoted _ _ isQuote (chars_readQuoted read)
      · split
        · rename_i isHash
          cases read : readLoad rest with
          | none => exact other
          | some found =>
              obtain ⟨gap, inQuotes, raw, more, isLoad, isChars, whole⟩ := chars_readLoad read
              simp only [Option.getD_some, isLoad] at isChars ⊢
              exact load gap inQuotes raw _ more isHash isChars whole
        · split
          · rename_i isStart
            simp only
            split
            · rename_i isUse
              cases nextName? (rest.dropWhile isNameChar) with
              | none => exact word isStart
              | some name => exact use name isUse
            · exact word isStart
          · exact other

/-- The first lexeme starts with the first character, and with the rest it makes up the text. -/
theorem exists_chars_next (x : Char) (rest : List Char) :
    ∃ more, (next x rest).1.chars = x :: more ∧ more ++ (next x rest).2 = rest := by
  refine next_cases (motive := fun l after => ∃ more, l.chars = x :: more ∧ more ++ after = rest)
    x rest ?blank ?comment ?quoted ?load ?use ?word ?other
  case blank =>
    intro _
    exact ⟨[], rfl, rfl⟩
  case comment =>
    intro _ _
    exact ⟨_, rfl, List.takeWhile_append_dropWhile⟩
  case quoted =>
    intro raw after isQuote whole
    exact ⟨raw ++ ['"'], by rw [isQuote]; rfl, by simp [whole]⟩
  case load =>
    intro gap inQuotes raw after more isHash isChars whole
    exact ⟨more, by rw [isHash, isChars], whole⟩
  case use =>
    intro name isUse
    exact ⟨_, isUse.symm, List.takeWhile_append_dropWhile⟩
  case word =>
    intro _
    exact ⟨_, rfl, List.takeWhile_append_dropWhile⟩
  case other => exact ⟨[], rfl, rfl⟩

/-- The next lexeme and the rest are the text. -/
theorem chars_next (x : Char) (rest : List Char) :
    (next x rest).1.chars ++ (next x rest).2 = x :: rest := by
  obtain ⟨more, isChars, whole⟩ := exists_chars_next x rest
  rw [isChars, List.cons_append, whole]

/-- The next lexeme is not empty. -/
theorem length_next (x : Char) (rest : List Char) :
    (next x rest).2.length < (x :: rest).length := by
  obtain ⟨more, -, whole⟩ := exists_chars_next x rest
  have := congrArg List.length whole
  rw [List.length_append] at this
  rw [List.length_cons]
  omega

end Lexeme

/-- The lexemes of a text. -/
def lexemes : List Char → List Lexeme
  | [] => []
  | x :: rest => (Lexeme.next x rest).1 :: lexemes (Lexeme.next x rest).2
termination_by text => text.length
decreasing_by exact Lexeme.length_next x rest

/-- An empty text has no lexemes. -/
theorem lexemes_nil : lexemes [] = [] := by
  rw [lexemes]

/-- The lexemes of a text: the next one, and those of the rest. -/
theorem lexemes_cons (x : Char) (rest : List Char) :
    lexemes (x :: rest) = (Lexeme.next x rest).1 :: lexemes (Lexeme.next x rest).2 := by
  rw [lexemes]

/-- Nothing is lost. -/
theorem chars_lexemes (text : List Char) : (lexemes text).flatMap Lexeme.chars = text := by
  fun_induction lexemes text with
  | case1 => rfl
  | case2 x rest ih => rw [List.flatMap_cons, ih, Lexeme.chars_next]

/-! ## Reading on -/

/-- Signs of scripts, digits included. -/
def isSign (c : Char) : Bool :=
  c.isDigit || "()\x7b\x7d[]=,.;|&<>!+-*/%".toList.contains c

/-- What lexemes of scripts are like: `use` comes before a name, signs are signs of the language,
and a load directive has blanks before its target. -/
def Lexeme.Proper : Lexeme → Prop
  | .word text => text ≠ useWord
  | .other c => isSign c = true
  | .load gap inQuotes raw => gap ≠ [] ∧ (∀ c ∈ gap, isSpaceOrTab c = true) ∧
      (inQuotes = false → raw ≠ [] ∧ ∀ c ∈ raw, isTargetChar c = true)
  | .use name => name ≠ []
  | .blank _ | .comment _ | .quoted _ => True

/-- A text starts with some lexemes, all of them proper, and goes on with those of the rest. -/
structure Reads (text : List Char) (ls : List Lexeme) (rest : List Char) : Prop where
  lexemes_eq : lexemes text = ls ++ lexemes rest
  proper : ∀ l ∈ ls, l.Proper

namespace Reads

/-- Nothing is read without a text. -/
theorem refl (text : List Char) : Reads text [] text where
  lexemes_eq := rfl
  proper _ member := by cases member

/-- Reading goes on where it ended. -/
theorem trans {text middle rest : List Char} {ls more : List Lexeme}
    (first : Reads text ls middle) (second : Reads middle more rest) :
    Reads text (ls ++ more) rest where
  lexemes_eq := by rw [first.lexemes_eq, second.lexemes_eq, List.append_assoc]
  proper l member := by
    rcases List.mem_append.mp member with member | member
    · exact first.proper l member
    · exact second.proper l member

/-- One lexeme. -/
theorem one {x : Char} {text rest : List Char} {l : Lexeme}
    (isNext : Lexeme.next x text = (l, rest)) (proper : l.Proper) : Reads (x :: text) [l] rest where
  lexemes_eq := by rw [lexemes_cons, isNext, List.singleton_append]
  proper l' member := by rwa [List.mem_singleton.mp member]

end Reads

/-! ### Blanks and comments -/

/-- What is left behind a gap does not depend on where it stands. -/
theorem rest_skipFrom (g : Grammar Rule) (inComment : Bool) (p q : Position) (text : List Char) :
    (Grammar.Cursor.skipFrom g inComment p text).rest =
      (Grammar.Cursor.skipFrom g inComment q text).rest := by
  induction text generalizing inComment p q with
  | nil => cases inComment <;> rfl
  | cons x rest ih =>
      cases inComment with
      | true => exact ih _ _ _
      | false =>
          simp only [Grammar.Cursor.skipFrom]
          split
          · exact ih _ _ _
          · split
            · exact ih _ _ _
            · rfl

/-- A blank belongs to a gap. -/
theorem afterGap_blank {x : Char} (blank : scriptGrammar.isBlank x = true) (rest : List Char) :
    afterGap (x :: rest) = afterGap rest := by
  unfold afterGap
  rw [Grammar.Cursor.skipFrom, if_pos blank]
  exact rest_skipFrom _ _ _ _ _

/-- A comment ends with its line. -/
theorem afterGap_comment (rest : List Char) :
    afterGap ('/' :: '/' :: rest) = afterGap (rest.dropWhile (· != '\n')) := by
  -- Inside a comment only the end of the line counts.
  have inside : ∀ (p : Position) (text : List Char),
      (Grammar.Cursor.skipFrom scriptGrammar true p text).rest =
        afterGap (text.dropWhile (· != '\n')) := by
    intro p text
    induction text generalizing p with
    | nil => rfl
    | cons x rest ih =>
        by_cases isEnd : x = '\n'
        · subst isEnd
          exact rest_skipFrom _ _ _ _ _
        · have goesOn : (x != '\n') = true := by simpa using isEnd
          rw [Grammar.Cursor.skipFrom, goesOn, List.dropWhile_cons, if_pos goesOn]
          exact ih _
  exact inside _ ('/' :: rest)

/-- What is neither a blank nor the start of a comment ends a gap. -/
theorem afterGap_other {x : Char} {rest : List Char} (notBlank : scriptGrammar.isBlank x = false)
    (notComment : ¬(x = '/' ∧ rest.head? = some '/')) : afterGap (x :: rest) = x :: rest := by
  have noMark : scriptGrammar.commentMark.isPrefixOf (x :: rest) = false := by
    rw [Bool.eq_false_iff]
    intro isMark
    obtain ⟨after, whole⟩ := List.isPrefixOf_iff_prefix.mp isMark
    cases whole
    exact notComment ⟨rfl, rfl⟩
  unfold afterGap
  simp [Grammar.Cursor.skipFrom, notBlank, noMark]

/-- A text goes on with a blank, with a comment, or with something else. -/
theorem gap_induction {motive : List Char → Prop} (nil : motive [])
    (blank : ∀ x rest, scriptGrammar.isBlank x = true → motive rest → motive (x :: rest))
    (comment : ∀ rest, motive (rest.dropWhile (· != '\n')) → motive ('/' :: '/' :: rest))
    (other : ∀ x rest, scriptGrammar.isBlank x = false → ¬(x = '/' ∧ rest.head? = some '/') →
      motive (x :: rest)) (text : List Char) : motive text := by
  -- The length carries the induction, since a comment takes away a whole line.
  induction isLength : text.length using Nat.strongRecOn generalizing text with
  | ind n ih =>
      cases text with
      | nil => exact nil
      | cons x rest =>
          cases isBlank : scriptGrammar.isBlank x with
          | true => exact blank x rest isBlank (ih rest.length (by simp [← isLength]) rest rfl)
          | false =>
              by_cases isComment : x = '/' ∧ rest.head? = some '/'
              · obtain ⟨rfl, second⟩ := isComment
                obtain ⟨after, rfl⟩ := List.head?_eq_some_iff.mp second
                have shorter := (List.dropWhile_suffix (l := after) (· != '\n')).length_le
                refine comment after (ih _ ?_ _ rfl)
                simp only [← isLength, List.length_cons]
                omega
              · exact other x rest isBlank isComment

/-- Blanks and comments are lexemes, and no directives. -/
theorem reads_gap (text : List Char) :
    ∃ ls, Reads text ls (afterGap text) ∧ ls.filterMap Lexeme.directive? = [] := by
  induction text using gap_induction with
  | nil => exact ⟨[], .refl [], rfl⟩
  | blank x rest isBlank ih =>
      obtain ⟨ls, reads, none⟩ := ih
      rw [afterGap_blank isBlank]
      have isNext : Lexeme.next x rest = (.blank x, rest) := by rw [Lexeme.next, if_pos isBlank]
      exact ⟨.blank x :: ls, (Reads.one isNext trivial).trans reads, none⟩
  | comment rest ih =>
      obtain ⟨ls, reads, none⟩ := ih
      rw [afterGap_comment]
      have isNext : Lexeme.next '/' ('/' :: rest) =
          (.comment ('/' :: '/' :: rest.takeWhile (· != '\n')), rest.dropWhile (· != '\n')) := rfl
      exact ⟨_ :: ls, (Reads.one isNext trivial).trans reads, none⟩
  | other x rest notBlank notComment =>
      rw [afterGap_other notBlank notComment]
      exact ⟨[], .refl _, rfl⟩

/-- After a gap there is no gap. -/
theorem afterGap_afterGap (text : List Char) : afterGap (afterGap text) = afterGap text := by
  induction text using gap_induction with
  | nil => rfl
  | blank x rest isBlank ih => rw [afterGap_blank isBlank, ih]
  | comment rest ih => rw [afterGap_comment, ih]
  | other x rest notBlank notComment =>
      rw [afterGap_other notBlank notComment, afterGap_other notBlank notComment]

/-! ### Words and signs -/

/-- A first character of a name is no blank. -/
theorem isBlank_eq_false_of_isNameStart {x : Char} (isStart : isNameStart x = true) :
    scriptGrammar.isBlank x = false := by
  rw [Bool.eq_false_iff]
  intro isBlank
  simp only [scriptGrammar, Bool.or_eq_true, beq_iff_eq] at isBlank
  rcases isBlank with ((rfl | rfl) | rfl) | rfl <;> cases isStart

/-- A word that is not `use`. -/
theorem reads_word {x : Char} {rest : List Char} (isStart : isNameStart x = true)
    (notUse : x :: rest.takeWhile isNameChar ≠ useWord) :
    Reads (x :: rest) [.word (x :: rest.takeWhile isNameChar)] (rest.dropWhile isNameChar) := by
  refine .one ?_ notUse
  have notSlash : x ≠ '/' := by
    rintro rfl
    cases isStart
  have notQuote : x ≠ '"' := by
    rintro rfl
    cases isStart
  have notHash : x ≠ '#' := by
    rintro rfl
    cases isStart
  simp [Lexeme.next, isBlank_eq_false_of_isNameStart isStart, notSlash, notQuote, notHash, isStart,
    notUse]

/-- The word `use` before a name. -/
theorem reads_use {rest name : List Char} (ends : ∀ x ∈ rest.head?, isNameChar x = false)
    (isName : nextName? rest = some name) : Reads (useWord ++ rest) [.use name] rest := by
  have someName : name ≠ [] := by
    rw [nextName?] at isName
    split at isName
    · cases isName
    · split at isName
      · cases isName
        exact List.cons_ne_nil _ _
      · cases isName
  refine @Reads.one 'u' ('s' :: 'e' :: rest) _ _ ?_ someName
  -- The word ends here, so `use` is all of it.
  have run : rest.takeWhile isNameChar = [] ∧ rest.dropWhile isNameChar = rest := by
    cases rest with
    | nil => exact ⟨rfl, rfl⟩
    | cons x rest => simp [ends x rfl]
  have whole : ('s' :: 'e' :: rest).takeWhile isNameChar = ['s', 'e'] ∧
      ('s' :: 'e' :: rest).dropWhile isNameChar = rest := by
    simp [show isNameChar 's' = true from rfl, show isNameChar 'e' = true from rfl, run]
  rw [Lexeme.next, if_neg (by decide), if_neg (by simp), if_neg (by decide), if_neg (by decide),
    if_pos (by decide)]
  simp [whole, isName, useWord]

/-- Letters lie between `A` and `z`. -/
theorem toNat_of_isAlpha {x : Char} (isAlpha : x.isAlpha = true) :
    65 ≤ x.toNat ∧ x.toNat ≤ 122 := by
  rcases Bool.or_eq_true_iff.mp isAlpha with isUpper | isLower
  · obtain ⟨lower, upper⟩ := of_decide_eq_true isUpper
    exact ⟨UInt32.le_iff_toNat_le.mp lower,
      Nat.le_trans (UInt32.le_iff_toNat_le.mp upper) (by decide)⟩
  · obtain ⟨lower, upper⟩ := Bool.and_eq_true_iff.mp isLower
    exact ⟨Nat.le_trans (by decide) (UInt32.le_iff_toNat_le.mp (of_decide_eq_true lower)),
      UInt32.le_iff_toNat_le.mp (of_decide_eq_true upper)⟩

/-- Digits do not start words. -/
theorem isNameStart_eq_false_of_isDigit {x : Char} (isDigit : x.isDigit = true) :
    isNameStart x = false := by
  rw [Char.isDigit_iff_toNat] at isDigit
  -- Digits come before all letters and the underscore.
  have lower : x.toNat < 65 := Nat.lt_of_le_of_lt isDigit.2 (by decide)
  rw [Bool.eq_false_iff]
  intro isStart
  simp only [isNameStart, Bool.or_eq_true, beq_iff_eq] at isStart
  rcases isStart with isAlpha | rfl
  · have := toNat_of_isAlpha isAlpha
    omega
  · exact absurd lower (by decide)

/-- Signs start no other lexemes. -/
theorem notStart_of_isSign {x : Char} (sign : isSign x = true) :
    scriptGrammar.isBlank x = false ∧ x ≠ '"' ∧ x ≠ '#' ∧ isNameStart x = false := by
  rcases Bool.or_eq_true_iff.mp sign with isDigit | isMember
  · refine ⟨?_, ?_, ?_, isNameStart_eq_false_of_isDigit isDigit⟩
    · rw [Bool.eq_false_iff]
      intro isBlank
      simp only [scriptGrammar, Bool.or_eq_true, beq_iff_eq] at isBlank
      rcases isBlank with ((rfl | rfl) | rfl) | rfl <;> cases isDigit
    · rintro rfl
      cases isDigit
    · rintro rfl
      cases isDigit
  · have all : "()\x7b\x7d[]=,.;|&<>!+-*/%".toList.all (fun y =>
        !scriptGrammar.isBlank y && y != '"' && y != '#' && !isNameStart y) = true := by decide
    have isOther := List.all_eq_true.mp all x (List.contains_iff_mem.mp isMember)
    simp only [Bool.and_eq_true, Bool.not_eq_true', bne_iff_ne] at isOther
    obtain ⟨⟨⟨notBlank, notQuote⟩, notHash⟩, notStart⟩ := isOther
    exact ⟨notBlank, notQuote, notHash, notStart⟩

/-- A sign that starts no comment is read alone. -/
theorem reads_sign {x : Char} {rest : List Char} (sign : isSign x = true)
    (notComment : ¬(x = '/' ∧ rest.head? = some '/')) : Reads (x :: rest) [.other x] rest := by
  refine .one ?_ sign
  obtain ⟨notBlank, notQuote, notHash, notStart⟩ := notStart_of_isSign sign
  rw [Lexeme.next, if_neg (by simp [notBlank]), if_neg notComment, if_neg notQuote, if_neg notHash,
    if_neg (by simp [notStart])]

/-- A string is read up to its closing quote. -/
theorem reads_quoted {text raw rest : List Char} (read : readQuoted text = some (raw, rest)) :
    Reads ('"' :: text) [.quoted raw] rest := by
  refine .one ?_ trivial
  rw [Lexeme.next, if_neg (by decide), if_neg (by simp), if_pos rfl, read]
  rfl

/-! ### Load directives -/

section

variable {gap : List Char} (someGap : gap ≠ []) (blanks : ∀ c ∈ gap, isSpaceOrTab c = true)

include someGap blanks

/-- A load of a quoted target is read as one. -/
theorem reads_loadQuoted {text raw rest : List Char} (read : readQuoted text = some (raw, rest)) :
    Reads (loadMark ++ (gap ++ '"' :: text)) [.load gap true raw] rest := by
  refine @Reads.one '#' (loadMark.tail ++ (gap ++ '"' :: text)) _ _ ?_
    ⟨someGap, blanks, fun isBare => by cases isBare⟩
  have isLoad : readLoad (loadMark.tail ++ (gap ++ '"' :: text)) =
      some (.load gap true raw, rest) := by
    rw [readLoad, Text.dropLead?_eq_some_iff.mpr rfl, Option.bind_some]
    simp [List.takeWhile_append_of_pos blanks, List.dropWhile_append_of_pos blanks, someGap, read,
      isSpaceOrTab]
  rw [Lexeme.next, if_neg (by decide), if_neg (by simp), if_neg (by decide), if_pos rfl, isLoad,
    Option.getD_some]

/-- A load of a bare target is read as one, up to the end of the target. -/
theorem reads_loadBare {x : Char} {rest : List Char} (isTarget : isTargetChar x = true) :
    Reads (loadMark ++ (gap ++ x :: rest)) [.load gap false (x :: rest.takeWhile isTargetChar)]
      (rest.dropWhile isTargetChar) := by
  have all : ∀ c ∈ x :: rest.takeWhile isTargetChar, isTargetChar c = true := by
    intro c member
    rcases List.mem_cons.mp member with rfl | member
    · exact isTarget
    · exact List.all_eq_true.mp List.all_takeWhile c member
  refine @Reads.one '#' (loadMark.tail ++ (gap ++ x :: rest)) _ _ ?_
    ⟨someGap, blanks, fun _ => ⟨List.cons_ne_nil _ _, all⟩⟩
  have notBlank : isSpaceOrTab x = false := by
    rw [Bool.eq_false_iff]
    intro isBlank
    simp only [isSpaceOrTab, Bool.or_eq_true, beq_iff_eq] at isBlank
    rcases isBlank with rfl | rfl <;> cases isTarget
  have notQuote : x ≠ '"' := by
    rintro rfl
    cases isTarget
  have isLoad : readLoad (loadMark.tail ++ (gap ++ x :: rest)) =
      some (.load gap false (x :: rest.takeWhile isTargetChar), rest.dropWhile isTargetChar) := by
    rw [readLoad, Text.dropLead?_eq_some_iff.mpr rfl, Option.bind_some]
    simp [List.takeWhile_append_of_pos blanks, List.dropWhile_append_of_pos blanks, someGap,
      notBlank, notQuote, isTarget]
  rw [Lexeme.next, if_neg (by decide), if_neg (by simp), if_neg (by decide), if_pos rfl, isLoad,
    Option.getD_some]

end

end ScriptShell
