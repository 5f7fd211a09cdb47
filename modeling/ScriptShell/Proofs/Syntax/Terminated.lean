import ScriptShell.Proofs.Grammar.Extended
import ScriptShell.Proofs.Grammar.Stretches
import ScriptShell.Proofs.Syntax.Written

/-! # Texts that end with a semicolon

What follows a semicolon at the end of a fragment does not change how the fragment is read:
**`parse_append_line`**. Nothing but a text between quotes, a statement or a block goes over a
semicolon. In a fragment that is read, quotes and braces are closed (`Closed`), so no text between
quotes and no block that is tried goes over its end; and what is tried anywhere in it gives the same
in the longer text, **`Grammar.Matches.extend`**. -/

namespace ScriptShell

open Grammar

/-! ## Quotes and braces -/

/-- How many braces are open after a character outside of quotes, with so many open before it. -/
def braceLevel? (x : Char) (level : Nat) : Option Nat :=
  if x = '"' then none
  else if x = '\x7b' then some (level + 1)
  else if x = '\x7d' then if level = 0 then none else some (level - 1)
  else some level

/-- Texts that close all quotes in them and all braces outside of quotes, with so many of these
opened before. -/
inductive Closed : Nat → List Char → Prop where
  | nil : Closed 0 []
  | quoted {level : Nat} {text raw after : List Char} : readQuoted text = some (raw, after) →
      Closed level after → Closed level ('"' :: text)
  | cons {level level' : Nat} {x : Char} {text : List Char} : braceLevel? x level = some level' →
      Closed level' text → Closed level (x :: text)

variable {i j k level : Nat} {x : Char} {text chars : List Char}

/-- Braces count alike at every level. -/
theorem braceLevel?_add (after : braceLevel? x i = some j) (k : Nat) :
    braceLevel? x (k + i) = some (k + j) := by
  unfold braceLevel? at after ⊢
  split_ifs at after ⊢ <;> simp_all <;> omega

/-- Characters that are no braces and no quotes keep the level. -/
theorem braceLevel?_of_ne (notQuote : x ≠ '"') (notOpening : x ≠ '\x7b') (notClosing : x ≠ '\x7d')
    (level : Nat) : braceLevel? x level = some level := by
  rw [braceLevel?, if_neg notQuote, if_neg notOpening, if_neg notClosing]

/-- At its end a text is closed if no brace is open. -/
theorem closed_nil_iff : Closed level [] ↔ level = 0 := by
  constructor
  · rintro ⟨⟩
    rfl
  · rintro rfl
    exact .nil

/-- A text is closed if it is closed behind its first character, at the level there. -/
theorem closed_cons_iff (after : braceLevel? x i = some j) (k : Nat) (text : List Char) :
    Closed (k + i) (x :: text) ↔ Closed (k + j) text := by
  have after' := braceLevel?_add after k
  generalize k + i = level, k + j = level' at after'
  constructor
  · intro closed
    cases closed with
    | quoted => cases after'
    | cons isLevel rest =>
        rw [after'] at isLevel
        cases isLevel
        exact rest
  · exact .cons after'

/-- In a closed text every quote is closed again. -/
theorem Closed.exists_readQuoted (closed : Closed level ('"' :: text)) :
    ∃ raw after, readQuoted text = some (raw, after) := by
  cases closed with
  | quoted read => exact ⟨_, _, read⟩
  | cons isLevel => cases isLevel

/-- A text is closed if it is closed behind its first string. -/
theorem closed_quoted_iff {raw after : List Char} (read : readQuoted text = some (raw, after)) :
    Closed level ('"' :: text) ↔ Closed level after := by
  constructor
  · intro closed
    cases closed with
    | quoted read' rest =>
        rw [read] at read'
        cases read'
        exact rest
    | cons isLevel => cases isLevel
  · exact .quoted read

/-- How many braces are open after characters outside of quotes. -/
def bracesAfter (chars : List Char) (level : Nat) : Option Nat :=
  chars.foldlM (fun level x => braceLevel? x level) level

/-- A text is closed if it is closed behind some characters, at the level there. -/
theorem closed_append_iff (after : bracesAfter chars i = some j) (k : Nat) (text : List Char) :
    Closed (k + i) (chars ++ text) ↔ Closed (k + j) text := by
  induction chars generalizing i with
  | nil =>
      cases after
      rfl
  | cons x chars ih =>
      obtain ⟨level, first, others⟩ := Option.bind_eq_some_iff.mp after
      exact (closed_cons_iff first k (chars ++ text)).trans (ih others)

/-- Skipping a gap keeps a text closed. -/
theorem closed_skip {m : Mode} {c : Cursor}
    (uncommented : ¬ scriptGrammar.commentMark <:+: c.rest) :
    Closed level (skip scriptGrammar m c).rest ↔ Closed level c.rest := by
  have blanks : ∀ text : List Char,
      Closed level (text.dropWhile scriptGrammar.isBlank) ↔ Closed level text := by
    intro text
    induction text with
    | nil => rfl
    | cons x text ih =>
        by_cases blank : scriptGrammar.isBlank x = true
        · have same : braceLevel? x level = some level := by
            refine braceLevel?_of_ne ?_ ?_ ?_ level <;> rintro rfl <;> cases blank
          have one := closed_cons_iff same 0 text
          rw [Nat.zero_add] at one
          rw [List.dropWhile_cons_of_pos blank, ih, one]
        · rw [List.dropWhile_cons_of_neg blank]
  by_cases loose : m.texture = .loose
  · rw [skip_of_uncommented loose (unmarked_of_uncommented uncommented)]
    exact blanks c.rest
  · rw [skip_eq_self loose]

/-! ## What patterns match -/

namespace Grammar.Pattern

/-- Patterns whose matches may have a semicolon as their last character. -/
def mayEnd : Pattern Rule → Bool
  | .text chars => chars.contains ';'
  | .seq _ q => q.mayEnd
  | .alt p q => p.mayEnd || q.mayEnd
  | .opt p | .star p => p.mayEnd
  | .rule r => r = .terminator || r = .statement
  | .char _ | .ahead _ | .notAhead _ | .atEnd => false

/-- How many braces are open after a match, with so many open before it. There is no answer where
the pattern may match parts of quotes or of what a semicolon ends, nor where it goes on after what
may end with one, unless a brace is open. -/
def levelAfter : Pattern Rule → Nat → Option Nat
  | .text chars, level => if ';' ∈ chars.dropLast then none else bracesAfter chars level
  | .char allowed, level =>
    if allowed ';' || allowed '"' || allowed '\x7b' || allowed '\x7d' then none else some level
  | .seq p q, level => (p.levelAfter level).bind fun between =>
    if p.mayEnd && between == 0 then none else q.levelAfter between
  | .alt p q, level => if p.levelAfter level = q.levelAfter level then p.levelAfter level else none
  | .opt p, level => if p.levelAfter level = some level then some level else none
  | .star p, level =>
    if p.levelAfter level = some level ∧ (p.mayEnd && level == 0) = false then some level else none
  | .ahead p, level | .notAhead p, level => (p.levelAfter level).map fun _ => level
  | .atEnd, _ => none
  | .rule r, level =>
    if r = .program ∨ r = .endOfInput ∨ r = .stringInner then none else some level

/-- Rules leave as many braces open as there were, and so do their patterns. -/
theorem levelAfter_rule {r : Rule} (after : (rule r).levelAfter i = some j) :
    i = j ∧ (r ≠ .string → r.pattern.levelAfter 0 = some 0) ∧
      (r.pattern.mayEnd = true → (rule r).mayEnd = true) := by
  rw [levelAfter] at after
  split_ifs at after with untracked
  cases after
  refine ⟨rfl, ?_, ?_⟩
  · revert untracked
    cases r <;> decide
  · revert untracked
    cases r <;> decide

section

variable {p q : Pattern Rule}

/-- The level behind characters. -/
theorem levelAfter_text (after : (Pattern.text chars).levelAfter i = some j) :
    ';' ∉ chars.dropLast ∧ bracesAfter chars i = some j := by
  rw [levelAfter] at after
  split_ifs at after with inside
  exact ⟨inside, after⟩

/-- The level behind one character. -/
theorem levelAfter_char {allowed : Char → Bool} (after : (char allowed).levelAfter i = some j) :
    i = j ∧ ∀ x, allowed x = true → x ≠ ';' ∧ ∀ level, braceLevel? x level = some level := by
  rw [levelAfter] at after
  split_ifs at after with special
  refine ⟨Option.some.inj after, fun x isAllowed => ?_⟩
  have other : ∀ y, allowed y = false → x ≠ y := by
    rintro y notAllowed rfl
    rw [isAllowed] at notAllowed
    cases notAllowed
  simp only [Bool.not_eq_true, Bool.or_eq_false_iff] at special
  obtain ⟨⟨⟨semicolon, quote⟩, opening⟩, closing⟩ := special
  exact ⟨other _ semicolon,
    braceLevel?_of_ne (other _ quote) (other _ opening) (other _ closing)⟩

/-- The level behind a sequence. -/
theorem levelAfter_seq (after : (seq p q).levelAfter i = some j) :
    ∃ between, p.levelAfter i = some between ∧ (p.mayEnd = true → between ≠ 0) ∧
      q.levelAfter between = some j := by
  obtain ⟨between, first, second⟩ := Option.bind_eq_some_iff.mp after
  split_ifs at second with stops
  refine ⟨between, first, ?_, second⟩
  rintro ends rfl
  exact stops (by simp [ends])

/-- The level behind a choice. -/
theorem levelAfter_alt (after : (alt p q).levelAfter i = some j) :
    p.levelAfter i = some j ∧ q.levelAfter i = some j := by
  rw [levelAfter] at after
  split_ifs at after with same
  exact ⟨after, same ▸ after⟩

/-- The level behind something that may be missing. -/
theorem levelAfter_opt (after : (opt p).levelAfter i = some j) :
    i = j ∧ p.levelAfter i = some i := by
  rw [levelAfter] at after
  split_ifs at after with same
  exact ⟨Option.some.inj after, same⟩

/-- The level behind a repetition. -/
theorem levelAfter_star (after : (star p).levelAfter i = some j) :
    i = j ∧ p.levelAfter i = some i ∧ (p.mayEnd = true → i ≠ 0) := by
  rw [levelAfter] at after
  split_ifs at after with same
  refine ⟨Option.some.inj after, same.1, ?_⟩
  rintro ends rfl
  simpa [ends] using same.2

/-- The level behind a lookahead. -/
theorem levelAfter_look (after : (p.levelAfter i).map (fun _ => i) = some j) :
    i = j ∧ ∃ level, p.levelAfter i = some level := by
  obtain ⟨level, isLevel, same⟩ := Option.map_eq_some_iff.mp after
  exact ⟨same, level, isLevel⟩

end

end Grammar.Pattern

namespace Grammar.Matches

variable {p : Pattern Rule} {m : Mode} {c c' : Cursor} {ts : List (ParseTree Rule)}

/-- **A match leaves open what its pattern says.** -/
theorem closed_iff (isMatch : Matches scriptGrammar p m c (some (c', ts)))
    (after : p.levelAfter i = some j) (uncommented : ¬ scriptGrammar.commentMark <:+: c.rest)
    (k : Nat) : Closed (k + i) c.rest ↔ Closed (k + j) c'.rest := by
  generalize isFound : some (c', ts) = found at isMatch
  induction isMatch generalizing c' ts i j k with
  | text moved =>
      cases isFound
      rw [Cursor.rest_of_text? moved]
      exact closed_append_iff (Pattern.levelAfter_text after).2 k _
  | char moved =>
      cases isFound
      obtain ⟨rfl, other⟩ := Pattern.levelAfter_char after
      obtain ⟨x, isAllowed, isRest⟩ := Cursor.rest_of_char? moved
      rw [isRest]
      exact closed_cons_iff ((other x isAllowed).2 i) k _
  | @seq _ _ m _ _ _ _ _ isFirst _ first second =>
      cases isFound
      obtain ⟨between, isBetween, -, isLast⟩ := Pattern.levelAfter_seq after
      have uncommented₁ := uncommented_of_suffix isFirst.suffix uncommented
      have uncommented₂ := uncommented_of_suffix (suffix_skip scriptGrammar m _) uncommented₁
      exact (first isBetween uncommented k rfl).trans ((closed_skip uncommented₁).symm.trans
        (second isLast uncommented₂ k rfl))
  | altFirst _ first => exact first (Pattern.levelAfter_alt after).1 uncommented k isFound
  | altSecond _ _ _ second => exact second (Pattern.levelAfter_alt after).2 uncommented k isFound
  | opt _ once =>
      obtain ⟨rfl, isLevel⟩ := Pattern.levelAfter_opt after
      exact once isLevel uncommented k isFound
  | optNone =>
      cases isFound
      obtain ⟨rfl, -⟩ := Pattern.levelAfter_opt after
      rfl
  | starNone =>
      cases isFound
      obtain ⟨rfl, -⟩ := Pattern.levelAfter_star after
      rfl
  | starOnce _ _ first =>
      cases isFound
      obtain ⟨rfl, isLevel, -⟩ := Pattern.levelAfter_star after
      exact first isLevel uncommented k rfl
  | @starAgain _ m _ _ _ _ _ _ isFirst _ _ first _ again =>
      cases isFound
      have isSame := after
      obtain ⟨rfl, isLevel, -⟩ := Pattern.levelAfter_star after
      have uncommented₁ := uncommented_of_suffix isFirst.suffix uncommented
      have uncommented₂ := uncommented_of_suffix (suffix_skip scriptGrammar m _) uncommented₁
      exact (first isLevel uncommented k rfl).trans ((closed_skip uncommented₁).symm.trans
        (again isSame uncommented₂ k rfl))
  | ahead | notAhead =>
      cases isFound
      obtain ⟨rfl, -⟩ := Pattern.levelAfter_look after
      rfl
  | silent isSilent _ inner =>
      obtain ⟨rfl, isLevel, -⟩ := Pattern.levelAfter_rule after
      exact inner (isLevel (by rintro rfl; cases isSilent)) uncommented (k + i) isFound
  | @rule r m c c' parts notSilent isMatch inner =>
      cases isFound
      obtain ⟨rfl, isLevel, -⟩ := Pattern.levelAfter_rule after
      by_cases isString : r = .string
      · subst isString
        obtain ⟨text, raw, -, isRest, read, -⟩ := of_string (.rule notSilent isMatch)
        rw [isRest]
        exact closed_quoted_iff read
      · exact inner (isLevel isString) uncommented (k + i) rfl
  | atEnd => cases after
  | noText | noChar | seqFirst | seqSecond | aheadNone | notAheadNone | notAtEnd | noRule =>
      cases isFound

end Grammar.Matches

/-! ## Longer texts -/

/-- Texts that end with a semicolon, without comments and with quotes and braces closed. -/
structure Sealed (level : Nat) (text : List Char) : Prop extends scriptGrammar.Ends ';' text where
  closed : Closed level text

namespace Sealed

variable {p : Pattern Rule} {m : Mode} {c c' : Cursor} {ts : List (ParseTree Rule)}

/-- A gap in a sealed text leaves a sealed one. -/
theorem skip (isSealed : Sealed level c.rest) (m : Mode) :
    Sealed level (skip scriptGrammar m c).rest :=
  ⟨isSealed.toEnds.skip rfl m, (closed_skip isSealed.uncommented).mpr isSealed.closed⟩

/-- A gap in a sealed text is skipped alike in a longer one. -/
theorem skip_extend (isSealed : Sealed level c.rest) (m : Mode) (more : List Char) :
    Grammar.skip scriptGrammar m (c.extend more) = (Grammar.skip scriptGrammar m c).extend more :=
  Grammar.skip_extend rfl (by decide) isSealed.toEnds m more

/-- The text after a match, if there is one. -/
theorem of_ne_nil (isSealed : Sealed (k + i) c.rest)
    (isMatch : Matches scriptGrammar p m c (some (c', ts))) (after : p.levelAfter i = some j)
    (someRest : c'.rest ≠ []) : Sealed (k + j) c'.rest :=
  ⟨isSealed.toEnds.of_suffix isMatch.suffix someRest,
    (isMatch.closed_iff after isSealed.uncommented k).mp isSealed.closed⟩

/-- Nothing is left only where no brace is open. -/
theorem level_of_nil (isSealed : Sealed (k + i) c.rest)
    (isMatch : Matches scriptGrammar p m c (some (c', ts))) (after : p.levelAfter i = some j)
    (noRest : c'.rest = []) : j = 0 := by
  have closed := (isMatch.closed_iff after isSealed.uncommented k).mp isSealed.closed
  rw [noRest, closed_nil_iff] at closed
  omega

/-- A match that goes up to the end is one of a pattern that may. -/
theorem mayEnd_of_nil (isSealed : Sealed (k + i) c.rest)
    (isMatch : Matches scriptGrammar p m c (some (c', ts))) (after : p.levelAfter i = some j)
    (noRest : c'.rest = []) : p.mayEnd = true := by
  generalize isFound : some (c', ts) = found at isMatch
  induction isMatch generalizing c' ts i j k with
  | @text chars m c _ moved =>
      cases isFound
      have last := isSealed.last
      rw [Cursor.rest_of_text? moved, noRest, List.append_nil] at last
      exact List.contains_iff_mem.mpr (List.mem_of_getLast? last)
  | char moved =>
      cases isFound
      obtain ⟨x, isAllowed, isRest⟩ := Cursor.rest_of_char? moved
      have last := isSealed.last
      rw [isRest, noRest] at last
      exact absurd (Option.some.inj last) ((Pattern.levelAfter_char after).2 x isAllowed).1
  | @seq _ _ m _ c₁ _ _ _ isFirst isSecond first second =>
      cases isFound
      obtain ⟨between, isBetween, goesOn, isLast⟩ := Pattern.levelAfter_seq after
      have someRest : c₁.rest ≠ [] := fun none =>
        goesOn (first isSealed isBetween none rfl) (isSealed.level_of_nil isFirst isBetween none)
      exact second ((isSealed.of_ne_nil isFirst isBetween someRest).skip m) isLast noRest rfl
  | altFirst _ first =>
      have mayEnd := first isSealed (Pattern.levelAfter_alt after).1 noRest isFound
      simp [Pattern.mayEnd, mayEnd]
  | altSecond _ _ _ second =>
      have mayEnd := second isSealed (Pattern.levelAfter_alt after).2 noRest isFound
      simp [Pattern.mayEnd, mayEnd]
  | opt _ once => exact once isSealed (Pattern.levelAfter_opt after).2 noRest isFound
  | optNone | starNone | ahead | notAhead =>
      cases isFound
      exact absurd noRest isSealed.ne_nil
  | starOnce _ _ first =>
      cases isFound
      exact first isSealed (Pattern.levelAfter_star after).2.1 noRest rfl
  | @starAgain _ m _ c₁ _ _ _ _ isFirst _ _ first _ again =>
      cases isFound
      have isSame := after
      obtain ⟨rfl, isLevel, -⟩ := Pattern.levelAfter_star after
      by_cases none : c₁.rest = []
      · exact first isSealed isLevel none rfl
      · exact again ((isSealed.of_ne_nil isFirst isLevel none).skip m) isSame noRest rfl
  | silent isSilent _ inner =>
      obtain ⟨rfl, isLevel, mayEnd⟩ := Pattern.levelAfter_rule after
      exact mayEnd (inner (k := k + i) isSealed (isLevel (by rintro rfl; cases isSilent)) noRest
        isFound)
  | @rule r m c c' parts notSilent isMatch inner =>
      cases isFound
      obtain ⟨rfl, isLevel, mayEnd⟩ := Pattern.levelAfter_rule after
      by_cases isString : r = .string
      · -- The last character would be a quote.
        subst isString
        obtain ⟨text, raw, -, isRest, read, -⟩ := of_string (.rule notSilent isMatch)
        have last := isSealed.last
        rw [isRest, chars_readQuoted read, noRest, ← List.cons_append, List.getLast?_concat] at last
        exact absurd (Option.some.inj last) (by decide)
      · exact mayEnd (inner (k := k + i) isSealed (isLevel isString) noRest rfl)
  | atEnd => cases after
  | noText | noChar | seqFirst | seqSecond | aheadNone | notAheadNone | notAtEnd | noRule =>
      cases isFound

/-- The text after a match of a pattern that something follows. -/
theorem of_matches (isSealed : Sealed (k + i) c.rest)
    (isMatch : Matches scriptGrammar p m c (some (c', ts))) (after : p.levelAfter i = some j)
    (goesOn : p.mayEnd = true → j ≠ 0) : Sealed (k + j) c'.rest :=
  isSealed.of_ne_nil isMatch after fun none =>
    goesOn (isSealed.mayEnd_of_nil isMatch after none) (isSealed.level_of_nil isMatch after none)

end Sealed

namespace Grammar.Matches

variable {p : Pattern Rule} {m : Mode} {c c' : Cursor} {found : Found Rule}

/-- A text between quotes is closed or does not come next, in the longer text too. -/
theorem extend_string (isMatch : Matches scriptGrammar (.rule .string) m c found)
    (isSealed : Sealed level c.rest) (more : List Char) :
    Matches scriptGrammar (.rule .string) m (c.extend more)
      (found.map fun r => (r.1.extend more, r.2)) := by
  obtain ⟨p, rest⟩ := c
  obtain ⟨x, text, rfl⟩ := List.exists_cons_of_ne_nil isSealed.ne_nil
  by_cases isQuote : x = '"'
  · subst isQuote
    obtain ⟨raw, after, read⟩ := isSealed.closed.exists_readQuoted
    rw [isMatch.unique (matches_quoted read m p)]
    exact matches_quoted (readQuoted_append read more) m p
  · have noString : ∀ text, Matches scriptGrammar (.rule .string) m ⟨p, x :: text⟩ none :=
      fun text => .noRule (by decide)
        (.seqFirst (not_matches_lit_of_head '"' rfl (by simpa using isQuote)))
    rw [isMatch.unique (noString text)]
    exact noString (text ++ more)

/-- **What is tried in a text gives the same in a longer one**, before a semicolon at the end of the
shorter one. -/
theorem extend (isMatch : Matches scriptGrammar p m c found) (after : p.levelAfter i = some j)
    (isSealed : Sealed (k + i) c.rest) (more : List Char) :
    Matches scriptGrammar p m (c.extend more) (found.map fun r => (r.1.extend more, r.2)) := by
  induction isMatch generalizing i j k with
  | text moved => exact .text (Cursor.text?_extend moved)
  | noText notText =>
      have inside := (Pattern.levelAfter_text after).1
      exact .noText (Cursor.text?_extend_none isSealed.last inside notText)
  | char moved =>
      refine .char ?_
      rw [Cursor.char?_extend isSealed.ne_nil, moved]
      rfl
  | noChar notChar =>
      refine .noChar ?_
      rw [Cursor.char?_extend isSealed.ne_nil, notChar]
      rfl
  | @seq _ _ m _ _ _ _ _ isFirst _ first second =>
      obtain ⟨between, isBetween, goesOn, isLast⟩ := Pattern.levelAfter_seq after
      have sealed₁ := isSealed.of_matches isFirst isBetween goesOn
      have next := second isLast (sealed₁.skip m)
      rw [← sealed₁.skip_extend] at next
      exact .seq (first isBetween isSealed) next
  | seqFirst _ first =>
      obtain ⟨between, isBetween, -⟩ := Pattern.levelAfter_seq after
      exact .seqFirst (first isBetween isSealed)
  | @seqSecond _ _ m _ _ _ isFirst _ first second =>
      obtain ⟨between, isBetween, goesOn, isLast⟩ := Pattern.levelAfter_seq after
      have sealed₁ := isSealed.of_matches isFirst isBetween goesOn
      have next := second isLast (sealed₁.skip m)
      rw [← sealed₁.skip_extend] at next
      exact .seqSecond (first isBetween isSealed) next
  | altFirst _ first => exact .altFirst (first (Pattern.levelAfter_alt after).1 isSealed)
  | altSecond _ _ first second =>
      obtain ⟨isFirst, isSecond⟩ := Pattern.levelAfter_alt after
      exact .altSecond (first isFirst isSealed) (second isSecond isSealed)
  | opt _ once => exact .opt (once (Pattern.levelAfter_opt after).2 isSealed)
  | optNone _ once => exact .optNone (once (Pattern.levelAfter_opt after).2 isSealed)
  | starNone _ first => exact .starNone (first (Pattern.levelAfter_star after).2.1 isSealed)
  | @starOnce _ m _ _ _ isFirst _ first second =>
      obtain ⟨rfl, isLevel, goesOn⟩ := Pattern.levelAfter_star after
      have sealed₁ := isSealed.of_matches isFirst isLevel goesOn
      have next := second isLevel (sealed₁.skip m)
      rw [← sealed₁.skip_extend] at next
      exact .starOnce (first isLevel isSealed) next
  | @starAgain _ m _ _ _ _ _ _ isFirst _ _ first second again =>
      have isSame := after
      obtain ⟨rfl, isLevel, goesOn⟩ := Pattern.levelAfter_star after
      have sealed₁ := isSealed.of_matches isFirst isLevel goesOn
      have next := second isLevel (sealed₁.skip m)
      have others := again isSame (sealed₁.skip m)
      rw [← sealed₁.skip_extend] at next others
      exact .starAgain (first isLevel isSealed) next others
  | ahead _ inner =>
      obtain ⟨-, level, isLevel⟩ := Pattern.levelAfter_look after
      exact .ahead (inner isLevel isSealed)
  | aheadNone _ inner =>
      obtain ⟨-, level, isLevel⟩ := Pattern.levelAfter_look after
      exact .aheadNone (inner isLevel isSealed)
  | notAhead _ inner =>
      obtain ⟨-, level, isLevel⟩ := Pattern.levelAfter_look after
      exact .notAhead (inner isLevel isSealed)
  | notAheadNone _ inner =>
      obtain ⟨-, level, isLevel⟩ := Pattern.levelAfter_look after
      exact .notAheadNone (inner isLevel isSealed)
  | atEnd | notAtEnd => cases after
  | silent isSilent _ inner =>
      obtain ⟨rfl, isLevel, -⟩ := Pattern.levelAfter_rule after
      exact .silent isSilent (inner (k := k + i) (isLevel (by rintro rfl; cases isSilent)) isSealed)
  | @rule r m c c' parts notSilent isMatch inner =>
      obtain ⟨rfl, isLevel, -⟩ := Pattern.levelAfter_rule after
      by_cases isString : r = .string
      · subst isString
        exact extend_string (.rule notSilent isMatch) isSealed more
      · have whole := Matches.rule notSilent (inner (k := k + i) (isLevel isString) isSealed)
        rw [ruleTrees_extend isMatch.suffix] at whole
        exact whole
  | @noRule r m c notSilent isMatch inner =>
      obtain ⟨rfl, isLevel, -⟩ := Pattern.levelAfter_rule after
      by_cases isString : r = .string
      · subst isString
        exact extend_string (.noRule notSilent isMatch) isSealed more
      · exact .noRule notSilent (inner (k := k + i) (isLevel isString) isSealed)

end Grammar.Matches

/-! ## Statements before a semicolon at the end -/

/-- Outside of braces, a statement leaves none open. -/
theorem levelAfter_statement : (Pattern.rule Rule.statement).levelAfter 0 = some 0 := rfl

section

variable {c c' : Cursor} {ts : List (ParseTree Rule)}
  (isMatch : Matches scriptGrammar (.star (.rule .statement)) {} c (some (c', ts)))

include isMatch

/-- Statements close what they open, each one by itself. -/
theorem closed_of_statements (uncommented : ¬ scriptGrammar.commentMark <:+: c.rest)
    (closed : Closed 0 c'.rest) : Closed 0 c.rest := by
  generalize isPattern : Pattern.star (.rule Rule.statement) = star at isMatch
  generalize ({} : Mode) = m at isMatch
  generalize isFound : some (c', ts) = found at isMatch
  induction isMatch generalizing c' ts with
  | starNone =>
      cases isFound
      exact closed
  | starOnce first =>
      cases isPattern
      cases isFound
      exact (first.closed_iff levelAfter_statement uncommented 0).mpr closed
  | @starAgain _ m _ c₁ _ _ _ _ first _ _ _ _ again =>
      cases isPattern
      cases isFound
      have uncommented₁ := uncommented_of_suffix first.suffix uncommented
      have uncommented₂ := uncommented_of_suffix (suffix_skip scriptGrammar m c₁) uncommented₁
      exact (first.closed_iff levelAfter_statement uncommented 0).mpr
        ((closed_skip uncommented₁).mp (again uncommented₂ closed rfl rfl))
  | _ => cases isPattern

/-- Statements up to a semicolon at the end go on with those of any text after it. -/
theorem matches_star_extend (isSealed : Sealed 0 c.rest) (isEnd : afterGap c'.rest = [])
    (more : List Char) :
    c'.rest = [] ∧ ∀ {c₂ us}, Matches scriptGrammar (.star (.rule .statement)) {}
        (skip scriptGrammar {} ⟨c'.position, more⟩) (some (c₂, us)) →
      ∃ c'', Matches scriptGrammar (.star (.rule .statement)) {} (c.extend more)
        (some (c'', ts ++ us)) ∧ afterGap c''.rest = afterGap c₂.rest := by
  -- A text that ends with a semicolon is more than a gap.
  have notGap : ∀ {c : Cursor}, Sealed 0 c.rest → afterGap c.rest ≠ [] := by
    intro c isSealed
    rw [← rest_skip]
    exact (isSealed.skip {}).ne_nil
  generalize isPattern : Pattern.star (.rule Rule.statement) = star at isMatch
  generalize isMode : ({} : Mode) = m at isMatch
  generalize isFound : some (c', ts) = found at isMatch
  induction isMatch generalizing c' ts with
  | starNone =>
      cases isFound
      exact absurd isEnd (notGap isSealed)
  | @starOnce _ _ c c₁ ts first =>
      cases isPattern
      cases isMode
      cases isFound
      have noRest : c₁.rest = [] := by
        by_contra someRest
        exact notGap (isSealed.of_ne_nil (k := 0) first levelAfter_statement someRest) isEnd
      refine ⟨noRest, fun others => ?_⟩
      have isFirst := first.extend (k := 0) levelAfter_statement isSealed more
      have atEnd : c₁.extend more = ⟨c₁.position, more⟩ := by
        rw [Cursor.extend, noRest, List.nil_append]
      rw [Option.map_some, atEnd] at isFirst
      exact matches_star_cons isFirst others
  | @starAgain _ _ c c₁ ts _ _ us first next _ _ _ again =>
      cases isPattern
      cases isMode
      cases isFound
      have someRest : c₁.rest ≠ [] := by
        intro none
        have shorter := next.length_lt scriptRanked (by decide)
        rw [rest_skip, none] at shorter
        exact Nat.not_lt_zero _ shorter
      have sealed₁ := isSealed.of_ne_nil (k := 0) first levelAfter_statement someRest
      obtain ⟨noRest, goesOn⟩ := again (sealed₁.skip {}) isEnd rfl rfl rfl
      refine ⟨noRest, fun others => ?_⟩
      obtain ⟨c'', whole, sameEnd⟩ := goesOn others
      rw [← sealed₁.skip_extend] at whole
      obtain ⟨c₃, all, sameEnd'⟩ :=
        matches_star_cons (first.extend (k := 0) levelAfter_statement isSealed more) whole
      rw [← List.append_assoc] at all
      exact ⟨c₃, all, sameEnd'.trans sameEnd⟩
  | _ => cases isPattern

end

/-- Two readings of which one succeeds exactly if the other does. -/
theorem ok_iff_of_toOption_eq {ε α β : Type} {x : Except ε β} {y : Except ε α} {f : α → β}
    (same : x.toOption = y.toOption.map f) (b : β) :
    x = .ok b ↔ ∃ a, y = .ok a ∧ b = f a := by
  cases x with
  | error =>
      cases y with
      | error => simp
      | ok => cases same
  | ok b' =>
      cases y with
      | error => cases same
      | ok a =>
          have isImage : b' = f a := Option.some.inj same
          simp [isImage, eq_comm]

/-- The point after a text and a line feed. -/
theorem advance_lineFeed (text : String) :
    (Position.advanceAll {} text.toList).advance '\n' =
      ⟨text.utf8ByteSize + 1, text.toList.count '\n' + 1, 0⟩ := by
  rw [Position.advance, if_pos rfl, Position.offset_advanceAll, Position.line_advanceAll,
    String.ofList_toList, Nat.zero_add]
  rfl

/-- **What follows a semicolon does not change what stands before it.** Take a fragment `a` that is
accepted, ends with a semicolon and has no comments. Then `a` and a text `b` on the lines after it
are accepted exactly if `b` is, and the statements are those of `a`, where they were, and those of
`b`, moved to where `b` stands: by the bytes of `a` and one, by its line feeds and one, and with
columns counted from the start of the line. -/
theorem parse_append_line {a : String} {first : List Stmt} (accepted : parse a = .ok first)
    (ends : a.toList.getLast? = some ';') (uncommented : ¬ "//".toList <:+: a.toList) (b : String)
    (stmts : List Stmt) :
    let base : Position := ⟨a.utf8ByteSize + 1, a.toList.count '\n' + 1, 0⟩
    parse (a ++ "\n" ++ b) = .ok stmts ↔ ∃ second, parse b = .ok second ∧
      stmts = first ++ Stmt.mapSpanAll (Span.moved base) second := by
  intro base
  obtain ⟨c', ts, isMatch⟩ := exists_statements a.toList
  have isEnd : afterGap c'.rest = [] := by
    by_contra goesOn
    obtain ⟨e, refused⟩ := parseChars_of_not_end isMatch goesOn
    rw [parse, refused] at accepted
    cases accepted
  rw [parse, parseChars_of_end isMatch isEnd] at accepted
  -- Quotes and braces are closed up to the end, and so from the start on.
  have isEnds : scriptGrammar.Ends ';' (Cursor.start a.toList).rest := ⟨ends, uncommented⟩
  have endsStart := isEnds.skip rfl {}
  have closedEnd : Closed 0 c'.rest := by
    have uncommented' := uncommented_of_suffix isMatch.suffix endsStart.uncommented
    rw [← closed_skip (m := {}) uncommented', rest_skip, isEnd]
    exact .nil
  have isSealed : Sealed 0 (skip scriptGrammar {} (Cursor.start a.toList)).rest :=
    ⟨endsStart, closed_of_statements isMatch endsStart.uncommented closedEnd⟩
  obtain ⟨noRest, goesOn⟩ := matches_star_extend isMatch isSealed isEnd ('\n' :: b.toList)
  -- The statements of `a` end where `a` does, and the line feed after it is a gap.
  have isBase : c'.position.advance '\n' = base := by
    have starts := Cursor.Reaches.skip scriptGrammar {} (Cursor.start a.toList)
    obtain ⟨text, isText, isPosition⟩ := starts.trans (isMatch.laid starts).1
    rw [noRest, List.append_nil] at isText
    rw [isPosition, ← isText]
    exact advance_lineFeed a
  have isStart : skip scriptGrammar {} (Cursor.start (a.toList ++ '\n' :: b.toList)) =
      (skip scriptGrammar {} (Cursor.start a.toList)).extend ('\n' :: b.toList) :=
    skip_extend rfl (by decide) isEnds {} _
  have whole : (parseChars (a.toList ++ '\n' :: b.toList)).toOption =
      (parseChars b.toList).toOption.map fun second =>
        first ++ Stmt.mapSpanAll (Span.moved base) second := by
    refine parseChars_append (fun others => ?_) accepted
    rw [← isBase, ← skip_blank rfl] at others
    rw [isStart]
    exact goesOn others
  have isText : (a ++ "\n" ++ b).toList = a.toList ++ '\n' :: b.toList := by
    simp
  rw [parse, isText, parse]
  exact ok_iff_of_toOption_eq whole stmts

/-- On the line after a semicolon an expression is a statement of its own, and a branch belongs to
nothing. -/
theorem parse_append_line_branch :
    let a := "if f(\"\x7d;\")\n\x7b g() \x7d;"
    let b := "(1)\n+ 2"
    let base : Position := ⟨20, 2, 0⟩
    a.toList.getLast? = some ';' ∧ ¬ "//".toList <:+: a.toList ∧
      (∃ first second, parse a = .ok first ∧ parse b = .ok second ∧
        parse (a ++ "\n" ++ b) = .ok (first ++ Stmt.mapSpanAll (Span.moved base) second)) ∧
      ∀ stmts, parse (a ++ "\n" ++ "else \x7b \x7d") ≠ .ok stmts := by
  intro a b base
  have ends : a.toList.getLast? = some ';' := by decide +kernel
  have uncommented : ¬ "//".toList <:+: a.toList := by decide +kernel
  have isBase : base = ⟨a.utf8ByteSize + 1, a.toList.count '\n' + 1, 0⟩ := by decide +kernel
  have parses : (parse a).toOption.any (fun _ => true) = true := by decide +kernel
  have parses' : (parse b).toOption.any (fun _ => true) = true := by decide +kernel
  have refused : (parse "else \x7b \x7d").toOption.isNone = true := by decide +kernel
  obtain ⟨first, accepted, -⟩ := exists_parse_of_any parses
  obtain ⟨second, accepted', -⟩ := exists_parse_of_any parses'
  have whole := parse_append_line accepted ends uncommented
  refine ⟨ends, uncommented, ⟨first, second, accepted, accepted', ?_⟩, ?_⟩
  · rw [isBase]
    exact (whole b _).mpr ⟨second, accepted', rfl⟩
  · intro stmts isWhole
    obtain ⟨others, isBranch, -⟩ := (whole _ stmts).mp isWhole
    rw [isBranch] at refused
    cases refused

end ScriptShell
