import ScriptShell.Proofs.Syntax.Lexing
import ScriptShell.Proofs.Syntax.Spans

/-! # Reading statement by statement

A fragment is read as its statements one after the other. **`parseChars_append`**: a text that
starts with statements is these followed by what the rest is read as, moved to where it stands; it
is refused exactly when the rest is. **`parseChars_cons`** is that for one statement. -/

namespace ScriptShell

open Grammar

/-! ## Gaps -/

/-- After a gap there is none. -/
theorem Grammar.Cursor.skipFrom_skipFrom {ρ : Type} (g : Grammar ρ) (inComment : Bool)
    (p : Position) (text : List Char) :
    (skipFrom g inComment p text).skipGap g = skipFrom g inComment p text := by
  induction text generalizing inComment p with
  | nil => cases inComment <;> rfl
  | cons x rest ih =>
      cases inComment with
      | true => exact ih _ _
      | false =>
          rw [skipFrom]
          by_cases blank : g.isBlank x = true
          · rw [if_pos blank]
            exact ih _ _
          · rw [if_neg blank]
            by_cases comment : g.commentMark.isPrefixOf (x :: rest) = true
            · rw [if_pos comment]
              exact ih _ _
            · rw [if_neg comment, skipGap, skipFrom, if_neg blank, if_neg comment]

/-- Behind a gap no other gap is skipped. -/
theorem skip_skip (c : Cursor) :
    skip scriptGrammar {} (skip scriptGrammar {} c) = skip scriptGrammar {} c :=
  Cursor.skipFrom_skipFrom scriptGrammar false c.position c.rest

/-- A blank before a text moves it. -/
theorem skip_blank {x : Char} (blank : scriptGrammar.isBlank x = true) (p : Position)
    (text : List Char) : skip scriptGrammar {} ⟨p, x :: text⟩ =
      (skip scriptGrammar {} (Cursor.start text)).moved (p.advance x) := by
  rw [← skip_moved, Cursor.moved_start]
  show Cursor.skipFrom scriptGrammar false p (x :: text) =
    Cursor.skipFrom scriptGrammar false (p.advance x) text
  rw [Cursor.skipFrom, if_pos blank]

/-- Where a text starts with neither a blank nor a comment, no gap is skipped. -/
theorem skip_other {x : Char} {rest : List Char} (notBlank : scriptGrammar.isBlank x = false)
    (notSlash : x ≠ '/') (p : Position) :
    skip scriptGrammar {} ⟨p, x :: rest⟩ = ⟨p, x :: rest⟩ := by
  have noMark : scriptGrammar.commentMark.isPrefixOf (x :: rest) = false := by
    show ('/' == x && ['/'].isPrefixOf rest) = false
    rw [beq_eq_false_iff_ne.mpr notSlash.symm, Bool.false_and]
  show Cursor.skipFrom scriptGrammar false p (x :: rest) = _
  rw [Cursor.skipFrom, notBlank, noMark]
  rfl

/-! ## Sequences of statements -/

/-- Nothing is matched everywhere. -/
theorem Grammar.Cursor.text?_nil (c : Cursor) : c.text? [] = some c := by
  rw [text?, Text.dropLead?_nil]
  rfl

variable {text more : List Char} {c' : Cursor} {ts : List (ParseTree Rule)}

/-- Every text starts with statements, maybe with none. -/
theorem exists_statements (text : List Char) :
    ∃ c' ts, Matches scriptGrammar (.star (.rule .statement)) {}
      (skip scriptGrammar {} (Cursor.start text)) (some (c', ts)) := by
  have start : ∀ {m : Mode} {found}, Matches scriptGrammar .here m (Cursor.start text) found →
      found = some (Cursor.start text, []) := by
    intro m found isMatch
    exact isMatch.unique (.text (Cursor.text?_nil _))
  -- Whether or not a program is matched, its statements are tried first, and that succeeds.
  have whole := matches_call scriptRanked (by decide) Rule.program text
  generalize (scriptGrammar.call _ Rule.program {} (Cursor.start text) {}).result = found at whole
  cases whole with
  | silent isSilent => cases isSilent
  | rule _ inner =>
      obtain ⟨c₁, _, _, atStart, rest, -⟩ := inner.of_seq
      obtain ⟨c₂, ts, _, isMatch, -⟩ := rest.of_seq
      cases start atStart
      exact ⟨c₂, ts, isMatch⟩
  | noRule _ inner =>
      cases inner with
      | seqFirst atStart => cases start atStart
      | seqSecond atStart rest =>
          cases start atStart
          cases rest with
          | seqFirst none => cases none
          | seqSecond isMatch => exact ⟨_, _, isMatch⟩

section

variable (isMatch : Matches scriptGrammar (.star (.rule .statement)) {}
  (skip scriptGrammar {} (Cursor.start text)) (some (c', ts)))

include isMatch

/-- The statements of a text that ends after them. -/
theorem parseChars_of_end (isEnd : afterGap c'.rest = []) :
    parseChars text = Stmt.ofTrees ts 0 := by
  have ended : Matches scriptGrammar (.rule .endOfInput) {} (skip scriptGrammar {} c') _ :=
    .rule (by decide) (.atEnd (by rw [rest_skip, isEnd]))
  have whole : Matches scriptGrammar (.rule .program) {} (Cursor.start text) _ :=
    .rule (by decide) (.seq (.text (Cursor.text?_nil _)) (.seq isMatch ended))
  have all : ts.filter (fun t => t.rule = .statement) = ts :=
    List.filter_eq_self.mpr fun t member => by
      rw [isMatch.rule_of_mem_star (by decide) t member]
      rfl
  have onlyStatements : ∀ last : ParseTree Rule, last.rule = .endOfInput →
      statementsOf ([] ++ (ts ++ [last])) = ts := by
    intro last isLast
    rw [List.nil_append, statementsOf, List.filter_append, all]
    simp [isLast]
  unfold parseChars
  rw [match?_of_matches scriptRanked (by decide) whole]
  exact congrArg (Stmt.ofTrees · 0) (onlyStatements _ rfl)

/-- A text that goes on after its statements is refused. -/
theorem parseChars_of_not_end (notEnd : afterGap c'.rest ≠ []) :
    ∃ e, parseChars text = .error e := by
  have goesOn : Matches scriptGrammar (.rule .endOfInput) {} (skip scriptGrammar {} c') none :=
    .noRule (by decide) (.notAtEnd (by rw [rest_skip]; exact notEnd))
  have noProgram : Matches scriptGrammar (.rule .program) {} (Cursor.start text) none :=
    .noRule (by decide) (.seqSecond (.text (Cursor.text?_nil _)) (.seqSecond isMatch goesOn))
  obtain ⟨e, isError⟩ := match?_of_not_matches scriptRanked (by decide) noProgram
  unfold parseChars
  rw [isError]
  exact ⟨_, rfl⟩

end

/-- A match before others, which start after a gap. What follows them is the same, up to a gap. -/
theorem matches_star_cons {q : Pattern Rule} {c c₁ c₂ : Cursor} {us : List (ParseTree Rule)}
    (first : Matches scriptGrammar q {} c (some (c₁, ts)))
    (others : Matches scriptGrammar (.star q) {} (skip scriptGrammar {} c₁) (some (c₂, us))) :
    ∃ c', Matches scriptGrammar (.star q) {} c (some (c', ts ++ us)) ∧
      afterGap c'.rest = afterGap c₂.rest := by
  cases others with
  | starNone none =>
      refine ⟨c₁, ?_, by rw [rest_skip, afterGap_afterGap]⟩
      rw [List.append_nil]
      exact .starOnce first none
  | starOnce next none => exact ⟨_, .starAgain first next (.starOnce next none), rfl⟩
  | starAgain next next' others =>
      exact ⟨_, .starAgain first next (.starAgain next next' others), rfl⟩

/-- What is built from trees and others. -/
theorem Stmt.ofTrees_append {us : List (ParseTree Rule)} {depth : Nat} {stmts : List Stmt}
    (built : ofTrees ts depth = .ok stmts) :
    ofTrees (ts ++ us) depth = (ofTrees us depth).map (stmts ++ ·) := by
  induction ts generalizing stmts with
  | nil =>
      cases built
      rw [List.nil_append]
      cases ofTrees us depth <;> rfl
  | cons t ts ih =>
      rw [ofTrees] at built
      cases isFirst : ofTree t depth with
      | error => rw [isFirst] at built; cases built
      | ok stmt =>
          cases isRest : ofTrees ts depth with
          | error => rw [isFirst, isRest] at built; cases built
          | ok rest =>
              rw [isFirst, isRest] at built
              cases built
              rw [List.cons_append, ofTrees, isFirst, ih isRest]
              cases ofTrees us depth <;> rfl

/-- **Statements before a text** are read first, and then what the text is read as, moved: where
the statements of the whole text are some trees and, after them, those of the text. -/
theorem parseChars_append {base : Position} {stmts : List Stmt}
    (whole : ∀ {c' us}, Matches scriptGrammar (.star (.rule .statement)) {}
        ((skip scriptGrammar {} (Cursor.start more)).moved base) (some (c', us)) →
      ∃ c'', Matches scriptGrammar (.star (.rule .statement)) {}
        (skip scriptGrammar {} (Cursor.start text)) (some (c'', ts ++ us)) ∧
        afterGap c''.rest = afterGap c'.rest)
    (built : Stmt.ofTrees ts 0 = .ok stmts) :
    (parseChars text).toOption = (parseChars more).toOption.map fun others =>
      stmts ++ Stmt.mapSpanAll (Span.moved base) others := by
  obtain ⟨c', us, isMatch⟩ := exists_statements more
  obtain ⟨c'', isWhole, sameEnd⟩ := whole (isMatch.moved base)
  by_cases isEnd : afterGap c'.rest = []
  · rw [parseChars_of_end isMatch isEnd, parseChars_of_end isWhole (sameEnd.trans isEnd),
      Stmt.ofTrees_append built, Stmt.ofTrees_mapSpan (Span.merging_moved base)]
    cases Stmt.ofTrees us 0 <;> rfl
  · obtain ⟨_, isError⟩ := parseChars_of_not_end isMatch isEnd
    obtain ⟨_, isError'⟩ := parseChars_of_not_end isWhole (sameEnd ▸ isEnd)
    rw [isError, isError']
    rfl

/-- **A statement before a text** is read first. -/
theorem parseChars_cons {t : ParseTree Rule} {c₁ : Cursor} {base : Position} {stmt : Stmt}
    (isFirst : Matches scriptGrammar (.rule .statement) {}
      (skip scriptGrammar {} (Cursor.start text)) (some (c₁, [t])))
    (isRest : skip scriptGrammar {} c₁ = (skip scriptGrammar {} (Cursor.start more)).moved base)
    (built : Stmt.ofTree t 0 = .ok stmt) :
    (parseChars text).toOption = (parseChars more).toOption.map fun stmts =>
      stmt :: Stmt.mapSpanAll (Span.moved base) stmts := by
  have one : Stmt.ofTrees [t] 0 = .ok [stmt] := by
    rw [Stmt.ofTrees, built]
    rfl
  refine parseChars_append (fun others => ?_) one
  rw [← isRest] at others
  exact matches_star_cons isFirst others

/-- The same without places. -/
theorem bareAll_parseChars_cons {t : ParseTree Rule} {c₁ : Cursor} {base : Position} {stmt : Stmt}
    (isFirst : Matches scriptGrammar (.rule .statement) {}
      (skip scriptGrammar {} (Cursor.start text)) (some (c₁, [t])))
    (isRest : skip scriptGrammar {} c₁ = (skip scriptGrammar {} (Cursor.start more)).moved base)
    (built : Stmt.ofTree t 0 = .ok stmt) :
    (parseChars text).toOption.map Stmt.bareAll =
      ((parseChars more).toOption.map Stmt.bareAll).map (stmt.mapSpan (fun _ => default) :: ·) := by
  rw [parseChars_cons isFirst isRest built, Option.map_map, Option.map_map]
  congr 1
  funext stmts
  show _ :: Stmt.bareAll (Stmt.mapSpanAll _ stmts) = _
  rw [Stmt.bareAll_mapSpanAll]
  rfl

end ScriptShell
