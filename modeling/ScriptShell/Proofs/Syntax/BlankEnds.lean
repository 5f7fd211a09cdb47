import ScriptShell.Proofs.Grammar.Extended
import ScriptShell.Proofs.Syntax.Written

/-! # Blanks at the end of a text

What is tried in a text is tried in the same places if blanks are put behind the text. A gap that
goes up to the end takes in the blanks, and other gaps stay what they are (`Stands`). Inside tokens,
strings and load directives no gap is skipped, and they match the same: **`rule_append_blanks`**. -/

namespace ScriptShell

open Grammar

/-- Texts that are nothing but blanks. -/
def AllBlank (text : List Char) : Prop :=
  ∀ x ∈ text, scriptGrammar.isBlank x = true

instance (text : List Char) : Decidable (AllBlank text) :=
  List.decidableBAll _ text

variable {v text chars : List Char} {p : Pattern Rule} {m : Mode} {c d : Cursor}
  {found : Found Rule}

/-- A text without blanks starts a text with blanks at its end only if it starts it without. -/
theorem prefix_append_blanks_iff (blanks : AllBlank v)
    (solid : ∀ x ∈ chars, scriptGrammar.isBlank x = false) :
    chars <+: text ++ v ↔ chars <+: text := by
  refine ⟨fun starts => ?_, fun starts => starts.trans (List.prefix_append text v)⟩
  rcases List.prefix_or_prefix_of_prefix starts (List.prefix_append text v) with shorter | longer
  · exact shorter
  · obtain ⟨more, rfl⟩ := longer
    cases more with
    | nil => simp
    | cons x more =>
        have isBlank := blanks x (((List.prefix_append_right_inj text).mp starts).subset (.head _))
        rw [solid x (List.mem_append_right _ (.head _))] at isBlank
        cases isBlank

/-! ## Gaps -/

/-- Where a point of a text is if blanks are put behind the text: before them, or after them if it
was at the end. -/
def Stands (v : List Char) (c d : Cursor) : Prop :=
  d = c.extend v ∨ c.rest = [] ∧ d = ⟨c.position.advanceAll v, []⟩

/-- Blanks are skipped, in a comment and outside. -/
theorem skipFrom_blanks (blanks : AllBlank v) (inComment : Bool) (p : Position) :
    Cursor.skipFrom scriptGrammar inComment p v = ⟨p.advanceAll v, []⟩ := by
  induction v generalizing inComment p with
  | nil => cases inComment <;> rfl
  | cons x v ih =>
      have others := ih fun y member => blanks y (.tail _ member)
      cases inComment with
      | true => exact others _ _
      | false =>
          rw [Cursor.skipFrom, if_pos (blanks x (.head _))]
          exact others _ _

/-- A gap takes in the blanks at the end if it goes up to there, and is the same if not. -/
theorem skipFrom_append_blanks (blanks : AllBlank v) (inComment : Bool) (p : Position)
    (text : List Char) :
    let c := Cursor.skipFrom scriptGrammar inComment p text
    Cursor.skipFrom scriptGrammar inComment p (text ++ v) =
      if c.rest = [] then ⟨c.position.advanceAll v, []⟩ else c.extend v := by
  induction text generalizing inComment p with
  | nil => cases inComment <;> exact skipFrom_blanks blanks _ p
  | cons x text ih =>
      cases inComment with
      | true => exact ih _ _
      | false =>
          have noBlank : ∀ x ∈ scriptGrammar.commentMark, scriptGrammar.isBlank x = false :=
            List.forall_mem_cons.mpr ⟨rfl, List.forall_mem_singleton.mpr rfl⟩
          have sameMark : scriptGrammar.commentMark.isPrefixOf (x :: (text ++ v)) =
              scriptGrammar.commentMark.isPrefixOf (x :: text) := by
            rw [Bool.eq_iff_iff, List.isPrefixOf_iff_prefix, List.isPrefixOf_iff_prefix,
              ← List.cons_append]
            exact prefix_append_blanks_iff blanks noBlank
          simp only [List.cons_append, Cursor.skipFrom, sameMark]
          by_cases isBlank : scriptGrammar.isBlank x = true
          · simp only [if_pos isBlank]
            exact ih _ _
          · simp only [if_neg isBlank]
            by_cases isMark : scriptGrammar.commentMark.isPrefixOf (x :: text) = true
            · simp only [if_pos isMark]
              exact ih _ _
            · simp only [if_neg isMark]
              rfl

/-- At the end of a text no gap is skipped. -/
theorem skip_of_nil (noRest : c.rest = []) (m : Mode) : skip scriptGrammar m c = c := by
  obtain ⟨p, rest⟩ := c
  subst noRest
  unfold skip
  split <;> rfl

namespace Stands

/-- Skipping a gap keeps two cursors in step, the one before some blanks and the other one behind
them. -/
theorem skip (blanks : AllBlank v) (stands : Stands v c d) (m : Mode) :
    Stands v (skip scriptGrammar m c) (skip scriptGrammar m d) := by
  rcases stands with rfl | ⟨noRest, rfl⟩
  · by_cases loose : m.texture = .loose
    · have isGap := skipFrom_append_blanks blanks false c.position c.rest
      simp only [Grammar.skip, if_pos loose, Cursor.skipGap, Cursor.rest_extend]
      refine (em _).symm.imp (fun someRest => ?_) fun noRest => ⟨noRest, ?_⟩
      · exact isGap.trans (if_neg someRest)
      · exact isGap.trans (if_pos noRest)
    · rw [skip_eq_self loose, skip_eq_self loose]
      exact .inl rfl
  · rw [skip_of_nil noRest, skip_of_nil rfl]
    exact .inr ⟨noRest, rfl⟩

/-- What is left after a gap is left with blanks at the end, too. -/
theorem afterGap_eq_nil_iff (blanks : AllBlank v) (stands : Stands v c d) :
    afterGap d.rest = [] ↔ afterGap c.rest = [] := by
  rcases stands with rfl | ⟨noRest, rfl⟩
  · have isGap := skipFrom_append_blanks blanks false c.position c.rest
    rw [← rest_skip, ← rest_skip]
    show (Cursor.skipFrom scriptGrammar false c.position (c.rest ++ v)).rest = [] ↔
      (Cursor.skipFrom scriptGrammar false c.position c.rest).rest = []
    rw [isGap]
    by_cases noRest : (Cursor.skipFrom scriptGrammar false c.position c.rest).rest = []
    · simp [noRest]
    · simp [noRest]
  · rw [noRest]

end Stands

/-! ## Patterns that no blank matches -/

namespace Grammar.Pattern

/-- Whether a pattern takes no blank itself and calls only rules of a class. -/
def isUnblank (called : Rule → Bool) : Pattern Rule → Bool
  | .text chars => !chars.isEmpty && chars.all fun x => !scriptGrammar.isBlank x
  | .char allowed => [' ', '\t', '\r', '\n'].all fun x => !allowed x
  | .seq p q | .alt p q => p.isUnblank called && q.isUnblank called
  | .opt p | .star p | .ahead p | .notAhead p => p.isUnblank called
  | .atEnd => false
  | .rule r => called r

/-- A text pattern that needs no blanks is not empty and has none. -/
theorem isUnblank_text {called : Rule → Bool}
    (unblank : (Pattern.text chars).isUnblank called = true) :
    chars ≠ [] ∧ ∀ x ∈ chars, scriptGrammar.isBlank x = false := by
  simp only [isUnblank, Bool.and_eq_true, Bool.not_eq_true', List.all_eq_true] at unblank
  exact ⟨by simpa using unblank.1, unblank.2⟩

/-- A character pattern that needs no blanks refuses them. -/
theorem isUnblank_char {called : Rule → Bool} {allowed : Char → Bool}
    (unblank : (Pattern.char allowed).isUnblank called = true) {x : Char}
    (isBlank : scriptGrammar.isBlank x = true) : allowed x = false := by
  simp only [isUnblank, List.all_eq_true, Bool.not_eq_true'] at unblank
  refine unblank x ?_
  simpa [scriptGrammar, or_assoc] using isBlank

end Grammar.Pattern

/-- The rules for tokens and strings. -/
def Rule.isLexical : Rule → Bool
  | .identChar | .kwLet | .kwFn | .kwUse | .kwIf | .kwElse | .kwWhile | .kwAwait | .keyword
  | .identifier | .bareTarget | .number | .string | .boolean | .nullLit => true
  | _ => false

/-- Lexical rules need no blanks, but for strings. -/
theorem isUnblank_lexical {r : Rule} (lexical : r.isLexical = true) (notString : r ≠ .string) :
    r.pattern.isUnblank Rule.isLexical = true := by
  revert lexical notString
  cases r <;> decide

/-- Inside the rules that may not be empty gaps are not skipped, or blanks are not taken. -/
theorem tight_or_isUnblank {r : Rule} (notEmpty : r.isNullable = false) :
    (r.kind = .token ∨ r.kind = .solid) ∨
      r.kind ≠ .token ∧ r.pattern.isUnblank (!·.isNullable) = true := by
  revert notEmpty
  cases r <;> decide

/-! ## Where nothing is left -/

/-- Some outcome every rule has. -/
theorem exists_matches (r : Rule) (m : Mode) (c : Cursor) :
    ∃ found, Matches scriptGrammar (.rule r) m c found :=
  ⟨_, call_matches scriptRanked _ r m c {} (Nat.lt_succ_self _)⟩

/-- At the end of a text no rule matches but those that may be empty. -/
theorem not_matches_nil {r : Rule} (notEmpty : r.isNullable = false) (m : Mode)
    (noRest : c.rest = []) : Matches scriptGrammar (.rule r) m c none := by
  obtain ⟨found, isMatch⟩ := exists_matches r m c
  cases found with
  | none => exact isMatch
  | some r =>
      have shorter := isMatch.length_lt scriptRanked notEmpty
      rw [noRest] at shorter
      exact absurd shorter (Nat.not_lt_zero _)

/-! ## Tokens and strings -/

/-- Characters that do not come next do not come next before blanks at the end either. -/
theorem text?_append_blanks_none (blanks : AllBlank v)
    (solid : ∀ x ∈ chars, scriptGrammar.isBlank x = false) (notText : c.text? chars = none) :
    (c.extend v).text? chars = none := by
  rw [Cursor.text?, Option.map_eq_none_iff, Option.eq_none_iff_forall_ne_some] at notText ⊢
  intro after isText
  have starts : chars <+: c.rest ++ v := ⟨after, (Text.dropLead?_eq_some_iff.mp isText).symm⟩
  obtain ⟨rest, isRest⟩ := (prefix_append_blanks_iff blanks solid).mp starts
  exact notText rest (Text.dropLead?_eq_some_iff.mpr isRest.symm)

/-- One character is matched alike before blanks at the end. -/
theorem char?_append_blanks (blanks : AllBlank v) {allowed : Char → Bool}
    (refused : ∀ x, scriptGrammar.isBlank x = true → allowed x = false) :
    (c.extend v).char? allowed = (c.char? allowed).map (Cursor.extend v) := by
  by_cases noRest : c.rest = []
  · have noChar : c.char? allowed = none := by rw [Cursor.char?, noRest]
    rw [noChar, Cursor.char?, Cursor.rest_extend, noRest, List.nil_append]
    cases v with
    | nil => rfl
    | cons x v => simp [refused x (blanks x (.head _))]
  · exact Cursor.char?_extend noRest

/-- A text between quotes that is not closed is not closed by blanks. -/
theorem readQuoted_append_blanks (blanks : AllBlank v) (unread : readQuoted text = none) :
    readQuoted (text ++ v) = none := by
  have open_ : ∀ {more : List Char}, AllBlank more → readQuoted more = none := by
    intro more isBlank
    rw [Option.eq_none_iff_forall_ne_some]
    rintro ⟨raw, after⟩ read
    have quote := isBlank '"' (by rw [chars_readQuoted read]; simp)
    cases quote
  fun_induction readQuoted text with
  | case1 => exact open_ blanks
  | case2 => cases unread
  | case3 =>
      cases v with
      | nil => rfl
      | cons x v =>
          have others : AllBlank v := fun y member => blanks y (.tail _ member)
          show (readQuoted v).map _ = none
          rw [open_ others]
          rfl
  | case4 x rest ih =>
      rw [Option.map_eq_none_iff] at unread
      show (readQuoted (rest ++ v)).map _ = none
      rw [ih unread]
      rfl
  | case5 x rest notQuote notLast notEscape ih =>
      rw [Option.map_eq_none_iff] at unread
      have notBackslash := ne_backslash notLast notEscape
      rw [List.cons_append, readQuoted, ih unread]
      · rfl
      · exact fun isQuote => notQuote isQuote
      · exact fun isLast _ => notBackslash isLast
      · exact fun _ _ isEscape _ => notBackslash isEscape

/-- What is found before a text goes on. -/
def Grammar.Found.extend (v : List Char) (found : Found Rule) : Found Rule :=
  found.map fun r => (r.1.extend v, r.2)

/-- A string is closed or not, with blanks at the end too. -/
theorem string_append_blanks (blanks : AllBlank v)
    (isMatch : Matches scriptGrammar (.rule .string) m c found) :
    Matches scriptGrammar (.rule .string) m (c.extend v) (Found.extend v found) := by
  obtain ⟨p, rest⟩ := c
  have noString : ∀ {p text}, (∀ x ∈ List.head? text, x ≠ '"') →
      Matches scriptGrammar (.rule .string) m ⟨p, text⟩ none :=
    fun other => .noRule (by decide) (.seqFirst (not_matches_lit_of_head '"' rfl other))
  cases rest with
  | nil =>
      rw [isMatch.unique (not_matches_nil rfl m rfl)]
      refine noString ?_
      rintro x isFirst rfl
      have quote := blanks '"' (List.mem_of_mem_head? isFirst)
      cases quote
  | cons x text =>
      by_cases isQuote : x = '"'
      · subst isQuote
        cases read : readQuoted text with
        | some r =>
            rw [isMatch.unique (matches_quoted read m p)]
            exact matches_quoted (readQuoted_append read v) m p
        | none =>
            have unread := readQuoted_append_blanks blanks read
            have unclosed : ∀ {p text}, readQuoted text = none →
                Matches scriptGrammar (.rule .string) m ⟨p, '"' :: text⟩ none := by
              intro p text unread
              obtain ⟨found, isMatch⟩ := exists_matches .string m ⟨p, '"' :: text⟩
              cases found with
              | none => exact isMatch
              | some r =>
                  obtain ⟨_, _, _, isText, read, -⟩ := of_string isMatch
                  cases isText
                  rw [unread] at read
                  cases read
            rw [isMatch.unique (unclosed read)]
            exact unclosed unread
      · rw [isMatch.unique (noString (by simpa using isQuote))]
        exact noString (by simpa using isQuote)

/-- **Where gaps are not skipped, blanks at the end change nothing.** -/
theorem Grammar.Matches.append_blanks_tight (blanks : AllBlank v)
    (isMatch : Matches scriptGrammar p m c found) (tight : m.texture ≠ .loose)
    (unblank : p.isUnblank Rule.isLexical = true) :
    Matches scriptGrammar p m (c.extend v) (Found.extend v found) := by
  have settled : ∀ {m : Mode} (c : Cursor), m.texture ≠ .loose →
      skip scriptGrammar m (c.extend v) = (skip scriptGrammar m c).extend v := by
    intro m c tight
    rw [skip_eq_self tight, skip_eq_self tight]
  have stays : ∀ {r : Rule} {m : Mode}, m.texture ≠ .loose →
      ((scriptGrammar.kind r).inner ((scriptGrammar.kind r).outer m)).texture ≠ .loose := by
    intro r m tight
    cases scriptGrammar.kind r <;> simp [RuleKind.inner, RuleKind.outer, tight]
  induction isMatch with
  | text moved => exact .text (Cursor.text?_extend moved)
  | noText notText =>
      exact .noText (text?_append_blanks_none blanks (Pattern.isUnblank_text unblank).2 notText)
  | char moved =>
      refine .char ?_
      rw [char?_append_blanks blanks fun _ => Pattern.isUnblank_char unblank, moved]
      rfl
  | noChar notChar =>
      refine .noChar ?_
      rw [char?_append_blanks blanks fun _ => Pattern.isUnblank_char unblank, notChar]
      rfl
  | seq _ _ first second =>
      rw [Pattern.isUnblank, Bool.and_eq_true] at unblank
      have next := second tight unblank.2
      rw [← settled _ tight] at next
      exact .seq (first tight unblank.1) next
  | seqFirst _ first =>
      rw [Pattern.isUnblank, Bool.and_eq_true] at unblank
      exact .seqFirst (first tight unblank.1)
  | seqSecond _ _ first second =>
      rw [Pattern.isUnblank, Bool.and_eq_true] at unblank
      have next := second tight unblank.2
      rw [← settled _ tight] at next
      exact .seqSecond (first tight unblank.1) next
  | altFirst _ first =>
      rw [Pattern.isUnblank, Bool.and_eq_true] at unblank
      exact .altFirst (first tight unblank.1)
  | altSecond _ _ first second =>
      rw [Pattern.isUnblank, Bool.and_eq_true] at unblank
      exact .altSecond (first tight unblank.1) (second tight unblank.2)
  | opt _ once => exact .opt (once tight unblank)
  | optNone _ once => exact .optNone (once tight unblank)
  | starNone _ first => exact .starNone (first tight unblank)
  | starOnce _ _ first next =>
      have none := next tight unblank
      rw [← settled _ tight] at none
      exact .starOnce (first tight unblank) none
  | starAgain _ _ _ first next again =>
      have second := next tight unblank
      have others := again tight unblank
      rw [← settled _ tight] at second others
      exact .starAgain (first tight unblank) second others
  | ahead _ inner => exact .ahead (inner tight unblank)
  | aheadNone _ inner => exact .aheadNone (inner tight unblank)
  | notAhead _ inner => exact .notAhead (inner tight unblank)
  | notAheadNone _ inner => exact .notAheadNone (inner tight unblank)
  | atEnd | notAtEnd => cases unblank
  | @silent r _ _ _ isSilent _ inner =>
      have notString : r ≠ .string := by
        rintro rfl
        cases isSilent
      exact .silent isSilent (inner tight (isUnblank_lexical unblank notString))
  | @rule r m c c' parts notSilent isMatch inner =>
      by_cases isString : r = .string
      · subst isString
        exact string_append_blanks blanks (.rule notSilent isMatch)
      · have whole := Matches.rule notSilent
          (inner (stays tight) (isUnblank_lexical unblank isString))
        rw [ruleTrees_extend isMatch.suffix] at whole
        exact whole
  | @noRule r m c notSilent isMatch inner =>
      by_cases isString : r = .string
      · subst isString
        exact string_append_blanks blanks (.noRule notSilent isMatch)
      · exact .noRule notSilent (inner (stays tight) (isUnblank_lexical unblank isString))

/-! ## Load directives -/

/-- The blanks before the target of a load directive. -/
def targetGap : Pattern Rule :=
  .plus (.alt (.lit " ") (.lit "\t"))

/-- The target of a load directive. -/
def loadTarget : Pattern Rule :=
  .alt (.rule .string) (.rule .bareTarget)

/-- All blanks that come next are taken before a target, if there are any. -/
theorem matches_targetGap (tight : m.texture ≠ .loose) (p : Position) (text : List Char) :
    let gap := text.takeWhile isSpaceOrTab
    Matches scriptGrammar targetGap m ⟨p, text⟩
      (if gap = [] then none
      else some (⟨p.advanceAll gap, text.dropWhile isSpaceOrTab⟩, [])) := by
  intro gap
  have one : ∀ (p : Position) (x : Char) (rest : List Char), isSpaceOrTab x = true →
      Matches scriptGrammar (.alt (.lit " ") (.lit "\t")) m ⟨p, x :: rest⟩
        (some (⟨p.advance x, rest⟩, [])) := by
    intro p x rest isBlank
    simp only [isSpaceOrTab, Bool.or_eq_true, beq_iff_eq] at isBlank
    rcases isBlank with rfl | rfl
    · exact .altFirst (matches_lit " " rest)
    · exact .altSecond (.noText rfl) (matches_lit "\t" rest)
  have none : ∀ (p : Position) (text : List Char), (∀ x ∈ text.head?, isSpaceOrTab x = false) →
      Matches scriptGrammar (.alt (.lit " ") (.lit "\t")) m ⟨p, text⟩ none := by
    intro p text other
    refine .altSecond (not_matches_lit_of_head ' ' rfl ?_) (not_matches_lit_of_head '\t' rfl ?_)
    · rintro x isFirst rfl
      cases other ' ' isFirst
    · rintro x isFirst rfl
      cases other '\t' isFirst
  cases text with
  | nil => exact .seqFirst (none p [] (by simp))
  | cons x text =>
      by_cases isBlank : isSpaceOrTab x = true
      · have ends : ∀ x ∈ (text.dropWhile isSpaceOrTab).head?, isSpaceOrTab x = false := by
          intro x isFirst
          have stops := List.head?_dropWhile_not isSpaceOrTab text
          rw [isFirst] at stops
          exact stops
        have others := matches_star_chars tight one (fun p => none p _ ends)
          (text.takeWhile isSpaceOrTab)
          (fun y member => List.all_eq_true.mp List.all_takeWhile y member) (p.advance x)
        rw [List.takeWhile_append_dropWhile] at others
        have isGap : gap = x :: text.takeWhile isSpaceOrTab := List.takeWhile_cons_of_pos isBlank
        rw [isGap, List.dropWhile_cons_of_pos isBlank, if_neg (List.cons_ne_nil _ _)]
        exact .seq (one p x text isBlank) (by rw [skip_eq_self tight]; exact others)
      · rw [if_pos (List.takeWhile_cons_of_neg isBlank)]
        exact .seqFirst (none p _ (by simpa using isBlank))

/-- A target is tried after the blanks before it. -/
theorem gapAndTarget_iff (tight : m.texture ≠ .loose) {p : Position} {text : List Char} :
    Matches scriptGrammar (.seq targetGap loadTarget) m ⟨p, text⟩ found ↔
      if text.takeWhile isSpaceOrTab = [] then found = none
      else Matches scriptGrammar loadTarget m
        ⟨p.advanceAll (text.takeWhile isSpaceOrTab), text.dropWhile isSpaceOrTab⟩ found := by
  have isGap := matches_targetGap tight p text
  by_cases noGap : text.takeWhile isSpaceOrTab = []
  · simp only [if_pos noGap] at isGap ⊢
    refine ⟨fun isMatch => isMatch.unique (.seqFirst isGap), ?_⟩
    rintro rfl
    exact .seqFirst isGap
  · simp only [if_neg noGap] at isGap ⊢
    constructor
    · intro isMatch
      cases isMatch with
      | seq first second =>
          cases first.unique isGap
          rwa [skip_eq_self tight] at second
      | seqFirst first => cases first.unique isGap
      | seqSecond first second =>
          cases first.unique isGap
          rwa [skip_eq_self tight] at second
    · intro isTarget
      cases found with
      | none => exact .seqSecond isGap (by rwa [skip_eq_self tight])
      | some r => exact .seq isGap (by rwa [skip_eq_self tight])

/-- The gap and the target of a load are matched alike before blanks at the end. -/
theorem gapAndTarget_append_blanks (blanks : AllBlank v) (tight : m.texture ≠ .loose)
    (isMatch : Matches scriptGrammar (.seq targetGap loadTarget) m c found) :
    Matches scriptGrammar (.seq targetGap loadTarget) m (c.extend v) (Found.extend v found) := by
  obtain ⟨p, text⟩ := c
  have noTarget : ∀ p, Matches scriptGrammar loadTarget m ⟨p, []⟩ none := fun p =>
    .altSecond (not_matches_nil rfl m rfl) (not_matches_nil rfl m rfl)
  rw [gapAndTarget_iff tight] at isMatch
  show Matches _ _ m ⟨p, text ++ v⟩ _
  rw [gapAndTarget_iff tight]
  by_cases noRest : text.dropWhile isSpaceOrTab = []
  · -- Nothing but blanks follows, so there is no target in either text.
    have isNone : found = none := by
      rw [noRest] at isMatch
      split at isMatch
      · exact isMatch
      · exact isMatch.unique (noTarget _)
    have isRest : (text ++ v).dropWhile isSpaceOrTab = v.dropWhile isSpaceOrTab :=
      List.dropWhile_append_of_pos (List.dropWhile_eq_nil_iff.mp noRest)
    have stillBlank : AllBlank (v.dropWhile isSpaceOrTab) :=
      fun x member => blanks x ((List.dropWhile_sublist _).subset member)
    rw [isNone, isRest]
    split
    · rfl
    · exact (noTarget _).append_blanks_tight stillBlank tight rfl
  · have isRest : (text ++ v).dropWhile isSpaceOrTab = text.dropWhile isSpaceOrTab ++ v := by
      rw [List.dropWhile_append, if_neg (by simpa using noRest)]
    have isGap : (text ++ v).takeWhile isSpaceOrTab = text.takeWhile isSpaceOrTab := by
      have split := List.takeWhile_append_dropWhile (p := isSpaceOrTab) (l := text ++ v)
      rw [isRest, ← List.append_assoc] at split
      exact List.append_cancel_right
        ((List.append_cancel_right split).trans List.takeWhile_append_dropWhile.symm)
    rw [isGap, isRest]
    split at isMatch
    · rename_i noGap
      rw [if_pos noGap, isMatch]
      rfl
    · rename_i someGap
      rw [if_neg someGap]
      exact isMatch.append_blanks_tight blanks tight rfl

/-- A load directive has its target or not, with blanks at the end too. -/
theorem loadStmt_append_blanks (blanks : AllBlank v)
    (isMatch : Matches scriptGrammar (.rule .loadStmt) m c found) :
    Matches scriptGrammar (.rule .loadStmt) m (c.extend v) (Found.extend v found) := by
  have tight : (⟨m.look, .solid⟩ : Mode).texture ≠ .loose := by simp
  have inside : ∀ {found}, Matches scriptGrammar (Rule.pattern .loadStmt) ⟨m.look, .solid⟩ c found →
      Matches scriptGrammar (Rule.pattern .loadStmt) ⟨m.look, .solid⟩ (c.extend v)
        (Found.extend v found) := by
    intro found inner
    cases inner with
    | seqFirst mark => exact .seqFirst (mark.append_blanks_tight blanks tight rfl)
    | seq mark rest =>
        rw [skip_eq_self tight] at rest
        refine .seq (mark.append_blanks_tight blanks tight rfl) ?_
        rw [skip_eq_self tight]
        exact gapAndTarget_append_blanks blanks tight rest
    | seqSecond mark rest =>
        rw [skip_eq_self tight] at rest
        refine .seqSecond (mark.append_blanks_tight blanks tight rfl) ?_
        rw [skip_eq_self tight]
        exact gapAndTarget_append_blanks blanks tight rest
  cases isMatch with
  | silent isSilent => cases isSilent
  | rule notSilent inner =>
      have whole := Matches.rule notSilent (inside inner)
      rw [ruleTrees_extend inner.suffix] at whole
      exact whole
  | noRule notSilent inner => exact .noRule notSilent (inside inner)

/-- Rules inside which no gap is skipped match the same. -/
theorem rule_append_blanks (blanks : AllBlank v) {r : Rule} (notEmpty : r.isNullable = false)
    (isTight : r.kind = .token ∨ r.kind = .solid)
    (isMatch : Matches scriptGrammar (.rule r) m c found) :
    Matches scriptGrammar (.rule r) m (c.extend v) (Found.extend v found) := by
  by_cases isString : r = .string
  · subst isString
    exact string_append_blanks blanks isMatch
  · by_cases isLoad : r = .loadStmt
    · subst isLoad
      exact loadStmt_append_blanks blanks isMatch
    · -- All others are tokens.
      have isToken : r.kind = .token ∧ r.isLexical = true := by
        revert notEmpty isTight isString isLoad
        cases r <;> decide
      have tight : ((Rule.kind r).inner ((Rule.kind r).outer m)).texture ≠ .loose := by
        rw [isToken.1]
        nofun
      have unblank := isUnblank_lexical isToken.2 isString
      cases isMatch with
      | silent isSilent => cases isToken.1.symm.trans isSilent
      | rule notSilent inner =>
          have whole := Matches.rule notSilent (inner.append_blanks_tight blanks tight unblank)
          rw [ruleTrees_extend inner.suffix] at whole
          exact whole
      | noRule notSilent inner =>
          exact .noRule notSilent (inner.append_blanks_tight blanks tight unblank)

end ScriptShell
