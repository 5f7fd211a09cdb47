import ScriptShell.Proofs.Reference.Scan
import ScriptShell.Proofs.Syntax.Lexing

/-! # Layouts that scans read rightly

`loadTargets` and `importNames` read the directives of a text off its lines and pieces, `parse`
reads them off its grammar. They agree exactly when the directives are laid out plainly:
**`scans_eq_iff_plain`**. -/

namespace ScriptShell

open Text

/-! ## Targets in a line -/

/-- Quotes around a text are taken off. -/
theorem unquote_quoted (raw : List Char) : unquote ('"' :: (raw ++ ['"'])) = raw := by
  have lead : dropLead? ['"'] ('"' :: (raw ++ ['"'])) = some (raw ++ ['"']) :=
    dropLead?_eq_some_iff.mpr rfl
  rw [unquote, lead, Option.bind_some, dropTail?_eq_some_iff.mpr rfl, Option.getD_some]

/-- A text that starts with no quote keeps all it has. -/
theorem unquote_of_ne {x : Char} (notQuote : x ≠ '"') (text : List Char) :
    unquote (x :: text) = x :: text := by
  simp [unquote, dropLead?, notQuote.symm]

/-- A text keeps its length or loses two quotes. -/
theorem unquote_eq_or (text : List Char) :
    unquote text = text ∨ text = '"' :: (unquote text ++ ['"']) := by
  cases lead : dropLead? ['"'] text with
  | none => simp [unquote, lead]
  | some rest =>
      have isText := dropLead?_eq_some_iff.mp lead
      cases tail : dropTail? ['"'] rest with
      | none => simp [unquote, lead, tail]
      | some raw =>
          have isRest := dropTail?_eq_some_iff.mp tail
          right
          rw [unquote, lead, Option.bind_some, tail, Option.getD_some, isText, isRest]
          rfl

/-- What is left of a line after a target: blanks and semicolons at its end do not count. -/
def afterTarget (tail : List Char) : List Char :=
  trimEnd (dropEndWhile (· == ';') (trimEnd tail))

/-- The target of a line that is a load directive, and what else stands on the line. -/
theorem loadTarget?_line {x y : Char} {gap more front : List Char}
    (blanks : ∀ c ∈ gap, isBlank c = true) (starts : isBlank x = false) (ends : isBlank y = false)
    (noSemicolon : y ≠ ';') (isBody : x :: more = front ++ [y]) (tail : List Char) :
    loadTarget? (loadMark ++ (gap ++ (front ++ [y] ++ tail))) =
      let target := unquote (front ++ [y] ++ afterTarget tail)
      if target.isEmpty then none else some target := by
  have isMark : "#load".toList = loadMark := by decide
  have isLine : trim (loadMark ++ (gap ++ (front ++ [y] ++ tail))) =
      loadMark ++ (gap ++ (front ++ [y] ++ trimEnd tail)) := by
    have solid := @trim_append_of_solid '#' y (loadMark.tail ++ (gap ++ (front ++ [y])))
      (loadMark ++ (gap ++ front)) (by decide) ends (by simp [loadMark]) tail
    simpa using solid
  have isRest : trim (gap ++ (front ++ [y] ++ trimEnd tail)) = front ++ [y] ++ trimEnd tail := by
    rw [trim_blanks_append blanks, trim_append_of_solid starts ends isBody, trimEnd, trimEnd,
      dropEndWhile_dropEndWhile]
  have stays : (y == ';') = false := by simpa using noSemicolon
  have isTarget : trim (dropEndWhile (· == ';') (front ++ [y] ++ trimEnd tail)) =
      front ++ [y] ++ afterTarget tail := by
    rw [dropEndWhile_append_of_neg (p := (· == ';')) stays,
      trim_append_of_solid starts ends isBody]
    rfl
  -- The line is trimmed, its mark dropped, the rest trimmed, its semicolons dropped and trimmed
  -- again.
  rw [loadTarget?, isMark, isLine, dropLead?_eq_some_iff.mpr rfl, Option.bind_some]
  simp only [isRest, isTarget]

/-- Blanks, semicolons, blanks. -/
def isClosing (tail : List Char) : Bool :=
  ((tail.dropWhile isBlank).dropWhile (· == ';')).all isBlank

/-- A text of blanks, semicolons and blanks again. -/
def ClosesStatement (tail : List Char) : Prop :=
  ∃ lead marks more, tail = lead ++ (marks ++ more) ∧ (∀ c ∈ lead, isBlank c = true) ∧
    (∀ c ∈ marks, (c == ';') = true) ∧ ∀ c ∈ more, isBlank c = true

/-- The test whether a statement is closed decides whether it is. -/
theorem isClosing_iff {tail : List Char} : isClosing tail = true ↔ ClosesStatement tail := by
  constructor
  · intro closing
    refine ⟨tail.takeWhile isBlank, (tail.dropWhile isBlank).takeWhile (· == ';'),
      (tail.dropWhile isBlank).dropWhile (· == ';'), ?_, List.all_eq_true.mp List.all_takeWhile,
      List.all_eq_true.mp List.all_takeWhile, List.all_eq_true.mp closing⟩
    rw [List.takeWhile_append_dropWhile, List.takeWhile_append_dropWhile]
  · rintro ⟨lead, marks, more, rfl, isLead, isMarks, isMore⟩
    rw [isClosing, List.dropWhile_append_of_pos isLead]
    -- Without semicolons the first blanks go on into the last ones.
    cases marks with
    | nil =>
        rw [List.nil_append, ← List.append_nil more, List.dropWhile_append_of_pos isMore]
        rfl
    | cons mark marks =>
        have isMark : mark = ';' := by simpa using isMarks mark List.mem_cons_self
        have stops : ((mark :: marks) ++ more).dropWhile isBlank = (mark :: marks) ++ more := by
          rw [isMark, List.cons_append, List.dropWhile_cons, if_neg (by decide)]
        rw [stops, List.dropWhile_append_of_pos isMarks, List.all_eq_true]
        intro c member
        exact isMore c ((List.dropWhile_suffix _).subset member)

/-- Nothing is left exactly if the line goes on with blanks, semicolons and blanks. -/
theorem afterTarget_eq_nil_iff {tail : List Char} :
    afterTarget tail = [] ↔ ClosesStatement tail := by
  rw [afterTarget, trimEnd, dropEndWhile_eq_nil_iff]
  constructor
  · intro isLead
    obtain ⟨more, isMore, isTail⟩ := exists_dropEndWhile_append isBlank tail
    obtain ⟨marks, isMarks, isLine⟩ := exists_dropEndWhile_append (· == ';') (trimEnd tail)
    refine ⟨_, marks, more, ?_, isLead, isMarks, isMore⟩
    rw [← List.append_assoc, isLine, trimEnd, isTail]
  · rintro ⟨lead, marks, more, rfl, isLead, isMarks, isMore⟩ c member
    have trimmed : trimEnd (lead ++ (marks ++ more)) = dropEndWhile isBlank (lead ++ marks) := by
      rw [← List.append_assoc]
      exact dropEndWhile_append_of_pos isMore _
    rw [trimmed] at member
    -- Either there are no semicolons, or the last of them ends what is left after the blanks.
    rcases List.eq_nil_or_concat marks with rfl | ⟨front, mark, rfl⟩
    · rw [List.append_nil, dropEndWhile_eq_nil_iff.mpr isLead] at member
      cases member
    · rw [List.concat_eq_append] at isMarks member
      have isMark : mark = ';' := by simpa using isMarks mark (by simp)
      have stops : dropEndWhile isBlank (lead ++ (front ++ [mark])) =
          lead ++ (front ++ [mark]) := by
        have whole := dropEndWhile_append_of_neg (p := isBlank) (c := mark) (by rw [isMark]; rfl)
          (lead ++ front) []
        simpa [dropEndWhile] using whole
      rw [stops, dropEndWhile_append_of_pos isMarks] at member
      obtain ⟨ending, -, whole⟩ := exists_dropEndWhile_append (· == ';') lead
      exact isLead c (whole ▸ List.mem_append_left ending member)

/-- Escapes make a text no longer. -/
theorem length_readEscapes_le (raw : List Char) : (readEscapes raw).length ≤ raw.length := by
  fun_induction readEscapes raw <;> simp <;> omega

/-- Line feeds stay. -/
theorem mem_readEscapes {raw : List Char} (member : '\n' ∈ raw) : '\n' ∈ readEscapes raw := by
  fun_induction readEscapes raw with
  | case1 => exact List.mem_cons_self
  | case2 rest ih | case3 rest ih =>
      have inRest : '\n' ∈ rest := by simpa using member
      exact List.mem_cons_of_mem _ (ih inRest)
  | case4 c rest _ _ _ ih =>
      have inRest : '\n' = c ∨ '\n' ∈ rest := by simpa using member
      exact List.mem_cons.mpr (inRest.imp_right ih)
  | case5 c rest _ _ _ _ ih => exact List.mem_cons.mpr ((List.mem_cons.mp member).imp_right ih)
  | case6 => cases member

/-- What is found in a line stands in it. -/
theorem mem_of_loadTarget? {line target : List Char} (found : loadTarget? line = some target)
    {c : Char} (member : c ∈ target) : c ∈ line := by
  have ofTrim : ∀ {text : List Char}, c ∈ trim text → c ∈ text := by
    intro text member
    obtain ⟨lead, ending, -, -, whole⟩ := exists_append_trim_append text
    rw [← whole]
    simp [member]
  obtain ⟨rest, isLine, isTarget⟩ := Option.bind_eq_some_iff.mp found
  simp only at isTarget
  split at isTarget
  · cases isTarget
  · cases isTarget
    have inQuoted : c ∈ trim (dropEndWhile (· == ';') (trim rest)) := by
      rcases unquote_eq_or (trim (dropEndWhile (· == ';') (trim rest))) with same | quoted
      · rwa [same] at member
      · rw [quoted]
        simp [member]
    obtain ⟨ending, -, whole⟩ := exists_dropEndWhile_append (· == ';') (trim rest)
    have inRest : c ∈ rest := ofTrim (whole ▸ List.mem_append_left ending (ofTrim inQuoted))
    apply ofTrim
    rw [dropLead?_eq_some_iff.mp isLine]
    exact List.mem_append_right _ inRest

/-! ## The scan for load directives -/

/-- The scan of `loadTargets`. -/
def loadScan : Scan where
  cut c := c == '\n'
  read := loadTarget?
  sought?
    | .load target => some target
    | .use _ => none

/-- A load directive that is read as it is written: first on its line, with a target that neither is
empty nor goes over the line, without escapes in quotes, and with blanks and semicolons after it. -/
def Place.PlainLoad : Place → Prop
  | ⟨before, .load _ inQuotes raw, after⟩ =>
    startsPiece loadScan.cut before = true ∧ raw ≠ [] ∧ '\n' ∉ raw ∧
      (inQuotes = true → readEscapes raw = raw) ∧ isClosing (firstPiece loadScan.cut after) = true
  | _ => True

instance : DecidablePred Place.PlainLoad
  | ⟨_, .load .., _⟩ => inferInstanceAs (Decidable (_ ∧ _))
  | ⟨_, .blank _, _⟩ | ⟨_, .comment _, _⟩ | ⟨_, .quoted _, _⟩ | ⟨_, .use _, _⟩ | ⟨_, .word _, _⟩
  | ⟨_, .other _, _⟩ => isTrue trivial

/-- Blanks around a line do not matter to what it loads. -/
theorem loadTarget?_trim (line : List Char) : loadTarget? (trim line) = loadTarget? line := by
  rw [loadTarget?, loadTarget?, trim_trim]

/-- The targets of a text are those that the scan for loads finds. -/
theorem loadTargets_eq_found (text : String) :
    loadTargets text = (loadScan.found text.toList).map String.ofList := by
  rw [loadTargets, filterMap_lines loadTarget?_trim (by decide)]
  rfl

/-- Only line breaks cut a text for loads. -/
theorem loadScan_cut_eq_false {c : Char} (notEnd : c ≠ '\n') : loadScan.cut c = false := by
  simpa [loadScan] using notEnd

/-- The scan for loads has the laws of a scan. -/
theorem loadScan_lawful : loadScan.Lawful where
  cut_lineFeed := rfl
  eq_of_cut c isCut := .inl (by simpa [loadScan] using isCut)
  read_trim := loadTarget?_trim
  read_nil := by decide
  seeks_of_read x rest notBlank proper isRead := by
    have notEnd : x ≠ '\n' := by
      rintro rfl
      cases notBlank
    have isHash : x = '#' := by
      rw [firstPiece_cons_of_uncut (loadScan_cut_eq_false notEnd)] at isRead
      obtain ⟨target, isTarget⟩ := Option.isSome_iff_exists.mp isRead
      obtain ⟨after, isLine, -⟩ := Option.bind_eq_some_iff.mp isTarget
      rw [trim_cons notBlank] at isLine
      exact (List.cons.inj (dropLead?_eq_some_iff.mp isLine)).1
    -- Of the lexemes that start with `#`, a sign is not proper, and a load directive is sought.
    subst isHash
    revert proper
    refine Lexeme.next_cases (motive := fun l _ => l.Proper → (loadScan.seeks? l).isSome = true)
      '#' rest ?blank ?comment ?quoted ?load ?use ?word ?other
    case blank =>
      intro blank
      cases blank
    case comment =>
      intro isSlash
      cases isSlash
    case quoted =>
      intro _ _ isQuote
      cases isQuote
    case load =>
      intro gap inQuotes raw _ _ _ _ _ _
      cases inQuotes <;> rfl
    case use =>
      intro _ isUse
      cases isUse
    case word =>
      intro isStart
      cases isStart
    case other =>
      intro sign
      cases sign

section

variable {gap raw tail : List Char} (blanks : ∀ c ∈ gap, isBlank c = true)

include blanks

/-- A target in quotes is read rightly if it has no escapes and nothing else is on the line. -/
theorem loadTarget?_quoted_iff :
    loadTarget? (loadMark ++ (gap ++ ('"' :: raw ++ ['"'] ++ tail))) = some (readEscapes raw) ↔
      raw ≠ [] ∧ readEscapes raw = raw ∧ isClosing tail = true := by
  have isQuote : isBlank '"' = false := by decide
  rw [loadTarget?_line blanks isQuote isQuote (by decide) rfl, isClosing_iff,
    ← afterTarget_eq_nil_iff]
  simp only
  constructor
  · intro found
    split at found
    · cases found
    · rename_i someTarget
      have isTarget := Option.some.inj found
      -- With anything else on the line, what is found is longer than the target.
      have isNil : afterTarget tail = [] := by
        have short := length_readEscapes_le raw
        rw [← isTarget] at short
        rw [← List.length_eq_zero_iff]
        rcases unquote_eq_or ('"' :: raw ++ ['"'] ++ afterTarget tail) with same | quoted
        · rw [same] at short
          simp only [List.length_append, List.length_cons, List.length_nil] at short
          omega
        · have long := congrArg List.length quoted
          simp only [List.length_append, List.length_cons, List.length_nil] at long
          omega
      rw [isNil, List.append_nil, List.cons_append, unquote_quoted] at isTarget someTarget
      exact ⟨by simpa using someTarget, isTarget.symm, isNil⟩
  · rintro ⟨someRaw, noEscapes, isNil⟩
    rw [isNil, List.append_nil, List.cons_append, unquote_quoted, noEscapes]
    simp [someRaw]

/-- A target without quotes is read rightly if nothing else is on the line. -/
theorem loadTarget?_bare_iff (someRaw : raw ≠ []) (allTarget : ∀ c ∈ raw, isTargetChar c = true) :
    loadTarget? (loadMark ++ (gap ++ (raw ++ tail))) = some raw ↔ isClosing tail = true := by
  obtain ⟨x, more, isRaw⟩ := List.exists_cons_of_ne_nil someRaw
  obtain ⟨front, y, isRaw'⟩ : ∃ front y, raw = front ++ [y] :=
    ⟨_, _, (List.dropLast_concat_getLast someRaw).symm⟩
  have isFirst : isTargetChar x = true := allTarget x (by simp [isRaw])
  have isLast : isTargetChar y = true := allTarget y (by simp [isRaw'])
  have noSemicolon : y ≠ ';' := by
    rintro rfl
    cases isLast
  have notQuote : x ≠ '"' := by
    rintro rfl
    cases isFirst
  have line := loadTarget?_line blanks (isBlank_eq_false_of_isTargetChar isFirst)
    (isBlank_eq_false_of_isTargetChar isLast) noSemicolon (isRaw.symm.trans isRaw') tail
  rw [← isRaw'] at line
  rw [line, isClosing_iff, ← afterTarget_eq_nil_iff, isRaw, List.cons_append,
    unquote_of_ne notQuote]
  simp

end

/-- Spaces and tabs are blanks. -/
theorem isBlank_of_isSpaceOrTab {c : Char} (isSpace : isSpaceOrTab c = true) :
    isBlank c = true := by
  simp only [isSpaceOrTab, Bool.or_eq_true, beq_iff_eq] at isSpace
  rcases isSpace with rfl | rfl <;> rfl

/-- What is found on a line that a load directive starts. -/
theorem loadTarget?_firstPiece_iff {gap raw : List Char} {inQuotes : Bool}
    (proper : (Lexeme.load gap inQuotes raw).Proper) (after : List Char) :
    loadTarget? (firstPiece loadScan.cut ((Lexeme.load gap inQuotes raw).chars ++ after)) =
      some (if inQuotes = true then readEscapes raw else raw) ↔
    raw ≠ [] ∧ '\n' ∉ raw ∧ (inQuotes = true → readEscapes raw = raw) ∧
      isClosing (firstPiece loadScan.cut after) = true := by
  obtain ⟨-, isGap, bare⟩ := proper
  have blanks : ∀ c ∈ gap, isBlank c = true :=
    fun c member => isBlank_of_isSpaceOrTab (isGap c member)
  have noLineFeed : '\n' ∉ loadMark ∧ '\n' ∉ gap :=
    ⟨by decide, fun member => absurd (isGap _ member) (by decide)⟩
  have uncut : ∀ {text : List Char}, '\n' ∉ text → ∀ c ∈ text, loadScan.cut c = false :=
    fun noEnd c member => loadScan_cut_eq_false fun isEnd => noEnd (isEnd ▸ member)
  cases inQuotes with
  | true =>
      by_cases lineFeed : '\n' ∈ raw
      · -- The line ends inside the target, and what is found has no line feed.
        refine iff_of_false ?_ fun plain => plain.2.1 lineFeed
        intro found
        have member := mem_of_loadTarget? found (mem_readEscapes lineFeed)
        exact absurd (cut_eq_false_of_mem_firstPiece member) (by decide)
      · have isChars : (Lexeme.load gap true raw).chars ++ after =
            (loadMark ++ (gap ++ ('"' :: raw ++ ['"']))) ++ after := rfl
        have isLine : firstPiece loadScan.cut ((Lexeme.load gap true raw).chars ++ after) =
            loadMark ++ (gap ++ ('"' :: raw ++ ['"'] ++ firstPiece loadScan.cut after)) := by
          rw [isChars, firstPiece_append (uncut (by simp [noLineFeed, lineFeed]))]
          simp
        rw [isLine]
        simpa [lineFeed] using loadTarget?_quoted_iff blanks
  | false =>
      obtain ⟨someRaw, allTarget⟩ := bare rfl
      have noEnd : '\n' ∉ raw := fun member => absurd (allTarget _ member) (by decide)
      have isLine : firstPiece loadScan.cut ((Lexeme.load gap false raw).chars ++ after) =
          loadMark ++ (gap ++ (raw ++ firstPiece loadScan.cut after)) := by
        rw [Lexeme.chars, firstPiece_append (uncut (by simp [noLineFeed, noEnd]))]
        simp
      rw [isLine]
      simpa [someRaw, noEnd] using loadTarget?_bare_iff blanks someRaw allTarget

/-- **A load directive is found as it is meant exactly if it is laid out plainly.** -/
theorem loadScan_reading_iff {p : Place} (proper : p.lexeme.Proper) :
    loadScan.reading p = loadScan.seeks? p.lexeme ↔ p.PlainLoad := by
  obtain ⟨before, l, after⟩ := p
  cases l with
  | load gap inQuotes raw =>
      have sought : loadScan.seeks? (.load gap inQuotes raw) =
          some (if inQuotes = true then readEscapes raw else raw) := by
        cases inQuotes <;> rfl
      rw [Scan.reading_eq_iff sought]
      exact and_congr_right fun _ => loadTarget?_firstPiece_iff proper after
  | blank | comment | quoted | use | word | other =>
      rw [Scan.reading_eq_none rfl]
      exact iff_of_true rfl trivial

/-! ## The scan for imports -/

/-- The scan of `importNames`. -/
def importScan : Scan where
  cut c := c == '\n' || c == ';'
  read := importName?
  sought?
    | .use name => some name
    | .load _ => none

/-- An import that is read as it is meant: first in its piece, with a space after the word, and with
the name after that space and other blanks. -/
def Place.PlainUse : Place → Prop
  | ⟨before, .use name, after⟩ =>
    startsPiece importScan.cut before = true ∧
      (firstPiece importScan.cut after).head? = some ' ' ∧
      ((firstPiece importScan.cut after).dropWhile isBlank).takeWhile isImportChar = name
  | _ => True

instance : DecidablePred Place.PlainUse
  | ⟨_, .use _, _⟩ => inferInstanceAs (Decidable (_ ∧ _))
  | ⟨_, .blank _, _⟩ | ⟨_, .comment _, _⟩ | ⟨_, .quoted _, _⟩ | ⟨_, .load .., _⟩ | ⟨_, .word _, _⟩
  | ⟨_, .other _, _⟩ => isTrue trivial

/-- The blanks outside ASCII are no letters or numbers. -/
theorem wideAlphanumerics_has_eq_false {c : Char} (blank : wideBlanks.has c = true) :
    wideAlphanumerics.has c = false := by
  have apart : ∀ blanks ∈ wideBlanks, ∀ others ∈ wideAlphanumerics,
      blanks.2 < others.1 ∨ others.2 < blanks.1 := by
    decide +kernel
  rw [Bool.eq_false_iff]
  intro isOther
  simp only [CodeRanges.has, List.any_eq_true, Bool.and_eq_true, decide_eq_true_eq] at blank isOther
  obtain ⟨blanks, isBlanks, lower, upper⟩ := blank
  obtain ⟨others, isOthers, lower', upper'⟩ := isOther
  have := apart blanks isBlanks others isOthers
  omega

/-- Characters of imports are no blanks. -/
theorem isBlank_eq_false_of_isImportChar {c : Char} (isImport : isImportChar c = true) :
    isBlank c = false := by
  simp only [isImportChar, isAlphanumeric, Bool.or_eq_true, Bool.and_eq_true, decide_eq_true_eq,
    beq_iff_eq] at isImport
  rcases isImport with ((isAlphanum | ⟨isWide, isAlphanum⟩) | rfl) | rfl
  · obtain ⟨lower, upper⟩ := visible_of_isAlphanum isAlphanum
    exact isBlank_eq_false_of_visible lower upper
  · have notBlank : wideBlanks.has c = false := by
      rw [Bool.eq_false_iff]
      intro blank
      rw [wideAlphanumerics_has_eq_false blank] at isAlphanum
      cases isAlphanum
    have notSpace : c ≠ ' ' := by
      rintro rfl
      exact absurd isWide (by decide)
    have notNarrow : 9 ≤ c.toNat → 13 < c.toNat := fun _ => by omega
    simpa [isBlank, notSpace, notBlank] using notNarrow
  all_goals rfl

/-- The name that a text starts with after blanks, with blanks at the end of the text or without. -/
theorem takeWhile_trim (text : List Char) :
    (trim text).takeWhile isImportChar = (text.dropWhile isBlank).takeWhile isImportChar := by
  obtain ⟨ending, blanks, whole⟩ := exists_dropEndWhile_append isBlank (trimStart text)
  have noName : ending.takeWhile isImportChar = [] := by
    cases ending with
    | nil => rfl
    | cons c ending =>
        have notImport : isImportChar c = false := by
          rw [Bool.eq_false_iff]
          intro isImport
          have blank := blanks c List.mem_cons_self
          rw [isBlank_eq_false_of_isImportChar isImport] at blank
          cases blank
        rw [List.takeWhile_cons, if_neg (by simp [notImport])]
  rw [← trimStart, ← whole, List.takeWhile_append, noName, trim, trimEnd]
  split
  · rename_i isWhole
    rw [List.append_nil]
    exact (List.takeWhile_prefix _).eq_of_length isWhole
  · rfl

/-- What is found in a piece that starts with the word `use`. -/
theorem importName?_use_iff {name tail : List Char} (someName : name ≠ []) :
    importName? (useWord ++ tail) = some name ↔
      tail.head? = some ' ' ∧ (tail.dropWhile isBlank).takeWhile isImportChar = name := by
  have isWord : "use ".toList = useWord ++ [' '] := by decide
  have trimmed : trim (useWord ++ tail) = useWord ++ trimEnd tail :=
    @trim_append_of_solid 'u' 'e' ['s', 'e'] ['u', 's'] (by decide) (by decide) rfl tail
  obtain ⟨ending, blanks, whole⟩ := exists_dropEndWhile_append isBlank tail
  rw [← trimEnd] at whole
  rw [importName?, trimmed, isWord, ← takeWhile_trim]
  -- The word is followed by nothing but blanks, by a space, or by another character.
  cases isRest : trimEnd tail with
  | nil =>
      have noName : trim tail = [] := by
        rw [← whole, isRest]
        exact trim_eq_nil blanks
      refine iff_of_false (fun found => by cases found) fun plain => someName ?_
      rw [← plain.2, noName, List.takeWhile_nil]
  | cons c rest =>
      rw [isRest] at whole
      by_cases isSpace : c = ' '
      · subst isSpace
        have sameName : trim tail = trim rest := by
          rw [← whole, trim_append_blanks blanks]
          exact @trim_blanks_append [' '] (List.forall_mem_singleton.mpr rfl) rest
        have isHead : tail.head? = some ' ' := by rw [← whole, List.cons_append, List.head?_cons]
        have isDropped : dropLead? (useWord ++ [' ']) (useWord ++ ' ' :: rest) = some rest :=
          dropLead?_eq_some_iff.mpr rfl
        rw [isDropped, Option.bind_some, sameName, and_iff_right isHead]
        simp only
        split
        · rename_i isNil
          rw [List.isEmpty_iff.mp isNil]
          exact iff_of_false (fun found => by cases found) someName.symm
        · exact Option.some_inj
      · refine iff_of_false ?_ ?_
        · intro found
          obtain ⟨rest', isDropped, -⟩ := Option.bind_eq_some_iff.mp found
          have same := dropLead?_eq_some_iff.mp isDropped
          rw [List.append_assoc] at same
          exact isSpace (List.cons.inj (List.append_cancel_left same)).1
        · intro plain
          rw [← whole, List.cons_append, List.head?_cons] at plain
          exact isSpace (Option.some.inj plain.1)

/-- A character that is no blank and no semicolon does not cut a text for imports. -/
theorem importScan_cut_eq_false {x : Char} (notBlank : isBlank x = false) (notEnd : x ≠ ';') :
    importScan.cut x = false := by
  rw [Bool.eq_false_iff]
  intro isCut
  simp only [importScan, Bool.or_eq_true, beq_iff_eq] at isCut
  rcases isCut with rfl | rfl
  · cases notBlank
  · exact notEnd rfl

/-- A piece in which an import is found starts with the word `use`. -/
theorem useWord_of_importName? {x : Char} {rest : List Char} (notBlank : isBlank x = false)
    (notEnd : x ≠ ';')
    (isRead : (importName? (firstPiece importScan.cut (x :: rest))).isSome = true) :
    x = 'u' ∧ 'u' :: rest.takeWhile isNameChar = useWord := by
  rw [firstPiece_cons_of_uncut (importScan_cut_eq_false notBlank notEnd)] at isRead
  obtain ⟨name, isName⟩ := Option.isSome_iff_exists.mp isRead
  obtain ⟨after, isPiece, -⟩ := Option.bind_eq_some_iff.mp isName
  rw [trim_cons notBlank] at isPiece
  have same := List.cons.inj (dropLead?_eq_some_iff.mp isPiece)
  have isFirst : x = 'u' := same.1
  have isRest : trimEnd (firstPiece importScan.cut rest) = 's' :: 'e' :: ' ' :: after := same.2
  obtain ⟨ending, -, whole⟩ := exists_dropEndWhile_append isBlank (firstPiece importScan.cut rest)
  -- What was found in the trimmed piece stands at the start of the text.
  obtain ⟨more, isText⟩ : ∃ more, rest = 's' :: 'e' :: ' ' :: more := by
    refine ⟨after ++ (ending ++ rest.dropWhile fun c => !importScan.cut c), ?_⟩
    calc rest = firstPiece importScan.cut rest ++ rest.dropWhile fun c => !importScan.cut c :=
          List.takeWhile_append_dropWhile.symm
      _ = trimEnd (firstPiece importScan.cut rest) ++ ending ++
            rest.dropWhile fun c => !importScan.cut c := by rw [trimEnd, whole]
      _ = 's' :: 'e' :: ' ' ::
            (after ++ (ending ++ rest.dropWhile fun c => !importScan.cut c)) := by
          rw [isRest, List.append_assoc]
          rfl
  refine ⟨isFirst, ?_⟩
  rw [isText]
  rfl

/-- The scan for imports has the laws of a scan. -/
theorem importScan_lawful : importScan.Lawful where
  cut_lineFeed := rfl
  eq_of_cut c isCut := by simpa [importScan] using isCut
  read_trim piece := by
    change importName? (trim piece) = importName? piece
    rw [importName?, importName?, trim_trim]
  read_nil := by decide
  seeks_of_read x rest notBlank proper isRead := by
    have notEnd : x ≠ ';' := by
      rintro rfl
      rw [firstPiece_cons_of_cut rfl] at isRead
      exact absurd isRead (by decide)
    obtain ⟨rfl, isUse⟩ := useWord_of_importName? notBlank notEnd isRead
    -- A word `use` before a name is sought; before anything else it is not proper.
    revert proper
    refine Lexeme.next_cases (motive := fun l _ => l.Proper → (importScan.seeks? l).isSome = true)
      'u' rest ?blank ?comment ?quoted ?load ?use ?word ?other
    case blank =>
      intro blank
      cases blank
    case comment =>
      intro isSlash
      cases isSlash
    case quoted =>
      intro _ _ isQuote
      cases isQuote
    case load =>
      intro _ _ _ _ _ isHash
      cases isHash
    case use =>
      intro _ _ _
      rfl
    case word =>
      intro _ notUse
      exact absurd isUse notUse
    case other =>
      intro sign
      cases sign

/-- **An import is found as it is meant exactly if it is laid out plainly.** -/
theorem importScan_reading_iff {p : Place} (proper : p.lexeme.Proper) :
    importScan.reading p = importScan.seeks? p.lexeme ↔ p.PlainUse := by
  obtain ⟨before, l, after⟩ := p
  cases l with
  | use name =>
      have sought : importScan.seeks? (.use name) = some name := rfl
      have isPiece : firstPiece importScan.cut (useWord ++ after) =
          useWord ++ firstPiece importScan.cut after := rfl
      have read := @importName?_use_iff name (firstPiece importScan.cut after) proper
      rw [← isPiece] at read
      rw [Scan.reading_eq_iff sought]
      exact and_congr_right fun _ => read
  | load gap inQuotes raw =>
      have notSought : importScan.seeks? (.load gap inQuotes raw) = none := by
        cases inQuotes <;> rfl
      rw [Scan.reading_eq_none notSought]
      exact iff_of_true notSought.symm trivial
  | blank | comment | quoted | word | other =>
      rw [Scan.reading_eq_none rfl]
      exact iff_of_true rfl trivial

/-! ## Scans and statements -/

/-- A map that finds less often finds no more items. -/
theorem length_filterMap_le {α β : Type} {f g : α → Option β} (none : ∀ x, g x = none → f x = none)
    (l : List α) : (l.filterMap f).length ≤ (l.filterMap g).length := by
  induction l with
  | nil => exact Nat.le_refl _
  | cons x l ih =>
      rw [List.filterMap_cons, List.filterMap_cons]
      cases isG : g x with
      | none =>
          rw [none x isG]
          exact ih
      | some b =>
          cases f x with
          | none => exact Nat.le_succ_of_le ih
          | some a => exact Nat.succ_le_succ ih

/-- Where one reading is some of the other, they give the same list only if they are the same at
each entry. -/
theorem filterMap_eq_filterMap_iff {α β : Type} {f g : α → Option β}
    (none : ∀ x, g x = none → f x = none) {l : List α} :
    l.filterMap f = l.filterMap g ↔ ∀ x ∈ l, f x = g x := by
  induction l with
  | nil => simp
  | cons x l ih =>
      rw [List.filterMap_cons, List.filterMap_cons, List.forall_mem_cons]
      cases isG : g x with
      | none => simp [none x isG, ih]
      | some b =>
          cases f x with
          | none =>
              -- Something is missing at the head, and cannot be made up for later.
              have short := length_filterMap_le none l
              refine iff_of_false (fun same => ?_) fun same => by cases same.1
              simp only at same
              rw [same, List.length_cons] at short
              exact absurd short (Nat.not_succ_le_self _)
          | some a => simp [ih]

/-- The places of the lexemes of a text. -/
def placesOf (text : String) : List Place :=
  places [] (lexemes text.toList)

/-- A scan of a fragment finds what it looks for exactly if it reads each lexeme that it looks for
rightly. -/
theorem Scan.Lawful.found_eq_iff {s : Scan} (lawful : s.Lawful) {text : String} {stmts : List Stmt}
    (parsed : parse text = .ok stmts) (unhidden : s.Unhidden (placesOf text)) :
    s.found text.toList = (Stmt.directives stmts).filterMap s.sought? ↔
      ∀ p ∈ placesOf text, s.reading p = s.seeks? p.lexeme := by
  obtain ⟨proper, isDirectives⟩ := lexemes_of_parse parsed
  have sought : (Stmt.directives stmts).filterMap s.sought? =
      (placesOf text).filterMap fun p => s.seeks? p.lexeme := by
    rw [← isDirectives, List.filterMap_filterMap]
    conv => lhs; rw [← map_lexeme_places [] (lexemes text.toList), List.filterMap_map]
    rfl
  rw [lawful.found_eq proper unhidden, sought]
  exact filterMap_eq_filterMap_iff fun p => Scan.reading_eq_none

namespace Stmt

/-- The target of a statement that loads. -/
def loadedTarget? : Stmt → Option String
  | .load target _ => some target
  | _ => none

/-- The name of a statement that imports. -/
def importedName? : Stmt → Option String
  | .use name _ => some name
  | _ => none

/-- The targets that statements load, in the order of the source, those in blocks included. -/
def loadedTargets (stmts : List Stmt) : List String :=
  (partsAll stmts).filterMap loadedTarget?

/-- The modules that statements import, in the order of the source, those in blocks included. -/
def importedNames (stmts : List Stmt) : List String :=
  (partsAll stmts).filterMap importedName?

/-- The targets that statements load are those of their directives. -/
theorem loadedTargets_eq (stmts : List Stmt) :
    loadedTargets stmts = ((directives stmts).filterMap loadScan.sought?).map String.ofList := by
  rw [directives, List.filterMap_filterMap, List.map_filterMap]
  refine congrArg (List.filterMap · (partsAll stmts)) (funext fun stmt => ?_)
  cases stmt <;> simp [loadedTarget?, directive?, loadScan]

/-- The names that statements import are those of their directives. -/
theorem importedNames_eq (stmts : List Stmt) :
    importedNames stmts = ((directives stmts).filterMap importScan.sought?).map String.ofList := by
  rw [directives, List.filterMap_filterMap, List.map_filterMap]
  refine congrArg (List.filterMap · (partsAll stmts)) (funext fun stmt => ?_)
  cases stmt <;> simp [importedName?, directive?, importScan]

end Stmt

/-- What stands at a place of a text is one of its lexemes. -/
theorem mem_lexemes_of_mem_placesOf {text : String} {p : Place} (member : p ∈ placesOf text) :
    p.lexeme ∈ lexemes text.toList := by
  rw [← map_lexeme_places [] (lexemes text.toList)]
  exact List.mem_map_of_mem member

/-- **Scans agree with the parser exactly on plain layouts.** Take a fragment that parses. Unless a
line that starts inside a lexeme is taken for a load directive, `loadTargets` gives the targets of
its statements if and only if every load directive is laid out plainly; and so for `importNames`,
pieces and imports. -/
theorem scans_eq_iff_plain {text : String} {stmts : List Stmt} (parsed : parse text = .ok stmts) :
    (loadScan.Unhidden (placesOf text) →
      (loadTargets text = Stmt.loadedTargets stmts ↔ ∀ p ∈ placesOf text, p.PlainLoad)) ∧
    (importScan.Unhidden (placesOf text) →
      (importNames text = Stmt.importedNames stmts ↔ ∀ p ∈ placesOf text, p.PlainUse)) := by
  have proper : ∀ p ∈ placesOf text, p.lexeme.Proper :=
    fun p member => (lexemes_of_parse parsed).1 _ (mem_lexemes_of_mem_placesOf member)
  have ofList_inj : ∀ x y, String.ofList x = String.ofList y → x = y :=
    fun x y => String.ofList_inj.mp
  constructor
  · intro unhidden
    rw [loadTargets_eq_found, Stmt.loadedTargets_eq, List.map_inj_right ofList_inj,
      loadScan_lawful.found_eq_iff parsed unhidden]
    exact forall₂_congr fun p member => loadScan_reading_iff (proper p member)
  · intro unhidden
    change (importScan.found text.toList).map String.ofList = _ ↔ _
    rw [Stmt.importedNames_eq, List.map_inj_right ofList_inj,
      importScan_lawful.found_eq_iff parsed unhidden]
    exact forall₂_congr fun p member => importScan_reading_iff (proper p member)

/-- **Scans agree with the parser on plain layouts.** In a fragment that parses, in which no line
that starts inside a lexeme is taken for a load directive and every load directive is laid out
plainly, `loadTargets` gives the targets that its statements load; and so for `importNames`, pieces
and imports. -/
theorem scans_eq_of_plain {text : String} {stmts : List Stmt} (parsed : parse text = .ok stmts) :
    (loadScan.Unhidden (placesOf text) → (∀ p ∈ placesOf text, p.PlainLoad) →
      loadTargets text = Stmt.loadedTargets stmts) ∧
    (importScan.Unhidden (placesOf text) → (∀ p ∈ placesOf text, p.PlainUse) →
      importNames text = Stmt.importedNames stmts) :=
  ⟨fun unhidden => ((scans_eq_iff_plain parsed).1 unhidden).mpr,
    fun unhidden => ((scans_eq_iff_plain parsed).2 unhidden).mpr⟩

/-- Directives in blocks, beside comments and texts with semicolons and line ends in them. -/
theorem scans_eq_in_blocks :
    let text := "use math; let x = \"a; b\nc\" // used; below\n" ++
      "if x \x7b\n  #load \"lib/a\" ;\n  use text\n\x7d else \x7b\n#load b\n\x7d"
    ∃ stmts, parse text = .ok stmts ∧ loadTargets text = Stmt.loadedTargets stmts ∧
      importNames text = Stmt.importedNames stmts ∧ Stmt.loadedTargets stmts = ["lib/a", "b"] ∧
      Stmt.importedNames stmts = ["math", "text"] := by
  intro text
  have parses : (parse text).toOption.any (fun stmts =>
      decide (Stmt.loadedTargets stmts = ["lib/a", "b"] ∧
        Stmt.importedNames stmts = ["math", "text"])) = true := by decide +kernel
  have layout : (loadScan.Unhidden (placesOf text) ∧ ∀ p ∈ placesOf text, p.PlainLoad) ∧
      importScan.Unhidden (placesOf text) ∧ ∀ p ∈ placesOf text, p.PlainUse := by decide +kernel
  obtain ⟨stmts, parsed, isProgram⟩ := exists_parse_of_any parses
  obtain ⟨loads, imports⟩ := of_decide_eq_true isProgram
  have agree := scans_eq_of_plain parsed
  exact ⟨stmts, parsed, agree.1 layout.1.1 layout.1.2, agree.2 layout.2.1 layout.2.2, loads,
    imports⟩

/-- Statements need nothing between them, but scans look at the start of lines and pieces only: a
directive that does not come first there is missed, or taken for part of a target. -/
theorem scans_ne_on_one_line :
    (∃ stmts, parse "let x = 1 use math" = .ok stmts ∧ Stmt.importedNames stmts = ["math"] ∧
      importNames "let x = 1 use math" = []) ∧
    (∃ stmts, parse "#load a #load b" = .ok stmts ∧ Stmt.loadedTargets stmts = ["a", "b"] ∧
      loadTargets "#load a #load b" = ["a #load b"]) := by
  have imports : (parse "let x = 1 use math").toOption.any (fun stmts =>
      decide (Stmt.importedNames stmts = ["math"])) = true := by decide +kernel
  have loads : (parse "#load a #load b").toOption.any (fun stmts =>
      decide (Stmt.loadedTargets stmts = ["a", "b"])) = true := by decide +kernel
  constructor
  · obtain ⟨stmts, parsed, named⟩ := exists_parse_of_any imports
    exact ⟨stmts, parsed, of_decide_eq_true named, by decide +kernel⟩
  · obtain ⟨stmts, parsed, named⟩ := exists_parse_of_any loads
    exact ⟨stmts, parsed, of_decide_eq_true named, by decide +kernel⟩

end ScriptShell
