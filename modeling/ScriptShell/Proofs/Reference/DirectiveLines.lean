import ScriptShell.Proofs.Reference.Layout
import ScriptShell.Proofs.Syntax.Written
import ScriptShell.Session.Preload
import Mathlib.Data.List.TakeWhile

/-! # Directives on lines of their own

A text of directives, one to a line, is read in three ways: line by line for what it loads, piece by
piece for what it imports, and by the grammar for its statements. Each gives back the directives
that were written, in their order, where targets can stand between quotes as they are and names are
names. So does the text that a session preloads, **`preloadText_reads_back`**. -/

namespace ScriptShell

open Text Grammar

/-- A text without cuts, a cut, and another text. -/
theorem Scan.found_append_cut {s : Scan} {first : List Char}
    (uncut : ∀ c ∈ first, s.cut c = false) {c : Char} (isCut : s.cut c = true)
    (rest : List Char) :
    s.found (first ++ c :: rest) = (s.read first).toList ++ s.found rest := by
  rw [found, pieces_append, firstPiece_cons_of_cut isCut, List.append_nil, pieces_of_uncut uncut,
    pieces_cons_of_cut isCut, List.tail_cons, List.singleton_append, List.filterMap_cons, found]
  cases s.read first <;> rfl

/-! ## Targets and names that can be written -/

/-- Targets that stand between quotes as they are, on one line and in one piece. -/
def isQuotable (target : List Char) : Bool :=
  !target.isEmpty && target.all fun c => c != '"' && c != '\\' && c != ';' && c != '\n'

variable {target name text : List Char}

/-- What can be written between quotes: something, without special characters and ends of pieces. -/
theorem isQuotable_iff : isQuotable target = true ↔
    target ≠ [] ∧ ∀ c ∈ target, isPlain c ∧ c ≠ ';' ∧ c ≠ '\n' := by
  simp [isQuotable, isPlain, and_assoc]

/-- What can be written between quotes has plain characters only. -/
theorem isPlain_of_isQuotable (quotable : isQuotable target = true) : ∀ c ∈ target, isPlain c :=
  fun c member => ((isQuotable_iff.mp quotable).2 c member).1

/-- Names can be written between quotes. -/
theorem isQuotable_of_isName (named : isName name = true) : isQuotable name = true := by
  refine isQuotable_iff.mpr ⟨?_, ?_⟩
  · rintro rfl
    cases named
  · intro c member
    have other : ∀ {d : Char}, isNameChar d = false → c ≠ d :=
      ne_of_isNameChar (isNameChar_of_isName named c member)
    exact ⟨⟨other rfl, other rfl⟩, other rfl, other rfl⟩

/-- Characters of names may stand in imports. -/
theorem isImportChar_of_isNameChar {c : Char} (isChar : isNameChar c = true) :
    isImportChar c = true := by
  simp only [isNameChar, Bool.or_eq_true] at isChar
  rcases isChar with isAlphanum | isLine
  · simp [isImportChar, isAlphanumeric, isAlphanum]
  · simp [isImportChar, isLine]

/-! ## The line of a directive -/

namespace Directive

/-- Directives whose line is read back. -/
def isWritable : Directive → Bool
  | .load target => isQuotable target
  | .use name => isName name

/-- The line of a directive, without the line feed. -/
def line : Directive → List Char
  | .load target => loadMark ++ ' ' :: '"' :: (target ++ ['"'])
  | .use name => useWord ++ ' ' :: name

/-- A text after a directive on a line of its own. -/
def before (d : Directive) (text : List Char) : List Char :=
  d.line ++ '\n' :: text

/-- The statement that a directive is, without a place. -/
def statement : Directive → Stmt
  | .load target => .load (String.ofList target) default
  | .use name => .use (String.ofList name) default

variable {d : Directive} {ds : List Directive}

/-- A line is one piece for both scans. -/
theorem mem_line (writable : d.isWritable = true) {c : Char} (member : c ∈ d.line) :
    c ≠ '\n' ∧ c ≠ ';' := by
  cases d with
  | load target =>
      simp only [line, loadMark, List.cons_append, List.nil_append, List.mem_cons, List.mem_append,
        List.not_mem_nil, or_false] at member
      rcases member with rfl | rfl | rfl | rfl | rfl | rfl | rfl | inTarget | rfl
      case inr.inr.inr.inr.inr.inr.inr.inl =>
        exact ((isQuotable_iff.mp writable).2 c inTarget).2.symm
      all_goals decide
  | use name =>
      simp only [line, useWord, List.cons_append, List.nil_append, List.mem_cons] at member
      rcases member with rfl | rfl | rfl | rfl | inName
      case inr.inr.inr.inr =>
        have isChar := isNameChar_of_isName writable c inName
        exact ⟨ne_of_isNameChar isChar rfl, ne_of_isNameChar isChar rfl⟩
      all_goals decide

/-- A line that starts with a name is no load directive. -/
theorem loadTarget?_use (text : List Char) : loadTarget? ('u' :: text) = none := by
  rw [loadTarget?, trim_cons (by decide)]
  rfl

/-- The line of a directive is read as what it loads, if it loads something. -/
theorem loadScan_read_line (writable : d.isWritable = true) :
    loadScan.read d.line = loadScan.sought? d := by
  cases d with
  | use name => exact loadTarget?_use _
  | load target =>
      have plain : readEscapes target = target :=
        readEscapes_of_plain (isPlain_of_isQuotable writable)
      have blanks : ∀ c ∈ [' '], isBlank c = true := List.forall_mem_singleton.mpr rfl
      have closing : isClosing [] = true := rfl
      have isRead := (loadTarget?_quoted_iff blanks).mpr
        ⟨(isQuotable_iff.mp writable).1, plain, closing⟩
      rw [plain, List.append_nil] at isRead
      exact isRead

/-- The line of a directive is read as what it imports, if it imports something. -/
theorem importScan_read_line (writable : d.isWritable = true) :
    importScan.read d.line = importScan.sought? d := by
  cases d with
  | load target =>
      show importName? ('#' :: _) = none
      rw [importName?, trim_cons (by decide)]
      rfl
  | use name =>
      have isImport : ∀ c ∈ name, isImportChar c = true := fun c member =>
        isImportChar_of_isNameChar (isNameChar_of_isName writable c member)
      obtain ⟨x, word, rfl, -⟩ := isName_iff.mp writable
      have notBlank : isBlank x = false :=
        isBlank_eq_false_of_isImportChar (isImport x List.mem_cons_self)
      have noBlank : (' ' :: x :: word).dropWhile isBlank = x :: word := by
        rw [List.dropWhile_cons_of_pos (by decide), List.dropWhile_cons_of_neg (by simp [notBlank])]
      refine (importName?_use_iff (List.cons_ne_nil x word)).mpr ⟨rfl, ?_⟩
      rw [noBlank]
      exact List.takeWhile_eq_self_iff.mpr isImport

/-! ## A directive before a text -/

/-- A directive in front of a text adds what it loads. -/
theorem loads_before (writable : d.isWritable = true) (text : List Char) :
    loadScan.found (d.before text) = (loadScan.sought? d).toList ++ loadScan.found text := by
  have uncut : ∀ c ∈ d.line, loadScan.cut c = false :=
    fun c member => loadScan_cut_eq_false (mem_line writable member).1
  rw [before, Scan.found_append_cut uncut rfl, loadScan_read_line writable]

/-- The line of a directive is not cut. -/
theorem importScan_cut_line (writable : d.isWritable = true) :
    ∀ c ∈ d.line, importScan.cut c = false := by
  intro c member
  obtain ⟨notEnd, notSemicolon⟩ := mem_line writable member
  simp [importScan, notEnd, notSemicolon]

/-- A directive in front of a text adds what it imports. -/
theorem imports_before (writable : d.isWritable = true) (text : List Char) :
    importScan.found (d.before text) = (importScan.sought? d).toList ++ importScan.found text := by
  rw [before, Scan.found_append_cut (importScan_cut_line writable) rfl,
    importScan_read_line writable]

/-- The line of a directive is one statement, with the gap after it. -/
theorem matches_before (writable : d.isWritable = true)
    (unended : ∀ x ∈ (afterGap text).head?, x ≠ ';') :
    ∃ p t stmt, Matches scriptGrammar (.rule .statement) {}
        (skip scriptGrammar {} (Cursor.start (d.before text)))
        (some (skip scriptGrammar {} ⟨p, '\n' :: text⟩, [t])) ∧
      Stmt.ofTree t 0 = .ok stmt ∧ stmt.mapSpan (fun _ => default) = d.statement := by
  rw [← afterGap_blank (show scriptGrammar.isBlank '\n' = true by decide)] at unended
  cases d with
  | load target =>
      have isText : (load target).before text =
          loadMark ++ ' ' :: '"' :: (target ++ '"' :: '\n' :: text) := by
        simp [before, line]
      obtain ⟨p, t, span, isMatch, built⟩ :=
        matches_loadStatement (isPlain_of_isQuotable writable) {} unended
      rw [isText, Cursor.start, loadMark, List.cons_append, skip_other (by decide) (by decide)]
      exact ⟨p, t, _, isMatch, built, rfl⟩
  | use name =>
      have isText : (use name).before text = useWord ++ ' ' :: (name ++ '\n' :: text) := by
        simp [before, line]
      have ends : ∀ x ∈ ('\n' :: text).head?, isNameChar x = false := by
        rintro _ ⟨⟩
        rfl
      obtain ⟨p, t, span, isMatch, built⟩ :=
        matches_useStatement_unended writable ends unended {}
      rw [isText, Cursor.start, useWord, List.cons_append, skip_other (by decide) (by decide)]
      exact ⟨p, t, _, isMatch, built, rfl⟩

/-- The statements of a text after a directive, where no semicolon starts the text. -/
theorem parseChars_before (writable : d.isWritable = true)
    (unended : ∀ x ∈ (afterGap text).head?, x ≠ ';') :
    (parseChars (d.before text)).toOption.map Stmt.bareAll =
      ((parseChars text).toOption.map Stmt.bareAll).map (d.statement :: ·) := by
  obtain ⟨p, t, stmt, isFirst, built, isStatement⟩ := matches_before writable unended
  rw [← isStatement]
  exact bareAll_parseChars_cons isFirst ((skip_skip _).trans (skip_blank (by decide) p text)) built

/-! ## Lines of directives -/

/-- The text of directives, one to a line. -/
def lines (ds : List Directive) : List Char :=
  ds.foldr before []

/-- Lines that are each read as their directive. -/
theorem found_lines {s : Scan} (empty : s.found [] = [])
    (each : ∀ d ∈ ds, ∀ text, s.found (d.before text) = (s.sought? d).toList ++ s.found text) :
    s.found (lines ds) = ds.filterMap s.sought? := by
  induction ds with
  | nil => exact empty
  | cons d ds ih =>
      have others := ih fun d' member => each d' (List.mem_cons_of_mem d member)
      rw [List.filterMap_cons, lines, List.foldr_cons, each d List.mem_cons_self, ← lines, others]
      cases s.sought? d <;> rfl

/-- Lines of directives do not start with a semicolon. -/
theorem unended_lines (ds : List Directive) : ∀ x ∈ (afterGap (lines ds)).head?, x ≠ ';' := by
  have starts : ∀ {x : Char} {rest : List Char}, scriptGrammar.isBlank x = false → x ≠ '/' →
      x ≠ ';' → ∀ y ∈ (afterGap (x :: rest)).head?, y ≠ ';' := by
    intro x rest notBlank notSlash notSemicolon y isFirst
    rw [afterGap_other notBlank (by simp [notSlash])] at isFirst
    cases isFirst
    exact notSemicolon
  cases ds with
  | nil => rintro _ ⟨⟩
  | cons d ds =>
      cases d with
      | load => exact starts (by decide) (by decide) (by decide)
      | use => exact starts (by decide) (by decide) (by decide)

/-- The statements of lines of directives. -/
theorem parseChars_lines (writable : ∀ d ∈ ds, d.isWritable = true) :
    (parseChars (lines ds)).toOption.map Stmt.bareAll = some (ds.map statement) := by
  induction ds with
  | nil =>
      have isEmpty : parseChars [] = .ok [] := by rfl
      rw [lines, List.foldr_nil, isEmpty]
      rfl
  | cons d ds ih =>
      have others := ih fun d' member => writable d' (List.mem_cons_of_mem d member)
      rw [lines, List.foldr_cons, ← lines,
        parseChars_before (writable d List.mem_cons_self) (unended_lines ds), others]
      rfl

end Directive

/-! ## The text of a preload -/

/-- What a preload writes: directives to load, then imports. -/
def preloadDirectives (references imports : List String) : List Directive :=
  references.map (.load ·.toList) ++ imports.map (.use ·.toList)

/-- The text of a preload is that of its directives, line by line. -/
theorem toList_preloadText (references imports : List String) :
    (preloadText references imports).toList =
      Directive.lines (preloadDirectives references imports) := by
  have isLines : ∀ ds, Directive.lines ds = ds.flatMap (·.before []) := by
    intro ds
    induction ds with
    | nil => rfl
    | cons d ds ih =>
        rw [List.flatMap_cons, ← ih, Directive.lines, List.foldr_cons, ← Directive.lines,
          Directive.before, Directive.before, List.append_assoc]
        rfl
  have load : ∀ r, (loadLine r).toList = (Directive.load r.toList).before [] := by
    intro r
    simp [loadLine, Directive.before, Directive.line, loadMark]
  have use : ∀ n, (useLine n).toList = (Directive.use n.toList).before [] := by
    intro n
    simp [useLine, Directive.before, Directive.line, useWord]
  rw [isLines, preloadText, String.toList_append, String.toList_join, String.toList_join,
    preloadDirectives, List.flatMap_append]
  simp only [List.flatMap_map, load, use]

/-- **A preload is read back as it was asked for.** Take references that are not empty and have no
quotes, backslashes, semicolons or line feeds, and imports that are names. Then the text that loads
and imports them loads exactly the references and imports exactly the imports, in their order, and
its statements are a load directive for every reference and an import for every import. -/
theorem preloadText_reads_back {references imports : List String}
    (quotable : ∀ r ∈ references, isQuotable r.toList = true)
    (named : ∀ n ∈ imports, isName n.toList = true) :
    let text := preloadText references imports
    loadTargets text = references ∧ importNames text = imports ∧
      ∃ stmts, parse text = .ok stmts ∧
        Stmt.bareAll stmts = references.map (.load · default) ++ imports.map (.use · default) := by
  intro text
  have writable : ∀ d ∈ preloadDirectives references imports, d.isWritable = true := by
    simp only [preloadDirectives, List.mem_append, List.mem_map]
    rintro _ (⟨r, member, rfl⟩ | ⟨n, member, rfl⟩)
    · exact quotable r member
    · exact named n member
  have loads := Directive.found_lines (s := loadScan) rfl
    fun d member => Directive.loads_before (writable d member)
  have imported := Directive.found_lines (s := importScan) rfl
    fun d member => Directive.imports_before (writable d member)
  have parsed := Directive.parseChars_lines writable
  rw [← toList_preloadText] at loads imported parsed
  refine ⟨?_, ?_, ?_⟩
  · rw [loadTargets_eq_found, loads, preloadDirectives]
    simp [loadScan, List.filterMap_append, List.filterMap_map, Function.comp_def]
  · show (importScan.found _).map String.ofList = _
    rw [imported, preloadDirectives]
    simp [importScan, List.filterMap_append, List.filterMap_map, Function.comp_def]
  · show ∃ stmts, parseChars text.toList = .ok stmts ∧ _
    cases isParsed : parseChars text.toList with
    | error e =>
        rw [isParsed] at parsed
        cases parsed
    | ok stmts =>
        rw [isParsed] at parsed
        refine ⟨stmts, rfl, (Option.some.inj parsed).trans ?_⟩
        simp [preloadDirectives, Directive.statement, Function.comp_def]

/-- Targets with a space, a mark of comments and the word of imports in them, and names that start
as keywords do. -/
theorem preloadText_reads_back_odd :
    let references := ["shared libs//v2", "use stats", "ünits"]
    let imports := ["user", "_if", "let1"]
    let text := preloadText references imports
    (∀ r ∈ references, isQuotable r.toList = true) ∧ (∀ n ∈ imports, isName n.toList = true) ∧
      text = "#load \"shared libs//v2\"\n#load \"use stats\"\n#load \"ünits\"\n" ++
        "use user\nuse _if\nuse let1\n" ∧
      loadTargets text = references ∧ importNames text = imports ∧
      ∃ stmts, parse text = .ok stmts ∧
        Stmt.bareAll stmts = references.map (.load · default) ++ imports.map (.use · default) := by
  intro references imports text
  have quotable : ∀ r ∈ references, isQuotable r.toList = true := by decide
  have named : ∀ n ∈ imports, isName n.toList = true := by decide
  exact ⟨quotable, named, by decide, preloadText_reads_back quotable named⟩

end ScriptShell
