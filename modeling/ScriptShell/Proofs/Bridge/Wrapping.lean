import ScriptShell.Bridge.Basic
import ScriptShell.Module.Standard
import ScriptShell.Proofs.Reference.DirectiveLines

/-! # What the bridge makes of a command

A command is evaluated after an import of the globals module, on the same line, and maybe after a
load directive for it, on a line of its own. **`expression_keeps_later_loads`** says what that
leaves of the command: all its statements and its imports, but of its load directives only those
after its first line. The first line goes on behind the import, and a load directive is found at
the start of a line only. So a command that starts with one does not get its module. -/

namespace ScriptShell

open Text Grammar

/-! ## Scans of texts in a row -/

namespace Scan

variable {s : Scan}

/-- What is found is found in the first piece or after it. -/
theorem found_eq_append_tail (text : List Char) : s.found text =
    (s.read (firstPiece s.cut text)).toList ++ (pieces s.cut text).tail.filterMap s.read := by
  rw [found, pieces_eq_cons, List.filterMap_cons, List.tail_cons]
  cases s.read (firstPiece s.cut text) <;> rfl

/-- A text without cuts goes on with the first piece of another. -/
theorem found_append_uncut {first : List Char} (uncut : ∀ c ∈ first, s.cut c = false)
    (rest : List Char) : s.found (first ++ rest) =
      (s.read (first ++ firstPiece s.cut rest)).toList ++
        (pieces s.cut rest).tail.filterMap s.read := by
  have whole : ∀ c ∈ first ++ firstPiece s.cut rest, s.cut c = false := by
    intro c member
    rcases List.mem_append.mp member with member | member
    · exact uncut c member
    · exact cut_eq_false_of_mem_firstPiece member
  rw [found, pieces_append, pieces_of_uncut whole, List.singleton_append, List.filterMap_cons]
  cases s.read (first ++ firstPiece s.cut rest) <;> rfl

/-- A blank in front changes nothing. -/
theorem Lawful.found_blank (lawful : s.Lawful) {x : Char} (blank : isBlank x = true)
    (uncut : s.cut x = false) (text : List Char) : s.found (x :: text) = s.found text := by
  have same : s.read (x :: firstPiece s.cut text) = s.read (firstPiece s.cut text) := by
    rw [← lawful.read_trim, ← List.singleton_append,
      trim_blanks_append (List.forall_mem_singleton.mpr blank), lawful.read_trim]
  rw [← List.singleton_append, found_append_uncut (List.forall_mem_singleton.mpr uncut),
    List.singleton_append, same, ← found_eq_append_tail]

end Scan

/-! ## The first line of a text and the others -/

/-- A text without its first line. -/
def Text.afterFirstLine (text : String) : String :=
  String.ofList ((text.toList.dropWhile (· != '\n')).drop 1)

/-- The load directives after the first line. -/
theorem filterMap_tail_pieces (text : List Char) :
    (pieces loadScan.cut text).tail.filterMap loadScan.read =
      loadScan.found ((text.dropWhile (· != '\n')).drop 1) := by
  induction text with
  | nil => decide
  | cons c text ih =>
      by_cases isEnd : c = '\n'
      · subst isEnd
        rw [pieces_cons_of_cut rfl]
        rfl
      · have uncut : loadScan.cut c = false := loadScan_cut_eq_false isEnd
        rw [pieces_cons_of_uncut uncut, List.tail_cons, ih, List.dropWhile_cons,
          if_pos (bne_iff_ne.mpr isEnd)]

/-- The first line of a text and the piece that it is made of are read alike. -/
theorem loadTarget?_firstLine (text : String) : loadTarget? (firstLine text).toList =
    loadTarget? (firstPiece loadScan.cut text.toList) := by
  have sameRead : ∀ line, loadTarget? (dropReturn line) = loadTarget? line := by
    intro line
    rw [← loadTarget?_trim, trim_dropReturn, loadTarget?_trim]
  have isPieces : pieces (· == '\n') text.toList =
      firstPiece loadScan.cut text.toList :: (pieces loadScan.cut text.toList).tail :=
    pieces_eq_cons loadScan.cut text.toList
  rw [firstLine, String.toList_ofList, lines, isPieces]
  cases (pieces loadScan.cut text.toList).tail with
  | cons next more => exact sameRead _
  | nil =>
      rw [closeLines]
      by_cases isEmpty : (firstPiece loadScan.cut text.toList).isEmpty = true
      · rw [if_pos isEmpty, List.isEmpty_iff.mp isEmpty]
        rfl
      · rw [if_neg isEmpty]
        rfl

/-- The targets behind the first line are those read from the pieces after the first. -/
theorem loadTargets_afterFirstLine (text : String) : loadTargets (afterFirstLine text) =
    ((pieces loadScan.cut text.toList).tail.filterMap loadScan.read).map String.ofList := by
  rw [loadTargets_eq_found, afterFirstLine, String.toList_ofList, filterMap_tail_pieces]

/-- The load directives of a text are that of its first line and those after it. -/
theorem loadTargets_eq_append (text : String) : loadTargets text =
    (loadTarget? (firstLine text).toList).toList.map String.ofList ++
      loadTargets (afterFirstLine text) := by
  rw [loadTargets_eq_found, loadTargets_afterFirstLine, Scan.found_eq_append_tail,
    List.map_append, loadTarget?_firstLine]
  rfl

/-- The first line can be left out exactly if it loads nothing. -/
theorem loadTargets_eq_afterFirstLine_iff (text : String) :
    loadTargets (afterFirstLine text) = loadTargets text ↔
      loadTarget? (firstLine text).toList = none := by
  rw [loadTargets_eq_append text]
  cases loadTarget? (firstLine text).toList <;> simp

/-! ## An import in front of a text -/

variable {name : List Char}

/-- A text after an import of a module, on the same line. -/
def afterImport (name text : List Char) : List Char :=
  useWord ++ ' ' :: (name ++ ';' :: ' ' :: text)

/-- Behind an import that is put in front, the first line of a text loads nothing any more. -/
theorem loads_afterImport (named : isName name = true) (text : List Char) :
    loadScan.found (afterImport name text) =
      (pieces loadScan.cut text).tail.filterMap loadScan.read := by
  have writable : (Directive.use name).isWritable = true := named
  have uncut : ∀ c ∈ (Directive.use name).line ++ [';', ' '], loadScan.cut c = false := by
    intro c member
    refine loadScan_cut_eq_false ?_
    rcases List.mem_append.mp member with inLine | isEnd
    · exact (Directive.mem_line writable inLine).1
    · exact ne_of_mem_of_not_mem isEnd (by decide)
  have isText : afterImport name text = (Directive.use name).line ++ [';', ' '] ++ text := by
    simp [afterImport, Directive.line]
  rw [isText, Scan.found_append_uncut uncut]
  -- The first line starts with the letters of the import.
  exact congrArg (·.toList ++ _) (Directive.loadTarget?_use _)

/-- An import that is put in front is found in front of those of the text. -/
theorem imports_afterImport (named : isName name = true) (text : List Char) :
    importScan.found (afterImport name text) = name :: importScan.found text := by
  have writable : (Directive.use name).isWritable = true := named
  have isText : afterImport name text = (Directive.use name).line ++ ';' :: ' ' :: text := by
    simp [afterImport, Directive.line]
  rw [isText, Scan.found_append_cut (Directive.importScan_cut_line writable) rfl,
    Directive.importScan_read_line writable, importScan_lawful.found_blank (by decide) (by decide)]
  rfl

/-- The statements of a text after an import. -/
theorem parseChars_afterImport (named : isName name = true) (text : List Char) :
    (parseChars (afterImport name text)).toOption.map Stmt.bareAll =
      ((parseChars text).toOption.map Stmt.bareAll).map
        (.use (String.ofList name) default :: ·) := by
  obtain ⟨p', t, span, isMatch, built⟩ := matches_useStatement named {} (' ' :: text)
  have atStart : skip scriptGrammar {} (Cursor.start (afterImport name text)) =
      ⟨{}, afterImport name text⟩ := skip_other (by decide) (by decide) {}
  have isFirst : Matches scriptGrammar (.rule .statement) {}
      (skip scriptGrammar {} (Cursor.start (afterImport name text))) _ := atStart ▸ isMatch
  exact bareAll_parseChars_cons isFirst (skip_blank (by decide) p' text) built

/-! ## Commands -/

namespace Bridge

/-- A command without the semicolons at its end. -/
def bareCommand (command : String) : String :=
  String.ofList (dropEndWhile (· == ';') command.toList)

/-- The modules that are loaded for a command: the globals module, unless it is the prelude or
bound. -/
def added (b : Bridge) : List String :=
  if b.globals == preludeName || b.session.references.hasModule b.globals then [] else [b.globals]

/-- The text that a bridge evaluates, character by character. -/
theorem toList_expression (b : Bridge) (command : String) : (b.expression command).toList =
    let used := afterImport b.globals.toList (bareCommand command).toList
    if b.added = [] then used else (Directive.load b.globals.toList).before used := by
  have isUsed : ("use " ++ b.globals ++ "; " ++ bareCommand command).toList =
      afterImport b.globals.toList (bareCommand command).toList := by
    simp [afterImport, useWord]
  rw [expression, added]
  cases isBound : b.globals == preludeName || b.session.references.hasModule b.globals with
  | true => exact isUsed
  | false =>
      show ("#load \"" ++ b.globals ++ "\"\n" ++
        ("use " ++ b.globals ++ "; " ++ bareCommand command)).toList = _
      rw [String.toList_append, isUsed]
      simp [Directive.before, Directive.line, loadMark]

variable {b : Bridge}

/-- A bridge adds its own module, or nothing. -/
theorem added_cases (b : Bridge) : b.added = [] ∨ b.added = [b.globals] := by
  rw [added]
  split
  · exact .inl rfl
  · exact .inr rfl

/-- The load directive for the globals module can be written. -/
theorem isWritable_globals (named : isName b.globals.toList = true) :
    (Directive.load b.globals.toList).isWritable = true :=
  isQuotable_of_isName named

/-- The load directives of the text around a command. -/
theorem loadTargets_expression (named : isName b.globals.toList = true) (command : String) :
    loadTargets (b.expression command) =
      b.added ++ loadTargets (afterFirstLine (bareCommand command)) := by
  rw [loadTargets_eq_found, toList_expression, loadTargets_afterFirstLine]
  rcases b.added_cases with none | one
  · simp only [none, if_pos, loads_afterImport named, List.nil_append]
  · simp only [one, List.cons_ne_nil, if_neg, Directive.loads_before (isWritable_globals named),
      loads_afterImport named, not_false_eq_true, List.map_append]
    simp [loadScan]

/-- The imports of the text around a command. -/
theorem importNames_expression (named : isName b.globals.toList = true) (command : String) :
    importNames (b.expression command) = b.globals :: importNames (bareCommand command) := by
  have isFound : ∀ text, importNames text = (importScan.found text.toList).map String.ofList :=
    fun _ => rfl
  have used := imports_afterImport named (bareCommand command).toList
  have loaded : ∀ text, importScan.found ((Directive.load b.globals.toList).before text) =
      importScan.found text := Directive.imports_before (isWritable_globals named)
  rw [isFound, isFound, toList_expression]
  rcases b.added_cases with none | one
  · simp only [none, if_pos, used, List.map_cons, String.ofList_toList]
  · simp only [one, List.cons_ne_nil, if_neg, loaded, used, not_false_eq_true, List.map_cons,
      String.ofList_toList]

/-- The statements of the text around a command. -/
theorem parse_expression (named : isName b.globals.toList = true) (command : String) :
    (parse (b.expression command)).toOption.map Stmt.bareAll =
      (parse (bareCommand command)).toOption.map fun stmts =>
        Stmt.bareAll (b.added.map (.load · default) ++ .use b.globals default :: stmts) := by
  have used := parseChars_afterImport named (bareCommand command).toList
  have unended : ∀ x ∈ (afterGap (afterImport b.globals.toList
      (bareCommand command).toList)).head?, x ≠ ';' := by
    intro x isFirst
    rw [afterImport, useWord, List.cons_append, afterGap_other (by decide) (by simp)] at isFirst
    cases isFirst
    decide
  have loaded := Directive.parseChars_before (isWritable_globals named) unended
  rw [Directive.statement, String.ofList_toList] at loaded
  rw [String.ofList_toList] at used
  rw [parse, parse, toList_expression]
  rcases b.added_cases with none | one
  · simp only [none, if_pos, used, Option.map_map]
    rfl
  · simp only [one, List.cons_ne_nil, if_neg, not_false_eq_true, loaded, used, Option.map_map]
    rfl

/-- **The text around a command keeps its statements and its imports, and its load directives but
for that of the first line.** Where the globals module has a name: what is loaded is the globals
module, unless it is the prelude or bound, and what the command loads after its first line, which is
all that it loads exactly if its first line is no load directive. What is imported is the globals
module and what the command imports. And the text has statements exactly if the command has: those
of the command, up to their places, after a load directive and an import for the globals module. -/
theorem expression_keeps_later_loads (b : Bridge) (named : isName b.globals.toList = true)
    (command : String) :
    let bare := bareCommand command
    let whole := b.expression command
    loadTargets whole = b.added ++ loadTargets (afterFirstLine bare) ∧
    (loadTargets whole = b.added ++ loadTargets bare ↔
      loadTarget? (firstLine bare).toList = none) ∧
    importNames whole = b.globals :: importNames bare ∧
    (parse whole).toOption.map Stmt.bareAll =
      (parse bare).toOption.map fun stmts =>
        Stmt.bareAll (b.added.map (.load · default) ++ .use b.globals default :: stmts) := by
  intro bare whole
  have loads := loadTargets_expression named command
  refine ⟨loads, ?_, importNames_expression named command, parse_expression named command⟩
  rw [loads, List.append_cancel_left_eq]
  exact loadTargets_eq_afterFirstLine_iff bare

/-- A command that starts with a load directive: the directive is still one of the statements, but
it is not found, and the call answers with an error. -/
theorem expression_loses_first_load :
    let b : Bridge := {}
    let h : Host := ⟨Catalog.standard, ⟨Resolver.ofCatalog Catalog.standard, []⟩, 0⟩
    let command := "#load stats\nstats.sum([1, 2])"
    isName b.globals.toList = true ∧ loadTargets (b.expression command) = [] ∧
      loadTargets (bareCommand command) = ["stats"] ∧
      importNames (b.expression command) = [preludeName] ∧
      (parse (b.expression command)).toOption.map Stmt.bareAll =
        (parse (bareCommand command)).toOption.map (fun stmts =>
          Stmt.bareAll (.use preludeName default :: stmts)) ∧
      (b.invoke h command {}).result.toOption.map (·.isError) = some true := by
  intro b h command
  have named : isName b.globals.toList = true := by decide
  have notAdded : b.added = [] := by decide
  have laterLoads : loadTargets (afterFirstLine (bareCommand command)) = [] := by decide +kernel
  have ownLoads : loadTargets (bareCommand command) = ["stats"] := by decide +kernel
  have ownImports : importNames (bareCommand command) = [] := by decide +kernel
  have fails : (b.invoke h command {}).result.toOption.map (·.isError) = some true := by
    decide +kernel
  obtain ⟨loads, -, imports, statements⟩ := expression_keeps_later_loads b named command
  rw [notAdded, laterLoads] at loads
  rw [ownImports] at imports
  rw [notAdded] at statements
  exact ⟨named, loads, ownLoads, imports, statements, fails⟩

end Bridge

end ScriptShell
