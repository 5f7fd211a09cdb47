import ScriptShell.Text.CharClass
import ScriptShell.Text.Lines

/-! # Pieces of a text

The first piece of a text, and **`pieces_append`**: the pieces of two texts in a row. Then what
trimming does to texts that are put together, and what it takes to see that a line and the piece
that it is made of have the same trimmed text. -/

namespace ScriptShell.Text

variable {cut : Char → Bool} {text : List Char}

/-- The text up to its first cut. -/
def firstPiece (cut : Char → Bool) (text : List Char) : List Char :=
  text.takeWhile fun c => !cut c

/-- The first piece ends where the text is cut. -/
theorem firstPiece_cons_of_cut {c : Char} (isCut : cut c = true) (text : List Char) :
    firstPiece cut (c :: text) = [] := by
  simp [firstPiece, isCut]

/-- The first piece has all characters before the first cut. -/
theorem firstPiece_cons_of_uncut {c : Char} (uncut : cut c = false) (text : List Char) :
    firstPiece cut (c :: text) = c :: firstPiece cut text := by
  simp [firstPiece, uncut]

/-- The first piece has no cut. -/
theorem cut_eq_false_of_mem_firstPiece {c : Char} (member : c ∈ firstPiece cut text) :
    cut c = false := by
  simpa using List.all_eq_true.mp List.all_takeWhile c member

/-- What is not cut belongs to the first piece. -/
theorem firstPiece_append {first : List Char} (uncut : ∀ c ∈ first, cut c = false)
    (second : List Char) : firstPiece cut (first ++ second) = first ++ firstPiece cut second :=
  List.takeWhile_append_of_pos fun c member => by simp [uncut c member]

/-- The pieces are the first one and others. -/
theorem pieces_eq_cons (cut : Char → Bool) (text : List Char) :
    pieces cut text = firstPiece cut text :: (pieces cut text).tail := by
  induction text with
  | nil => rfl
  | cons c text ih =>
      rw [pieces]
      cases isCut : cut c with
      | true => rw [if_pos rfl, firstPiece_cons_of_cut isCut, List.tail_cons]
      | false =>
          rw [if_neg (by decide), firstPiece_cons_of_uncut isCut, ih]
          rfl

/-- A cut starts a new piece. -/
theorem pieces_cons_of_cut {c : Char} (isCut : cut c = true) (text : List Char) :
    pieces cut (c :: text) = [] :: pieces cut text := by
  rw [pieces, if_pos isCut]

/-- A character that is no cut belongs to the first piece. -/
theorem pieces_cons_of_uncut {c : Char} (uncut : cut c = false) (text : List Char) :
    pieces cut (c :: text) = (c :: firstPiece cut text) :: (pieces cut text).tail := by
  rw [pieces, if_neg (by simp [uncut]), pieces_eq_cons]
  rfl

/-- A text without cuts is one piece. -/
theorem pieces_of_uncut (uncut : ∀ c ∈ text, cut c = false) : pieces cut text = [text] := by
  induction text with
  | nil => rfl
  | cons c text ih =>
      have rest : pieces cut text = [text] :=
        ih fun d member => uncut d (List.mem_cons_of_mem c member)
      rw [pieces, if_neg (by simp [uncut c List.mem_cons_self]), rest]

/-- **The pieces of two texts in a row**: the last piece of one goes on with the first piece of the
other. -/
theorem pieces_append (cut : Char → Bool) (first second : List Char) :
    pieces cut (first ++ second) =
      pieces cut (first ++ firstPiece cut second) ++ (pieces cut second).tail := by
  -- The piece that is open where the texts meet is the last one of the first text and of its
  -- extension by the other's first piece.
  induction first with
  | nil =>
      have uncut : ∀ c ∈ firstPiece cut second, cut c = false :=
        fun c member => cut_eq_false_of_mem_firstPiece member
      rw [List.nil_append, List.nil_append, pieces_of_uncut uncut, List.singleton_append]
      exact pieces_eq_cons cut second
  | cons c first ih =>
      simp only [List.cons_append]
      cases isCut : cut c with
      | true => rw [pieces_cons_of_cut isCut, pieces_cons_of_cut isCut, ih, List.cons_append]
      | false =>
          have again : firstPiece cut (first ++ second) =
              firstPiece cut (first ++ firstPiece cut second) := by
            have same := ih
            rw [pieces_eq_cons cut (first ++ second),
              pieces_eq_cons cut (first ++ firstPiece cut second), List.cons_append] at same
            exact (List.cons.inj same).1
          have tails : (pieces cut (first ++ second)).tail =
              (pieces cut (first ++ firstPiece cut second)).tail ++ (pieces cut second).tail := by
            rw [ih, List.tail_append_of_ne_nil (pieces_ne_nil cut _)]
          rw [pieces_cons_of_uncut isCut, pieces_cons_of_uncut isCut, again, tails,
            List.cons_append]

/-! ## Trimming -/

/-- A text ends with `tail` exactly when it is what is left followed by `tail`. -/
theorem dropTail?_eq_some_iff {tail text front : List Char} :
    dropTail? tail text = some front ↔ text = front ++ tail := by
  rw [dropTail?, Option.map_eq_some_iff]
  constructor
  · rintro ⟨rest, dropped, rfl⟩
    have whole := congrArg List.reverse (dropLead?_eq_some_iff.mp dropped)
    rwa [List.reverse_reverse, List.reverse_append, List.reverse_reverse] at whole
  · rintro rfl
    exact ⟨front.reverse, dropLead?_eq_some_iff.mpr List.reverse_append, List.reverse_reverse front⟩

variable {p : Char → Bool}

/-- An end of the kind asked for is dropped as a whole. -/
theorem dropEndWhile_append_of_pos {ending : List Char} (all : ∀ c ∈ ending, p c = true)
    (text : List Char) : dropEndWhile p (text ++ ending) = dropEndWhile p text := by
  rw [dropEndWhile, List.reverse_append,
    List.dropWhile_append_of_pos fun c member => all c (List.mem_reverse.mp member), ← dropEndWhile]

/-- What is dropped stands after the last character that stays. -/
theorem dropEndWhile_append_of_neg {c : Char} (stays : p c = false) (text ending : List Char) :
    dropEndWhile p (text ++ [c] ++ ending) = text ++ [c] ++ dropEndWhile p ending := by
  rw [dropEndWhile, List.reverse_append, List.dropWhile_append]
  -- Either all of the ending is dropped, or the dropping stops inside it.
  split
  · rename_i isNil
    have noEnding : dropEndWhile p ending = [] := by
      rw [dropEndWhile, List.isEmpty_iff.mp isNil, List.reverse_nil]
    simp [noEnding, stays]
  · rw [List.reverse_append, List.reverse_reverse, ← dropEndWhile]

/-- Only characters of the class are dropped. -/
theorem exists_dropEndWhile_append (p : Char → Bool) (text : List Char) :
    ∃ ending, (∀ c ∈ ending, p c = true) ∧ dropEndWhile p text ++ ending = text := by
  refine ⟨(text.reverse.takeWhile p).reverse, ?_, ?_⟩
  · intro c member
    exact List.all_eq_true.mp List.all_takeWhile c (List.mem_reverse.mp member)
  · rw [dropEndWhile, ← List.reverse_append, List.takeWhile_append_dropWhile, List.reverse_reverse]

/-- To drop an end twice is to drop it once. -/
theorem dropEndWhile_dropEndWhile (p : Char → Bool) (text : List Char) :
    dropEndWhile p (dropEndWhile p text) = dropEndWhile p text := by
  obtain ⟨ending, all, whole⟩ := exists_dropEndWhile_append p text
  rw [← dropEndWhile_append_of_pos all, whole]

/-- Everything is dropped exactly if everything is of the kind asked for. -/
theorem dropEndWhile_eq_nil_iff : dropEndWhile p text = [] ↔ ∀ c ∈ text, p c = true := by
  constructor
  · intro isNil
    obtain ⟨ending, all, whole⟩ := exists_dropEndWhile_append p text
    rw [isNil, List.nil_append] at whole
    exact whole ▸ all
  · intro all
    exact dropEndWhile_append_of_pos all []

/-- Blanks before a text. -/
theorem trim_blanks_append {blanks : List Char} (all : ∀ c ∈ blanks, isBlank c = true)
    (text : List Char) : trim (blanks ++ text) = trim text := by
  rw [trim, trimStart, List.dropWhile_append_of_pos all]
  rfl

/-- Blanks after a text. -/
theorem trim_append_blanks {blanks : List Char} (all : ∀ c ∈ blanks, isBlank c = true)
    (text : List Char) : trim (text ++ blanks) = trim text := by
  rw [trim, trim, trimStart, trimStart, List.dropWhile_append]
  split
  · rename_i isNil
    have noBlanks : blanks.dropWhile isBlank = [] := by
      rw [← List.append_nil blanks, List.dropWhile_append_of_pos all, List.dropWhile_nil]
    rw [noBlanks, List.isEmpty_iff.mp isNil]
  · exact dropEndWhile_append_of_pos all _

/-- A text that neither starts nor ends with a blank stays, whatever follows it. -/
theorem trim_append_of_solid {x y : Char} {more text : List Char} (starts : isBlank x = false)
    (ends : isBlank y = false) (isText : x :: more = text ++ [y]) (tail : List Char) :
    trim (text ++ [y] ++ tail) = text ++ [y] ++ trimEnd tail := by
  have noLead : trimStart (text ++ [y] ++ tail) = text ++ [y] ++ tail := by
    rw [trimStart, ← isText, List.cons_append, List.dropWhile_cons, if_neg (by simp [starts])]
  rw [trim, noLead]
  exact dropEndWhile_append_of_neg ends text tail

/-- A text that starts without a blank is trimmed at its end only. -/
theorem trim_cons {x : Char} (starts : isBlank x = false) (text : List Char) :
    trim (x :: text) = x :: trimEnd text :=
  @trim_append_of_solid x x [] [] starts starts rfl text

/-- Blanks alone are trimmed away. -/
theorem trim_eq_nil (all : ∀ c ∈ text, isBlank c = true) : trim text = [] := by
  rw [← List.append_nil text, trim_blanks_append all]
  rfl

/-- Trimming takes away nothing but blanks. -/
theorem exists_append_trim_append (text : List Char) :
    ∃ lead ending, (∀ c ∈ lead, isBlank c = true) ∧ (∀ c ∈ ending, isBlank c = true) ∧
      lead ++ (trim text ++ ending) = text := by
  obtain ⟨ending, all, whole⟩ := exists_dropEndWhile_append isBlank (trimStart text)
  refine ⟨text.takeWhile isBlank, ending, List.all_eq_true.mp List.all_takeWhile, all, ?_⟩
  rw [trim, trimEnd, whole, trimStart, List.takeWhile_append_dropWhile]

/-- To trim twice is to trim once. -/
theorem trim_trim (text : List Char) : trim (trim text) = trim text := by
  obtain ⟨lead, ending, isLead, isEnding, whole⟩ := exists_append_trim_append text
  rw [← trim_append_blanks isEnding (trim text), ← trim_blanks_append isLead, whole]

/-- A carriage return at the end is trimmed away with the blanks. -/
theorem trim_dropReturn (line : List Char) : trim (dropReturn line) = trim line := by
  rw [dropReturn]
  split
  · rename_i isLast
    obtain ⟨front, rfl⟩ := List.getLast?_eq_some_iff.mp isLast
    rw [List.dropLast_concat, trim_append_blanks (List.forall_mem_singleton.mpr rfl)]
  · rfl

/-- Where only the trimmed text counts and nothing is read in an empty one, the lines of a text and
its pieces between line feeds are read alike. -/
theorem filterMap_lines {α : Type} {read : List Char → Option α}
    (sameTrim : ∀ text, read (trim text) = read text) (readNil : read [] = none)
    (text : List Char) :
    (lines text).filterMap read = (pieces (· == '\n') text).filterMap read := by
  rw [lines]
  generalize pieces (· == '\n') text = parts
  -- A line feed at the very end makes an empty piece, but no line; nothing is read in it.
  induction parts with
  | nil => rfl
  | cons line more ih =>
      cases more with
      | nil =>
          cases line with
          | nil => simp [closeLines, readNil]
          | cons c line => rfl
      | cons next more =>
          have same : read (dropReturn line) = read line := by
            rw [← sameTrim, trim_dropReturn, sameTrim]
          rw [closeLines, List.filterMap_cons, List.filterMap_cons, ih, same]

end ScriptShell.Text
