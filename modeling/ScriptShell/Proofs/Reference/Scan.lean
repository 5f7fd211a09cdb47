import ScriptShell.Proofs.Syntax.Lexeme
import ScriptShell.Proofs.Text.Pieces
import ScriptShell.Reference.Directive

/-! # Scans of a text

A scan cuts a text into pieces, with no regard to its lexemes, and looks for a directive at the
start of each piece. `Scan.Lawful.found_eq` says what it finds in a text with proper lexemes: the
directives that come first in their pieces, as far as it reads them, unless a piece that starts
inside a lexeme is taken for a directive.

A `Place` is a lexeme with the text before it and the text after it. -/

namespace ScriptShell

open Text

/-! ## Characters -/

/-- Visible ASCII characters are no blanks. -/
theorem isBlank_eq_false_of_visible {c : Char} (lower : 33 ≤ c.toNat) (upper : c.toNat < 128) :
    isBlank c = false := by
  have notSpace : c ≠ ' ' := by
    rintro rfl
    exact absurd lower (by decide)
  have notNarrow : 9 ≤ c.toNat → 13 < c.toNat := fun _ => by omega
  have notWide : ¬0x80 ≤ c.toNat := by omega
  simpa [isBlank, notSpace, notWide] using notNarrow

/-- Letters and digits are visible characters. -/
theorem visible_of_isAlphanum {c : Char} (isAlphanum : c.isAlphanum = true) :
    33 ≤ c.toNat ∧ c.toNat < 128 := by
  rcases Bool.or_eq_true_iff.mp isAlphanum with isAlpha | isDigit
  · have := toNat_of_isAlpha isAlpha
    omega
  · obtain ⟨lower, upper⟩ := Char.isDigit_iff_toNat.mp isDigit
    exact ⟨Nat.le_trans (by decide) lower, Nat.lt_of_le_of_lt upper (by decide)⟩

/-- Characters of targets, words and signs are no blanks. -/
theorem isBlank_eq_false_of_isTargetChar {c : Char} (isTarget : isTargetChar c = true) :
    isBlank c = false := by
  simp only [isTargetChar, Bool.or_eq_true, beq_iff_eq] at isTarget
  rcases isTarget with (((isAlphanum | rfl) | rfl) | rfl) | rfl
  · obtain ⟨lower, upper⟩ := visible_of_isAlphanum isAlphanum
    exact isBlank_eq_false_of_visible lower upper
  all_goals rfl

/-- Characters of names may stand in targets. -/
theorem isTargetChar_of_isNameChar {c : Char} (isName : isNameChar c = true) :
    isTargetChar c = true := by
  simp only [isNameChar, Bool.or_eq_true] at isName
  rcases isName with isAlphanum | isLine
  · simp [isTargetChar, isAlphanum]
  · simp [isTargetChar, isLine]

/-- A first character of a name is a character of names. -/
theorem isNameChar_of_isNameStart {c : Char} (isStart : isNameStart c = true) :
    isNameChar c = true := by
  simp only [isNameStart, Bool.or_eq_true] at isStart
  rcases isStart with isAlpha | isLine
  · simp [isNameChar, Char.isAlphanum, isAlpha]
  · simp [isNameChar, isLine]

/-- Signs are no blanks. -/
theorem isBlank_eq_false_of_isSign {c : Char} (sign : isSign c = true) : isBlank c = false := by
  rcases Bool.or_eq_true_iff.mp sign with isDigit | isMember
  · have isTarget : isTargetChar c = true := by simp [isTargetChar, Char.isAlphanum, isDigit]
    exact isBlank_eq_false_of_isTargetChar isTarget
  · have all : "()\x7b\x7d[]=,.;|&<>!+-*/%".toList.all (fun d => !isBlank d) = true := by decide
    simpa using List.all_eq_true.mp all c (List.contains_iff_mem.mp isMember)

/-- What the grammar skips as a blank is a blank. -/
theorem isBlank_of_grammar {c : Char} (blank : scriptGrammar.isBlank c = true) :
    isBlank c = true := by
  simp only [scriptGrammar, Bool.or_eq_true, beq_iff_eq] at blank
  rcases blank with ((rfl | rfl) | rfl) | rfl <;> rfl

/-! ## Places -/

/-- A lexeme in a text. -/
structure Place where
  before : List Char
  lexeme : Lexeme
  after : List Char
  deriving DecidableEq, Repr

/-- The places of the lexemes that follow a text. -/
def places (before : List Char) : List Lexeme → List Place
  | [] => []
  | l :: rest => ⟨before, l, rest.flatMap Lexeme.chars⟩ :: places (before ++ l.chars) rest

/-- The lexemes at the places are the lexemes. -/
theorem map_lexeme_places (before : List Char) (ls : List Lexeme) :
    (places before ls).map Place.lexeme = ls := by
  induction ls generalizing before with
  | nil => rfl
  | cons l rest ih => rw [places, List.map_cons, ih]

/-- Whether a piece that starts in `before` holds blanks only. -/
def startsPiece (cut : Char → Bool) (before : List Char) : Bool :=
  (before.reverse.takeWhile fun c => !cut c).all isBlank

/-- Whether a piece starts behind one more character. -/
theorem startsPiece_concat (cut : Char → Bool) (before : List Char) (c : Char) :
    startsPiece cut (before ++ [c]) = (cut c || (isBlank c && startsPiece cut before)) := by
  rw [startsPiece, List.reverse_append, List.reverse_singleton, List.singleton_append,
    List.takeWhile_cons]
  cases cut c <;> simp [startsPiece]

/-- After a character that neither is blank nor cuts, the piece has started. -/
theorem startsPiece_eq_false {cut : Char → Bool} {c : Char} (uncut : cut c = false)
    (notBlank : isBlank c = false) (before front : List Char) :
    startsPiece cut (before ++ (front ++ [c])) = false := by
  rw [← List.append_assoc, startsPiece_concat, uncut, notBlank]
  rfl

/-- The piece of a place, from its lexeme on. -/
def Place.piece (cut : Char → Bool) (p : Place) : List Char :=
  firstPiece cut (p.lexeme.chars ++ p.after)

/-- The pieces that start inside the lexeme of a place. -/
def Place.inside (cut : Char → Bool) (p : Place) : List (List Char) :=
  match p.lexeme with
  | .blank _ | .other _ => []
  | .comment _ | .quoted _ | .load .. | .use _ | .word _ =>
    (pieces cut (p.lexeme.chars ++ firstPiece cut p.after)).tail

/-- A scan for directives. -/
structure Scan where
  /-- The characters between two pieces. -/
  cut : Char → Bool
  /-- What is found in a piece. -/
  read : List Char → Option (List Char)
  /-- What is to be found for a directive, if the scan looks for directives of its kind. -/
  sought? : Directive → Option (List Char)

namespace Scan

variable (s : Scan)

/-- What a scan finds in a text. -/
def found (text : List Char) : List (List Char) :=
  (pieces s.cut text).filterMap s.read

/-- What is to be found for a lexeme. -/
def seeks? (l : Lexeme) : Option (List Char) :=
  l.directive?.bind s.sought?

/-- What is found at a place: something only if the lexeme is sought and the first one of its
piece. -/
def reading (p : Place) : Option (List Char) :=
  if startsPiece s.cut p.before = true ∧ (s.seeks? p.lexeme).isSome = true then
    s.read (p.piece s.cut)
  else none

/-- No piece that starts inside a lexeme is taken for a directive. -/
def Unhidden (ps : List Place) : Prop :=
  ∀ p ∈ ps, ∀ piece ∈ p.inside s.cut, s.read piece = none

instance (ps : List Place) : Decidable (s.Unhidden ps) :=
  inferInstanceAs (Decidable (∀ p ∈ ps, ∀ piece ∈ p.inside s.cut, s.read piece = none))

/-- What is asked of a scan: it cuts at line feeds and perhaps at semicolons, blanks around a piece
do not count, and a piece in which it finds something starts with a lexeme that it looks for. -/
structure Lawful : Prop where
  cut_lineFeed : s.cut '\n' = true
  eq_of_cut : ∀ c, s.cut c = true → c = '\n' ∨ c = ';'
  read_trim : ∀ text, s.read (trim text) = s.read text
  read_nil : s.read [] = none
  seeks_of_read : ∀ x rest, isBlank x = false → (Lexeme.next x rest).1.Proper →
    (s.read (firstPiece s.cut (x :: rest))).isSome = true →
    (s.seeks? (Lexeme.next x rest).1).isSome = true

/-- What is found from here on, after the text `before`. -/
def left (before text : List Char) : List (List Char) :=
  (if startsPiece s.cut before = true then pieces s.cut text
    else (pieces s.cut text).tail).filterMap s.read

variable {s}

/-- The piece that goes on, and the pieces after it. -/
theorem left_eq (before text : List Char) :
    s.left before text =
      (if startsPiece s.cut before = true then s.read (firstPiece s.cut text) else none).toList ++
        (pieces s.cut text).tail.filterMap s.read := by
  rw [left]
  split
  · rw [pieces_eq_cons, List.filterMap_cons, List.tail_cons]
    cases s.read (firstPiece s.cut text) <;> rfl
  · rfl

/-- A lexeme that is sought is found as it is meant if it is the first one of its piece and the
piece is read so. -/
theorem reading_eq_iff {p : Place} {name : List Char} (sought : s.seeks? p.lexeme = some name) :
    s.reading p = s.seeks? p.lexeme ↔
      startsPiece s.cut p.before = true ∧ s.read (p.piece s.cut) = some name := by
  rw [sought, reading, sought]
  by_cases starts : startsPiece s.cut p.before = true
  · simp [starts]
  · simp [starts]

/-- Nothing is read at a place of a lexeme that is not sought. -/
theorem reading_eq_none {p : Place} (notSought : s.seeks? p.lexeme = none) :
    s.reading p = none := by
  simp [reading, notSought]

namespace Lawful

variable (lawful : s.Lawful)

include lawful

/-- Blanks in front do not matter to what is read. -/
theorem read_blanks {blanks : List Char} (all : ∀ c ∈ blanks, isBlank c = true) (text : List Char) :
    s.read (blanks ++ text) = s.read text := by
  rw [← lawful.read_trim, trim_blanks_append all, lawful.read_trim]

/-- Characters of targets do not cut a text. -/
theorem cut_eq_false {c : Char} (isTarget : isTargetChar c = true) : s.cut c = false := by
  rw [Bool.eq_false_iff]
  intro isCut
  rcases lawful.eq_of_cut c isCut with rfl | rfl <;> cases isTarget

/-- A character that cuts starts a new piece. -/
theorem left_cons_of_cut {c : Char} (isCut : s.cut c = true) (before text : List Char) :
    s.left before (c :: text) = s.left (before ++ [c]) text := by
  have starts : startsPiece s.cut (before ++ [c]) = true := by
    rw [startsPiece_concat, isCut, Bool.true_or]
  rw [left, left, if_pos starts, pieces_cons_of_cut isCut]
  split
  · rw [List.filterMap_cons, lawful.read_nil]
  · rfl

/-- A blank counts for nothing. -/
theorem left_cons_of_blank {c : Char} (blank : isBlank c = true) (before text : List Char) :
    s.left before (c :: text) = s.left (before ++ [c]) text := by
  cases isCut : s.cut c with
  | true => exact lawful.left_cons_of_cut isCut before text
  | false =>
      have all : ∀ d ∈ [c], isBlank d = true := by simpa using blank
      have same : s.read (c :: firstPiece s.cut text) = s.read (firstPiece s.cut text) :=
        lawful.read_blanks all _
      rw [left_eq, left_eq, startsPiece_concat, isCut, blank, Bool.false_or, Bool.true_and,
        firstPiece_cons_of_uncut isCut, pieces_cons_of_uncut isCut, same, List.tail_cons]

/-- Another lexeme is read if it is sought and the first one of its piece, and then the piece is
over. -/
theorem left_append {before after rest : List Char} {x : Char} {l : Lexeme}
    (isNext : Lexeme.next x rest = (l, after)) (proper : l.Proper) (notBlank : isBlank x = false)
    (unhidden : ∀ piece ∈ (pieces s.cut (l.chars ++ firstPiece s.cut after)).tail,
      s.read piece = none)
    (ended : startsPiece s.cut (before ++ l.chars) = false ∨ firstPiece s.cut after = []) :
    s.left before (x :: rest) =
      (s.reading ⟨before, l, after⟩).toList ++ s.left (before ++ l.chars) after := by
  have whole : x :: rest = l.chars ++ after := by
    rw [← Lexeme.chars_next, isNext]
  have isLeft : s.left (before ++ l.chars) after = (pieces s.cut after).tail.filterMap s.read := by
    rw [left_eq]
    rcases ended with ended | ended
    · rw [ended]
      rfl
    · rw [ended, lawful.read_nil, ite_self]
      rfl
  have isReading : (if startsPiece s.cut before = true then
      s.read (firstPiece s.cut (x :: rest)) else none) = s.reading ⟨before, l, after⟩ := by
    rw [reading, Place.piece, ← whole]
    split
    · rename_i starts
      cases isSought : (s.seeks? l).isSome with
      | true => simp [starts]
      | false =>
          -- What is not sought is not found either.
          have none : (s.read (firstPiece s.cut (x :: rest))).isSome = false := by
            rw [Bool.eq_false_iff]
            intro isSome
            have := lawful.seeks_of_read x rest notBlank (by rwa [isNext]) isSome
            rw [isNext, isSought] at this
            cases this
          simpa using none
    · rename_i notStart
      simp [notStart]
  -- The pieces that start inside the lexeme give nothing, so only those after it count.
  have others : (pieces s.cut (x :: rest)).tail.filterMap s.read =
      (pieces s.cut after).tail.filterMap s.read := by
    rw [whole, pieces_append, List.tail_append_of_ne_nil (pieces_ne_nil _ _), List.filterMap_append,
      List.filterMap_eq_nil_iff.mpr unhidden, List.nil_append]
  rw [left_eq, isReading, others, isLeft]

/-- After a lexeme that ends with a quote or with a character of targets, its piece has started. -/
theorem startsPiece_of_last {before front : List Char} {l : Lexeme} {c : Char}
    (isChars : l.chars = front ++ [c]) (isLast : c = '"' ∨ isTargetChar c = true) :
    startsPiece s.cut (before ++ l.chars) = false := by
  rw [isChars]
  rcases isLast with rfl | isTarget
  · refine startsPiece_eq_false ?_ (by decide) before front
    rw [Bool.eq_false_iff]
    intro isCut
    rcases lawful.eq_of_cut _ isCut with isCut | isCut <;> cases isCut
  · exact startsPiece_eq_false (lawful.cut_eq_false isTarget)
      (isBlank_eq_false_of_isTargetChar isTarget) before front

/-- One lexeme of a text. -/
theorem left_next {before rest : List Char} {x : Char} (proper : (Lexeme.next x rest).1.Proper)
    (unhidden : ∀ piece ∈
      (Place.mk before (Lexeme.next x rest).1 (Lexeme.next x rest).2).inside s.cut,
      s.read piece = none) :
    s.left before (x :: rest) =
      (s.reading ⟨before, (Lexeme.next x rest).1, (Lexeme.next x rest).2⟩).toList ++
        s.left (before ++ (Lexeme.next x rest).1.chars) (Lexeme.next x rest).2 := by
  have notSought : ∀ {l after}, l.directive? = none → s.reading ⟨before, l, after⟩ = none := by
    intro l after isNone
    exact reading_eq_none (by rw [seeks?, isNone]; rfl)
  have isNext : Lexeme.next x rest = ((Lexeme.next x rest).1, (Lexeme.next x rest).2) := rfl
  -- Of the lexemes, a blank leaves its piece as it is and a sign may cut; all others start a piece
  -- or end it.
  revert isNext proper unhidden
  refine Lexeme.next_cases (motive := fun l after => l.Proper →
    (∀ piece ∈ (Place.mk before l after).inside s.cut, s.read piece = none) →
    Lexeme.next x rest = (l, after) → s.left before (x :: rest) =
      (s.reading ⟨before, l, after⟩).toList ++ s.left (before ++ l.chars) after) x rest
    ?blank ?comment ?quoted ?load ?use ?word ?other
  case blank =>
    intro blank _ _ _
    rw [notSought rfl, lawful.left_cons_of_blank (isBlank_of_grammar blank)]
    rfl
  case comment =>
    intro isSlash _ proper unhidden isNext
    -- A comment goes up to the end of its line, which ends the piece.
    have ended : firstPiece s.cut (rest.dropWhile (· != '\n')) = [] := by
      cases isRest : rest.dropWhile (· != '\n') with
      | nil => rfl
      | cons y more =>
          have stopped := List.head?_dropWhile_not (· != '\n') rest
          rw [isRest] at stopped
          have isEnd : y = '\n' := by simpa using stopped
          exact firstPiece_cons_of_cut (isEnd ▸ lawful.cut_lineFeed) more
    exact lawful.left_append isNext proper (by rw [isSlash]; rfl) unhidden (.inr ended)
  case quoted =>
    intro raw after isQuote _ proper unhidden isNext
    have isChars : (Lexeme.quoted raw).chars = ('"' :: raw) ++ ['"'] := rfl
    exact lawful.left_append isNext proper (by rw [isQuote]; rfl) unhidden
      (.inl (lawful.startsPiece_of_last isChars (.inl rfl)))
  case load =>
    intro gap inQuotes raw after more isHash _ _ proper unhidden isNext
    refine lawful.left_append isNext proper (by rw [isHash]; rfl) unhidden (.inl ?_)
    cases inQuotes with
    | true =>
        have isChars : (Lexeme.load gap true raw).chars =
            (loadMark ++ (gap ++ '"' :: raw)) ++ ['"'] := by simp [Lexeme.chars]
        exact lawful.startsPiece_of_last isChars (.inl rfl)
    | false =>
        obtain ⟨someRaw, allTarget⟩ := proper.2.2 rfl
        obtain ⟨front, c, rfl⟩ : ∃ front c, raw = front ++ [c] :=
          ⟨_, _, (List.dropLast_concat_getLast someRaw).symm⟩
        have isChars : (Lexeme.load gap false (front ++ [c])).chars =
            (loadMark ++ (gap ++ front)) ++ [c] := by simp [Lexeme.chars]
        exact lawful.startsPiece_of_last isChars (.inr (allTarget c (by simp)))
  case use =>
    intro name isUse proper unhidden isNext
    have isChars : (Lexeme.use name).chars = ['u', 's'] ++ ['e'] := rfl
    have notBlank : isBlank x = false := by
      rw [(List.cons.inj isUse).1]
      rfl
    exact lawful.left_append isNext proper notBlank unhidden
      (.inl (lawful.startsPiece_of_last isChars (.inr rfl)))
  case word =>
    intro isStart proper unhidden isNext
    have allName : ∀ c ∈ x :: rest.takeWhile isNameChar, isNameChar c = true := by
      intro c member
      rcases List.mem_cons.mp member with rfl | member
      · exact isNameChar_of_isNameStart isStart
      · exact List.all_eq_true.mp List.all_takeWhile c member
    obtain ⟨front, c, isChars⟩ : ∃ front c, x :: rest.takeWhile isNameChar = front ++ [c] :=
      ⟨_, _, (List.dropLast_concat_getLast (List.cons_ne_nil _ _)).symm⟩
    have isLast : isTargetChar c = true :=
      isTargetChar_of_isNameChar (allName c (by rw [isChars]; simp))
    have notBlank : isBlank x = false :=
      isBlank_eq_false_of_isTargetChar (isTargetChar_of_isNameChar (allName x List.mem_cons_self))
    exact lawful.left_append isNext proper notBlank unhidden
      (.inl (lawful.startsPiece_of_last isChars (.inr isLast)))
  case other =>
    intro sign _ isNext
    have notBlank : isBlank x = false := isBlank_eq_false_of_isSign sign
    -- A semicolon may be a cut, and then the piece after it is a new one.
    cases isCut : s.cut x with
    | true =>
        rw [notSought rfl, lawful.left_cons_of_cut isCut]
        rfl
    | false =>
        have uncut : ∀ c ∈ [x] ++ firstPiece s.cut rest, s.cut c = false := by
          intro c member
          rcases List.mem_cons.mp member with rfl | member
          · exact isCut
          · exact cut_eq_false_of_mem_firstPiece member
        refine lawful.left_append isNext sign notBlank ?_
          (.inl (startsPiece_eq_false isCut notBlank before []))
        intro piece member
        rw [show (Lexeme.other x).chars = [x] from rfl, pieces_of_uncut uncut] at member
        cases member

/-- **What a scan finds in a text with proper lexemes**, if nothing is hidden: what it reads at the
places of the lexemes. -/
theorem left_eq_readings {before text : List Char} (proper : ∀ l ∈ lexemes text, l.Proper)
    (unhidden : s.Unhidden (places before (lexemes text))) :
    s.left before text = (places before (lexemes text)).filterMap s.reading := by
  -- Lexeme by lexeme, with the text read so far: it tells whether a piece starts here.
  fun_induction lexemes text generalizing before with
  | case1 =>
      rw [left_eq, show firstPiece s.cut [] = [] from rfl, lawful.read_nil, ite_self]
      rfl
  | case2 x rest ih =>
      have first := unhidden _ List.mem_cons_self
      rw [chars_lexemes] at first
      have more : s.Unhidden (places (before ++ (Lexeme.next x rest).1.chars)
          (lexemes (Lexeme.next x rest).2)) :=
        fun p member => unhidden p (List.mem_cons_of_mem _ member)
      rw [lawful.left_next (proper _ List.mem_cons_self) first,
        ih (fun l member => proper l (List.mem_cons_of_mem _ member)) more, places,
        List.filterMap_cons, chars_lexemes]
      cases s.reading ⟨before, (Lexeme.next x rest).1, (Lexeme.next x rest).2⟩ <;> rfl

/-- What a scan finds in a text is what it reads at the places of its lexemes. -/
theorem found_eq {text : List Char} (proper : ∀ l ∈ lexemes text, l.Proper)
    (unhidden : s.Unhidden (places [] (lexemes text))) :
    s.found text = (places [] (lexemes text)).filterMap s.reading :=
  lawful.left_eq_readings proper unhidden

end Lawful

end Scan

end ScriptShell
