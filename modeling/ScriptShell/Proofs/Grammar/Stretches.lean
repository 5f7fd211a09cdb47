import ScriptShell.Proofs.Grammar.Matches
import Mathlib.Data.List.Induction

/-! # Where parse trees lie

A stretch of a text is exact if it starts and stops between characters and its line and column are
those of its start, as they are counted in the text itself (`Span.Exact`). Stretches lie in a row if
each one starts where the one before it stopped, or later (`Span.Row`). **`Matches.laid`**: the
trees that matching leaves have exact stretches, and lie in a row inside the stretch of what they
are parts of. -/

namespace ScriptShell

/-! ## Points -/

namespace Position

@[simp] theorem advanceAll_nil (p : Position) : p.advanceAll [] = p := rfl

/-- Going on by two texts is going on by one and then by the other. -/
theorem advanceAll_append (p : Position) (first second : List Char) :
    p.advanceAll (first ++ second) = (p.advanceAll first).advanceAll second :=
  List.foldl_append

/-- Going on by a text and one more character. -/
theorem advanceAll_snoc (p : Position) (text : List Char) (c : Char) :
    p.advanceAll (text ++ [c]) = (p.advanceAll text).advance c :=
  advanceAll_append p text [c]

/-- A character moves a place on by its size in bytes. -/
theorem offset_advance (p : Position) (c : Char) :
    (p.advance c).offset = p.offset + c.utf8Size := by
  unfold advance
  split <;> rfl

/-- A text moves a place on by its size in bytes. -/
theorem offset_advanceAll (p : Position) (text : List Char) :
    (p.advanceAll text).offset = p.offset + (String.ofList text).utf8ByteSize := by
  induction text using List.reverseRecOn with
  | nil => simp
  | append_singleton text c ih =>
      rw [advanceAll_snoc, offset_advance, ih, String.ofList_append, String.utf8ByteSize_append,
        ← String.singleton_eq_ofList, String.utf8ByteSize_singleton, Nat.add_assoc]

/-- The line after some characters: how many line feeds there are among them. -/
theorem line_advanceAll (text : List Char) : (advanceAll {} text).line = text.count '\n' := by
  induction text using List.reverseRecOn with
  | nil => rfl
  | append_singleton text c ih =>
      rw [advanceAll_snoc, advance, List.count_append, ← ih]
      by_cases isFeed : c = '\n' <;> simp [isFeed]

/-- The column after some characters: how many there are since the last line feed. -/
theorem col_advanceAll (text : List Char) :
    (advanceAll {} text).col = (text.reverse.takeWhile (· ≠ '\n')).length := by
  induction text using List.reverseRecOn with
  | nil => rfl
  | append_singleton text c ih =>
      rw [advanceAll_snoc, advance, List.reverse_append]
      by_cases isFeed : c = '\n'
      · simp [isFeed]
      · simp [isFeed, ih]

end Position

/-! ## Stretches -/

namespace Span

/-- A stretch of a text, with the line and column of its start. -/
structure Exact (text : String) (s : Span) : Prop where
  ordered : s.start ≤ s.stop
  within : s.stop ≤ text.utf8ByteSize
  starts : ∃ before after : String, text = before ++ after ∧ s.start = before.utf8ByteSize ∧
    s.line = before.toList.count '\n' ∧
    s.col = (before.toList.reverse.takeWhile (· ≠ '\n')).length
  stops : ∃ before after : String, text = before ++ after ∧ s.stop = before.utf8ByteSize

/-- The least stretch that covers two is exact if they are. -/
theorem Exact.merge {text : String} {a b : Span} (left : a.Exact text) (right : b.Exact text) :
    (a.merge b).Exact text := by
  have ordered := left.ordered
  constructor
  · show min a.start b.start ≤ max a.stop b.stop
    omega
  · exact Nat.max_le.mpr ⟨left.within, right.within⟩
  · by_cases first : a.start ≤ b.start
    · simpa [Span.merge, first] using left.starts
    · have least : min a.start b.start = b.start := by omega
      simpa [Span.merge, first, least] using right.starts
  · show ∃ before after : String, text = before ++ after ∧
      max a.stop b.stop = before.utf8ByteSize
    rcases Nat.le_total a.stop b.stop with le | le
    · rw [Nat.max_eq_right le]
      exact right.stops
    · rw [Nat.max_eq_left le]
      exact left.stops

/-- Stretches one after the other, between two offsets. -/
def Row (first : Nat) : List Span → (last : Nat) → Prop
  | [], last => first ≤ last
  | s :: rest, last => first ≤ s.start ∧ s.start ≤ s.stop ∧ Row s.stop rest last

namespace Row

variable {first first' last last' : Nat} {spans more : List Span} {s : Span}

/-- A row does not end before it begins. -/
theorem le (row : Row first spans last) : first ≤ last := by
  induction spans generalizing first with
  | nil => exact row
  | cons s rest ih =>
      have further := ih row.2.2
      have := row.1
      have := row.2.1
      omega

/-- A row lies between any offsets further apart. -/
theorem widen (row : Row first spans last) (starts : first' ≤ first) (stops : last ≤ last') :
    Row first' spans last' := by
  induction spans generalizing first first' with
  | nil => exact Nat.le_trans starts (Nat.le_trans row stops)
  | cons s rest ih => exact ⟨Nat.le_trans starts row.1, row.2.1, ih row.2.2 (Nat.le_refl _)⟩

/-- One row after another. -/
theorem append {middle : Nat} (row : Row first spans middle) (next : Row middle more last) :
    Row first (spans ++ more) last := by
  induction spans generalizing first with
  | nil => exact next.widen row (Nat.le_refl _)
  | cons s rest ih => exact ⟨row.1, row.2.1, ih row.2.2⟩

/-- One stretch alone. -/
theorem singleton (starts : first ≤ s.start) (ordered : s.start ≤ s.stop) (stops : s.stop ≤ last) :
    Row first [s] last :=
  ⟨starts, ordered, stops⟩

/-- What is left of a row is a row. -/
theorem sublist (row : Row first spans last) (isLeft : more.Sublist spans) :
    Row first more last := by
  induction isLeft generalizing first with
  | slnil => exact row
  | cons s _ ih =>
      exact ih (row.2.2.widen (Nat.le_trans row.1 row.2.1) (Nat.le_refl _))
  | cons_cons s _ ih => exact ⟨row.1, row.2.1, ih row.2.2⟩

/-- What stands in a row lies between its ends. -/
theorem bounds (row : Row first spans last) (member : s ∈ spans) :
    first ≤ s.start ∧ s.stop ≤ last := by
  induction spans generalizing first with
  | nil => cases member
  | cons other rest ih =>
      rcases List.mem_cons.mp member with rfl | member
      · exact ⟨row.1, row.2.2.le⟩
      · have inside := ih row.2.2 member
        have := row.1
        have := row.2.1
        omega

end Row

end Span

namespace Grammar

variable {ρ : Type}

/-! ## Moving between points -/

namespace Cursor

/-- The second point is the first, moved over the characters between them. -/
def Reaches (c c' : Cursor) : Prop :=
  ∃ text, c.rest = text ++ c'.rest ∧ c'.position = c.position.advanceAll text

namespace Reaches

/-- A place is reached from itself. -/
theorem refl (c : Cursor) : c.Reaches c :=
  ⟨[], rfl, rfl⟩

/-- Places are reached step by step. -/
theorem trans {a b c : Cursor} (first : a.Reaches b) (second : b.Reaches c) : a.Reaches c := by
  obtain ⟨text, isRest, isPosition⟩ := first
  obtain ⟨more, isRest', isPosition'⟩ := second
  refine ⟨text ++ more, ?_, ?_⟩
  · rw [isRest, isRest', List.append_assoc]
  · rw [isPosition', isPosition, Position.advanceAll_append]

/-- A place that is reached does not lie before the one it is reached from. -/
theorem offset_le {c c' : Cursor} (reaches : c.Reaches c') :
    c.position.offset ≤ c'.position.offset := by
  obtain ⟨text, -, isPosition⟩ := reaches
  rw [isPosition, Position.offset_advanceAll]
  exact Nat.le_add_right _ _

/-- The next character is moved over. -/
theorem step {p : Position} {x : Char} {rest : List Char} {c : Cursor}
    (reaches : Reaches ⟨p.advance x, rest⟩ c) : Reaches ⟨p, x :: rest⟩ c :=
  trans ⟨[x], rfl, rfl⟩ reaches

/-- Matching characters leads to a place that is reached by them. -/
theorem of_text? {chars : List Char} {c c' : Cursor} (moved : c.text? chars = some c') :
    c.Reaches c' := by
  have isRest := rest_of_text? moved
  obtain ⟨rest, -, rfl⟩ := Option.map_eq_some_iff.mp moved
  exact ⟨chars, isRest, rfl⟩

/-- Matching one character leads to a place that is reached by it. -/
theorem of_char? {allowed : Char → Bool} {c c' : Cursor} (moved : c.char? allowed = some c') :
    c.Reaches c' := by
  unfold char? at moved
  split at moved
  · cases moved
  · rename_i x rest isRest
    split at moved
    · cases moved
      exact ⟨[x], isRest, rfl⟩
    · cases moved

/-- Skipping a gap leads to a place that is reached by it, inside a comment as outside. -/
theorem skipFrom (g : Grammar ρ) (inComment : Bool) (p : Position) (text : List Char) :
    Reaches ⟨p, text⟩ (Cursor.skipFrom g inComment p text) := by
  induction text generalizing inComment p with
  | nil => simpa [Cursor.skipFrom] using refl _
  | cons x rest ih =>
      cases inComment with
      | true => exact (ih _ _).step
      | false =>
          simp only [Cursor.skipFrom]
          split
          · exact (ih _ _).step
          · split
            · exact (ih _ _).step
            · exact refl _

/-- Skipping a gap leads to a place that is reached by it. -/
theorem skip (g : Grammar ρ) (m : Mode) (c : Cursor) : c.Reaches (skip g m c) := by
  unfold Grammar.skip
  split
  · exact skipFrom g false c.position c.rest
  · exact refl c

end Reaches

end Cursor

/-- The stretch between two points of a text is exact. -/
theorem exact_between {text : String} {c c' : Cursor}
    (starts : (Cursor.start text.toList).Reaches c) (reaches : c.Reaches c') :
    (Span.between c.position c'.position).Exact text := by
  have point : ∀ {c : Cursor}, (Cursor.start text.toList).Reaches c →
      ∃ before : String, text = before ++ String.ofList c.rest ∧
        c.position = Position.advanceAll {} before.toList := by
    rintro c ⟨before, isRest, isPosition⟩
    refine ⟨String.ofList before, ?_, by simpa [Cursor.start] using isPosition⟩
    have isText : text.toList = before ++ c.rest := isRest
    rw [← String.ofList_append, ← isText, String.ofList_toList]
  have offset : ∀ before : String,
      (Position.advanceAll {} before.toList).offset = before.utf8ByteSize := by
    intro before
    rw [Position.offset_advanceAll, String.ofList_toList, Nat.zero_add]
  obtain ⟨before, isText, isPosition⟩ := point starts
  obtain ⟨before', isText', isPosition'⟩ := point (starts.trans reaches)
  refine ⟨reaches.offset_le, ?_, ⟨before, _, isText, ?_, ?_, ?_⟩, ⟨before', _, isText', ?_⟩⟩
  · have whole : text.utf8ByteSize = before'.utf8ByteSize + _ :=
      (congrArg _ isText').trans String.utf8ByteSize_append
    simp only [Span.between, isPosition', offset, whole]
    exact Nat.le_add_right _ _
  · simp only [Span.between, isPosition, offset]
  · simp only [Span.between, isPosition, Position.line_advanceAll]
  · simp only [Span.between, isPosition, Position.col_advanceAll]
  · simp only [Span.between, isPosition', offset]

/-! ## What matching leaves -/

/-- Trees with exact stretches, each one's parts in a row inside its own. -/
inductive ParseTree.Laid (text : String) : ParseTree ρ → Prop where
  | token {r span chars} : span.Exact text → Laid text (.token r span chars)
  | phrase {r span parts} : span.Exact text → (∀ t ∈ parts, Laid text t) →
      Span.Row span.start (parts.map (·.span)) span.stop → Laid text (.phrase r span parts)

/-- A tree that is laid over a text has an exact stretch of it. -/
theorem ParseTree.Laid.exact {text : String} {t : ParseTree ρ} (laid : t.Laid text) :
    t.span.Exact text := by
  cases laid with
  | token exact => exact exact
  | phrase exact => exact exact

/-- What stands below a phrase. -/
theorem ParseTree.Laid.parts {text : String} {r : ρ} {span : Span} {parts : List (ParseTree ρ)}
    (laid : (ParseTree.phrase r span parts).Laid text) :
    (∀ t ∈ parts, t.Laid text) ∧ Span.Row span.start (parts.map (·.span)) span.stop := by
  cases laid with
  | phrase _ inside row => exact ⟨inside, row⟩

/-- **Matching leaves trees in a row**, between the points where it starts and ends. -/
theorem Matches.laid {g : Grammar ρ} {p : Pattern ρ} {m : Mode} {c c' : Cursor}
    {ts : List (ParseTree ρ)} {text : String} (isMatch : Matches g p m c (some (c', ts)))
    (starts : (Cursor.start text.toList).Reaches c) :
    c.Reaches c' ∧ (∀ t ∈ ts, t.Laid text) ∧
      Span.Row c.position.offset (ts.map (·.span)) c'.position.offset := by
  generalize isFound : some (c', ts) = found at isMatch
  -- One match after another, maybe with a gap between them.
  have joined : ∀ {c c₁ c₂ : Cursor} {ts us : List (ParseTree ρ)} {m : Mode},
      (c.Reaches c₁ ∧ (∀ t ∈ ts, t.Laid text) ∧
        Span.Row c.position.offset (ts.map (·.span)) c₁.position.offset) →
      ((skip g m c₁).Reaches c₂ ∧ (∀ t ∈ us, t.Laid text) ∧
        Span.Row (skip g m c₁).position.offset (us.map (·.span)) c₂.position.offset) →
      c.Reaches c₂ ∧ (∀ t ∈ ts ++ us, t.Laid text) ∧
        Span.Row c.position.offset ((ts ++ us).map (·.span)) c₂.position.offset := by
    rintro c c₁ c₂ ts us m ⟨reaches, laid, row⟩ ⟨reaches', laid', row'⟩
    have gap := Cursor.Reaches.skip g m c₁
    rw [List.map_append]
    exact ⟨reaches.trans (gap.trans reaches'), List.forall_mem_append.mpr ⟨laid, laid'⟩,
      row.append (row'.widen gap.offset_le (Nat.le_refl _))⟩
  induction isMatch generalizing c' ts with
  | text moved =>
      cases isFound
      have reaches := Cursor.Reaches.of_text? moved
      exact ⟨reaches, by simp, reaches.offset_le⟩
  | char moved =>
      cases isFound
      have reaches := Cursor.Reaches.of_char? moved
      exact ⟨reaches, by simp, reaches.offset_le⟩
  | seq _ _ first second =>
      cases isFound
      have ofFirst := first starts rfl
      exact joined ofFirst (second (starts.trans (ofFirst.1.trans (.skip g _ _))) rfl)
  | altFirst _ first => exact first starts isFound
  | altSecond _ _ _ second => exact second starts isFound
  | opt _ once => exact once starts isFound
  | optNone | starNone | ahead | notAhead | atEnd =>
      cases isFound
      exact ⟨.refl _, by simp, Nat.le_refl _⟩
  | starOnce _ _ first =>
      cases isFound
      exact first starts rfl
  | starAgain _ _ _ first _ again =>
      cases isFound
      have ofFirst := first starts rfl
      exact joined ofFirst (again (starts.trans (ofFirst.1.trans (.skip g _ _))) rfl)
  | silent _ _ inner => exact inner starts isFound
  | @rule r m c c' parts _ _ inner =>
      cases isFound
      obtain ⟨reaches, laid, row⟩ := inner starts rfl
      have exact := exact_between starts reaches
      refine ⟨reaches, ?_⟩
      unfold ruleTrees makeTree
      split
      · split
        · exact ⟨by simpa using .token exact, Nat.le_refl _, exact.ordered, Nat.le_refl _⟩
        · exact ⟨by simpa using .phrase exact laid row, Nat.le_refl _, exact.ordered, Nat.le_refl _⟩
      · exact ⟨by simp, reaches.offset_le⟩
  | noText | noChar | seqFirst | seqSecond | aheadNone | notAheadNone | notAtEnd | noRule =>
      cases isFound

end Grammar

end ScriptShell
