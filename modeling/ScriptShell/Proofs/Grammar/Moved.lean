import ScriptShell.Proofs.Grammar.Bound

/-! # Matching further on

The place where a text stands has no influence on what a pattern matches in it. `Position.moved`
puts a point of a text where it is when the text stands after another one, and so do `Span.moved`
for stretches, `ParseTree.mapSpan` for trees and `Cursor.moved` while matching.
**`Matches.moved`**: what is matched further on is what is matched at the start, moved. -/

namespace ScriptShell

/-! ## Points and stretches -/

/-- A point of a text, when the text stands at `base`. -/
def Position.moved (base p : Position) : Position where
  offset := base.offset + p.offset
  line := base.line + p.line
  col := if p.line = 0 then base.col + p.col else p.col

namespace Position

/-- Moving a place and going on by a character can be done in either order. -/
theorem moved_advance (base p : Position) (c : Char) :
    (base.moved p).advance c = base.moved (p.advance c) := by
  unfold advance moved
  by_cases isEnd : c = '\n'
  · simp only [isEnd, if_true, Nat.add_assoc]
    rfl
  · simp only [isEnd, if_false, Nat.add_assoc]
    by_cases isFirst : p.line = 0
    · simp only [isFirst, if_true, Nat.add_assoc]
    · simp only [isFirst, if_false]

/-- Moving a place and going on by a text can be done in either order. -/
theorem moved_advanceAll (base p : Position) (text : List Char) :
    (base.moved p).advanceAll text = base.moved (p.advanceAll text) := by
  unfold advanceAll
  induction text generalizing p with
  | nil => rfl
  | cons c text ih => rw [List.foldl_cons, List.foldl_cons, moved_advance, ih]

end Position

/-- A stretch of a text, when the text stands at `base`. -/
def Span.moved (base : Position) (s : Span) : Span where
  start := base.offset + s.start
  stop := base.offset + s.stop
  line := base.line + s.line
  col := if s.line = 0 then base.col + s.col else s.col

namespace Span

/-- Covering two stretches does not depend on where they stand. -/
theorem moved_merge (base : Position) (a b : Span) :
    (a.merge b).moved base = (a.moved base).merge (b.moved base) := by
  have order : base.offset + a.start ≤ base.offset + b.start ↔ a.start ≤ b.start := by omega
  unfold merge moved
  simp only [order, Nat.add_min_add_left, Nat.add_max_add_left]
  by_cases isFirst : a.start ≤ b.start
  · simp only [isFirst, if_true]
  · simp only [isFirst, if_false]

end Span

/-! ## Trees -/

namespace Grammar

variable {ρ : Type}

namespace ParseTree

mutual

/-- A tree with other stretches. -/
def mapSpan (f : Span → Span) : ParseTree ρ → ParseTree ρ
  | .token rule span text => .token rule (f span) text
  | .phrase rule span parts => .phrase rule (f span) (mapSpanAll f parts)

/-- Trees with other stretches. -/
def mapSpanAll (f : Span → Span) : List (ParseTree ρ) → List (ParseTree ρ)
  | [] => []
  | t :: rest => t.mapSpan f :: mapSpanAll f rest

end

/-- To change the places of trees is to change those of each. -/
theorem mapSpanAll_eq_map (f : Span → Span) (ts : List (ParseTree ρ)) :
    mapSpanAll f ts = ts.map (mapSpan f) := by
  induction ts with
  | nil => rfl
  | cons t rest ih => rw [mapSpanAll, ih, List.map_cons]

/-- Changing places goes through two rows of trees one after the other. -/
theorem mapSpanAll_append (f : Span → Span) (ts us : List (ParseTree ρ)) :
    mapSpanAll f (ts ++ us) = mapSpanAll f ts ++ mapSpanAll f us := by
  simp only [mapSpanAll_eq_map, List.map_append]

@[simp] theorem span_mapSpan (f : Span → Span) (t : ParseTree ρ) :
    (t.mapSpan f).span = f t.span := by
  cases t <;> rfl

@[simp] theorem rule_mapSpan (f : Span → Span) (t : ParseTree ρ) : (t.mapSpan f).rule = t.rule := by
  cases t <;> rfl

@[simp] theorem text_mapSpan (f : Span → Span) (t : ParseTree ρ) : (t.mapSpan f).text = t.text := by
  cases t <;> rfl

/-- A tree with changed places is a token exactly if it was one. -/
theorem mapSpan_eq_token_iff {f : Span → Span} {t : ParseTree ρ} {r : ρ} {s : Span}
    {text : List Char} : t.mapSpan f = .token r s text ↔ ∃ s', t = .token r s' text ∧ f s' = s := by
  cases t with
  | token => simp only [mapSpan, token.injEq]; grind
  | phrase => simp [mapSpan]

/-- A tree with changed places is a phrase exactly if it was one. -/
theorem mapSpan_eq_phrase_iff {f : Span → Span} {t : ParseTree ρ} {r : ρ} {s : Span}
    {parts : List (ParseTree ρ)} : t.mapSpan f = .phrase r s parts ↔
      ∃ s' parts', t = .phrase r s' parts' ∧ f s' = s ∧ mapSpanAll f parts' = parts := by
  cases t with
  | token => simp [mapSpan]
  | phrase => simp only [mapSpan, phrase.injEq]; grind

end ParseTree

/-! ## Cursors -/

/-- A point while matching, when the text stands at `base`. -/
def Cursor.moved (base : Position) (c : Cursor) : Cursor :=
  ⟨base.moved c.position, c.rest⟩

namespace Cursor

@[simp] theorem rest_moved (base : Position) (c : Cursor) : (c.moved base).rest = c.rest := rfl

/-- The start of a text that stands at a place. -/
theorem moved_start (base : Position) (text : List Char) :
    (Cursor.start text).moved base = ⟨base, text⟩ := rfl

/-- Characters are matched alike wherever the text stands. -/
theorem text?_moved (base : Position) (chars : List Char) (c : Cursor) :
    (c.moved base).text? chars = (c.text? chars).map (moved base) := by
  simp only [text?, Option.map_map, rest_moved]
  congr 1
  funext rest
  simp only [Function.comp, moved, Position.moved_advanceAll]

/-- One character is matched alike wherever the text stands. -/
theorem char?_moved (base : Position) (allowed : Char → Bool) (c : Cursor) :
    (c.moved base).char? allowed = (c.char? allowed).map (moved base) := by
  unfold char?
  cases isRest : c.rest with
  | nil => simp only [rest_moved, isRest, Option.map_none]
  | cons x rest =>
      simp only [rest_moved, isRest]
      cases allowed x with
      | true => simp only [if_true, Option.map_some, moved, Position.moved_advance]
      | false => rfl

/-- Gaps are skipped alike wherever the text stands, inside a comment as outside. -/
theorem skipFrom_moved (g : Grammar ρ) (base : Position) (inComment : Bool) (p : Position)
    (text : List Char) :
    skipFrom g inComment (base.moved p) text = (skipFrom g inComment p text).moved base := by
  induction text generalizing inComment p with
  | nil => cases inComment <;> rfl
  | cons x rest ih =>
      cases inComment with
      | true => rw [skipFrom, skipFrom, Position.moved_advance, ih]
      | false =>
          rw [skipFrom, skipFrom, Position.moved_advance, ih, ih]
          by_cases blank : g.isBlank x = true
          · rw [if_pos blank, if_pos blank]
          · rw [if_neg blank, if_neg blank]
            by_cases comment : g.commentMark.isPrefixOf (x :: rest) = true
            · rw [if_pos comment, if_pos comment]
            · rw [if_neg comment, if_neg comment]
              rfl

end Cursor

/-- Gaps are skipped alike wherever the text stands. -/
theorem skip_moved (g : Grammar ρ) (m : Mode) (base : Position) (c : Cursor) :
    skip g m (c.moved base) = (skip g m c).moved base := by
  unfold skip
  by_cases loose : m.texture = .loose
  · rw [if_pos loose, if_pos loose]
    exact Cursor.skipFrom_moved g base false c.position c.rest
  · rw [if_neg loose, if_neg loose]

/-- The trees of a rule wherever the text stands. -/
theorem ruleTrees_moved (base : Position) (kind : RuleKind) (rule : ρ) (m : Mode)
    (first last : Cursor) (parts : List (ParseTree ρ)) :
    ruleTrees kind rule m (first.moved base) (last.moved base)
        (ParseTree.mapSpanAll (Span.moved base) parts) =
      ParseTree.mapSpanAll (Span.moved base) (ruleTrees kind rule m first last parts) := by
  unfold ruleTrees
  by_cases leaves : m.look = .none ∧ m.texture ≠ .mute
  · rw [if_pos leaves, if_pos leaves]
    unfold makeTree
    by_cases isToken : kind = .token
    · rw [if_pos isToken, if_pos isToken]
      rfl
    · rw [if_neg isToken, if_neg isToken]
      rfl
  · rw [if_neg leaves, if_neg leaves]
    rfl

/-- What was found, when the text stands at `base`. -/
def Found.moved (base : Position) (found : Found ρ) : Found ρ :=
  found.map fun (c, ts) => (c.moved base, ParseTree.mapSpanAll (Span.moved base) ts)

/-- **Where a text stands does not matter** to what is matched in it. -/
theorem Matches.moved (base : Position) {g : Grammar ρ} {p : Pattern ρ} {m : Mode} {c : Cursor}
    {found : Found ρ} (isMatch : Matches g p m c found) :
    Matches g p m (c.moved base) (found.moved base) := by
  induction isMatch with
  | text moved => exact .text (by rw [Cursor.text?_moved, moved]; rfl)
  | noText none => exact .noText (by rw [Cursor.text?_moved, none]; rfl)
  | char moved => exact .char (by rw [Cursor.char?_moved, moved]; rfl)
  | noChar none => exact .noChar (by rw [Cursor.char?_moved, none]; rfl)
  | seq _ _ first second =>
      rw [← skip_moved] at second
      simp only [Found.moved, Option.map_some, ParseTree.mapSpanAll_append]
      exact .seq first second
  | seqFirst _ first => exact .seqFirst first
  | seqSecond _ _ first second =>
      rw [← skip_moved] at second
      exact .seqSecond first second
  | altFirst _ first => exact .altFirst first
  | altSecond _ _ first second => exact .altSecond first second
  | opt _ once => exact .opt once
  | optNone _ once => exact .optNone once
  | starNone _ first => exact .starNone first
  | starOnce _ _ first next =>
      rw [← skip_moved] at next
      exact .starOnce first next
  | starAgain _ _ _ first next rest =>
      rw [← skip_moved] at next rest
      simp only [Found.moved, Option.map_some, ParseTree.mapSpanAll_append]
      exact .starAgain first next rest
  | ahead _ inner => exact .ahead inner
  | aheadNone _ inner => exact .aheadNone inner
  | notAhead _ inner => exact .notAhead inner
  | notAheadNone _ inner => exact .notAheadNone inner
  | atEnd isEnd => exact .atEnd isEnd
  | notAtEnd notEnd => exact .notAtEnd notEnd
  | silent isSilent _ inner => exact .silent isSilent inner
  | rule notSilent _ inner =>
      simp only [Found.moved, Option.map_some, ← ruleTrees_moved]
      exact .rule notSilent inner
  | noRule notSilent _ inner => exact .noRule notSilent inner

end Grammar

end ScriptShell
