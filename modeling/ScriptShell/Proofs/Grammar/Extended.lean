import ScriptShell.Proofs.Grammar.Matches
import Mathlib.Data.List.TakeWhile

/-! # Longer texts

`Cursor.extend` puts more text behind the text after a point. What is found next is found in the
longer text too. What is not found may be found there only where it goes over the end of the shorter
text; literals and gaps do not if the last character there is a sign that none of them has inside
(`Ends`). -/

namespace ScriptShell

namespace Grammar

variable {ρ : Type} {g : Grammar ρ} {x : Char} {text more chars : List Char} {c c' : Cursor}

/-- A text that starts a longer one starts the shorter one, if it does not go on after the last
character of that. -/
theorem prefix_of_prefix_append (last : text.getLast? = some x) (inside : x ∉ chars.dropLast)
    (starts : chars <+: text ++ more) : chars <+: text := by
  rcases List.prefix_or_prefix_of_prefix starts (List.prefix_append text more) with shorter | longer
  · exact shorter
  · obtain ⟨after, rfl⟩ := longer
    cases after with
    | nil => simp
    | cons y after =>
        rw [List.dropLast_append_of_ne_nil (List.cons_ne_nil y after)] at inside
        exact absurd (List.mem_append_left _ (List.mem_of_getLast? last)) inside

/-! ## Points -/

namespace Cursor

/-- A point of a text that goes on with another one. -/
def extend (more : List Char) (c : Cursor) : Cursor :=
  ⟨c.position, c.rest ++ more⟩

@[simp] theorem rest_extend (more : List Char) (c : Cursor) :
    (c.extend more).rest = c.rest ++ more := rfl

/-- Characters that come next still come next in a longer text. -/
theorem text?_extend (moved : c.text? chars = some c') :
    (c.extend more).text? chars = some (c'.extend more) := by
  have isRest : c.rest ++ more = chars ++ (c'.rest ++ more) := by
    rw [rest_of_text? moved, List.append_assoc]
  obtain ⟨rest, -, rfl⟩ := Option.map_eq_some_iff.mp moved
  rw [text?, rest_extend, Text.dropLead?_eq_some_iff.mpr isRest]
  rfl

/-- Characters that do not come next do not come next in a longer text either, if its joint is none
of theirs. -/
theorem text?_extend_none (last : c.rest.getLast? = some x) (inside : x ∉ chars.dropLast)
    (notText : c.text? chars = none) : (c.extend more).text? chars = none := by
  rw [text?, Option.map_eq_none_iff, Option.eq_none_iff_forall_ne_some] at notText ⊢
  intro after isText
  obtain ⟨rest, isRest⟩ := prefix_of_prefix_append last inside
    ⟨after, (Text.dropLead?_eq_some_iff.mp isText).symm⟩
  exact notText rest (Text.dropLead?_eq_some_iff.mpr isRest.symm)

/-- One character is matched alike in a longer text, unless the text is at its end. -/
theorem char?_extend {allowed : Char → Bool} (someRest : c.rest ≠ []) :
    (c.extend more).char? allowed = (c.char? allowed).map (extend more) := by
  obtain ⟨y, rest, isRest⟩ := List.exists_cons_of_ne_nil someRest
  rw [char?, char?, rest_extend, isRest, List.cons_append]
  by_cases isAllowed : allowed y = true
  · simp only [isAllowed, if_true]
    rfl
  · simp only [isAllowed]
    rfl

/-- The characters between two points. -/
theorem textTo_extend (further : c'.rest <:+ c.rest) :
    (c.extend more).textTo (c'.extend more) = c.textTo c' := by
  obtain ⟨text, isRest⟩ := further
  rw [textTo_of_append isRest.symm]
  refine textTo_of_append ?_
  rw [rest_extend, rest_extend, ← isRest, List.append_assoc]

end Cursor

/-- The trees of a rule are the same in a longer text. -/
theorem ruleTrees_extend {kind : RuleKind} {r : ρ} {m : Mode} {parts : List (ParseTree ρ)}
    (further : c'.rest <:+ c.rest) :
    ruleTrees kind r m (c.extend more) (c'.extend more) parts = ruleTrees kind r m c c' parts := by
  rw [ruleTrees, ruleTrees, makeTree, makeTree, Cursor.textTo_extend further]
  rfl

/-! ## Gaps -/

/-- A text without comments has none in its rest. -/
theorem uncommented_of_suffix {rest : List Char} (further : rest <:+ text)
    (uncommented : ¬ g.commentMark <:+: text) : ¬ g.commentMark <:+: rest :=
  fun mark => uncommented (mark.trans further.isInfix)

/-- Texts without comments whose last character is `x`. -/
structure Ends (g : Grammar ρ) (x : Char) (text : List Char) : Prop where
  last : text.getLast? = some x
  uncommented : ¬ g.commentMark <:+: text

namespace Ends

/-- Such a text has a last character. -/
theorem ne_nil (ends : g.Ends x text) : text ≠ [] := by
  rintro rfl
  cases ends.last

/-- Such a text has the same end in every rest of it. -/
theorem of_suffix (ends : g.Ends x text) {rest : List Char} (further : rest <:+ text)
    (someRest : rest ≠ []) : g.Ends x rest := by
  refine ⟨?_, uncommented_of_suffix further ends.uncommented⟩
  obtain ⟨before, rfl⟩ := further
  have last := ends.last
  rwa [List.getLast?_append, List.getLast?_eq_some_getLast someRest, Option.some_or,
    ← List.getLast?_eq_some_getLast someRest] at last

end Ends

/-- A gap without comments is the blanks that come next. -/
theorem skip_of_uncommented {m : Mode} (loose : m.texture = .loose)
    (unmarked : ¬ g.commentMark <+: c.rest.dropWhile g.isBlank) :
    skip g m c =
      ⟨c.position.advanceAll (c.rest.takeWhile g.isBlank), c.rest.dropWhile g.isBlank⟩ := by
  rw [skip, if_pos loose, Cursor.skipGap]
  generalize c.position = p, c.rest = text at unmarked
  induction text generalizing p with
  | nil => rfl
  | cons y text ih =>
      rw [Cursor.skipFrom]
      by_cases blank : g.isBlank y = true
      · rw [List.dropWhile_cons_of_pos blank] at unmarked
        rw [if_pos blank, ih _ unmarked, List.takeWhile_cons_of_pos blank,
          List.dropWhile_cons_of_pos blank]
        rfl
      · rw [List.dropWhile_cons_of_neg blank] at unmarked
        have noMark : ¬ g.commentMark.isPrefixOf (y :: text) = true :=
          fun mark => unmarked (List.isPrefixOf_iff_prefix.mp mark)
        rw [if_neg blank, if_neg noMark, List.takeWhile_cons_of_neg blank,
          List.dropWhile_cons_of_neg blank]
        rfl

/-- A text without comments has none behind its blanks. -/
theorem unmarked_of_uncommented (uncommented : ¬ g.commentMark <:+: text) :
    ¬ g.commentMark <+: text.dropWhile g.isBlank :=
  fun mark => uncommented_of_suffix (List.dropWhile_suffix _) uncommented mark.isInfix

section

variable (solid : g.isBlank x = false)

include solid

/-- After a gap the text has the same end. -/
theorem Ends.skip (ends : g.Ends x c.rest) (m : Mode) : g.Ends x (skip g m c).rest := by
  refine ends.of_suffix (suffix_skip g m c) ?_
  by_cases loose : m.texture = .loose
  · rw [skip_of_uncommented loose (unmarked_of_uncommented ends.uncommented)]
    intro allBlank
    have blank := List.dropWhile_eq_nil_iff.mp allBlank x (List.mem_of_getLast? ends.last)
    rw [solid] at blank
    cases blank
  · rw [skip_eq_self loose]
    exact ends.ne_nil

/-- A gap of a longer text ends where that of the shorter one does. -/
theorem skip_extend (inside : x ∉ g.commentMark.dropLast) (ends : g.Ends x c.rest) (m : Mode)
    (more : List Char) : skip g m (c.extend more) = (skip g m c).extend more := by
  by_cases loose : m.texture = .loose
  · have ends' := ends.skip solid m
    have unmarked := unmarked_of_uncommented ends.uncommented
    rw [skip_of_uncommented loose unmarked] at ends' ⊢
    have isRest : (c.rest ++ more).dropWhile g.isBlank = c.rest.dropWhile g.isBlank ++ more := by
      rw [List.dropWhile_append, if_neg (by simpa using ends'.ne_nil)]
    have isGap : (c.rest ++ more).takeWhile g.isBlank = c.rest.takeWhile g.isBlank := by
      have split := List.takeWhile_append_dropWhile (p := g.isBlank) (l := c.rest ++ more)
      rw [isRest, ← List.append_assoc] at split
      have whole := List.append_cancel_right split
      exact List.append_cancel_right (whole.trans List.takeWhile_append_dropWhile.symm)
    have stillUnmarked : ¬ g.commentMark <+: (c.extend more).rest.dropWhile g.isBlank := by
      rw [Cursor.rest_extend, isRest]
      exact fun mark => unmarked (prefix_of_prefix_append ends'.last inside mark)
    rw [skip_of_uncommented loose stillUnmarked, Cursor.rest_extend, isRest, isGap]
    rfl
  · rw [skip_eq_self loose, skip_eq_self loose]

end

end Grammar

end ScriptShell
