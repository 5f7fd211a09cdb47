import ScriptShell.Proofs.Grammar.Stretches
import ScriptShell.Proofs.Syntax.BlankEnds

/-! # Trees before blanks

A phrase that ends with a gap goes up to the end of the text if blanks are put behind the text, and
so do the phrases that end with it; all else about trees stays (`Stretched`).
**`Matches.append_blanks`** says that of every pattern of the grammar of scripts but the few that
may be empty. -/

namespace ScriptShell

open Grammar

variable {v : List Char} {p : Pattern Rule} {m : Mode} {c c' d : Cursor} {found : Found Rule}

/-! ## Trees that end with the text -/

/-- The phrases that may end with a gap. -/
def Rule.trails : Rule → Bool
  | .statement | .fnDecl | .letStmt | .ifStmt | .elseClause | .assignStmt | .exprStmt | .expression
  | .orExpr | .andExpr | .cmpExpr | .addExpr | .mulExpr | .unary | .postfixExpr | .opNot => true
  | _ => false

/-- Whether a phrase ends where the last one of its parts does: no gap follows an else clause, and
none follows what stands in it. -/
def Rule.endsInPart (r : Rule) (parts : List (ParseTree Rule)) : Bool :=
  match r with
  | .elseClause => true
  | .ifStmt => parts.getLast?.any (·.rule = .elseClause)
  | _ => false

/-- Trees of which the last one may end at another place, if it is one that may end with a gap, and
so may the last one of its parts, and so on. A phrase that ends where its last part does takes that
part with it. All else is the same. -/
inductive Stretched (first last : Nat) : List (ParseTree Rule) → List (ParseTree Rule) → Prop where
  | same (ts : List (ParseTree Rule)) : Stretched first last ts ts
  | last {ts parts parts' : List (ParseTree Rule)} {r : Rule} {s : Span} (trails : r.trails = true)
      (ends : s.stop = first) (moves : r.endsInPart parts = true → parts' ≠ parts)
      (inside : Stretched first last parts parts') :
      Stretched first last (ts ++ [.phrase r s parts])
        (ts ++ [.phrase r { s with stop := last } parts'])

namespace Stretched

variable {first last : Nat} {t t' : ParseTree Rule} {ts ts' : List (ParseTree Rule)}

/-- A phrase that ends at the stretched end, with its parts. -/
theorem phrase {r : Rule} {s : Span} {parts parts' : List (ParseTree Rule)}
    (trails : r.trails = true) (ends : s.stop = first)
    (moves : r.endsInPart parts = true → parts' ≠ parts)
    (inside : Stretched first last parts parts') :
    Stretched first last [.phrase r s parts] [.phrase r { s with stop := last } parts'] :=
  @Stretched.last _ _ [] _ _ _ _ trails ends moves inside

/-- Other trees before the stretched ones. -/
theorem append_left {us us' : List (ParseTree Rule)} (stretched : Stretched first last us us')
    (ts : List (ParseTree Rule)) : Stretched first last (ts ++ us) (ts ++ us') := by
  cases stretched with
  | same => exact .same _
  | last trails ends moves inside =>
      rw [← List.append_assoc, ← List.append_assoc]
      exact .last trails ends moves inside

/-- Stretching does not change whether a rule ends in its last part. -/
theorem endsInPart_eq (stretched : Stretched first last ts ts') (r : Rule) :
    r.endsInPart ts' = r.endsInPart ts := by
  cases stretched with
  | same => rfl
  | last =>
      simp only [Rule.endsInPart, List.getLast?_concat]
      rfl

/-- Stretching can be undone. -/
theorem symm (stretched : Stretched first last ts ts') : Stretched last first ts' ts := by
  induction stretched with
  | same ts => exact .same ts
  | @last ts parts parts' r s trails ends moves inside ih =>
      have moves' : r.endsInPart parts' = true → parts ≠ parts' := by
        rw [inside.endsInPart_eq]
        exact fun isEnd => (moves isEnd).symm
      subst ends
      exact @Stretched.last _ _ ts _ _ r { s with stop := last } trails rfl moves' ih

/-- What the trees before the last one of stretched trees are, and the last one. -/
theorem concat (ts : List (ParseTree Rule))
    (stretched : Stretched first last (ts ++ [t]) ts') :
    ∃ t', ts' = ts ++ [t'] ∧ Stretched first last [t] [t'] := by
  generalize isAll : ts ++ [t] = all at stretched
  cases stretched with
  | same => exact ⟨t, isAll.symm, .same _⟩
  | last trails ends moves inside =>
      obtain ⟨rfl, isLast⟩ := List.append_inj' isAll rfl
      cases isLast
      exact ⟨_, rfl, .phrase trails ends moves inside⟩

/-- A tree that is stretched is the same, or a phrase that ends elsewhere. -/
theorem eq_or_phrase (stretched : Stretched first last [t] [t']) :
    t' = t ∨ ∃ r s parts parts', t = .phrase r s parts ∧
      t' = .phrase r { s with stop := last } parts' ∧ r.trails = true ∧ s.stop = first ∧
      (r.endsInPart parts = true → parts' ≠ parts) ∧ Stretched first last parts parts' := by
  generalize isOne : [t] = one, isOther : [t'] = other at stretched
  cases stretched with
  | same =>
      cases isOne
      cases isOther
      exact .inl rfl
  | @last ts parts parts' r s trails ends moves inside =>
      cases ts with
      | nil =>
          cases isOne
          cases isOther
          exact .inr ⟨r, s, parts, parts', rfl, rfl, trails, ends, moves, inside⟩
      | cons => simp at isOne

/-- The parts of a phrase that is stretched. -/
theorem parts {r : Rule} {s : Span} {parts : List (ParseTree Rule)}
    (stretched : Stretched first last [.phrase r s parts] [t']) :
    ∃ s' parts', t' = .phrase r s' parts' ∧ Stretched first last parts parts' := by
  rcases stretched.eq_or_phrase with rfl | ⟨_, _, _, parts', isPhrase, rfl, -, -, -, inside⟩
  · exact ⟨s, parts, rfl, .same _⟩
  · cases isPhrase
    exact ⟨_, parts', rfl, inside⟩

/-- A phrase that ends elsewhere. -/
theorem phrase_of_ne {r : Rule} {s : Span} {parts : List (ParseTree Rule)}
    (stretched : Stretched first last [.phrase r s parts] [t'])
    (differs : t' ≠ .phrase r s parts) :
    ∃ parts', t' = .phrase r { s with stop := last } parts' ∧ s.stop = first ∧
      (r.endsInPart parts = true → parts' ≠ parts) ∧ Stretched first last parts parts' := by
  obtain ⟨_, _, _, parts', isPhrase, rfl, -, ends, moves, inside⟩ :=
    stretched.eq_or_phrase.resolve_left differs
  cases isPhrase
  exact ⟨parts', rfl, ends, moves, inside⟩

/-- Stretching keeps the number of trees. -/
theorem length_eq (stretched : Stretched first last ts ts') : ts'.length = ts.length := by
  cases stretched with
  | same => rfl
  | last => simp

/-- Without trees nothing is stretched. -/
theorem eq_nil (stretched : Stretched first last [] ts') : ts' = [] :=
  List.eq_nil_of_length_eq_zero stretched.length_eq

/-- Stretching keeps whether there are trees. -/
theorem isEmpty_eq (stretched : Stretched first last ts ts') : ts'.isEmpty = ts.isEmpty := by
  rw [Bool.eq_iff_iff, List.isEmpty_iff_length_eq_zero, List.isEmpty_iff_length_eq_zero,
    stretched.length_eq]

/-- The first one of stretched trees and the others: the first one stays where others follow. -/
theorem uncons (stretched : Stretched first last (t :: ts) ts') :
    ∃ t' us, ts' = t' :: us ∧ Stretched first last [t] [t'] ∧ Stretched first last ts us ∧
      (ts ≠ [] → t' = t) := by
  generalize isAll : t :: ts = all at stretched
  cases stretched with
  | same =>
      subst isAll
      exact ⟨t, ts, rfl, .same _, .same _, fun _ => rfl⟩
  | @last before _ parts' r s trails ends moves inside =>
      cases before with
      | nil =>
          cases isAll
          exact ⟨_, [], rfl, .phrase trails ends moves inside, .same _, fun some => absurd rfl some⟩
      | cons =>
          cases isAll
          exact ⟨t, _, rfl, .same _, .last trails ends moves inside, fun _ => rfl⟩

/-- A tree of a rule that does not trail is not stretched. -/
theorem eq_of_not_trails (stretched : Stretched first last [t] [t'])
    (solid : t.rule.trails = false) : t' = t := by
  rcases stretched.eq_or_phrase with rfl | ⟨r, s, parts, parts', rfl, -, trails, -⟩
  · rfl
  · cases solid.symm.trans trails

/-- Where the parts of a branch end elsewhere, its else clause does, and so does what stands in the
clause. -/
theorem elseClause {test block next : ParseTree Rule} {s : Span}
    (stretched : Stretched first last [test, block, .phrase .elseClause s [next]] ts')
    (differs : ts' ≠ [test, block, .phrase .elseClause s [next]]) :
    ∃ next', ts' = [test, block, .phrase .elseClause { s with stop := last } [next']] ∧
      Stretched first last [next] [next'] ∧ next' ≠ next := by
  obtain ⟨clause, rfl, inner⟩ := concat [test, block] stretched
  obtain ⟨_, _, _, parts', isClause, rfl, -, -, moves, inside⟩ :=
    inner.eq_or_phrase.resolve_left fun same => differs (by rw [same]; rfl)
  cases isClause
  obtain ⟨next', rfl, inner'⟩ := concat [] inside
  exact ⟨next', rfl, inner', fun same => moves rfl (by rw [same]; rfl)⟩

end Stretched

namespace Grammar.Pattern

/-- Whether a pattern ends with something else than a gap wherever it matches. -/
def endsSolid : Pattern Rule → Bool
  | .text _ | .char _ => true
  | .seq _ q => q.endsSolid
  | .alt p q => p.endsSolid && q.endsSolid
  | .opt _ | .star _ | .ahead _ | .notAhead _ | .atEnd => false
  | .rule r => !r.trails

end Grammar.Pattern

/-- What a rule matches may end with a gap if what its pattern matches may. -/
theorem trails_of_pattern {r : Rule} (notEmpty : r.isNullable = false) (notToken : r.kind ≠ .token)
    (gapped : r.pattern.endsSolid = false) : r.trails = true := by
  revert notEmpty notToken gapped
  cases r <;> decide

/-- At the end of a text a pattern does not match, or it matches without moving and leaves no trees;
the place does not matter. -/
theorem Grammar.Matches.at_end (isMatch : Matches scriptGrammar p m c found)
    (unblank : p.isUnblank (!·.isNullable) = true) (noRest : c.rest = []) :
    (found = none ∨ found = some (c, []) ∧ p.endsSolid = false) ∧
      ∀ d : Cursor, d.rest = [] →
        Matches scriptGrammar p m d (found.map fun _ => (d, [])) := by
  have noRule : ∀ {r : Rule} {m : Mode} {c : Cursor} {found : Found Rule},
      (!r.isNullable) = true → c.rest = [] → Matches scriptGrammar (.rule r) m c found →
      (found = none ∨ found = some (c, []) ∧ (Pattern.rule r).endsSolid = false) ∧
        ∀ d : Cursor, d.rest = [] →
          Matches scriptGrammar (.rule r) m d (found.map fun _ => (d, [])) := by
    intro r m c found notEmpty noRest isMatch
    rw [Bool.not_eq_true'] at notEmpty
    rw [isMatch.unique (not_matches_nil notEmpty m noRest)]
    exact ⟨.inl rfl, fun d => not_matches_nil notEmpty m⟩
  induction isMatch with
  | text moved =>
      have isNil := Cursor.rest_of_text? moved
      rw [noRest] at isNil
      exact absurd (List.append_eq_nil_iff.mp isNil.symm).1 (Pattern.isUnblank_text unblank).1
  | @noText chars m c notText =>
      refine ⟨.inl rfl, fun d noRest' => .noText ?_⟩
      rw [Cursor.text?, Option.map_eq_none_iff] at notText ⊢
      rwa [noRest', ← noRest]
  | char moved =>
      obtain ⟨x, -, isRest⟩ := Cursor.rest_of_char? moved
      rw [noRest] at isRest
      cases isRest
  | noChar =>
      refine ⟨.inl rfl, fun d noRest' => .noChar ?_⟩
      rw [Cursor.char?, noRest']
  | seq _ _ first second =>
      rw [Pattern.isUnblank, Bool.and_eq_true] at unblank
      obtain ⟨isFirst, first'⟩ := first unblank.1 noRest
      rcases isFirst with isNone | ⟨isSome, -⟩
      · cases isNone
      · cases isSome
        rw [skip_of_nil noRest] at second
        obtain ⟨isSecond, second'⟩ := second unblank.2 noRest
        rcases isSecond with isNone | ⟨isSome, ends⟩
        · cases isNone
        · cases isSome
          refine ⟨.inr ⟨rfl, ends⟩, fun d noRest' => ?_⟩
          refine .seq (first' d noRest') ?_
          rw [skip_of_nil noRest']
          exact second' d noRest'
  | seqFirst _ first =>
      rw [Pattern.isUnblank, Bool.and_eq_true] at unblank
      exact ⟨.inl rfl, fun d noRest' => .seqFirst ((first unblank.1 noRest).2 d noRest')⟩
  | seqSecond _ _ first second =>
      rw [Pattern.isUnblank, Bool.and_eq_true] at unblank
      obtain ⟨isFirst, first'⟩ := first unblank.1 noRest
      rcases isFirst with isNone | ⟨isSome, -⟩
      · cases isNone
      · cases isSome
        rw [skip_of_nil noRest] at second
        refine ⟨.inl rfl, fun d noRest' => .seqSecond (first' d noRest') ?_⟩
        rw [skip_of_nil noRest']
        exact (second unblank.2 noRest).2 d noRest'
  | altFirst _ first =>
      rw [Pattern.isUnblank, Bool.and_eq_true] at unblank
      obtain ⟨isFirst, first'⟩ := first unblank.1 noRest
      refine ⟨?_, fun d noRest' => .altFirst (first' d noRest')⟩
      refine isFirst.imp_right fun isEmpty => ⟨isEmpty.1, ?_⟩
      rw [Pattern.endsSolid, isEmpty.2, Bool.false_and]
  | altSecond _ _ first second =>
      rw [Pattern.isUnblank, Bool.and_eq_true] at unblank
      obtain ⟨isSecond, second'⟩ := second unblank.2 noRest
      refine ⟨?_, fun d noRest' =>
        .altSecond ((first unblank.1 noRest).2 d noRest') (second' d noRest')⟩
      refine isSecond.imp_right fun isEmpty => ⟨isEmpty.1, ?_⟩
      rw [Pattern.endsSolid, isEmpty.2, Bool.and_false]
  | opt _ once =>
      obtain ⟨isOnce, once'⟩ := once unblank noRest
      exact ⟨isOnce.imp_right fun isEmpty => ⟨isEmpty.1, rfl⟩,
        fun d noRest' => .opt (once' d noRest')⟩
  | optNone _ once =>
      exact ⟨.inr ⟨rfl, rfl⟩, fun d noRest' => .optNone ((once unblank noRest).2 d noRest')⟩
  | starNone _ first =>
      exact ⟨.inr ⟨rfl, rfl⟩, fun d noRest' => .starNone ((first unblank noRest).2 d noRest')⟩
  | starOnce _ _ first next =>
      obtain ⟨isFirst, first'⟩ := first unblank noRest
      rcases isFirst with isNone | ⟨isSome, -⟩
      · cases isNone
      · cases isSome
        rw [skip_of_nil noRest] at next
        refine ⟨.inr ⟨rfl, rfl⟩, fun d noRest' => .starOnce (first' d noRest') ?_⟩
        rw [skip_of_nil noRest']
        exact (next unblank noRest).2 d noRest'
  | starAgain _ _ _ first next again =>
      obtain ⟨isFirst, first'⟩ := first unblank noRest
      rcases isFirst with isNone | ⟨isSome, -⟩
      · cases isNone
      · cases isSome
        rw [skip_of_nil noRest] at next again
        obtain ⟨isAgain, again'⟩ := again unblank noRest
        rcases isAgain with isNone | ⟨isSome, -⟩
        · cases isNone
        · cases isSome
          refine ⟨.inr ⟨rfl, rfl⟩, fun d noRest' => ?_⟩
          refine .starAgain (first' d noRest') (r := (d, [])) ?_ ?_
          · rw [skip_of_nil noRest']
            exact (next unblank noRest).2 d noRest'
          · rw [skip_of_nil noRest']
            exact again' d noRest'
  | ahead _ inner =>
      exact ⟨.inr ⟨rfl, rfl⟩, fun d noRest' => .ahead ((inner unblank noRest).2 d noRest')⟩
  | aheadNone _ inner =>
      exact ⟨.inl rfl, fun d noRest' => .aheadNone ((inner unblank noRest).2 d noRest')⟩
  | notAhead _ inner =>
      exact ⟨.inr ⟨rfl, rfl⟩, fun d noRest' => .notAhead ((inner unblank noRest).2 d noRest')⟩
  | notAheadNone _ inner =>
      exact ⟨.inl rfl, fun d noRest' => .notAheadNone ((inner unblank noRest).2 d noRest')⟩
  | atEnd | notAtEnd => cases unblank
  | silent isSilent isMatch => exact noRule unblank noRest (.silent isSilent isMatch)
  | rule notSilent isMatch => exact noRule unblank noRest (.rule notSilent isMatch)
  | noRule notSilent isMatch => exact noRule unblank noRest (.noRule notSilent isMatch)

/-! ## All patterns -/

section

variable {first last : Nat} {solid : Bool} {found' : Found Rule}

/-- What becomes of what is found in a text if blanks are put behind the text: it stays, or it goes
up to the end of the blanks where it went up to that of the text. The latter happens only to what
may end with a gap. -/
inductive Grows (v : List Char) (first last : Nat) (solid : Bool) :
    Found Rule → Found Rule → Prop where
  | none : Grows v first last solid none none
  | before (c : Cursor) (ts : List (ParseTree Rule)) :
      Grows v first last solid (some (c, ts)) (some (c.extend v, ts))
  | after {c : Cursor} {ts us : List (ParseTree Rule)} (noRest : c.rest = [])
      (gapped : solid = false) (stretched : Stretched first last ts us) :
      Grows v first last solid (some (c, ts)) (some (⟨c.position.advanceAll v, []⟩, us))

namespace Grows

/-- What is found alike before a longer rest has grown. -/
theorem of_extend (found : Found Rule) : Grows v first last solid found (Found.extend v found) := by
  cases found with
  | none => exact .none
  | some r => exact .before r.1 r.2

/-- What grew as a solid match grew. -/
theorem mono (grows : Grows v first last solid found found') {solid' : Bool}
    (weaker : solid = false → solid' = false) : Grows v first last solid' found found' := by
  cases grows with
  | none => exact .none
  | before c ts => exact .before c ts
  | after noRest gapped stretched => exact .after noRest (weaker gapped) stretched

/-- Trees before those that are found. -/
theorem append_left {c d : Cursor} {us us' : List (ParseTree Rule)}
    (grows : Grows v first last solid (some (c, us)) (some (d, us'))) (ts : List (ParseTree Rule)) :
    Grows v first last solid (some (c, ts ++ us)) (some (d, ts ++ us')) := by
  cases grows with
  | before => exact .before _ _
  | after noRest gapped stretched => exact .after noRest gapped (stretched.append_left ts)

/-- What grew ends before the same rest. -/
theorem stands {c d : Cursor} {ts us : List (ParseTree Rule)}
    (grows : Grows v first last solid (some (c, ts)) (some (d, us))) : Stands v c d := by
  cases grows with
  | before => exact .inl rfl
  | after noRest => exact .inr ⟨noRest, rfl⟩

/-- The trees of what grew are stretched. -/
theorem stretched {c d : Cursor} {ts us : List (ParseTree Rule)}
    (grows : Grows v first last solid (some (c, ts)) (some (d, us))) :
    Stretched first last ts us := by
  cases grows with
  | before => exact .same _
  | after _ _ stretched => exact stretched

/-- What grew is found. -/
theorem exists_eq_some {r : Cursor × List (ParseTree Rule)}
    (grows : Grows v first last solid (some r) found') : ∃ d us, found' = some (d, us) := by
  cases grows with
  | before | after => exact ⟨_, _, rfl⟩

end Grows

/-- What is found before blanks is found after them, if it was found at the end. -/
theorem Grammar.Matches.at_stands (isMatch : Matches scriptGrammar p m c found)
    (unblank : p.isUnblank (!·.isNullable) = true)
    (extended : ∃ found', Matches scriptGrammar p m (c.extend v) found' ∧
      Grows v first last p.endsSolid found found') (stands : Stands v c d) :
    ∃ found', Matches scriptGrammar p m d found' ∧
      Grows v first last p.endsSolid found found' := by
  rcases stands with rfl | ⟨noRest, rfl⟩
  · exact extended
  · obtain ⟨isFound, elsewhere⟩ := isMatch.at_end unblank noRest
    refine ⟨_, elsewhere _ rfl, ?_⟩
    rcases isFound with rfl | ⟨rfl, gapped⟩
    · exact .none
    · exact .after noRest gapped (.same [])

/-- One match after another, maybe with a gap between them. -/
theorem Grows.next (blanks : AllBlank v) {q : Pattern Rule} {c₁ d₁ c₂ : Cursor}
    {ts us ts' : List (ParseTree Rule)}
    (grows : Grows v first last solid (some (c₁, ts)) (some (d₁, us)))
    (isMatch : Matches scriptGrammar q m (skip scriptGrammar m c₁) (some (c₂, ts')))
    (unblank : q.isUnblank (!·.isNullable) = true)
    (extended : ∃ found', Matches scriptGrammar q m ((skip scriptGrammar m c₁).extend v) found' ∧
      Grows v first last q.endsSolid (some (c₂, ts')) found') :
    ∃ d₂ us', Matches scriptGrammar q m (skip scriptGrammar m d₁) (some (d₂, us')) ∧
      Grows v first last q.endsSolid (some (c₂, ts ++ ts')) (some (d₂, us ++ us')) := by
  cases grows with
  | before =>
      have stands := Stands.skip blanks (.inl rfl : Stands v c₁ _) m
      obtain ⟨found', second, grows⟩ := isMatch.at_stands unblank extended stands
      obtain ⟨d₂, us', rfl⟩ := grows.exists_eq_some
      exact ⟨d₂, us', second, grows.append_left ts⟩
  | after noRest gapped stretched =>
      -- At the end nothing more is found, and the trees are those that were found before.
      rw [skip_of_nil noRest] at isMatch
      obtain ⟨isFound, elsewhere⟩ := isMatch.at_end unblank noRest
      rcases isFound with isNone | ⟨isSome, gapped'⟩
      · cases isNone
      · cases isSome
        refine ⟨_, [], by rw [skip_of_nil rfl]; exact elsewhere _ rfl, ?_⟩
        rw [List.append_nil, List.append_nil]
        exact .after noRest gapped' stretched

end

/-- The offset of the end of a text. -/
theorem offset_of_nil {text : String} (starts : (Cursor.start text.toList).Reaches c)
    (noRest : c.rest = []) : c.position.offset = text.utf8ByteSize := by
  obtain ⟨before, isText, isPosition⟩ := starts
  rw [noRest, List.append_nil] at isText
  rw [isPosition, Position.offset_advanceAll, ← isText]
  show 0 + (String.ofList text.toList).utf8ByteSize = _
  rw [String.ofList_toList, Nat.zero_add]

section

variable {r : Rule} (recorded : m.look = .none ∧ m.texture ≠ .mute)

include recorded

/-- A phrase ends where its rule stopped. -/
theorem exists_tree_of_phrase {ts : List (ParseTree Rule)} (isPhrase : r.kind = .phrase)
    (isMatch : Matches scriptGrammar (.rule r) m c (some (c', ts))) :
    ∃ t, ts = [t] ∧ t.rule = r ∧ t.span.stop = c'.position.offset := by
  obtain ⟨parts, rfl, -⟩ := isMatch.of_phrase isPhrase
  exact ⟨_, by rw [ruleTrees, if_pos recorded], rfl, rfl⟩

/-- The last part ends where the match does, if the rule ends in it. -/
theorem stop_of_endsInPart {parts : List (ParseTree Rule)}
    (isMatch : Matches scriptGrammar r.pattern m c (some (c', parts)))
    (ends : r.endsInPart parts = true) :
    ∃ t ∈ parts.getLast?, t.span.stop = c'.position.offset := by
  unfold Rule.endsInPart at ends
  split at ends
  · obtain ⟨_, _, _, -, afterLook, rfl⟩ := isMatch.of_seq
    obtain ⟨_, _, _, -, inClause, rfl⟩ := afterLook.of_seq
    rcases inClause.of_alt with ⟨_, -, isMatch⟩ | ⟨-, isMatch⟩
    all_goals
      obtain ⟨t, rfl, -, stops⟩ := exists_tree_of_phrase recorded (by rfl) isMatch
      exact ⟨t, by simp, stops⟩
  · obtain ⟨_, _, _, -, afterLook, rfl⟩ := isMatch.of_seq
    obtain ⟨_, _, _, -, afterWord, rfl⟩ := afterLook.of_seq
    obtain ⟨_, _, _, -, afterTest, rfl⟩ := afterWord.of_seq
    obtain ⟨_, _, _, block, clause, rfl⟩ := afterTest.of_seq
    cases clause with
    | opt isMatch =>
        obtain ⟨t, rfl, -, stops⟩ := exists_tree_of_phrase recorded (by rfl) isMatch
        exact ⟨t, by simp, stops⟩
    | optNone =>
        -- The last part is a block then.
        obtain ⟨t, rfl, isBlock, -⟩ := exists_tree_of_phrase recorded (by rfl) block
        simp [isBlock] at ends
  · cases ends

/-- Where a phrase ends in its last part, that part ends with the phrase. -/
theorem ne_of_endsInPart {parts parts' : List (ParseTree Rule)} (someBlank : v ≠ [])
    (isMatch : Matches scriptGrammar r.pattern m c (some (c', parts)))
    (further : Matches scriptGrammar r.pattern m d (some (⟨c'.position.advanceAll v, []⟩, parts')))
    (ends : r.endsInPart parts = true) : parts' ≠ parts := by
  rintro rfl
  obtain ⟨t, isLast, stops⟩ := stop_of_endsInPart recorded isMatch ends
  obtain ⟨t', isLast', stops'⟩ := stop_of_endsInPart recorded further ends
  cases Option.mem_unique isLast isLast'
  rw [stops, Position.offset_advanceAll] at stops'
  have noBytes : (String.ofList v).utf8ByteSize = 0 := by omega
  exact someBlank (by simpa using noBytes)

end

/-- A phrase ends with the text if what it is made of does. -/
theorem stretched_ruleTrees {text : String} {r : Rule} {parts parts' : List (ParseTree Rule)}
    (notToken : r.kind ≠ .token) (trails : r.trails = true)
    (starts : (Cursor.start text.toList).Reaches c') (noRest : c'.rest = [])
    (moves : m.look = .none ∧ m.texture ≠ .mute → r.endsInPart parts = true → parts' ≠ parts)
    (stretched : Stretched text.utf8ByteSize
      (text.utf8ByteSize + (String.ofList v).utf8ByteSize) parts parts') :
    Stretched text.utf8ByteSize (text.utf8ByteSize + (String.ofList v).utf8ByteSize)
      (ruleTrees r.kind r m c c' parts)
      (ruleTrees r.kind r m (c.extend v) ⟨c'.position.advanceAll v, []⟩ parts') := by
  have ends := offset_of_nil starts noRest
  rw [ruleTrees, ruleTrees, makeTree, makeTree, if_neg notToken, if_neg notToken]
  split
  · rename_i recorded
    have isSpan : Span.between c.position (c'.position.advanceAll v) =
        { Span.between c.position c'.position with
          stop := text.utf8ByteSize + (String.ofList v).utf8ByteSize } := by
      rw [Span.between, Span.between, Position.offset_advanceAll, ends]
    show Stretched _ _ _ [.phrase r (Span.between c.position (c'.position.advanceAll v)) parts']
    rw [isSpan]
    exact .phrase trails ends (moves recorded) stretched
  · exact .same []

/-- **Blanks at the end of a text change nothing but where phrases end.** What a pattern matches
before blanks at the end is what it matches without them, up to gaps that take in the blanks. -/
theorem Grammar.Matches.append_blanks (blanks : AllBlank v) (someBlank : v ≠ []) {text : String}
    (isMatch : Matches scriptGrammar p m c found)
    (unblank : p.isUnblank (!·.isNullable) = true)
    (starts : (Cursor.start text.toList).Reaches c) :
    ∃ found', Matches scriptGrammar p m (c.extend v) found' ∧
      Grows v text.utf8ByteSize (text.utf8ByteSize + (String.ofList v).utf8ByteSize) p.endsSolid
        found found' := by
  induction isMatch with
  | text moved => exact ⟨_, .text (Cursor.text?_extend moved), .before _ _⟩
  | noText notText =>
      have solid := (Pattern.isUnblank_text unblank).2
      exact ⟨none, .noText (text?_append_blanks_none blanks solid notText), .none⟩
  | char moved =>
      refine ⟨_, .char ?_, .before _ _⟩
      rw [char?_append_blanks blanks fun _ => Pattern.isUnblank_char unblank, moved]
      rfl
  | noChar notChar =>
      refine ⟨none, .noChar ?_, .none⟩
      rw [char?_append_blanks blanks fun _ => Pattern.isUnblank_char unblank, notChar]
      rfl
  | @seq _ _ m _ c₁ _ _ _ isFirst isSecond first second =>
      rw [Pattern.isUnblank, Bool.and_eq_true] at unblank
      have starts₁ := starts.trans ((isFirst.laid starts).1.trans (.skip scriptGrammar m c₁))
      obtain ⟨found₁, first', grows⟩ := first unblank.1 starts
      obtain ⟨d₁, us, rfl⟩ := grows.exists_eq_some
      obtain ⟨d₂, us', second', whole⟩ :=
        grows.next blanks isSecond unblank.2 (second unblank.2 starts₁)
      exact ⟨_, .seq first' second', whole⟩
  | seqFirst _ first =>
      rw [Pattern.isUnblank, Bool.and_eq_true] at unblank
      obtain ⟨found₁, first', grows⟩ := first unblank.1 starts
      cases grows
      exact ⟨none, .seqFirst first', .none⟩
  | @seqSecond _ _ m _ c₁ _ isFirst isSecond first second =>
      rw [Pattern.isUnblank, Bool.and_eq_true] at unblank
      have starts₁ := starts.trans ((isFirst.laid starts).1.trans (.skip scriptGrammar m c₁))
      obtain ⟨found₁, first', grows⟩ := first unblank.1 starts
      obtain ⟨d₁, us, rfl⟩ := grows.exists_eq_some
      obtain ⟨found₂, second', grows'⟩ := isSecond.at_stands unblank.2
        (second unblank.2 starts₁) (grows.stands.skip blanks m)
      cases grows'
      exact ⟨none, .seqSecond first' second', .none⟩
  | altFirst _ first =>
      rw [Pattern.isUnblank, Bool.and_eq_true] at unblank
      obtain ⟨found₁, first', grows⟩ := first unblank.1 starts
      obtain ⟨d₁, us, rfl⟩ := grows.exists_eq_some
      refine ⟨_, .altFirst first', grows.mono fun gapped => ?_⟩
      rw [Pattern.endsSolid, gapped, Bool.false_and]
  | altSecond _ _ first second =>
      rw [Pattern.isUnblank, Bool.and_eq_true] at unblank
      obtain ⟨found₁, first', grows⟩ := first unblank.1 starts
      cases grows
      obtain ⟨found₂, second', grows⟩ := second unblank.2 starts
      refine ⟨_, .altSecond first' second', grows.mono fun gapped => ?_⟩
      rw [Pattern.endsSolid, gapped, Bool.and_false]
  | opt _ once =>
      obtain ⟨found₁, once', grows⟩ := once unblank starts
      obtain ⟨d₁, us, rfl⟩ := grows.exists_eq_some
      exact ⟨_, .opt once', grows.mono fun _ => rfl⟩
  | optNone _ once =>
      obtain ⟨found₁, once', grows⟩ := once unblank starts
      cases grows
      exact ⟨_, .optNone once', .before _ _⟩
  | starNone _ first =>
      obtain ⟨found₁, first', grows⟩ := first unblank starts
      cases grows
      exact ⟨_, .starNone first', .before _ _⟩
  | @starOnce _ m _ c₁ _ isFirst isNext first next =>
      have starts₁ := starts.trans ((isFirst.laid starts).1.trans (.skip scriptGrammar m c₁))
      obtain ⟨found₁, first', grows⟩ := first unblank starts
      obtain ⟨d₁, us, rfl⟩ := grows.exists_eq_some
      obtain ⟨found₂, next', grows'⟩ := isNext.at_stands unblank
        (next unblank starts₁) (grows.stands.skip blanks m)
      cases grows'
      exact ⟨_, .starOnce first' next', grows.mono fun _ => rfl⟩
  | @starAgain _ m _ c₁ _ _ _ _ isFirst isNext isRest first next again =>
      have starts₁ := starts.trans ((isFirst.laid starts).1.trans (.skip scriptGrammar m c₁))
      obtain ⟨found₁, first', grows⟩ := first unblank starts
      obtain ⟨d₁, us, rfl⟩ := grows.exists_eq_some
      obtain ⟨found₂, next', grows'⟩ := isNext.at_stands unblank
        (next unblank starts₁) (grows.stands.skip blanks m)
      obtain ⟨d₂, _, rfl⟩ := grows'.exists_eq_some
      obtain ⟨d₃, us', again', whole⟩ := grows.next blanks isRest unblank (again unblank starts₁)
      exact ⟨_, .starAgain first' next' again', whole⟩
  | ahead _ inner =>
      obtain ⟨found₁, inner', grows⟩ := inner unblank starts
      obtain ⟨d₁, us, rfl⟩ := grows.exists_eq_some
      exact ⟨_, .ahead inner', .before _ _⟩
  | aheadNone _ inner =>
      obtain ⟨found₁, inner', grows⟩ := inner unblank starts
      cases grows
      exact ⟨none, .aheadNone inner', .none⟩
  | notAhead _ inner =>
      obtain ⟨found₁, inner', grows⟩ := inner unblank starts
      cases grows
      exact ⟨_, .notAhead inner', .before _ _⟩
  | notAheadNone _ inner =>
      obtain ⟨found₁, inner', grows⟩ := inner unblank starts
      obtain ⟨d₁, us, rfl⟩ := grows.exists_eq_some
      exact ⟨none, .notAheadNone inner', .none⟩
  | atEnd | notAtEnd => cases unblank
  | @silent r _ _ _ isSilent _ inner =>
      have notEmpty : r.isNullable = false := by simpa [Pattern.isUnblank] using unblank
      rcases tight_or_isUnblank notEmpty with (isToken | isSolid) | ⟨notToken, unblank'⟩
      · cases isToken.symm.trans isSilent
      · cases isSolid.symm.trans isSilent
      · obtain ⟨found₁, inner', grows⟩ := inner unblank' starts
        refine ⟨found₁, .silent isSilent inner', grows.mono fun gapped => ?_⟩
        rw [Pattern.endsSolid, trails_of_pattern notEmpty notToken gapped, Bool.not_true]
  | @rule r m c c' parts notSilent isMatch inner =>
      have notEmpty : r.isNullable = false := by simpa [Pattern.isUnblank] using unblank
      rcases tight_or_isUnblank notEmpty with isTight | ⟨notToken, unblank'⟩
      · have same := rule_append_blanks blanks notEmpty isTight (.rule notSilent isMatch)
        exact ⟨_, same, .of_extend _⟩
      · obtain ⟨found₁, inner', grows⟩ := inner unblank' starts
        cases grows with
        | before =>
            have whole := Matches.rule notSilent inner'
            rw [ruleTrees_extend isMatch.suffix] at whole
            exact ⟨_, whole, .before _ _⟩
        | after noRest gapped stretched =>
            have trails := trails_of_pattern notEmpty notToken gapped
            have reaches := starts.trans (isMatch.laid starts).1
            refine ⟨_, .rule notSilent inner', .after noRest ?_ ?_⟩
            · rw [Pattern.endsSolid, trails, Bool.not_true]
            · have sameMode : r.kind.inner (r.kind.outer m) = r.kind.outer m := if_neg notToken
              refine stretched_ruleTrees notToken trails reaches noRest (fun recorded => ?_)
                stretched
              exact ne_of_endsInPart recorded someBlank (sameMode ▸ isMatch) (sameMode ▸ inner')
  | @noRule r m c notSilent isMatch inner =>
      have notEmpty : r.isNullable = false := by simpa [Pattern.isUnblank] using unblank
      rcases tight_or_isUnblank notEmpty with isTight | ⟨-, unblank'⟩
      · have same := rule_append_blanks blanks notEmpty isTight (.noRule notSilent isMatch)
        exact ⟨none, same, .none⟩
      · obtain ⟨found₁, inner', grows⟩ := inner unblank' starts
        cases grows
        exact ⟨none, .noRule notSilent inner', .none⟩

end ScriptShell
