import ScriptShell.Grammar.Match

/-! # What a pattern matches

`Matches g p m c found` is the meaning of patterns without a bound on open rules: at the point `c`
the pattern `p` matches up to a point and leaves trees, or it matches nothing there. Ordered choice,
greedy repetition and lookahead are spelled out, failures included, so the relation says also what a
rule did *not* match; it is a function of the pattern and the point (**`Matches.unique`**). That
`Grammar.call` computes it is shown in `Proofs/Grammar/Bound`. -/

namespace ScriptShell

namespace Grammar

variable {ρ : Type}

/-- Where a match ended and the trees it made, if there was one. -/
abbrev Found (ρ : Type) := Option (Cursor × List (ParseTree ρ))

/-- The trees that a rule leaves around those of its pattern. -/
def ruleTrees (kind : RuleKind) (rule : ρ) (m : Mode) (first last : Cursor)
    (parts : List (ParseTree ρ)) : List (ParseTree ρ) :=
  if m.look = .none ∧ m.texture ≠ .mute then [makeTree kind rule first last parts] else []

/-- What patterns match, at a point and in a mode. -/
inductive Matches (g : Grammar ρ) : Pattern ρ → Mode → Cursor → Found ρ → Prop where
  | text {chars m c c'} : c.text? chars = some c' → Matches g (.text chars) m c (some (c', []))
  | noText {chars m c} : c.text? chars = none → Matches g (.text chars) m c none
  | char {allowed m c c'} :
      c.char? allowed = some c' → Matches g (.char allowed) m c (some (c', []))
  | noChar {allowed m c} : c.char? allowed = none → Matches g (.char allowed) m c none
  | seq {p q m c c₁ ts c₂ us} : Matches g p m c (some (c₁, ts)) →
      Matches g q m (skip g m c₁) (some (c₂, us)) →
      Matches g (.seq p q) m c (some (c₂, ts ++ us))
  | seqFirst {p q m c} : Matches g p m c none → Matches g (.seq p q) m c none
  | seqSecond {p q m c c₁ ts} : Matches g p m c (some (c₁, ts)) →
      Matches g q m (skip g m c₁) none → Matches g (.seq p q) m c none
  | altFirst {p q m c r} : Matches g p m c (some r) → Matches g (.alt p q) m c (some r)
  | altSecond {p q m c found} : Matches g p m c none → Matches g q m c found →
      Matches g (.alt p q) m c found
  | opt {p m c r} : Matches g p m c (some r) → Matches g (.opt p) m c (some r)
  | optNone {p m c} : Matches g p m c none → Matches g (.opt p) m c (some (c, []))
  | starNone {p m c} : Matches g p m c none → Matches g (.star p) m c (some (c, []))
  | starOnce {p m c c₁ ts} : Matches g p m c (some (c₁, ts)) →
      Matches g p m (skip g m c₁) none → Matches g (.star p) m c (some (c₁, ts))
  | starAgain {p m c c₁ ts r c₂ us} : Matches g p m c (some (c₁, ts)) →
      Matches g p m (skip g m c₁) (some r) → Matches g (.star p) m (skip g m c₁) (some (c₂, us)) →
      Matches g (.star p) m c (some (c₂, ts ++ us))
  | ahead {p m c r} : Matches g p { m with look := m.look.enter true } c (some r) →
      Matches g (.ahead p) m c (some (c, []))
  | aheadNone {p m c} : Matches g p { m with look := m.look.enter true } c none →
      Matches g (.ahead p) m c none
  | notAhead {p m c} : Matches g p { m with look := m.look.enter false } c none →
      Matches g (.notAhead p) m c (some (c, []))
  | notAheadNone {p m c r} : Matches g p { m with look := m.look.enter false } c (some r) →
      Matches g (.notAhead p) m c none
  | atEnd {m c} : c.rest = [] → Matches g .atEnd m c (some (c, []))
  | notAtEnd {m c} : c.rest ≠ [] → Matches g .atEnd m c none
  | silent {r m c found} : g.kind r = .silent → Matches g (g.pattern r) m c found →
      Matches g (.rule r) m c found
  | rule {r m c c' parts} : g.kind r ≠ .silent →
      Matches g (g.pattern r) ((g.kind r).inner ((g.kind r).outer m)) c (some (c', parts)) →
      Matches g (.rule r) m c (some (c', ruleTrees (g.kind r) r ((g.kind r).outer m) c c' parts))
  | noRule {r m c} : g.kind r ≠ .silent →
      Matches g (g.pattern r) ((g.kind r).inner ((g.kind r).outer m)) c none →
      Matches g (.rule r) m c none

/-- Whether a pattern calls a rule. -/
def Pattern.callsRule : Pattern ρ → Bool
  | .text _ | .char _ | .atEnd => false
  | .seq p q | .alt p q => p.callsRule || q.callsRule
  | .opt p | .star p | .ahead p | .notAhead p => p.callsRule
  | .rule _ => true

/-! ## Moving forward -/

/-- Moving over a gap moves forward. -/
theorem Cursor.suffix_skipFrom (g : Grammar ρ) (inComment : Bool) (p : Position)
    (text : List Char) : (Cursor.skipFrom g inComment p text).rest <:+ text := by
  induction text generalizing inComment p with
  | nil => simp [skipFrom]
  | cons x rest ih =>
      have further : ∀ inComment,
          (skipFrom g inComment (p.advance x) rest).rest <:+ x :: rest :=
        fun inComment => (ih inComment _).trans (List.suffix_cons x rest)
      -- A comment swallows everything up to its line's end; outside one only gaps are passed.
      cases inComment with
      | true => exact further _
      | false =>
          simp only [skipFrom]
          split
          · exact further _
          · split
            · exact further _
            · exact List.suffix_refl _

/-- Skipping a gap leaves a rest of the text. -/
theorem suffix_skip (g : Grammar ρ) (m : Mode) (c : Cursor) : (skip g m c).rest <:+ c.rest := by
  unfold skip
  split
  · exact Cursor.suffix_skipFrom g false _ _
  · exact List.suffix_refl _

/-- Without loose texture no gap is skipped. -/
theorem skip_eq_self {g : Grammar ρ} {m : Mode} (tight : m.texture ≠ .loose) (c : Cursor) :
    skip g m c = c :=
  if_neg tight

/-- Matched characters stand before the rest. -/
theorem Cursor.rest_of_text? {chars : List Char} {c c' : Cursor} (moved : c.text? chars = some c') :
    c.rest = chars ++ c'.rest := by
  obtain ⟨rest, dropped, rfl⟩ := Option.map_eq_some_iff.mp moved
  exact Text.dropLead?_eq_some_iff.mp dropped

/-- One matched character stands before the rest. -/
theorem Cursor.rest_of_char? {allowed : Char → Bool} {c c' : Cursor}
    (moved : c.char? allowed = some c') : ∃ x, allowed x = true ∧ c.rest = x :: c'.rest := by
  unfold char? at moved
  split at moved
  · cases moved
  · rename_i x rest isRest
    split at moved
    · rename_i isAllowed
      cases moved
      exact ⟨x, isAllowed, isRest⟩
    · cases moved

namespace Matches

variable {g : Grammar ρ} {p : Pattern ρ} {m : Mode} {c c' : Cursor} {found : Found ρ}
  {ts : List (ParseTree ρ)}

/-- A match ends further on in the text. -/
theorem suffix (isMatch : Matches g p m c (some (c', ts))) : c'.rest <:+ c.rest := by
  generalize isFound : some (c', ts) = found at isMatch
  induction isMatch generalizing c' ts with
  | text moved =>
      cases isFound
      rw [Cursor.rest_of_text? moved]
      exact List.suffix_append _ _
  | char moved =>
      cases isFound
      obtain ⟨x, -, isRest⟩ := Cursor.rest_of_char? moved
      rw [isRest]
      exact List.suffix_cons x _
  -- Between the parts of a sequence, and between turns, a gap may be passed too.
  | seq _ _ first second =>
      cases isFound
      exact (second rfl).trans ((suffix_skip g _ _).trans (first rfl))
  | altFirst _ first => exact first isFound
  | altSecond _ _ _ second => exact second isFound
  | opt _ once => exact once isFound
  | optNone | starNone | ahead | notAhead | atEnd =>
      cases isFound
      exact List.suffix_refl _
  | starOnce _ _ first =>
      cases isFound
      exact first rfl
  | starAgain _ _ _ first _ again =>
      cases isFound
      exact (again rfl).trans ((suffix_skip g _ _).trans (first rfl))
  | silent _ _ inner => exact inner isFound
  | rule _ _ inner =>
      cases isFound
      exact inner rfl
  | noText | noChar | seqFirst | seqSecond | aheadNone | notAheadNone | notAtEnd | noRule =>
      cases isFound

/-! ## What a match is made of -/

section

variable {q : Pattern ρ}

/-- A match of characters. -/
theorem of_text {chars : List Char} (isMatch : Matches g (.text chars) m c (some (c', ts))) :
    c.rest = chars ++ c'.rest ∧ ts = [] := by
  cases isMatch with
  | text moved => exact ⟨Cursor.rest_of_text? moved, rfl⟩

/-- A match of one character. -/
theorem of_char {allowed : Char → Bool} (isMatch : Matches g (.char allowed) m c (some (c', ts))) :
    ∃ x, allowed x = true ∧ c.rest = x :: c'.rest := by
  cases isMatch with
  | char moved => exact Cursor.rest_of_char? moved

/-- Where characters are not matched, they do not come next. -/
theorem none_of_text {chars : List Char} (noMatch : Matches g (.text chars) m c none)
    (rest : List Char) : c.rest ≠ chars ++ rest := by
  intro isRest
  cases noMatch with
  | noText notText =>
      rw [Cursor.text?, Option.map_eq_none_iff, Text.dropLead?_eq_some_iff.mpr isRest] at notText
      cases notText

/-- Where no character matches, none of the kind comes next. -/
theorem none_of_char {allowed : Char → Bool} (noMatch : Matches g (.char allowed) m c none) :
    ∀ x ∈ c.rest.head?, allowed x = false := by
  intro x isFirst
  obtain ⟨rest, isRest⟩ := List.head?_eq_some_iff.mp isFirst
  cases noMatch with
  | noChar notChar => simpa [Cursor.char?, isRest] using notChar

/-- A match of a sequence: one part, a gap, and the other part. -/
theorem of_seq (isMatch : Matches g (.seq p q) m c (some (c', ts))) :
    ∃ c₁ us vs, Matches g p m c (some (c₁, us)) ∧ Matches g q m (skip g m c₁) (some (c', vs)) ∧
      ts = us ++ vs := by
  cases isMatch with
  | seq first second => exact ⟨_, _, _, first, second, rfl⟩

/-- A match of a choice: the first one, or the second where the first has none. -/
theorem of_alt (isMatch : Matches g (.alt p q) m c found) :
    (∃ r, found = some r ∧ Matches g p m c found) ∨
      (Matches g p m c none ∧ Matches g q m c found) := by
  cases isMatch with
  | altFirst first => exact .inl ⟨_, rfl, first⟩
  | altSecond first second => exact .inr ⟨first, second⟩

/-- A match of several alternatives is one of theirs. -/
theorem of_oneOf {ps : List (Pattern ρ)} {r : Cursor × List (ParseTree ρ)}
    (isMatch : Matches g (.oneOf p ps) m c (some r)) : ∃ q ∈ p :: ps, Matches g q m c (some r) := by
  induction ps generalizing p with
  | nil => exact ⟨p, List.mem_cons_self, isMatch⟩
  | cons next more ih =>
      rcases isMatch.of_alt with ⟨_, _, first⟩ | ⟨_, second⟩
      · exact ⟨p, List.mem_cons_self, first⟩
      · obtain ⟨q, member, isMatch⟩ := ih second
        exact ⟨q, List.mem_cons_of_mem p member, isMatch⟩

/-- Where several alternatives have no match, none of them has. -/
theorem none_of_oneOf {ps : List (Pattern ρ)} (noMatch : Matches g (.oneOf p ps) m c none) :
    ∀ q ∈ p :: ps, Matches g q m c none := by
  induction ps generalizing p with
  | nil =>
      intro q member
      rw [List.mem_singleton.mp member]
      exact noMatch
  | cons next more ih =>
      rcases noMatch.of_alt with ⟨_, isSome, _⟩ | ⟨first, second⟩
      · cases isSome
      · intro q member
        rcases List.mem_cons.mp member with rfl | member
        · exact first
        · exact ih second q member

/-- A match of what must come next moves nowhere. -/
theorem of_ahead (isMatch : Matches g (.ahead p) m c (some (c', ts))) :
    c' = c ∧ ts = [] ∧ ∃ r, Matches g p { m with look := m.look.enter true } c (some r) := by
  cases isMatch with
  | ahead inner => exact ⟨rfl, rfl, _, inner⟩

/-- A match of what must not come next moves nowhere. -/
theorem of_notAhead (isMatch : Matches g (.notAhead p) m c (some (c', ts))) :
    c' = c ∧ ts = [] ∧ Matches g p { m with look := m.look.enter false } c none := by
  cases isMatch with
  | notAhead inner => exact ⟨rfl, rfl, inner⟩

/-- A silent rule matches as its pattern does. -/
theorem of_silent {r : ρ} (silent : g.kind r = .silent) (isMatch : Matches g (.rule r) m c found) :
    Matches g (g.pattern r) m c found := by
  cases isMatch with
  | silent _ inner => exact inner
  | rule notSilent | noRule notSilent => exact absurd silent notSilent

/-- A match of a rule that leaves trees. -/
theorem of_rule {r : ρ} (notSilent : g.kind r ≠ .silent)
    (isMatch : Matches g (.rule r) m c (some (c', ts))) :
    ∃ parts, ts = ruleTrees (g.kind r) r ((g.kind r).outer m) c c' parts ∧
      Matches g (g.pattern r) ((g.kind r).inner ((g.kind r).outer m)) c (some (c', parts)) := by
  cases isMatch with
  | silent silent => exact absurd silent notSilent
  | rule _ inner => exact ⟨_, rfl, inner⟩

/-- A match of a phrase. -/
theorem of_phrase {r : ρ} (isPhrase : g.kind r = .phrase)
    (isMatch : Matches g (.rule r) m c (some (c', ts))) :
    ∃ parts, ts = ruleTrees .phrase r m c c' parts ∧
      Matches g (g.pattern r) m c (some (c', parts)) := by
  have inner := isMatch.of_rule (by simp [isPhrase])
  rw [isPhrase] at inner
  exact inner

/-- A match of a token. -/
theorem of_token {r : ρ} (isToken : g.kind r = .token)
    (isMatch : Matches g (.rule r) m c (some (c', ts))) :
    ∃ parts, ts = ruleTrees .token r m c c' parts ∧
      Matches g (g.pattern r) { m with texture := .mute } c (some (c', parts)) := by
  have inner := isMatch.of_rule (by simp [isToken])
  rw [isToken] at inner
  exact inner

/-- A match of a solid phrase. -/
theorem of_solid {r : ρ} (isSolid : g.kind r = .solid)
    (isMatch : Matches g (.rule r) m c (some (c', ts))) :
    ∃ parts, ts = ruleTrees .solid r { m with texture := .solid } c c' parts ∧
      Matches g (g.pattern r) { m with texture := .solid } c (some (c', parts)) := by
  have inner := isMatch.of_rule (by simp [isSolid])
  rw [isSolid] at inner
  exact inner

end

/-- **A pattern matches in one way.** -/
theorem unique (isMatch : Matches g p m c found) {other : Found ρ}
    (again : Matches g p m c other) : found = other := by
  -- Wherever there are two rules for a pattern, a part of it would match and not match.
  induction isMatch generalizing other with
  | text moved | noText moved | char moved | noChar moved =>
      cases again <;> simp_all
  | seq _ _ first second =>
      cases again with
      | seq first' second' =>
          cases first first'
          cases second second'
          rfl
      | seqFirst first' => cases first first'
      | seqSecond first' second' =>
          cases first first'
          cases second second'
  | seqFirst _ first =>
      cases again with
      | seq first' | seqSecond first' => cases first first'
      | seqFirst => rfl
  | seqSecond _ _ first second =>
      cases again with
      | seq first' second' =>
          cases first first'
          cases second second'
      | seqFirst | seqSecond => rfl
  | altFirst _ first =>
      cases again with
      | altFirst first' => exact first first'
      | altSecond first' => cases first first'
  | altSecond _ _ first second =>
      cases again with
      | altFirst first' => cases first first'
      | altSecond _ second' => exact second second'
  | opt _ once =>
      cases again with
      | opt once' => exact once once'
      | optNone once' => cases once once'
  | optNone _ once =>
      cases again with
      | opt once' => cases once once'
      | optNone => rfl
  | starNone _ first =>
      cases again with
      | starNone => rfl
      | starOnce first' | starAgain first' => cases first first'
  | starOnce _ _ first next =>
      cases again with
      | starNone first' => cases first first'
      | starOnce first' => exact first first'
      | starAgain first' next' =>
          cases first first'
          cases next next'
  | starAgain _ _ _ first next rest =>
      cases again with
      | starNone first' => cases first first'
      | starOnce first' next' =>
          cases first first'
          cases next next'
      | starAgain first' _ rest' =>
          cases first first'
          cases rest rest'
          rfl
  | ahead _ inner =>
      cases again with
      | ahead => rfl
      | aheadNone inner' => cases inner inner'
  | aheadNone _ inner =>
      cases again with
      | ahead inner' => cases inner inner'
      | aheadNone => rfl
  | notAhead _ inner =>
      cases again with
      | notAhead => rfl
      | notAheadNone inner' => cases inner inner'
  | notAheadNone _ inner =>
      cases again with
      | notAhead inner' => cases inner inner'
      | notAheadNone => rfl
  | atEnd isEnd | notAtEnd isEnd =>
      cases again <;> simp_all
  | silent isSilent _ inner => exact inner (again.of_silent isSilent)
  | rule notSilent _ inner =>
      cases again with
      | silent isSilent => exact absurd isSilent notSilent
      | rule _ inner' =>
          cases inner inner'
          rfl
      | noRule _ inner' => cases inner inner'
  | noRule notSilent _ inner =>
      cases again with
      | silent isSilent => exact absurd isSilent notSilent
      | rule _ inner' => cases inner inner'
      | noRule => rfl

/-- Patterns that call no rule leave no trees. -/
theorem trees_eq_nil (noRule : p.callsRule = false) (isMatch : Matches g p m c (some (c', ts))) :
    ts = [] := by
  generalize isFound : some (c', ts) = found at isMatch
  -- Trees are made by calls of rules alone, and there are none of these.
  induction isMatch generalizing c' ts with
  | text | char | optNone | starNone | ahead | notAhead | atEnd =>
      cases isFound
      rfl
  | seq _ _ first second =>
      cases isFound
      simp only [Pattern.callsRule, Bool.or_eq_false_iff] at noRule
      rw [first noRule.1 rfl, second noRule.2 rfl]
      rfl
  | altFirst _ first =>
      simp only [Pattern.callsRule, Bool.or_eq_false_iff] at noRule
      exact first noRule.1 isFound
  | altSecond _ _ _ second =>
      simp only [Pattern.callsRule, Bool.or_eq_false_iff] at noRule
      exact second noRule.2 isFound
  | opt _ once => exact once noRule isFound
  | starOnce _ _ first =>
      cases isFound
      exact first noRule rfl
  | starAgain _ _ _ first _ again =>
      cases isFound
      rw [first noRule rfl, again noRule rfl]
      rfl
  | silent | rule => cases noRule
  | noText | noChar | seqFirst | seqSecond | aheadNone | notAheadNone | notAtEnd | noRule =>
      cases isFound

/-- A rule leaves trees of its own. -/
theorem rule_of_mem {r : ρ} (notSilent : g.kind r ≠ .silent)
    (isMatch : Matches g (.rule r) m c (some (c', ts))) : ∀ t ∈ ts, t.rule = r := by
  obtain ⟨parts, rfl, -⟩ := isMatch.of_rule notSilent
  intro t member
  unfold ruleTrees at member
  split at member
  · rw [List.mem_singleton.mp member]
    unfold makeTree
    split <;> rfl
  · cases member

/-- A repeated rule leaves trees of that rule only. -/
theorem rule_of_mem_star {r : ρ} (notSilent : g.kind r ≠ .silent)
    (isMatch : Matches g (.star (.rule r)) m c (some (c', ts))) : ∀ t ∈ ts, t.rule = r := by
  generalize isPattern : Pattern.star (.rule r) = star at isMatch
  generalize isFound : some (c', ts) = found at isMatch
  -- The pattern is kept as an equation, so that only the three rules for repetitions remain.
  induction isMatch generalizing c' ts with
  | starNone =>
      cases isFound
      intro t member
      cases member
  | starOnce first =>
      cases isPattern
      cases isFound
      exact first.rule_of_mem notSilent
  | starAgain first _ _ _ _ again =>
      cases isPattern
      cases isFound
      intro t member
      rcases List.mem_append.mp member with member | member
      · exact first.rule_of_mem notSilent t member
      · exact again rfl rfl t member
  | _ => cases isPattern

/-- Where gaps are not skipped, a repetition of single characters takes all of a class that come
next. -/
theorem of_star_char {allowed : Char → Bool} (tight : m.texture ≠ .loose)
    (one : ∀ {c c' ts}, Matches g p m c (some (c', ts)) →
      ∃ x, allowed x = true ∧ c.rest = x :: c'.rest)
    (none : ∀ {c}, Matches g p m c none → ∀ x ∈ c.rest.head?, allowed x = false)
    (isMatch : Matches g (.star p) m c (some (c', ts))) :
    c.rest = c.rest.takeWhile allowed ++ c'.rest ∧ c'.rest = c.rest.dropWhile allowed := by
  have noSkip : ∀ c, skip g m c = c := skip_eq_self tight
  -- Where no further character is matched, the class has ended.
  have stops : ∀ {c}, Matches g p m c Option.none →
      c.rest.takeWhile allowed = [] ∧ c.rest.dropWhile allowed = c.rest := by
    intro c noMatch
    cases isRest : c.rest with
    | nil => exact ⟨rfl, rfl⟩
    | cons x rest => simp [none noMatch x (by simp [isRest])]
  generalize isPattern : Pattern.star p = star at isMatch
  generalize isFound : some (c', ts) = found at isMatch
  induction isMatch generalizing c' ts with
  | starNone noMatch =>
      cases isPattern
      cases isFound
      simp [stops noMatch]
  | starOnce first noMatch =>
      cases isPattern
      cases isFound
      obtain ⟨x, isAllowed, isRest⟩ := one first
      rw [noSkip] at noMatch
      simp [isRest, isAllowed, stops noMatch]
  | starAgain first _ _ _ _ again =>
      cases isPattern
      cases isFound
      obtain ⟨x, isAllowed, isRest⟩ := one first
      have rest := again tight one none noSkip stops rfl rfl
      rw [noSkip] at rest
      rw [isRest, List.takeWhile_cons_of_pos isAllowed, List.dropWhile_cons_of_pos isAllowed,
        List.cons_append, ← rest.1]
      exact ⟨rfl, rest.2⟩
  | _ => cases isPattern

/-- Where nothing is skipped after it, a turn goes before others. -/
theorem star_cons {q : Pattern ρ} {c₁ c₂ : Cursor} {us : List (ParseTree ρ)}
    (first : Matches g q m c (some (c₁, ts))) (settled : skip g m c₁ = c₁)
    (others : Matches g (.star q) m c₁ (some (c₂, us))) :
    Matches g (.star q) m c (some (c₂, ts ++ us)) := by
  cases others with
  | starNone none =>
      rw [List.append_nil]
      exact .starOnce first (by rwa [settled])
  | starOnce next none =>
      exact .starAgain first (by rwa [settled]) (by rw [settled]; exact .starOnce next none)
  | starAgain next next' others =>
      exact .starAgain first (by rwa [settled])
        (by rw [settled]; exact .starAgain next next' others)

end Matches

/-- The text between two points. -/
theorem Cursor.textTo_of_append {first last : Cursor} {text : List Char}
    (whole : first.rest = text ++ last.rest) : first.textTo last = text := by
  simp [textTo, whole]

end Grammar

end ScriptShell
