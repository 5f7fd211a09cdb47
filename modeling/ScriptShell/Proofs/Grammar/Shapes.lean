import ScriptShell.Proofs.Grammar.Matches

/-! # The shapes of parse trees

What a pattern leaves where it matches is a row of trees, and the pattern limits which rules these
trees are of: `Yields g p rules` reads the possible rows off the pattern. `Derived g t` says that
the grammar can produce a tree, since below each phrase stands a row that its rule's pattern yields,
and each token is spelled as its rule's pattern matches. **`Matches.derived`**: matching leaves
nothing else. What takes parse trees apart may rely on it. -/

namespace ScriptShell

namespace Grammar

variable {ρ : Type}

/-- The rules of the trees that a pattern leaves where its text is consumed, in order. -/
inductive Yields (g : Grammar ρ) : Pattern ρ → List ρ → Prop where
  | text {chars} : Yields g (.text chars) []
  | char {allowed} : Yields g (.char allowed) []
  | seq {p q first second} : Yields g p first → Yields g q second →
      Yields g (.seq p q) (first ++ second)
  | altFirst {p q row} : Yields g p row → Yields g (.alt p q) row
  | altSecond {p q row} : Yields g q row → Yields g (.alt p q) row
  | opt {p row} : Yields g p row → Yields g (.opt p) row
  | optNone {p} : Yields g (.opt p) []
  | starNone {p} : Yields g (.star p) []
  | starMore {p first more} : Yields g p first → Yields g (.star p) more →
      Yields g (.star p) (first ++ more)
  | ahead {p} : Yields g (.ahead p) []
  | notAhead {p} : Yields g (.notAhead p) []
  | atEnd : Yields g .atEnd []
  | silent {r row} : g.kind r = .silent → Yields g (g.pattern r) row → Yields g (.rule r) row
  | rule {r} : g.kind r ≠ .silent → Yields g (.rule r) [r]

/-- A text that the pattern of a rule matches as a token. -/
def Spells (g : Grammar ρ) (r : ρ) (text : List Char) : Prop :=
  ∃ m c c' parts, m.texture = .mute ∧ Matches g (g.pattern r) m c (some (c', parts)) ∧
    c.textTo c' = text

/-- Trees that the grammar can produce. -/
inductive Derived (g : Grammar ρ) : ParseTree ρ → Prop where
  | token {r span text} : g.kind r = .token → Spells g r text → Derived g (.token r span text)
  | phrase {r span parts} : g.kind r ≠ .token → Yields g (g.pattern r) (parts.map (·.rule)) →
      (∀ t ∈ parts, Derived g t) → Derived g (.phrase r span parts)

/-! ## Reading rows off patterns -/

namespace Yields

variable {g : Grammar ρ} {p q : Pattern ρ} {row : List ρ}

@[simp] theorem text_iff {chars : List Char} : Yields g (.text chars) row ↔ row = [] := by
  constructor
  · intro yields
    cases yields
    rfl
  · rintro rfl
    exact .text

@[simp] theorem char_iff {allowed : Char → Bool} : Yields g (.char allowed) row ↔ row = [] := by
  constructor
  · intro yields
    cases yields
    rfl
  · rintro rfl
    exact .char

@[simp] theorem seq_iff :
    Yields g (.seq p q) row ↔
      ∃ first second, Yields g p first ∧ Yields g q second ∧ row = first ++ second := by
  constructor
  · intro yields
    cases yields with
    | seq left right => exact ⟨_, _, left, right, rfl⟩
  · rintro ⟨first, second, left, right, rfl⟩
    exact .seq left right

@[simp] theorem alt_iff : Yields g (.alt p q) row ↔ Yields g p row ∨ Yields g q row := by
  constructor
  · intro yields
    cases yields with
    | altFirst left => exact .inl left
    | altSecond right => exact .inr right
  · rintro (left | right)
    · exact .altFirst left
    · exact .altSecond right

@[simp] theorem opt_iff : Yields g (.opt p) row ↔ Yields g p row ∨ row = [] := by
  constructor
  · intro yields
    cases yields with
    | opt once => exact .inl once
    | optNone => exact .inr rfl
  · rintro (once | rfl)
    · exact .opt once
    · exact .optNone

/-- A repetition leaves what its turns leave. -/
theorem star_iff :
    Yields g (.star p) row ↔ ∃ turns : List (List ρ), (∀ turn ∈ turns, Yields g p turn) ∧
      row = turns.flatten := by
  constructor
  · intro yields
    generalize isPattern : Pattern.star p = star at yields
    induction yields with
    | starNone => exact ⟨[], by simp, rfl⟩
    | starMore first _ _ more =>
        cases isPattern
        obtain ⟨turns, each, rfl⟩ := more rfl
        exact ⟨_ :: turns, List.forall_mem_cons.mpr ⟨first, each⟩, rfl⟩
    | _ => cases isPattern
  · rintro ⟨turns, each, rfl⟩
    induction turns with
    | nil => exact .starNone
    | cons turn turns ih =>
        rw [List.forall_mem_cons] at each
        exact .starMore each.1 (ih each.2)

/-- What all turns of a repetition have in common. -/
theorem forall_of_star {holds : ρ → Prop} (yields : Yields g (.star p) row)
    (each : ∀ turn, Yields g p turn → ∀ r ∈ turn, holds r) : ∀ r ∈ row, holds r := by
  obtain ⟨turns, isTurn, rfl⟩ := star_iff.mp yields
  intro r member
  obtain ⟨turn, inTurns, inTurn⟩ := List.mem_flatten.mp member
  exact each turn (isTurn turn inTurns) r inTurn

/-- A repetition of what leaves no trees leaves none. -/
theorem star_iff_of_empty (empty : ∀ turn, Yields g p turn → turn = []) :
    Yields g (.star p) row ↔ row = [] := by
  constructor
  · intro yields
    refine List.eq_nil_iff_forall_not_mem.mpr (yields.forall_of_star fun turn isTurn => ?_)
    simp [empty turn isTurn]
  · rintro rfl
    exact .starNone

@[simp] theorem ahead_iff : Yields g (.ahead p) row ↔ row = [] := by
  constructor
  · intro yields
    cases yields
    rfl
  · rintro rfl
    exact .ahead

@[simp] theorem notAhead_iff : Yields g (.notAhead p) row ↔ row = [] := by
  constructor
  · intro yields
    cases yields
    rfl
  · rintro rfl
    exact .notAhead

/-- A rule that is not silent leaves one tree. -/
theorem rule_iff {r : ρ} (notSilent : g.kind r ≠ .silent) :
    Yields g (.rule r) row ↔ row = [r] := by
  constructor
  · intro yields
    cases yields with
    | silent isSilent => exact absurd isSilent notSilent
    | rule => rfl
  · rintro rfl
    exact .rule notSilent

end Yields

/-- A tree of a token's rule is a token. -/
theorem Derived.eq_token {g : Grammar ρ} {t : ParseTree ρ} {r : ρ} (derived : Derived g t)
    (isRule : t.rule = r) (isToken : g.kind r = .token) : ∃ span text, t = .token r span text := by
  subst isRule
  cases derived with
  | token => exact ⟨_, _, rfl⟩
  | phrase notToken => exact absurd isToken notToken

/-- A tree of any other rule is a phrase. -/
theorem Derived.eq_phrase {g : Grammar ρ} {t : ParseTree ρ} {r : ρ} (derived : Derived g t)
    (isRule : t.rule = r) (notToken : g.kind r ≠ .token) :
    ∃ span parts, t = .phrase r span parts := by
  subst isRule
  cases derived with
  | token isToken => exact absurd isToken notToken
  | phrase => exact ⟨_, _, rfl⟩

/-- What stands below a phrase. -/
theorem Derived.parts {g : Grammar ρ} {r : ρ} {span : Span} {parts : List (ParseTree ρ)}
    (derived : Derived g (.phrase r span parts)) :
    Yields g (g.pattern r) (parts.map (·.rule)) ∧ ∀ t ∈ parts, Derived g t := by
  cases derived with
  | phrase _ yields inside => exact ⟨yields, inside⟩

/-! ## What matching leaves -/

/-- **Matching leaves derived trees.** Where text is consumed and trees are kept, the trees that a
pattern leaves are of rules that it yields, and so are the parts of each. -/
theorem Matches.derived {g : Grammar ρ} {p : Pattern ρ} {m : Mode} {c c' : Cursor}
    {ts : List (ParseTree ρ)} (isMatch : Matches g p m c (some (c', ts)))
    (consumes : m.look = .none) (loud : m.texture ≠ .mute) :
    Yields g p (ts.map (·.rule)) ∧ ∀ t ∈ ts, Derived g t := by
  generalize isFound : some (c', ts) = found at isMatch
  induction isMatch generalizing c' ts with
  | text =>
      cases isFound
      exact ⟨.text, by simp⟩
  | char =>
      cases isFound
      exact ⟨.char, by simp⟩
  | seq _ _ first second =>
      cases isFound
      obtain ⟨left, inLeft⟩ := first consumes loud rfl
      obtain ⟨right, inRight⟩ := second consumes loud rfl
      rw [List.map_append]
      exact ⟨.seq left right, List.forall_mem_append.mpr ⟨inLeft, inRight⟩⟩
  | altFirst _ first =>
      obtain ⟨left, inside⟩ := first consumes loud isFound
      exact ⟨.altFirst left, inside⟩
  | altSecond _ _ _ second =>
      obtain ⟨right, inside⟩ := second consumes loud isFound
      exact ⟨.altSecond right, inside⟩
  | opt _ once =>
      obtain ⟨yields, inside⟩ := once consumes loud isFound
      exact ⟨.opt yields, inside⟩
  | optNone =>
      cases isFound
      exact ⟨.optNone, by simp⟩
  | starNone =>
      cases isFound
      exact ⟨.starNone, by simp⟩
  | starOnce _ _ first =>
      cases isFound
      obtain ⟨yields, inside⟩ := first consumes loud rfl
      exact ⟨by simpa using Yields.starMore yields .starNone, inside⟩
  | starAgain _ _ _ first _ again =>
      cases isFound
      obtain ⟨yields, inFirst⟩ := first consumes loud rfl
      obtain ⟨more, inMore⟩ := again consumes loud rfl
      rw [List.map_append]
      exact ⟨.starMore yields more, List.forall_mem_append.mpr ⟨inFirst, inMore⟩⟩
  | ahead =>
      cases isFound
      exact ⟨.ahead, by simp⟩
  | notAhead =>
      cases isFound
      exact ⟨.notAhead, by simp⟩
  | atEnd =>
      cases isFound
      exact ⟨.atEnd, by simp⟩
  | silent isSilent _ inner =>
      obtain ⟨yields, inside⟩ := inner consumes loud isFound
      exact ⟨.silent isSilent yields, inside⟩
  | @rule r m c c' parts notSilent isInner inner =>
      cases isFound
      -- Neither kind of rule changes that its own tree is kept; a token keeps none inside.
      have keeps : ((g.kind r).outer m).look = .none ∧ ((g.kind r).outer m).texture ≠ .mute := by
        unfold RuleKind.outer
        split
        · exact ⟨consumes, by simp⟩
        · exact ⟨consumes, loud⟩
      rw [ruleTrees, if_pos keeps, makeTree]
      by_cases isToken : g.kind r = .token
      · rw [if_pos isToken]
        have spells : Spells g r (c.textTo c') :=
          ⟨_, c, c', parts, by simp [RuleKind.inner, isToken], isInner, rfl⟩
        exact ⟨.rule notSilent, by simpa using Derived.token isToken spells⟩
      · rw [if_neg isToken]
        have same : (g.kind r).inner ((g.kind r).outer m) = (g.kind r).outer m := if_neg isToken
        rw [same] at inner
        obtain ⟨yields, inside⟩ := inner keeps.1 keeps.2 rfl
        exact ⟨.rule notSilent, by simpa using Derived.phrase isToken yields inside⟩
  | noText | noChar | seqFirst | seqSecond | aheadNone | notAheadNone | notAtEnd | noRule =>
      cases isFound

end Grammar

end ScriptShell
