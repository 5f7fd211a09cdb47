import ScriptShell.Proofs.Grammar.Matches

/-! # The bound on open rules

A rule that can reach itself without moving forward would never come to an end. `Grammar.Ranked`
excludes that by numbers for the rules: a rule calls only rules of smaller numbers before it has
moved, and no repetition repeats a pattern that may match nothing. Then the bound with which
`Grammar.match?` starts is never met, and **`Grammar.matches_of_match?`**: the trees it answers are
those that the pattern matches, and it answers them whenever there are any
(`Grammar.match?_of_matches`). -/

namespace ScriptShell

namespace Grammar

variable {ρ : Type}

namespace Pattern

/-- Whether a pattern may match without moving, given which rules may. -/
def mayBeEmpty (nullable : ρ → Bool) : Pattern ρ → Bool
  | .text chars => chars.isEmpty
  | .char _ => false
  | .seq p q => p.mayBeEmpty nullable && q.mayBeEmpty nullable
  | .alt p q => p.mayBeEmpty nullable || q.mayBeEmpty nullable
  | .opt _ | .star _ | .ahead _ | .notAhead _ | .atEnd => true
  | .rule r => nullable r

/-- The rules that a pattern may call before it has moved. -/
def heads (nullable : ρ → Bool) : Pattern ρ → List ρ
  | .text _ | .char _ | .atEnd => []
  | .seq p q => p.heads nullable ++ if p.mayBeEmpty nullable then q.heads nullable else []
  | .alt p q => p.heads nullable ++ q.heads nullable
  | .opt p | .star p | .ahead p | .notAhead p => p.heads nullable
  | .rule r => [r]

/-- Every repetition in a pattern moves at each turn. -/
def repeatsMove (nullable : ρ → Bool) : Pattern ρ → Bool
  | .text _ | .char _ | .atEnd | .rule _ => true
  | .seq p q | .alt p q => p.repeatsMove nullable && q.repeatsMove nullable
  | .opt p | .ahead p | .notAhead p => p.repeatsMove nullable
  | .star p => !p.mayBeEmpty nullable && p.repeatsMove nullable

end Pattern

/-- Numbers for the rules of a grammar that go down along calls without a move. -/
structure Ranked (g : Grammar ρ) where
  nullable : ρ → Bool
  rank : ρ → Nat
  bound : Nat
  rank_lt : ∀ r, rank r < bound
  empty : ∀ r, (g.pattern r).mayBeEmpty nullable = true → nullable r = true
  down : ∀ r, ∀ r' ∈ (g.pattern r).heads nullable, rank r' < rank r
  moves : ∀ r, (g.pattern r).repeatsMove nullable = true

variable {g : Grammar ρ} {p : Pattern ρ} {m : Mode} {c c' : Cursor} {ts : List (ParseTree ρ)}

/-- A pattern that cannot be empty moves forward. -/
theorem Matches.length_lt (ranked : Ranked g) (isMatch : Matches g p m c (some (c', ts)))
    (notEmpty : p.mayBeEmpty ranked.nullable = false) : c'.rest.length < c.rest.length := by
  have le : ∀ {p m c c' ts}, Matches g p m c (some (c', ts)) →
      (skip g m c').rest.length ≤ c.rest.length := by
    intro p m c c' ts isMatch
    exact ((suffix_skip g m c').trans isMatch.suffix).length_le
  generalize isFound : some (c', ts) = found at isMatch
  induction isMatch generalizing c' ts with
  | @text chars m c _ moved =>
      cases isFound
      rw [Cursor.rest_of_text? moved, List.length_append]
      cases chars with
      | nil => cases notEmpty
      | cons => simp
  | char moved =>
      cases isFound
      obtain ⟨x, -, isRest⟩ := Cursor.rest_of_char? moved
      simp [isRest]
  -- One of the two parts moves, and the other one does not go back.
  | seq isFirst isSecond first second =>
      cases isFound
      simp only [Pattern.mayBeEmpty, Bool.and_eq_false_iff] at notEmpty
      rcases notEmpty with moves | moves
      · have := first moves rfl
        have := (isSecond.suffix.trans (suffix_skip g _ _)).length_le
        omega
      · have := second moves rfl
        have := le isFirst
        omega
  | altFirst _ first =>
      simp only [Pattern.mayBeEmpty, Bool.or_eq_false_iff] at notEmpty
      exact first notEmpty.1 isFound
  | altSecond _ _ _ second =>
      simp only [Pattern.mayBeEmpty, Bool.or_eq_false_iff] at notEmpty
      exact second notEmpty.2 isFound
  | opt | optNone | starNone | starOnce | starAgain | ahead | notAhead | atEnd => cases notEmpty
  | @silent r _ _ _ _ _ inner =>
      refine inner (Bool.eq_false_iff.mpr fun empty => ?_) isFound
      have notNullable : ranked.nullable r = false := notEmpty
      rw [ranked.empty r empty] at notNullable
      cases notNullable
  | @rule r _ _ _ _ _ _ inner =>
      cases isFound
      refine inner (Bool.eq_false_iff.mpr fun empty => ?_) rfl
      have notNullable : ranked.nullable r = false := notEmpty
      rw [ranked.empty r empty] at notNullable
      cases notNullable
  | noText | noChar | seqFirst | seqSecond | aheadNone | notAheadNone | notAtEnd | noRule =>
      cases isFound

/-! ## Following a pattern -/

/-- What is found by one pattern after another. -/
theorem Reply.result_andThen (r : Reply ρ) (next : Cursor → Attempts ρ → Reply ρ) :
    (r.andThen next).result = r.result.bind fun found =>
      (next found.1 r.attempts).result.map fun more => (more.1, found.2 ++ more.2) := by
  unfold andThen
  cases isFound : r.result with
  | none => simp [isFound]
  | some => rfl

/-- What is found by one pattern or else another. -/
theorem Reply.result_orElse (r : Reply ρ) (other : Attempts ρ → Reply ρ) :
    (r.orElse other).result = r.result.or (other r.attempts).result := by
  unfold orElse
  cases isFound : r.result <;> simp [isFound]

/-- What a rule finds is what its pattern finds, with the rule's trees. -/
theorem result_closeRule (kind : RuleKind) (rule : ρ) (m : Mode) (c : Cursor) (before : Attempts ρ)
    (r : Reply ρ) : (closeRule kind rule m c before r).result =
      r.result.map fun (last, parts) => (last, ruleTrees kind rule m c last parts) := by
  unfold closeRule ruleTrees
  simp only
  congr 1
  funext ⟨last, parts⟩
  split <;> rfl

/-- A repetition after its first turn: either there is no further turn, or it goes on after a gap
like a repetition that starts there. -/
theorem repeatMatch_matches (ranked : Ranked g) {once : Matcher ρ} {n : Nat}
    (moves : p.mayBeEmpty ranked.nullable = false)
    (turn : ∀ c a, c.rest.length < n → Matches g p m c (once m c a).result) (fuel : Nat)
    (c : Cursor) (a : Attempts ρ) (le : c.rest.length ≤ fuel) (lt : c.rest.length < n) :
    (Matches g p m (skip g m c) none ∧ (repeatMatch g m once fuel c a).result = some (c, [])) ∨
      ∃ r c' ts, Matches g p m (skip g m c) (some r) ∧
        (repeatMatch g m once fuel c a).result = some (c', ts) ∧
        Matches g (.star p) m (skip g m c) (some (c', ts)) := by
  have shorter := (suffix_skip g m c).length_le
  have next := turn (skip g m c) a (by omega)
  -- The text that is left bounds the turns, since each of them moves.
  induction fuel generalizing c a with
  | zero =>
      -- Nothing is left, and a turn would have to move.
      refine .inl ⟨?_, rfl⟩
      cases isFound : (once m (skip g m c) a).result with
      | none => exact isFound ▸ next
      | some r =>
          rw [isFound] at next
          have := next.length_lt ranked moves
          omega
  | succ fuel ih =>
      have unfolded : (repeatMatch g m once (fuel + 1) c a).result =
          ((once m (skip g m c) a).andThen (repeatMatch g m once fuel)).result.or
            (some (c, [])) := by
        rw [repeatMatch, Reply.result_orElse]
      rw [Reply.result_andThen] at unfolded
      cases isFound : (once m (skip g m c) a).result with
      | none =>
          rw [isFound] at next unfolded
          exact .inl ⟨next, unfolded⟩
      | some r =>
          obtain ⟨c₁, ts⟩ := r
          rw [isFound] at next
          rw [isFound, Option.bind_some] at unfolded
          have moved := next.length_lt ranked moves
          have shorter := (suffix_skip g m c₁).length_le
          have after := ih c₁ (once m (skip g m c) a).attempts (by omega) (by omega) shorter
            (turn _ _ (by omega))
          rcases after with ⟨isLast, done⟩ | ⟨r, c₂, us, isNext, more, rest⟩
          · rw [done] at unfolded
            refine .inr ⟨_, c₁, ts, next, ?_, .starOnce next isLast⟩
            simpa using unfolded
          · rw [more] at unfolded
            exact .inr ⟨_, c₂, ts ++ us, next, unfolded, .starAgain next isNext rest⟩

/-- Following a pattern gives what it matches, if calls of its rules do: of those that it may call
before it has moved, and of all rules further on. -/
theorem run_matches (ranked : Ranked g) {call : ρ → Matcher ρ} {fuel : Nat} (p : Pattern ρ)
    (moves : p.repeatsMove ranked.nullable = true) {n : Nat} (enough : n ≤ fuel)
    (start : ∀ r ∈ p.heads ranked.nullable, ∀ m c a, c.rest.length ≤ n →
      Matches g (.rule r) m c (call r m c a).result)
    (later : ∀ r m c a, c.rest.length < n → Matches g (.rule r) m c (call r m c a).result)
    (m : Mode) (c : Cursor) (a : Attempts ρ) (le : c.rest.length ≤ n) :
    Matches g p m c (p.run g call fuel m c a).result := by
  -- The point from which all rules may be called moves on with the pattern, hence `n` is general.
  induction p generalizing n m c a with
  | text chars =>
      simp only [Pattern.run]
      cases moved : c.text? chars with
      | none => exact .noText moved
      | some c' => exact .text moved
  | char allowed =>
      simp only [Pattern.run]
      cases moved : c.char? allowed with
      | none => exact .noChar moved
      | some c' => exact .char moved
  | seq p q first second =>
      simp only [Pattern.repeatsMove, Bool.and_eq_true] at moves
      have isFirst := first moves.1 enough
        (fun r member => start r (List.mem_append_left _ member)) later m c a le
      simp only [Pattern.run, Reply.result_andThen]
      cases isFound : (p.run g call fuel m c a).result with
      | none => exact .seqFirst (isFound ▸ isFirst)
      | some r =>
          obtain ⟨c₁, ts⟩ := r
          rw [isFound] at isFirst
          have shorter := ((suffix_skip g m c₁).trans isFirst.suffix).length_le
          -- The second part may start where the first did only if the first may be empty.
          have isSecond : Matches g q m (skip g m c₁)
              (q.run g call fuel m (skip g m c₁) (p.run g call fuel m c a).attempts).result := by
            cases empty : p.mayBeEmpty ranked.nullable with
            | true =>
                refine second moves.2 enough (fun r member => start r ?_) later m _ _ (by omega)
                simp [Pattern.heads, empty, member]
            | false =>
                have moved := isFirst.length_lt ranked empty
                have skipped := (suffix_skip g m c₁).length_le
                exact second moves.2 (n := (skip g m c₁).rest.length) (by omega)
                  (fun r _ m c a le => later r m c a (by omega))
                  (fun r m c a lt => later r m c a (by omega)) m _ _ (Nat.le_refl _)
          simp only [Option.bind_some]
          cases isFound' : (q.run g call fuel m (skip g m c₁)
              (p.run g call fuel m c a).attempts).result with
          | none => exact .seqSecond isFirst (isFound' ▸ isSecond)
          | some r => exact .seq isFirst (isFound' ▸ isSecond)
  | alt p q first second =>
      simp only [Pattern.repeatsMove, Bool.and_eq_true] at moves
      have isFirst := first moves.1 enough
        (fun r member => start r (List.mem_append_left _ member)) later m c a le
      have isSecond := second moves.2 enough
        (fun r member => start r (List.mem_append_right _ member)) later m c
        (p.run g call fuel m c a).attempts le
      simp only [Pattern.run, Reply.result_orElse]
      cases isFound : (p.run g call fuel m c a).result with
      | none => exact .altSecond (isFound ▸ isFirst) isSecond
      | some r => exact .altFirst (isFound ▸ isFirst)
  | opt p once =>
      have isOnce := once moves enough start later m c a le
      simp only [Pattern.run, Reply.result_orElse]
      cases isFound : (p.run g call fuel m c a).result with
      | none => exact .optNone (isFound ▸ isOnce)
      | some r => exact .opt (isFound ▸ isOnce)
  | star p once =>
      simp only [Pattern.repeatsMove, Bool.and_eq_true, Bool.not_eq_true'] at moves
      have isOnce := once moves.2 enough start later m c a le
      simp only [Pattern.run, Reply.result_orElse, Reply.result_andThen]
      cases isFound : (p.run g call fuel m c a).result with
      | none => exact .starNone (isFound ▸ isOnce)
      | some r =>
          obtain ⟨c₁, ts⟩ := r
          rw [isFound] at isOnce
          have moved := isOnce.length_lt ranked moves.1
          -- Further turns start after a move, where every rule may be called.
          have turn : ∀ c a, c.rest.length < n →
              Matches g p m c (p.run g call fuel m c a).result := by
            intro c a lt
            exact once moves.2 (n := c.rest.length) (by omega)
              (fun r _ m c a le => later r m c a (by omega))
              (fun r m c a lt => later r m c a (by omega)) m c a (Nat.le_refl _)
          have again := repeatMatch_matches ranked moves.1 turn fuel c₁
            (p.run g call fuel m c a).attempts (by omega) (by omega)
          rcases again with ⟨isLast, done⟩ | ⟨r, c₂, us, isNext, more, rest⟩
          · rw [Option.bind_some, done]
            simpa using Matches.starOnce isOnce isLast
          · rw [Option.bind_some, more]
            exact .starAgain isOnce isNext rest
  | ahead p inner =>
      have isInner := inner moves enough start later { m with look := m.look.enter true } c a le
      simp only [Pattern.run]
      cases isFound : (p.run g call fuel { m with look := m.look.enter true } c a).result with
      | none => exact .aheadNone (isFound ▸ isInner)
      | some r => exact .ahead (isFound ▸ isInner)
  | notAhead p inner =>
      have isInner := inner moves enough start later { m with look := m.look.enter false } c a le
      simp only [Pattern.run]
      cases isFound : (p.run g call fuel { m with look := m.look.enter false } c a).result with
      | none => exact .notAhead (isFound ▸ isInner)
      | some r => exact .notAheadNone (isFound ▸ isInner)
  | atEnd =>
      simp only [Pattern.run]
      split
      · rename_i isEmpty
        exact .atEnd (List.isEmpty_iff.mp isEmpty)
      · rename_i notEmpty
        exact .notAtEnd fun isEmpty => notEmpty (List.isEmpty_iff.mpr isEmpty)
  | rule r => exact start r (List.mem_singleton_self r) m c a le

/-- With enough rules to open, a call gives what the rule matches. -/
theorem call_matches (ranked : Ranked g) (fuel : Nat) (r : ρ) (m : Mode) (c : Cursor)
    (a : Attempts ρ) (enough : ranked.bound * c.rest.length + ranked.rank r < fuel) :
    Matches g (.rule r) m c (g.call fuel r m c a).result := by
  induction fuel generalizing r m c a with
  | zero => omega
  | succ fuel ih =>
      have positive := ranked.rank_lt r
      have product : c.rest.length ≤ ranked.bound * c.rest.length :=
        Nat.le_mul_of_pos_left _ (by omega)
      have inner : ∀ m, Matches g (g.pattern r) m c
          ((g.pattern r).run g (g.call fuel) fuel m c a).result := by
        intro m
        refine run_matches ranked (g.pattern r) (ranked.moves r) (n := c.rest.length) (by omega)
          ?_ ?_ m c a (Nat.le_refl _)
        -- A rule called at the same point has a smaller number.
        · intro r' isHead m' c' a' le
          have := ranked.down r r' isHead
          have := Nat.mul_le_mul_left ranked.bound le
          exact ih r' m' c' a' (by omega)
        -- A rule called further on has a character less to go, which is worth all numbers.
        · intro r' m' c' a' lt
          have := ranked.rank_lt r'
          have := Nat.mul_le_mul_left ranked.bound (Nat.succ_le_of_lt lt)
          rw [Nat.mul_succ] at this
          exact ih r' m' c' a' (by omega)
      simp only [Grammar.call]
      split
      · rename_i isSilent
        exact .silent isSilent (inner m)
      · rename_i notSilent
        have isInner := inner ((g.kind r).inner ((g.kind r).outer m))
        rw [result_closeRule]
        cases isFound : ((g.pattern r).run g (g.call fuel) fuel
            ((g.kind r).inner ((g.kind r).outer m)) c a).result with
        | none => exact .noRule notSilent (isFound ▸ isInner)
        | some found => exact .rule notSilent (isFound ▸ isInner)

section

variable (ranked : Ranked g) (le : ranked.bound ≤ g.rules.length + 1)

include ranked le

/-- A whole text is matched with rules enough to open. -/
theorem matches_call (start : ρ) (text : List Char) :
    Matches g (.rule start) {} (Cursor.start text)
      (g.call (g.depthBound text) start {} (Cursor.start text) {}).result := by
  refine call_matches ranked (g.depthBound text) start {} (Cursor.start text) {} ?_
  have := ranked.rank_lt start
  have := Nat.mul_le_mul_right text.length le
  show ranked.bound * text.length + ranked.rank start < (g.rules.length + 1) * (text.length + 2)
  rw [Nat.mul_add]
  omega

variable [DecidableEq ρ] {start : ρ} {text : List Char} {trees : List (ParseTree ρ)}

/-- **The bound is never met.** A text that a rule matches is matched without one. -/
theorem matches_of_match? (matched : g.match? start text = .ok trees) :
    ∃ last, Matches g (.rule start) {} (Cursor.start text) (some (last, trees)) := by
  have isMatch := matches_call ranked le start text
  simp only [match?] at matched
  split at matched
  · rename_i last trees' isFound
    cases matched
    exact ⟨last, isFound ▸ isMatch⟩
  · cases matched

/-- What a rule matches is found. -/
theorem match?_of_matches {last : Cursor}
    (isMatch : Matches g (.rule start) {} (Cursor.start text) (some (last, trees))) :
    g.match? start text = .ok trees := by
  have isFound := (matches_call ranked le start text).unique isMatch
  simp only [match?, isFound]

/-- Where a rule matches nothing, nothing is found. -/
theorem match?_of_not_matches
    (noMatch : Matches g (.rule start) {} (Cursor.start text) none) :
    ∃ e, g.match? start text = .error e := by
  have isFound := (matches_call ranked le start text).unique noMatch
  simp only [match?, isFound]
  exact ⟨_, rfl⟩

end

end Grammar

end ScriptShell
