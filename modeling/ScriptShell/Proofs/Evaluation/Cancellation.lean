import ScriptShell.Proofs.Evaluation.Trace

/-! # After a cancellation

A token that is fired stays so, whatever happens. So after the moment at which a run's token is
fired, by a native function or from outside, the run starts no further step: it comes to none, or
the first one it comes to ends it. The record that `tracedRun` keeps makes that a statement about
every moment: a moment is a place between two events.

One kind of moment is special. A round of a loop starts with a look at the token and then lets
others go on, before its test. If these fire the token, the test of that round is still evaluated,
since its look is over. **`tracedRun_after_firing`** says that nothing else gets past a fired token.
-/

namespace ScriptShell

/-- A token that a look finds fired is found fired by the next one. -/
theorem Token.look_of_fired {t : Token} (fired : t.look.1 = true) : t.look.2.look.1 = true := by
  unfold look at fired ⊢
  cases isFired : t.fired with
  | true => simp [isFired]
  | false =>
      rcases fires : t.firesAfter with _ | _ | looks
      · simp [isFired, fires] at fired
      · simp [fire]
      · simp [isFired, fires] at fired

/-- What a computation still does after a moment at which its token is fired, between the events
before it and those after it. -/
structure Halts (before after : List Event) (stop? : Option Stop) : Prop where
  /-- No statement, no round of a loop and no poll of an awaited call starts. -/
  starts : ∀ step, .reach step true ∉ after
  /-- No test of a loop begins to be evaluated, but that of a round which had started already and
  was letting others go on. -/
  tests : after.filterMap Event.test? = [] ∨
    ∃ earlier e, after.filterMap Event.test? = [e] ∧
      (before = earlier ++ [.reach (.round e) true] ∨
        before = earlier ++ [.reach (.round e) true, .suspend])
  /-- An await that begins has no result: it is cancelled, unless what it starts breaks off. -/
  awaits : ∀ target args, .await target args ∈ after →
    stop? = some .cancelled ∨ stop? = some .broken
  /-- The computation is cancelled, or it comes to no further step. -/
  ends : stop? = some .cancelled ∨ ∀ step starts, .reach step starts ∉ after

namespace Halts

variable {before after rest : List Event} {stop? : Option Stop}

/-- With one more event before the moment. -/
theorem later (event : Event) (halts : Halts before after stop?) :
    Halts (event :: before) after stop? where
  starts := halts.starts
  tests := by
    refine halts.tests.imp_right ?_
    rintro ⟨earlier, e, isTest, rfl | rfl⟩
    · exact ⟨event :: earlier, e, isTest, .inl rfl⟩
    · exact ⟨event :: earlier, e, isTest, .inr rfl⟩
  awaits := halts.awaits
  ends := halts.ends

/-- Unless a round has just started or lets others go on, no test begins. -/
theorem tests_eq_nil (halts : Halts before after stop?)
    (noRound : ∀ e, before.getLast? ≠ some (.reach (.round e) true))
    (noSuspend : before.getLast? ≠ some .suspend) : after.filterMap Event.test? = [] := by
  rcases halts.tests with none | ⟨earlier, e, -, rfl | rfl⟩
  · exact none
  · exact absurd (by simp) (noRound e)
  · exact absurd (by simp) noSuspend

/-- One more event after the moment that is no step, no test and no await. -/
theorem cons {event : Event} (halts : Halts [] rest stop?)
    (noStep : ∀ step starts, event ≠ .reach step starts) (noTest : event.test? = none)
    (noAwait : ∀ target args, event ≠ .await target args) : Halts [] (event :: rest) stop? where
  starts step member := by
    rcases List.mem_cons.mp member with isEvent | member
    · exact noStep _ _ isEvent.symm
    · exact halts.starts step member
  tests := .inl (by rw [List.filterMap_cons_none noTest, halts.tests_eq_nil (by simp) (by simp)])
  awaits target args member := by
    rcases List.mem_cons.mp member with isEvent | member
    · exact absurd isEvent.symm (noAwait _ _)
    · exact halts.awaits target args member
  ends := by
    refine halts.ends.imp_right fun none step starts member => ?_
    rcases List.mem_cons.mp member with isEvent | member
    · exact noStep _ _ isEvent.symm
    · exact none step starts member

/-- The test of the round that is going on at the moment. -/
theorem round {e : Expr} {middle : List Event} (halts : Halts [] rest stop?)
    (between : middle = [] ∧ before = [.reach (.round e) true, .suspend] ∨
      middle = [.suspend] ∧ before = [.reach (.round e) true]) :
    Halts before (middle ++ .test e :: rest) stop? where
  starts step member := by
    have inside := halts.starts step
    rcases between with ⟨rfl, -⟩ | ⟨rfl, -⟩
    all_goals simp_all
  tests := by
    refine .inr ⟨[], e, ?_⟩
    have none := halts.tests_eq_nil (by simp) (by simp)
    rcases between with ⟨rfl, rfl⟩ | ⟨rfl, rfl⟩
    all_goals simp [List.filterMap_cons, Event.test?, none]
  awaits target args member := by
    refine halts.awaits target args ?_
    rcases between with ⟨rfl, -⟩ | ⟨rfl, -⟩
    all_goals simpa using member
  ends := by
    refine halts.ends.imp_right fun none step starts => ?_
    have none := none step starts
    rcases between with ⟨rfl, -⟩ | ⟨rfl, -⟩
    all_goals simpa using none

end Halts

namespace Obeys

variable {t : Token} {events before after : List Event} {stop? : Option Stop}

/-- With a token that is fired from the start, nothing starts. -/
theorem halts_of_fired (obeys : Obeys t events stop?) (fired : t.look.1 = true) :
    Halts [] events stop? := by
  induction obeys with
  | done => exact ⟨by simp, .inl rfl, by simp, .inr (by simp)⟩
  | fire _ ih => exact (ih (by rw [Token.look_fire])).cons (by simp) rfl (by simp)
  | opens _ ih => exact (ih fired).cons (by simp) rfl (by simp)
  | @await _ _ _ _ stop? _ polled ih =>
      have halts := ih fired
      have stops : stop? = some .cancelled ∨ stop? = some .broken := by
        rcases polled with broken | ⟨step, starts, member⟩
        · exact .inr broken
        · exact .inl (halts.ends.resolve_right fun none => none step starts member)
      have none := halts.tests_eq_nil (by simp) (by simp)
      exact ⟨by simpa using halts.starts, .inl none, fun _ _ _ => stops,
        halts.ends.imp_right fun none => by simpa using none⟩
  | cancelled _ => exact ⟨by simp, .inl rfl, by simp, .inl rfl⟩
  | starts unfired | round unfired => simp [fired] at unfired

/-- **After a moment at which the token is fired**, nothing starts but what was going on. -/
theorem halts (obeys : Obeys t (before ++ after) stop?) (fired : (t.after before).look.1 = true) :
    Halts before after stop? := by
  generalize isSplit : before ++ after = events at obeys
  induction obeys generalizing before with
  | done =>
      obtain ⟨rfl, rfl⟩ := List.append_eq_nil_iff.mp isSplit
      exact halts_of_fired .done fired
  | fire rest ih | opens rest ih | starts _ _ rest ih | await rest _ ih =>
      cases before with
      | nil =>
          subst isSplit
          exact halts_of_fired (by constructor <;> assumption) fired
      | cons event earlier =>
          cases isSplit
          have halts : Halts earlier after _ := ih fired rfl
          exact halts.later _
  | cancelled isFired =>
      cases before with
      | nil =>
          subst isSplit
          exact halts_of_fired (.cancelled isFired) fired
      | cons event earlier =>
          obtain ⟨-, none⟩ := List.cons.inj isSplit
          obtain ⟨rfl, rfl⟩ := List.append_eq_nil_iff.mp none
          exact ⟨by simp, .inl rfl, by simp, .inl rfl⟩
  | round unfired rest ih =>
      -- Before the look, after it, after the others went on, or later than the test's start.
      rcases before with _ | ⟨first, _ | ⟨second, _ | ⟨third, earlier⟩⟩⟩
      · simp [Token.after, unfired] at fired
      · cases isSplit
        exact (halts_of_fired rest (Token.look_of_fired fired)).round (.inr ⟨rfl, rfl⟩)
      · cases isSplit
        exact (halts_of_fired rest fired).round (.inl ⟨rfl, rfl⟩)
      · cases isSplit
        have halts : Halts earlier after _ := ih fired rfl
        exact ((halts.later _).later _).later _

end Obeys

namespace Execution

-- A token that is fired while the first round lets others go on: the test is evaluated, and the run
-- ends with a value.
example :
    let statements : List Stmt := [.loop (.bool false {}) [] {}]
    let program : Program := ⟨statements, {}, [], [], {}⟩
    let s : Execution := ⟨.empty, { id := 1, source := "", program, references := [] }, []⟩
    let world : World := { token := { firesAfter := some 2 } }
    ((s.tracedRun 1 {} world).1.filterMap Event.test?).length = 1 ∧
      Ending.stop? (s.run 1 {} world) = none ∧ (Ending.token (s.run 1 {} world)).fired = true := by
  decide +kernel

end Execution

end ScriptShell
