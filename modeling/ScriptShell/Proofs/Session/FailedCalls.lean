import ScriptShell.Proofs.Session.Step

/-! # Failed calls leave no trace

A session is called again and again: each call brings a text, arguments and a cancellation token,
and several calls may bring the same token. `Session.answerAll` follows such a sequence of calls.
The law of this file compares two whole sequences: the calls that failed or were cancelled can be
deleted from a sequence, and neither the final session nor any other answer changes.

The two runs need not agree on which tokens are fired, since a call that fires its token and fails
is deleted with its effect on the token. They do not have to: whoever brings a fired token is
cancelled, and deleted as well. -/

namespace ScriptShell

/-- A call of a session. Its token may be fired from outside while the call lasts, after a number of
moments. -/
structure Call where
  text : String
  args : List String := []
  /-- The number of the token that the call brings. -/
  token : Nat
  /-- After how many moments the token is fired from outside, if it is. -/
  firesAfter : Option Nat := none
  deriving DecidableEq, Repr

/-- The world in which a call starts, given which tokens are fired. -/
def Call.world (call : Call) (fired : Nat → Bool) : World :=
  ⟨⟨fired call.token, call.firesAfter⟩, ""⟩

/-- Whether an evaluation ended with a fault or was cancelled. -/
def Evaluation.isFailure (e : Evaluation) : Bool :=
  match e.outcome with
  | .fault _ | .cancelled => true
  | .success .. | .unfinished => false

namespace Session

/-- The answer to one call. -/
def answer (h : Host) (s : Session) (fired : Nat → Bool) (call : Call) : Evaluation :=
  s.evaluate h call.text call.args (call.world fired)

/-- Which tokens are fired after a call: what happened to its own token shows, and the others are as
they were. -/
def firedAfter (h : Host) (s : Session) (fired : Nat → Bool) (call : Call) (token : Nat) : Bool :=
  if token = call.token then (s.answer h fired call).world.token.fired else fired token

/-- The answers to calls made one after the other, and the session after them. -/
def answerAll (h : Host) : Session → (fired : Nat → Bool) → List Call → List Evaluation × Session
  | s, _, [] => ([], s)
  | s, fired, call :: rest =>
    let others :=
      answerAll h (s.answer h fired call).session (s.firedAfter h fired call) rest
    (s.answer h fired call :: others.1, others.2)

/-- The calls of a sequence that neither failed nor were cancelled. -/
def unfailedCalls (h : Host) (s : Session) (fired : Nat → Bool) (calls : List Call) : List Call :=
  ((calls.zip (s.answerAll h fired calls).1).filter fun answered => !answered.2.isFailure).map (·.1)

/-! ## One call -/

/-- A call that fails leaves the session as it was. -/
theorem session_of_isFailure {h : Host} {s : Session} {fired : Nat → Bool} {call : Call}
    (failure : (s.answer h fired call).isFailure = true) :
    (s.answer h fired call).session = s := by
  apply evaluate_session
  unfold Evaluation.isFailure answer at failure
  split at failure
  · rename_i outcome
    rw [outcome]
    rfl
  · rename_i outcome
    rw [outcome]
    rfl
  · cases failure
  · cases failure

/-- A call that brings a fired token fails, and the token stays fired. -/
theorem isFailure_of_fired {h : Host} {s : Session} {fired : Nat → Bool} {call : Call}
    (isFired : fired call.token = true) :
    (s.answer h fired call).isFailure = true ∧ s.firedAfter h fired call call.token = true := by
  obtain ⟨cancelled, stays⟩ :=
    evaluate_of_fired h s call.text call.args (call.world fired) isFired
  constructor
  · simp [Evaluation.isFailure, answer, cancelled]
  · simpa [firedAfter, answer] using stays

/-- A call does not unfire a token: what is fired before it is fired after it. -/
theorem firedAfter_of_fired {h : Host} {s : Session} {fired : Nat → Bool} {call : Call}
    {token : Nat} (isFired : fired token = true) : s.firedAfter h fired call token = true := by
  by_cases own : token = call.token
  · subst own
    exact (isFailure_of_fired isFired).2
  · simpa [firedAfter, own] using isFired

/-- Where a call does not fail, fewer fired tokens make no difference to it: its own token cannot
be fired on either side. -/
theorem answer_of_fewer {h : Host} {s : Session} {fired fewer : Nat → Bool} {call : Call}
    (le : ∀ token, fewer token = true → fired token = true)
    (unfailed : (s.answer h fired call).isFailure = false) :
    s.answer h fewer call = s.answer h fired call := by
  -- The world in which a call starts depends on the fired tokens through the call's own one only.
  have unfired : fired call.token = false := by
    refine Bool.eq_false_iff.mpr fun isFired => ?_
    rw [(isFailure_of_fired isFired).1] at unfailed
    cases unfailed
  have unfired' : fewer call.token = false := by
    refine Bool.eq_false_iff.mpr fun isFired => ?_
    rw [le _ isFired] at unfired
    cases unfired
  simp only [answer, Call.world, unfired, unfired']

/-! ## All calls -/

/-- The law for two runs of which the second starts with fewer fired tokens. Only this form carries
the induction: a deleted call may have fired its token in the first run. -/
theorem answerAll_unfailedCalls_of_fewer (h : Host) (s : Session) (fired fewer : Nat → Bool)
    (calls : List Call) (le : ∀ token, fewer token = true → fired token = true) :
    s.answerAll h fewer (s.unfailedCalls h fired calls) =
      ((s.answerAll h fired calls).1.filter (!·.isFailure), (s.answerAll h fired calls).2) := by
  induction calls generalizing s fired fewer with
  | nil => rfl
  | cons call rest ih =>
      cases failure : (s.answer h fired call).isFailure with
      | true =>
          -- The call is deleted: the second run stays where it is, and may now have fewer fired
          -- tokens.
          have same : (s.answer h fired call).session = s := session_of_isFailure failure
          have deleted : s.unfailedCalls h fired (call :: rest) =
              s.unfailedCalls h (s.firedAfter h fired call) rest := by
            simp [unfailedCalls, answerAll, failure, same]
          have le' : ∀ token, fewer token = true → s.firedAfter h fired call token = true :=
            fun token isFired => firedAfter_of_fired (le token isFired)
          rw [deleted, ih s (s.firedAfter h fired call) fewer le']
          simp [answerAll, failure, same]
      | false =>
          -- The call is answered in both runs, with the same answer, so the token it brings ends
          -- alike.
          have answered : s.answer h fewer call = s.answer h fired call :=
            answer_of_fewer le failure
          have kept : s.unfailedCalls h fired (call :: rest) =
              call :: (s.answer h fired call).session.unfailedCalls h
                (s.firedAfter h fired call) rest := by
            simp [unfailedCalls, answerAll, failure]
          have le' : ∀ token, s.firedAfter h fewer call token = true →
              s.firedAfter h fired call token = true := by
            intro token isFired
            unfold firedAfter at isFired ⊢
            rw [answered] at isFired
            split at isFired
            · rename_i own
              rwa [if_pos own]
            · rename_i other
              rw [if_neg other]
              exact le token isFired
          rw [kept]
          simp only [answerAll, answered]
          rw [ih _ _ _ le']
          simp [failure]

/-- **Failed calls leave no trace.** Deleting from a sequence of calls all those that failed or were
cancelled leaves the session after the sequence the same, and leaves every other answer the same:
its outcome, what it printed, which sources it asked and the session after it. -/
theorem answerAll_unfailedCalls (h : Host) (s : Session) (fired : Nat → Bool) (calls : List Call) :
    s.answerAll h fired (s.unfailedCalls h fired calls) =
      ((s.answerAll h fired calls).1.filter (!·.isFailure), (s.answerAll h fired calls).2) :=
  answerAll_unfailedCalls_of_fewer h s fired fired calls fun _ isFired => isFired

end Session

end ScriptShell
