import ScriptShell.Proofs.Evaluation.Ensures

/-! # Computations that agree

`Run.Agrees rel x y` compares two computations, in whatever world both start: they end in the same
world, with results that are related, or stop in the same world for the same reason. The rules
follow the ways in which computations are put together, as those of `Run.Ensures` do for one
computation; with equality for the relation, agreement is equality (**`Agrees.eq`**). -/

namespace ScriptShell

namespace Run

variable {α β γ δ : Type}

/-- From every world the two computations come to the same end, with related results. -/
def Agrees (rel : α → β → Prop) (x : Run α) (y : Run β) : Prop :=
  ∀ world, match x world, y world with
    | .ok a ended, .ok b ended' => rel a b ∧ ended = ended'
    | .error e ended, .error e' ended' => e = e' ∧ ended = ended'
    | _, _ => False

/-- The two results are one, which has a property. -/
def Same (value : α → Prop) (a b : α) : Prop :=
  a = b ∧ value a

namespace Agrees

variable {rel : α → β → Prop} {next : γ → δ → Prop} {x : Run α} {y : Run β} {f : α → Run γ}
  {g : β → Run δ}

/-- Two computations that only return. -/
theorem pure {a : α} {b : β} (related : rel a b) : Agrees rel (Pure.pure a) (Pure.pure b) :=
  fun _ => ⟨related, rfl⟩

/-- Two computations that only stop. -/
theorem throw (e : Stop) :
    Agrees rel (MonadExcept.throw e : Run α) (MonadExcept.throw e : Run β) :=
  fun _ => ⟨rfl, rfl⟩

/-- Two computations that only fail. -/
theorem fail (code : ErrorCode) (message : String) :
    Agrees rel (Run.fail code message : Run α) (Run.fail code message : Run β) :=
  fun _ => ⟨rfl, rfl⟩

/-- One computation after another, on both sides. -/
theorem bind (first : Agrees rel x y) (second : ∀ a b, rel a b → Agrees next (f a) (g b)) :
    Agrees next (x >>= f) (y >>= g) := by
  intro world
  have both := first world
  -- Both sides end or both stop, and when they end the second computations start in one world.
  cases ran : x world with
  | ok a ended =>
      cases ran' : y world with
      | ok b ended' =>
          rw [ran, ran'] at both
          obtain ⟨related, rfl⟩ := both
          have after := second a b related ended
          simpa only [Bind.bind, EStateM.bind, ran, ran'] using after
      | error e' ended' =>
          rw [ran, ran'] at both
          exact both.elim
  | error e ended =>
      cases ran' : y world with
      | ok b ended' =>
          rw [ran, ran'] at both
          exact both.elim
      | error e' ended' =>
          rw [ran, ran'] at both
          simpa only [Bind.bind, EStateM.bind, ran, ran'] using both

/-- A computation agrees with itself, and its result has what it ensures. -/
theorem of_ensures {value : α → Prop} {stop : Stop → Prop} (ensures : x.Ensures value stop) :
    Agrees (Same value) x x := by
  intro world
  cases ran : x world with
  | ok a ended => exact ⟨⟨rfl, ensures.of_ok ran⟩, rfl⟩
  | error e ended => exact ⟨rfl, rfl⟩

/-- A computation agrees with itself followed by a function, if that relates. -/
theorem map (x : Run α) {f : α → β} (related : ∀ a, rel a (f a)) :
    Agrees rel x (do return f (← x)) := by
  intro world
  cases ran : x world with
  | ok a ended => simpa only [Bind.bind, EStateM.bind, ran] using ⟨related a, rfl⟩
  | error e ended => simp only [Bind.bind, EStateM.bind, ran, and_self]

/-- A computation agrees with itself, whatever its result. -/
theorem refl (x : Run α) : Agrees (fun _ _ => True) x x := by
  intro world
  cases x world with
  | ok a ended => exact ⟨trivial, rfl⟩
  | error e ended => exact ⟨rfl, rfl⟩

/-- **Computations that agree on equal results are equal.** -/
theorem eq {y : Run α} {value : α → Prop} (agrees : Agrees (Same value) x y) : x = y := by
  funext world
  have both := agrees world
  cases ran : x world <;> cases ran' : y world <;> simp only [ran, ran'] at both
  · rw [both.1.1, both.2]
  · rw [both.1, both.2]

end Agrees

end Run

end ScriptShell
