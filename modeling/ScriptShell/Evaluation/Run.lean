import ScriptShell.Module.Basic

/-! # Runs

A run can print, can be cancelled, and can stop before its end. `Run` is the type of computations
that do so: they act on a `World`, which holds what was printed and the cancellation token, and end
with a value or with a reason to stop. -/

namespace ScriptShell

/-- A cancellation token. It is fired from outside after a number of further moments, or never, and
from inside by the run itself. The moments are those at which the run looks at it or lets others go
on. -/
structure Token where
  fired : Bool := false
  /-- How many further moments find it unfired, when it is fired from outside. -/
  firesAfter : Option Nat := none
  deriving DecidableEq, Repr, Inhabited

namespace Token

/-- A token that is fired already. -/
def cancelled : Token := { fired := true }

/-- Fires the token. -/
def fire (t : Token) : Token :=
  { t with fired := true }

/-- Looks at the token: whether it is fired, and the token after that look. -/
def look (t : Token) : Bool × Token :=
  if t.fired then (true, t)
  else
    match t.firesAfter with
    | none => (false, t)
    | some 0 => (true, t.fire)
    | some (n + 1) => (false, { t with firesAfter := some n })

/-- A fired token stays fired. -/
@[simp] theorem look_fire (t : Token) : t.fire.look = (true, t.fire) := by
  simp [look, fire]

end Token

/-- What a run acts on. -/
structure World where
  token : Token := {}
  printed : String := ""
  deriving DecidableEq, Repr, Inhabited

/-- The world after others went on for a moment. The token may have been fired from outside. -/
def World.resumed (world : World) : World :=
  { world with token := world.token.look.2 }

/-- Why a run stops before its end. -/
inductive Stop where
  /-- The token was fired. -/
  | cancelled
  | failed (error : RunError)
  /-- A native function broke off. -/
  | broken
  /-- A loop went through all the rounds it was given. -/
  | unfinished
  deriving DecidableEq, Repr, Inhabited

/-- Computations of a run. -/
abbrev Run (α : Type) := EStateM Stop World α

namespace Run

/-- Stops with an error. -/
def fail {α : Type} (code : ErrorCode) (message : String) : Run α :=
  throw (.failed ⟨code, message, []⟩)

/-- Goes on unless the token is fired. -/
def checkpoint : Run Unit := fun world =>
  let (fired, token) := world.token.look
  let world := { world with token }
  if fired then .error .cancelled world else .ok () world

/-- Lets others go on, without a look at the token afterwards. -/
def suspend : Run Unit := fun world =>
  .ok () world.resumed

/-- Takes up what a native function does on the way to its reply. -/
def note (effect : NativeEffect) : Run Unit := fun world =>
  let token := if effect.cancels then world.token.fire else world.token
  let world : World := ⟨token, world.printed ++ effect.printed⟩
  if effect.breaks then .error .broken world else .ok () world

/-- Takes up the reply of a native function. -/
def perform (reply : NativeReply) : Run Value := fun world =>
  let token := if reply.cancels then world.token.fire else world.token
  let world : World := ⟨token, world.printed ++ reply.printed⟩
  match reply.result with
  | .value value => .ok value world
  | .failure error => .error (.failed error) world
  | .breakdown => .error .broken world

/-- Polls an awaited call until its reply is there. Every poll starts with a look at the token: a
fired one goes before whatever the call has to give. -/
def poll (reply : NativeReply) : (pauses : List NativeEffect) → Run Value
  | [] => do
    checkpoint
    perform reply
  | effect :: rest => do
    checkpoint
    note effect
    poll reply rest

end Run

end ScriptShell
