set_option autoImplicit false

/-!
# Run: calls that may fail or be dropped

A call works on a state and either returns, fails, or is dropped by its caller while
it waits.  In all three cases the state is what it was made by then.  A failure can
be caught; a dropped call does nothing more.
-/

namespace MailSubmission

/-- How a call ends that does not return. -/
inductive Halt (ε : Type) where
  /-- it failed -/
  | failed (fault : ε)
  /-- its caller dropped it -/
  | abandoned
  deriving DecidableEq, Repr

/-- A call on a state `σ` with failures `ε`. -/
abbrev Run (ε σ α : Type) : Type := EStateM (Halt ε) σ α

namespace Run

variable {ε ε' σ τ α : Type}

/-- Fail. -/
def fail (fault : ε) : Run ε σ α := throw (.failed fault)

theorem fail_apply (fault : ε) (s : σ) :
    (fail fault : Run ε σ α) s = .error (.failed fault) s := rfl

/-- Turn a failure into a value.  A dropped call stays dropped. -/
def attempt (act : Run ε σ α) : Run ε' σ (Except ε α) := fun s =>
  match act s with
  | .ok a s => .ok (.ok a) s
  | .error (.failed fault) s => .ok (.error fault) s
  | .error .abandoned s => .error .abandoned s

/-- A call on a part of the state. -/
def within (get : τ → σ) (set : σ → τ → τ) (act : Run ε σ α) : Run ε τ α := fun t =>
  match act (get t) with
  | .ok a s => .ok a (set s t)
  | .error halt s => .error halt (set s t)

end Run

end MailSubmission
