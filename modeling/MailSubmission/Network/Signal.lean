set_option autoImplicit false

/-!
# Network: cancellation signals

A signal is fired by any of its cancellers and stays fired; its tokens show whether
it is.  Cancellers and tokens may be copied freely, since a copy names the same
signal.
-/

namespace MailSubmission

/-- Fires a signal. -/
structure Canceller where
  signal : Nat := 0
  deriving DecidableEq, Repr, Inhabited

/-- Shows whether a signal has fired. -/
structure Token where
  signal : Nat := 0
  deriving DecidableEq, Repr, Inhabited

/-- The signals there are. -/
structure Switchboard where
  /-- The number of signals made. -/
  made : Nat := 0
  /-- The signals that have fired. -/
  fired : List Nat := []
  deriving DecidableEq, Repr, Inhabited

namespace Switchboard

/-- Make a signal. -/
def pair (s : Switchboard) : Canceller × Token × Switchboard :=
  (⟨s.made⟩, ⟨s.made⟩, { s with made := s.made + 1 })

/-- Make a token that no canceller goes with. -/
def never (s : Switchboard) : Token × Switchboard :=
  let (_, token, s) := s.pair
  (token, s)

/-- Fire a signal; again changes nothing. -/
def fire (s : Switchboard) (c : Canceller) : Switchboard :=
  if s.fired.contains c.signal then s else { s with fired := c.signal :: s.fired }

/-- The token's signal has fired. -/
def isFired (s : Switchboard) (t : Token) : Bool := s.fired.contains t.signal

end Switchboard

end MailSubmission
