import Switchboard.Link.Fault

/-!
When a link is tried again and which failures are logged. The wait grows by a step with every
failure up to a limit; the count starts over after sixteen failures, so that a long outage shows up
in the log from time to time.
-/

namespace Switchboard.Link

/-- Failures after which the count starts over. -/
def repeatLimit : Nat := 16

/-- Seconds that each failure adds to the wait. -/
def waitStep : Nat := 10

def waitLimit : Nat := 60

structure Retry where
  count : Nat := 0
  last : Option Status := none
  deriving DecidableEq, Repr, Inhabited

/-- What to do about a failure: whether it is logged, and how many seconds to wait. -/
structure Decision where
  log : Bool
  wait : Nat
  deriving DecidableEq, Repr, Inhabited

namespace Retry

/-- A frame that decodes ends every outage. -/
def afterMessage (_ : Retry) : Retry := ⟨0, some .ok⟩

/-- A failure is logged when its status is new or the count has just started. -/
def afterFailure (r : Retry) (status : Status) : Decision × Retry :=
  -- the wait is told by the failures before this one, so the first is followed by none
  (⟨r.last ≠ some status || r.count = 0, min (waitStep * r.count) waitLimit⟩,
    ⟨if r.count + 1 = repeatLimit then 0 else r.count + 1, some status⟩)

end Retry

end Switchboard.Link
