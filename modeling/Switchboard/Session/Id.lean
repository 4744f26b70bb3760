/-!
Session ids. A plain sequence counts up. Time-ordered ids hold the milliseconds since the epoch of
the ids above a sequence number of twelve bits; the clock is a list of readings, of which each
look takes the next.
-/

namespace Switchboard.Session

/-- Counts up from the last id. -/
structure Sequence where
  last : UInt64 := 0
  deriving DecidableEq, Repr, Inhabited

def Sequence.next (s : Sequence) : UInt64 × Sequence := (s.last + 1, ⟨s.last + 1⟩)

def Sequence.take (s : Sequence) : Nat → List UInt64
  | 0 => []
  | n + 1 => (s.next).1 :: (s.next).2.take n

/-- The first millisecond of 2024, in milliseconds since 1970. -/
def epoch : UInt64 := 1704067200000

def serialBits : UInt64 := 12

def serialMask : UInt64 := (1 <<< serialBits) - 1

/-- Milliseconds since the epoch, or none of them before it. -/
def sinceEpoch (now : UInt64) : UInt64 := if now < epoch then 0 else now - epoch

/-- The last time used and the last sequence number in it. -/
structure Snowflake where
  timestamp : UInt64 := 0
  sequence : UInt64 := 0
  deriving DecidableEq, Repr, Inhabited

namespace Snowflake

def id (s : Snowflake) : UInt64 := (s.timestamp <<< serialBits) ||| s.sequence

/-- Waits for a reading past `last`; nothing if the readings end before one. -/
def awaitAfter (last : UInt64) : List UInt64 → Option (UInt64 × List UInt64)
  | [] => none
  | now :: clock =>
    if last < sinceEpoch now then some (sinceEpoch now, clock) else awaitAfter last clock

/-- The next id, with the readings left. A clock that stands still or goes back is held at the last
time used, and a millisecond whose numbers are used up is waited out. -/
def next (s : Snowflake) : List UInt64 → Option (Snowflake × List UInt64)
  | [] => none
  | now :: clock =>
    let timestamp := max (sinceEpoch now) s.timestamp
    if timestamp = s.timestamp then
      let sequence := (s.sequence + 1) &&& serialMask
      -- all numbers of this millisecond have been given out
      if sequence = 0 then
        (awaitAfter s.timestamp clock).map fun (timestamp, clock) => (⟨timestamp, 0⟩, clock)
      else some (⟨timestamp, sequence⟩, clock)
    -- a later millisecond counts from zero again
    else some (⟨timestamp, 0⟩, clock)

/-- The states behind the next `n` ids, as far as the readings last. -/
def take (s : Snowflake) (clock : List UInt64) : Nat → List Snowflake
  | 0 => []
  | n + 1 =>
    match s.next clock with
    | none => []
    | some (s, clock) => s :: s.take clock n

end Snowflake

end Switchboard.Session
