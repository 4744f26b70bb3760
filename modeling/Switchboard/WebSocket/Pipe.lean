import Switchboard.WebSocket.Frame

/-!
The way of frames from a server to a client. The pipe holds a bounded number of bytes that the
client has not read; what does not fit waits at the server, where a frame can be cut anywhere. A
client that reads takes everything at once.
-/

namespace Switchboard.WebSocket

structure Pipe where
  capacity : Nat
  reading : Bool := true
  /-- Bytes in the pipe. -/
  used : Nat := 0
  /-- Messages whose frames have passed into the pipe as a whole. -/
  arrived : List Message := []
  /-- Messages still at the server, each with the number of its bytes that are. -/
  waiting : List (Message × Nat) := []
  deriving DecidableEq, Repr, Inhabited

namespace Pipe

/-- Passes as many waiting bytes as there is room for. -/
def fill (room : Nat) (moved : Nat) (arrived : List Message) :
    List (Message × Nat) → Nat × List Message × List (Message × Nat)
  | [] => (moved, arrived.reverse, [])
  | (m, left) :: rest =>
    if left ≤ room then fill (room - left) (moved + left) (m :: arrived) rest
    -- this frame is cut, and none behind it may pass
    else (moved + room, arrived.reverse, (m, left - room) :: rest)

def flush (p : Pipe) : Pipe :=
  if p.reading then
    -- a client that reads makes room faster than anyone fills it
    { p with used := 0, arrived := p.arrived ++ p.waiting.map Prod.fst, waiting := [] }
  else
    let (moved, arrived, waiting) := fill (p.capacity - p.used) 0 [] p.waiting
    { p with used := p.used + moved, arrived := p.arrived ++ arrived, waiting }

def write (p : Pipe) (m : Message) : Pipe :=
  { p with waiting := p.waiting ++ [(m, m.frame.size)] }.flush

/-- All that was sent is in the pipe. -/
def isFlushed (p : Pipe) : Bool := p.waiting.isEmpty

def stall (p : Pipe) : Pipe := { p with reading := false }

def resume (p : Pipe) : Pipe := { p with reading := true }.flush

/-- The server's end goes: what is not in the pipe yet is lost. -/
def shut (p : Pipe) : Pipe := { p with waiting := [] }

/-- What the client finds in the pipe, if it reads. -/
def take (p : Pipe) : List Message × Pipe :=
  if p.reading then (p.arrived, { p with arrived := [] }) else ([], p)

end Pipe

end Switchboard.WebSocket
