import Switchboard.Link.Address
import Switchboard.Link.Worker

/-!
A worker on a clock that moves only while it waits. Each of its attempts is met in a given way.
-/

namespace Switchboard.Link

open WebSocket

/-- How an attempt is met: with a failure, or with a stream of these bytes that then breaks off. -/
inductive Meeting where
  | refused (fault : TransportFault)
  | served (bytes : Bytes)
  deriving DecidableEq, Repr, Inhabited

/-- How an attempt to dial an address is met where only the peer at `peer` answers. -/
def Meeting.reaching (peer : Option (String × UInt16)) (address : Except TransportFault Address)
    (answer : Meeting) : Meeting :=
  match address with
  | .error fault => .refused fault
  | .ok address => if peer = some (address.host, address.port) then answer else .refused .io

def TransportFault.ofRead : ReadFault → TransportFault
  | .protocol => .protocol
  | .capacity => .capacity
  | .utf8 => .utf8

/-- The items of a stream, at most `fuel` frames, up to the one that ends it. A stream that breaks
off without a close frame violates the protocol. -/
def itemsOf (r : Reader) : (fuel : Nat) → List Item
  -- a stream has no more frames than bytes, so the fuel lasts to its end
  | 0 => [.broken .protocol]
  | fuel + 1 =>
    match r.next with
    | .starved => [.broken .protocol]
    | .fault fault => [.broken (TransportFault.ofRead fault)]
    | .frame (some (.close reason)) _ => [.message (.close reason)]
    | .frame (some message) r => .message message :: itemsOf r fuel
    | .frame none r => itemsOf r fuel

/-- What the worker is told when an attempt is met. -/
def Meeting.signals : Meeting → List Signal
  | .refused fault => [.unreachable fault]
  | .served bytes =>
    [.connected, .greeted] ++
      (itemsOf { role := .client, pending := bytes } bytes.length).map .item

structure Run where
  now : Nat := 0
  worker : Worker := {}
  node : Gateway.Node
  /-- What was reported, with the time. -/
  notes : List (Nat × Note) := []

namespace Run

/-- A signal comes; one that cannot come changes nothing. -/
def signal (r : Run) (s : Signal) : Run :=
  match r.worker.step? r.now r.node s with
  | none => r
  | some p =>
    { r with
      worker := p.worker
      node := p.node
      notes := r.notes ++ p.notes.map fun n => (r.now, n) }

def await (r : Run) : Run :=
  match r.worker.phase with
  | .waiting wake => { r with now := max r.now wake }.signal .elapsed
  | _ => r

/-- An attempt, from the wait before it to the failure. A wait of no time is over at once. -/
def attempt (r : Run) (m : Meeting) : Run := (m.signals.foldl signal r.await).signal .elapsed

def attempts (r : Run) (ms : List Meeting) : Run := ms.foldl attempt (r.signal .start)

def dials (r : Run) : List Nat :=
  r.notes.filterMap fun (time, n) =>
    match n with
    | .linking _ => some time
    | _ => none

end Run

end Switchboard.Link
