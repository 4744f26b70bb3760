import Switchboard.Gateway.Dispatch
import Switchboard.Link.Retry
import Switchboard.WebSocket.Reader

/-!
The worker that keeps a gateway linked to one logic node. It dials, says hello, hands the frames of
the stream to the gateway, and after every failure waits as its retry state says before it dials
again. Only a stop ends it. Times are in seconds.
-/

namespace Switchboard.Link

open WebSocket

inductive State where
  | disconnected
  | connecting
  | linked
  | backoff
  deriving DecidableEq, Repr, Inhabited

def State.name : State → String
  | .disconnected => "Disconnected"
  | .connecting => "Connecting"
  | .linked => "Linked"
  | .backoff => "Backoff"

inductive Phase where
  | idle
  | dialling
  | greeting
  | streaming
  | waiting (wake : Nat)
  | stopped
  deriving DecidableEq, Repr, Inhabited

def Phase.state : Phase → State
  | .idle | .stopped => .disconnected
  | .dialling | .greeting => .connecting
  | .streaming => .linked
  | .waiting _ => .backoff

/-- What the stream of a link gives next. -/
inductive Item where
  | message (m : Message)
  | ended
  | broken (fault : TransportFault)
  deriving DecidableEq, Repr, Inhabited

def Item.end? : Item → Option Fault
  | .message (.close _) | .ended => some .closed
  | .broken fault => some (.transport fault)
  | .message _ => none

inductive Note where
  | linking (count : Nat)
  | linked
  | unsupported (fault : Wire.Fault)
  | failed (fault : Fault) (decision : Decision)
  | line (l : LogLine)
  deriving DecidableEq, Repr, Inhabited

inductive Signal where
  | start
  | connected
  | unreachable (fault : TransportFault)
  | greeted
  | unheard (reason : String)
  | item (i : Item)
  | elapsed
  | stop
  deriving DecidableEq, Repr, Inhabited

structure Worker where
  phase : Phase := .idle
  retry : Retry := {}
  deriving DecidableEq, Repr, Inhabited

/-- A worker and its gateway after a signal. -/
structure Progress where
  worker : Worker
  node : Gateway.Node
  notes : List Note := []

namespace Worker

def state (w : Worker) : State := w.phase.state

def dial (w : Worker) (node : Gateway.Node) : Progress where
  worker := { w with phase := .dialling }
  node
  notes := [.linking w.retry.count]

/-- A failure, after which the worker waits. -/
def fail (now : Nat) (w : Worker) (node : Gateway.Node) (fault : Fault) : Progress :=
  let (decision, retry) := w.retry.afterFailure fault.status
  { worker := { phase := .waiting (now + decision.wait), retry }
    node
    notes := [.failed fault decision] }

/-- A text frame. One that decodes ends every outage and goes to the gateway. -/
def hear (w : Worker) (node : Gateway.Node) (text : String) : Progress :=
  match Wire.Envelope.ofText text with
  -- a frame of another kind is no failure of the link
  | .error fault => { worker := w, node, notes := [.unsupported fault] }
  | .ok envelope =>
    let (node, log) := node.accept envelope
    { worker := { w with retry := w.retry.afterMessage }, node, notes := log.map .line }

/-- The next item of the stream. Only texts matter. -/
def take (now : Nat) (w : Worker) (node : Gateway.Node) (item : Item) : Progress :=
  match item.end? with
  | some fault => w.fail now node fault
  | none =>
    match item with
    | .message (.text text) => w.hear node text
    | _ => { worker := w, node }

def step? (now : Nat) (w : Worker) (node : Gateway.Node) (signal : Signal) : Option Progress :=
  match w.phase, signal with
  | .idle, .start => some (w.dial node)
  -- a worker hears nothing before its start and after its stop
  | .idle, _ | .stopped, _ => none
  -- everything else can be stopped at any time, a wait included
  | _, .stop => some { worker := { w with phase := .stopped }, node }
  | .dialling, .connected => some { worker := { w with phase := .greeting }, node }
  | .dialling, .unreachable fault => some (w.fail now node (.connect fault))
  | .greeting, .greeted =>
    some { worker := { w with phase := .streaming }, node, notes := [.linked] }
  | .greeting, .unheard reason => some (w.fail now node (.handshake reason))
  | .streaming, .item item => some (w.take now node item)
  | .waiting wake, .elapsed => if wake ≤ now then some (w.dial node) else none
  | _, _ => none

end Worker

end Switchboard.Link
