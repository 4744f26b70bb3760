import Switchboard.Logic.Routing
import Switchboard.Logic.Stream

/-!
A logic node with all its gateways on one clock. The watchers of the links run before and after
everything that is done to the hub.
-/

namespace Switchboard.Logic

open WebSocket

structure Node where
  endpoint : Endpoint Hub Stream
  /-- What the queue of each link holds. -/
  linkBuffer : Nat

namespace Node

def hub (node : Node) : Hub := node.endpoint.state

/-- Does something to the hub, and lets the watchers and the tasks of the links run. -/
def act {α : Type} (node : Node) (f : Hub → α × Hub × List LogLine) : α × Node :=
  let (x, endpoint) := node.endpoint.act fun hub =>
    -- a link that was cancelled before is out before anything else happens
    let (x, hub, log) := f hub.settle
    (x, hub.settle, log)
  (x, { node with endpoint })

def push (node : Node) (envelope : Wire.Envelope) : Nat × Node := node.act (·.push envelope)

def remove (node : Node) (id : UInt64) : Bool × Node :=
  node.act fun hub =>
    let (gone, hub) := hub.remove id
    (gone, hub, [])

def shutdown (node : Node) : Node := (node.act fun hub => ((), hub.shutdown, [])).2

/-- Serves a request that comes without a connection to hand over. -/
def serve (node : Node) (request : Http.Request) : Http.Response × Node :=
  node.act fun hub =>
    match Logic.serve hub request false with
    | .answered answer => (answer.response, answer.hub, answer.log)
    | .upgraded => (Http.UpgradeFault.unsupported.response, hub, [])

/-- What a request for a connection comes to. -/
def admission (hub : Hub) (request : Http.Request) : Outcome :=
  if request.url?.isNone then .answered { response := .empty 400, hub }
  else Logic.serve hub request true

/-- A gateway connects under a name; one that had the name before goes. -/
def connect (node : Node) (name : String) (request : Http.Request) : Node :=
  let endpoint := node.endpoint.drop name
  match admission endpoint.state request with
  | .answered answer =>
    let endpoint := { endpoint with state := answer.hub, log := endpoint.log ++ answer.log }
    let client :=
      if answer.response.size ≤ endpoint.pipeSize then
        .answered endpoint.pipeSize answer.response .finished
      else .stranded endpoint.pipeSize .finished
    { node with endpoint := (endpoint.place name client).settle }
  | .upgraded =>
    let client :=
      if Http.acceptSize answerHeaders ≤ endpoint.pipeSize then
        .upgraded endpoint.pipeSize [] (.greeting (endpoint.now + helloLimit) node.linkBuffer)
      else .stranded endpoint.pipeSize .finished
    { node with endpoint := (endpoint.place name client).settle }

end Node

end Switchboard.Logic
