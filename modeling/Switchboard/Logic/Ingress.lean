import Switchboard.Http.MediaType
import Switchboard.Http.Message
import Switchboard.Logic.Hub
import Switchboard.Wire.Push

/-!
The ingress of a logic node: requests that push a packet or a command into the hub, and the list of
links. A request is checked as a whole before the hub is touched.
-/

namespace Switchboard.Logic

open Wire

/-- The longest body that is read, in bytes. -/
def bodyLimit : Nat := 2097152

inductive Refusal where
  | contentType
  | tooLong
  | malformed
  | wrong (path : List Segment) (cause : Cause)
  | noTargets (kind : Audience)
  | payload (fault : Base64.Fault)
  | blankKind
  deriving DecidableEq, Repr, Inhabited

namespace Refusal

def ofFault : Wire.Fault → Refusal
  | .malformed => .malformed
  | .wrong path cause => .wrong path cause

def message : Refusal → String
  | .contentType => "Expected request with `Content-Type: application/json`"
  | .tooLong => "Failed to buffer the request body: length limit exceeded"
  | .malformed => "Failed to parse the request body as JSON"
  | .wrong path cause =>
    "Failed to deserialize the JSON body into the target type: " ++ Fault.located path cause
  | .noTargets kind => s!"{kind.title} packets need at least one target id"
  | .payload fault => s!"payload is not valid base64: {fault.message}"
  | .blankKind => "command kind is required"

def response (r : Refusal) : Http.Response :=
  .json 400 (Json.Value.text (.object [("error", .object [
    ("code", .string "invalid_request"), ("message", .string r.message)])]))

end Refusal

/-- The body of a request, if it claims to be JSON and is short enough. -/
def jsonBody (request : Http.Request) : Except Refusal Bytes :=
  if !Http.MediaType.isJson request.headers then .error .contentType
  else if bodyLimit < request.body.length then .error .tooLong
  else .ok request.body

/-- The packet that a push asks for. -/
def packetOfPush (push : Push) : Except Refusal Packet :=
  -- targets are checked before the payload is looked at
  if push.kind ≠ .all ∧ push.targets = [] then .error (.noTargets push.kind)
  else if push.base64 then
    match Base64.decode (Text.Utf8.encode push.payload) with
    | .ok payload => .ok ⟨push.kind, push.targets, payload⟩
    | .error fault => .error (.payload fault)
  else .ok ⟨push.kind, push.targets, Text.Utf8.encode push.payload⟩

def checkCommand (command : Command) : Except Refusal Command :=
  if Text.isBlankText command.kind then .error .blankKind else .ok command

def readPacket (request : Http.Request) : Except Refusal Packet := do
  let body ← jsonBody request
  let push ← (Push.ofBytes body).mapError Refusal.ofFault
  packetOfPush push

def readCommand (request : Http.Request) : Except Refusal Command := do
  let body ← jsonBody request
  let command ← (Command.ofBytes body).mapError Refusal.ofFault
  checkCommand command

/-- The answer that tells how many links took a frame. -/
def reachedResponse (reached : Nat) : Http.Response :=
  .json 200 (Json.Value.text (.object [("links", .integer reached)]))

structure Answer where
  response : Http.Response
  hub : Hub
  log : List LogLine := []

/-- Sends what a request asks for, or refuses it and leaves the hub as it is. -/
def submit (hub : Hub) (envelope : Except Refusal Envelope) : Answer :=
  match envelope with
  | .error refusal => { response := refusal.response, hub }
  | .ok envelope =>
    let (reached, hub, log) := hub.push envelope
    { response := reachedResponse reached, hub, log }

def handlePush (hub : Hub) (request : Http.Request) : Answer :=
  submit hub ((readPacket request).map .packet)

def handleCommand (hub : Hub) (request : Http.Request) : Answer :=
  submit hub ((readCommand request).map .command)

def linksResponse (hub : Hub) : Http.Response :=
  .json 200 (Json.Value.text (.array (hub.listed.map fun (id, l) =>
    .object [("id", .integer id.toNat), ("name", .string l.name),
      ("hostname", .string l.hostname)])))

end Switchboard.Logic
