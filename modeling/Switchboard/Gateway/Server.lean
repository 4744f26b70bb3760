import Switchboard.Auth.TokenTable
import Switchboard.Directory
import Switchboard.Gateway.Connection
import Switchboard.Http.Upgrade
import Switchboard.Http.Url
import Switchboard.Session.Id

/-!
A gateway with all its clients on one clock: who is let in, and what can be done to the node from
outside.
-/

namespace Switchboard.Gateway

open Session WebSocket

structure Server where
  endpoint : Endpoint Node Task
  tokens : Auth.TokenTable := .empty
  directory : Directory := .empty
  ids : Sequence := {}

/-- How a request for a session is answered: refused over plain HTTP, refused after the upgrade, or
admitted. -/
inductive Admission where
  | answered (response : Http.Response)
  | refused (closing : Closing)
  | admitted (uid : Int64) (token : String)

/-- The bytes of the response that a client is sent first. -/
def Admission.responseSize : Admission → Nat
  | .answered response => response.size
  | .refused _ | .admitted .. => Http.acceptSize []

namespace Server

def sessionPath : String := "/ws"

/-- The user of a request, by its token. -/
def identify (tokens : Auth.TokenTable) (headers : Http.Headers) (query : Http.Query) :
    Admission :=
  match Auth.presentedToken headers query with
  | .error fault => .refused (.noToken fault)
  | .ok token =>
    match tokens.identify token with
    | .error fault => .refused (.unknownToken fault)
    | .ok uid => .admitted uid token

def route (tokens : Auth.TokenTable) (request : Http.Request) (url : Http.Url) : Admission :=
  if url.path ≠ sessionPath then .answered (.empty 404)
  else if request.method ∉ ["GET", "HEAD"] then .answered (.wrongMethod "GET,HEAD")
  else
    match Http.checkUpgrade request true with
    | .error fault =>
      -- an answer to HEAD has no body
      let response := fault.response
      .answered (if request.method = "HEAD" then { response with body := [] } else response)
    | .ok () => identify tokens request.headers (Http.Query.ofBytes url.query)

def admission (tokens : Auth.TokenTable) (request : Http.Request) : Admission :=
  match request.url? with
  | none => .answered (.empty 400)
  | some url => route tokens request url

/-- How a request is answered, if the pipe to the client holds the response. -/
def reception? (server : Server) (request : Http.Request) : Option Admission :=
  let admission := admission server.tokens request
  if admission.responseSize ≤ server.endpoint.pipeSize then some admission else none

def node (server : Server) : Node := server.endpoint.state

/-- A session of an admitted user, registered and in the groups of the directory. -/
def openSession (server : Server) (uid : Int64) (token : String) : SessionRef × Server :=
  let (id, ids) := server.ids.next
  let (session, node) := server.node.openSession id uid token false
  let (node, log) := (Script.enter session (server.directory.groupsOf uid)).run node
  (session, { server with
    ids
    endpoint := { server.endpoint with state := node, log := server.endpoint.log ++ log } })

/-- The client that comes under a name, by how its request is answered, and its session. -/
def place (server : Server) (name : String) (reception? : Option Admission) : Server :=
  let pipeSize := server.endpoint.pipeSize
  match reception? with
  | none => { server with endpoint := server.endpoint.place name (.stranded pipeSize .finished) }
  | some (.answered response) =>
    { server with endpoint := server.endpoint.place name (.answered pipeSize response .finished) }
  | some (.refused closing) =>
    { server with
      endpoint := server.endpoint.place name (.upgraded pipeSize [closing.frame] .refusing) }
  | some (.admitted uid token) =>
    let (session, server) := server.openSession uid token
    let now := server.endpoint.now
    { server with
      endpoint := server.endpoint.place name
        -- the first heartbeat is due at once
        (.upgraded pipeSize [] (.serving { session, lastSeen := now, nextTick := now })) }

/-- A client connects under a name; one that had the name before goes, and its session with it. -/
def connect (server : Server) (name : String) (request : Http.Request) : Server :=
  let dropped : Server := { server with endpoint := server.endpoint.drop name }
  let placed := dropped.place name (server.reception? request)
  { placed with endpoint := placed.endpoint.settle }

/-- Does something to the node and lets the tasks take their steps. -/
def act {α : Type} (server : Server) (f : Node → α × Node × List LogLine) : α × Server :=
  let (x, endpoint) := server.endpoint.act f
  (x, { server with endpoint })

def deliver (server : Server) (packet : Wire.Packet) : Nat × Server :=
  server.act (·.deliver packet)

def accept (server : Server) (envelope : Wire.Envelope) : Server :=
  (server.act fun node => ((), node.accept envelope)).2

def closeAll (server : Server) : Server :=
  (server.act fun node =>
    ((), { node with post := node.index.all.foldl (fun post s => post.close s) node.post }, [])).2

def join (server : Server) (uid gid : Int64) : Server :=
  { server with directory := server.directory.join uid gid }

end Server

end Switchboard.Gateway
