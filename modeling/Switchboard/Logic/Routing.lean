import Switchboard.Http.Upgrade
import Switchboard.Link.Name
import Switchboard.Logic.Ingress

/-!
Routing on a logic node. Any origin may use it, which every answer says in its headers.
-/

namespace Switchboard.Logic

inductive Route where
  | link
  | push
  | commands
  | links
  deriving DecidableEq, Repr, Inhabited

namespace Route

/-- The route of a path, which must match as it is written. -/
def ofPath? (path : String) : Option Route :=
  [(Link.endpointPath, link), ("/api/v1/push", push), ("/api/v1/commands", commands),
    ("/api/v1/links", links)].lookup path

def methods : Route → List String
  | .link | .links => ["GET", "HEAD"]
  | .push | .commands => ["POST"]

def allow (r : Route) : String := ",".intercalate r.methods

end Route

/-- What a request comes to: an answer, or a connection that becomes a link. -/
inductive Outcome where
  | answered (answer : Answer)
  | upgraded

def route (hub : Hub) (request : Http.Request) (connected : Bool) : Outcome :=
  match Route.ofPath? request.path with
  | none => .answered { response := .empty 404, hub }
  | some r =>
    if request.method ∉ r.methods then .answered { response := .wrongMethod r.allow, hub }
    else
      match r with
      | .push => .answered (handlePush hub request)
      | .commands => .answered (handleCommand hub request)
      | .links => .answered { response := linksResponse hub, hub }
      | .link =>
        match Http.checkUpgrade request connected with
        | .ok () => .upgraded
        | .error fault => .answered { response := fault.response, hub }

def commonHeaders : List (String × String) := [
  ("access-control-allow-origin", "*"),
  ("vary", "origin, access-control-request-method, access-control-request-headers")]

/-- What every answer but that to a preflight request says of itself. -/
def answerHeaders : List (String × String) :=
  commonHeaders ++ [("access-control-expose-headers", "*")]

/-- The answer to a preflight request, which every path has. -/
def preflight (request : Http.Request) : Http.Response where
  status := 200
  headers := commonHeaders ++ [("access-control-allow-headers", "*"),
    ("access-control-allow-methods", "*")] ++
    match Route.ofPath? request.path with
    | some r => [("allow", r.allow)]
    | none => []

/-- Adds the common headers, and leaves the body out where the method asks for none. -/
def dress (request : Http.Request) (response : Http.Response) : Http.Response where
  status := response.status
  headers := answerHeaders ++ response.headers
  body := if request.method = "HEAD" then [] else response.body

def serve (hub : Hub) (request : Http.Request) (connected : Bool) : Outcome :=
  if request.method = "OPTIONS" then .answered { response := preflight request, hub }
  else
    match route hub request connected with
    | .answered answer => .answered { answer with response := dress request answer.response }
    | .upgraded => .upgraded

end Switchboard.Logic
