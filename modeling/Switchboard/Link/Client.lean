import Switchboard.Link.Name
import Switchboard.Log
import Switchboard.Wire.Hello

/-!
The link client of a gateway. It has one worker for each target, and starts them once.
-/

namespace Switchboard.Link

structure Client where
  name : String
  hostname : String
  targets : List String
  started : Bool := false
  deriving DecidableEq, Repr, Inhabited

namespace Client

/-- A client for the targets, in the order in which they first come. -/
def ofTargets (name hostname : String) (targets : List String) : Client :=
  { name, hostname, targets := distinctTargets targets }

/-- What each worker says first on its link. -/
def hello (c : Client) : Wire.Hello := ⟨c.name, c.hostname⟩

def isTarget (c : Client) (target : String) : Bool := c.targets.contains target

/-- Starts the workers, and gives the addresses that they dial. A second start does nothing. -/
def start (c : Client) : List String × Client × List LogLine :=
  if c.started then ([], c, [warning s!"link client {c.name} already started"])
  else (c.targets.map linkUrl, { c with started := true }, [])

end Client

end Switchboard.Link
