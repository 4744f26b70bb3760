import Switchboard.Text.Blank

/-!
Names of gateways and addresses of links.
-/

namespace Switchboard.Link

def endpointPath : String := "/link"

/-- A gateway's name: its stem, its process and a salt, so that a logic node can tell processes
apart. -/
def gatewayName (stem process salt : String) : String := stem ++ "-" ++ process ++ "." ++ salt

/-- A target without the slashes at its end. -/
def trimSlashes (target : String) : String :=
  .ofList (Text.dropEndWhile (· = '/') target.toList)

def linkUrl (target : String) : String := trimSlashes target ++ endpointPath

/-- The targets without repetitions, in the order of their first occurrence. -/
def distinctTargets (targets : List String) : List String :=
  targets.foldl (fun seen target => if target ∈ seen then seen else seen ++ [target]) []

end Switchboard.Link
