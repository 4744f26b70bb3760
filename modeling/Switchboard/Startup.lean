import Switchboard.Banner
import Switchboard.Gateway.Server
import Switchboard.Link.Client
import Switchboard.Logic.Node

/-!
From a configuration to a node. What cannot be configured does not start.
-/

namespace Switchboard

def Config.variables : List String :=
  ["PORT", "CHATLINK_MODE", "CHATLINK_LINK_BUFFER", "CHATLINK_LINK_TARGETS",
    "CHATLINK_NAME_PREFIX", "CHATLINK_ACCESS_TOKENS", "CHATLINK_USER_GROUPS"]

namespace Startup

/-- How the process of a node ends: properly, unless it never started. -/
def exitCode : Except Config.Fault Config → UInt32
  | .ok _ => 0
  | .error _ => 101

def logicNode (config : Config) (pipeSize : Nat) : Logic.Node where
  endpoint := { state := {}, pipeSize }
  linkBuffer := config.linkBuffer.toNat

/-- A gateway without clients, whose sessions are numbered by `ids`. -/
def gatewayServer (config : GatewayConfig) (ids : Session.Sequence) (pipeSize : Nat) :
    Gateway.Server where
  endpoint := { state := {}, pipeSize }
  tokens := .ofPairs config.accessTokens
  directory := .ofEntries config.userGroups
  ids

def linkClient (config : GatewayConfig) (process salt hostname : String) : Link.Client :=
  .ofTargets (Link.gatewayName config.nameStem process salt) hostname config.linkTargets

end Startup

end Switchboard
