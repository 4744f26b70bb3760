import Switchboard.Gateway.Node

/-!
What the tasks of a gateway do to its registries, as scripts of single actions. Each action is one
look at a registry, or one mutation handed to a writer together with the wait for its answer; other
tasks may act between two actions but not within one. `run` carries a script out without
interruption.
-/

namespace Switchboard.Gateway

open Session

inductive Script where
  | done
  | find (uid : Int64) (next : List SessionRef → Script)
  | mutate (op : IndexChange) (next : List SessionRef → Script)
  | groupsOf (s : SessionRef) (next : List Int64 → Script)
  | regroup (op : GroupChange) (next : Script)
  | close (s : SessionRef) (next : Script)

namespace Script

/-- Joins the groups; without any there is nothing to hand to the writer. -/
def subscribe (s : SessionRef) (gids : List Int64) (next : Script) : Script :=
  if gids.isEmpty then next else .regroup (.subscribe s gids) next

def unsubscribe (s : SessionRef) (gids : List Int64) (next : Script) : Script :=
  if gids.isEmpty then next else .regroup (.unsubscribe s gids) next

/-- Leaves the groups that the session is seen to be in. -/
def unsubscribeAll (s : SessionRef) (next : Script) : Script :=
  .groupsOf s fun gids => unsubscribe s gids next

def subscribeUser (uid : Int64) (gids : List Int64) : Script :=
  .find uid fun sessions => sessions.foldr (fun s next => subscribe s gids next) .done

def unsubscribeUser (uid : Int64) (gids : List Int64) : Script :=
  .find uid fun sessions => sessions.foldr (fun s next => unsubscribe s gids next) .done

/-- The sessions of a user are detached, and then leave their groups and close one by one. -/
def kick (uid : Int64) : Script :=
  .mutate (.detachUser uid) fun detached =>
    detached.foldr (fun s next => unsubscribeAll s (.close s next)) .done

/-- What a connection does once its session is made. -/
def enter (s : SessionRef) (gids : List Int64) : Script :=
  -- whoever finds the session in the index finds its groups joined
  subscribe s gids (.mutate (.add s) fun _ => .done)

/-- What a connection does before it ends. -/
def leave (s : SessionRef) : Script :=
  -- once it is out of the index, no new command finds it while it leaves its groups
  .close s (.mutate (.remove s) fun _ => unsubscribeAll s .done)

/-- Carries a script out in one go. -/
def run : Script → Node → Node × List LogLine
  | .done, node => (node, [])
  | .find uid next, node => (next (node.index.ofUser uid)).run node
  | .mutate op next, node =>
    let (answer, node, log) := node.mutate op
    let (node, rest) := (next answer).run node
    (node, log ++ rest)
  | .groupsOf s next, node => (next (node.groups.groupsOf s)).run node
  | .regroup op next, node =>
    let (node, log) := node.regroup op
    let (node, rest) := next.run node
    (node, log ++ rest)
  | .close s next, node => next.run { node with post := node.post.close s }

end Script

end Switchboard.Gateway
